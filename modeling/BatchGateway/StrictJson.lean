import BatchGateway.JsonText

-- json.dumps(value, ensure_ascii=False, separators=(",", ":"), allow_nan=False)
-- followed by encode("utf-8"): an encoder that refuses some of what json.loads reads.
namespace StrictJson
open PythonText PythonJson JsonText

inductive EncodeError where
  -- dumps: "Out of range float values are not JSON compliant"
  | outOfRange
  -- dumps: "maximum recursion depth exceeded while encoding a JSON object"
  | tooDeep
  -- encode: "surrogates not allowed"
  | surrogates
  deriving DecidableEq, Repr

-- Only quotes, backslashes and control characters are escaped.
def escapePlain (c : CodePoint) : Str :=
  match shortEscapes.find? (fun e => e.2 = c) with
  | some e => [backslash,e.1]
  | none =>
    if c.val < 0x20 then [backslash,letterU,hexDigit 0,hexDigit 0,hexDigit (c.val / 16),hexDigit (c.val % 16)] else [c]

def plainText (s : Str) : Str := quote :: (s.flatMap escapePlain ++ [quote])

variable (codec : Codec)

-- A number is written as json.dumps always writes it. Every list and dict takes one
-- of the levels that the stack has left, and the first obstacle met is raised.
mutual
def dumpsStrict : Nat → Json → Except EncodeError Str
  | _, .null => .ok (text "null")
  | _, .bool b => .ok (text (if b then "true" else "false"))
  | _, .int n => .ok (codec.dumps (.int n))
  | _, .float .nan => .error .outOfRange
  | _, .float (.inf _) => .error .outOfRange
  | _, .float (.finite negative exponent fraction) => .ok (codec.dumps (.float (.finite negative exponent fraction)))
  | _, .str s => .ok (plainText s)
  | 0, .arr _ => .error .tooDeep
  | levels+1, .arr items => match dumpsItems levels items with
    | .ok parts => .ok (opening :: (join [comma] parts ++ [closing]))
    | .error e => .error e
  | 0, .obj _ => .error .tooDeep
  | levels+1, .obj members => match dumpsMembers levels members with
    | .ok parts => .ok (openingBrace :: (join [comma] parts ++ [closingBrace]))
    | .error e => .error e
def dumpsItems : Nat → List Json → Except EncodeError (List Str)
  | _, [] => .ok []
  | levels, item :: items => match dumpsStrict levels item with
    | .error e => .error e
    | .ok part => match dumpsItems levels items with
      | .error e => .error e
      | .ok parts => .ok (part :: parts)
def dumpsMembers : Nat → List (Str × Json) → Except EncodeError (List Str)
  | _, [] => .ok []
  | levels, (key,value) :: members => match dumpsStrict levels value with
    | .error e => .error e
    | .ok part => match dumpsMembers levels members with
      | .error e => .error e
      | .ok parts => .ok ((plainText key ++ colon :: part) :: parts)
end

def encodeJson (j : Json) : Except EncodeError Bytes :=
  match dumpsStrict codec (codec.levels .posted) j with
  | .error e => .error e
  | .ok s => match encode s with
    | none => .error .surrogates
    | some bytes => .ok bytes

-- No number is NaN or infinite and no string, keys included, has a surrogate.
mutual
def encodable : Json → Bool
  | .null | .bool _ | .int _ => true
  | .float .nan => false
  | .float (.inf _) => false
  | .float (.finite _ _ _) => true
  | .str s => !s.any isSurrogate
  | .arr items => encodableItems items
  | .obj members => encodableMembers members
def encodableItems : List Json → Bool
  | [] => true
  | item :: items => encodable item && encodableItems items
def encodableMembers : List (Str × Json) → Bool
  | [] => true
  | (key,value) :: members => !key.any isSurrogate && encodable value && encodableMembers members
end

def scalars (s : Str) : Bool := !s.any isSurrogate

theorem scalars_append (s t : Str) : scalars (s ++ t) = (scalars s && scalars t) := by
  simp [scalars,List.any_append]

theorem scalars_cons (c : CodePoint) (s : Str) : scalars (c :: s) = (!isSurrogate c && scalars s) := by
  simp [scalars]

theorem scalars_ascii {s : Str} (ascii : ∀ c ∈ s, c.val < 0x80) : scalars s = true := by
  simp only [scalars,Bool.not_eq_true',List.any_eq_false]
  intro c member
  have small := ascii c member
  simp only [isSurrogate,Bool.and_eq_true,decide_eq_true_eq,not_and,not_le]
  omega

theorem shortEscapes_ascii : ∀ e ∈ shortEscapes, isSurrogate e.1 = false ∧ isSurrogate e.2 = false := by
  intro e member
  simp only [shortEscapes,List.mem_cons,List.not_mem_nil,or_false] at member
  rcases member with rfl | rfl | rfl | rfl | rfl | rfl | rfl <;> decide

theorem hexDigit_scalar : ∀ d, d < 16 → isSurrogate (hexDigit d) = false := by
  have digits : ∀ d : Fin 16, isSurrogate (hexDigit d) = false := by decide
  exact fun d small => digits ⟨d,small⟩

theorem escapePlain_scalars (c : CodePoint) : scalars (escapePlain c) = !isSurrogate c := by
  unfold escapePlain
  split
  · rename_i e found
    have plain := shortEscapes_ascii e (List.mem_of_find?_eq_some found)
    have stands : e.2 = c := by simpa using List.find?_some found
    have mark : isSurrogate backslash = false := by decide
    rw [← stands,plain.2,scalars_cons,scalars_cons,mark,plain.1]
    rfl
  · split
    · rename_i control
      have here : isSurrogate c = false := by
        simp only [isSurrogate,Bool.and_eq_false_iff,decide_eq_false_iff_not]
        omega
      have marks : isSurrogate backslash = false ∧ isSurrogate letterU = false := by decide
      simp only [scalars_cons,marks,here,hexDigit_scalar 0 (by omega),hexDigit_scalar (c.val / 16) (by omega),
        hexDigit_scalar (c.val % 16) (by omega)]
      rfl
    · rw [scalars_cons]
      simp [scalars]

theorem plainText_scalars (s : Str) : scalars (plainText s) = scalars s := by
  have mark : isSurrogate quote = false := by decide
  have inside : scalars (s.flatMap escapePlain) = scalars s := by
    induction s with
    | nil => rfl
    | cons c s ih => rw [List.flatMap_cons,scalars_append,escapePlain_scalars,ih,scalars_cons]
  rw [plainText,scalars_cons,scalars_append,scalars_cons,mark,inside]
  simp [scalars]

theorem join_scalars (parts : List Str) : scalars (join [comma] parts) = parts.all scalars := by
  have mark : isSurrogate comma = false := by decide
  induction parts with
  | nil => rfl
  | cons part rest ih =>
    cases rest with
    | nil => simp [join]
    | cons next more =>
      rw [join,scalars_append,scalars_append,ih,scalars_cons,mark]
      simp [scalars]

theorem decide_max (a b n : Nat) : decide (max a b ≤ n) = (decide (a ≤ n) && decide (b ≤ n)) := by
  rw [← Bool.decide_and]
  exact decide_eq_decide.mpr max_le_iff

-- What is written has an encoding exactly if nothing in the value is in the way.
mutual
theorem dumpsStrict_scalars : ∀ (levels : Nat) (j : Json),
    (dumpsStrict codec levels j).toOption.any scalars = (encodable j && decide (depth j ≤ levels))
  | _, .null => by
    simp only [dumpsStrict,encodable,depth,Nat.zero_le,decide_true,Bool.and_true]
    decide
  | _, .bool b => by
    simp only [dumpsStrict,encodable,depth,Nat.zero_le,decide_true,Bool.and_true]
    cases b <;> decide
  | _, .int n => by
    simp only [dumpsStrict,encodable,depth,Nat.zero_le,decide_true,Bool.and_true]
    exact scalars_ascii (codec.dumps_ascii _)
  | _, .float .nan => by simp only [dumpsStrict,encodable,Bool.false_and]; rfl
  | _, .float (.inf _) => by simp only [dumpsStrict,encodable,Bool.false_and]; rfl
  | _, .float (.finite _ _ _) => by
    simp only [dumpsStrict,encodable,depth,Nat.zero_le,decide_true,Bool.and_true]
    exact scalars_ascii (codec.dumps_ascii _)
  | _, .str s => by
    simp only [dumpsStrict,encodable,depth,Nat.zero_le,decide_true,Bool.and_true]
    exact plainText_scalars s
  | 0, .arr items => by
    have deep : decide (depth (.arr items) ≤ 0) = false := by simp [depth]
    rw [deep,Bool.and_false,dumpsStrict]
    rfl
  | levels+1, .arr items => by
    have inner := dumpsItems_scalars levels items
    have marks : isSurrogate opening = false ∧ scalars [closing] = true := by decide
    simp only [dumpsStrict,encodable,depth,Nat.succ_le_succ_iff]
    rw [← inner]
    cases dumpsItems codec levels items with
    | error e => rfl
    | ok parts =>
      simp only [Except.toOption,Option.any_some,scalars_cons,scalars_append,join_scalars,marks,Bool.and_true,
        Bool.not_false,Bool.true_and]
  | 0, .obj members => by
    have deep : decide (depth (.obj members) ≤ 0) = false := by simp [depth]
    rw [deep,Bool.and_false,dumpsStrict]
    rfl
  | levels+1, .obj members => by
    have inner := dumpsMembers_scalars levels members
    have marks : isSurrogate openingBrace = false ∧ scalars [closingBrace] = true := by decide
    simp only [dumpsStrict,encodable,depth,Nat.succ_le_succ_iff]
    rw [← inner]
    cases dumpsMembers codec levels members with
    | error e => rfl
    | ok parts =>
      simp only [Except.toOption,Option.any_some,scalars_cons,scalars_append,join_scalars,marks,Bool.and_true,
        Bool.not_false,Bool.true_and]
theorem dumpsItems_scalars : ∀ (levels : Nat) (items : List Json),
    (dumpsItems codec levels items).toOption.any (fun parts => parts.all scalars) =
      (encodableItems items && decide (depthItems items ≤ levels))
  | _, [] => by simp only [dumpsItems,encodableItems,depthItems,Nat.zero_le,decide_true]; rfl
  | levels, item :: items => by
    have first := dumpsStrict_scalars levels item
    have rest := dumpsItems_scalars levels items
    have split : (encodableItems (item :: items) && decide (depthItems (item :: items) ≤ levels)) =
        ((encodable item && decide (depth item ≤ levels)) && (encodableItems items && decide (depthItems items ≤ levels))) := by
      rw [encodableItems,depthItems,decide_max]
      ac_rfl
    rw [split,← first,← rest,dumpsItems]
    cases dumpsStrict codec levels item with
    | error e => rfl
    | ok part =>
      cases dumpsItems codec levels items with
      | error e => exact (Bool.and_false _).symm
      | ok parts => rfl
theorem dumpsMembers_scalars : ∀ (levels : Nat) (members : List (Str × Json)),
    (dumpsMembers codec levels members).toOption.any (fun parts => parts.all scalars) =
      (encodableMembers members && decide (depthMembers members ≤ levels))
  | _, [] => by simp only [dumpsMembers,encodableMembers,depthMembers,Nat.zero_le,decide_true]; rfl
  | levels, (key,value) :: members => by
    have first := dumpsStrict_scalars levels value
    have rest := dumpsMembers_scalars levels members
    have mark : isSurrogate colon = false := by decide
    have split : (encodableMembers ((key,value) :: members) && decide (depthMembers ((key,value) :: members) ≤ levels)) =
        (scalars key && (encodable value && decide (depth value ≤ levels)) &&
          (encodableMembers members && decide (depthMembers members ≤ levels))) := by
      rw [encodableMembers,depthMembers,decide_max,scalars]
      ac_rfl
    rw [split,← first,← rest,dumpsMembers]
    cases dumpsStrict codec levels value with
    | error e => simp only [Except.toOption,Option.any_none,Bool.and_false,Bool.false_and]
    | ok part =>
      cases dumpsMembers codec levels members with
      | error e => simp only [Except.toOption,Option.any_none,Bool.and_false]
      | ok parts =>
        simp only [Except.toOption,Option.any_some,List.all_cons,scalars_append,scalars_cons,plainText_scalars,mark,
          Bool.not_false,Bool.true_and]
end

end StrictJson
