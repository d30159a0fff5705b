import BatchGateway.Doubles
import BatchGateway.PythonJson

-- A JSON printer and parser that satisfy the laws of a codec. The texts are those
-- of json.dumps, except that an astral code point is written \Uxxxxxx instead of
-- as two surrogates, and a finite double with all its digits.
namespace JsonText
open PythonText PythonJson

def quote : CodePoint := 0x22
def backslash : CodePoint := 0x5C
def comma : CodePoint := 0x2C
def colon : CodePoint := 0x3A
def minus : CodePoint := 0x2D
def opening : CodePoint := 0x5B
def closing : CodePoint := 0x5D
def openingBrace : CodePoint := 0x7B
def closingBrace : CodePoint := 0x7D
def letterU : CodePoint := 0x75
def capitalU : CodePoint := 0x55
def letterE : CodePoint := 0x65
def capitalE : CodePoint := 0x45
def dot : CodePoint := 0x2E
def plus : CodePoint := 0x2B

def hexDigit (d : Nat) : CodePoint := point (if d < 10 then 0x30 + d else 0x57 + d)

def hexValue (c : CodePoint) : Option Nat :=
  if 0x30 ≤ c.val ∧ c.val ≤ 0x39 then some (c.val - 0x30)
  else if 0x61 ≤ c.val ∧ c.val ≤ 0x66 then some (c.val - 0x57)
  else if 0x41 ≤ c.val ∧ c.val ≤ 0x46 then some (c.val - 0x37)
  else none

-- The escapes of one character, and the characters they stand for.
def shortEscapes : List (CodePoint × CodePoint) :=
  [(0x22,0x22),(0x5C,0x5C),(0x6E,0x0A),(0x72,0x0D),(0x74,0x09),(0x66,0x0C),(0x62,0x08)]

def escape (c : CodePoint) : Str :=
  match shortEscapes.find? (fun e => e.2 = c) with
  | some e => [backslash,e.1]
  | none =>
    if 0x20 ≤ c.val ∧ c.val ≤ 0x7E then [c]
    else if c.val < 0x10000 then
      [backslash,letterU,hexDigit (c.val / 4096),hexDigit (c.val / 256 % 16),hexDigit (c.val / 16 % 16),
        hexDigit (c.val % 16)]
    else
      [backslash,capitalU,hexDigit (c.val / 1048576),hexDigit (c.val / 65536 % 16),hexDigit (c.val / 4096 % 16),
        hexDigit (c.val / 256 % 16),hexDigit (c.val / 16 % 16),hexDigit (c.val % 16)]

def printText (s : Str) : Str := quote :: (s.flatMap escape ++ [quote])

-- The rest of a string after its opening quote.
def parseText : Str → Option (Str × Str)
  | [] => none
  | c :: rest =>
    if c = quote then some ([],rest)
    else if c = backslash then
      match rest with
      | [] => none
      | mark :: rest1 =>
        if mark = letterU then
          match rest1 with
          | a :: b :: d :: e :: rest2 => do
            let code ← [a,b,d,e].foldlM (fun n c => (hexValue c).map (fun h => 16 * n + h)) 0
            let (s,left) ← parseText rest2
            return (point code :: s,left)
          | _ => none
        else if mark = capitalU then
          match rest1 with
          | a :: b :: d :: e :: f :: g :: rest2 => do
            let code ← [a,b,d,e,f,g].foldlM (fun n c => (hexValue c).map (fun h => 16 * n + h)) 0
            let (s,left) ← parseText rest2
            return (point code :: s,left)
          | _ => none
        else do
          let e ← shortEscapes.find? (fun e => e.1 = mark)
          let (s,left) ← parseText rest1
          return (e.2 :: s,left)
    else if c.val < 0x20 then none
    else do
      let (s,left) ← parseText rest
      return (c :: s,left)

def isDigit (c : CodePoint) : Bool := 0x30 ≤ c.val && c.val ≤ 0x39

def printNat (n : Nat) : Str := (Nat.toDigits 10 n).map ofChar

def natOf (digits : Str) : Nat := digits.foldl (fun n c => 10 * n + (c.val - 0x30)) 0

def parseNat (s : Str) : Option (Nat × Str) :=
  match s.takeWhile isDigit with
  | [] => none
  | digits => some (natOf digits,s.dropWhile isDigit)

def signed (negative : Bool) (s : Str) : Str := if negative then minus :: s else s

def printNumber : Int → Str
  | .ofNat n => printNat n
  | .negSucc n => minus :: printNat (n+1)

-- Every finite double is so many times 2^-lowest.
def lowest : Nat := 1074

def units (exponent : Fin 2047) (fraction : Fin (2^52)) : Nat :=
  if exponent.val = 0 then fraction.val else (2^52 + fraction.val) * 2^(exponent.val - 1)

def printDouble : Double → Str
  | .nan => text "NaN"
  | .inf negative => signed negative (text "Infinity")
  | .finite negative exponent fraction =>
    signed negative (printNat (units exponent fraction * 5^lowest) ++ letterE :: minus :: printNat lowest)

-- n * 10^e to the 53 bits of a double. A rounding that carries makes the exponent one more.
def doubleOf (negative : Bool) (n : Nat) (e : Int) : Double :=
  let value : ℚ := n * 10^e * 2^lowest
  let shift := Nat.log 2 ⌊value⌋.toNat - 52
  let word := shift * 2^52 + (Doubles.roundHalfEven (value / 2^shift)).toNat
  if small : word / 2^52 < 2047 then .finite negative ⟨word / 2^52,small⟩ ⟨word % 2^52,Nat.mod_lt _ (by decide)⟩
  else .inf negative

example : doubleOf false 15 (-1) = .finite false 1023 (2^51) := by decide +kernel

-- The digits behind a point, if there are any.
def parseFraction : Str → Str × Str
  | [] => ([],[])
  | c :: rest =>
    if c = dot ∧ rest.takeWhile isDigit ≠ [] then (rest.takeWhile isDigit,rest.dropWhile isDigit) else ([],c :: rest)

def parseSign : Str → Bool × Str
  | [] => (false,[])
  | c :: rest => if c = minus then (true,rest) else if c = plus then (false,rest) else (false,c :: rest)

def parseExponent : Str → Option Int × Str
  | [] => (none,[])
  | c :: rest =>
    if c = letterE ∨ c = capitalE then
      let (negative,digits) := parseSign rest
      match parseNat digits with
      | some (n,left) => (some (if negative then -(n : Int) else n),left)
      | none => (none,c :: rest)
    else (none,c :: rest)

-- There are no leading zeros.
def parseNumber (negative : Bool) (s : Str) : Option (Json × Str) := do
  let (n,rest) ← parseNat s
  guard (printNat n ++ rest = s)
  let (digits,rest) := parseFraction rest
  let (exponent,rest) := parseExponent rest
  if digits = [] ∧ exponent = none then return (.int (if negative then -(n : Int) else n),rest)
  else
    let value := doubleOf negative (n * 10^digits.length + natOf digits) (exponent.getD 0 - digits.length)
    return (.float value,rest)

mutual
def print : Json → Str
  | .null => text "null"
  | .bool true => text "true"
  | .bool false => text "false"
  | .int n => printNumber n
  | .float x => printDouble x
  | .str s => printText s
  | .arr [] => [opening,closing]
  | .arr (item :: items) => opening :: (print item ++ printItems items)
  | .obj [] => [openingBrace,closingBrace]
  | .obj ((key,value) :: members) =>
    openingBrace :: (printText key ++ text ": " ++ print value ++ printMembers members)
def printItems : List Json → Str
  | [] => [closing]
  | item :: items => text ", " ++ print item ++ printItems items
def printMembers : List (Str × Json) → Str
  | [] => [closingBrace]
  | (key,value) :: members => text ", " ++ printText key ++ text ": " ++ print value ++ printMembers members
end

def isSpace (c : CodePoint) : Bool := c.val == 0x20 || c.val == 0x0A || c.val == 0x0D || c.val == 0x09

def skip (s : Str) : Str := s.dropWhile isSpace

def expect (word s : Str) : Option Str := if word.isPrefixOf s then some (s.drop word.length) else none

def parseKey (s : Str) : Option (Str × Str) :=
  match skip s with
  | c :: rest => if c = quote then do
      let (key,rest) ← parseText rest
      match skip rest with
      | c :: rest => if c = colon then some (key,rest) else none
      | [] => none
    else none
  | [] => none

mutual
def parseValue : Nat → Str → Option (Json × Str)
  | 0, _ => none
  | fuel+1, s => match skip s with
    | [] => none
    | c :: rest =>
      if c = quote then (parseText rest).map (fun r => (.str r.1,r.2))
      else if c = opening then
        match skip rest with
        | [] => none
        | c :: rest1 =>
          if c = closing then some (.arr [],rest1)
          else do
            let (item,left) ← parseValue fuel (c :: rest1)
            let (items,left) ← parseItems fuel left
            return (.arr (item :: items),left)
      else if c = openingBrace then
        match skip rest with
        | [] => none
        | c :: rest1 =>
          if c = closingBrace then some (.obj [],rest1)
          else do
            let (key,left) ← parseKey (c :: rest1)
            let (value,left) ← parseValue fuel left
            let (members,left) ← parseMembers fuel left
            return (.obj ((key,value) :: members),left)
      else if c = minus then
        match expect (text "Infinity") rest with
        | some left => some (.float (.inf true),left)
        | none => parseNumber true rest
      else if isDigit c then parseNumber false (c :: rest)
      else
        [(text "null",Json.null),(text "true",.bool true),(text "false",.bool false),(text "NaN",.float .nan),
          (text "Infinity",.float (.inf false))].findSome?
          (fun word => (expect word.1 (c :: rest)).map (fun left => (word.2,left)))
def parseItems : Nat → Str → Option (List Json × Str)
  | 0, _ => none
  | fuel+1, s => match skip s with
    | [] => none
    | c :: rest =>
      if c = closing then some ([],rest)
      else if c = comma then do
        let (item,left) ← parseValue fuel rest
        let (items,left) ← parseItems fuel left
        return (item :: items,left)
      else none
def parseMembers : Nat → Str → Option (List (Str × Json) × Str)
  | 0, _ => none
  | fuel+1, s => match skip s with
    | [] => none
    | c :: rest =>
      if c = closingBrace then some ([],rest)
      else if c = comma then do
        let (key,left) ← parseKey rest
        let (value,left) ← parseValue fuel left
        let (members,left) ← parseMembers fuel left
        return ((key,value) :: members,left)
      else none
end

def parse (s : Str) : Except Str Json :=
  match parseValue s.length s with
  | some (j,rest) => if skip rest = [] then .ok j else .error (text "Extra data")
  | none => .error (text "Expecting value")

theorem hexValue_hexDigit : ∀ d, d < 16 → hexValue (hexDigit d) = some d := by
  have digits : ∀ d : Fin 16, hexValue (hexDigit d) = some d.val := by decide
  exact fun d small => digits ⟨d,small⟩

theorem shortEscapes_marks : ∀ e ∈ shortEscapes, e.1 ≠ letterU ∧ e.1 ≠ capitalU ∧
    shortEscapes.find? (fun other => other.1 = e.1) = some e := by
  intro e member
  simp only [shortEscapes,List.mem_cons,List.not_mem_nil,or_false] at member
  rcases member with rfl | rfl | rfl | rfl | rfl | rfl | rfl <;> decide

theorem hex_four {n : Nat} (small : n < 0x10000) :
    [hexDigit (n / 4096),hexDigit (n / 256 % 16),hexDigit (n / 16 % 16),hexDigit (n % 16)].foldlM
      (fun n c => (hexValue c).map (fun h => 16 * n + h)) 0 = some n := by
  have value : 16 * (16 * (16 * (n / 4096) + n / 256 % 16) + n / 16 % 16) + n % 16 = n := by omega
  simp [List.foldlM,hexValue_hexDigit _ (show n / 4096 < 16 by omega),
    hexValue_hexDigit _ (show n / 256 % 16 < 16 by omega),hexValue_hexDigit _ (show n / 16 % 16 < 16 by omega),
    hexValue_hexDigit _ (show n % 16 < 16 by omega),value]

theorem hex_six {n : Nat} (small : n < 0x1000000) :
    [hexDigit (n / 1048576),hexDigit (n / 65536 % 16),hexDigit (n / 4096 % 16),hexDigit (n / 256 % 16),
      hexDigit (n / 16 % 16),hexDigit (n % 16)].foldlM
      (fun n c => (hexValue c).map (fun h => 16 * n + h)) 0 = some n := by
  have value : 16 * (16 * (16 * (16 * (16 * (n / 1048576) + n / 65536 % 16) + n / 4096 % 16) + n / 256 % 16) +
      n / 16 % 16) + n % 16 = n := by omega
  simp [List.foldlM,hexValue_hexDigit _ (show n / 1048576 < 16 by omega),
    hexValue_hexDigit _ (show n / 65536 % 16 < 16 by omega),hexValue_hexDigit _ (show n / 4096 % 16 < 16 by omega),
    hexValue_hexDigit _ (show n / 256 % 16 < 16 by omega),hexValue_hexDigit _ (show n / 16 % 16 < 16 by omega),
    hexValue_hexDigit _ (show n % 16 < 16 by omega),value]

theorem parseText_escape (c : CodePoint) (rest : Str) :
    parseText (escape c ++ rest) = (parseText rest).map (fun r => (c :: r.1,r.2)) := by
  unfold escape
  split
  · rename_i e found
    obtain ⟨plain,capital,only⟩ := shortEscapes_marks e (List.mem_of_find?_eq_some found)
    have stands : e.2 = c := by simpa using List.find?_some found
    have marked : backslash ≠ quote := by decide
    rw [List.cons_append,List.cons_append,List.nil_append,parseText.eq_def]
    simp only [marked,plain,capital,if_false,if_true,only]
    cases parseText rest <;> simp [stands]
  · rename_i unescaped
    have special : ∀ e ∈ shortEscapes, e.2 ≠ c := by simpa using unescaped
    split
    · rename_i printable
      have notQuote : c ≠ quote := Ne.symm (special (0x22,0x22) (by decide))
      have notBackslash : c ≠ backslash := Ne.symm (special (0x5C,0x5C) (by decide))
      have visible : ¬ c.val < 0x20 := by omega
      rw [List.cons_append,List.nil_append,parseText.eq_def]
      simp only [notQuote,notBackslash,visible,if_false]
      cases parseText rest <;> rfl
    · split
      · rename_i small
        have marked : backslash ≠ quote := by decide
        simp only [List.cons_append,List.nil_append]
        rw [parseText.eq_def]
        simp only [marked,if_false,if_true,hex_four small]
        cases parseText rest <;> simp [point_val]
      · have bounded := c.isLt
        have marked : backslash ≠ quote := by decide
        have other : capitalU ≠ letterU := by decide
        simp only [List.cons_append,List.nil_append]
        rw [parseText.eq_def]
        simp only [marked,other,if_false,if_true,hex_six (show c.val < 0x1000000 by omega)]
        cases parseText rest <;> simp [point_val]

theorem parseText_print (s rest : Str) : parseText (s.flatMap escape ++ quote :: rest) = some (s,rest) := by
  induction s with
  | nil =>
    rw [List.flatMap_nil,List.nil_append,parseText.eq_def]
    simp
  | cons c s ih => simp [parseText_escape,ih]

theorem printNat_digits (n : Nat) : ∀ c ∈ printNat n, isDigit c = true := by
  intro c member
  obtain ⟨d,digit,rfl⟩ := List.mem_map.mp member
  have range := Nat.isDigit_of_mem_toDigits (b := 10) (by decide) (by decide) digit
  simp only [Char.isDigit,Bool.and_eq_true,decide_eq_true_eq,UInt32.le_iff_toNat_le] at range
  simp only [isDigit,Bool.and_eq_true,decide_eq_true_eq]
  exact range

theorem natOf_printNat (n : Nat) : natOf (printNat n) = n := by
  have same : ∀ (l : List Char) (init : Nat),
      (l.map ofChar).foldl (fun n c => 10 * n + (c.val - 0x30)) init = Nat.ofDigitChars 10 l init := by
    intro l
    induction l with
    | nil => intro init; simp
    | cons c l ih => intro init; simp [Nat.ofDigitChars_cons,ih,ofChar]
  rw [natOf,printNat,same,Nat.ofDigitChars_toDigits (by decide) (by decide)]

-- What may follow a number.
def Stops (rest : Str) : Prop := ∀ c ∈ rest.head?, isDigit c = false ∧ c ≠ dot ∧ c ≠ letterE ∧ c ≠ capitalE

theorem parseNat_print (n : Nat) {rest : Str} (stops : ∀ c ∈ rest.head?, isDigit c = false) :
    parseNat (printNat n ++ rest) = some (n,rest) := by
  have digits := printNat_digits n
  have present : printNat n ≠ [] := by simp [printNat,Nat.toDigits_ne_nil]
  have after : rest.takeWhile isDigit = [] ∧ rest.dropWhile isDigit = rest := by
    cases rest with
    | nil => simp
    | cons c rest => simp [stops c rfl]
  have taken : (printNat n ++ rest).takeWhile isDigit = printNat n := by
    rw [List.takeWhile_append_of_pos digits,after.1,List.append_nil]
  have dropped : (printNat n ++ rest).dropWhile isDigit = rest := by
    rw [List.dropWhile_append_of_pos digits,after.2]
  unfold parseNat
  rw [taken,dropped]
  split
  · rename_i empty
    exact absurd empty present
  · rw [natOf_printNat]

theorem parseNumber_int (negative : Bool) (n : Nat) {rest : Str} (stops : Stops rest) :
    parseNumber negative (printNat n ++ rest) = some (.int (if negative then -(n : Int) else n),rest) := by
  have whole : parseFraction rest = ([],rest) ∧ parseExponent rest = (none,rest) := by
    cases rest with
    | nil => exact ⟨rfl,rfl⟩
    | cons c rest =>
      obtain ⟨_,other,lower,upper⟩ := stops c rfl
      exact ⟨if_neg fun both => other both.1,if_neg (not_or.mpr ⟨lower,upper⟩)⟩
  simp [parseNumber,parseNat_print n (fun c member => (stops c member).1),whole]

-- The significand of a double, and where its exponent puts it.
theorem units_parts (exponent : Fin 2047) (fraction : Fin (2^52)) : ∃ shift significand,
    units exponent fraction = significand * 2^shift ∧ Nat.log 2 (units exponent fraction) - 52 = shift ∧
    shift * 2^52 + significand = exponent.val * 2^52 + fraction.val := by
  have bounded := fraction.isLt
  unfold units
  split
  · rename_i zero
    refine ⟨0,fraction.val,by simp,?_,by simp [zero]⟩
    have small : Nat.log 2 fraction.val < 52 ∨ fraction.val = 0 := by
      by_cases none_ : fraction.val = 0
      · exact .inr none_
      · exact .inl (Nat.log_lt_of_lt_pow none_ bounded)
    rcases small with less | none_
    · omega
    · simp [none_]
  · rename_i positive
    refine ⟨exponent.val - 1,2^52 + fraction.val,rfl,?_,by omega⟩
    have size : Nat.log 2 ((2^52 + fraction.val) * 2^(exponent.val - 1)) = 52 + (exponent.val - 1) := by
      apply Nat.log_eq_of_pow_le_of_lt_pow
      · rw [pow_add]
        exact Nat.mul_le_mul_right _ (by omega)
      · have double : 2^(52 + (exponent.val - 1) + 1) = 2^53 * 2^(exponent.val - 1) := by
          rw [← pow_add]
          congr 1
          omega
        rw [double]
        exact Nat.mul_lt_mul_of_pos_right (by omega) (Nat.two_pow_pos _)
    omega

theorem doubleOf_print (negative : Bool) (exponent : Fin 2047) (fraction : Fin (2^52)) :
    doubleOf negative (units exponent fraction * 5^lowest) (-lowest) = .finite negative exponent fraction := by
  obtain ⟨shift,significand,shape,size,word⟩ := units_parts exponent fraction
  have value : ((units exponent fraction * 5^lowest : ℕ) : ℚ) * 10^(-(lowest : ℤ)) * 2^lowest = (units exponent fraction : ℕ) := by
    have ten : (10 : ℚ)^lowest = 5^lowest * 2^lowest := by rw [← mul_pow]; norm_num
    rw [zpow_neg,zpow_natCast,ten]
    push_cast
    field_simp
  have rounded : Doubles.roundHalfEven (((units exponent fraction : ℕ) : ℚ) / 2^shift) = significand := by
    have whole : ((units exponent fraction : ℕ) : ℚ) / 2^shift = ((significand : ℤ) : ℚ) := by
      rw [shape]
      push_cast
      field_simp
    rw [whole,Doubles.roundHalfEven_int]
  have inside := exponent.isLt
  have bounded := fraction.isLt
  have high : (exponent.val * 2^52 + fraction.val) / 2^52 = exponent.val := by omega
  have low : (exponent.val * 2^52 + fraction.val) % 2^52 = fraction.val := by omega
  simp only [doubleOf,value,Int.floor_natCast,Int.toNat_natCast,size,rounded,word,high,low]
  rw [dif_pos inside]

theorem parseNumber_exponent (negative : Bool) (n e : Nat) {rest : Str} (stops : Stops rest) :
    parseNumber negative (printNat n ++ letterE :: minus :: printNat e ++ rest) =
      some (.float (doubleOf negative n (-e)),rest) := by
  have marked : ∀ c ∈ (letterE :: minus :: (printNat e ++ rest)).head?, isDigit c = false := by
    intro c member
    cases Option.some.inj member
    decide
  have whole : parseFraction (letterE :: minus :: (printNat e ++ rest)) = ([],letterE :: minus :: (printNat e ++ rest)) := by
    rw [parseFraction,if_neg fun both => absurd both.1 (by decide)]
  have exponent : parseExponent (letterE :: minus :: (printNat e ++ rest)) = (some (-(e : Int)),rest) := by
    simp [parseExponent,parseSign,parseNat_print e (fun c member => (stops c member).1)]
  rw [parseNumber,List.append_assoc,List.cons_append,List.cons_append,parseNat_print n marked]
  simp [whole,exponent,natOf]

theorem parseNumber_double (negative : Bool) (exponent : Fin 2047) (fraction : Fin (2^52)) {rest : Str}
    (stops : Stops rest) :
    parseNumber negative (printNat (units exponent fraction * 5^lowest) ++ letterE :: minus :: printNat lowest ++ rest) =
      some (.float (.finite negative exponent fraction),rest) := by
  rw [parseNumber_exponent negative _ lowest stops,doubleOf_print]

theorem skip_visible {c : CodePoint} (visible : isSpace c = false) (s : Str) : skip (c :: s) = c :: s := by
  simp [skip,visible]

theorem skip_space (s : Str) : skip (0x20 :: s) = skip s := rfl

theorem separator_text : text ", " = [comma,0x20] := by decide +kernel
theorem colon_text : text ": " = [colon,0x20] := by decide +kernel

theorem digit_other {c x : CodePoint} (digit : isDigit c = true) (plain : isDigit x = false) : c ≠ x := by
  rintro rfl
  rw [digit] at plain
  cases plain

theorem digit_visible {c : CodePoint} (digit : isDigit c = true) : isSpace c = false := by
  simp only [isDigit,Bool.and_eq_true,decide_eq_true_eq] at digit
  simp only [isSpace,Bool.or_eq_false_iff,beq_eq_false_iff_ne]
  omega

theorem printNat_head (n : Nat) : ∃ c rest, printNat n = c :: rest ∧ isDigit c = true := by
  cases shape : printNat n with
  | nil => simp [printNat,Nat.toDigits_ne_nil] at shape
  | cons c rest => exact ⟨c,rest,rfl,printNat_digits n c (by simp [shape])⟩

-- A printed value never starts with a space or a closing bracket.
def Starts (s : Str) : Prop := ∃ c rest, s = c :: rest ∧ isSpace c = false ∧ c ≠ closing

theorem starts_cons {c : CodePoint} (rest : Str) (visible : isSpace c = false) (inside : c ≠ closing) :
    Starts (c :: rest) := ⟨c,rest,rfl,visible,inside⟩

theorem starts_digits (n : Nat) (more : Str) : Starts (printNat n ++ more) := by
  obtain ⟨c,rest,shape,digit⟩ := printNat_head n
  rw [shape]
  exact starts_cons _ (digit_visible digit) (digit_other digit (by decide))

theorem print_starts (j : Json) : Starts (print j) := by
  cases j with
  | null => exact ⟨0x6E,_,rfl,by decide,by decide⟩
  | bool b => cases b <;> exact ⟨_,_,rfl,by decide,by decide⟩
  | int n =>
    cases n with
    | ofNat n => simpa [print,printNumber] using starts_digits n []
    | negSucc n => exact starts_cons _ (by decide) (by decide)
  | float x =>
    cases x with
    | nan => exact ⟨0x4E,_,rfl,by decide,by decide⟩
    | inf negative => cases negative <;> exact ⟨_,_,rfl,by decide,by decide⟩
    | finite negative exponent fraction =>
      cases negative with
      | false => simpa [print,printDouble,signed] using starts_digits (units exponent fraction * 5^lowest) _
      | true => exact starts_cons _ (by decide) (by decide)
  | str s => exact starts_cons _ (by decide) (by decide)
  | arr items => cases items <;> exact starts_cons _ (by decide) (by decide)
  | obj members =>
    rcases members with _ | ⟨⟨key,value⟩,members⟩ <;> exact starts_cons _ (by decide) (by decide)

theorem parseValue_space (fuel : Nat) (s : Str) : parseValue fuel (0x20 :: s) = parseValue fuel s := by
  cases fuel with
  | zero => rfl
  | succ fuel =>
    simp only [parseValue,skip_space]

theorem parseKey_print (key rest : Str) : parseKey (printText key ++ text ": " ++ rest) = some (key,0x20 :: rest) := by
  have visible : skip (colon :: 0x20 :: rest) = colon :: 0x20 :: rest := skip_visible (by decide) _
  simp only [printText,colon_text,parseKey,List.cons_append,List.append_assoc,List.nil_append,
    skip_visible (show isSpace quote = false by decide),parseText_print]
  simp [visible]

theorem parseKey_space (s : Str) : parseKey (0x20 :: s) = parseKey s := by
  simp only [parseKey,skip_space]

theorem stops_items (items : List Json) (rest : Str) : Stops (printItems items ++ rest) := by
  intro c first
  cases items with
  | nil => cases Option.some.inj first; decide
  | cons item items =>
    simp only [printItems,separator_text,List.cons_append] at first
    cases Option.some.inj first
    decide

theorem stops_members (members : List (Str × Json)) (rest : Str) : Stops (printMembers members ++ rest) := by
  intro c first
  rcases members with _ | ⟨⟨key,value⟩,members⟩
  · cases Option.some.inj first; decide
  · simp only [printMembers,separator_text,List.cons_append] at first
    cases Option.some.inj first
    decide

-- Reading back what was printed, with fuel for its length.
structure ReadBack (fuel : Nat) : Prop where
  value : ∀ j rest, (print j).length ≤ fuel → Stops rest → parseValue fuel (print j ++ rest) = some (j,rest)
  items : ∀ items rest, (printItems items).length ≤ fuel →
    parseItems fuel (printItems items ++ rest) = some (items,rest)
  members : ∀ members rest, (printMembers members).length ≤ fuel →
    parseMembers fuel (printMembers members ++ rest) = some (members,rest)

theorem parse_number {fuel : Nat} {c : CodePoint} {rest : Str} (digit : isDigit c = true) :
    parseValue (fuel+1) (c :: rest) = parseNumber false (c :: rest) := by
  simp only [parseValue,skip_visible (digit_visible digit)]
  rw [if_neg (digit_other digit (by decide)),if_neg (digit_other digit (by decide)),
    if_neg (digit_other digit (by decide)),if_neg (digit_other digit (by decide)),if_pos digit]

theorem parse_minus {fuel : Nat} {c : CodePoint} {rest : Str} (digit : isDigit c = true) :
    parseValue (fuel+1) (minus :: c :: rest) = parseNumber true (c :: rest) := by
  have word : expect (text "Infinity") (c :: rest) = none := by
    have first : text "Infinity" = 0x49 :: text "nfinity" := by decide +kernel
    have other : c ≠ 0x49 := digit_other digit (by decide)
    simp [expect,first,Ne.symm other]
  simp only [parseValue,skip_visible (show isSpace minus = false by decide),word]
  rw [if_neg (by decide),if_neg (by decide),if_neg (by decide),if_pos trivial]

theorem read_number (fuel : Nat) (n : Int) {rest : Str} (stops : Stops rest) :
    parseValue (fuel+1) (printNumber n ++ rest) = some (.int n,rest) := by
  cases n with
  | ofNat n =>
    obtain ⟨c,tail,shape,digit⟩ := printNat_head n
    have read := parseNumber_int false n stops
    simp only [printNumber]
    rw [shape,List.cons_append] at read ⊢
    rw [parse_number digit,read]
    rfl
  | negSucc n =>
    obtain ⟨c,tail,shape,digit⟩ := printNat_head (n+1)
    have read := parseNumber_int true (n+1) stops
    simp only [printNumber]
    rw [shape,List.cons_append] at read
    rw [shape,List.cons_append,List.cons_append,parse_minus digit,read]
    rfl

theorem read_finite (fuel : Nat) (negative : Bool) (exponent : Fin 2047) (fraction : Fin (2^52)) {rest : Str}
    (stops : Stops rest) :
    parseValue (fuel+1) (printDouble (.finite negative exponent fraction) ++ rest) =
      some (.float (.finite negative exponent fraction),rest) := by
  obtain ⟨c,tail,shape,digit⟩ := printNat_head (units exponent fraction * 5^lowest)
  have read := parseNumber_double negative exponent fraction stops
  rw [shape,List.cons_append,List.cons_append] at read
  cases negative with
  | false =>
    simp only [printDouble,signed,Bool.false_eq_true,if_false]
    rw [shape,List.cons_append,List.cons_append,parse_number digit,read]
  | true =>
    simp only [printDouble,signed,if_true]
    rw [shape,List.cons_append,List.cons_append,List.cons_append,parse_minus digit,read]

theorem expect_word (word rest : Str) : expect word (word ++ rest) = some rest := by
  simp [expect]

-- The words a value can start with differ in their first letters.
theorem read_word (fuel : Nat) {j : Json} (rest : Str)
    (listed : (print j,j) ∈ [(text "null",Json.null),(text "true",.bool true),(text "false",.bool false),
      (text "NaN",.float .nan),(text "Infinity",.float (.inf false))]) :
    parseValue (fuel+1) (print j ++ rest) = some (j,rest) := by
  have words : text "null" = [0x6E,0x75,0x6C,0x6C] ∧ text "true" = [0x74,0x72,0x75,0x65] ∧
      text "false" = [0x66,0x61,0x6C,0x73,0x65] ∧ text "NaN" = [0x4E,0x61,0x4E] ∧
      text "Infinity" = [0x49,0x6E,0x66,0x69,0x6E,0x69,0x74,0x79] := by decide +kernel
  obtain ⟨null,yes,no,nan,infinity⟩ := words
  simp only [null,yes,no,nan,infinity] at listed
  simp only [List.mem_cons,Prod.mk.injEq,List.not_mem_nil,or_false] at listed
  rcases listed with ⟨shape,rfl⟩ | ⟨shape,rfl⟩ | ⟨shape,rfl⟩ | ⟨shape,rfl⟩ | ⟨shape,rfl⟩
  all_goals
    rw [shape]
    simp only [List.cons_append,List.nil_append,parseValue,null,yes,no,nan,infinity]
    rfl

theorem read_text (fuel : Nat) (s rest : Str) : parseValue (fuel+1) (printText s ++ rest) = some (.str s,rest) := by
  simp only [printText,List.cons_append,List.append_assoc,List.nil_append,parseValue,
    skip_visible (show isSpace quote = false by decide),if_true,parseText_print]
  rfl

theorem read_array {fuel : Nat} (prior : ReadBack fuel) (items : List Json) (rest : Str)
    (enough : (print (.arr items)).length ≤ fuel + 1) :
    parseValue (fuel+1) (print (.arr items) ++ rest) = some (.arr items,rest) := by
  cases items with
  | nil => rfl
  | cons item items =>
    simp only [print,List.length_cons,List.length_append] at enough
    have first := prior.value item (printItems items ++ rest) (by omega) (stops_items items rest)
    have more := prior.items items rest (by omega)
    obtain ⟨c,tail,shape,visible,inside⟩ := print_starts item
    rw [shape,List.cons_append] at first
    simp only [print,shape,List.cons_append,List.append_assoc,parseValue,
      skip_visible (show isSpace opening = false by decide),skip_visible visible]
    rw [if_neg (by decide),if_pos trivial,if_neg inside,first]
    simp [more]

theorem read_object {fuel : Nat} (prior : ReadBack fuel) (members : List (Str × Json)) (rest : Str)
    (enough : (print (.obj members)).length ≤ fuel + 1) :
    parseValue (fuel+1) (print (.obj members) ++ rest) = some (.obj members,rest) := by
  rcases members with _ | ⟨⟨key,value⟩,members⟩
  · rfl
  · simp only [print,List.length_cons,List.length_append] at enough
    have first := prior.value value (printMembers members ++ rest) (by omega) (stops_members members rest)
    have more := prior.members members rest (by omega)
    have named := parseKey_print key (print value ++ (printMembers members ++ rest))
    simp only [print,List.cons_append,List.append_assoc] at named ⊢
    simp only [printText,List.cons_append] at named ⊢
    simp only [parseValue,skip_visible (show isSpace openingBrace = false by decide),
      skip_visible (show isSpace quote = false by decide)]
    rw [if_neg (by decide),if_neg (by decide),if_pos trivial,if_neg (by decide),named]
    simp [parseValue_space,first,more]

theorem readBack (fuel : Nat) : ReadBack fuel := by
  induction fuel with
  | zero =>
    refine ⟨fun j rest enough _ => ?_,fun items rest enough => ?_,fun members rest enough => ?_⟩
    · obtain ⟨c,tail,shape,_⟩ := print_starts j
      simp [shape] at enough
    · cases items <;> simp [printItems,separator_text] at enough
    · rcases members with _ | ⟨⟨key,value⟩,members⟩ <;> simp [printMembers,separator_text] at enough
  | succ fuel prior =>
    refine ⟨fun j rest enough stops => ?_,fun items rest enough => ?_,fun members rest enough => ?_⟩
    · cases j with
      | null => exact read_word fuel rest (by simp [print])
      | bool b => cases b <;> exact read_word fuel rest (by simp [print])
      | int n => exact read_number fuel n stops
      | float x =>
        cases x with
        | nan => exact read_word fuel rest (by simp [print,printDouble])
        | inf negative =>
          cases negative with
          | false => exact read_word fuel rest (by simp [print,printDouble,signed])
          | true =>
            have read := expect_word (text "Infinity") rest
            simp only [print,printDouble,signed,if_true,List.cons_append,parseValue,
              skip_visible (show isSpace minus = false by decide),read]
            rfl
        | finite negative exponent fraction => exact read_finite fuel negative exponent fraction stops
      | str s => exact read_text fuel s rest
      | arr items => exact read_array prior items rest enough
      | obj members => exact read_object prior members rest enough
    · cases items with
      | nil => rfl
      | cons item items =>
        simp only [printItems,separator_text,List.length_append,List.length_cons,List.length_nil] at enough
        have first := prior.value item (printItems items ++ rest) (by omega) (stops_items items rest)
        have more := prior.items items rest (by omega)
        simp only [printItems,separator_text,List.cons_append,List.append_assoc,List.nil_append,parseItems,
          skip_visible (show isSpace comma = false by decide)]
        rw [if_neg (by decide),if_pos trivial,parseValue_space,first]
        simp [more]
    · rcases members with _ | ⟨⟨key,value⟩,members⟩
      · rfl
      · simp only [printMembers,separator_text,List.length_append,List.length_cons,List.length_nil] at enough
        have first := prior.value value (printMembers members ++ rest) (by omega) (stops_members members rest)
        have more := prior.members members rest (by omega)
        have named := parseKey_print key (print value ++ (printMembers members ++ rest))
        simp only [List.append_assoc] at named
        simp only [printMembers,separator_text,List.cons_append,List.append_assoc,List.nil_append,parseMembers,
          skip_visible (show isSpace comma = false by decide)]
        rw [if_neg (by decide),if_pos trivial,parseKey_space,named]
        simp [parseValue_space,first,more]

theorem parse_print (j : Json) : parse (print j) = .ok j := by
  have read := (readBack (print j).length).value j [] le_rfl (by simp [Stops])
  rw [List.append_nil] at read
  simp [parse,read,skip]

-- Escaped surrogates that make up one code point are joined.
def joinPairs : Str → Str
  | high :: low :: rest =>
    if isPair high low then point (0x10000 + (high.val - 0xD800) * 0x400 + (low.val - 0xDC00)) :: joinPairs rest
    else high :: joinPairs (low :: rest)
  | s => s

-- A later member replaces an earlier one of its key.
def assign (d : Dict) (p : Str × Json) : Dict :=
  if d.any (fun q => q.1 == p.1) then d.map (fun q => if q.1 == p.1 then p else q) else d ++ [p]

mutual
def settle : Json → Json
  | .str s => .str (joinPairs s)
  | .arr items => .arr (settleItems items)
  | .obj members => .obj ((settleMembers members).foldl assign [])
  | j => j
def settleItems : List Json → List Json
  | [] => []
  | item :: items => settle item :: settleItems items
def settleMembers : List (Str × Json) → List (Str × Json)
  | [] => []
  | (key,value) :: members => (joinPairs key,settle value) :: settleMembers members
end

def levelsRead : Nat := 990

-- Then numbers with too many digits are refused, and values nested too deep.
def loads (s : Str) : Except Str Json :=
  match parse s with
  | .ok j =>
    if native (settle j) = true ∧ depth (settle j) ≤ levelsRead then .ok (settle j)
    else .error (text "Exceeds a limit")
  | .error message => .error message

theorem joinPairs_joined : ∀ s, joined s = true → joinPairs s = s
  | [],_ => rfl
  | [_],_ => rfl
  | high :: low :: rest,whole => by
    obtain ⟨apart,more⟩ := Bool.and_eq_true_iff.mp (by simpa only [joined] using whole)
    have apart : isPair high low = false := by simpa using apart
    simp only [joinPairs,apart,Bool.false_eq_true,if_false,joinPairs_joined (low :: rest) more]

theorem assign_distinct {pairs d : Dict} (distinct : ((d ++ pairs).map Prod.fst).Nodup) :
    pairs.foldl assign d = d ++ pairs := by
  induction pairs generalizing d with
  | nil => exact (List.append_nil d).symm
  | cons p pairs ih =>
    have absent : ¬ d.any (fun q => q.1 == p.1) = true := by
      rw [List.map_append,List.map_cons] at distinct
      intro taken
      obtain ⟨q,member,same⟩ := List.any_eq_true.mp taken
      exact (List.nodup_append.mp distinct).2.2 q.1 (List.mem_map_of_mem member) p.1 List.mem_cons_self (eq_of_beq same)
    have same : d ++ p :: pairs = (d ++ [p]) ++ pairs := by simp
    rw [List.foldl_cons,assign,if_neg absent,same]
    exact ih (by rwa [same] at distinct)

mutual
theorem settle_native : ∀ j, native j = true → settle j = j
  | .null => fun _ => rfl
  | .bool _ => fun _ => rfl
  | .int _ => fun _ => rfl
  | .float _ => fun _ => rfl
  | .str s => fun whole => congrArg Json.str (joinPairs_joined s whole)
  | .arr items => fun whole => congrArg Json.arr (settleItems_native items whole)
  | .obj members => fun whole => by
    obtain ⟨distinct,values⟩ := Bool.and_eq_true_iff.mp whole
    rw [settle,settleMembers_native members values]
    exact congrArg Json.obj (assign_distinct (d := []) (of_decide_eq_true distinct))
theorem settleItems_native : ∀ items, nativeItems items = true → settleItems items = items
  | [] => fun _ => rfl
  | item :: items => fun whole => by
    obtain ⟨first,rest⟩ := Bool.and_eq_true_iff.mp whole
    rw [settleItems,settle_native item first,settleItems_native items rest]
theorem settleMembers_native : ∀ members, nativeMembers members = true → settleMembers members = members
  | [] => fun _ => rfl
  | (key,value) :: members => fun whole => by
    obtain ⟨both,rest⟩ := Bool.and_eq_true_iff.mp whole
    obtain ⟨named,first⟩ := Bool.and_eq_true_iff.mp both
    rw [settleMembers,joinPairs_joined key named,settle_native value first,settleMembers_native members rest]
end

theorem loads_native {s : Str} {j : Json} (done : loads s = .ok j) : native j = true ∧ depth j ≤ levelsRead := by
  unfold loads at done
  split at done
  · split at done
    · rename_i within
      cases done
      exact within
    · cases done
  · cases done

theorem loads_print {j : Json} (whole : native j = true) (shallow : depth j ≤ levelsRead) : loads (print j) = .ok j := by
  have settled := settle_native j whole
  simp only [loads,parse_print,settled,whole,shallow,and_self,if_true]

def Printable (s : Str) : Prop := ∀ c ∈ s, 0x20 ≤ c.val ∧ c.val ≤ 0x7E

theorem Printable.append {s t : Str} (left : Printable s) (right : Printable t) : Printable (s ++ t) :=
  fun c member => (List.mem_append.mp member).elim (left c) (right c)

theorem Printable.cons {c : CodePoint} {s : Str} (visible : 0x20 ≤ c.val ∧ c.val ≤ 0x7E) (rest : Printable s) :
    Printable (c :: s) :=
  Printable.append (s := [c]) (by simpa [Printable] using visible) rest

theorem hexDigit_printable : ∀ d, d < 16 → 0x20 ≤ (hexDigit d).val ∧ (hexDigit d).val ≤ 0x7E := by
  have digits : ∀ d : Fin 16, 0x20 ≤ (hexDigit d).val ∧ (hexDigit d).val ≤ 0x7E := by decide
  exact fun d small => digits ⟨d,small⟩

theorem shortEscapes_printable : ∀ e ∈ shortEscapes, 0x20 ≤ e.1.val ∧ e.1.val ≤ 0x7E := by
  intro e member
  simp only [shortEscapes,List.mem_cons,List.not_mem_nil,or_false] at member
  rcases member with rfl | rfl | rfl | rfl | rfl | rfl | rfl <;> decide

theorem escape_printable (c : CodePoint) : Printable (escape c) := by
  have bounded := c.isLt
  have mark : 0x20 ≤ backslash.val ∧ backslash.val ≤ 0x7E := by decide
  unfold escape
  split
  · rename_i e found
    exact .cons mark (.cons (shortEscapes_printable e (List.mem_of_find?_eq_some found)) (by simp [Printable]))
  · split
    · rename_i visible
      exact .cons visible (by simp [Printable])
    · have hex := hexDigit_printable
      split
      · exact .cons mark (.cons (by decide) (.cons (hex _ (by omega)) (.cons (hex _ (by omega))
          (.cons (hex _ (by omega)) (.cons (hex _ (by omega)) (by simp [Printable]))))))
      · exact .cons mark (.cons (by decide) (.cons (hex _ (by omega)) (.cons (hex _ (by omega))
          (.cons (hex _ (by omega)) (.cons (hex _ (by omega)) (.cons (hex _ (by omega)) (.cons (hex _ (by omega))
          (by simp [Printable]))))))))

theorem printText_printable (s : Str) : Printable (printText s) := by
  refine .cons (by decide) (.append ?_ (.cons (by decide) (by simp [Printable])))
  intro c member
  obtain ⟨d,_,written⟩ := List.mem_flatMap.mp member
  exact escape_printable d c written

theorem printNat_printable (n : Nat) : Printable (printNat n) := by
  intro c member
  have digit := printNat_digits n c member
  simp only [isDigit,Bool.and_eq_true,decide_eq_true_eq] at digit
  omega

theorem signed_printable (negative : Bool) {s : Str} (plain : Printable s) : Printable (signed negative s) := by
  cases negative with
  | false => exact plain
  | true => exact .cons (by decide) plain

theorem words_printable : ∀ word ∈ [text "null",text "true",text "false",text "NaN",text "Infinity",text ", ",text ": "],
    Printable word := by
  have checked : [text "null",text "true",text "false",text "NaN",text "Infinity",text ", ",text ": "].all
      (fun word => word.all (fun c => 0x20 ≤ c.val && c.val ≤ 0x7E)) = true := by decide +kernel
  intro word listed c member
  simpa using List.all_eq_true.mp (List.all_eq_true.mp checked word listed) c member

theorem separator_printable : Printable (text ", ") := words_printable _ (by simp)
theorem colon_printable : Printable (text ": ") := words_printable _ (by simp)

theorem printDouble_printable (x : Double) : Printable (printDouble x) := by
  cases x with
  | nan => exact words_printable (text "NaN") (by simp)
  | inf negative => exact signed_printable negative (words_printable (text "Infinity") (by simp))
  | finite negative exponent fraction =>
    exact signed_printable negative
      ((printNat_printable _).append (.cons (by decide) (.cons (by decide) (printNat_printable _))))

mutual
theorem print_printable : ∀ j, Printable (print j)
  | .null => words_printable (text "null") (by simp)
  | .bool true => words_printable (text "true") (by simp)
  | .bool false => words_printable (text "false") (by simp)
  | .int (.ofNat n) => printNat_printable n
  | .int (.negSucc n) => .cons (by decide) (printNat_printable (n+1))
  | .float x => printDouble_printable x
  | .str s => printText_printable s
  | .arr [] => .cons (by decide) (.cons (by decide) (by simp [Printable]))
  | .arr (item :: items) => .cons (by decide) ((print_printable item).append (printItems_printable items))
  | .obj [] => .cons (by decide) (.cons (by decide) (by simp [Printable]))
  | .obj ((key,value) :: members) =>
    .cons (by decide) ((((printText_printable key).append colon_printable).append
      (print_printable value)).append (printMembers_printable members))
theorem printItems_printable : ∀ items, Printable (printItems items)
  | [] => .cons (by decide) (by simp [Printable])
  | item :: items =>
    (separator_printable.append (print_printable item)).append (printItems_printable items)
theorem printMembers_printable : ∀ members, Printable (printMembers members)
  | [] => .cons (by decide) (by simp [Printable])
  | (key,value) :: members =>
    (((separator_printable.append (printText_printable key)).append colon_printable).append
      (print_printable value)).append (printMembers_printable members)
end

-- int(text) for plain decimal texts.
def intText (s : Str) : Option Int :=
  match s with
  | [] => none
  | c :: rest =>
    if c = minus then (parseNat rest).bind (fun r => if r.2 = [] then some (-(r.1 : Int)) else none)
    else (parseNat s).bind (fun r => if r.2 = [] then some (r.1 : Int) else none)

def codec : Codec where
  levels
    | .described => 964
    | .submitted => 964
    | .posted => 975
    | .settled => 965
  reads := levelsRead
  dumps := print
  loads := loads
  repr := print
  int := intText
  dumps_ascii j c member := by
    have visible := print_printable j c member
    omega
  dumps_one_line j member := absurd (print_printable j newline member).1 (by decide)
  dumps_present j := by
    obtain ⟨c,rest,shape,_⟩ := print_starts j
    simp [shape]
  loads_native _ _ _ := loads_native
  loads_dumps _ := loads_print
  settled_reads := by decide

end JsonText
