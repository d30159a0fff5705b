import Mathlib.Data.List.Basic
import Mathlib.Tactic.IntervalCases

-- Python's `str` and `bytes`: a string is a list of code points, surrogates
-- included, which Lean's own String cannot hold.
namespace PythonText

abbrev CodePoint := Fin 0x110000
abbrev Str := List CodePoint
abbrev Bytes := List UInt8

instance codePoints : NeZero 0x110000 := ⟨by decide⟩

def ofChar (c : Char) : CodePoint := ⟨c.toNat,by
  have bounded := c.valid
  simp only [UInt32.isValidChar,Nat.isValidChar] at bounded
  have same : c.toNat = c.val.toNat := rfl
  omega⟩

def text (s : String) : Str := s.toList.map ofChar

def newline : CodePoint := 10

-- str.isspace, code point by code point.
def isspace (c : CodePoint) : Bool :=
  (9 ≤ c.val && c.val ≤ 13) || (28 ≤ c.val && c.val ≤ 32) || c.val == 0x85 || c.val == 0xA0 ||
  c.val == 0x1680 || (0x2000 ≤ c.val && c.val ≤ 0x200A) || c.val == 0x2028 || c.val == 0x2029 ||
  c.val == 0x202F || c.val == 0x205F || c.val == 0x3000

-- `not s.strip()`
def blank (s : Str) : Bool := s.all isspace

def splitOn (sep : CodePoint) : Str → List Str
  | [] => [[]]
  | c :: rest =>
    if c = sep then [] :: splitOn sep rest
    else match splitOn sep rest with
      | [] => [[c]]
      | head :: tail => (c :: head) :: tail

def join (sep : Str) : List Str → Str
  | [] => []
  | [part] => part
  | part :: next :: rest => part ++ sep ++ join sep (next :: rest)


def isSurrogate (c : CodePoint) : Bool := 0xD800 ≤ c.val && c.val ≤ 0xDFFF

def byte (n : Nat) : UInt8 := UInt8.ofNat n

def encodePoint (c : CodePoint) : Bytes :=
  if c.val < 0x80 then [byte c.val]
  else if c.val < 0x800 then [byte (0xC0 + c.val / 64),byte (0x80 + c.val % 64)]
  else if c.val < 0x10000 then
    [byte (0xE0 + c.val / 4096),byte (0x80 + c.val / 64 % 64),byte (0x80 + c.val % 64)]
  else [byte (0xF0 + c.val / 262144),byte (0x80 + c.val / 4096 % 64),
    byte (0x80 + c.val / 64 % 64),byte (0x80 + c.val % 64)]

-- str.encode("utf-8"); none is UnicodeEncodeError.
def encode (s : Str) : Option Bytes :=
  if s.any isSurrogate then none else some (s.flatMap encodePoint)

theorem encode_isSome (s : Str) : (encode s).isSome = !s.any isSurrogate := by
  unfold encode
  cases s.any isSurrogate <;> rfl

-- A literal has an encoding: a Char is no surrogate.
theorem text_scalar (s : String) : (text s).any isSurrogate = false := by
  rw [text,List.any_map,List.any_eq_false]
  intro c _
  have valid := c.valid
  simp only [Function.comp_apply,isSurrogate,ofChar,Bool.and_eq_true,not_and]
  rcases valid with low | ⟨high,_⟩
  · intro above
    exact absurd (of_decide_eq_true above) (Nat.not_le.mpr low)
  · intro _ below
    exact absurd (of_decide_eq_true below) (Nat.not_le.mpr high)

def replacement : CodePoint := 0xFFFD

def point (n : Nat) : CodePoint := Fin.ofNat 0x110000 n

-- The second bytes a lead byte admits, and how many bytes the sequence has.
def follow (lead : Nat) : Option (Nat × Nat × Nat) :=
  if 0xC2 ≤ lead ∧ lead ≤ 0xDF then some (0x80,0xBF,2)
  else if lead = 0xE0 then some (0xA0,0xBF,3)
  else if lead = 0xED then some (0x80,0x9F,3)
  else if 0xE1 ≤ lead ∧ lead ≤ 0xEF then some (0x80,0xBF,3)
  else if lead = 0xF0 then some (0x90,0xBF,4)
  else if 0xF1 ≤ lead ∧ lead ≤ 0xF3 then some (0x80,0xBF,4)
  else if lead = 0xF4 then some (0x80,0x8F,4)
  else none

def within (lo hi : Nat) (b : UInt8) : Bool := lo ≤ b.toNat && b.toNat ≤ hi

-- bytes.decode("utf-8", errors="replace"): every maximal start of an ill-formed
-- sequence becomes one U+FFFD, and decoding goes on at the byte that broke it.
def decode : Bytes → Str
  | [] => []
  | b0 :: rest =>
    if b0.toNat < 0x80 then point b0.toNat :: decode rest
    else match follow b0.toNat with
    | none => replacement :: decode rest
    | some (lo,hi,size) =>
      match rest with
      | [] => [replacement]
      | b1 :: rest1 =>
        if within lo hi b1 then
          if size = 2 then point (b0.toNat % 32 * 64 + b1.toNat % 64) :: decode rest1
          else match rest1 with
          | [] => [replacement]
          | b2 :: rest2 =>
            if within 0x80 0xBF b2 then
              if size = 3 then
                point (b0.toNat % 16 * 4096 + b1.toNat % 64 * 64 + b2.toNat % 64) :: decode rest2
              else match rest2 with
              | [] => [replacement]
              | b3 :: rest3 =>
                if within 0x80 0xBF b3 then
                  point (b0.toNat % 8 * 262144 + b1.toNat % 64 * 4096 + b2.toNat % 64 * 64 + b3.toNat % 64) ::
                    decode rest3
                else replacement :: decode (b3 :: rest3)
            else replacement :: decode (b2 :: rest2)
        else replacement :: decode (b1 :: rest1)

example : decode [0x61,0xE2,0x82,0xAC,0xE2,0x82,0x28] = [0x61,0x20AC,0xFFFD,0x28] := by decide

theorem point_val (c : CodePoint) : point c.val = c := by
  apply Fin.ext
  simp [point]

end PythonText
