import BatchGateway.PythonText

-- What json.loads can return, and the operations Python code does on it.
namespace PythonJson
open PythonText

-- A double by its sign, exponent and fraction fields; json.loads also reads NaN
-- and the infinities.
inductive Double where
  | nan
  | inf (negative : Bool)
  | finite (negative : Bool) (exponent : Fin 2047) (fraction : Fin (2^52))
  deriving DecidableEq

-- int(x) of a finite double: the magnitude is significand * 2^(exponent - 1075).
def truncate (negative : Bool) (exponent : Fin 2047) (fraction : Fin (2^52)) : Int :=
  let significand : Nat := if exponent.val = 0 then fraction.val else 2^52 + fraction.val
  let magnitude : Nat :=
    if 1075 ≤ exponent.val then significand * 2^(exponent.val - 1075)
    else significand / 2^(1075 - max exponent.val 1)
  if negative then -magnitude else magnitude

inductive Json where
  | null
  | bool (b : Bool)
  | int (n : Int)
  | float (x : Double)
  | str (s : Str)
  | arr (items : List Json)
  | obj (members : List (Str × Json))

abbrev Dict := List (Str × Json)

-- dict.get without a default; a missing key and a stored null stay apart. What is
-- loaded has a key once.
def get (d : Dict) (key : String) : Option Json := d.lookup (text key)

-- dict.get(key): None where the key is missing.
def getOrNone (d : Dict) (key : String) : Json := (get d key).getD .null

theorem get_self (key : String) (value : Json) (rest : Dict) : get ((text key,value) :: rest) key = some value :=
  List.lookup_cons_self

theorem get_other {key other : String} (different : (text key == text other) = false) (value : Json) (rest : Dict) :
    get ((text other,value) :: rest) key = get rest key := by
  simp [get,List.lookup_cons,different]

-- bool(value)
def truthy : Json → Bool
  | .null => false
  | .bool b => b
  | .int n => n ≠ 0
  | .float .nan => true
  | .float (.inf _) => true
  | .float (.finite _ exponent fraction) => exponent.val ≠ 0 || fraction.val ≠ 0
  | .str s => s ≠ []
  | .arr items => !items.isEmpty
  | .obj members => !members.isEmpty

-- How deep lists and dicts are nested, the empty ones included.
mutual
def depth : Json → Nat
  | .null | .bool _ | .int _ | .float _ | .str _ => 0
  | .arr items => depthItems items + 1
  | .obj members => depthMembers members + 1
def depthItems : List Json → Nat
  | [] => 0
  | item :: items => max (depth item) (depthItems items)
def depthMembers : List (Str × Json) → Nat
  | [] => 0
  | (_,value) :: members => max (depth value) (depthMembers members)
end

-- Two surrogates in a row that stand for one code point.
def isPair (high low : CodePoint) : Bool :=
  0xD800 ≤ high.val && high.val ≤ 0xDBFF && 0xDC00 ≤ low.val && low.val ≤ 0xDFFF

def joined : Str → Bool
  | high :: low :: rest => !isPair high low && joined (low :: rest)
  | _ => true

-- An int of more digits is neither read nor written.
def maxDigits : Nat := 4300

def shortInt (n : Int) : Bool := decide (n.natAbs < 10^maxDigits)

-- The values json.loads makes of a text that has no surrogates itself: those that are
-- escaped are joined in pairs, and a dict has a key once.
mutual
def native : Json → Bool
  | .null | .bool _ | .float _ => true
  | .int n => shortInt n
  | .str s => joined s
  | .arr items => nativeItems items
  | .obj members => decide (members.map Prod.fst).Nodup && nativeMembers members
def nativeItems : List Json → Bool
  | [] => true
  | item :: items => native item && nativeItems items
def nativeMembers : List (Str × Json) → Bool
  | [] => true
  | (key,value) :: members => joined key && native value && nativeMembers members
end

-- The calls of json.dumps that meet values of other people, and raise RecursionError
-- where these are nested too deep for what the call has left of the stack. Reading a
-- column back, and writing it to a file, need less of it than the flush that stored it.
inductive DumpSite where
  -- the metadata of a batch: the flush that stores it
  | described
  -- a request body: the flush that stores it, and the client that posts it
  | submitted
  | posted
  -- a response: the flush that stores it
  | settled
  deriving DecidableEq

-- json.dumps and json.loads as this development relies on them, with the texts
-- repr(value) and int(text). `loads` gives the message of the JSONDecodeError
-- where it does not decode; `int` gives none for a ValueError.
structure Codec where
  levels : DumpSite → Nat
  -- how deep json.loads reads
  reads : Nat
  dumps : Json → Str
  loads : Str → Except Str Json
  repr : Json → Str
  int : Str → Option Int
  dumps_ascii : ∀ j, ∀ c ∈ dumps j, c.val < 0x80
  dumps_one_line : ∀ j, newline ∉ dumps j
  dumps_present : ∀ j, dumps j ≠ []
  loads_native : ∀ s j, s.any isSurrogate = false → loads s = .ok j → native j = true ∧ depth j ≤ reads
  loads_dumps : ∀ j, native j = true → depth j ≤ reads → loads (dumps j) = .ok j
  -- a line of a result file holds a response two levels down
  settled_reads : levels .settled + 2 ≤ reads

variable (codec : Codec)

def nests (site : DumpSite) (j : Json) : Bool := decide (depth j ≤ codec.levels site)

-- A response the JSON column takes: made by json.loads, and not nested too deep. Two halves
-- of a code point that a reply holds apart are taken as joined; json.dumps writes both alike.
def stores (j : Json) : Bool := native j && nests codec .settled j

-- int(value); none is a TypeError, ValueError or OverflowError.
def toInt : Json → Option Int
  | .bool b => some (if b then 1 else 0)
  | .int n => some n
  | .float (.finite negative exponent fraction) => some (truncate negative exponent fraction)
  | .str s => codec.int s
  | _ => none

-- "\n".join(json.dumps(r) for r in records) + "\n", or nothing at all.
def writeLines (records : List Json) : Str :=
  if records = [] then [] else join [newline] (records.map codec.dumps) ++ [newline]

-- Splitting at newlines and decoding every non-empty line.
def readLines (s : Str) : List (Except Str Json) :=
  ((splitOn newline s).filter (fun line => !line.isEmpty)).map codec.loads

end PythonJson
