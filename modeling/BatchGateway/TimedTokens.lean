-- Values signed with the time of signing, and read back up to a maximum age.
namespace TimedTokens
variable {V T : Type}

inductive Refusal where
  | badSignature
  | signatureExpired
  deriving DecidableEq

-- `loads` takes the maximum age and the time of reading.
structure Serializer (V T : Type) where
  dumps : V → Int → T
  loads : T → Int → Int → Except Refusal V

variable {z : Serializer V T} {writable : V → Prop} {v w : V} {raw : T} {made maxAge now later : Int}

-- What is relied on of a serializer: a token is read as what was written, for as
-- long as it is not older than that.
structure Documented (z : Serializer V T) (writable : V → Prop) : Prop where
  fresh : ∀ v made maxAge now, writable v → made ≤ now → now - made ≤ maxAge → z.loads (z.dumps v made) maxAge now = .ok v
  stale : ∀ v made maxAge now, writable v → maxAge < now - made →
    z.loads (z.dumps v made) maxAge now = .error .signatureExpired
  -- A token from the future is refused or read as any other.
  early : ∀ v made maxAge now w, writable v → now < made → z.loads (z.dumps v made) maxAge now = .ok w → w = v

theorem Documented.read (documented : Documented z writable) (written : writable v)
    (accepted : z.loads (z.dumps v made) maxAge now = .ok w) : w = v ∧ now - made ≤ maxAge := by
  by_cases old : maxAge < now - made
  · rw [documented.stale v made maxAge now written old] at accepted
    cases accepted
  · refine ⟨?_,Int.not_lt.mp old⟩
    by_cases before : now < made
    · exact documented.early v made maxAge now w written before accepted
    · rw [documented.fresh v made maxAge now written (Int.not_lt.mp before) (Int.not_lt.mp old)] at accepted
      cases accepted
      rfl

-- Nobody else can sign: a token is one of those handed out, or is refused.
def Genuine (z : Serializer V T) (issued : T → Prop) (maxAge now : Int) (raw : T) : Prop :=
  issued raw ∨ ∀ v, z.loads raw maxAge now ≠ .ok v

theorem Genuine.issued {issued : T → Prop} (genuine : Genuine z issued maxAge now raw)
    (accepted : z.loads raw maxAge now = .ok v) : issued raw := by
  rcases genuine with given | refused
  · exact given
  · exact absurd accepted (refused v)

-- A serializer that keeps value and time readable and only tests the age, for values
-- that a pair of functions writes and reads back.
def plain (write : V → Int → T) (read : T → Option (V × Int)) : Serializer V T where
  dumps := write
  loads raw maxAge now :=
    match read raw with
    | none => .error .badSignature
    | some (v,made) => if maxAge < now - made then .error .signatureExpired else .ok v

theorem plain_documented (write : V → Int → T) (read : T → Option (V × Int))
    (inverse : ∀ v made, read (write v made) = some (v,made)) : Documented (plain write read) (fun _ => True) := by
  refine ⟨fun v made maxAge now _ _ young => ?_,fun v made maxAge now _ old => ?_,fun v made maxAge now w _ before accepted => ?_⟩
  · simp only [plain,inverse]
    exact if_neg (Int.not_lt.mpr young)
  · simp only [plain,inverse]
    exact if_pos old
  · simp only [plain,inverse] at accepted
    split at accepted
    · cases accepted
    · cases accepted
      rfl

end TimedTokens
