import Mathlib.Tactic.Basic

-- Calls that return a value or raise.
namespace Raising
variable {ε α β : Type}

-- `if not condition: raise e`
def require (condition : Bool) (e : ε) : Except ε Unit := if condition then .ok () else .error e

theorem require_ok {condition : Bool} {e : ε} {u : Unit} : require condition e = .ok u ↔ condition = true := by
  cases condition <;> simp [require]

theorem bind_ok {x : Except ε α} {f : α → Except ε β} {b : β} (ran : (x >>= f) = .ok b) :
    ∃ a, x = .ok a ∧ f a = .ok b := by
  cases x with
  | error e => cases ran
  | ok a => exact ⟨a,rfl,ran⟩

theorem pure_ok {a b : α} (ran : (pure a : Except ε α) = .ok b) : b = a := by
  cases ran; rfl

-- An error passed on under another name.
theorem mapError_bind {δ : Type} (g : ε → δ) (x : Except ε α) (f : α → Except ε β) :
    (x >>= f).mapError g = x.mapError g >>= fun a => (f a).mapError g := by
  cases x <;> rfl

theorem map_bind {γ : Type} (g : β → γ) (x : Except ε α) (f : α → Except ε β) :
    (x >>= f).map g = x >>= fun a => (f a).map g := by
  cases x <;> rfl

theorem bind_map {γ : Type} (g : α → γ) (x : Except ε α) (f : γ → Except ε β) : (x.map g >>= f) = x >>= fun a => f (g a) := by
  cases x <;> rfl

-- What a call raised.
def refusal : Except ε α → Option ε
  | .ok _ => none
  | .error e => some e

-- Calls that raise the same so far, and go on to raise the same, raise the same.
theorem refusal_bind {γ δ : Type} {x : Except ε α} {y : Except ε γ} {f : α → Except ε β} {g : γ → Except ε δ}
    (same : refusal x = refusal y) (rest : ∀ a c, x = .ok a → y = .ok c → refusal (f a) = refusal (g c)) :
    refusal (x >>= f) = refusal (y >>= g) := by
  cases x with
  | error e =>
    cases y with
    | error other =>
      cases same
      rfl
    | ok c => cases same
  | ok a =>
    cases y with
    | error other => cases same
    | ok c => exact rest a c rfl rfl

theorem refusal_mapError {φ : Type} {x : Except ε α} {y : Except ε β} (g : ε → φ) (same : refusal x = refusal y) :
    refusal (x.mapError g) = refusal (y.mapError g) := by
  cases x with
  | error e =>
    cases y with
    | error other =>
      cases same
      rfl
    | ok c => cases same
  | ok a =>
    cases y with
    | error other => cases same
    | ok c => rfl

-- The value of a call that returned.
def returned : Except ε α → Option α
  | .ok a => some a
  | .error _ => none

@[simp] theorem returned_some {x : Except ε α} {a : α} : returned x = some a ↔ x = .ok a := by
  cases x <;> simp [returned]

end Raising
