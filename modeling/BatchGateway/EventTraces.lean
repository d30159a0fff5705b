import Mathlib.Data.List.Basic

-- Calls that perform events on the way and then return or raise, and the order
-- their events come in.
structure Traced (τ ε α : Type) where
  trace : List τ
  result : Except ε α

namespace Traced
variable {τ ε α β γ : Type}

def andThen (x : Traced τ ε α) (f : α → Traced τ ε β) : Traced τ ε β :=
  match x.result with
  | .error e => ⟨x.trace,.error e⟩
  | .ok a => ⟨x.trace ++ (f a).trace,(f a).result⟩

instance : Monad (Traced τ ε) where
  pure a := ⟨[],.ok a⟩
  bind := andThen

def raised (e : ε) : Traced τ ε α := ⟨[],.error e⟩

def perform (event : τ) (result : Except ε α) : Traced τ ε α := ⟨[event],result⟩

-- A value computed without an event.
def silent (result : Except ε α) : Traced τ ε α := ⟨[],result⟩

-- `try: body finally: last`, where `last` cannot raise.
def tryFinally (body : Traced τ ε α) (last : List τ) : Traced τ ε α := ⟨body.trace ++ last,body.result⟩

@[simp] theorem pure_trace (a : α) : (pure a : Traced τ ε α).trace = [] := rfl
@[simp] theorem pure_result (a : α) : (pure a : Traced τ ε α).result = .ok a := rfl
@[simp] theorem raised_trace (e : ε) : (raised e : Traced τ ε α).trace = [] := rfl
@[simp] theorem raised_result (e : ε) : (raised e : Traced τ ε α).result = .error e := rfl
@[simp] theorem perform_trace (event : τ) (result : Except ε α) : (perform event result).trace = [event] := rfl
@[simp] theorem perform_result (event : τ) (result : Except ε α) : (perform event result).result = result := rfl
@[simp] theorem silent_trace (result : Except ε α) : (silent result : Traced τ ε α).trace = [] := rfl
@[simp] theorem silent_result (result : Except ε α) : (silent result : Traced τ ε α).result = result := rfl
@[simp] theorem tryFinally_result (body : Traced τ ε α) (last : List τ) :
    (tryFinally body last).result = body.result := rfl

theorem bind_result {x : Traced τ ε α} {f : α → Traced τ ε β} {b : β} :
    (x >>= f).result = .ok b ↔ ∃ a, x.result = .ok a ∧ (f a).result = .ok b := by
  show (andThen x f).result = .ok b ↔ _
  unfold andThen
  cases x.result with
  | error e => simp
  | ok a => simp

theorem bind_error {x : Traced τ ε α} {e : ε} (failed : x.result = .error e) (f : α → Traced τ ε β) :
    x >>= f = ⟨x.trace,.error e⟩ := by
  show andThen x f = _
  unfold andThen
  rw [failed]

theorem bind_ok {x : Traced τ ε α} {a : α} (done : x.result = .ok a) (f : α → Traced τ ε β) :
    x >>= f = ⟨x.trace ++ (f a).trace,(f a).result⟩ := by
  show andThen x f = _
  unfold andThen
  rw [done]

theorem bind_trace {x : Traced τ ε α} {a : α} (done : x.result = .ok a) (f : α → Traced τ ε β) :
    (x >>= f).trace = x.trace ++ (f a).trace := by
  rw [bind_ok done]

theorem bind_assoc (x : Traced τ ε α) (f : α → Traced τ ε β) (g : β → Traced τ ε γ) :
    (x >>= f) >>= g = x >>= fun a => f a >>= g := by
  cases done : x.result with
  | error e => rw [bind_error done,bind_error done,bind_error rfl]
  | ok a =>
    rw [bind_ok done,bind_ok done]
    cases next : (f a).result with
    | error e => rw [bind_error next,bind_error rfl]
    | ok b => rw [bind_ok next,bind_ok rfl,List.append_assoc]

theorem bind_pure_trace (x : Traced τ ε α) (f : α → β) : (x >>= fun a => pure (f a)).trace = x.trace := by
  cases done : x.result with
  | error e => rw [bind_error done]
  | ok a => rw [bind_ok done,pure_trace,List.append_nil]

theorem mem_bind {x : Traced τ ε α} {f : α → Traced τ ε β} {event : τ} : event ∈ (x >>= f).trace ↔
    event ∈ x.trace ∨ ∃ a, x.result = .ok a ∧ event ∈ (f a).trace := by
  cases done : x.result with
  | error e => simp [bind_error done]
  | ok a => simp [bind_ok done]

-- Every event a call performs is of one kind.
def Only (kind : τ → Prop) (x : Traced τ ε α) : Prop := ∀ e ∈ x.trace, kind e

section
variable {kind : τ → Prop}

theorem only_bind {x : Traced τ ε α} {f : α → Traced τ ε β} (first : Only kind x)
    (rest : ∀ a, Only kind (f a)) : Only kind (x >>= f) := by
  intro e member
  change e ∈ (andThen x f).trace at member
  unfold andThen at member
  cases same : x.result with
  | error error => rw [same] at member; exact first e member
  | ok a =>
    rw [same] at member
    rcases List.mem_append.mp member with here | later
    · exact first e here
    · exact rest a e later

theorem only_pure (a : α) : Only kind (pure a : Traced τ ε α) := by simp [Only]
theorem only_raised (e : ε) : Only kind (raised e : Traced τ ε α) := by simp [Only]
theorem only_silent (result : Except ε α) : Only kind (silent result : Traced τ ε α) := by simp [Only]

theorem only_perform {event : τ} (here : kind event) (result : Except ε α) : Only kind (perform event result) := by
  simpa [Only] using here

theorem only_finally {body : Traced τ ε α} {last : List τ} (first : Only kind body) (rest : ∀ e ∈ last, kind e) :
    Only kind (tryFinally body last) := by
  intro e member
  rcases List.mem_append.mp member with here | later
  · exact first e here
  · exact rest e later

end

-- Every event of the trace comes after the events it needs, `seen` included.
def Ordered (needs : τ → τ → Prop) : List τ → List τ → Prop
  | _,[] => True
  | seen,e :: rest => (∀ n, needs e n → n ∈ seen) ∧ Ordered needs (seen ++ [e]) rest

variable {needs : τ → τ → Prop}

theorem ordered_append (seen first second : List τ) : Ordered needs seen (first ++ second) ↔
    Ordered needs seen first ∧ Ordered needs (seen ++ first) second := by
  induction first generalizing seen with
  | nil => simp [Ordered]
  | cons e rest ih => simp only [List.cons_append,Ordered,ih,List.append_assoc,List.nil_append,and_assoc]

-- The same, event by event.
theorem ordered_iff (seen trace : List τ) : Ordered needs seen trace ↔
    ∀ earlier e later, trace = earlier ++ e :: later → ∀ n, needs e n → n ∈ seen ++ earlier := by
  constructor
  · intro ordered earlier e later split
    rw [split,ordered_append] at ordered
    exact ordered.2.1
  · induction trace generalizing seen with
    | nil => exact fun _ => trivial
    | cons e rest ih =>
      intro each
      refine ⟨by simpa using each [] e rest rfl,ih (seen ++ [e]) ?_⟩
      intro earlier next later split n needed
      have found := each (e :: earlier) next later (by rw [split]; rfl) n needed
      simpa using found

-- Events that need nothing can come at any time.
theorem ordered_quiet (seen : List τ) {trace : List τ} (quiet : ∀ e ∈ trace, ∀ n, ¬ needs e n) :
    Ordered needs seen trace := by
  induction trace generalizing seen with
  | nil => trivial
  | cons e rest ih =>
    refine ⟨fun n needed => absurd needed (quiet e (by simp) n),ih _ ?_⟩
    exact fun later member => quiet later (List.mem_cons_of_mem _ member)

theorem ordered_bind (seen : List τ) (x : Traced τ ε α) (f : α → Traced τ ε β) :
    Ordered needs seen (x >>= f).trace ↔ Ordered needs seen x.trace ∧
      ∀ a, x.result = .ok a → Ordered needs (seen ++ x.trace) (f a).trace := by
  show Ordered needs seen (andThen x f).trace ↔ _
  unfold andThen
  cases x.result with
  | error e => simp
  | ok a => simp [ordered_append]

theorem ordered_finally (seen : List τ) (body : Traced τ ε α) {last : List τ} (quiet : ∀ e ∈ last, ∀ n, ¬ needs e n) :
    Ordered needs seen (tryFinally body last).trace ↔ Ordered needs seen body.trace := by
  unfold tryFinally
  rw [ordered_append]
  exact and_iff_left (ordered_quiet _ quiet)

-- Every event of the trace is followed by the events it owes.
def Settled (owes : τ → τ → Prop) : List τ → Prop
  | [] => True
  | e :: rest => (∀ c, owes e c → c ∈ rest) ∧ Settled owes rest

section
variable {owes : τ → τ → Prop} {first second : List τ}

theorem settled_append (left : Settled owes first) (right : Settled owes second) : Settled owes (first ++ second) := by
  induction first with
  | nil => exact right
  | cons e rest ih =>
    refine ⟨fun c owed => ?_,ih left.2⟩
    exact List.mem_append_left _ (left.1 c owed)

-- All that is owed is the last event.
theorem settled_last {last : τ} (due : ∀ e ∈ first, ∀ c, owes e c → c = last) (free : ∀ c, ¬ owes last c) :
    Settled owes (first ++ [last]) := by
  induction first with
  | nil => exact ⟨fun c owed => absurd owed (free c),trivial⟩
  | cons e rest ih =>
    refine ⟨fun c owed => ?_,ih fun later member => due later (List.mem_cons_of_mem _ member)⟩
    rw [due e List.mem_cons_self c owed]
    exact List.mem_append_right _ (List.mem_singleton.mpr rfl)

theorem Settled.event {trace earlier later : List τ} {e : τ} (settled : Settled owes trace)
    (listed : trace = earlier ++ e :: later) : ∀ c, owes e c → c ∈ later := by
  subst listed
  induction earlier with
  | nil => exact settled.1
  | cons _ rest ih => exact ih settled.2

end

end Traced
