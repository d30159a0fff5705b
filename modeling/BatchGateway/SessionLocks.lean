import BatchGateway.LabelledRuns
import Mathlib.Logic.Function.Basic

-- Threads with a database session each, one mutex and the database's one writer
-- lock. The writer lock is taken implicitly: whatever a session sends first after
-- a change flushes the change, and keeps the lock until it commits or closes.
namespace SessionLocks
open LabelledRuns
variable {τ ι : Type} [DecidableEq τ]

inductive Statement where
  -- a mutation of a loaded row, or a new row
  | change
  | select
  | flush
  | commit
  -- entering and leaving the block that holds the mutex
  | enter
  | leave
  | close
  deriving DecidableEq, Repr

structure Thread where
  rest : List Statement := []
  changed : Bool := false

structure State (τ : Type) where
  thread : τ → Thread
  mutex : Option τ
  writer : Option τ

def start : State τ := ⟨fun _ => {},none,none⟩

inductive Action (τ ι : Type) where
  | begin (t : τ) (op : ι)
  | proceed (t : τ)
  -- an exception at the next statement; a failed flush also rolls back
  | raised (t : τ) (rolledBack : Bool)

def State.put (s : State τ) (t : τ) (thread : Thread) : State τ := {s with thread := Function.update s.thread t thread}

def State.free (s : State τ) (t : τ) : Option τ := if s.writer = some t then none else s.writer

-- The writer lock is free for t, or t's already.
def State.open_ (s : State τ) (t : τ) : Bool := s.writer = none || s.writer = some t

def proceed (t : τ) (s : State τ) : Option (State τ) :=
  match (s.thread t).rest with
  | [] => none
  | .change :: rest => some (s.put t ⟨rest,true⟩)
  | .select :: rest | .flush :: rest =>
    if (s.thread t).changed then
      if s.open_ t then some {s.put t ⟨rest,false⟩ with writer := some t} else none
    else some (s.put t ⟨rest,false⟩)
  | .commit :: rest =>
    if (s.thread t).changed && !s.open_ t then none
    else some {s.put t ⟨rest,false⟩ with writer := s.free t}
  | .enter :: rest => if s.mutex = none then some {s.put t ⟨rest,(s.thread t).changed⟩ with mutex := some t} else none
  | .leave :: rest => some {s.put t ⟨rest,(s.thread t).changed⟩ with mutex := none}
  | .close :: rest => some {s.put t ⟨rest,false⟩ with writer := s.free t}

-- Leaving the mutex's block, then the session's teardown.
def unwinding (s : State τ) (t : τ) : List Statement := if s.mutex = some t then [.leave,.close] else [.close]

-- Threads run operations one after another; each has its program.
def advance (program : ι → List Statement) : Action τ ι → State τ → Option (State τ)
  | .begin t op, s => if (s.thread t).rest = [] then some (s.put t ⟨program op,false⟩) else none
  | .proceed t, s => proceed t s
  | .raised t rolledBack, s =>
    if (s.thread t).rest = [] then none
    else if rolledBack then some {s.put t ⟨unwinding s t,false⟩ with writer := s.free t}
    else some (s.put t ⟨unwinding s t,(s.thread t).changed⟩)

def Step (program : ι → List Statement) (s : State τ) (a : Action τ ι) (u : State τ) : Prop :=
  advance program a s = some u

def Statement.sends : Statement → Bool
  | .select | .flush | .commit => true
  | _ => false

def Thread.wantsWriter (t : Thread) : Bool := t.changed && t.rest.head?.any Statement.sends

-- The next statement takes the writer lock and keeps it.
def Thread.flushes (t : Thread) : Bool := t.changed && (t.rest.head? = some .select || t.rest.head? = some .flush)

def Thread.wantsMutex (t : Thread) : Bool := t.rest.head? = some .enter

def Deadlocked (s : State τ) : Prop :=
  ∃ a b, a ≠ b ∧ s.writer = some a ∧ s.mutex = some b ∧ (s.thread a).wantsMutex = true ∧ (s.thread b).wantsWriter = true

-- What is left of the block that holds the mutex.
def block (rest : List Statement) : List Statement := rest.takeWhile (fun stmt => stmt != .leave)

-- A thread that has yet to enter the block, and one in the block that has yet to
-- commit.
def Thread.early (t : Thread) : Prop := .enter ∈ t.rest
def Thread.uncommitted (t : Thread) : Prop := .commit ∈ block t.rest

-- A thread takes the writer lock ahead of the mutex only while no other is in the
-- block with its commit to come, and enters the block only while no other holds
-- the writer lock with the block to come.
def Apart (s : State τ) : Action τ ι → Prop
  | .proceed t =>
    ((s.thread t).flushes = true → (s.thread t).early → ∀ u, u ≠ t → s.mutex = some u → ¬ (s.thread u).uncommitted) ∧
    ((s.thread t).wantsMutex = true → ∀ u, u ≠ t → s.writer = some u → ¬ (s.thread u).early)
  | _ => True

-- A program's text: in the block it changes nothing that it does not commit there
-- when it sends something, it leaves what it enters, and it closes its session last.
def covered : Bool → Bool → List Statement → Bool
  | inside, _, [] => !inside
  | inside, _, .change :: rest => covered inside true rest
  | inside, changed, .select :: rest | inside, changed, .flush :: rest =>
    (!(inside && changed) || decide (.commit ∈ block rest)) && covered inside false rest
  | inside, _, .commit :: rest => covered inside false rest
  | inside, changed, .enter :: rest => !inside && covered true changed rest
  | inside, changed, .leave :: rest => inside && covered false changed rest
  | inside, _, .close :: rest => !inside && rest.isEmpty

structure Proper (program : List Statement) : Prop where
  text : covered false false program = true
  closes : .close ∈ program

instance (t : Thread) : Decidable t.early := inferInstanceAs (Decidable (_ ∈ _))
instance (t : Thread) : Decidable t.uncommitted := inferInstanceAs (Decidable (_ ∈ _))

structure Sound (s : State τ) : Prop where
  text : ∀ t, covered (s.mutex = some t) (s.thread t).changed (s.thread t).rest = true
  closes : ∀ t, (s.thread t).rest = [] ∨ .close ∈ (s.thread t).rest
  holds : ∀ t, s.writer = some t → .close ∈ (s.thread t).rest
  apart : ∀ a b, a ≠ b → s.writer = some a → s.mutex = some b → (s.thread a).early → ¬ (s.thread b).uncommitted

variable {s u : State τ} {a : Action τ ι} {t : τ} {program : ι → List Statement}


theorem free_other {other : τ} (freed : s.free t = some other) : s.writer = some other ∧ other ≠ t := by
  unfold State.free at freed
  split at freed
  · cases freed
  · rename_i held
    refine ⟨freed,?_⟩
    rintro rfl
    exact held freed

-- One thread moves; the locks change hands only with it.
theorem sound_put {thread : Thread} {mutex writer : Option τ} (valid : Sound s)
    (others : ∀ other, other ≠ t → ((mutex = some other ↔ s.mutex = some other) ∧
      (writer = some other → s.writer = some other)))
    (text : covered (mutex = some t) thread.changed thread.rest = true)
    (closes : thread.rest = [] ∨ .close ∈ thread.rest) (holds : writer = some t → .close ∈ thread.rest)
    (ahead : ∀ other, other ≠ t → writer = some t → s.mutex = some other → thread.early → ¬ (s.thread other).uncommitted)
    (inside : ∀ other, other ≠ t → s.writer = some other → mutex = some t → (s.thread other).early → ¬ thread.uncommitted) :
    Sound ⟨Function.update s.thread t thread,mutex,writer⟩ := by
  refine ⟨fun other => ?_,fun other => ?_,fun other held => ?_,fun a b different writes enters early => ?_⟩
  · by_cases here : other = t
    · subst here
      simpa using text
    · simpa [Function.update_of_ne here,(others other here).1] using valid.text other
  · by_cases here : other = t
    · subst here
      simpa using closes
    · simpa [Function.update_of_ne here] using valid.closes other
  · by_cases here : other = t
    · subst here
      simpa using holds held
    · simpa [Function.update_of_ne here] using valid.holds other ((others other here).2 held)
  · simp only at writes enters early ⊢
    by_cases first : a = t
    · subst first
      have second := Ne.symm different
      rw [Function.update_self] at early
      rw [Function.update_of_ne second]
      exact ahead b second writes ((others b second).1.mp enters) early
    · rw [Function.update_of_ne first] at early
      have writes := (others a first).2 writes
      by_cases second : b = t
      · subst second
        rw [Function.update_self]
        exact inside a first writes enters early
      · rw [Function.update_of_ne second]
        exact valid.apart a b different writes ((others b second).1.mp enters) early

-- The session is closed last, so a statement before has its closing ahead.
theorem closes_tail {stmt : Statement} {rest : List Statement} (valid : Sound s) (next : (s.thread t).rest = stmt :: rest)
    (other : stmt ≠ .close) : .close ∈ rest := by
  rcases valid.closes t with none_ | ahead
  · rw [none_] at next
    cases next
  · rw [next] at ahead
    rcases List.mem_cons.mp ahead with same | later
    · exact absurd same.symm other
    · exact later

omit [DecidableEq τ] in
theorem early_tail {stmt : Statement} {rest : List Statement} {changed : Bool} (next : (s.thread t).rest = stmt :: rest)
    (early : Thread.early ⟨rest,changed⟩) : (s.thread t).early := by
  unfold Thread.early
  rw [next]
  exact List.mem_cons_of_mem _ early

omit [DecidableEq τ] in
theorem uncommitted_tail {stmt : Statement} {rest : List Statement} {changed : Bool}
    (next : (s.thread t).rest = stmt :: rest) (other : stmt ≠ .leave) (later : Thread.uncommitted ⟨rest,changed⟩) :
    (s.thread t).uncommitted := by
  unfold Thread.uncommitted block
  rw [next,List.takeWhile_cons_of_pos (by simpa using other)]
  exact List.mem_cons_of_mem _ later

-- A statement that takes no lock and gives none back.
theorem sound_passed {stmt : Statement} {rest : List Statement} {changed : Bool} (valid : Sound s)
    (next : (s.thread t).rest = stmt :: rest) (plain : stmt ≠ .close ∧ stmt ≠ .leave)
    (text : covered (s.mutex = some t) changed rest = true) : Sound (s.put t ⟨rest,changed⟩) :=
  sound_put valid (fun _ _ => ⟨.rfl,fun held => held⟩) text (.inr (closes_tail valid next plain.1))
    (fun _ => closes_tail valid next plain.1)
    (fun other different writes enters early =>
      valid.apart t other (Ne.symm different) writes enters (early_tail next early))
    (fun other different writes enters early later =>
      valid.apart other t different writes enters early (uncommitted_tail next plain.2 later))

theorem sound_freed {thread : Thread} (valid : Sound s) (text : covered (s.mutex = some t) thread.changed thread.rest = true)
    (closes : thread.rest = [] ∨ .close ∈ thread.rest)
    (later : thread.uncommitted → (s.thread t).uncommitted) : Sound {s.put t thread with writer := s.free t} := by
  have freed : s.free t ≠ some t := fun held => (free_other held).2 rfl
  exact sound_put valid (fun _ _ => ⟨.rfl,fun held => (free_other held).1⟩) text closes (fun held => absurd held freed)
    (fun _ _ held => absurd held freed)
    (fun other different writes enters early commits => valid.apart other t different writes enters early (later commits))

-- The statement that takes the writer lock.
theorem sound_flushed {stmt : Statement} {rest : List Statement} (valid : Sound s) (apart : Apart (ι := ι) s (.proceed t))
    (next : (s.thread t).rest = stmt :: rest) (kind : stmt = .select ∨ stmt = .flush)
    (changed : (s.thread t).changed = true) (free : s.open_ t = true)
    (text : covered (s.mutex = some t) false rest = true) : Sound {s.put t ⟨rest,false⟩ with writer := some t} := by
  have other : stmt ≠ .close := by
    rcases kind with rfl | rfl
    · simp
    · simp
  have ahead := closes_tail valid next other
  have flushes : (s.thread t).flushes = true := by
    rcases kind with rfl | rfl
    · simp [Thread.flushes,changed,next]
    · simp [Thread.flushes,changed,next]
  refine sound_put valid (fun other different => ⟨.rfl,fun held => ?_⟩) text (.inr ahead) (fun _ => ahead)
    (fun other different _ enters early => apart.1 flushes (early_tail next early) other different enters)
    (fun other different writes _ => ?_)
  · exact absurd (Option.some.inj held).symm different
  · simp only [State.open_,writes,Bool.or_eq_true,decide_eq_true_eq,reduceCtorEq,Option.some.injEq,false_or] at free
    exact absurd free different

-- A SELECT or a flush, which sends only what has changed.
theorem sound_sent {stmt : Statement} {rest : List Statement} (valid : Sound s) (apart : Apart (ι := ι) s (.proceed t))
    (next : (s.thread t).rest = stmt :: rest) (kind : stmt = .select ∨ stmt = .flush)
    (text : covered (s.mutex = some t) false rest = true)
    (step : (if (s.thread t).changed then
        if s.open_ t then some {s.put t ⟨rest,false⟩ with writer := some t} else none
      else some (s.put t ⟨rest,false⟩)) = some u) : Sound u := by
  split at step
  · rename_i changed
    split at step
    · rename_i free
      cases step
      exact sound_flushed valid apart next kind changed free text
    · cases step
  · cases step
    refine sound_passed valid next ?_ text
    rcases kind with rfl | rfl
    · simp
    · simp

theorem sound_entered {rest : List Statement} (valid : Sound s) (apart : Apart (ι := ι) s (.proceed t))
    (next : (s.thread t).rest = .enter :: rest) (free : s.mutex = none)
    (inside : covered true (s.thread t).changed rest = true) :
    Sound {s.put t ⟨rest,(s.thread t).changed⟩ with mutex := some t} := by
  have ahead := closes_tail valid next (by simp)
  have wants : (s.thread t).wantsMutex = true := by simp [Thread.wantsMutex,next]
  have nobody : ∀ other, s.mutex ≠ some other := by
    intro other held
    rw [free] at held
    cases held
  refine sound_put valid (fun other different => ⟨⟨fun held => ?_,fun held => ?_⟩,fun held => held⟩) (by simpa using inside)
    (.inr ahead) (fun _ => ahead) (fun other _ _ held => absurd held (nobody other)) (fun other different writes _ early => ?_)
  · exact absurd (Option.some.inj held).symm different
  · exact absurd held (nobody other)
  · exact absurd early (apart.2 wants other different writes)

theorem sound_left {rest : List Statement} (valid : Sound s) (next : (s.thread t).rest = .leave :: rest)
    (mine : s.mutex = some t) (outside : covered false (s.thread t).changed rest = true) :
    Sound {s.put t ⟨rest,(s.thread t).changed⟩ with mutex := none} := by
  have ahead := closes_tail valid next (by simp)
  have theirs : ∀ other, other ≠ t → s.mutex ≠ some other := by
    intro other different held
    rw [mine] at held
    exact different (Option.some.inj held).symm
  refine sound_put valid (fun other different => ⟨⟨fun held => (by cases held),fun held => ?_⟩,fun held => held⟩)
    (by simpa using outside) (.inr ahead) (fun _ => ahead) (fun other different _ held => ?_) (fun _ _ _ held => by cases held)
  · exact absurd held (theirs other different)
  · exact absurd held (theirs other different)

-- One case for each statement a thread can be at.
theorem sound_proceeded (valid : Sound s) (apart : Apart (ι := ι) s (.proceed t)) (step : proceed t s = some u) : Sound u := by
  have text := valid.text t
  unfold proceed at step
  split at step
  · cases step
  · rename_i rest next
    cases step
    rw [next] at text
    exact sound_passed valid next (by simp) text
  · rename_i rest next
    rw [next] at text
    exact sound_sent valid apart next (.inl rfl) (Bool.and_eq_true_iff.mp text).2 step
  · rename_i rest next
    rw [next] at text
    exact sound_sent valid apart next (.inr rfl) (Bool.and_eq_true_iff.mp text).2 step
  · rename_i rest next
    rw [next] at text
    split at step
    · cases step
    · cases step
      exact sound_freed valid text (.inr (closes_tail valid next (by simp))) (uncommitted_tail next (by simp))
  · rename_i rest next
    rw [next] at text
    split at step
    · rename_i free
      cases step
      exact sound_entered valid apart next free (Bool.and_eq_true_iff.mp text).2
    · cases step
  · rename_i rest next
    cases step
    rw [next] at text
    obtain ⟨holds,outside⟩ := Bool.and_eq_true_iff.mp text
    exact sound_left valid next (by simpa using holds) outside
  · rename_i rest next
    cases step
    rw [next] at text
    obtain ⟨outside,last⟩ := Bool.and_eq_true_iff.mp text
    have done : rest = [] := by simpa using last
    subst done
    exact sound_freed valid outside (.inl rfl) fun later => by cases later

theorem unwinding_text (s : State τ) (t : τ) (changed : Bool) :
    covered (s.mutex = some t) changed (unwinding s t) = true := by
  unfold unwinding
  by_cases inside : s.mutex = some t
  · simp [inside,covered]
  · simp [inside,covered]

theorem unwinding_ends (s : State τ) (t : τ) :
    .close ∈ unwinding s t ∧ .enter ∉ unwinding s t ∧ .commit ∉ block (unwinding s t) := by
  unfold unwinding
  split
  · decide
  · decide

theorem sound_preserved (proper : ∀ op, Proper (program op)) (valid : Sound s)
    (step : Guarded Apart (Step program) s a u) : Sound u := by
  obtain ⟨apart,step⟩ := step
  cases a with
  | proceed t => exact sound_proceeded valid apart step
  | begin t op =>
    obtain ⟨text,closes⟩ := proper op
    simp only [Step,advance] at step
    split at step
    · rename_i idle
      cases step
      have outside : s.mutex ≠ some t := by
        have none_ := valid.text t
        rw [idle] at none_
        simpa [covered] using none_
      have unlocked : s.writer ≠ some t := by
        intro held
        have ahead := valid.holds t held
        rw [idle] at ahead
        cases ahead
      exact sound_put valid (fun _ _ => ⟨.rfl,fun held => held⟩) (by simpa [outside] using text) (.inr closes)
        (fun held => absurd held unlocked) (fun _ _ held => absurd held unlocked) (fun _ _ _ held => absurd held outside)
    · cases step
  | raised t rolledBack =>
    obtain ⟨closes,enters,commits⟩ := unwinding_ends s t
    simp only [Step,advance] at step
    split at step
    · cases step
    · split at step
      · cases step
        exact sound_freed valid (unwinding_text s t false) (.inr closes) fun later => absurd later commits
      · cases step
        exact sound_put valid (fun _ _ => ⟨.rfl,fun held => held⟩) (unwinding_text s t _) (.inr closes) (fun _ => closes)
          (fun _ _ _ _ early => absurd early enters) (fun _ _ _ _ _ later => commits later)

theorem start_sound : Sound (start (τ := τ)) := by
  refine ⟨fun _ => rfl,fun _ => .inl rfl,fun t held => ?_,fun a b _ held => ?_⟩
  · cases held
  · cases held

-- A thread in the block that waits for the writer lock has its commit to come.
theorem waiting_uncommitted (valid : Sound s) (holds : s.mutex = some t) (waits : (s.thread t).wantsWriter = true) :
    (s.thread t).uncommitted := by
  obtain ⟨changed,sends⟩ := Bool.and_eq_true_iff.mp waits
  have text := valid.text t
  unfold Thread.uncommitted
  cases next : (s.thread t).rest with
  | nil =>
    rw [next] at sends
    cases sends
  | cons stmt rest =>
    rw [next] at sends text
    have kept : ∀ other, other ≠ Statement.leave → .commit ∈ block rest → .commit ∈ block (other :: rest) := by
      intro other different member
      unfold block
      rw [List.takeWhile_cons_of_pos (by simpa using different)]
      exact List.mem_cons_of_mem _ member
    cases stmt with
    | commit => simp [block]
    | select =>
      have ahead := (Bool.and_eq_true_iff.mp text).1
      exact kept .select (by simp) (by simpa [holds,changed] using ahead)
    | flush =>
      have ahead := (Bool.and_eq_true_iff.mp text).1
      exact kept .flush (by simp) (by simpa [holds,changed] using ahead)
    | change => cases sends
    | enter => cases sends
    | leave => cases sends
    | close => cases sends

theorem sound_unlocked (valid : Sound s) : ¬ Deadlocked s := by
  rintro ⟨a,b,different,writes,holds,waits,stuck⟩
  have early : (s.thread a).early := by
    unfold Thread.early
    have next : (s.thread a).rest.head? = some .enter := by simpa [Thread.wantsMutex] using waits
    exact List.mem_of_mem_head? next
  exact valid.apart a b different writes holds early (waiting_uncommitted valid holds stuck)

-- Programs whose texts are proper never deadlock in a run that keeps them apart.
theorem run_unlocked {actions : List (Action τ ι)} (proper : ∀ op, Proper (program op))
    (path : Run (Guarded Apart (Step program)) start actions s) : ¬ Deadlocked s :=
  sound_unlocked (path.preserves start_sound fun _ _ _ valid step => sound_preserved proper valid step)

end SessionLocks
