import Mathlib.Tactic.Basic

-- A database session as a unit of work. Rows wait in it until a flush sends their
-- statements; a commit publishes the transaction, closing the session drops it.
namespace UnitOfWork

-- An exception of the program or of a constraint, or one that a statement met in
-- the database or on the way to it.
inductive Failure (ε φ : Type) where
  | raised (e : ε)
  | fault (f : φ)

abbrev Statement (σ ε : Type) := σ → Except ε σ

-- `working` is what the session's own statements see. Each statement that is sent
-- takes the next entry of `faults`.
structure Session (σ ε φ : Type) where
  committed : σ
  working : σ
  pending : List (Statement σ ε) := []
  faults : List (Option φ) := []

abbrev Work (σ ε φ α : Type) := EStateM (Failure ε φ) (Session σ ε φ) α

variable {σ ε φ α β : Type}

def Session.rollback (s : Session σ ε φ) : Session σ ε φ := {s with working := s.committed,pending := []}

-- An exception inside a flush or a commit rolls the transaction back at once.
def orRollback (x : Work σ ε φ α) : Work σ ε φ α := fun s =>
  match x s with
  | .ok a t => .ok a t
  | .error e t => .error e t.rollback

def lift (x : Except ε α) : Work σ ε φ α := fun s =>
  match x with
  | .ok a => .ok a s
  | .error e => .error (.raised e) s

-- A statement reaches the database, or meets a fault.
def reach : Work σ ε φ Unit := fun s =>
  match s.faults with
  | [] => .ok () s
  | none :: rest => .ok () {s with faults := rest}
  | some f :: rest => .error (.fault f) {s with faults := rest}

def carryOut (statement : Statement σ ε) : Work σ ε φ Unit := fun s =>
  match statement s.working with
  | .ok working => .ok () {s with working := working}
  | .error e => .error (.raised e) s

def sendAll : List (Statement σ ε) → Work σ ε φ Unit
  | [] => pure ()
  | statement :: rest => do
    reach
    carryOut statement
    sendAll rest

def add (statement : Statement σ ε) : Work σ ε φ Unit := fun s => .ok () {s with pending := s.pending ++ [statement]}

def sentPending : Work σ ε φ Unit := fun s => .ok () {s with pending := []}

def flush : Work σ ε φ Unit := fun s => orRollback (sendAll s.pending >>= fun _ => sentPending) s

def view (read : σ → α) : Work σ ε φ α := fun s => .ok (read s.working) s

-- A SELECT: what waits is flushed first.
def query (read : σ → α) : Work σ ε φ α := do
  flush
  reach
  view read

def publish : Work σ ε φ Unit := fun s => .ok () {s with committed := s.working}

def commit : Work σ ε φ Unit := do
  flush
  orRollback reach
  publish

-- A row read again after its commit; `missing` is raised where it is gone.
def refresh (read : σ → Option α) (missing : φ) : Work σ ε φ α := do
  flush
  match ← view read with
  | some row => return row
  | none => throw (.fault missing)

-- A request's session from its opening to its close, which rolls back.
def request (work : Work σ ε φ α) (faults : List (Option φ)) (db : σ) : Except (Failure ε φ) α × σ :=
  match work {committed := db,working := db,faults := faults} with
  | .ok a s => (.ok a,s.rollback.committed)
  | .error e s => (.error e,s.rollback.committed)

-- The statements one after the other, with nothing in their way.
def sent (statements : List (Statement σ ε)) (db : σ) : Except ε σ := statements.foldlM (fun db statement => statement db) db

-- Partial correctness with a postcondition for exceptions.
def Triple (P : Session σ ε φ → Prop) (x : Work σ ε φ α) (Q : α → Session σ ε φ → Prop)
    (E : Failure ε φ → Session σ ε φ → Prop) : Prop :=
  ∀ s, P s → (∀ a t, x s = .ok a t → Q a t) ∧ (∀ e t, x s = .error e t → E e t)

-- The session with these rows committed, seen and waiting; `calm` says that no
-- fault is to come.
structure At (committed working : σ) (pending : List (Statement σ ε)) (calm : Prop) (s : Session σ ε φ) : Prop where
  committed : s.committed = committed
  working : s.working = working
  pending : s.pending = pending
  calm : calm → s.faults = []

-- What an exception leaves: nothing published, and a reason for it.
structure Stopped (committed : σ) (raised : ε → Prop) (calm : Prop) (e : Failure ε φ) (s : Session σ ε φ) : Prop where
  committed : s.committed = committed
  reason : (∃ reason, e = .raised reason ∧ raised reason) ∨ ¬calm

variable {P P' : Session σ ε φ → Prop} {Q : α → Session σ ε φ → Prop} {R : β → Session σ ε φ → Prop}
  {E E' : Failure ε φ → Session σ ε φ → Prop} {x : Work σ ε φ α}

-- The two ways a call ends.
theorem ends_ok {r : EStateM.Result (Failure ε φ) (Session σ ε φ) α} {a : α} {t : Session σ ε φ} (ran : r = .ok a t)
    (post : Q a t) : (∀ b u, r = .ok b u → Q b u) ∧ (∀ e u, r = .error e u → E e u) := by
  subst ran
  refine ⟨fun _ _ same => ?_,fun _ _ same => by (cases same)⟩
  cases same
  exact post

theorem ends_error {r : EStateM.Result (Failure ε φ) (Session σ ε φ) α} {e : Failure ε φ} {t : Session σ ε φ}
    (ran : r = .error e t) (post : E e t) :
    (∀ b u, r = .ok b u → Q b u) ∧ (∀ e u, r = .error e u → E e u) := by
  subst ran
  refine ⟨fun _ _ same => by (cases same),fun _ _ same => ?_⟩
  cases same
  exact post

theorem triple_bind {f : α → Work σ ε φ β} (first : Triple P x Q E) (rest : ∀ a, Triple (Q a) (f a) R E) :
    Triple P (x >>= f) R E := by
  intro s pre
  obtain ⟨done,failed⟩ := first s pre
  show (∀ b t, EStateM.bind x f s = .ok b t → R b t) ∧ (∀ e t, EStateM.bind x f s = .error e t → E e t)
  unfold EStateM.bind
  cases ran : x s with
  | ok a middle => exact rest a middle (done a middle ran)
  | error e middle => exact ends_error rfl (failed e middle ran)

-- A call that cannot raise.
theorem triple_returns (returns : ∀ s, P s → ∃ a t, x s = .ok a t ∧ Q a t) : Triple P x Q E := by
  intro s pre
  obtain ⟨a,t,ran,post⟩ := returns s pre
  exact ends_ok ran post

theorem triple_pure (a : α) : Triple (Q a) (pure a) Q E := triple_returns (fun s post => ⟨a,s,rfl,post⟩)

theorem triple_raises {raised other : ε → Prop} {calm : Prop} {db : σ} (weaker : ∀ e, raised e → other e)
    (given : Triple P x Q (Stopped db raised calm)) : Triple P x Q (Stopped db other calm) := by
  intro s pre
  refine ⟨(given s pre).1,fun e t same => ?_⟩
  have stopped := (given s pre).2 e t same
  refine ⟨stopped.committed,?_⟩
  rcases stopped.reason with ⟨reason,which,because⟩ | faulty
  · exact .inl ⟨reason,which,weaker reason because⟩
  · exact .inr faulty

theorem triple_entails {Q' : α → Session σ ε φ → Prop} (stronger : ∀ s, P s → P' s) (given : Triple P' x Q' E)
    (weaker : ∀ a t, Q' a t → Q a t) : Triple P x Q E :=
  fun s pre => ⟨fun a t same => weaker a t ((given s (stronger s pre)).1 a t same),(given s (stronger s pre)).2⟩

variable {db w : σ} {l : List (Statement σ ε)} {calm : Prop} {raised : ε → Prop}

theorem orRollback_spec (given : Triple P x Q (Stopped db raised calm)) :
    Triple P (orRollback x) Q (Stopped db raised calm) := by
  intro s pre
  obtain ⟨done,failed⟩ := given s pre
  unfold orRollback
  cases ran : x s with
  | ok a t => exact ends_ok rfl (done a t ran)
  | error e t =>
    have stopped := failed e t ran
    exact ends_error rfl ⟨stopped.committed,stopped.reason⟩

theorem lift_spec (x : Except ε α) :
    Triple (At db w l calm) (lift x : Work σ ε φ α) (fun a s => x = .ok a ∧ At db w l calm s)
      (Stopped db (fun e => x = .error e) calm) := by
  intro s here
  cases x with
  | ok a => exact ends_ok rfl ⟨rfl,here⟩
  | error e => exact ends_error rfl ⟨here.committed,.inl ⟨e,rfl,rfl⟩⟩

theorem reach_spec : Triple (At db w l calm) (reach : Work σ ε φ Unit) (fun _ => At db w l calm)
    (Stopped db raised calm) := by
  intro s here
  unfold reach
  split
  · exact ends_ok rfl here
  · rename_i rest ahead
    have none_left : calm → rest = [] := fun quiet => by simpa [ahead] using here.calm quiet
    exact ends_ok rfl ⟨here.committed,here.working,here.pending,none_left⟩
  · rename_i f rest ahead
    have faulty : ¬calm := fun quiet => by simpa [ahead] using here.calm quiet
    exact ends_error rfl ⟨here.committed,.inr faulty⟩

theorem carryOut_spec (statement : Statement σ ε) :
    Triple (At db w l calm) (carryOut statement : Work σ ε φ Unit)
      (fun _ s => ∃ after, statement w = .ok after ∧ At db after l calm s)
      (Stopped db (fun e => statement w = .error e) calm) := by
  intro s here
  unfold carryOut
  rw [here.working]
  cases statement w with
  | ok after => exact ends_ok rfl ⟨after,rfl,here.committed,rfl,here.pending,here.calm⟩
  | error e => exact ends_error rfl ⟨here.committed,.inl ⟨e,rfl,rfl⟩⟩

theorem sent_cons (statement : Statement σ ε) (rest : List (Statement σ ε)) (db : σ) :
    sent (statement :: rest) db = (statement db >>= sent rest) := rfl

theorem sendAll_spec (statements : List (Statement σ ε)) :
    Triple (At db w l calm) (sendAll statements : Work σ ε φ Unit)
      (fun _ s => ∃ after, sent statements w = .ok after ∧ At db after l calm s)
      (Stopped db (fun e => sent statements w = .error e) calm) := by
  induction statements generalizing w with
  | nil => exact triple_returns (fun s here => ⟨(),s,rfl,w,rfl,here⟩)
  | cons statement rest ih =>
    refine triple_bind reach_spec (fun _ => triple_bind (triple_raises ?_ (carryOut_spec statement)) (fun _ => ?_))
    · intro e same
      rw [sent_cons,same]
      rfl
    · rintro s ⟨next,done,here⟩
      have later := ih s here
      rw [sent_cons,done]
      exact later

theorem flush_spec : Triple (At db w l calm) (flush : Work σ ε φ Unit)
    (fun _ s => ∃ after, sent l w = .ok after ∧ At db after [] calm s)
    (Stopped db (fun e => sent l w = .error e) calm) := by
  intro s here
  have cleared : Triple (fun t => ∃ after, sent l w = .ok after ∧ At db after l calm t) (sentPending : Work σ ε φ Unit)
      (fun _ t => ∃ after, sent l w = .ok after ∧ At db after [] calm t)
      (Stopped db (fun e => sent l w = .error e) calm) := by
    refine triple_returns ?_
    rintro t ⟨after,done,there⟩
    exact ⟨(),_,rfl,after,done,there.committed,there.working,rfl,there.calm⟩
  simp only [flush,here.pending]
  exact orRollback_spec (triple_bind (sendAll_spec l) (fun _ => cleared)) s here

theorem flush_nothing : Triple (At db w [] calm) (flush : Work σ ε φ Unit) (fun _ => At db w [] calm) E := by
  refine triple_returns (fun s here => ⟨(),{s with pending := []},?_,here.committed,here.working,rfl,here.calm⟩)
  simp only [flush,here.pending]
  rfl

theorem add_spec (statement : Statement σ ε) : Triple (At db w l calm) (add statement : Work σ ε φ Unit)
    (fun _ => At db w (l ++ [statement]) calm) E :=
  triple_returns (fun _ here => ⟨(),_,rfl,here.committed,here.working,by rw [here.pending],here.calm⟩)

theorem view_spec (read : σ → α) : Triple (At db w l calm) (view read : Work σ ε φ α)
    (fun a s => a = read w ∧ At db w l calm s) E :=
  triple_returns (fun s here => ⟨_,s,rfl,by rw [here.working],here⟩)

theorem query_spec (read : σ → α) : Triple (At db w l calm) (query read : Work σ ε φ α)
    (fun a s => ∃ after, sent l w = .ok after ∧ a = read after ∧ At db after [] calm s)
    (Stopped db (fun e => sent l w = .error e) calm) := by
  refine triple_bind flush_spec (fun _ => ?_)
  rintro s ⟨after,done,here⟩
  refine triple_bind reach_spec (fun _ => ?_) s here
  exact triple_entails (fun _ there => there) (view_spec read) (fun _ _ seen => ⟨after,done,seen⟩)

theorem commit_spec : Triple (At db w l calm) (commit : Work σ ε φ Unit)
    (fun _ s => ∃ after, sent l w = .ok after ∧ At after after [] calm s)
    (Stopped db (fun e => sent l w = .error e) calm) := by
  refine triple_bind flush_spec (fun _ => ?_)
  rintro s ⟨after,done,here⟩
  refine triple_bind (orRollback_spec reach_spec) (fun _ => triple_returns (fun t there => ?_)) s here
  exact ⟨(),_,rfl,after,done,there.working,there.working,there.pending,there.calm⟩

-- A row that is there is read again without an exception.
theorem refresh_spec (read : σ → Option α) {row : α} (present : read w = some row) (missing : φ) :
    Triple (At db w [] calm) (refresh read missing : Work σ ε φ α) (fun a s => a = row ∧ At db w [] calm s) E := by
  refine triple_bind flush_nothing (fun _ => triple_bind (view_spec read) (fun found => ?_))
  rintro s ⟨same,here⟩
  rw [same,present]
  exact triple_pure row s ⟨rfl,here⟩

-- What holds of a request's outcome and of the database its closed session leaves.
theorem request_spec {faults : List (Option φ)} {x : Work σ ε φ α} {Q : α → Session σ ε φ → Prop}
    {E : Failure ε φ → Session σ ε φ → Prop} (given : Triple (At db db [] (faults = [])) x Q E) :
    (∃ a s, (request x faults db) = (.ok a,s.committed) ∧ Q a s) ∨
    (∃ e s, (request x faults db) = (.error e,s.committed) ∧ E e s) := by
  have opened : At db db [] (faults = []) (⟨db,db,[],faults⟩ : Session σ ε φ) := ⟨rfl,rfl,rfl,id⟩
  obtain ⟨done,failed⟩ := given _ opened
  unfold request
  cases ran : x ⟨db,db,[],faults⟩ with
  | ok a s => exact .inl ⟨a,s,rfl,done a s ran⟩
  | error e s => exact .inr ⟨e,s,rfl,failed e s ran⟩

end UnitOfWork
