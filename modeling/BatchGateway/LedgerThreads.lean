import BatchGateway.Ledger
import BatchGateway.SingleWriter

namespace BatchGateway.LedgerThreads
open Ledger SingleWriter LabelledRuns

-- What a thread of the server process remembers of its current ledger call.
inductive Caller where
  | idle
  | called (request : Request)
  | read (request : Request) (row : Budget)
  | returned (request : Request) (result : Except Raised Budget)

-- get_or_create_budget in a session that holds no Budget row yet.
def readRow : Statement Db Caller := fun db caller =>
  match caller with
  | .called request => .ok (db,.read request (db.getOrCreateBudget request.call.user))
  | other => .error other

def decideAndCommit : Statement Db Caller := fun db caller =>
  match caller with
  | .read request row =>
    match request.call.move row with
    | .error e => .error (.returned request (.error e))
    | .ok (after,entry) => .ok (post db request.call.user after entry,.returned request (.ok after))
  | other => .error other

-- The guard runs before the lock is asked for.
def begin (request : Request) : Caller :=
  match request.call.check with
  | .ok () => .called request
  | .error e => .returned request (.error e)

def Caller.waiting : Caller → Option Request
  | .called request => some request
  | _ => none

-- _budget_lock is the one lock; any thread makes any calls one after another.
def calls {τ : Type} : Program τ Db Caller where
  free _ _ before after := before.waiting = none ∧ ∃ request, after = begin request
  locked caller := match caller with
    | .called _ => some [readRow,decideAndCommit]
    | _ => none

def start {τ : Type} : State τ Db Caller := ⟨{},fun _ => .idle,none⟩

variable {τ : Type} [DecidableEq τ] {c d : Cut τ Db Caller}

omit [DecidableEq τ] in
theorem locked_parts {caller : Caller} {statements : List (Statement Db Caller)}
    (ready : (calls (τ := τ)).locked caller = some statements) :
    ∃ request, caller = .called request ∧ statements = [readRow,decideAndCommit] := by
  cases caller with
  | called request => cases ready; exact ⟨request,rfl,rfl⟩
  | idle => cases ready
  | read => cases ready
  | returned => cases ready

-- A locked call is the row's move on the committed row, all or nothing.
theorem section_result (db : Db) (request : Request) :
    runAll [readRow,decideAndCommit] db (.called request) =
      match request.call.move (db.getOrCreateBudget request.call.user) with
      | .error e => .error (.returned request (.error e))
      | .ok (after,entry) => .ok (post db request.call.user after entry,.returned request (.ok after)) := by
  simp only [runAll,readRow,decideAndCommit]
  cases request.call.move (db.getOrCreateBudget request.call.user) <;> rfl

-- The ledger call of the service is such a section, where the row and the entry also
-- fit into INTEGER columns.
theorem section_performs {request : Request} {db after : Db} (passed : request.call.check = .ok ()) :
    perform (.ok ()) request.call db = .ok after ↔ ∃ row entry,
      request.call.move (db.getOrCreateBudget request.call.user) = .ok (row,entry) ∧ row.fits = true ∧ entry.fits = true ∧
      runAll [readRow,decideAndCommit] db (.called request) = .ok (after,.returned request (.ok row)) := by
  rw [section_result,perform,passed]
  cases moved : request.call.move (db.getOrCreateBudget request.call.user) with
  | error e =>
    refine iff_of_false (fun done => ?_) ?_
    · cases done
    · rintro ⟨row,entry,same,_⟩
      cases same
  | ok result =>
    obtain ⟨row,entry⟩ := result
    constructor
    · intro done
      obtain ⟨_,_,done⟩ := Raising.bind_ok done
      obtain ⟨_,_,done⟩ := Raising.bind_ok done
      obtain ⟨_,same,done⟩ := Raising.bind_ok done
      cases same
      obtain ⟨_,fit,done⟩ := Raising.bind_ok done
      cases done
      obtain ⟨small,little⟩ := Bool.and_eq_true_iff.mp (Raising.require_ok.mp fit)
      exact ⟨row,entry,rfl,small,little,rfl⟩
    · rintro ⟨_,_,same,small,little,done⟩
      cases same
      cases done
      have fit : Raising.require (row.fits && entry.fits) Raised.overflowError = .ok () := by
        rw [small,little]
        rfl
      change (Raising.require (row.fits && entry.fits) Raised.overflowError >>= _) = _
      rw [fit]
      rfl

theorem section_parts {t : τ} (step : Atomic calls c (.section t) d) :
    ∃ request after entry, c.memory t = .called request ∧
      request.call.move (c.committed.getOrCreateBudget request.call.user) = .ok (after,entry) ∧
      d.committed = post c.committed request.call.user after entry ∧
      d.memory = Function.update c.memory t (.returned request (.ok after)) := by
  cases step with
  | «section» ready ran =>
    obtain ⟨request,called,rfl⟩ := locked_parts ready
    rw [called,section_result] at ran
    split at ran
    · cases ran
    · rename_i after entry moved
      cases ran
      exact ⟨request,after,entry,called,moved,rfl,rfl⟩

theorem raised_parts {t : τ} (step : Atomic calls c (.raised t) d) :
    ∃ request e, c.memory t = .called request ∧
      request.call.move (c.committed.getOrCreateBudget request.call.user) = .error e ∧
      d.committed = c.committed ∧ d.memory = Function.update c.memory t (.returned request (.error e)) := by
  cases step with
  | raised ready ran =>
    obtain ⟨request,called,rfl⟩ := locked_parts ready
    rw [called,section_result] at ran
    split at ran
    · rename_i e moved
      cases ran
      exact ⟨request,e,called,moved,rfl,rfl⟩
    · cases ran

theorem free_parts {t : τ} (step : Atomic calls c (.free t) d) :
    d.committed = c.committed ∧ ∃ request, d.memory = Function.update c.memory t (begin request) := by
  cases step with
  | free acts =>
    obtain ⟨_,request,rfl⟩ := acts
    exact ⟨rfl,request,rfl⟩

structure Sound (c : Cut τ Db Caller) : Prop where
  reconciled : Reconciled c.committed
  checked : ∀ t request, c.memory t = .called request → request.call.check = .ok ()
  nonnegative : NoAdjust c.committed.ledger → ∀ user, Budget.Nonnegative (c.committed.getOrCreateBudget user)
  covered : NoAdjust c.committed.ledger → ChargesCovered c.committed.ledger →
    ∀ user, 0 ≤ (c.committed.getOrCreateBudget user).availableTokens

omit [DecidableEq τ] in
theorem start_sound : Sound (start (τ := τ)).cut := by
  refine ⟨fun _ => rfl,?_,fun _ _ => ?_,fun _ _ _ => ?_⟩
  · intro t request called
    cases called
  · simp [start,State.cut,Db.getOrCreateBudget,Budget.Nonnegative]
  · simp [start,State.cut,Db.getOrCreateBudget,Budget.availableTokens]

theorem begin_checked {request other : Request} (called : begin request = .called other) :
    other.call.check = .ok () := by
  unfold begin at called
  split at called
  · rename_i passed
    cases called
    exact passed
  · cases called

theorem sound_memory (valid : Sound c) {t : τ} {caller : Caller} (committed : d.committed = c.committed)
    (memory : d.memory = Function.update c.memory t caller)
    (checked : ∀ request, caller = .called request → request.call.check = .ok ()) : Sound d := by
  refine ⟨by rw [committed]; exact valid.reconciled,?_,by rw [committed]; exact valid.nonnegative,
    by rw [committed]; exact valid.covered⟩
  intro u request called
  rw [memory] at called
  by_cases same : u = t
  · subst same
    exact checked request (by simpa using called)
  · exact valid.checked u request (by simpa [same] using called)

theorem sound_preserved {w : Whole τ} (valid : Sound c) (step : Atomic calls c w d) : Sound d := by
  cases w with
  | free t =>
    obtain ⟨committed,request,memory⟩ := free_parts step
    exact sound_memory valid committed memory (fun _ called => begin_checked called)
  | raised t =>
    obtain ⟨request,e,_,_,committed,memory⟩ := raised_parts step
    exact sound_memory valid committed memory (fun _ called => by cases called)
  | «section» t =>
    obtain ⟨request,after,entry,called,moved,committed,memory⟩ := section_parts step
    have passed := valid.checked t request called
    -- what the whole ledger satisfies, its older part and its newest entry do
    have earlier : ∀ {e}, e ∈ c.committed.ledger → e ∈ d.committed.ledger := by
      intro e member
      rw [committed,post_ledger]
      exact List.mem_append_left _ member
    have newest : entry ∈ d.committed.ledger := by rw [committed,post_ledger]; simp
    refine ⟨by rw [committed]; exact reconciled_post valid.reconciled (move_balanced moved),?_,?_,?_⟩
    · intro u other waiting
      rw [memory] at waiting
      by_cases same : u = t
      · subst same; simp at waiting
      · exact valid.checked u other (by simpa [same] using waiting)
    · intro manual user
      have before := valid.nonnegative (fun e member => manual e (earlier member))
      rw [committed]
      by_cases same : user = request.call.user
      · subst same
        rw [post_budget_self]
        exact move_nonnegative passed moved (manual _ newest) (before _)
      · rw [post_budget_other same]
        exact before user
    · intro manual charged user
      have prior := fun e member => manual e (earlier member)
      have before := valid.covered prior (fun e member => charged e (earlier member))
      rw [committed]
      by_cases same : user = request.call.user
      · subst same
        rw [post_budget_self]
        exact move_covered passed moved (manual _ newest) (charged _ newest) (valid.nonnegative prior _) (before _)
      · rw [post_budget_other same]
        exact before user

theorem reached_sound {actions : List (Action τ)} {s : State τ Db Caller}
    (path : Run (Step calls) start actions s) : Sound s.cut :=
  run_invariant path rfl start_sound (fun _ _ _ => sound_preserved)

theorem atomic_appends {w : Whole τ} (step : Atomic calls c w d) : c.committed.ledger <+: d.committed.ledger := by
  cases w with
  | free t => exact (free_parts step).1 ▸ List.prefix_rfl
  | raised t =>
    obtain ⟨_,_,_,_,committed,_⟩ := raised_parts step
    exact committed ▸ List.prefix_rfl
  | «section» t =>
    obtain ⟨_,_,_,_,_,committed,_⟩ := section_parts step
    rw [committed]
    exact List.prefix_append _ _

theorem step_appends {a : Action τ} {s t : State τ Db Caller} (valid : Serial calls s) (step : Step calls s a t) :
    s.committed.ledger <+: t.committed.ledger := by
  cases ends : a.whole with
  | none => exact (congrArg (fun c => c.committed.ledger) (step_idle step ends)) ▸ List.prefix_rfl
  | some w => exact atomic_appends (step_whole valid step ends)

-- How a call ended, from the committed row its thread saw under the lock.
theorem returned_parts {a : Action τ} {s t : State τ Db Caller} {thread : τ} {request : Request}
    {result : Except Raised Budget} (valid : Serial calls s) (step : Step calls s a t) (ended : a.ends thread)
    (returned : t.memory thread = .returned request result) :
    (∃ e, result = .error e ∧ t.committed = s.committed ∧ request.call.check = .error e) ∨
    (∃ e, result = .error e ∧ t.committed = s.committed ∧ s.memory thread = .called request ∧
      request.call.move (s.committed.getOrCreateBudget request.call.user) = .error e) ∨
    (∃ after entry, result = .ok after ∧ t.committed = post s.committed request.call.user after entry ∧
      s.memory thread = .called request ∧
      request.call.move (s.committed.getOrCreateBudget request.call.user) = .ok (after,entry)) := by
  rcases ended with rfl | rfl | rfl
  · obtain ⟨committed,other,memory⟩ := free_parts (step_whole valid step rfl)
    have began : begin other = .returned request result := by
      rw [← returned]
      simpa [State.cut] using (congrFun memory thread).symm
    unfold begin at began
    split at began
    · cases began
    · rename_i e refused
      cases began
      exact .inl ⟨e,rfl,committed,refused⟩
  · obtain ⟨other,e,called,moved,committed,memory⟩ := raised_parts (step_whole valid step rfl)
    have same : Caller.returned other (.error e) = .returned request result := by
      rw [← returned]
      simpa [State.cut] using (congrFun memory thread).symm
    cases same
    exact .inr (.inl ⟨e,rfl,committed,called,moved⟩)
  · obtain ⟨other,after,entry,called,moved,committed,memory⟩ := section_parts (step_whole valid step rfl)
    have same : Caller.returned other (.ok after) = .returned request result := by
      rw [← returned]
      simpa [State.cut] using (congrFun memory thread).symm
    cases same
    exact .inr (.inr ⟨after,entry,rfl,committed,called,moved⟩)

theorem reserve_returned {a : Action τ} {s t : State τ Db Caller} {thread : τ} {user : UserId} {tokens : Int}
    {batchId : Option BatchId} {note : Option PythonText.Str} {result : Except Raised Budget}
    (valid : Serial calls s) (sound : Sound s.cut) (step : Step calls s a t) (ended : a.ends thread)
    (returned : t.memory thread = .returned (.reserve user tokens batchId note) result) :
    (∃ row, result = .ok row) ↔ 0 < tokens ∧ tokens ≤ (s.committed.getOrCreateBudget user).availableTokens := by
  rcases returned_parts valid step ended returned with
    ⟨e,rfl,_,refused⟩ | ⟨e,rfl,_,called,refused⟩ | ⟨after,entry,rfl,_,called,moved⟩
  · simp only [Request.call,reserve,positive] at refused
    split at refused
    · rename_i small
      simp only [reduceCtorEq,exists_false,false_iff]
      omega
    · cases refused
  · obtain ⟨_,_,_,_,same,short,_⟩ := move_refused refused
    cases same
    simp only [reduceCtorEq,exists_false,false_iff]
    simp only [Request.call,reserve] at short
    omega
  · have size : 0 < tokens := check_positive (sound.checked thread _ called)
    simp only [Request.call,reserve] at moved
    split at moved
    · cases moved
    · rename_i fits
      exact ⟨fun _ => ⟨size,by omega⟩,fun _ => ⟨after,rfl⟩⟩

theorem returned_frame {a : Action τ} {s t : State τ Db Caller} {thread : τ} {request : Request}
    {result : Except Raised Budget} (valid : Serial calls s) (step : Step calls s a t) (ended : a.ends thread)
    (returned : t.memory thread = .returned request result) (other : UserId) (different : other ≠ request.call.user) :
    t.committed.budgets other = s.committed.budgets other ∧
      t.committed.ledger.filter (fun e => e.userId == other) = s.committed.ledger.filter (fun e => e.userId == other) := by
  rcases returned_parts valid step ended returned with
    ⟨_,_,committed,_⟩ | ⟨_,_,committed,_,_⟩ | ⟨after,entry,_,committed,_,moved⟩
  · rw [committed]; exact ⟨rfl,rfl⟩
  · rw [committed]; exact ⟨rfl,rfl⟩
  · have named := (move_balanced moved).1
    rw [committed]
    refine ⟨by simp [post,different],?_⟩
    simp [List.filter_append,named,Ne.symm different]

-- Any number of threads, any interleaving of their calls, from empty tables.
theorem interleaved_ledger_sound {actions : List (Action τ)} {s : State τ Db Caller}
    (path : Run (Step calls) start actions s) :
    (∀ user, Budget.columns (s.committed.getOrCreateBudget user) = recomputeBudget s.committed user) ∧
    (∀ a t, Step calls s a t → s.committed.ledger <+: t.committed.ledger) ∧
    (∀ a t thread request e, Step calls s a t → a.ends thread → t.memory thread = .returned request (.error e) →
      t.committed = s.committed ∧ ((∃ message, e = .valueError message) ∨ ∃ n k, e = .insufficientBudget n k)) ∧
    (∀ a t thread user tokens batchId note result, Step calls s a t → a.ends thread →
      t.memory thread = .returned (.reserve user tokens batchId note) result →
      ((∃ row, result = .ok row) ↔ 0 < tokens ∧ tokens ≤ (s.committed.getOrCreateBudget user).availableTokens)) ∧
    (NoAdjust s.committed.ledger → ∀ user, Budget.Nonnegative (s.committed.getOrCreateBudget user)) ∧
    (NoAdjust s.committed.ledger → ChargesCovered s.committed.ledger →
      ∀ user, 0 ≤ (s.committed.getOrCreateBudget user).availableTokens) ∧
    (∀ a t thread request result, Step calls s a t → a.ends thread → t.memory thread = .returned request result →
      ∀ other, other ≠ request.call.user → t.committed.budgets other = s.committed.budgets other ∧
        t.committed.ledger.filter (fun e => e.userId == other) =
          s.committed.ledger.filter (fun e => e.userId == other)) := by
  have serial := run_serial path rfl
  have sound := reached_sound path
  refine ⟨sound.reconciled,fun a t step => step_appends serial step,?_,?_,sound.nonnegative,sound.covered,?_⟩
  · intro a t thread request e step ended returned
    rcases returned_parts serial step ended returned with
      ⟨_,same,committed,refused⟩ | ⟨_,same,committed,_,refused⟩ | ⟨_,_,same,_⟩
    · cases same
      exact ⟨committed,.inl (check_refused refused)⟩
    · cases same
      obtain ⟨_,tokens,_,_,_,_,rfl⟩ := move_refused refused
      exact ⟨committed,.inr ⟨_,_,rfl⟩⟩
    · cases same
  · intro a t thread user tokens batchId note result step ended returned
    exact reserve_returned serial sound step ended returned
  · intro a t thread request result step ended returned other different
    exact returned_frame serial step ended returned other different

-- One thread grants ten tokens while another waits for the lock.
theorem interleaved_ledger_sound_grant : ∃ s : State Bool Db Caller,
    (s.committed.getOrCreateBudget 7).availableTokens = 10 ∧
    Budget.columns (s.committed.getOrCreateBudget 7) = recomputeBudget s.committed 7 := by
  have idle : ∀ t : Bool, ∀ o, (start (τ := Bool)).writer = some o → o.holder ≠ t := by
    intro t o open_
    cases open_
  have waiting := Step.free (P := calls) (s := start) (t := true) (idle true) ⟨rfl,.reserve 7 4 none none,rfl⟩
  have called := (Run.single waiting).step (.free (t := false) (idle false) ⟨rfl,.grant 7 10 none,rfl⟩)
  have entered := called.step (.enter (t := false) rfl rfl)
  have path := ((entered.step (.statement rfl rfl)).step (.statement rfl rfl)).step (.commit rfl)
  exact ⟨_,by decide,(interleaved_ledger_sound path).1 7⟩

end BatchGateway.LedgerThreads
