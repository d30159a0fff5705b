import BatchGateway.BudgetRows
import BatchGateway.Consumption
import BatchGateway.Lifecycle

-- The ledger as the story of the tables: which row each entry stands for.
namespace BatchGateway.AuditTrail
open PythonText PythonJson BatchInput BatchOps Service LabelledRuns Records Counters RowMoves Lifecycle

-- The entries of each kind. `moved` is what the budget's reserved tokens gave up.
def submissionEntry (row : Submission × BatchId) : LedgerEntry where
  userId := row.1.userId
  entryType := .reserve
  reservedDelta := row.1.reservedTokens
  batchId := some row.2
  note := some (text "batch submit (" ++ text (toString row.1.requestTotal) ++ text " requests)")

def chargeEntry (owner : UserId) (i : TaskId) (t : Task) (moved : Int) : LedgerEntry where
  userId := owner
  entryType := .charge
  reservedDelta := -moved
  usedDelta := t.promptTokens.getD 0 + t.completionTokens.getD 0
  batchId := some t.batchId
  taskId := some i

def failureEntry (owner : UserId) (i : TaskId) (t : Task) (moved : Int) : LedgerEntry where
  userId := owner
  entryType := .release
  reservedDelta := -moved
  batchId := some t.batchId
  taskId := some i
  note := t.error

def stopEntry (owner : UserId) (batch : BatchId) (note : String) (moved : Int) : LedgerEntry where
  userId := owner
  entryType := .release
  reservedDelta := -moved
  batchId := some batch
  note := some (text note)

-- What a task's status says the ledger has of it.
def settlement (owner : UserId) (i : TaskId) (t : Task) (moved : Int) : List LedgerEntry :=
  match t.status with
  | .completed => [chargeEntry owner i t moved]
  | .failed => if 0 < t.reservedTokens then [failureEntry owner i t moved] else []
  | .pending | .running | .cancelled => []

def stopNote : BatchStatus → Option String
  | .cancelled => some "batch cancelled"
  | .expired => some "batch expired"
  | .validating | .inProgress | .finalizing | .completed | .failed | .cancelling => none

def taskEntries (ledger : List LedgerEntry) (i : TaskId) : List LedgerEntry := ledger.filter (fun e => e.taskId == some i)
def submissions (ledger : List LedgerEntry) : List LedgerEntry := ledger.filter (fun e => e.entryType == .reserve)
def stops (ledger : List LedgerEntry) (batch : BatchId) : List LedgerEntry :=
  ledger.filter (fun e => e.entryType == .release && e.taskId.isNone && e.batchId == some batch)

-- Every entry is a grant, or stands for a batch or a task of the tables.
def Placed (db : Db) (e : LedgerEntry) : Prop :=
  match e.entryType,e.batchId,e.taskId with
  | .grant,none,none => True
  | .reserve,some batch,none => batch < db.batches.length
  | .release,some batch,none => batch < db.batches.length
  | .charge,some _,some i | .release,some _,some i => i < db.tasks.length
  | _,_,_ => False

-- The reservations of a batch's tasks, and what the entries so far leave a user reserved.
def held (db : Db) (batch : BatchId) : Int := ((db.tasks.filter (belongs batch)).map Task.reservedTokens).sum

def outstanding (ledger : List LedgerEntry) (user : UserId) : Int := (Ledger.recomputeBudget {ledger := ledger} user).2.1

-- An entry about a task gives back its reservation, as far as so much was reserved.
def Priced (db : Db) (earlier : List LedgerEntry) (e : LedgerEntry) : Prop :=
  ∀ i, e.taskId = some i → ∃ t, db.tasks[i]? = some t ∧
    e.reservedDelta = -min t.reservedTokens (outstanding earlier e.userId)

structure Audited (db : Db) : Prop where
  submitted : submissions db.ledger = (db.batches.map Batch.submission).zipIdx.map submissionEntry
  reserves : ∀ (i : BatchId) b, db.batches[i]? = some b → b.reservedTokens = held db i
  priced : ∀ earlier e later, db.ledger = earlier ++ e :: later → Priced db earlier e
  settled : ∀ (i : TaskId) t b, db.tasks[i]? = some t → db.batches[t.batchId]? = some b →
    ∃ moved, 0 ≤ moved ∧ moved ≤ max 0 t.reservedTokens ∧ taskEntries db.ledger i = settlement b.userId i t moved
  stopped : ∀ (i : BatchId) b, db.batches[i]? = some b → stops db.ledger i = [] ∨
    ∃ note moved, stopNote b.status = some note ∧ 0 ≤ moved ∧ stops db.ledger i = [stopEntry b.userId i note moved]
  placed : ∀ e ∈ db.ledger, Placed db e

-- What a step of the service adds to the ledger.
def reservedOf (db : Db) (user : UserId) : Int := (db.getOrCreateBudget user).reservedTokens

def stopsPosted (db : Db) (user : UserId) (batch : BatchId) (note : String) : List LedgerEntry :=
  let held := holds (tasksToStop db batch)
  if 0 < held then [stopEntry user batch note (min held (reservedOf db user))] else []

def posted (s : Service) : Operation → List LedgerEntry
  | .grant user tokens note => [{userId := user,entryType := .grant,grantedDelta := tokens,note := note}]
  | .createBatch user inputFile endpoint window lines now =>
    [submissionEntry (Batch.submission (newBatch user inputFile endpoint window lines now),s.db.batches.length)]
  | .completeTask i responseBody promptTokens completionTokens now =>
    match s.db.tasks[i]? with
    | none => []
    | some t => match s.db.owner t with
      | none => []
      | some owner => settlement owner i (Task.complete responseBody promptTokens completionTokens now t)
        (min t.reservedTokens (reservedOf s.db owner))
  | .failTask i error now =>
    match s.db.tasks[i]? with
    | none => []
    | some t => match s.db.owner t with
      | none => []
      | some owner => settlement owner i (Task.fail error now t) (min t.reservedTokens (reservedOf s.db owner))
  | .cancelBatch user batch _ => stopsPosted s.db user batch "batch cancelled"
  | .expireBatch batch _ =>
    match s.db.batches[batch]? with
    | none => []
    | some b => stopsPosted s.db b.userId batch "batch expired"
  | .uploadFile _ _ _ _ | .claimAndAssign _ _ | .purgeExpiredResults _ _ | .applyHealthResults _ _ | .startup _ => []

variable {codec : Codec} {alpha : ℚ} {s t : Service} {op : Operation} {db after : Db}

theorem failed_held {owner : UserId} {i : TaskId} {row : Task} {error : Str} {now : Instant} {moved : Int}
    (held : 0 < row.reservedTokens) :
    settlement owner i (Task.fail error now row) moved = [failureEntry owner i (Task.fail error now row) moved] := if_pos held

theorem failed_free {owner : UserId} {i : TaskId} {row : Task} {error : Str} {now : Instant} {moved : Int}
    (free : row.reservedTokens ≤ 0) : settlement owner i (Task.fail error now row) moved = [] :=
  if_neg (Int.not_lt.mpr free)

theorem finalized_ledger (codec : Codec) (task : TaskId) (now : Instant) (db : Db) (blobs : Blobs) :
    (finalizeAfter codec task now db blobs).1.ledger = db.ledger := by
  rcases finalizeAfter_parts codec task now db blobs with same | ⟨u,b,_,_,_,same⟩
  · rw [same]
  · rw [same]
    rfl

theorem terminated_ledger {user : UserId} {batch : BatchId} {terminal : BatchStatus} {note : String} {now : Instant}
    (done : terminateBatch user batch terminal note now db = .ok after) :
    after.ledger = db.ledger ++ stopsPosted db user batch note := by
  simp only [terminateBatch,terminateSelected] at done
  unfold stopsPosted
  dsimp only
  split at done
  · rename_i held
    obtain ⟨_,amount,size,rfl⟩ := Ledger.perform_release done
    rw [if_pos held,size]
    rfl
  · rename_i free
    cases done
    rw [if_neg free]
    exact (List.append_nil _).symm

theorem ledger_posted (step : Step codec alpha s op t) : t.db.ledger = s.db.ledger ++ posted s op := by
  cases op with
  | grant =>
    obtain ⟨_,rfl⟩ := grant_posts step
    rfl
  | createBatch user inputFile endpoint window lines now =>
    obtain ⟨db,created,rfl⟩ := create_step step
    unfold createBatch at created
    obtain ⟨reserved,done,same⟩ := Raising.bind_ok created
    cases same
    obtain ⟨_,_,_,rfl⟩ := Ledger.perform_reserve done
    rfl
  | completeTask i responseBody promptTokens completionTokens now =>
    obtain ⟨_,db,committed,rfl⟩ := complete_step step
    obtain ⟨u,b,stat,found,owned,_,_,performed⟩ := commitCompleted_performs committed
    obtain ⟨_,_,amount,size,rfl⟩ := Ledger.perform_charge performed
    rw [finalized_ledger]
    simp only [posted,found,Db.owner,owned,Option.map_some]
    rw [size]
    rfl
  | failTask i error now =>
    obtain ⟨_,db,committed,rfl⟩ := fail_step step
    rw [finalized_ledger]
    obtain ⟨u,b,found,owned,_,⟨free,rfl⟩ | ⟨held,performed⟩⟩ := commitFailed_performs committed
    · simp only [posted,found,Db.owner,owned,Option.map_some]
      rw [failed_free free]
      exact (List.append_nil _).symm
    · obtain ⟨_,amount,size,rfl⟩ := Ledger.perform_release performed
      simp only [posted,found,Db.owner,owned,Option.map_some]
      rw [failed_held held,size]
      rfl
  | cancelBatch user batch now =>
    obtain ⟨_,db,_,_,_,done,rfl⟩ := cancel_step step
    exact terminated_ledger done
  | expireBatch batch now =>
    obtain ⟨b,db,found,_,done,rfl⟩ := expire_step step
    rw [posted,found]
    exact terminated_ledger done
  | purgeExpiredResults =>
    exact (purge_step step).2.1.trans (List.append_nil _).symm
  | uploadFile => cases step; exact (List.append_nil _).symm
  | claimAndAssign => cases step; exact (List.append_nil _).symm
  | applyHealthResults => cases step; exact (List.append_nil _).symm
  | startup => cases step; exact (List.append_nil _).symm

inductive Stops : Operation → BatchId → Prop where
  | cancel : Stops (.cancelBatch user batch now) batch
  | expire : Stops (.expireBatch batch now) batch

-- Where a step's entries come from.
inductive Source (s : Service) (op : Operation) (e : LedgerEntry) : Prop where
  | grant : e.entryType = .grant → e.batchId = none → e.taskId = none → Source s op e
  | submission : e.entryType = .reserve → e.batchId = some s.db.batches.length → e.taskId = none →
    createdBatches op ≠ [] → Source s op e
  | settlement {i : TaskId} {row : Task} {now : Instant} {count : Batch → Batch} : Settles op i now count →
    s.db.tasks[i]? = some row → (e.entryType = .charge ∨ e.entryType = .release) → e.batchId = some row.batchId →
    e.taskId = some i → Source s op e
  | stop {batch : BatchId} {b : Batch} : Stops op batch → s.db.batches[batch]? = some b → e.entryType = .release →
    e.batchId = some batch → e.taskId = none → Source s op e

theorem settlement_columns {owner : UserId} {i : TaskId} {row : Task} {moved : Int} {e : LedgerEntry}
    (member : e ∈ settlement owner i row moved) :
    (e.entryType = .charge ∨ e.entryType = .release) ∧ e.batchId = some row.batchId ∧ e.taskId = some i := by
  unfold settlement at member
  split at member
  · cases List.mem_singleton.mp member
    exact ⟨.inl rfl,rfl,rfl⟩
  · split at member
    · cases List.mem_singleton.mp member
      exact ⟨.inr rfl,rfl,rfl⟩
    · cases member
  all_goals cases member

theorem stopsPosted_columns {user : UserId} {batch : BatchId} {note : String} {e : LedgerEntry}
    (member : e ∈ stopsPosted db user batch note) :
    e.entryType = .release ∧ e.batchId = some batch ∧ e.taskId = none := by
  unfold stopsPosted at member
  dsimp only at member
  split at member
  · cases List.mem_singleton.mp member
    exact ⟨rfl,rfl,rfl⟩
  · cases member

-- A charge is what a completion posts, for the batch of its task.
theorem charge_posted (step : Step codec alpha s op t) {e : LedgerEntry} (member : e ∈ posted s op) (charge : e.entryType = .charge) :
    ∃ task now row b, Settles op task now Batch.countCompleted ∧ s.db.tasks[task]? = some row ∧
      s.db.batches[row.batchId]? = some b ∧ e.batchId = some row.batchId ∧ 0 ≤ e.usedDelta := by
  cases op with
  | completeTask i responseBody promptTokens completionTokens now =>
    obtain ⟨_,db,committed,_⟩ := complete_step step
    obtain ⟨u,b,_,found,owned,_,_,performed⟩ := commitCompleted_performs committed
    obtain ⟨_,sign,_⟩ := Ledger.perform_charge performed
    simp only [posted,found,Db.owner,owned,Option.map_some] at member
    cases List.mem_singleton.mp member
    exact ⟨i,now,u,b,.complete,found,owned,rfl,sign⟩
  | failTask i error now =>
    obtain ⟨_,db,committed,_⟩ := fail_step step
    obtain ⟨u,b,found,owned,_⟩ := commitFailed_performs committed
    simp only [posted,found,Db.owner,owned,Option.map_some] at member
    by_cases held : 0 < u.reservedTokens
    · rw [failed_held held] at member
      cases List.mem_singleton.mp member
      cases charge
    · rw [failed_free (Int.not_lt.mp held)] at member
      cases member
  | cancelBatch user batch now =>
    rw [(stopsPosted_columns member).1] at charge
    cases charge
  | expireBatch batch now =>
    obtain ⟨b,_,found,_⟩ := expire_step step
    rw [posted,found] at member
    rw [(stopsPosted_columns member).1] at charge
    cases charge
  | grant | createBatch =>
    cases List.mem_singleton.mp member
    cases charge
  | uploadFile | claimAndAssign | purgeExpiredResults | applyHealthResults | startup => cases member

theorem posted_source (step : Step codec alpha s op t) {e : LedgerEntry} (member : e ∈ posted s op) : Source s op e := by
  cases op with
  | grant =>
    cases List.mem_singleton.mp member
    exact .grant rfl rfl rfl
  | createBatch =>
    cases List.mem_singleton.mp member
    exact .submission rfl rfl rfl (List.cons_ne_nil _ _)
  | completeTask i responseBody promptTokens completionTokens now =>
    obtain ⟨_,db,committed,_⟩ := complete_step step
    obtain ⟨row,b,_,found,owned,_⟩ := commitCompleted_performs committed
    simp only [posted,found,Db.owner,owned,Option.map_some] at member
    obtain ⟨kind,batch,task⟩ := settlement_columns member
    exact .settlement .complete found kind batch task
  | failTask i error now =>
    obtain ⟨_,db,committed,_⟩ := fail_step step
    obtain ⟨row,b,found,owned,_⟩ := commitFailed_performs committed
    simp only [posted,found,Db.owner,owned,Option.map_some] at member
    obtain ⟨kind,batch,task⟩ := settlement_columns member
    exact .settlement .fail found kind batch task
  | cancelBatch user batch now =>
    obtain ⟨b,_,found,_⟩ := cancel_step step
    obtain ⟨kind,named,task⟩ := stopsPosted_columns member
    exact .stop .cancel found kind named task
  | expireBatch batch now =>
    obtain ⟨b,_,found,_⟩ := expire_step step
    rw [posted,found] at member
    obtain ⟨kind,named,task⟩ := stopsPosted_columns member
    exact .stop .expire found kind named task
  | _ => cases member

theorem taskEntries_quiet (step : Step codec alpha s op t) {i : TaskId}
    (apart : ∀ task now count, Settles op task now count → task ≠ i) : taskEntries (posted s op) i = [] := by
  refine List.filter_eq_nil_iff.mpr fun e member => ?_
  cases posted_source step member with
  | grant _ _ task => simp [task]
  | submission _ _ task => simp [task]
  | stop _ _ _ _ task => simp [task]
  | settlement settles _ _ _ task => simp [task,apart _ _ _ settles]

theorem stops_quiet (step : Step codec alpha s op t) {i : BatchId} (apart : ¬ Stops op i) : stops (posted s op) i = [] := by
  refine List.filter_eq_nil_iff.mpr fun e member => ?_
  cases posted_source step member with
  | grant kind => simp [kind]
  | submission kind => simp [kind]
  | settlement _ _ _ _ task => simp [task]
  | @stop batch _ named _ _ which =>
    have other : batch ≠ i := by
      rintro rfl
      exact apart named
    simp [which,other]

theorem submissions_quiet (step : Step codec alpha s op t) (none_ : createdBatches op = []) :
    submissions (posted s op) = [] := by
  refine List.filter_eq_nil_iff.mpr fun e member => ?_
  cases posted_source step member with
  | grant kind => simp [kind]
  | submission _ _ _ created => exact absurd none_ created
  | settlement _ _ kind => rcases kind with kind | kind <;> simp [kind]
  | stop _ _ kind => simp [kind]

theorem taskEntries_settlement (owner : UserId) (i : TaskId) (row : Task) (moved : Int) :
    taskEntries (settlement owner i row moved) i = settlement owner i row moved :=
  List.filter_eq_self.mpr fun e member => by simp [(settlement_columns member).2.2]

theorem stops_stopsPosted (db : Db) (user : UserId) (batch : BatchId) (note : String) :
    stops (stopsPosted db user batch note) batch = stopsPosted db user batch note :=
  List.filter_eq_self.mpr fun e member => by
    obtain ⟨kind,named,task⟩ := stopsPosted_columns member
    simp [kind,named,task]

-- What a settlement posts is what the row it leaves says.
theorem settled_entry (sized : BudgetRows.Sized s.db) (step : Step codec alpha s op t) {i : TaskId} {now : Instant}
    {count : Batch → Batch} {row : Task} (settles : Settles op i now count) (found : s.db.tasks[i]? = some row) :
    ∃ later b moved, t.db.tasks[i]? = some later ∧ s.db.batches[row.batchId]? = some b ∧ later.batchId = row.batchId ∧
      later.reservedTokens = row.reservedTokens ∧ 0 ≤ moved ∧ moved ≤ max 0 row.reservedTokens ∧
      posted s op = settlement b.userId i later moved := by
  cases settles with
  | @complete _ responseBody promptTokens completionTokens =>
    obtain ⟨_,db,committed,rfl⟩ := complete_step step
    obtain ⟨u,b,stat,there,owned,_,_,performed⟩ := commitCompleted_performs committed
    cases found.symm.trans there
    obtain ⟨hold,_,amount,size,rfl⟩ := Ledger.perform_charge performed
    obtain ⟨_,reserved,_⟩ := sized.nonnegative b.userId
    refine ⟨Task.complete responseBody promptTokens completionTokens now row,b,
      min row.reservedTokens (reservedOf s.db b.userId),?_,owned,rfl,rfl,?_,?_,?_⟩
    · rw [(finalized_tables codec i now _ s.blobs).1]
      exact Rows.getElem?_modify_self found _
    · exact le_min hold reserved
    · exact (min_le_left _ _).trans (le_max_right _ _)
    · simp only [posted,found,Db.owner,owned,Option.map_some]
  | @fail _ error =>
    obtain ⟨_,db,committed,rfl⟩ := fail_step step
    obtain ⟨u,b,there,owned,_,either⟩ := commitFailed_performs committed
    cases found.symm.trans there
    obtain ⟨_,reserved,_⟩ := sized.nonnegative b.userId
    have tasks : db.tasks = s.db.tasks.modify i (Task.fail error now) := by
      rcases either with ⟨_,rfl⟩ | ⟨_,performed⟩
      · rfl
      · obtain ⟨_,_,_,rfl⟩ := Ledger.perform_release performed
        rfl
    have later : (finalizeAfter codec i now db s.blobs).1.tasks[i]? = some (Task.fail error now row) := by
      rw [(finalized_tables codec i now _ s.blobs).1,tasks]
      exact Rows.getElem?_modify_self found _
    by_cases held : 0 < row.reservedTokens
    · refine ⟨_,b,min row.reservedTokens (reservedOf s.db b.userId),later,owned,rfl,rfl,?_,?_,?_⟩
      · exact le_min held.le reserved
      · exact (min_le_left _ _).trans (le_max_right _ _)
      · simp only [posted,found,Db.owner,owned,Option.map_some]
    · refine ⟨_,b,0,later,owned,rfl,rfl,le_rfl,le_max_left _ _,?_⟩
      simp only [posted,found,Db.owner,owned,Option.map_some]
      rw [failed_free (Int.not_lt.mp held),failed_free (Int.not_lt.mp held)]

theorem unsettled_entries {row : Task} (open_ : Counters.settled row = false) (owner : UserId) (i : TaskId) (amount : Int) :
    settlement owner i row amount = [] := by
  unfold settlement
  cases status : row.status <;> first | rfl | simp [Counters.settled,settledStatus,status] at open_

-- Nothing but a settlement changes what a row says of its entries.
theorem settlement_kept {i : TaskId} {row later : Task} (moved : TaskMove s op i row later)
    (apart : ∀ task now count, Settles op task now count → task ≠ i) (owner : UserId) (amount : Int) :
    settlement owner i later amount = settlement owner i row amount := by
  cases moved with
  | kept => rfl
  | claimed _ _ _ waiting =>
    have open_ : Counters.settled row = false := by
      rw [Counters.settled,waiting]
      rfl
    rw [unsettled_entries open_]
    rfl
  | completed named =>
    subst named
    exact absurd rfl (apart i _ _ .complete)
  | failed named =>
    subst named
    exact absurd rfl (apart i _ _ .fail)
  | stopped _ live =>
    rw [unsettled_entries (live_unsettled live)]
    rfl
  | recovered _ running =>
    unfold settlement
    rw [Dispatcher.Task.recover,if_pos running,running]

theorem step_sizes (step : Step codec alpha s op t) :
    t.db.batches.length = s.db.batches.length + (createdBatches op).length ∧
    t.db.tasks.length = s.db.tasks.length + (createdTasks s op).length := by
  have batches := congrArg List.length (step_submissions step)
  have tasks := congrArg List.length (step_requests step)
  simp only [List.length_map,List.length_append] at batches tasks
  exact ⟨batches,tasks⟩

theorem Placed.grown {e : LedgerEntry} (placed : Placed db e) (batches : db.batches.length ≤ after.batches.length)
    (tasks : db.tasks.length ≤ after.tasks.length) : Placed after e := by
  unfold Placed at placed ⊢
  split at placed
  · trivial
  · exact Nat.lt_of_lt_of_le placed batches
  · exact Nat.lt_of_lt_of_le placed batches
  · exact Nat.lt_of_lt_of_le placed tasks
  · exact Nat.lt_of_lt_of_le placed tasks
  · exact placed

theorem Placed.task {e : LedgerEntry} {i : TaskId} (placed : Placed db e) (named : e.taskId = some i) : i < db.tasks.length := by
  unfold Placed at placed
  rw [named] at placed
  split at placed <;> rename_i task
  · cases task
  · cases task
  · cases task
  · cases task
    exact placed
  · cases task
    exact placed
  · exact absurd placed id

theorem Placed.stop {e : LedgerEntry} {i : BatchId} (placed : Placed db e) (kind : e.entryType = .release)
    (none_ : e.taskId = none) (named : e.batchId = some i) : i < db.batches.length := by
  unfold Placed at placed
  rw [kind,none_,named] at placed
  exact placed

theorem posted_placed (step : Step codec alpha s op t) {e : LedgerEntry} (member : e ∈ posted s op) : Placed t.db e := by
  obtain ⟨batches,tasks⟩ := step_sizes step
  cases posted_source step member with
  | grant kind batch task =>
    unfold Placed
    rw [kind,batch,task]
    trivial
  | submission kind batch task created =>
    unfold Placed
    rw [kind,batch,task]
    have some_ := List.length_pos_of_ne_nil created
    change s.db.batches.length < t.db.batches.length
    omega
  | settlement _ found kind batch task =>
    have inside := (List.getElem?_eq_some_iff.mp found).choose
    unfold Placed
    rw [batch,task]
    rcases kind with kind | kind
    · rw [kind]
      exact Nat.lt_of_lt_of_le inside (by omega)
    · rw [kind]
      exact Nat.lt_of_lt_of_le inside (by omega)
  | stop _ found kind batch task =>
    have inside := (List.getElem?_eq_some_iff.mp found).choose
    unfold Placed
    rw [kind,batch,task]
    exact Nat.lt_of_lt_of_le inside (by omega)

theorem submissions_append (old new : List LedgerEntry) : submissions (old ++ new) = submissions old ++ submissions new :=
  List.filter_append old new

theorem taskEntries_append (old new : List LedgerEntry) (i : TaskId) :
    taskEntries (old ++ new) i = taskEntries old i ++ taskEntries new i := List.filter_append old new

theorem stops_append (old new : List LedgerEntry) (i : BatchId) : stops (old ++ new) i = stops old i ++ stops new i :=
  List.filter_append old new

theorem submitted_step (valid : Audited s.db) (step : Step codec alpha s op t) :
    submissions t.db.ledger = (t.db.batches.map Batch.submission).zipIdx.map submissionEntry := by
  have columns := step_submissions step
  rw [ledger_posted step,submissions_append,valid.submitted]
  by_cases none_ : createdBatches op = []
  · rw [submissions_quiet step none_,columns,none_]
    simp
  · cases op with
    | createBatch user inputFile endpoint window lines now =>
      rw [columns,List.zipIdx_append,List.map_append]
      congr 1
      simp [posted,submissions,createdBatches,submissionEntry]
    | _ => exact absurd rfl none_

theorem held_requests (db : Db) (batch : BatchId) :
    held db batch = (((db.tasks.map Task.request).filter (fun r => r.batchId == batch)).map Request.reservedTokens).sum := by
  rw [held,List.filter_map,List.map_map]
  rfl

theorem held_step (step : Step codec alpha s op t) (batch : BatchId) :
    held t.db batch = held s.db batch + (((createdTasks s op).filter (belongs batch)).map Task.reservedTokens).sum := by
  rw [held_requests,step_requests step,List.filter_append,List.map_append,List.sum_append,← held_requests,List.filter_map,
    List.map_map]
  rfl

theorem created_other {batch : BatchId} (apart : batch ≠ s.db.batches.length) :
    (createdTasks s op).filter (belongs batch) = [] := by
  refine List.filter_eq_nil_iff.mpr fun row created => ?_
  have owner : row.batchId = s.db.batches.length := by
    cases op with
    | createBatch =>
      obtain ⟨p,_,rfl⟩ := List.mem_map.mp created
      rfl
    | _ => cases created
  simpa [belongs,owner] using Ne.symm apart

theorem submitted_held {user : UserId} {inputFile : FileId} {endpoint window : Str} {lines : List ParsedLine} {now : Instant} :
    (((createdTasks s (.createBatch user inputFile endpoint window lines now)).filter
      (belongs s.db.batches.length)).map Task.reservedTokens).sum = totalReserve lines := by
  have all : (createdTasks s (.createBatch user inputFile endpoint window lines now)).filter (belongs s.db.batches.length) =
      lines.map (newTask s.db.batches.length) := by
    refine List.filter_eq_self.mpr fun row created => ?_
    obtain ⟨p,_,rfl⟩ := List.mem_map.mp created
    exact beq_self_eq_true _
  rw [all,List.map_map]
  rfl

theorem reserves_step (sound : Sound s) (valid : Audited s.db) (step : Step codec alpha s op t) {i : BatchId} {c : Batch}
    (there : t.db.batches[i]? = some c) : c.reservedTokens = held t.db i := by
  rw [held_step step]
  rcases batch_origin step there with ⟨b,found,change⟩ | ⟨outside,created⟩
  · have inside := (List.getElem?_eq_some_iff.mp found).choose
    rw [created_other (Nat.ne_of_lt inside)]
    have column : c.reservedTokens = b.reservedTokens := move_reserved change
    exact column.trans ((valid.reserves i b found).trans (add_zero _).symm)
  · cases op with
    | createBatch =>
      cases List.mem_singleton.mp created
      have size := (step_sizes step).1
      have inside : i < t.db.batches.length := (List.getElem?_eq_some_iff.mp there).choose
      have last : i = s.db.batches.length := by
        rw [size] at inside
        exact le_antisymm (Nat.lt_succ_iff.mp inside) outside
      subst last
      have none_ : s.db.tasks.filter (belongs s.db.batches.length) = [] := by
        refine List.filter_eq_nil_iff.mpr fun row member => ?_
        have before := sound.linked.owned row member
        simpa [belongs] using Nat.ne_of_lt before
      rw [submitted_held,held,none_]
      exact (zero_add _).symm
    | _ => cases created

theorem settled_amount (step : Step codec alpha s op t) {i : TaskId} {now : Instant} {count : Batch → Batch} {row : Task}
    (settles : Settles op i now count) (found : s.db.tasks[i]? = some row) {e : LedgerEntry} (member : e ∈ posted s op) :
    e.reservedDelta = -min row.reservedTokens (reservedOf s.db e.userId) := by
  cases settles with
  | complete =>
    obtain ⟨_,db,committed,_⟩ := complete_step step
    obtain ⟨u,b,_,there,owned,_⟩ := commitCompleted_performs committed
    cases found.symm.trans there
    simp only [posted,found,Db.owner,owned,Option.map_some] at member
    cases List.mem_singleton.mp member
    rfl
  | fail =>
    obtain ⟨_,db,committed,_⟩ := fail_step step
    obtain ⟨u,b,there,owned,_⟩ := commitFailed_performs committed
    cases found.symm.trans there
    simp only [posted,found,Db.owner,owned,Option.map_some] at member
    by_cases some_ : 0 < row.reservedTokens
    · rw [failed_held some_] at member
      cases List.mem_singleton.mp member
      rfl
    · rw [failed_free (Int.not_lt.mp some_)] at member
      cases member

-- The amount of an entry about a task, by the balance its step started from.
theorem posted_priced (sized : BudgetRows.Sized s.db) (books : Ledger.Reconciled s.db) (step : Step codec alpha s op t) {e : LedgerEntry}
    (member : e ∈ posted s op) : Priced t.db s.db.ledger e := by
  intro i named
  have balance : ∀ user, reservedOf s.db user = outstanding s.db.ledger user := fun user => congrArg (fun c => c.2.1) (books user)
  cases posted_source step member with
  | grant _ _ none_ => cases named.symm.trans none_
  | submission _ _ none_ => cases named.symm.trans none_
  | stop _ _ _ _ none_ => cases named.symm.trans none_
  | @settlement j row now count settles found kind _ task =>
    cases named.symm.trans task
    obtain ⟨later,_,_,there,_,_,same,_⟩ := settled_entry sized step settles found
    refine ⟨later,there,?_⟩
    rw [same,← balance]
    exact settled_amount step settles found member

theorem settled_step (sound : Sound s) (sized : BudgetRows.Sized s.db) (valid : Audited s.db)
    (step : Step codec alpha s op t) {i : TaskId} {later : Task} {c : Batch} (there : t.db.tasks[i]? = some later)
    (owned : t.db.batches[later.batchId]? = some c) : ∃ moved, 0 ≤ moved ∧ moved ≤ max 0 later.reservedTokens ∧
      taskEntries t.db.ledger i = settlement c.userId i later moved := by
  rw [ledger_posted step,taskEntries_append]
  rcases task_origin step there with ⟨row,found,moved⟩ | ⟨outside,created⟩
  · obtain ⟨b,was⟩ : ∃ b, s.db.batches[row.batchId]? = some b :=
      ⟨_,List.getElem?_eq_getElem (sound.linked.owned row (List.mem_of_getElem? found))⟩
    have owner : c.userId = b.userId := by
      obtain ⟨next,here,change⟩ := batch_moves step was
      rw [move_batch moved] at owned
      cases owned.symm.trans here
      exact move_owner change
    obtain ⟨amount,low,high,entries⟩ := valid.settled i row b found was
    by_cases settles : ∃ task now count, Settles op task now count ∧ task = i
    · obtain ⟨_,now,count,settles,rfl⟩ := settles
      obtain ⟨new,d,size,here,there_,_,held,above,below,posts⟩ := settled_entry sized step settles found
      cases there.symm.trans here
      cases was.symm.trans there_
      -- It was in flight, so nothing has been posted for it before.
      have open_ : Counters.settled row = false := by
        cases settles with
        | complete => exact Consumption.flying_unsettled sound.progress (complete_step step).1 found
        | fail => exact Consumption.flying_unsettled sound.progress (fail_step step).1 found
      rw [unsettled_entries open_] at entries
      refine ⟨size,above,held.symm ▸ below,?_⟩
      rw [entries,posts,taskEntries_settlement,owner]
      rfl
    · have apart : ∀ task now count, Settles op task now count → task ≠ i :=
        fun task now count named same => settles ⟨task,now,count,named,same⟩
      refine ⟨amount,low,?_,?_⟩
      · cases moved with
        | recovered _ running =>
          rw [Dispatcher.Task.recover,if_pos running]
          exact high
        | _ => exact high
      · rw [entries,taskEntries_quiet step apart,settlement_kept moved apart,owner,List.append_nil]
  · have none_ : taskEntries s.db.ledger i = [] := by
      refine List.filter_eq_nil_iff.mpr fun e member => ?_
      intro named
      exact absurd ((valid.placed e member).task (eq_of_beq named)) (Nat.not_lt.mpr outside)
    have apart : ∀ task now count, Settles op task now count → task ≠ i := by
      rintro task now count settles rfl
      cases settles with
      | complete => cases created
      | fail => cases created
    refine ⟨0,le_rfl,le_max_left _ _,?_⟩
    rw [none_,taskEntries_quiet step apart,unsettled_entries (SettledRows.created_unsettled created)]
    rfl

-- A batch that is stopped was open, and had released nothing as a whole.
theorem stop_once (sound : Sound s) (valid : Audited s.db) {i : BatchId} {b : Batch} (found : s.db.batches[i]? = some b)
    (allowed : cancellable b.status = true) : stops s.db.ledger i = [] := by
  have open_ := open_only (sound.coherent.batches b (List.mem_of_getElem? found)) allowed
  rcases valid.stopped i b found with none_ | ⟨note,_,named,_⟩
  · exact none_
  · rw [open_] at named
    cases named

theorem stop_entry (sized : BudgetRows.Sized db) (user : UserId) (batch : BatchId) {note : String} {status : BatchStatus}
    (named : stopNote status = some note) : stops (stopsPosted db user batch note) batch = [] ∨
    ∃ word moved, stopNote status = some word ∧ 0 ≤ moved ∧
      stops (stopsPosted db user batch note) batch = [stopEntry user batch word moved] := by
  obtain ⟨_,reserved,_⟩ := sized.nonnegative user
  by_cases held : 0 < holds (tasksToStop db batch)
  · have posts : stopsPosted db user batch note =
        [stopEntry user batch note (min (holds (tasksToStop db batch)) (reservedOf db user))] := if_pos held
    exact .inr ⟨note,_,named,le_min held.le reserved,(stops_stopsPosted db user batch note).trans posts⟩
  · exact .inl ((stops_stopsPosted db user batch note).trans (if_neg held))

theorem stopped_step (sound : Sound s) (sized : BudgetRows.Sized s.db) (valid : Audited s.db)
    (step : Step codec alpha s op t) {i : BatchId} {c : Batch} (there : t.db.batches[i]? = some c) :
    stops t.db.ledger i = [] ∨ ∃ note moved, stopNote c.status = some note ∧ 0 ≤ moved ∧
      stops t.db.ledger i = [stopEntry c.userId i note moved] := by
  rw [ledger_posted step,stops_append]
  rcases batch_origin step there with ⟨b,found,change⟩ | ⟨outside,created⟩
  · by_cases named : Stops op i
    · cases named with
      | @cancel user _ now =>
        obtain ⟨d,db,was,mine,allowed,done,rfl⟩ := cancel_step step
        cases found.symm.trans was
        have closed := (congrArg (fun rows : List Batch => rows[i]?) (stop_batches done)).trans
          (Rows.getElem?_modify_self found _)
        cases there.symm.trans closed
        rw [stop_once sound valid found allowed,← mine]
        have named : stopNote .cancelled = some "batch cancelled" := rfl
        exact stop_entry sized b.userId i named
      | @expire _ now =>
        obtain ⟨d,db,was,allowed,done,rfl⟩ := expire_step step
        cases found.symm.trans was
        have closed := (congrArg (fun rows : List Batch => rows[i]?) (stop_batches done)).trans
          (Rows.getElem?_modify_self found _)
        cases there.symm.trans closed
        rw [stop_once sound valid found allowed,posted,found]
        have named : stopNote .expired = some "batch expired" := rfl
        exact stop_entry sized b.userId i named
    · rw [stops_quiet step named,List.append_nil,move_owner change]
      rcases valid.stopped i b found with none_ | ⟨note,moved,status,low,one⟩
      · exact .inl none_
      · refine .inr ⟨note,moved,?_,low,one⟩
        cases change with
        | kept => exact status
        | counted settles =>
          obtain ⟨m,n,same⟩ := count_columns settles b
          rw [same]
          exact status
        | finished settles _ _ due =>
          obtain ⟨m,n,same⟩ := count_columns settles b
          rw [same] at due
          rw [eq_of_beq (Bool.and_eq_true_iff.mp due).1] at status
          cases status
        | stopped which =>
          rcases which with ⟨rfl,_⟩ | ⟨rfl,_⟩
          · exact absurd .cancel named
          · exact absurd .expire named
        | purged => exact status
  · left
    have none_ : stops s.db.ledger i = [] := by
      refine List.filter_eq_nil_iff.mpr fun e member => ?_
      intro chosen
      simp only [Bool.and_eq_true,beq_iff_eq,Option.isNone_iff_eq_none] at chosen
      obtain ⟨⟨kind,task⟩,batch⟩ := chosen
      exact absurd ((valid.placed e member).stop kind task batch) (Nat.not_lt.mpr outside)
    have apart : ¬ Stops op i := by
      intro named
      cases named with
      | cancel => cases created
      | expire => cases created
    rw [none_,stops_quiet step apart]
    rfl

theorem posted_once (s : Service) (op : Operation) : (posted s op).length ≤ 1 := by
  have row : ∀ (owner : UserId) (i : TaskId) (t : Task) (moved : Int), (settlement owner i t moved).length ≤ 1 := by
    intro owner i t moved
    unfold settlement
    split
    · exact le_rfl
    · split
      · exact le_rfl
      · exact Nat.zero_le _
    all_goals exact Nat.zero_le _
  have stop : ∀ (user : UserId) (batch : BatchId) (note : String), (stopsPosted s.db user batch note).length ≤ 1 := by
    intro user batch note
    unfold stopsPosted
    dsimp only
    split
    · exact le_rfl
    · exact Nat.zero_le _
  cases op with
  | grant => exact le_rfl
  | createBatch => exact le_rfl
  | completeTask | failTask =>
    dsimp only [posted]
    split
    · exact Nat.zero_le _
    · split
      · exact Nat.zero_le _
      · exact row _ _ _ _
  | cancelBatch => exact stop _ _ _
  | expireBatch =>
    dsimp only [posted]
    split
    · exact Nat.zero_le _
    · exact stop _ _ _
  | _ => exact Nat.zero_le _

-- An entry's price does not change, since no task's reservation does.
theorem priced_kept (step : Step codec alpha s op t) {earlier : List LedgerEntry} {e : LedgerEntry}
    (priced : Priced s.db earlier e) : Priced t.db earlier e := by
  intro i named
  obtain ⟨row,found,amount⟩ := priced i named
  obtain ⟨later,there,moved⟩ := task_moves step found
  exact ⟨later,there,by rw [move_reservation moved]; exact amount⟩

theorem priced_step (sized : BudgetRows.Sized s.db) (books : Ledger.Reconciled s.db) (valid : Audited s.db)
    (step : Step codec alpha s op t) {earlier later : List LedgerEntry} {e : LedgerEntry}
    (split : t.db.ledger = earlier ++ e :: later) : Priced t.db earlier e := by
  have fresh : posted s op = e :: later → Priced t.db s.db.ledger e := by
    intro same
    apply posted_priced sized books step
    rw [same]
    exact List.mem_cons_self ..
  rw [ledger_posted step] at split
  rcases List.append_eq_append_iff.mp split with ⟨between,rfl,same⟩ | ⟨between,same,rest⟩
  · -- A step adds at most one entry, so nothing new stands before it.
    have once := posted_once s op
    rw [same] at once
    have none_ : between = [] := List.eq_nil_of_length_eq_zero (by simp at once; omega)
    subst none_
    rw [List.append_nil]
    exact fresh same
  · cases between with
    | nil =>
      rw [List.append_nil] at same
      rw [← same]
      exact fresh rest.symm
    | cons x between =>
      cases rest
      exact priced_kept step (valid.priced earlier e between same)

theorem audited_step (sound : Sound s) (sized : BudgetRows.Sized s.db) (books : Ledger.Reconciled s.db)
    (valid : Audited s.db) (step : Step codec alpha s op t) : Audited t.db := by
  refine ⟨submitted_step valid step,fun i c there => reserves_step sound valid step there,
    fun earlier e later split => priced_step sized books valid step split,
    fun i later c there owned => settled_step sound sized valid step there owned,
    fun i c there => stopped_step sound sized valid step there,fun e member => ?_⟩
  obtain ⟨batches,tasks⟩ := step_sizes step
  rw [ledger_posted step] at member
  rcases List.mem_append.mp member with old | new
  · exact (valid.placed e old).grown (by omega) (by omega)
  · exact posted_placed step new

theorem initial_audited : Audited ({} : Db) := by
  refine ⟨rfl,?_,?_,?_,?_,?_⟩
  · intro i b found
    cases found
  · intro earlier e later split
    exact absurd split (by simp)
  · intro i t b found
    cases found
  · intro i b found
    cases found
  · intro e member
    cases member

theorem ledger_audited {operations : List Operation} (path : Run (Step codec alpha) {} operations s) : Audited s.db := by
  induction path with
  | nil => exact initial_audited
  | step prior last ih => exact audited_step (run_sound prior) (BudgetRows.run_sized prior) (BudgetRows.run_reconciled prior) ih last

-- Of three tasks one is answered, one fails and one is stopped with its batch.
def mixed : List Operation := [nodeWith 2,.grant 1 100 none,submitShort 1 3 1,claimPass,.completeTask 0 .null 3 2 4,
  .failTask 1 (text "timeout") 5,.cancelBatch 1 0 6]

theorem ledger_audited_mixed : ∃ s : Service, Audited s.db ∧ s.db.ledger.map LedgerEntry.entryType =
    [.grant,.reserve,.charge,.release,.release] ∧ s.db.tasks.map Task.status = [.completed,.failed,.cancelled] := by
  have ran : (replay (advance JsonText.codec (3/10)) mixed {}).any (fun s => decide (
      s.db.ledger.map LedgerEntry.entryType = [.grant,.reserve,.charge,.release,.release] ∧
      s.db.tasks.map Task.status = [.completed,.failed,.cancelled])) = true := by decide +kernel
  obtain ⟨s,path,facts⟩ := replay_reaches ran
  have path : Run (Step JsonText.codec (3/10)) {} mixed s := path
  exact ⟨s,ledger_audited path,of_decide_eq_true facts⟩

end BatchGateway.AuditTrail
