import BatchGateway.JsonText
import BatchGateway.SettledRows

-- What a batch has consumed, as three parts of the service tell it.
namespace BatchGateway.Consumption
open PythonText PythonJson BatchOps Service LabelledRuns Records Counters SettledRows

def charges (db : Db) : List LedgerEntry := db.ledger.filter (fun e => e.entryType == .charge)

def usedDeltas (entries : List LedgerEntry) : Int := (entries.map LedgerEntry.usedDelta).sum

-- `_tokens_consumed`, the figure of the batches API.
def tokensConsumed (db : Db) (batch : BatchId) : Int :=
  usedDeltas (db.ledger.filter (fun e => e.batchId == some batch && e.entryType == .charge))

def consumedByBatch (db : Db) (user : UserId) : List (BatchId × Int) :=
  Rows.groupSum ((db.ledger.filter (fun e => e.userId == user && e.entryType == .charge)).filterMap
    (fun e => e.batchId.map (fun batch => (batch,e.usedDelta))))

structure BatchRow where
  id : BatchId
  createdAt : Instant
  status : BatchStatus
  requestTotal : Nat
  requestCompleted : Nat
  requestFailed : Nat
  tokensConsumed : Int
  deriving DecidableEq

structure DashboardData where
  budget : Budget
  batches : List BatchRow
  ledgerEntries : List LedgerEntry

def recentBatchLimit : Nat := 20
def recentLedgerLimit : Nat := 20

-- order_by(Batch.created_at.desc()).limit(RECENT_BATCH_LIMIT)
def recentBatches (db : Db) (user : UserId) : List (Batch × BatchId) :=
  ((db.batches.zipIdx.filter (fun row => row.1.userId == user)).insertionSort
    (fun x y => y.1.createdAt ≤ x.1.createdAt)).take recentBatchLimit

def batchRow (consumed : List (BatchId × Int)) (row : Batch × BatchId) : BatchRow :=
  ⟨row.2,row.1.createdAt,row.1.status,row.1.requestTotal,row.1.requestCompleted,row.1.requestFailed,
    Rows.getOrZero consumed row.2⟩

-- The entries are in the order of their created_at, oldest first.
def loadDashboard (db : Db) (user : UserId) : DashboardData where
  budget := db.getOrCreateBudget user
  batches := (recentBatches db user).map (batchRow (consumedByBatch db user))
  ledgerEntries := ((db.ledger.filter (fun e => e.userId == user &&
    (e.entryType == .grant || e.entryType == .adjust))).reverse).take recentLedgerLimit

-- The task rows' own figures.
def Task.usage (t : Task) : Int := t.promptTokens.getD 0 + t.completionTokens.getD 0

def completedUsage (db : Db) (batch : BatchId) : Int :=
  ((db.tasks.filter (fun t => t.batchId == batch && t.status == .completed)).map Task.usage).sum

def userBatches (db : Db) (user : UserId) : List BatchId :=
  (db.batches.zipIdx.filter (fun row => row.1.userId == user)).map Prod.snd

def usedTokens (db : Db) (user : UserId) : Int := (db.getOrCreateBudget user).usedTokens

-- Every charge names a batch and its owner; a batch's charges add up to the usage
-- of its completed tasks, a user's to the used tokens.
structure Consumed (db : Db) : Prop where
  named : ∀ e ∈ charges db, ∃ i b, e.batchId = some i ∧ db.batches[i]? = some b ∧ b.userId = e.userId
  charged : ∀ i, tokensConsumed db i = completedUsage db i
  used : ∀ user, usedDeltas ((charges db).filter (fun e => e.userId == user)) = usedTokens db user

theorem tokensConsumed_charges (db : Db) (batch : BatchId) :
    tokensConsumed db batch = usedDeltas ((charges db).filter (fun e => e.batchId == some batch)) := by
  rw [tokensConsumed,charges,List.filter_filter]

-- A report's share in what its batch's completed tasks used.
def share (batch : BatchId) (r : Report) : Int :=
  match r.2 with
  | some (.completed,promptTokens,completionTokens) =>
    if r.1 == batch then promptTokens.getD 0 + completionTokens.getD 0 else 0
  | _ => 0

theorem share_report (batch : BatchId) (t : Task) : share batch (Task.report t) =
    if t.batchId == batch && t.status == .completed then Task.usage t else 0 := by
  unfold Task.report settled
  cases status : t.status <;> simp [share,settledStatus,Task.usage]

theorem completedUsage_reports (db : Db) (batch : BatchId) :
    completedUsage db batch = ((db.tasks.map Task.report).map (share batch)).sum := by
  rw [completedUsage,Rows.sum_filter,List.map_map]
  simp only [Function.comp_def,share_report]

theorem share_unsettled {batch : BatchId} {t : Task} (unsettled : settled t = false) : share batch (Task.report t) = 0 := by
  simp [Task.report,unsettled,share]

variable {codec : Codec} {alpha : ℚ} {s t : Service} {op : Operation} {db after : Db}

-- A step that charges nothing and settles nothing.
theorem Consumed.quiet (valid : Consumed db) (same : charges after = charges db)
    (usage : ∀ i, completedUsage after i = completedUsage db i)
    (owners : ∀ (i : BatchId) b, db.batches[i]? = some b → ∃ c, after.batches[i]? = some c ∧ c.userId = b.userId)
    (used : ∀ user, usedTokens after user = usedTokens db user) : Consumed after := by
  refine ⟨?_,fun i => ?_,fun user => ?_⟩
  · intro e member
    obtain ⟨i,b,batch,found,owner⟩ := valid.named e (same ▸ member)
    obtain ⟨c,there,kept⟩ := owners i b found
    exact ⟨i,c,batch,there,kept.trans owner⟩
  · rw [tokensConsumed_charges,same,← tokensConsumed_charges,usage,valid.charged]
  · rw [same,used,valid.used]

theorem charges_post (db : Db) (user : UserId) (row : Budget) {entry : LedgerEntry} (other : entry.entryType ≠ .charge) :
    charges (Ledger.post db user row entry) = charges db := by
  simp [charges,List.filter_append,other]

theorem used_post {db base : Db} {user : UserId} {row : Budget} {entry : LedgerEntry} (same : base.budgets = db.budgets)
    (kept : row.usedTokens = usedTokens db user) (other : UserId) :
    usedTokens (Ledger.post base user row entry) other = usedTokens db other := by
  unfold usedTokens at kept ⊢
  by_cases here : other = user
  · subst here
    rw [Ledger.post_budget_self,kept]
  · rw [Ledger.post_budget_other here,Db.getOrCreateBudget,same,Db.getOrCreateBudget]

-- The batch rows of a step keep their owners.
theorem step_owners (step : Step codec alpha s op t) {i : BatchId} {b : Batch} (found : s.db.batches[i]? = some b) :
    ∃ c, t.db.batches[i]? = some c ∧ c.userId = b.userId := by
  have rows := congrArg (fun column : List Submission => column[i]?) (step_submissions step)
  have inside := (List.getElem?_eq_some_iff.mp found).1
  simp only [List.getElem?_map] at rows
  rw [List.getElem?_append_left (by simpa using inside),List.getElem?_map,found] at rows
  obtain ⟨c,there,same⟩ := Option.map_eq_some_iff.mp rows
  exact ⟨c,there,congrArg Submission.userId same⟩

theorem step_usage (step : Step codec alpha s op t)
    (open_ : ∀ task body prompt completion now, op ≠ .completeTask task body prompt completion now)
    (unfailed : ∀ task error now, op ≠ .failTask task error now) (i : BatchId) :
    completedUsage t.db i = completedUsage s.db i := by
  rw [completedUsage_reports,completedUsage_reports,step_reports step open_ unfailed,List.map_append,List.sum_append]
  have none : (((createdTasks s op).map Task.report).map (share i)).sum = 0 := by
    rw [List.map_map]
    exact List.sum_eq_zero fun x member => by
      obtain ⟨row,created,rfl⟩ := List.mem_map.mp member
      exact share_unsettled (created_unsettled created)
  rw [none,add_zero]

theorem finalized_accounts (codec : Codec) (task : TaskId) (now : Instant) (db : Db) (blobs : Blobs) :
    (finalizeAfter codec task now db blobs).1.ledger = db.ledger ∧
    (finalizeAfter codec task now db blobs).1.budgets = db.budgets := by
  rcases finalizeAfter_parts codec task now db blobs with same | ⟨t,b,_,_,_,same⟩
  · rw [same]
    exact ⟨rfl,rfl⟩
  · rw [same]
    exact ⟨rfl,rfl⟩

theorem terminated_accounts {user : UserId} {batch : BatchId} {terminal : BatchStatus} {note : String} {now : Instant}
    (done : terminateBatch user batch terminal note now db = .ok after) :
    charges after = charges db ∧ ∀ other, usedTokens after other = usedTokens db other := by
  rcases terminateSelected_parts done with ⟨_,rfl⟩ | ⟨_,amount,entry,_,released,rfl⟩
  · exact ⟨rfl,fun _ => rfl⟩
  · refine ⟨charges_post _ _ _ (by rw [released]; decide),?_⟩
    exact used_post rfl rfl

-- A batch update that keeps the owner.
theorem owners_updated (batch : BatchId) {f : Batch → Batch} (same : ∀ b, (f b).userId = b.userId) {rows : List Batch}
    {i : BatchId} {b : Batch} (found : rows[i]? = some b) :
    ∃ c, (rows.modify batch f)[i]? = some c ∧ c.userId = b.userId := by
  rw [List.getElem?_modify,found]
  refine ⟨_,rfl,?_⟩
  split
  · exact same b
  · rfl

-- A settlement replaces a report that had no share.
theorem completedUsage_settled {tasks : List Task} {task : TaskId} {t : Task} (found : db.tasks[task]? = some t)
    (unsettled : settled t = false) (f : Task → Task) (same : tasks = db.tasks.modify task f) (i : BatchId) :
    ((tasks.map Task.report).map (share i)).sum = completedUsage db i + share i (Task.report (f t)) := by
  have moved := Rows.sum_modify found f (fun t => share i (Task.report t))
  rw [share_unsettled unsettled,add_zero] at moved
  rw [completedUsage_reports,same,List.map_map,List.map_map]
  exact moved

theorem flying_unsettled {inFlight : List TaskId} {task : TaskId} {t : Task} (progress : Progress db inFlight)
    (flying : task ∈ inFlight) (found : db.tasks[task]? = some t) : settled t = false := by
  obtain ⟨u,there,status⟩ := progress.flying task flying
  rw [found] at there
  cases there
  unfold settled
  rcases status with running | cancelled
  · rw [running]
    rfl
  · rw [cancelled]
    rfl

-- A charge posted over a table in which its batch's usage has grown by as much.
theorem Consumed.charge {base : Db} {user : UserId} {row : Budget} {entry : LedgerEntry} {batch : BatchId} {b : Batch}
    (valid : Consumed db) (ledger : base.ledger = db.ledger) (budgets : base.budgets = db.budgets)
    (kind : entry.entryType = .charge) (who : entry.userId = user) (what : entry.batchId = some batch)
    (found : base.batches[batch]? = some b) (owner : b.userId = user)
    (owners : ∀ (i : BatchId) c, db.batches[i]? = some c → ∃ d, base.batches[i]? = some d ∧ d.userId = c.userId)
    (usage : ∀ i, completedUsage base i = completedUsage db i + if batch = i then entry.usedDelta else 0)
    (spent : row.usedTokens = usedTokens db user + entry.usedDelta) : Consumed (Ledger.post base user row entry) := by
  have entries : charges (Ledger.post base user row entry) = charges db ++ [entry] := by
    simp [charges,ledger,kind]
  refine ⟨?_,fun i => ?_,fun other => ?_⟩
  · intro e member
    rw [entries] at member
    rcases List.mem_append.mp member with before | new
    · obtain ⟨i,c,named,there,mine⟩ := valid.named e before
      obtain ⟨d,later,kept⟩ := owners i c there
      exact ⟨i,d,named,later,kept.trans mine⟩
    · rw [List.mem_singleton.mp new]
      exact ⟨batch,b,what,found,owner.trans who.symm⟩
  · have before := valid.charged i
    rw [tokensConsumed_charges] at before ⊢
    have grown : completedUsage (Ledger.post base user row entry) i = completedUsage base i := rfl
    rw [entries,List.filter_append,usedDeltas,List.map_append,List.sum_append,← usedDeltas,before,grown,usage]
    by_cases here : batch = i <;> simp [what,here]
  · have before := valid.used other
    rw [entries,List.filter_append,usedDeltas,List.map_append,List.sum_append,← usedDeltas,before]
    unfold usedTokens at spent ⊢
    by_cases here : other = user
    · subst here
      rw [Ledger.post_budget_self,spent]
      simp [who]
    · rw [Ledger.post_budget_other here]
      simp [who,Ne.symm here,Db.getOrCreateBudget,budgets]

-- A completed task's usage is charged to its batch and to the batch's owner.
theorem consumed_completed {inFlight : List TaskId} {task : TaskId} {responseBody : Json}
    {promptTokens completionTokens : Int} {now : Instant} (valid : Consumed db) (progress : Progress db inFlight)
    (flying : task ∈ inFlight)
    (done : commitCompleted codec alpha task responseBody promptTokens completionTokens now db = .ok after) :
    Consumed after := by
  obtain ⟨t,b,stat,found,owned,_,_,performed⟩ := commitCompleted_performs done
  obtain ⟨_,_,amount,_,rfl⟩ := Ledger.perform_charge performed
  have owners : ∀ (i : BatchId) c, db.batches[i]? = some c → ∃ d,
      (db.batches.modify t.batchId Batch.countCompleted)[i]? = some d ∧ d.userId = c.userId :=
    fun i c there => owners_updated t.batchId (f := Batch.countCompleted) (fun _ => rfl) there
  obtain ⟨d,later,kept⟩ := owners t.batchId b owned
  refine valid.charge rfl rfl rfl rfl rfl later kept owners (fun i => ?_) rfl
  have usage := completedUsage_settled found (flying_unsettled progress flying found)
    (Task.complete responseBody promptTokens completionTokens now) rfl i
  rw [completedUsage_reports]
  refine usage.trans ?_
  by_cases here : t.batchId = i <;> simp [share,Task.report,Task.complete,settled,settledStatus,here]

theorem consumed_failed {inFlight : List TaskId} {task : TaskId} {error : Str} {now : Instant} (valid : Consumed db)
    (progress : Progress db inFlight) (flying : task ∈ inFlight) (done : commitFailed task error now db = .ok after) :
    Consumed after := by
  obtain ⟨t,b,found,_,outcome⟩ := commitFailed_parts done
  have unsettled := flying_unsettled progress flying found
  have usage : ∀ i, completedUsage ((db.updateTask task (Task.fail error now)).updateBatch t.batchId Batch.countFailed) i =
      completedUsage db i := by
    intro i
    have moved := completedUsage_settled found unsettled (Task.fail error now) rfl i
    rw [completedUsage_reports]
    exact moved.trans (by simp [share,Task.report,Task.fail,settled,settledStatus])
  have owners : ∀ (i : BatchId) c, db.batches[i]? = some c → ∃ d,
      (db.batches.modify t.batchId Batch.countFailed)[i]? = some d ∧ d.userId = c.userId :=
    fun i c there => owners_updated t.batchId (f := Batch.countFailed) (fun _ => rfl) there
  rcases outcome with ⟨_,rfl⟩ | ⟨_,amount,entry,_,released,rfl⟩
  · exact valid.quiet rfl usage owners (fun _ => rfl)
  · exact valid.quiet (charges_post _ _ _ (by rw [released]; decide)) usage owners (used_post rfl rfl)

theorem consumed_finalized (valid : Consumed db) (task : TaskId) (now : Instant) (blobs : Blobs) :
    Consumed (finalizeAfter codec task now db blobs).1 := by
  obtain ⟨ledger,budgets⟩ := finalized_accounts codec task now db blobs
  obtain ⟨tasks,_,batches⟩ := finalized_tables codec task now db blobs
  refine valid.quiet (by rw [charges,ledger,charges]) (fun i => by rw [completedUsage,tasks,completedUsage]) ?_ ?_
  · intro i b found
    have row := congrArg (fun column : List Submission => column[i]?) batches
    simp only [List.getElem?_map,found,Option.map_some] at row
    obtain ⟨c,there,same⟩ := Option.map_eq_some_iff.mp row
    exact ⟨c,there,congrArg Submission.userId same⟩
  · intro user
    simp only [usedTokens,Db.getOrCreateBudget,budgets]

theorem step_consumed (valid : Consumed s.db) (progress : Progress s.db s.inFlight) (step : Step codec alpha s op t) :
    Consumed t.db := by
  have owners : ∀ (i : BatchId) b, s.db.batches[i]? = some b → ∃ c, t.db.batches[i]? = some c ∧ c.userId = b.userId :=
    fun _ _ found => step_owners step found
  have usage := step_usage step
  cases op with
  | grant =>
    obtain ⟨_,rfl⟩ := grant_posts step
    exact valid.quiet (charges_post _ _ _ (by simp)) (usage (by simp) (by simp)) owners (used_post rfl rfl)
  | createBatch =>
    obtain ⟨db,created,rfl⟩ := create_step step
    obtain ⟨_,_,_,entry,reserved,rfl⟩ := createBatch_parts created
    exact valid.quiet (charges_post _ _ _ (by rw [reserved]; decide)) (usage (by simp) (by simp)) owners
      (used_post rfl rfl)
  | completeTask task responseBody promptTokens completionTokens now =>
    obtain ⟨flying,db,committed,rfl⟩ := complete_step step
    exact consumed_finalized (consumed_completed valid progress flying committed) task now s.blobs
  | failTask task error now =>
    obtain ⟨flying,db,committed,rfl⟩ := fail_step step
    exact consumed_finalized (consumed_failed valid progress flying committed) task now s.blobs
  | cancelBatch =>
    obtain ⟨b,db,_,_,_,done,rfl⟩ := cancel_step step
    obtain ⟨same,used⟩ := terminated_accounts done
    exact valid.quiet same (usage (by simp) (by simp)) owners used
  | expireBatch =>
    obtain ⟨b,db,_,_,done,rfl⟩ := expire_step step
    obtain ⟨same,used⟩ := terminated_accounts done
    exact valid.quiet same (usage (by simp) (by simp)) owners used
  | purgeExpiredResults retentionDays now =>
    obtain ⟨budgets,ledger,_,_⟩ := purge_step step
    refine valid.quiet ?_ (usage (by simp) (by simp)) owners (fun user => ?_)
    · exact congrArg (List.filter _) ledger
    · simp only [usedTokens,Db.getOrCreateBudget]
      rw [budgets]
  | uploadFile | claimAndAssign | applyHealthResults | startup =>
    cases step
    exact valid.quiet rfl (usage (by simp) (by simp)) owners (fun _ => rfl)

theorem initial_consumed : Consumed ({} : Db) := by
  refine ⟨fun e member => ?_,fun i => rfl,fun user => rfl⟩
  cases member

theorem run_consumed {operations : List Operation} (path : Run (Step codec alpha) {} operations s) :
    Consumed s.db ∧ Progress s.db s.inFlight :=
  path.preserves (I := fun s => Consumed s.db ∧ Progress s.db s.inFlight) ⟨initial_consumed,initial_progress⟩
    fun _ _ _ valid step => ⟨step_consumed valid.1 valid.2 step,step_progress valid.2 step⟩

theorem grouped_entries (entries : List LedgerEntry) (batch : BatchId) :
    (((entries.filterMap (fun e => e.batchId.map (fun i => (i,e.usedDelta)))).filter (fun r => r.1 == batch)).map
      Prod.snd).sum = usedDeltas (entries.filter (fun e => e.batchId == some batch)) := by
  induction entries with
  | nil => rfl
  | cons e rest ih =>
    rw [List.filterMap_cons,List.filter_cons]
    cases named : e.batchId with
    | none => simpa using ih
    | some i =>
      by_cases here : i = batch
      · subst here
        simpa [usedDeltas] using ih
      · simpa [here] using ih

-- The dashboard's dict against the API's own query.
theorem consumedByBatch_charges (db : Db) (user : UserId) (batch : BatchId) :
    Rows.getOrZero (consumedByBatch db user) batch =
      usedDeltas ((charges db).filter (fun e => e.userId == user && e.batchId == some batch)) := by
  rw [consumedByBatch,Rows.getOrZero_groupSum,grouped_entries,charges,List.filter_filter,List.filter_filter]
  refine congrArg usedDeltas (List.filter_congr fun e _ => ?_)
  rw [Bool.and_left_comm,Bool.and_assoc,Bool.and_comm (e.batchId == some batch)]

theorem consumed_shown (valid : Consumed db) {batch : BatchId} {b : Batch} (found : db.batches[batch]? = some b) :
    Rows.getOrZero (consumedByBatch db b.userId) batch = tokensConsumed db batch := by
  rw [consumedByBatch_charges,tokensConsumed_charges]
  refine congrArg usedDeltas (List.filter_congr fun e member => ?_)
  obtain ⟨i,c,named,there,owner⟩ := valid.named e member
  by_cases here : i = batch
  · subst here
    rw [found] at there
    cases there
    simp [owner]
  · simp [named,here]

theorem userBatches_found {user : UserId} {batch : BatchId} :
    batch ∈ userBatches db user ↔ ∃ b, db.batches[batch]? = some b ∧ b.userId = user := by
  unfold userBatches
  rw [Rows.mem_selected (p := fun b : Batch => b.userId == user)]
  simp

theorem userBatches_distinct (db : Db) (user : UserId) : (userBatches db user).Nodup :=
  Rows.selected_distinct _ _

-- A user's used tokens are what the user's batches have consumed.
theorem used_total (valid : Consumed db) (user : UserId) :
    ((userBatches db user).map (tokensConsumed db)).sum = usedTokens db user := by
  have listed : ∀ e ∈ (charges db).filter (fun e => e.userId == user), e.batchId ∈ (userBatches db user).map some := by
    intro e member
    obtain ⟨charged,mine⟩ := List.mem_filter.mp member
    obtain ⟨i,b,named,found,owner⟩ := valid.named e charged
    rw [named]
    exact List.mem_map_of_mem (userBatches_found.mpr ⟨b,found,owner.trans (eq_of_beq mine)⟩)
  have groups := Rows.sum_groups LedgerEntry.batchId LedgerEntry.usedDelta
    ((userBatches_distinct db user).map (Option.some_injective _)) listed
  rw [← valid.used user,usedDeltas,← groups,List.map_map]
  refine congrArg List.sum (List.map_congr_left fun i member => ?_)
  obtain ⟨b,found,owner⟩ := userBatches_found.mp member
  rw [tokensConsumed_charges,Function.comp_apply,List.filter_filter,usedDeltas]
  refine congrArg (fun entries : List LedgerEntry => (entries.map LedgerEntry.usedDelta).sum)
    (List.filter_congr fun e charged => ?_)
  obtain ⟨j,c,named,there,mine⟩ := valid.named e charged
  by_cases here : j = i
  · subst here
    rw [found] at there
    cases there
    simp [named,← mine,owner]
  · have apart : e.batchId ≠ some i := by
      rw [named]
      exact fun same => here (Option.some.inj same)
    change _ = (decide (e.batchId = some i) && e.userId == user)
    rw [beq_eq_false_iff_ne.mpr apart,decide_eq_false apart,Bool.false_and]

-- In every reachable state the batches API, the dashboard, the task rows and the
-- budget row tell the same consumption.
theorem consumption_agrees {operations : List Operation} (path : Run (Step codec alpha) {} operations s) :
    (∀ (i : BatchId) b, s.db.batches[i]? = some b →
      tokensConsumed s.db i = completedUsage s.db i ∧
      Rows.getOrZero (consumedByBatch s.db b.userId) i = tokensConsumed s.db i) ∧
    (∀ user, ∀ row ∈ (loadDashboard s.db user).batches, row.tokensConsumed = tokensConsumed s.db row.id) ∧
    ∀ user, ((userBatches s.db user).map (tokensConsumed s.db)).sum = (s.db.getOrCreateBudget user).usedTokens := by
  have valid := (run_consumed path).1
  refine ⟨fun i b found => ⟨valid.charged i,consumed_shown valid found⟩,fun user row member => ?_,used_total valid⟩
  obtain ⟨shown,recent,rfl⟩ := List.mem_map.mp member
  have listed := (List.perm_insertionSort _ _).mem_iff.mp (List.mem_of_mem_take recent)
  obtain ⟨there,mine⟩ := List.mem_filter.mp listed
  have found := List.mem_zipIdx_iff_getElem?.mp there
  have owner : shown.1.userId = user := eq_of_beq mine
  exact owner ▸ consumed_shown valid found

-- A task settled after its batch was cancelled is told by all of them.
theorem consumption_agrees_late : ∃ s : Service, tokensConsumed s.db 0 = 5 ∧
    (∀ user, ((userBatches s.db user).map (tokensConsumed s.db)).sum = (s.db.getOrCreateBudget user).usedTokens) := by
  have ran : (replay (advance JsonText.codec (3/10))
      [nodeWith 1,.grant 1 30 none,submitShort 1 1 0,claimPass,.cancelBatch 1 0 0,.completeTask 0 .null 3 2 0] {}).any
      (fun s => decide (tokensConsumed s.db 0 = 5)) = true := by decide +kernel
  obtain ⟨s,path,value⟩ := replay_reaches ran
  exact ⟨s,of_decide_eq_true value,(consumption_agrees path).2.2⟩

end BatchGateway.Consumption
