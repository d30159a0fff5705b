import BatchGateway.AuditTrail
import BatchGateway.DurableFiles

-- Whose rows and files an operation of the service can touch.
namespace BatchGateway.Footprints
open PythonText PythonJson BatchOps Service LabelledRuns Counters ResultFiles FileOwnership RowMoves AuditTrail DurableFiles

-- Whom an operation acts for.
inductive ActsFor (s : Service) : Service.Operation → UserId → Prop where
  | grant : ActsFor s (.grant user tokens note) user
  | upload : ActsFor s (.uploadFile user name data now) user
  | submit : ActsFor s (.createBatch user file endpoint window lines now) user
  | cancel : ActsFor s (.cancelBatch user batch now) user
  | expire {b : Batch} : s.db.batches[batch]? = some b → ActsFor s (.expireBatch batch now) b.userId
  | settle {op : Service.Operation} {task : TaskId} {now : Instant} {count : Batch → Batch} {row : Task} {user : UserId} :
    Settles op task now count → s.db.tasks[task]? = some row → s.db.owner row = some user → ActsFor s op user
  | claim {a : Dispatcher.Assignment} {row : Task} : a ∈ Dispatcher.assignments load s.db → s.db.tasks[a.task]? = some row →
    s.db.owner row = some user → ActsFor s (.claimAndAssign load now) user
  | recover {row : Task} : row ∈ s.db.tasks → row.status = .running → s.db.owner row = some user →
    ActsFor s (.startup nodes) user
  | purge {b : Batch} : b ∈ s.db.batches → ResultPurge.Due retentionDays now b →
    ActsFor s (.purgeExpiredResults retentionDays now) b.userId

-- The same as a list: the owners of the rows the operation goes for.
def concerned (s : Service) : Service.Operation → List UserId
  | .grant user _ _ | .uploadFile user _ _ _ | .createBatch user _ _ _ _ _ | .cancelBatch user _ _ => [user]
  | .expireBatch batch _ => (s.db.batches[batch]?.map Batch.userId).toList
  | .completeTask task _ _ _ _ | .failTask task _ _ => (s.db.tasks[task]?.bind s.db.owner).toList
  | .claimAndAssign load _ =>
    (Dispatcher.assignments load s.db).filterMap (fun a => s.db.tasks[a.task]?.bind s.db.owner)
  | .startup _ => (s.db.tasks.filter (fun row => row.status == .running)).filterMap s.db.owner
  | .purgeExpiredResults retentionDays now =>
    (s.db.batches.filter (Retention.purgeDue retentionDays now)).map Batch.userId
  | .applyHealthResults _ _ => []

-- What a user has is what it was.
structure Untouched (user : UserId) (s t : Service) : Prop where
  budget : t.db.getOrCreateBudget user = s.db.getOrCreateBudget user
  ledger : t.db.ledger.filter (fun e => e.userId == user) = s.db.ledger.filter (fun e => e.userId == user)
  batches : ∀ (i : BatchId) b, b.userId = user → (t.db.batches[i]? = some b ↔ s.db.batches[i]? = some b)
  consumed : ∀ (i : BatchId) b, b.userId = user → s.db.batches[i]? = some b →
    Consumption.tokensConsumed t.db i = Consumption.tokensConsumed s.db i
  tasks : ∀ (i : TaskId) row, t.db.tasks[i]? = some row ∧ t.db.owner row = some user ↔
    s.db.tasks[i]? = some row ∧ s.db.owner row = some user
  files : ∀ (f : FileId) row, row.userId = user → (t.db.files[f]? = some (some row) ↔ s.db.files[f]? = some (some row))
  content : ∀ (f : FileId) row, row.userId = user → s.db.files[f]? = some (some row) → t.blobs f = s.blobs f

variable {codec : Codec} {alpha : ℚ} {defaultMaxTokens : Int} {s t : Service} {op : Service.Operation} {user : UserId}

theorem Untouched.refl (user : UserId) (s : Service) : Untouched user s s :=
  ⟨rfl,rfl,fun _ _ _ => Iff.rfl,fun _ _ _ _ => rfl,fun _ _ => Iff.rfl,fun _ _ _ => Iff.rfl,fun _ _ _ _ => rfl⟩

theorem Untouched.trans {r : Service} (first : Untouched user r s) (second : Untouched user s t) : Untouched user r t where
  budget := second.budget.trans first.budget
  ledger := second.ledger.trans first.ledger
  batches i b mine := (second.batches i b mine).trans (first.batches i b mine)
  consumed i b mine found := (second.consumed i b mine ((first.batches i b mine).mpr found)).trans (first.consumed i b mine found)
  tasks i row := (second.tasks i row).trans (first.tasks i row)
  files f row mine := (second.files f row mine).trans (first.files f row mine)
  content f row mine there := (second.content f row mine ((first.files f row mine).mpr there)).trans (first.content f row mine there)

theorem ActsFor.listed (acts : ActsFor s op user) : user ∈ concerned s op := by
  cases acts with
  | grant => exact List.mem_singleton.mpr rfl
  | upload => exact List.mem_singleton.mpr rfl
  | submit => exact List.mem_singleton.mpr rfl
  | cancel => exact List.mem_singleton.mpr rfl
  | expire found => simp [concerned,found]
  | settle settles found owned => cases settles <;> simp [concerned,found,owned]
  | claim assigned found owned => exact List.mem_filterMap.mpr ⟨_,assigned,by rw [found]; exact owned⟩
  | recover member running owned =>
    exact List.mem_filterMap.mpr ⟨_,List.mem_filter.mpr ⟨member,by simp [running]⟩,owned⟩
  | purge member due =>
    exact List.mem_map.mpr ⟨_,List.mem_filter.mpr ⟨member,ResultPurge.purgeDue_iff.mpr due⟩,rfl⟩

theorem ActsFor.other {other : UserId} (acts : ActsFor s op other) (apart : ¬ ActsFor s op user) : user ≠ other := by
  intro same
  subst same
  exact apart acts

theorem settlement_user {owner : UserId} {i : TaskId} {row : Task} {moved : Int} {e : LedgerEntry}
    (member : e ∈ settlement owner i row moved) : e.userId = owner := by
  unfold settlement at member
  split at member
  · cases List.mem_singleton.mp member
    rfl
  · split at member
    · cases List.mem_singleton.mp member
      rfl
    · cases member
  all_goals cases member

theorem stopsPosted_user {db : Db} {owner : UserId} {batch : BatchId} {note : String} {e : LedgerEntry}
    (member : e ∈ stopsPosted db owner batch note) : e.userId = owner := by
  simp only [stopsPosted] at member
  split at member
  · cases List.mem_singleton.mp member
    rfl
  · cases member

theorem posted_acts (step : Service.Step codec alpha s op t) {e : LedgerEntry} (member : e ∈ posted s op) : ActsFor s op e.userId := by
  cases op with
  | grant =>
    cases List.mem_singleton.mp member
    exact .grant
  | createBatch =>
    cases List.mem_singleton.mp member
    exact .submit
  | completeTask task responseBody promptTokens completionTokens now =>
    obtain ⟨_,db,committed,_⟩ := complete_step step
    obtain ⟨row,b,_,found,owned,_⟩ := commitCompleted_performs committed
    simp only [posted,found,Db.owner,owned,Option.map_some] at member
    rw [settlement_user member]
    exact .settle .complete found (by rw [Db.owner,owned]; rfl)
  | failTask task error now =>
    obtain ⟨_,db,committed,_⟩ := fail_step step
    obtain ⟨row,b,found,owned,_⟩ := commitFailed_performs committed
    simp only [posted,found,Db.owner,owned,Option.map_some] at member
    rw [settlement_user member]
    exact .settle .fail found (by rw [Db.owner,owned]; rfl)
  | cancelBatch =>
    rw [stopsPosted_user member]
    exact .cancel
  | expireBatch batch now =>
    obtain ⟨b,_,found,_⟩ := expire_step step
    rw [posted,found] at member
    rw [stopsPosted_user member]
    exact .expire found
  | uploadFile | claimAndAssign | purgeExpiredResults | applyHealthResults | startup => cases member

-- A charge is posted for the owner of the batch it names.
theorem charge_acts (step : Service.Step codec alpha s op t) {e : LedgerEntry} (member : e ∈ posted s op) (charge : e.entryType = .charge)
    {i : BatchId} (named : e.batchId = some i) {b : Batch} (found : s.db.batches[i]? = some b) : ActsFor s op b.userId := by
  obtain ⟨_,_,row,owning,settles,there,owned,batch,_⟩ := charge_posted step member charge
  cases named.symm.trans batch
  cases found.symm.trans owned
  exact .settle settles there (by rw [Db.owner,found]; rfl)

theorem post_apart {db base : Db} {other : UserId} {row : Budget} {entry : LedgerEntry} (apart : user ≠ other)
    (same : base.budgets = db.budgets) : (Ledger.post base other row entry).getOrCreateBudget user = db.getOrCreateBudget user := by
  rw [Ledger.post_budget_other apart]
  simp only [Db.getOrCreateBudget,same]

theorem budget_kept (step : Service.Step codec alpha s op t) (apart : ¬ ActsFor s op user) :
    t.db.getOrCreateBudget user = s.db.getOrCreateBudget user := by
  have finalized : ∀ {codec : Codec} {task : TaskId} {now : Instant} {db : Db} {blobs : Blobs},
      (finalizeAfter codec task now db blobs).1.getOrCreateBudget user = db.getOrCreateBudget user := by
    intro codec task now db blobs
    simp only [Db.getOrCreateBudget,(Consumption.finalized_accounts codec task now db blobs).2]
  cases op with
  | grant other tokens note =>
    obtain ⟨_,rfl⟩ := grant_posts step
    exact post_apart (ActsFor.grant.other apart) rfl
  | createBatch other inputFile endpoint window lines now =>
    obtain ⟨db,created,rfl⟩ := create_step step
    unfold createBatch at created
    obtain ⟨reserved,done,same⟩ := Raising.bind_ok created
    cases same
    obtain ⟨_,_,_,rfl⟩ := Ledger.perform_reserve done
    exact post_apart (ActsFor.submit.other apart) rfl
  | completeTask task responseBody promptTokens completionTokens now =>
    obtain ⟨_,db,committed,rfl⟩ := complete_step step
    obtain ⟨row,b,_,found,owned,_,_,performed⟩ := commitCompleted_performs committed
    obtain ⟨_,_,_,_,rfl⟩ := Ledger.perform_charge performed
    refine finalized.trans (post_apart (ActsFor.other (.settle .complete found ?_) apart) rfl)
    rw [Db.owner,owned]
    rfl
  | failTask task error now =>
    obtain ⟨_,db,committed,rfl⟩ := fail_step step
    obtain ⟨row,b,found,owned,_,⟨_,rfl⟩ | ⟨_,performed⟩⟩ := commitFailed_performs committed
    · exact finalized
    · obtain ⟨_,_,_,rfl⟩ := Ledger.perform_release performed
      refine finalized.trans (post_apart (ActsFor.other (.settle .fail found ?_) apart) rfl)
      rw [Db.owner,owned]
      rfl
  | cancelBatch other batch now =>
    obtain ⟨_,db,_,_,_,done,rfl⟩ := cancel_step step
    rcases terminateSelected_parts done with ⟨_,rfl⟩ | ⟨_,_,_,_,_,rfl⟩
    · rfl
    · exact post_apart (ActsFor.cancel.other apart) rfl
  | expireBatch batch now =>
    obtain ⟨b,db,found,_,done,rfl⟩ := expire_step step
    rcases terminateSelected_parts done with ⟨_,rfl⟩ | ⟨_,_,_,_,_,rfl⟩
    · rfl
    · exact post_apart ((ActsFor.expire found).other apart) rfl
  | purgeExpiredResults retentionDays now =>
    have same := (purge_step step).1
    simp only [Db.getOrCreateBudget,same]
  | uploadFile | claimAndAssign | applyHealthResults | startup =>
    cases step
    rfl

theorem ledger_kept (step : Service.Step codec alpha s op t) (apart : ¬ ActsFor s op user) :
    t.db.ledger.filter (fun e => e.userId == user) = s.db.ledger.filter (fun e => e.userId == user) := by
  have others : (posted s op).filter (fun e => e.userId == user) = [] := by
    refine List.filter_eq_nil_iff.mpr fun e member mine => ?_
    exact (posted_acts step member).other apart (eq_of_beq mine).symm
  rw [ledger_posted step,List.filter_append,others,List.append_nil]

theorem consumed_kept (step : Service.Step codec alpha s op t) (apart : ¬ ActsFor s op user) (i : BatchId) {b : Batch}
    (mine : b.userId = user) (found : s.db.batches[i]? = some b) :
    Consumption.tokensConsumed t.db i = Consumption.tokensConsumed s.db i := by
  subst mine
  have others : (posted s op).filter (fun e => e.batchId == some i && e.entryType == .charge) = [] := by
    refine List.filter_eq_nil_iff.mpr fun e member both => ?_
    obtain ⟨named,charge⟩ := Bool.and_eq_true_iff.mp both
    exact apart (charge_acts step member (eq_of_beq charge) (eq_of_beq named) found)
  unfold Consumption.tokensConsumed
  rw [ledger_posted step,List.filter_append,others,List.append_nil]

-- A row that the operation changes is one it acts on.
theorem batch_apart {i : BatchId} {b next : Batch} (found : s.db.batches[i]? = some b) (moved : BatchMove s op i b next)
    (apart : ¬ ActsFor s op b.userId) : next = b := by
  have acting : ∀ {task : TaskId} {row : Task}, s.db.tasks[task]? = some row → row.batchId = i → s.db.owner row = some b.userId := by
    intro task row there mine
    rw [Db.owner,mine,found]
    rfl
  cases moved with
  | kept => rfl
  | counted settles there mine => exact absurd (.settle settles there (acting there mine)) apart
  | finished settles there mine => exact absurd (.settle settles there (acting there mine)) apart
  | stopped named =>
    rcases named with ⟨rfl,_⟩ | ⟨rfl,_⟩
    · exact absurd .cancel apart
    · exact absurd (.expire found) apart
  | purged same due =>
    subst same
    exact absurd (.purge (List.mem_of_getElem? found) due) apart

theorem created_for {b : Batch} (created : b ∈ Records.createdBatches op) : ActsFor s op b.userId := by
  cases op with
  | createBatch =>
    cases List.mem_singleton.mp created
    exact .submit
  | _ => cases created

theorem batches_kept (step : Service.Step codec alpha s op t) (apart : ¬ ActsFor s op user) (i : BatchId) {b : Batch}
    (mine : b.userId = user) : t.db.batches[i]? = some b ↔ s.db.batches[i]? = some b := by
  subst mine
  constructor
  · intro found
    rcases batch_origin step found with ⟨old,was,moved⟩ | ⟨_,created⟩
    · have owner := Lifecycle.move_owner moved
      rwa [batch_apart was moved (owner ▸ apart)]
    · exact absurd (created_for created) apart
  · intro found
    obtain ⟨next,there,moved⟩ := batch_moves step found
    rwa [batch_apart found moved apart] at there

theorem task_apart {i : TaskId} {row later : Task} (step : Service.Step codec alpha s op t) (found : s.db.tasks[i]? = some row)
    (moved : TaskMove s op i row later) (owned : s.db.owner row = some user) (apart : ¬ ActsFor s op user) : later = row := by
  cases moved with
  | kept => rfl
  | claimed same assigned named =>
    subst same named
    exact absurd (.claim assigned found owned) apart
  | completed same =>
    subst same
    exact absurd (.settle .complete found owned) apart
  | failed same =>
    subst same
    exact absurd (.settle .fail found owned) apart
  | stopped named =>
    obtain ⟨b,there,mine⟩ := Option.map_eq_some_iff.mp owned
    subst mine
    rcases named with rfl | rfl
    · obtain ⟨_,_,listed,mine,_⟩ := cancel_step step
      cases there.symm.trans listed
      subst mine
      exact absurd .cancel apart
    · exact absurd (.expire there) apart
  | recovered same running =>
    subst same
    exact absurd (.recover (List.mem_of_getElem? found) running owned) apart

-- Whose a task is never changes.
theorem owner_kept (linked : ∀ row ∈ s.db.tasks, row.batchId < s.db.batches.length) (step : Service.Step codec alpha s op t)
    {row : Task} (member : row ∈ s.db.tasks) : t.db.owner row = s.db.owner row := by
  obtain ⟨b,found⟩ : ∃ b, s.db.batches[row.batchId]? = some b := ⟨_,List.getElem?_eq_getElem (linked row member)⟩
  obtain ⟨next,there,moved⟩ := batch_moves step found
  simp only [Db.owner,found,there,Option.map_some,Lifecycle.move_owner moved]

theorem task_owner {row later : Task} (same : later.batchId = row.batchId) (db : Db) : db.owner later = db.owner row := by
  simp only [Db.owner,same]

theorem tasks_kept (linked : ∀ row ∈ s.db.tasks, row.batchId < s.db.batches.length) (step : Service.Step codec alpha s op t)
    (apart : ¬ ActsFor s op user) (i : TaskId) (row : Task) : t.db.tasks[i]? = some row ∧ t.db.owner row = some user ↔
    s.db.tasks[i]? = some row ∧ s.db.owner row = some user := by
  constructor
  · rintro ⟨found,owned⟩
    rcases task_origin step found with ⟨old,was,moved⟩ | ⟨_,created⟩
    · have owner := (owner_kept linked step (List.mem_of_getElem? was)).symm.trans
        ((task_owner (Lifecycle.move_batch moved) t.db).symm.trans owned)
      rw [task_apart step was moved owner apart]
      exact ⟨was,owner⟩
    · exfalso
      cases op with
      | createBatch other inputFile endpoint window lines now =>
        obtain ⟨b,there,mine⟩ := Option.map_eq_some_iff.mp owned
        rw [Lifecycle.created_batch created] at there
        rcases batch_origin step there with ⟨_,was,_⟩ | ⟨_,new⟩
        · exact Nat.lt_irrefl _ (List.getElem?_eq_some_iff.mp was).choose
        · exact apart (mine ▸ created_for new)
      | _ => cases created
  · rintro ⟨found,owned⟩
    obtain ⟨later,there,moved⟩ := task_moves step found
    rw [task_apart step found moved owned apart] at there
    exact ⟨there,(owner_kept linked step (List.mem_of_getElem? found)).trans owned⟩

theorem due_acts (tidy : Tidy s.db) {f : FileId} {row : FileObject} {retentionDays : Int} {now : Instant}
    (found : s.db.files[f]? = some (some row)) (due : ResultPurge.DueResult retentionDays now s.db f) :
    ActsFor s (.purgeExpiredResults retentionDays now) row.userId := by
  obtain ⟨b,member,ended,refers⟩ := due
  obtain ⟨i,there⟩ := List.mem_iff_getElem?.mp member
  have own := tidy.owned i b there
  have mine : b.userId = row.userId := by
    rcases refers with output | errors
    · obtain ⟨_,listed,same,_⟩ := own.output f output
      cases found.symm.trans listed
      exact same.symm
    · obtain ⟨_,listed,same,_⟩ := own.errors f errors
      cases found.symm.trans listed
      exact same.symm
  exact mine ▸ .purge member ended

theorem file_stays (filed : Filed codec s.db s.blobs) (tidy : Tidy s.db) (step : Service.Step codec alpha s op t) {f : FileId}
    {row : FileObject} (found : s.db.files[f]? = some (some row)) (apart : ¬ ActsFor s op row.userId) :
    t.db.files[f]? = some (some row) ∧ t.blobs f = s.blobs f := by
  cases file_moves filed tidy step (file_inside found) with
  | kept files blobs => exact ⟨files.trans found,blobs⟩
  | purged same due =>
    subst same
    exact absurd (due_acts tidy found due) apart

-- A new result row is one that a batch of its user refers to, and so acts for that user.
theorem file_there (filed : Filed codec s.db s.blobs) (tidy : Tidy s.db) (after : Tidy t.db) (step : Service.Step codec alpha s op t)
    {f : FileId} {row : FileObject} (found : t.db.files[f]? = some (some row)) (apart : ¬ ActsFor s op row.userId) :
    s.db.files[f]? = some (some row) := by
  by_cases upload : row.purpose = .batchInput
  · rcases FileOwnership.step_uploads step found upload with ⟨was,_⟩ | ⟨name,data,same,_⟩
    · exact was
    · subst same
      exact absurd .upload apart
  · obtain ⟨i,b,there,mine,refers⟩ := after.results f row found upload
    have own := tidy.owned i b ((batches_kept step apart i mine).mp there)
    have held : ∃ old, s.db.files[f]? = some (some old) := by
      rcases refers with output | errors
      · obtain ⟨old,was,_⟩ := own.output f output
        exact ⟨old,was⟩
      · obtain ⟨old,was,_⟩ := own.errors f errors
        exact ⟨old,was⟩
    obtain ⟨old,was⟩ := held
    cases file_moves filed tidy step (file_inside was) with
    | kept files => exact files.symm.trans found
    | purged _ _ gone => cases gone.symm.trans found

theorem untouched_step {labels : List Routes.Action} (valid : TenantIsolation.Isolated codec labels s) (after : Tidy t.db)
    (step : Service.Step codec alpha s op t) (apart : ¬ ActsFor s op user) : Untouched user s t where
  budget := budget_kept step apart
  ledger := ledger_kept step apart
  batches i b mine := batches_kept step apart i mine
  consumed i b mine found := consumed_kept step apart i mine found
  tasks i row := tasks_kept valid.progress.owned step apart i row
  files f row mine := by
    subst mine
    exact ⟨fun found => file_there valid.filed valid.tidy after step found apart,
      fun found => (file_stays valid.filed valid.tidy step found apart).1⟩
  content f row mine found := by
    subst mine
    exact (file_stays valid.filed valid.tidy step found apart).2

end BatchGateway.Footprints
