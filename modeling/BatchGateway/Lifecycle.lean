import BatchGateway.RowMoves

-- What the columns of a row say of each other, in every state of the service.
namespace BatchGateway.Lifecycle
open PythonText PythonJson BatchInput BatchOps Service LabelledRuns Counters RowMoves

structure TaskCoherent (t : Task) : Prop where
  placed : t.nodeName.isSome = t.startedAt.isSome
  waiting : t.status = .pending → t.startedAt = none
  claimed : t.status = .running ∨ settled t = true → t.startedAt.isSome = true ∧ 0 < t.attempts
  finished : t.finishedAt.isSome = !t.live
  answered : t.responseBody.isSome = (t.status == .completed)
  prompted : t.promptTokens.isSome = (t.status == .completed)
  counted : t.completionTokens.isSome = (t.status == .completed)
  explained : t.error.isSome = (t.status == .failed)

-- VALIDATING, FINALIZING, FAILED and CANCELLING are never committed.
structure BatchCoherent (b : Batch) : Prop where
  opened : b.inProgressAt = some b.createdAt
  deadline : b.expiresAt = if b.completionWindow = text "24h" then some (b.createdAt + hours 24) else none
  status : b.status = .inProgress ∨ b.status = .completed ∨ b.status = .cancelled ∨ b.status = .expired
  completed : b.completedAt.isSome = (b.status == .completed)
  finalizing : b.finalizingAt = b.completedAt
  cancelled : b.cancelledAt.isSome = (b.status == .cancelled)
  expired : b.expiredAt.isSome = (b.status == .expired)
  failed : b.failedAt = none
  results : b.outputFileId.isSome = (b.status == .completed && b.purgedAt.isNone)
  errors : b.errorFileId.isSome = true → b.outputFileId.isSome = true
  purged : b.purgedAt.isSome = true → b.status ≠ .inProgress

def Claimed (t : Task) : Prop := t.startedAt.isSome = true ∧ 0 < t.attempts ∧ (t.status = .running ∨ t.status = .cancelled)

structure Coherent (s : Service) : Prop where
  tasks : ∀ t ∈ s.db.tasks, TaskCoherent t
  batches : ∀ b ∈ s.db.batches, BatchCoherent b
  flying : ∀ i ∈ s.inFlight, ∃ t, s.db.tasks[i]? = some t ∧ Claimed t
  live : ∀ t ∈ s.db.tasks, t.live = true → ∃ b, s.db.batches[t.batchId]? = some b ∧ b.status = .inProgress
  whole : ∀ t ∈ s.db.tasks, ∀ b, s.db.batches[t.batchId]? = some b → b.status = .completed → settled t = true

variable {codec : Codec} {alpha : ℚ} {s t : Service} {op : Operation} {i : Nat} {row later : Task} {b next : Batch}

theorem open_only (valid : BatchCoherent b) (allowed : cancellable b.status = true) : b.status = .inProgress := by
  rcases valid.status with open_ | done | done | done
  · exact open_
  · rw [done] at allowed
    cases allowed
  · rw [done] at allowed
    cases allowed
  · rw [done] at allowed
    cases allowed

theorem task_coherent (valid : TaskCoherent row) (flies : i ∈ s.inFlight → Claimed row)
    (moved : TaskMove s op i row later) : TaskCoherent later := by
  cases moved with
  | kept => exact valid
  | claimed _ _ _ waiting =>
    refine ⟨rfl,?_,fun _ => ⟨rfl,Nat.succ_pos _⟩,?_,?_,?_,?_,?_⟩
    · intro pending
      cases pending
    · have open_ := valid.finished
      simpa [Task.live,TaskStatus.live,waiting,Dispatcher.Task.start] using open_
    · exact valid.answered.trans (by rw [waiting]; rfl)
    · exact valid.prompted.trans (by rw [waiting]; rfl)
    · exact valid.counted.trans (by rw [waiting]; rfl)
    · exact valid.explained.trans (by rw [waiting]; rfl)
  | completed _ flying =>
    obtain ⟨started,claims,either⟩ := flies flying
    refine ⟨valid.placed,?_,fun _ => ⟨started,claims⟩,rfl,rfl,rfl,rfl,?_⟩
    · intro pending
      cases pending
    · rcases either with running | cancelled
      · exact valid.explained.trans (by rw [running]; rfl)
      · exact valid.explained.trans (by rw [cancelled]; rfl)
  | failed _ flying =>
    obtain ⟨started,claims,either⟩ := flies flying
    have unanswered : (row.status == .completed) = false := by
      rcases either with running | cancelled
      · rw [running]
        rfl
      · rw [cancelled]
        rfl
    refine ⟨valid.placed,?_,fun _ => ⟨started,claims⟩,rfl,?_,?_,?_,rfl⟩
    · intro pending
      cases pending
    · exact valid.answered.trans unanswered
    · exact valid.prompted.trans unanswered
    · exact valid.counted.trans unanswered
  | stopped _ live =>
    have unsettled : settled row = false := live_unsettled live
    have kinds : (row.status == .completed) = false ∧ (row.status == .failed) = false := by
      unfold settled at unsettled
      cases kind : row.status <;> simp [kind,settledStatus] at unsettled ⊢
    refine ⟨valid.placed,?_,?_,rfl,?_,?_,?_,?_⟩
    · intro pending
      cases pending
    · rintro (running | ended)
      · cases running
      · cases ended
    · exact valid.answered.trans kinds.1
    · exact valid.prompted.trans kinds.1
    · exact valid.counted.trans kinds.1
    · exact valid.explained.trans kinds.2
  | recovered _ running =>
    have open_ := valid.finished
    have answered := valid.answered
    have prompted := valid.prompted
    have counted := valid.counted
    have explained := valid.explained
    rw [Dispatcher.Task.recover,if_pos running]
    simp only [Task.live,TaskStatus.live,running] at open_ answered prompted counted explained
    refine ⟨rfl,fun _ => rfl,?_,open_,answered,prompted,counted,explained⟩
    rintro (running | ended)
    · cases running
    · cases ended

theorem count_columns {task : TaskId} {now : Instant} {count : Batch → Batch} (settles : Settles op task now count) (b : Batch) :
    ∃ m n, count b = {b with requestCompleted := m,requestFailed := n} := by
  cases settles with
  | complete => exact ⟨_,_,rfl⟩
  | fail => exact ⟨_,_,rfl⟩

theorem batch_coherent (valid : BatchCoherent b) (moved : BatchMove s op i b next) : BatchCoherent next := by
  cases moved with
  | kept => exact valid
  | counted settles =>
    obtain ⟨m,n,same⟩ := count_columns settles b
    rw [same]
    exact ⟨valid.opened,valid.deadline,valid.status,valid.completed,valid.finalizing,valid.cancelled,valid.expired,
      valid.failed,valid.results,valid.errors,valid.purged⟩
  | finished settles _ _ due =>
    obtain ⟨m,n,same⟩ := count_columns settles b
    rw [same] at due ⊢
    obtain ⟨open_,_⟩ := Bool.and_eq_true_iff.mp due
    have open_ : b.status = .inProgress := eq_of_beq open_
    have unpurged : b.purgedAt = none := by
      cases purged : b.purgedAt with
      | none => rfl
      | some p => exact absurd open_ (valid.purged (by rw [purged]; rfl))
    refine ⟨valid.opened,valid.deadline,.inr (.inl rfl),rfl,rfl,?_,?_,valid.failed,?_,fun _ => rfl,?_⟩
    · exact valid.cancelled.trans (by rw [open_]; rfl)
    · exact valid.expired.trans (by rw [open_]; rfl)
    · simp [Batch.finish,unpurged]
    · intro _ still
      cases still
  | stopped named allowed =>
    have open_ := open_only valid allowed
    have results := valid.results
    simp only [open_] at results
    have none_ : b.outputFileId.isSome = false := results
    rcases named with ⟨_,rfl⟩ | ⟨_,rfl⟩
    · refine ⟨valid.opened,valid.deadline,.inr (.inr (.inl rfl)),?_,valid.finalizing,rfl,?_,valid.failed,?_,valid.errors,?_⟩
      · exact valid.completed.trans (by rw [open_]; rfl)
      · exact valid.expired.trans (by rw [open_]; rfl)
      · exact none_
      · intro _ still
        cases still
    · refine ⟨valid.opened,valid.deadline,.inr (.inr (.inr rfl)),?_,valid.finalizing,?_,rfl,valid.failed,?_,valid.errors,?_⟩
      · exact valid.completed.trans (by rw [open_]; rfl)
      · exact valid.cancelled.trans (by rw [open_]; rfl)
      · exact none_
      · intro _ still
        cases still
  | purged _ due =>
    obtain ⟨_,terminalAt,ended,_⟩ := due
    refine ⟨valid.opened,valid.deadline,valid.status,valid.completed,valid.finalizing,valid.cancelled,valid.expired,
      valid.failed,?_,fun none_ => none_,?_⟩
    · simp [Retention.Batch.purge]
    · intro _ open_
      change b.status = .inProgress at open_
      rw [Retention.terminalTimestamp,open_] at ended
      cases ended

theorem created_coherent (created : row ∈ Records.createdTasks s op) : TaskCoherent row := by
  cases op with
  | createBatch =>
    obtain ⟨p,_,rfl⟩ := List.mem_map.mp created
    refine ⟨rfl,fun _ => rfl,?_,rfl,rfl,rfl,rfl,rfl⟩
    rintro (running | ended)
    · cases running
    · cases ended
  | _ => cases created

theorem submitted_coherent (created : b ∈ Records.createdBatches op) : BatchCoherent b := by
  cases op with
  | createBatch =>
    cases List.mem_singleton.mp created
    refine ⟨rfl,rfl,.inl rfl,rfl,rfl,rfl,rfl,rfl,rfl,fun none_ => none_,fun none_ => ?_⟩
    cases none_
  | _ => cases created

theorem submitted_open (created : b ∈ Records.createdBatches op) : b.status = .inProgress := by
  cases op with
  | createBatch =>
    cases List.mem_singleton.mp created
    rfl
  | _ => cases created

theorem created_batch (created : row ∈ Records.createdTasks s op) : row.batchId = s.db.batches.length := by
  cases op with
  | createBatch =>
    obtain ⟨p,_,rfl⟩ := List.mem_map.mp created
    rfl
  | _ => cases created

theorem move_batch (moved : TaskMove s op i row later) : later.batchId = row.batchId := by
  cases moved with
  | recovered _ running => rw [Dispatcher.Task.recover,if_pos running]
  | _ => rfl

theorem move_reservation (moved : TaskMove s op i row later) : later.reservedTokens = row.reservedTokens := by
  cases moved with
  | recovered _ running => rw [Dispatcher.Task.recover,if_pos running]
  | _ => rfl

theorem move_reserved (change : BatchMove s op i b next) : next.reservedTokens = b.reservedTokens := by
  cases change with
  | kept => rfl
  | counted settles =>
    obtain ⟨m,n,same⟩ := count_columns settles b
    rw [same]
  | finished settles =>
    obtain ⟨m,n,same⟩ := count_columns settles b
    rw [same]
    rfl
  | stopped named =>
    rcases named with ⟨_,rfl⟩ | ⟨_,rfl⟩
    · rfl
    · rfl
  | purged => rfl

theorem move_owner (change : BatchMove s op i b next) : next.userId = b.userId := by
  cases change with
  | kept => rfl
  | counted settles =>
    obtain ⟨m,n,same⟩ := count_columns settles b
    rw [same]
  | finished settles =>
    obtain ⟨m,n,same⟩ := count_columns settles b
    rw [same]
    rfl
  | stopped => exact terminate_user _ _ b
  | purged => rfl

-- An open batch was open before the step, and keeps its place and its deadline.
theorem open_kept (change : BatchMove s op i b next) (open_ : next.status = .inProgress) :
    b.status = .inProgress ∧ next.userId = b.userId ∧ next.createdAt = b.createdAt ∧ next.expiresAt = b.expiresAt := by
  cases change with
  | kept => exact ⟨open_,rfl,rfl,rfl⟩
  | counted settles =>
    obtain ⟨m,n,same⟩ := count_columns settles b
    rw [same] at open_ ⊢
    exact ⟨open_,rfl,rfl,rfl⟩
  | finished => cases open_
  | stopped named =>
    rcases named with ⟨_,rfl⟩ | ⟨_,rfl⟩
    · cases open_
    · cases open_
  | purged => exact ⟨open_,rfl,rfl,rfl⟩

-- What stops a batch stops its live tasks, and what finishes it finds none left.
theorem live_kept (valid : Coherent s) (progress : Progress t.db t.inFlight) (step : Step codec alpha s op t)
    (found : s.db.tasks[i]? = some row) (there : t.db.tasks[i]? = some later) (live : later.live = true)
    (moved : TaskMove s op i row later) : ∃ b, t.db.batches[later.batchId]? = some b ∧ b.status = .inProgress := by
  have batch := move_batch moved
  have alive : row.live = true := by
    cases moved with
    | kept => exact live
    | claimed _ _ _ waiting =>
      rw [Task.live,waiting]
      rfl
    | completed => cases live
    | failed => cases live
    | stopped => cases live
    | recovered _ running =>
      rw [Task.live,running]
      rfl
  obtain ⟨b,owned,open_⟩ := valid.live row (List.mem_of_getElem? found) alive
  obtain ⟨next,here,change⟩ := batch_moves step owned
  have stops : ∀ {user terminal note now db}, terminateBatch user row.batchId terminal note now s.db = .ok db →
      t = {s with db := db} → False := by
    intro user terminal note now db done same
    subst same
    have ended := stop_tasks done found
    rw [show ({s with db := db} : Service).db.tasks[i]? = some later from there] at ended
    simp only [beq_self_eq_true,alive,Bool.and_self,if_true,Option.some.injEq] at ended
    rw [ended] at live
    cases live
  refine ⟨next,batch ▸ here,?_⟩
  cases change with
  | kept => exact open_
  | counted settles =>
    obtain ⟨m,n,same⟩ := count_columns settles b
    rw [same]
    exact open_
  | finished settles _ _ due =>
    exfalso
    have all := counted_settled (progress.counted _ _ here) (of_decide_eq_true (Bool.and_eq_true_iff.mp due).2) later
      (List.mem_of_getElem? there) batch
    rw [live_unsettled live] at all
    cases all
  | stopped named allowed =>
    exfalso
    rcases named with ⟨rfl,_⟩ | ⟨rfl,_⟩
    · obtain ⟨_,db,_,_,_,done,same⟩ := cancel_step step
      exact stops done same
    · obtain ⟨_,db,_,_,done,same⟩ := expire_step step
      exact stops done same
  | purged _ due =>
    obtain ⟨_,terminalAt,ended,_⟩ := due
    rw [Retention.terminalTimestamp,open_] at ended
    cases ended

theorem live_created (step : Step codec alpha s op t) (created : row ∈ Records.createdTasks s op) :
    ∃ b, t.db.batches[row.batchId]? = some b ∧ b.status = .inProgress := by
  cases op with
  | createBatch user inputFile endpoint window lines now =>
    obtain ⟨p,_,rfl⟩ := List.mem_map.mp created
    obtain ⟨db,done,rfl⟩ := create_step step
    obtain ⟨_,_,_,_,_,rfl⟩ := createBatch_parts done
    exact ⟨newBatch user inputFile endpoint window lines now,List.getElem?_concat_length,rfl⟩
  | _ => cases created

theorem claimed_kept (claimed : Claimed row) (apart : ∀ task now count, Settles op task now count → task ≠ i)
    (runs : ∀ nodes, op ≠ .startup nodes) (moved : TaskMove s op i row later) : Claimed later := by
  obtain ⟨started,claims,either⟩ := claimed
  cases moved with
  | kept => exact ⟨started,claims,either⟩
  | claimed _ _ _ waiting =>
    rw [waiting] at either
    rcases either with running | cancelled
    · cases running
    · cases cancelled
  | completed named =>
    subst named
    exact absurd rfl (apart i _ _ .complete)
  | failed named =>
    subst named
    exact absurd rfl (apart i _ _ .fail)
  | stopped => exact ⟨started,claims,.inr rfl⟩
  | recovered named => exact absurd named (runs _)

-- The batch of a later row, and what the operation has made of it.
theorem row_batch (valid : Records.Linked s.db) (step : Step codec alpha s op t) (there : t.db.tasks[i]? = some later)
    (owned : t.db.batches[later.batchId]? = some next) :
    (∃ row b, s.db.tasks[i]? = some row ∧ TaskMove s op i row later ∧ later.batchId = row.batchId ∧
      s.db.batches[row.batchId]? = some b ∧ BatchMove s op row.batchId b next) ∨
    (later ∈ Records.createdTasks s op ∧ next ∈ Records.createdBatches op) := by
  rcases task_origin step there with ⟨row,found,moved⟩ | ⟨_,created⟩
  · have same : later.batchId = row.batchId := move_batch moved
    refine .inl ⟨row,?_⟩
    rw [same] at owned
    rcases batch_origin step owned with ⟨b,was,change⟩ | ⟨outside,_⟩
    · exact ⟨b,found,moved,same,was,change⟩
    · exact absurd (valid.owned row (List.mem_of_getElem? found)) (Nat.not_lt.mpr outside)
  · refine .inr ⟨created,?_⟩
    rcases batch_origin step owned with ⟨b,was,_⟩ | ⟨_,new⟩
    · have inside := (List.getElem?_eq_some_iff.mp was).choose
      rw [created_batch created] at inside
      exact absurd inside (Nat.lt_irrefl _)
    · exact new

theorem whole_kept (progress : Progress s.db s.inFlight) (after : Progress t.db t.inFlight) (valid : Coherent s)
    (step : Step codec alpha s op t) (found : s.db.tasks[i]? = some row) (there : t.db.tasks[i]? = some later)
    (same : later.batchId = row.batchId) (was : s.db.batches[row.batchId]? = some b)
    (owned : t.db.batches[row.batchId]? = some next) (change : BatchMove s op row.batchId b next)
    (done : next.status = .completed) : settled later = true := by
  have frozen : b.status = .completed → settled later = true := by
    intro closed
    have ended := valid.whole row (List.mem_of_getElem? found) b was closed
    cases there.symm.trans (ResultFiles.settled_frozen progress step found ended)
    exact ended
  cases change with
  | kept => exact frozen done
  | counted settles =>
    obtain ⟨m,n,columns⟩ := count_columns settles b
    rw [columns] at done
    exact frozen done
  | finished _ _ _ due =>
    exact counted_settled (after.counted _ _ owned) (of_decide_eq_true (Bool.and_eq_true_iff.mp due).2) later
      (List.mem_of_getElem? there) same
  | stopped named =>
    rcases named with ⟨_,rfl⟩ | ⟨_,rfl⟩
    · cases done
    · cases done
  | purged => exact frozen done

theorem coherent_step (linked : Records.Linked s.db) (before : Progress s.db s.inFlight) (valid : Coherent s) (step : Step codec alpha s op t) :
    Coherent t := by
  have progress := step_progress before step
  have flies : ∀ i row, s.db.tasks[i]? = some row → i ∈ s.inFlight → Claimed row := by
    intro i row found flying
    obtain ⟨other,there,claimed⟩ := valid.flying i flying
    cases found.symm.trans there
    exact claimed
  refine ⟨fun later member => ?_,fun next member => ?_,fun i flying => ?_,fun later member live => ?_,
    fun later member next owned done => ?_⟩
  · obtain ⟨i,there⟩ := List.mem_iff_getElem?.mp member
    rcases task_origin step there with ⟨row,found,moved⟩ | ⟨_,created⟩
    · exact task_coherent (valid.tasks row (List.mem_of_getElem? found)) (flies i row found) moved
    · exact created_coherent created
  · obtain ⟨i,there⟩ := List.mem_iff_getElem?.mp member
    rcases batch_origin step there with ⟨b,found,moved⟩ | ⟨_,created⟩
    · exact batch_coherent (valid.batches b (List.mem_of_getElem? found)) moved
    · exact submitted_coherent created
  · rcases flight_origin before.once step flying with ⟨old,apart,running⟩ | ⟨load,now,a,rfl,assigned,rfl⟩
    · obtain ⟨row,found,claimed⟩ := valid.flying i old
      obtain ⟨later,there,moved⟩ := task_moves step found
      exact ⟨later,there,claimed_kept claimed apart running moved⟩
    · cases step
      obtain ⟨row,_,started⟩ := assigned_start now assigned
      exact ⟨_,started,rfl,Nat.succ_pos _,.inl rfl⟩
  · obtain ⟨i,there⟩ := List.mem_iff_getElem?.mp member
    rcases task_origin step there with ⟨row,found,moved⟩ | ⟨_,created⟩
    · exact live_kept valid progress step found there live moved
    · exact live_created step created
  · obtain ⟨i,there⟩ := List.mem_iff_getElem?.mp member
    rcases row_batch linked step there owned with ⟨row,b,found,_,same,was,change⟩ | ⟨_,created⟩
    · exact whole_kept before progress valid step found there same was (same ▸ owned) change done
    · have open_ := (submitted_open created).symm.trans done
      cases open_

theorem initial_coherent : Coherent {} := by
  refine ⟨?_,?_,?_,?_,?_⟩
  · intro t member
    cases member
  · intro b member
    cases member
  · intro i flying
    cases flying
  · intro t member
    cases member
  · intro t member
    cases member

structure Sound (s : Service) : Prop where
  linked : Records.Linked s.db
  progress : Progress s.db s.inFlight
  coherent : Coherent s

theorem sound_step (valid : Sound s) (step : Step codec alpha s op t) : Sound t :=
  ⟨Records.linked_preserved valid.linked step,step_progress valid.progress step,
    coherent_step valid.linked valid.progress valid.coherent step⟩

theorem initial_sound : Sound {} := ⟨Records.initial_linked,initial_progress,initial_coherent⟩

theorem run_sound {operations : List Operation} (path : Run (Step codec alpha) {} operations s) : Sound s :=
  path.preserves initial_sound fun _ _ _ => sound_step

-- What students request and what happens beside it is a run of operations.
theorem routed_run {defaultMaxTokens : Int} {actions : List Routes.Action}
    (path : Run (Routes.Step codec alpha defaultMaxTokens) s actions t) :
    ∃ operations, Run (Step codec alpha) s operations t := by
  induction path with
  | nil => exact ⟨_,.nil⟩
  | step _ last ih =>
    obtain ⟨operations,prior⟩ := ih
    rcases Routes.step_performs last with rfl | ⟨op,performed,_⟩
    · exact ⟨_,prior⟩
    · exact ⟨_,prior.step performed⟩

end BatchGateway.Lifecycle
