import BatchGateway.ClaimPass
import BatchGateway.ResultPurge

-- What one operation of the service can do to a row that was there before it.
namespace BatchGateway.RowMoves
open PythonText PythonJson BatchInput BatchOps Service LabelledRuns

inductive TaskMove (s : Service) (op : Operation) (i : TaskId) (row : Task) : Task → Prop where
  | kept : TaskMove s op i row row
  | claimed {load : Dispatcher.InFlight} {now : Instant} {a : Dispatcher.Assignment} :
    op = .claimAndAssign load now → a ∈ Dispatcher.assignments load s.db → a.task = i → row.status = .pending →
    TaskMove s op i row (Dispatcher.Task.start a.nodeName now row)
  | completed {responseBody : Json} {promptTokens completionTokens : Int} {now : Instant} :
    op = .completeTask i responseBody promptTokens completionTokens now → i ∈ s.inFlight →
    TaskMove s op i row (Task.complete responseBody promptTokens completionTokens now row)
  | failed {error : Str} {now : Instant} : op = .failTask i error now → i ∈ s.inFlight →
    TaskMove s op i row (Task.fail error now row)
  | stopped {user : UserId} {now : Instant} :
    (op = .cancelBatch user row.batchId now ∨ op = .expireBatch row.batchId now) → row.live = true →
    TaskMove s op i row (Task.cancel now row)
  | recovered {nodes : List Dispatcher.NodeConfig} : op = .startup nodes → row.status = .running →
    TaskMove s op i row (Dispatcher.Task.recover row)

-- The settlement of a task, and the counter it moves.
inductive Settles : Operation → TaskId → Instant → (Batch → Batch) → Prop where
  | complete : Settles (.completeTask task responseBody promptTokens completionTokens now) task now Batch.countCompleted
  | fail : Settles (.failTask task error now) task now Batch.countFailed

inductive BatchMove (s : Service) (op : Operation) (i : BatchId) (b : Batch) : Batch → Prop where
  | kept : BatchMove s op i b b
  | counted {task : TaskId} {row : Task} {now : Instant} {count : Batch → Batch} : Settles op task now count →
    s.db.tasks[task]? = some row → row.batchId = i → shouldFinalize (count b) = false → BatchMove s op i b (count b)
  | finished {task : TaskId} {row : Task} {now : Instant} {count : Batch → Batch} {output : FileId} {errors : Option FileId} :
    Settles op task now count → s.db.tasks[task]? = some row → row.batchId = i → shouldFinalize (count b) = true →
    BatchMove s op i b (Batch.finish output errors now (count b))
  | stopped {terminal : BatchStatus} {now : Instant} :
    ((op = .cancelBatch b.userId i now ∧ terminal = .cancelled) ∨ (op = .expireBatch i now ∧ terminal = .expired)) →
    cancellable b.status = true → BatchMove s op i b (Batch.terminate terminal now b)
  | purged {retentionDays : Int} {now : Instant} : op = .purgeExpiredResults retentionDays now →
    ResultPurge.Due retentionDays now b → BatchMove s op i b (Retention.Batch.purge now b)

variable {codec : Codec} {alpha : ℚ} {s t : Service} {op : Operation} {db after : Db} {i : Nat}

theorem stop_tasks {batch : BatchId} {user : UserId} {terminal : BatchStatus} {note : String} {now : Instant}
    {row : Task} (done : terminateBatch user batch terminal note now db = .ok after) (found : db.tasks[i]? = some row) :
    after.tasks[i]? = some (if row.batchId == batch && row.live then Task.cancel now row else row) := by
  have rows : (stopped (tasksToStop db batch) batch terminal now db).tasks[i]? =
      some (if row.batchId == batch && row.live then Task.cancel now row else row) := by
    change (stopTasks ((tasksToStop db batch).map Prod.snd) now db.tasks)[i]? = _
    rw [stopTasks_live,List.getElem?_map,found]
    rfl
  rcases terminateSelected_parts done with ⟨_,rfl⟩ | ⟨_,_,_,_,_,rfl⟩
  · exact rows
  · exact rows

theorem stop_batches {batch : BatchId} {user : UserId} {terminal : BatchStatus} {note : String} {now : Instant}
    (done : terminateBatch user batch terminal note now db = .ok after) :
    after.batches = db.batches.modify batch (Batch.terminate terminal now) := by
  rcases terminateSelected_parts done with ⟨_,rfl⟩ | ⟨_,_,_,_,_,rfl⟩
  · rfl
  · rfl

theorem task_stopped {batch : BatchId} {user : UserId} {terminal : BatchStatus} {note : String} {now : Instant}
    {row : Task} (done : terminateBatch user batch terminal note now s.db = .ok after) (found : s.db.tasks[i]? = some row)
    (named : op = .cancelBatch user batch now ∨ op = .expireBatch batch now) :
    ∃ later, after.tasks[i]? = some later ∧ TaskMove s op i row later := by
  refine ⟨_,stop_tasks done found,?_⟩
  split
  · rename_i chosen
    obtain ⟨mine,live⟩ := Bool.and_eq_true_iff.mp chosen
    rw [← eq_of_beq mine] at named
    exact .stopped named live
  · exact .kept

theorem assigned_start {load : Dispatcher.InFlight} {db : Db} {a : Dispatcher.Assignment} (now : Instant)
    (assigned : a ∈ Dispatcher.assignments load db) : ∃ u, db.tasks[a.task]? = some u ∧
    (Dispatcher.startTasks (Dispatcher.assignments load db) now db.tasks)[a.task]? = some (Dispatcher.Task.start a.nodeName now u) :=
  ClaimPass.assigned_started assigned

theorem task_moves (step : Step codec alpha s op t) {row : Task} (found : s.db.tasks[i]? = some row) :
    ∃ later, t.db.tasks[i]? = some later ∧ TaskMove s op i row later := by
  cases op with
  | grant =>
    obtain ⟨_,rfl⟩ := grant_posts step
    exact ⟨row,found,.kept⟩
  | uploadFile => cases step; exact ⟨row,found,.kept⟩
  | applyHealthResults => cases step; exact ⟨row,found,.kept⟩
  | purgeExpiredResults =>
    obtain ⟨_,_,tasks,_⟩ := purge_step step
    exact ⟨row,tasks ▸ found,.kept⟩
  | createBatch user inputFile endpoint window lines now =>
    obtain ⟨db,created,rfl⟩ := create_step step
    obtain ⟨_,_,_,_,_,rfl⟩ := createBatch_parts created
    exact ⟨row,(List.getElem?_append_left (List.getElem?_eq_some_iff.mp found).choose).trans found,.kept⟩
  | claimAndAssign load now =>
    cases step
    rcases Dispatcher.startTasks_parts load now s.db found with ⟨_,same⟩ | ⟨member,waiting,_⟩
    · exact ⟨row,same,.kept⟩
    · obtain ⟨a,assigned,rfl⟩ := List.mem_map.mp member
      obtain ⟨old,there,started⟩ := assigned_start now assigned
      cases found.symm.trans there
      exact ⟨_,started,.claimed rfl assigned rfl waiting⟩
  | completeTask task responseBody promptTokens completionTokens now =>
    obtain ⟨flying,db,committed,rfl⟩ := complete_step step
    obtain ⟨_,_,_,_,_,_,_,_,_,_,_,rfl⟩ := commitCompleted_parts committed
    rw [(Records.finalized_tables codec task now _ s.blobs).1]
    by_cases mine : task = i
    · subst mine
      exact ⟨_,Rows.getElem?_modify_self found _,.completed rfl flying⟩
    · exact ⟨row,(Rows.getElem?_modify_other mine _).trans found,.kept⟩
  | failTask task error now =>
    obtain ⟨flying,db,committed,rfl⟩ := fail_step step
    rw [(Records.finalized_tables codec task now db s.blobs).1]
    have tasks : db.tasks = s.db.tasks.modify task (Task.fail error now) := by
      obtain ⟨_,_,_,_,⟨_,rfl⟩ | ⟨_,_,_,_,_,rfl⟩⟩ := commitFailed_parts committed
      · rfl
      · rfl
    rw [tasks]
    by_cases mine : task = i
    · subst mine
      exact ⟨_,Rows.getElem?_modify_self found _,.failed rfl flying⟩
    · exact ⟨row,(Rows.getElem?_modify_other mine _).trans found,.kept⟩
  | cancelBatch user batch now =>
    obtain ⟨_,db,_,_,_,done,rfl⟩ := cancel_step step
    exact task_stopped done found (.inl rfl)
  | expireBatch batch now =>
    obtain ⟨b,db,_,_,done,rfl⟩ := expire_step step
    exact task_stopped done found (.inr rfl)
  | startup nodes =>
    cases step
    refine ⟨Dispatcher.Task.recover row,?_,?_⟩
    · change (s.db.tasks.map Dispatcher.Task.recover)[i]? = _
      rw [List.getElem?_map,found]
      rfl
    · by_cases running : row.status = .running
      · exact .recovered rfl running
      · rw [Dispatcher.Task.recover,if_neg running]
        exact .kept

-- A row of the new table was there, or was created by this operation.
theorem task_origin (step : Step codec alpha s op t) {later : Task} (found : t.db.tasks[i]? = some later) :
    (∃ row, s.db.tasks[i]? = some row ∧ TaskMove s op i row later) ∨
    (s.db.tasks.length ≤ i ∧ later ∈ Records.createdTasks s op) := by
  cases before : s.db.tasks[i]? with
  | some row =>
    obtain ⟨other,there,moved⟩ := task_moves step before
    cases found.symm.trans there
    exact .inl ⟨row,rfl,moved⟩
  | none =>
    have outside := List.getElem?_eq_none_iff.mp before
    refine .inr ⟨outside,?_⟩
    have sizes := congrArg List.length (Records.step_requests step)
    have inside := (List.getElem?_eq_some_iff.mp found).choose
    simp only [List.length_map,List.length_append] at sizes
    cases op with
    | createBatch user inputFile endpoint window lines now =>
      obtain ⟨db,created,rfl⟩ := create_step step
      obtain ⟨_,_,_,_,_,rfl⟩ := createBatch_parts created
      have row : (s.db.tasks ++ lines.map (newTask s.db.batches.length))[i]? = some later := found
      rw [List.getElem?_append_right outside] at row
      exact List.mem_of_getElem? row
    | _ =>
      simp only [Records.createdTasks,List.length_nil] at sizes
      omega

-- An execution in flight was so before, or is one this claim pass started.
theorem flight_origin (once : s.inFlight.Nodup) (step : Step codec alpha s op t) (flying : i ∈ t.inFlight) :
    (i ∈ s.inFlight ∧ (∀ task now count, Settles op task now count → task ≠ i) ∧ ∀ nodes, op ≠ .startup nodes) ∨
    ∃ load now a, op = .claimAndAssign load now ∧ a ∈ Dispatcher.assignments load s.db ∧ a.task = i := by
  cases op with
  | grant =>
    obtain ⟨_,rfl⟩ := grant_posts step
    exact .inl ⟨flying,nofun,nofun⟩
  | uploadFile => cases step; exact .inl ⟨flying,nofun,nofun⟩
  | applyHealthResults => cases step; exact .inl ⟨flying,nofun,nofun⟩
  | purgeExpiredResults => cases step; exact .inl ⟨flying,nofun,nofun⟩
  | createBatch =>
    obtain ⟨_,_,rfl⟩ := create_step step
    exact .inl ⟨flying,nofun,nofun⟩
  | cancelBatch =>
    obtain ⟨_,_,_,_,_,_,rfl⟩ := cancel_step step
    exact .inl ⟨flying,nofun,nofun⟩
  | expireBatch =>
    obtain ⟨_,_,_,_,_,rfl⟩ := expire_step step
    exact .inl ⟨flying,nofun,nofun⟩
  | claimAndAssign load now =>
    cases step
    rcases List.mem_append.mp flying with old | new
    · exact .inl ⟨old,nofun,nofun⟩
    · obtain ⟨a,assigned,named⟩ := List.mem_map.mp new
      exact .inr ⟨load,now,a,rfl,assigned,named⟩
  | completeTask =>
    obtain ⟨_,_,_,rfl⟩ := complete_step step
    obtain ⟨other,old⟩ := once.mem_erase_iff.mp flying
    refine .inl ⟨old,fun task now count settles => ?_,nofun⟩
    cases settles
    exact Ne.symm other
  | failTask =>
    obtain ⟨_,_,_,rfl⟩ := fail_step step
    obtain ⟨other,old⟩ := once.mem_erase_iff.mp flying
    refine .inl ⟨old,fun task now count settles => ?_,nofun⟩
    cases settles
    exact Ne.symm other
  | startup => cases step; cases flying

section Batches
variable {b : Batch}

-- A settlement, with the finalization it may end in.
theorem batch_settled {task : TaskId} {now : Instant} {count : Batch → Batch} {row : Task} {blobs : Blobs}
    (settles : Settles op task now count) (found : s.db.tasks[task]? = some row)
    (there : ∃ later, db.tasks[task]? = some later ∧ later.batchId = row.batchId)
    (batches : db.batches = s.db.batches.modify row.batchId count) (owned : s.db.batches[i]? = some b) :
    ∃ next, (finalizeAfter codec task now db blobs).1.batches[i]? = some next ∧ BatchMove s op i b next := by
  obtain ⟨later,here,named⟩ := there
  by_cases mine : row.batchId = i
  · have counted : db.batches[later.batchId]? = some (count b) := by
      rw [named,mine,batches,mine]
      exact Rows.getElem?_modify_self owned _
    have whole : finalizeAfter codec task now db blobs =
        if shouldFinalize (count b) then finalizeBatch codec (count b) later.batchId now db blobs else (db,blobs) := by
      simp only [finalizeAfter,here,maybeFinalizeBatch,counted]
    rw [whole]
    cases due : shouldFinalize (count b) with
    | false =>
      refine ⟨count b,?_,.counted settles found mine due⟩
      rw [← mine,← named]
      exact counted
    | true =>
      have closed := Rows.getElem?_modify_self counted (Batch.finish db.files.length
        (errorFile db.files.length (byLineIndex (db.batchTasks later.batchId))) now)
      rw [named,mine] at closed
      rw [named,mine] at ⊢
      exact ⟨_,closed,.finished settles found mine due⟩
  · refine ⟨b,?_,.kept⟩
    have kept : db.batches[i]? = some b := by
      rw [batches,Rows.getElem?_modify_other mine]
      exact owned
    rcases finalizeAfter_parts codec task now db blobs with same | ⟨u,c,first,_,_,same⟩
    · rw [same]
      exact kept
    · cases here.symm.trans first
      rw [same]
      exact (Rows.getElem?_modify_other (named ▸ mine) _).trans kept

theorem batch_moves (step : Step codec alpha s op t) (found : s.db.batches[i]? = some b) :
    ∃ next, t.db.batches[i]? = some next ∧ BatchMove s op i b next := by
  cases op with
  | grant =>
    obtain ⟨_,rfl⟩ := grant_posts step
    exact ⟨b,found,.kept⟩
  | uploadFile => cases step; exact ⟨b,found,.kept⟩
  | applyHealthResults => cases step; exact ⟨b,found,.kept⟩
  | claimAndAssign => cases step; exact ⟨b,found,.kept⟩
  | startup => cases step; exact ⟨b,found,.kept⟩
  | createBatch user inputFile endpoint window lines now =>
    obtain ⟨db,created,rfl⟩ := create_step step
    obtain ⟨_,_,_,_,_,rfl⟩ := createBatch_parts created
    exact ⟨b,(List.getElem?_append_left (List.getElem?_eq_some_iff.mp found).choose).trans found,.kept⟩
  | completeTask task responseBody promptTokens completionTokens now =>
    obtain ⟨_,db,committed,rfl⟩ := complete_step step
    obtain ⟨row,_,_,_,_,there,_,_,_,_,_,rfl⟩ := commitCompleted_parts committed
    exact batch_settled .complete there ⟨_,Rows.getElem?_modify_self there _,rfl⟩ rfl found
  | failTask task error now =>
    obtain ⟨_,db,committed,rfl⟩ := fail_step step
    obtain ⟨row,_,there,_,⟨_,rfl⟩ | ⟨_,_,_,_,_,rfl⟩⟩ := commitFailed_parts committed
    · exact batch_settled .fail there ⟨_,Rows.getElem?_modify_self there _,rfl⟩ rfl found
    · exact batch_settled .fail there ⟨_,Rows.getElem?_modify_self there _,rfl⟩ rfl found
  | cancelBatch user batch now =>
    obtain ⟨c,db,owned,named,allowed,done,rfl⟩ := cancel_step step
    rw [stop_batches done]
    by_cases mine : batch = i
    · subst mine
      cases found.symm.trans owned
      subst named
      exact ⟨_,Rows.getElem?_modify_self found _,.stopped (.inl ⟨rfl,rfl⟩) allowed⟩
    · exact ⟨b,(Rows.getElem?_modify_other mine _).trans found,.kept⟩
  | expireBatch batch now =>
    obtain ⟨c,db,owned,allowed,done,rfl⟩ := expire_step step
    rw [stop_batches done]
    by_cases mine : batch = i
    · subst mine
      cases found.symm.trans owned
      exact ⟨_,Rows.getElem?_modify_self found _,.stopped (.inr ⟨rfl,rfl⟩) allowed⟩
    · exact ⟨b,(Rows.getElem?_modify_other mine _).trans found,.kept⟩
  | purgeExpiredResults retentionDays now =>
    cases step
    refine ⟨_,(ResultPurge.purged_batches retentionDays now s.db s.blobs i).trans (congrArg _ found),?_⟩
    dsimp only
    by_cases due : ResultPurge.Due retentionDays now b
    · rw [if_pos due]
      exact .purged rfl due
    · rw [if_neg due]
      exact .kept

theorem batch_origin (step : Step codec alpha s op t) {next : Batch} (found : t.db.batches[i]? = some next) :
    (∃ b, s.db.batches[i]? = some b ∧ BatchMove s op i b next) ∨
    (s.db.batches.length ≤ i ∧ next ∈ Records.createdBatches op) := by
  cases before : s.db.batches[i]? with
  | some b =>
    obtain ⟨other,there,moved⟩ := batch_moves step before
    cases found.symm.trans there
    exact .inl ⟨b,rfl,moved⟩
  | none =>
    have outside := List.getElem?_eq_none_iff.mp before
    refine .inr ⟨outside,?_⟩
    have sizes := congrArg List.length (Records.step_submissions step)
    have inside := (List.getElem?_eq_some_iff.mp found).choose
    simp only [List.length_map,List.length_append] at sizes
    cases op with
    | createBatch user inputFile endpoint window lines now =>
      obtain ⟨db,created,rfl⟩ := create_step step
      obtain ⟨_,_,_,_,_,rfl⟩ := createBatch_parts created
      have row : (s.db.batches ++ [newBatch user inputFile endpoint window lines now])[i]? = some next := found
      rw [List.getElem?_append_right outside] at row
      exact List.mem_of_getElem? row
    | _ =>
      simp only [Records.createdBatches,List.length_nil] at sizes
      omega

end Batches

end BatchGateway.RowMoves
