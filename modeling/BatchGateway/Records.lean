import BatchGateway.Service

-- What is written once, at submission: no operation changes it or removes it.
namespace BatchGateway.Records
open PythonText PythonJson BatchOps Service LabelledRuns

structure Request where
  batchId : BatchId
  lineIndex : Nat
  customId : Str
  requestBody : Dict
  reservedTokens : Int
  promptTokensEstimate : Int
  maxTokens : Int

def Task.request (t : Task) : Request :=
  ⟨t.batchId,t.lineIndex,t.customId,t.requestBody,t.reservedTokens,t.promptTokensEstimate,t.maxTokens⟩

-- The request and how often its task has been claimed.
def Task.record (t : Task) : Request × Nat := (Task.request t,t.attempts)

structure Submission where
  userId : UserId
  inputFileId : FileId
  reservedTokens : Int
  requestTotal : Nat
  createdAt : Instant

def Batch.submission (b : Batch) : Submission :=
  ⟨b.userId,b.inputFileId,b.reservedTokens,b.requestTotal,b.createdAt⟩

def createdTasks (s : Service) : Operation → List Task
  | .createBatch _ _ _ _ lines _ => lines.map (newTask s.db.batches.length)
  | _ => []

def createdBatches : Operation → List Batch
  | .createBatch user inputFile endpoint window lines now => [newBatch user inputFile endpoint window lines now]
  | _ => []

variable {codec : Codec} {alpha : ℚ} {s t : Service} {op : Operation}

theorem finalized_tables (codec : Codec) (task : TaskId) (now : Instant) (db : Db) (blobs : Blobs) :
    (finalizeAfter codec task now db blobs).1.tasks = db.tasks ∧
    (finalizeAfter codec task now db blobs).1.nodes = db.nodes ∧
    (finalizeAfter codec task now db blobs).1.batches.map Batch.submission = db.batches.map Batch.submission := by
  rcases finalizeAfter_parts codec task now db blobs with same | ⟨t,b,_,_,_,same⟩
  · rw [same]
    exact ⟨rfl,rfl,rfl⟩
  · rw [same]
    exact ⟨rfl,rfl,Rows.map_modify_same fun _ => rfl⟩

theorem stopped_tables (rows : List (Task × TaskId)) (batch : BatchId) (terminal : BatchStatus) (now : Instant)
    (db : Db) :
    (stopped rows batch terminal now db).tasks.map Task.record = db.tasks.map Task.record ∧
    (stopped rows batch terminal now db).batches.map Batch.submission = db.batches.map Batch.submission := by
  refine ⟨Rows.map_mapIdx_same fun i t _ => ?_,Rows.map_modify_same fun b => ?_⟩
  · split <;> rfl
  · cases terminal <;> rfl

theorem terminated_tables {db after : Db} {rows : List (Task × TaskId)} {user : UserId} {batch : BatchId}
    {terminal : BatchStatus} {note : String} {now : Instant}
    (done : terminateSelected rows user batch terminal note now db = .ok after) :
    after.tasks.map Task.record = db.tasks.map Task.record ∧
    after.batches.map Batch.submission = db.batches.map Batch.submission ∧ after.nodes = db.nodes := by
  obtain ⟨tasks,batches⟩ := stopped_tables rows batch terminal now db
  rcases terminateSelected_parts done with ⟨_,rfl⟩ | ⟨_,_,_,_,_,rfl⟩
  · exact ⟨tasks,batches,rfl⟩
  · exact ⟨tasks,batches,rfl⟩

theorem completed_tables {db after : Db} {task : TaskId} {responseBody : Json} {promptTokens completionTokens : Int}
    {now : Instant} (done : commitCompleted codec alpha task responseBody promptTokens completionTokens now db = .ok after) :
    after.tasks.map Task.record = db.tasks.map Task.record ∧
    after.batches.map Batch.submission = db.batches.map Batch.submission ∧ after.nodes = db.nodes := by
  obtain ⟨_,_,_,_,_,_,_,_,_,_,_,rfl⟩ := commitCompleted_parts done
  exact ⟨Rows.map_modify_same fun _ => rfl,Rows.map_modify_same fun _ => rfl,rfl⟩

theorem failed_tables {db after : Db} {task : TaskId} {error : Str} {now : Instant}
    (done : commitFailed task error now db = .ok after) :
    after.tasks.map Task.record = db.tasks.map Task.record ∧
    after.batches.map Batch.submission = db.batches.map Batch.submission ∧ after.nodes = db.nodes := by
  obtain ⟨_,_,_,_,⟨_,rfl⟩ | ⟨_,_,_,_,_,rfl⟩⟩ := commitFailed_parts done
  · exact ⟨Rows.map_modify_same fun _ => rfl,Rows.map_modify_same fun _ => rfl,rfl⟩
  · exact ⟨Rows.map_modify_same fun _ => rfl,Rows.map_modify_same fun _ => rfl,rfl⟩

theorem started_requests (load : Dispatcher.InFlight) (now : Instant) (db : Db) :
    (Dispatcher.claimAndAssign load now db).1.tasks.map Task.request = db.tasks.map Task.request := by
  refine Rows.map_mapIdx_same fun i t _ => ?_
  rcases Dispatcher.startTask_cases (Dispatcher.assignments load db) now i t with same | ⟨node,same⟩
  · rw [same]
  · rw [same]
    rfl

theorem recovered_records (nodes : List Dispatcher.NodeConfig) (db : Db) :
    (Dispatcher.startup nodes db).tasks.map Task.record = db.tasks.map Task.record := by
  change (db.tasks.map Dispatcher.Task.recover).map Task.record = db.tasks.map Task.record
  rw [List.map_map]
  apply List.map_congr_left
  intro t _
  simp only [Function.comp_apply,Dispatcher.Task.recover]
  split <;> rfl

-- Everything but a claim pass.
theorem step_records (step : Step codec alpha s op t) (other : ∀ load now, op ≠ .claimAndAssign load now) :
    t.db.tasks.map Task.record = s.db.tasks.map Task.record ++ (createdTasks s op).map Task.record := by
  cases op with
  | grant =>
    obtain ⟨_,rfl⟩ := grant_posts step
    exact (List.append_nil _).symm
  | createBatch user inputFile endpoint window lines now =>
    obtain ⟨db,created,rfl⟩ := create_step step
    obtain ⟨_,_,_,_,_,rfl⟩ := createBatch_parts created
    exact List.map_append
  | claimAndAssign load now => exact absurd rfl (other load now)
  | completeTask task responseBody promptTokens completionTokens now =>
    obtain ⟨_,db,committed,rfl⟩ := complete_step step
    have final := finalized_tables codec task now db s.blobs
    simp only [createdTasks,List.map_nil,List.append_nil,final.1,completed_tables committed]
  | failTask task error now =>
    obtain ⟨_,db,committed,rfl⟩ := fail_step step
    have final := finalized_tables codec task now db s.blobs
    simp only [createdTasks,List.map_nil,List.append_nil,final.1,failed_tables committed]
  | cancelBatch =>
    obtain ⟨b,db,_,_,_,done,rfl⟩ := cancel_step step
    simp only [createdTasks,List.map_nil,List.append_nil,terminated_tables done]
  | expireBatch =>
    obtain ⟨b,db,_,_,done,rfl⟩ := expire_step step
    simp only [createdTasks,List.map_nil,List.append_nil,terminated_tables done]
  | purgeExpiredResults retentionDays now =>
    obtain ⟨_,_,tasks,_⟩ := purge_step step
    simp only [tasks,createdTasks,List.map_nil,List.append_nil]
  | startup nodes =>
    cases step
    simp only [recovered_records,createdTasks,List.map_nil,List.append_nil]
  | uploadFile => cases step; exact (List.append_nil _).symm
  | applyHealthResults => cases step; exact (List.append_nil _).symm

def settles : Operation → Option TaskId
  | .completeTask task _ _ _ _ => some task
  | .failTask task _ _ => some task
  | _ => none

-- A row that is not live is written only by a settlement of its own task.
theorem dead_stays (step : Step codec alpha s op t) {i : TaskId} {row : Task} (found : s.db.tasks[i]? = some row)
    (dead : row.live = false) (apart : ∀ task, settles op = some task → task ≠ i) : t.db.tasks[i]? = some row := by
  have stays : ∀ {batch user terminal note now db}, terminateBatch user batch terminal note now s.db = .ok db →
      db.tasks[i]? = some row := by
    intro batch user terminal note now db done
    have tasks : (stopped (tasksToStop s.db batch) batch terminal now s.db).tasks[i]? = some row := by
      change (stopTasks ((tasksToStop s.db batch).map Prod.snd) now s.db.tasks)[i]? = some row
      rw [stopTasks_live,List.getElem?_map,found,Option.map_some]
      simp [dead]
    rcases terminateSelected_parts done with ⟨_,rfl⟩ | ⟨_,_,_,_,_,rfl⟩
    · exact tasks
    · exact tasks
  cases op with
  | grant =>
    obtain ⟨_,rfl⟩ := grant_posts step
    exact found
  | createBatch user inputFile endpoint window lines now =>
    obtain ⟨db,created,rfl⟩ := create_step step
    obtain ⟨_,_,_,_,_,rfl⟩ := createBatch_parts created
    change (s.db.tasks ++ lines.map (newTask s.db.batches.length))[i]? = some row
    rw [List.getElem?_append_left (List.getElem?_eq_some_iff.mp found).choose,found]
  | claimAndAssign load now =>
    cases step
    rcases Dispatcher.startTasks_parts load now s.db found with ⟨_,same⟩ | ⟨_,waiting,_⟩
    · exact same
    · simp [Task.live,TaskStatus.live,waiting] at dead
  | completeTask task responseBody promptTokens completionTokens now =>
    obtain ⟨_,db,committed,rfl⟩ := complete_step step
    obtain ⟨_,_,_,_,_,_,_,_,_,_,_,rfl⟩ := commitCompleted_parts committed
    rw [(finalized_tables codec task now _ s.blobs).1]
    exact (Rows.getElem?_modify_other (apart task rfl) _).trans found
  | failTask task error now =>
    obtain ⟨_,db,committed,rfl⟩ := fail_step step
    rw [(finalized_tables codec task now db s.blobs).1]
    obtain ⟨_,_,_,_,⟨_,rfl⟩ | ⟨_,_,_,_,_,rfl⟩⟩ := commitFailed_parts committed
    · exact (Rows.getElem?_modify_other (apart task rfl) _).trans found
    · exact (Rows.getElem?_modify_other (apart task rfl) _).trans found
  | cancelBatch =>
    obtain ⟨b,db,_,_,_,done,rfl⟩ := cancel_step step
    exact stays done
  | expireBatch =>
    obtain ⟨b,db,_,_,done,rfl⟩ := expire_step step
    exact stays done
  | purgeExpiredResults retentionDays now =>
    obtain ⟨_,_,tasks,_⟩ := purge_step step
    rw [tasks,found]
  | startup nodes =>
    cases step
    change (s.db.tasks.map Dispatcher.Task.recover)[i]? = some row
    rw [List.getElem?_map,found,Option.map_some,Dispatcher.Task.recover,if_neg]
    intro running
    simp [Task.live,TaskStatus.live,running] at dead
  | uploadFile => cases step; exact found
  | applyHealthResults => cases step; exact found

theorem step_requests (step : Step codec alpha s op t) :
    t.db.tasks.map Task.request = s.db.tasks.map Task.request ++ (createdTasks s op).map Task.request := by
  by_cases claims : ∃ load now, op = .claimAndAssign load now
  · obtain ⟨load,now,rfl⟩ := claims
    cases step
    exact (started_requests load now s.db).trans (List.append_nil _).symm
  · have records := step_records step fun load now same => claims ⟨load,now,same⟩
    have first := congrArg (List.map Prod.fst) records
    simpa [Function.comp_def,Task.record] using first

theorem step_submissions (step : Step codec alpha s op t) :
    t.db.batches.map Batch.submission =
      s.db.batches.map Batch.submission ++ (createdBatches op).map Batch.submission := by
  cases op with
  | grant =>
    obtain ⟨_,rfl⟩ := grant_posts step
    exact (List.append_nil _).symm
  | createBatch user inputFile endpoint window lines now =>
    obtain ⟨db,created,rfl⟩ := create_step step
    obtain ⟨_,_,_,_,_,rfl⟩ := createBatch_parts created
    exact List.map_append
  | completeTask task responseBody promptTokens completionTokens now =>
    obtain ⟨_,db,committed,rfl⟩ := complete_step step
    have final := finalized_tables codec task now db s.blobs
    simp only [createdBatches,List.map_nil,List.append_nil,final.2.2,completed_tables committed]
  | failTask task error now =>
    obtain ⟨_,db,committed,rfl⟩ := fail_step step
    have final := finalized_tables codec task now db s.blobs
    simp only [createdBatches,List.map_nil,List.append_nil,final.2.2,failed_tables committed]
  | cancelBatch =>
    obtain ⟨b,db,_,_,_,done,rfl⟩ := cancel_step step
    simp only [createdBatches,List.map_nil,List.append_nil,terminated_tables done]
  | expireBatch =>
    obtain ⟨b,db,_,_,done,rfl⟩ := expire_step step
    simp only [createdBatches,List.map_nil,List.append_nil,terminated_tables done]
  | purgeExpiredResults retentionDays now =>
    cases step
    have column := Retention.purgeAll_column Batch.submission now (fun _ => rfl)
      (s.db.batches.zipIdx.filter (fun row => Retention.purgeDue retentionDays now row.1)) s.db s.blobs
    exact column.trans (List.append_nil _).symm
  | uploadFile => cases step; exact (List.append_nil _).symm
  | claimAndAssign => cases step; exact (List.append_nil _).symm
  | applyHealthResults => cases step; exact (List.append_nil _).symm
  | startup => cases step; exact (List.append_nil _).symm

-- Every task belongs to a batch, and no two nodes share a name.
structure Linked (db : Db) : Prop where
  owned : ∀ t ∈ db.tasks, t.batchId < db.batches.length
  nodes : (db.nodes.map Node.name).Nodup

theorem linked_tasks (valid : Linked s.db) (step : Step codec alpha s op t) {row : Task} (member : row ∈ t.db.tasks) :
    row.batchId < t.db.batches.length := by
  have batches := congrArg List.length (step_submissions step)
  simp only [List.length_map,List.length_append] at batches
  have listed : Task.request row ∈ t.db.tasks.map Task.request := List.mem_map_of_mem member
  rw [step_requests step,← List.map_append] at listed
  obtain ⟨old,old_listed,same⟩ := List.mem_map.mp listed
  have batch : old.batchId = row.batchId := congrArg Request.batchId same
  rw [← batch]
  rcases List.mem_append.mp old_listed with before | created
  · exact Nat.lt_of_lt_of_le (valid.owned old before) (by omega)
  · cases op with
    | createBatch user inputFile endpoint window lines now =>
      obtain ⟨p,_,rfl⟩ := List.mem_map.mp created
      simp only [createdBatches,List.length_cons,List.length_nil] at batches
      exact Nat.lt_of_lt_of_eq (Nat.lt_succ_self _) batches.symm
    | _ => cases created

theorem linked_preserved (valid : Linked s.db) (step : Step codec alpha s op t) : Linked t.db := by
  refine ⟨fun row member => linked_tasks valid step member,?_⟩
  cases op with
  | grant =>
    obtain ⟨_,rfl⟩ := grant_posts step
    exact valid.nodes
  | createBatch =>
    obtain ⟨db,created,rfl⟩ := create_step step
    obtain ⟨_,_,_,_,_,rfl⟩ := createBatch_parts created
    exact valid.nodes
  | completeTask task responseBody promptTokens completionTokens now =>
    obtain ⟨_,db,committed,rfl⟩ := complete_step step
    have final := finalized_tables codec task now db s.blobs
    simp only [final.2.1,completed_tables committed]
    exact valid.nodes
  | failTask task error now =>
    obtain ⟨_,db,committed,rfl⟩ := fail_step step
    have final := finalized_tables codec task now db s.blobs
    simp only [final.2.1,failed_tables committed]
    exact valid.nodes
  | cancelBatch =>
    obtain ⟨b,db,_,_,_,done,rfl⟩ := cancel_step step
    simp only [terminated_tables done]
    exact valid.nodes
  | expireBatch =>
    obtain ⟨b,db,_,_,done,rfl⟩ := expire_step step
    simp only [terminated_tables done]
    exact valid.nodes
  | purgeExpiredResults retentionDays now =>
    obtain ⟨_,_,_,nodes⟩ := purge_step step
    simp only [nodes]
    exact valid.nodes
  | applyHealthResults threshold results =>
    cases step
    exact (Dispatcher.health_names threshold results s.db.nodes) ▸ valid.nodes
  | startup nodes => cases step; exact Dispatcher.sync_distinct nodes valid.nodes
  | uploadFile => cases step; exact valid.nodes
  | claimAndAssign => cases step; exact valid.nodes

theorem initial_linked : Linked ({} : Service).db := by
  refine ⟨?_,by simp⟩
  intro t member
  cases member

theorem run_linked {operations : List Operation} (path : Run (Step codec alpha) {} operations s) : Linked s.db :=
  path.preserves (I := fun s => Linked s.db) initial_linked (fun _ _ _ valid step => linked_preserved valid step)

-- A later state has every row of an earlier one, with the same submission data.
structure Extends (s t : Service) : Prop where
  requests : s.db.tasks.map Task.request <+: t.db.tasks.map Task.request
  submissions : s.db.batches.map Batch.submission <+: t.db.batches.map Batch.submission

theorem Extends.refl (s : Service) : Extends s s := ⟨List.prefix_rfl,List.prefix_rfl⟩

theorem Extends.trans {r : Service} (first : Extends s t) (second : Extends t r) : Extends s r :=
  ⟨first.requests.trans second.requests,first.submissions.trans second.submissions⟩

theorem run_extends {operations : List Operation} (path : Run (Step codec alpha) s operations t) : Extends s t :=
  path.relates Extends.refl (fun _ _ _ => Extends.trans) fun _ _ _ step =>
    ⟨step_requests step ▸ List.prefix_append _ _,step_submissions step ▸ List.prefix_append _ _⟩

theorem Extends.task (kept : Extends s t) {i : TaskId} {row : Task} (found : s.db.tasks[i]? = some row) :
    ∃ later, t.db.tasks[i]? = some later ∧ Task.request later = Task.request row := by
  have listed : (s.db.tasks.map Task.request)[i]? = some (Task.request row) := by simp [found]
  obtain ⟨rest,same⟩ := kept.requests
  have inside := (List.getElem?_eq_some_iff.mp listed).choose
  have there : (t.db.tasks.map Task.request)[i]? = some (Task.request row) := by
    rw [← same,List.getElem?_append_left inside,listed]
  rw [List.getElem?_map] at there
  exact Option.map_eq_some_iff.mp there

end BatchGateway.Records
