import BatchGateway.Routes

-- A Budget row of zeros and none at all are the same to every operation of the service.
namespace BatchGateway.EmptyRows
open PythonText PythonJson Raising BatchInput BatchOps LabelledRuns

-- Each missing row, as get_or_create_budget would have it.
def filled (db : Db) : Db := {db with budgets := fun user => some (db.getOrCreateBudget user)}

def filledService (s : Service) : Service := {s with db := filled s.db}

variable {codec : Codec} {alpha : ℚ} {defaultMaxTokens : Int} {s r t : Service} {db after : Db}

theorem post_filled (db : Db) (user : UserId) (row : Budget) (entry : LedgerEntry) :
    Ledger.post (filled db) user row entry = filled (Ledger.post db user row entry) := by
  have budgets : (Ledger.post (filled db) user row entry).budgets = (filled (Ledger.post db user row entry)).budgets := by
    funext other
    by_cases same : other = user
    · subst same
      simp [Ledger.post,filled,Db.getOrCreateBudget]
    · simp [Ledger.post,filled,Db.getOrCreateBudget,Function.update_of_ne same]
  exact congrArg (fun rows => {Ledger.post db user row entry with budgets := rows}) budgets

theorem perform_filled (flush : Except Raised Unit) (call : Ledger.Call) (db : Db) :
    Ledger.perform flush call (filled db) = (Ledger.perform flush call db).map filled := by
  have row : (filled db).getOrCreateBudget call.user = db.getOrCreateBudget call.user := rfl
  simp only [Ledger.perform,map_bind,row,post_filled]
  rfl

theorem createBatch_filled (codec : Codec) (user : UserId) (f : FileId) (endpoint window : Str) (lines : List ParsedLine) (now : Instant) (db : Db) :
    BatchOps.createBatch codec user f endpoint window lines now (filled db) =
      (BatchOps.createBatch codec user f endpoint window lines now db).map (fun made => (filled made.1,made.2)) := by
  have rows : addBatch (filled db) (newBatch user f endpoint window lines now) lines =
      filled (addBatch db (newBatch user f endpoint window lines now) lines) := rfl
  simp only [BatchOps.createBatch,rows,perform_filled,bind_map,map_bind]
  rfl

theorem terminateBatch_filled (user : UserId) (batch : BatchId) (terminal : BatchStatus) (note : String) (now : Instant) (db : Db) :
    terminateBatch user batch terminal note now (filled db) = (terminateBatch user batch terminal note now db).map filled := by
  have rows : stopped (tasksToStop db batch) batch terminal now (filled db) = filled (stopped (tasksToStop db batch) batch terminal now db) := rfl
  have chosen : tasksToStop (filled db) batch = tasksToStop db batch := rfl
  unfold terminateBatch terminateSelected
  rw [chosen,rows]
  split
  · exact perform_filled (.ok ()) _ _
  · rfl

theorem cancelBatch_filled (user : UserId) (batch : BatchId) (now : Instant) (db : Db) :
    BatchOps.cancelBatch user batch now (filled db) = (BatchOps.cancelBatch user batch now db).map filled := by
  have owned : getOwnedBatchOr404 (filled db) user batch = getOwnedBatchOr404 db user batch := rfl
  simp only [BatchOps.cancelBatch,owned,terminateBatch_filled,map_bind]

theorem expireBatch_filled (batch : BatchId) (now : Instant) (db : Db) :
    BatchOps.expireBatch batch now (filled db) = (BatchOps.expireBatch batch now db).map filled := by
  have rows : (filled db).batches = db.batches := rfl
  unfold BatchOps.expireBatch
  rw [rows]
  cases db.batches[batch]? with
  | none => rfl
  | some b => simp only [terminateBatch_filled,map_bind]

theorem commitCompleted_filled (task : TaskId) (responseBody : Json) (promptTokens completionTokens : Int) (now : Instant) (db : Db) :
    commitCompleted codec alpha task responseBody promptTokens completionTokens now (filled db) =
      (commitCompleted codec alpha task responseBody promptTokens completionTokens now db).map filled := by
  have tasks : (filled db).tasks = db.tasks := rfl
  have batches : (filled db).batches = db.batches := rfl
  unfold commitCompleted
  rw [tasks,batches]
  cases db.tasks[task]? with
  | none => rfl
  | some row =>
    simp only [map_bind]
    congr 1
    funext _
    congr 1
    funext _
    cases db.batches[row.batchId]? with
    | none => rfl
    | some b =>
      exact perform_filled (.ok ()) _
        {(db.updateTask task (Task.complete responseBody promptTokens completionTokens now)).updateBatch row.batchId
            Batch.countCompleted with
          stat := Eta.updateDispatchStats alpha (Task.complete responseBody promptTokens completionTokens now row) db.stat}

theorem commitFailed_filled (task : TaskId) (error : Str) (now : Instant) (db : Db) :
    commitFailed task error now (filled db) = (commitFailed task error now db).map filled := by
  have tasks : (filled db).tasks = db.tasks := rfl
  have batches : (filled db).batches = db.batches := rfl
  unfold commitFailed
  rw [tasks,batches]
  cases db.tasks[task]? with
  | none => rfl
  | some row =>
    simp only [map_bind]
    congr 1
    funext _
    cases db.batches[row.batchId]? with
    | none => rfl
    | some b =>
      dsimp only
      split
      · exact perform_filled (.ok ()) _ ((db.updateTask task (Task.fail error now)).updateBatch row.batchId Batch.countFailed)
      · rfl

theorem finalizeAfter_filled (codec : Codec) (task : TaskId) (now : Instant) (db : Db) (blobs : Blobs) :
    finalizeAfter codec task now (filled db) blobs =
      (filled (finalizeAfter codec task now db blobs).1,(finalizeAfter codec task now db blobs).2) := by
  have tasks : (filled db).tasks = db.tasks := rfl
  have batches : (filled db).batches = db.batches := rfl
  simp only [finalizeAfter,maybeFinalizeBatch,tasks,batches]
  cases db.tasks[task]? with
  | none => rfl
  | some row =>
    dsimp only
    cases db.batches[row.batchId]? with
    | none => rfl
    | some copy =>
      dsimp only
      split <;> rfl

theorem purgeAll_filled (now : Instant) (rows : List (Batch × BatchId)) (db : Db) (blobs : Blobs) :
    Retention.purgeAll now rows (filled db) blobs =
      (filled (Retention.purgeAll now rows db blobs).1,(Retention.purgeAll now rows db blobs).2) := by
  induction rows generalizing db blobs with
  | nil => rfl
  | cons row rows ih =>
    have first : Retention.purgeBatch now row (filled db) blobs =
        (filled (Retention.purgeBatch now row db blobs).1,(Retention.purgeBatch now row db blobs).2) := rfl
    simp only [Retention.purgeAll,first]
    exact ih _ _

theorem returned_map {ε α β : Type} (f : α → β) (x : Except ε α) : returned (x.map f) = (returned x).map f := by
  cases x <;> rfl

theorem returned_bind {ε α β : Type} (x : Except ε α) (f : α → β) :
    returned (do let a ← x; return f a : Except ε β) = (returned x).map f := by
  cases x <;> rfl

theorem advance_filled (op : Service.Operation) (s : Service) :
    Service.advance codec alpha op (filledService s) = (Service.advance codec alpha op s).map filledService := by
  cases op with
  | grant user tokens note =>
    simp only [Service.advance,filledService,perform_filled,returned_map,Option.map_map]
    rfl
  | createBatch user f endpoint window lines now =>
    simp only [Service.advance,filledService,createBatch_filled,returned_map,Option.map_map]
    rfl
  | completeTask task responseBody promptTokens completionTokens now =>
    simp only [Service.advance,BatchOps.completeTask,filledService,commitCompleted_filled,bind_map,finalizeAfter_filled,returned_bind]
    split
    · simp only [Option.map_map]
      rfl
    · rfl
  | failTask task error now =>
    simp only [Service.advance,BatchOps.failTask,filledService,commitFailed_filled,bind_map,finalizeAfter_filled,returned_bind]
    split
    · simp only [Option.map_map]
      rfl
    · rfl
  | cancelBatch user batch now =>
    simp only [Service.advance,filledService,cancelBatch_filled,returned_map,Option.map_map]
    rfl
  | expireBatch batch now =>
    simp only [Service.advance,filledService,expireBatch_filled,returned_map,Option.map_map]
    rfl
  | purgeExpiredResults retentionDays now =>
    simp only [Service.advance,filledService,Retention.purgeExpiredResults,purgeAll_filled]
    rfl
  | uploadFile => rfl
  | claimAndAssign => rfl
  | applyHealthResults => rfl
  | startup => rfl

theorem raising_map {α β : Type} (f : α → β) (x : Except Raised α) : Routes.raising (x.map f) = (Routes.raising x).map f := by
  cases x <;> rfl

theorem handle_filled (user : UserId) (now : Instant) (request : Routes.Request) (s : Service) :
    Routes.handle codec defaultMaxTokens user now request (filledService s) =
      (Routes.handle codec defaultMaxTokens user now request s).map (fun done => (filledService done.1,done.2)) := by
  have files : ∀ f, getOwnedFileOr404 (filled s.db) user f = getOwnedFileOr404 s.db user f := fun _ => rfl
  have batches : ∀ (db : Db) i, getOwnedBatchOr404 (filled db) user i = getOwnedBatchOr404 db user i := fun _ _ => rfl
  cases request with
  | createFile filename purpose data =>
    simp only [Routes.handle,Routes.createFile,map_bind]
    rfl
  | getFile f =>
    simp only [Routes.handle,Routes.getFile,map_bind]
    rfl
  | getFileContent f =>
    simp only [Routes.handle,Routes.getFileContent,map_bind]
    rfl
  | getBatch i =>
    simp only [Routes.handle,Routes.getBatch,map_bind]
    rfl
  | listBatches limit => rfl
  | createBatch f endpoint window =>
    simp only [Routes.handle,Routes.createBatch,filledService,files,createBatch_filled,raising_map,bind_map,batches,map_bind]
    rfl
  | cancelBatch i =>
    simp only [Routes.handle,Routes.cancelBatch,filledService,cancelBatch_filled,raising_map,bind_map,batches,map_bind]
    rfl

theorem route_filled (action : Routes.Action) (s : Service) : Routes.advance codec alpha defaultMaxTokens action (filledService s) =
    (Routes.advance codec alpha defaultMaxTokens action s).map filledService := by
  cases action with
  | request user request now =>
    simp only [Routes.advance,handle_filled]
    cases Routes.handle codec defaultMaxTokens user now request s <;> rfl
  | background op =>
    simp only [Routes.advance,advance_filled]
    split <;> rfl

-- The same but for rows of zeros.
def Same (s r : Service) : Prop := filledService s = filledService r

-- What can be done in one of two such states can be done in the other, and ends alike.
theorem step_same {action : Routes.Action} (same : Same s r) (step : Routes.Step codec alpha defaultMaxTokens s action t) :
    ∃ after, Routes.Step codec alpha defaultMaxTokens r action after ∧ Same t after := by
  have moved : Routes.advance codec alpha defaultMaxTokens action (filledService r) =
      (Routes.advance codec alpha defaultMaxTokens action r).map filledService := route_filled action r
  rw [← same,route_filled,step] at moved
  obtain ⟨after,step,ended⟩ := Option.map_eq_some_iff.mp moved.symm
  exact ⟨after,step,ended.symm⟩

theorem Same.budget (same : Same s r) (user : UserId) : s.db.getOrCreateBudget user = r.db.getOrCreateBudget user :=
  Option.some.inj (congrFun (congrArg (fun q : Service => q.db.budgets) same) user)

theorem Same.ledger (same : Same s r) : s.db.ledger = r.db.ledger := by
  have whole : filledService s = filledService r := same
  exact congrArg (fun q => q.db.ledger) whole

end BatchGateway.EmptyRows
