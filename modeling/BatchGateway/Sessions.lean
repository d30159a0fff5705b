import BatchGateway.ResultFiles

-- The service at the granularity of database reads and commits. Each request or
-- worker has a session of its own; with expire_on_commit=False a row that it has
-- loaded is not read again, and an UPDATE writes the changed columns by key.
namespace BatchGateway.Sessions
open PythonText PythonJson Raising BatchOps Service LabelledRuns

-- A termination after its SELECT of the tasks to stop.
structure Termination where
  rows : List (Task × TaskId)
  batch : BatchId
  copy : Batch
  terminal : BatchStatus
  note : String
  now : Instant

inductive Session where
  -- complete_task or fail_task after its first commit, with its own copies
  | settled (task : TaskId) (own : Task) (batch : BatchId) (copy : Batch)
  -- a cancel request whose copy of the batch row was cancellable
  | cancelling (batch : BatchId) (copy : Batch)
  -- expire_overdue_batches with the rows still to do
  | expiring (rows : List (Batch × BatchId))
  | terminating (termination : Termination) (rest : List (Batch × BatchId))
  | closed

structure World where
  service : Service := {}
  sessions : List Session := []

-- What a settlement reports to its sink.
inductive Sink where
  | complete (responseBody : Json) (promptTokens completionTokens : Int)
  | fail (error : Str)

def Sink.commit (codec : Codec) (alpha : ℚ) (task : TaskId) (now : Instant) : Sink → Db → Except Raised Db
  | .complete responseBody promptTokens completionTokens, db =>
    commitCompleted codec alpha task responseBody promptTokens completionTokens now db
  | .fail error, db => commitFailed task error now db

def Sink.outcome : Sink → TaskStatus
  | .complete _ _ _ => .completed
  | .fail _ => .failed

def Sink.settle (now : Instant) : Sink → Task → Task
  | .complete responseBody promptTokens completionTokens, t => Task.complete responseBody promptTokens completionTokens now t
  | .fail error, t => Task.fail error now t

-- Whether the flush of the settled row goes through.
def Sink.stores (codec : Codec) (now : Instant) (t : Task) : Sink → Bool
  | .complete responseBody promptTokens completionTokens =>
    PythonJson.stores codec responseBody && (Task.complete responseBody promptTokens completionTokens now t).fits
  | .fail error => (encode error).isSome

-- `batch.request_completed += 1` or `batch.request_failed += 1`
def Sink.count : Sink → Batch → Batch
  | .complete _ _ _, b => Batch.countCompleted b
  | .fail _, b => Batch.countFailed b

inductive Action where
  | operation (op : Operation)
  | settle (task : TaskId) (sink : Sink) (now : Instant)
  | finalize (id : Nat) (now : Instant)
  | readBatch (user : UserId) (batch : BatchId)
  | readOverdue (now : Instant)
  | selectTasks (id : Nat) (now : Instant)
  | terminate (id : Nat)
  -- an exception before a settlement's first commit, or in any open session
  | lose (task : TaskId)
  | abandon (id : Nat)
  -- the process dies, and the next one runs Dispatcher.startup
  | restart (nodes : List Dispatcher.NodeConfig)

-- The operations with a single commit that neither settle nor stop a batch.
def oneCommit : Operation → Bool
  | .grant _ _ _ | .uploadFile _ _ _ _ | .createBatch _ _ _ _ _ _ | .claimAndAssign _ _ | .applyHealthResults _ _ => true
  | _ => false

-- The rows of the finalization's SELECT; the session keeps its own task object.
def sessionRows (task : TaskId) (own : Task) (batch : BatchId) (db : Db) : List (Task × TaskId) :=
  byLineIndex ((db.updateTask task (fun _ => own)).batchTasks batch)

-- The copies of the rows a settlement has just committed.
def settledSession (task : TaskId) (db : Db) : Option Session := do
  let own ← db.tasks[task]?
  let copy ← db.batches[own.batchId]?
  return .settled task own own.batchId copy

-- expire_batch tests its copy before the SELECT of the tasks, as cancel_batch did.
def beginTermination (now : Instant) (db : Db) : Session → Option Session
  | .cancelling batch copy =>
    some (.terminating ⟨tasksToStop db batch,batch,copy,.cancelled,"batch cancelled",now⟩ [])
  | .expiring ((copy,batch) :: rest) =>
    if cancellable copy.status then
      some (.terminating ⟨tasksToStop db batch,batch,copy,.expired,"batch expired",now⟩ rest)
    else none
  | _ => none

def resume : List (Batch × BatchId) → Session
  | [] => .closed
  | rows => .expiring rows

def Termination.commit (t : Termination) (db : Db) : Except Raised Db :=
  terminateSelected t.rows t.copy.userId t.batch t.terminal t.note t.now db

variable (codec : Codec) (alpha : ℚ)

def finalizeSession (now : Instant) (w : World) (id : Nat) : Session → Option World
  | .settled task own batch copy =>
    if shouldFinalize copy then
      let final := finalizeRows codec copy (sessionRows task own batch w.service.db) batch now w.service.db w.service.blobs
      some {service := {w.service with db := final.1,blobs := final.2},sessions := w.sessions.set id .closed}
    else some {w with sessions := w.sessions.set id .closed}
  | _ => none

def advance : Action → World → Option World
  | .operation op, w =>
    if oneCommit op then (Service.advance codec alpha op w.service).map (fun s => {w with service := s}) else none
  | .settle task sink now, w =>
    if task ∈ w.service.inFlight then do
      let db ← returned (sink.commit codec alpha task now w.service.db)
      let session ← settledSession task db
      return {service := {w.service with db := db,inFlight := w.service.inFlight.erase task}
              sessions := w.sessions ++ [session]}
    else none
  | .finalize id now, w => w.sessions[id]?.bind (finalizeSession codec now w id)
  | .readBatch user batch, w => do
    let copy ← returned (getOwnedBatchOr404 w.service.db user batch)
    if cancellable copy.status then return {w with sessions := w.sessions ++ [.cancelling batch copy]} else none
  | .readOverdue now, w =>
    some {w with sessions := w.sessions ++ [.expiring (Retention.overdueBatches now w.service.db)]}
  | .selectTasks id now, w => do
    let session ← w.sessions[id]?
    let selected ← beginTermination now w.service.db session
    return {w with sessions := w.sessions.set id selected}
  | .terminate id, w =>
    match w.sessions[id]? with
    | some (.terminating t rest) =>
      (returned (t.commit w.service.db)).map (fun db =>
        {service := {w.service with db := db},sessions := w.sessions.set id (resume rest)})
    | _ => none
  | .lose task, w => some {w with service := {w.service with inFlight := w.service.inFlight.erase task}}
  | .abandon id, w => some {w with sessions := w.sessions.set id .closed}
  | .restart nodes, w =>
    some {service := {w.service with db := Dispatcher.startup nodes w.service.db,inFlight := []},sessions := []}

def Step (w : World) (a : Action) (x : World) : Prop := advance codec alpha a w = some x

variable {codec alpha} {w x : World}

theorem operation_step {op : Operation} (step : Step codec alpha w (.operation op) x) :
    oneCommit op = true ∧ ∃ s, Service.Step codec alpha w.service op s ∧ x = {w with service := s} := by
  simp only [Step,advance] at step
  split at step
  · rename_i single
    obtain ⟨s,done,rfl⟩ := Option.map_eq_some_iff.mp step
    exact ⟨single,s,done,rfl⟩
  · cases step

theorem settle_step {task : TaskId} {sink : Sink} {now : Instant} (step : Step codec alpha w (.settle task sink now) x) :
    task ∈ w.service.inFlight ∧ ∃ db own copy, sink.commit codec alpha task now w.service.db = .ok db ∧
      db.tasks[task]? = some own ∧ db.batches[own.batchId]? = some copy ∧
      x = {service := {w.service with db := db,inFlight := w.service.inFlight.erase task}
           sessions := w.sessions ++ [.settled task own own.batchId copy]} := by
  simp only [Step,advance] at step
  split at step
  · rename_i flying
    obtain ⟨db,done,step⟩ := Option.bind_eq_some_iff.mp step
    obtain ⟨session,kept,step⟩ := Option.bind_eq_some_iff.mp step
    obtain ⟨own,found,kept⟩ := Option.bind_eq_some_iff.mp kept
    obtain ⟨copy,owned,kept⟩ := Option.bind_eq_some_iff.mp kept
    cases kept
    cases step
    exact ⟨flying,db,own,copy,returned_some.mp done,found,owned,rfl⟩
  · cases step

theorem finalize_step {id : Nat} {now : Instant} (step : Step codec alpha w (.finalize id now) x) :
    ∃ task own batch copy, w.sessions[id]? = some (.settled task own batch copy) ∧
      x.sessions = w.sessions.set id .closed ∧
      ((shouldFinalize copy = false ∧ x.service = w.service) ∨
       (shouldFinalize copy = true ∧ ∃ final, x.service = {w.service with db := final.1,blobs := final.2} ∧
        final = finalizeRows codec copy (sessionRows task own batch w.service.db) batch now w.service.db
          w.service.blobs)) := by
  simp only [Step,advance] at step
  obtain ⟨session,found,step⟩ := Option.bind_eq_some_iff.mp step
  cases session with
  | settled task own batch copy =>
    refine ⟨task,own,batch,copy,found,?_⟩
    simp only [finalizeSession] at step
    split at step
    · rename_i due
      cases step
      exact ⟨rfl,.inr ⟨due,_,rfl,rfl⟩⟩
    · rename_i early
      cases step
      exact ⟨rfl,.inl ⟨by simpa using early,rfl⟩⟩
  | cancelling => cases step
  | expiring => cases step
  | terminating => cases step
  | closed => cases step

theorem readBatch_step {user : UserId} {batch : BatchId} (step : Step codec alpha w (.readBatch user batch) x) :
    ∃ copy, w.service.db.batches[batch]? = some copy ∧ cancellable copy.status = true ∧
      x = {w with sessions := w.sessions ++ [.cancelling batch copy]} := by
  simp only [Step,advance] at step
  obtain ⟨copy,owned,step⟩ := Option.bind_eq_some_iff.mp step
  rw [returned_some] at owned
  unfold getOwnedBatchOr404 at owned
  split at owned
  · rename_i b found
    split at owned
    · cases owned
      split at step
      · rename_i allowed
        cases step
        exact ⟨copy,found,allowed,rfl⟩
      · cases step
    · cases owned
  · cases owned

theorem selectTasks_step {id : Nat} {now : Instant} (step : Step codec alpha w (.selectTasks id now) x) :
    ∃ session selected, w.sessions[id]? = some session ∧ beginTermination now w.service.db session = some selected ∧
      x = {w with sessions := w.sessions.set id selected} := by
  simp only [Step,advance] at step
  obtain ⟨session,found,step⟩ := Option.bind_eq_some_iff.mp step
  obtain ⟨selected,begun,step⟩ := Option.bind_eq_some_iff.mp step
  cases step
  exact ⟨session,selected,found,begun,rfl⟩

theorem beginTermination_parts {now : Instant} {db : Db} {session selected : Session}
    (begun : beginTermination now db session = some selected) :
    ∃ t rest, selected = .terminating t rest ∧ t.now = now ∧ t.rows = tasksToStop db t.batch ∧
      ((session = .cancelling t.batch t.copy ∧ t.terminal = .cancelled ∧ rest = []) ∨
       (session = .expiring ((t.copy,t.batch) :: rest) ∧ cancellable t.copy.status = true ∧ t.terminal = .expired)) := by
  cases session with
  | cancelling batch copy =>
    cases begun
    exact ⟨_,_,rfl,rfl,rfl,.inl ⟨rfl,rfl,rfl⟩⟩
  | expiring rows =>
    cases rows with
    | nil => cases begun
    | cons row rest =>
      simp only [beginTermination] at begun
      split at begun
      · rename_i allowed
        cases begun
        exact ⟨_,_,rfl,rfl,rfl,.inr ⟨rfl,allowed,rfl⟩⟩
      · cases begun
  | settled => cases begun
  | terminating => cases begun
  | closed => cases begun

theorem terminate_step {id : Nat} (step : Step codec alpha w (.terminate id) x) :
    ∃ t rest db, w.sessions[id]? = some (.terminating t rest) ∧ t.commit w.service.db = .ok db ∧
      x = {service := {w.service with db := db},sessions := w.sessions.set id (resume rest)} := by
  simp only [Step,advance] at step
  split at step
  · rename_i t rest found
    obtain ⟨db,done,rfl⟩ := Option.map_eq_some_iff.mp step
    exact ⟨t,rest,db,found,returned_some.mp done,rfl⟩
  · cases step

-- What such an operation does to the table of batches.
theorem oneCommit_batches {s t : Service} {op : Operation} (single : oneCommit op = true)
    (step : Service.Step codec alpha s op t) :
    t.db.batches = s.db.batches ∨ ∃ user inputFile endpoint window lines now, 0 < totalReserve lines ∧
      t.db.batches = s.db.batches ++ [newBatch user inputFile endpoint window lines now] := by
  cases op with
  | grant =>
    obtain ⟨_,rfl⟩ := grant_posts step
    exact .inl rfl
  | createBatch user inputFile endpoint window lines now =>
    obtain ⟨db,created,rfl⟩ := create_step step
    obtain ⟨_,positive,_,_,_,rfl⟩ := createBatch_parts created
    exact .inr ⟨user,inputFile,endpoint,window,lines,now,positive,rfl⟩
  | uploadFile => cases step; exact .inl rfl
  | claimAndAssign => cases step; exact .inl rfl
  | applyHealthResults => cases step; exact .inl rfl
  | completeTask => cases single
  | failTask => cases single
  | cancelBatch => cases single
  | expireBatch => cases single
  | purgeExpiredResults => cases single
  | startup => cases single

-- The tables after a settlement's first commit.
theorem commit_parts {task : TaskId} {sink : Sink} {now : Instant} {db after : Db}
    (done : sink.commit codec alpha task now db = .ok after) : ∃ t, db.tasks[task]? = some t ∧
      after.tasks = db.tasks.modify task (sink.settle now) ∧ after.batches = db.batches.modify t.batchId sink.count ∧
      after.files = db.files := by
  cases sink with
  | complete responseBody promptTokens completionTokens =>
    obtain ⟨t,_,_,_,_,found,_,_,_,_,_,rfl⟩ := commitCompleted_parts done
    exact ⟨t,found,rfl,rfl,rfl⟩
  | fail error =>
    obtain ⟨t,_,found,_,⟨_,rfl⟩ | ⟨_,_,_,_,_,rfl⟩⟩ := commitFailed_parts done
    · exact ⟨t,found,rfl,rfl,rfl⟩
    · exact ⟨t,found,rfl,rfl,rfl⟩

theorem settle_owner (now : Instant) (sink : Sink) (t : Task) : (sink.settle now t).batchId = t.batchId := by
  cases sink <;> rfl

theorem settle_ends (sink : Sink) (now : Instant) (t : Task) : Counters.settled (sink.settle now t) = true := by
  cases sink <;> rfl

theorem sink_progress {db after : Db} {flights : List TaskId} {task : TaskId} {sink : Sink} {now : Instant}
    (valid : Counters.Progress db flights) (flying : task ∈ flights) (done : sink.commit codec alpha task now db = .ok after) :
    Counters.Progress after (flights.erase task) := by
  cases sink with
  | complete responseBody promptTokens completionTokens => exact Counters.progress_completed valid flying done
  | fail error => exact Counters.progress_failed valid flying done

theorem count_status (sink : Sink) (b : Batch) : (sink.count b).status = b.status := by
  cases sink <;> rfl

-- The rows that a settlement's session holds after its commit.
theorem commit_rows {task : TaskId} {sink : Sink} {now : Instant} {db after : Db}
    (done : sink.commit codec alpha task now db = .ok after) :
    ∃ own copy, after.tasks[task]? = some own ∧ after.batches[own.batchId]? = some copy := by
  have owned : ∃ t b, db.tasks[task]? = some t ∧ db.batches[t.batchId]? = some b := by
    cases sink with
    | complete =>
      obtain ⟨t,b,_,found,owned,_⟩ := commitCompleted_performs done
      exact ⟨t,b,found,owned⟩
    | fail =>
      obtain ⟨t,b,found,owned,_⟩ := commitFailed_performs done
      exact ⟨t,b,found,owned⟩
  obtain ⟨t,b,found,owned⟩ := owned
  obtain ⟨u,there,tasks,batches,_⟩ := commit_parts done
  cases found.symm.trans there
  refine ⟨sink.settle now t,sink.count b,?_,?_⟩
  · rw [tasks]
    exact Rows.getElem?_modify_self found _
  · rw [batches,settle_owner]
    exact Rows.getElem?_modify_self owned _

-- A copy that a session holds for its task is the row of the table.
theorem sessionRows_own {db : Db} {task : TaskId} {own : Task} (found : db.tasks[task]? = some own) (batch : BatchId) :
    sessionRows task own batch db = ResultFiles.rowsOf db batch := by
  have same : db.updateTask task (fun _ => own) = db := by
    have kept : db.tasks.modify task (fun _ => own) = db.tasks := by
      refine List.ext_getElem? fun i => ?_
      by_cases mine : task = i
      · subst mine
        exact (Rows.getElem?_modify_self found _).trans found.symm
      · exact Rows.getElem?_modify_other mine _
    simp only [Db.updateTask,kept]
  rw [sessionRows,same]
  rfl

-- The operation that a settlement is when its two commits follow each other.
def Sink.operation (task : TaskId) (now : Instant) : Sink → Operation
  | .complete responseBody promptTokens completionTokens =>
    .completeTask task responseBody promptTokens completionTokens now
  | .fail error => .failTask task error now

theorem operation_parts {s t : Service} {task : TaskId} {sink : Sink} {now : Instant}
    (step : Service.Step codec alpha s (sink.operation task now) t) :
    task ∈ s.inFlight ∧ ∃ db, sink.commit codec alpha task now s.db = .ok db ∧
      t = ⟨(finalizeAfter codec task now db s.blobs).1,(finalizeAfter codec task now db s.blobs).2,
        s.inFlight.erase task⟩ := by
  cases sink with
  | complete => exact complete_step step
  | fail => exact fail_step step

-- So the sessions can do all that the whole operations do.
theorem settlement_whole {s t : Service} {sessions : List Session} {task : TaskId} {sink : Sink} {now : Instant}
    (step : Service.Step codec alpha s (sink.operation task now) t) :
    Run (Step codec alpha) ⟨s,sessions⟩ [.settle task sink now,.finalize sessions.length now]
      ⟨t,sessions ++ [.closed]⟩ := by
  obtain ⟨flying,db,done,rfl⟩ := operation_parts step
  obtain ⟨own,copy,there,owned⟩ := commit_rows done
  have settles : Step codec alpha ⟨s,sessions⟩ (.settle task sink now)
      ⟨{s with db := db,inFlight := s.inFlight.erase task},sessions ++ [.settled task own own.batchId copy]⟩ := by
    simp only [Step,advance,flying,if_true,done,returned,settledSession,there,owned,bind,Option.bind]
    rfl
  have final : finalizeAfter codec task now db s.blobs =
      if shouldFinalize copy then finalizeBatch codec copy own.batchId now db s.blobs else (db,s.blobs) := by
    simp only [finalizeAfter,there,maybeFinalizeBatch,owned]
  refine (Run.single settles).append (Run.single ?_)
  have last : (sessions ++ [Session.settled task own own.batchId copy])[sessions.length]? =
      some (.settled task own own.batchId copy) := by simp
  have closed : (sessions ++ [Session.settled task own own.batchId copy]).set sessions.length .closed = sessions ++ [.closed] := by
    simp
  simp only [Step,advance,last,Option.bind_some,finalizeSession,sessionRows_own there,closed,final]
  split
  · rfl
  · rfl

end BatchGateway.Sessions
