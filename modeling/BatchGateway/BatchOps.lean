import BatchGateway.BatchInput
import BatchGateway.Eta
import BatchGateway.Ledger
import Mathlib.Data.List.Sort

namespace BatchGateway.BatchOps
open PythonText PythonJson Raising BatchInput

def supportedEndpoint : Str := text "/v1/chat/completions"

-- _CANCELLABLE_STATUSES
def cancellable : BatchStatus → Bool
  | .validating | .inProgress => true
  | _ => false

-- The blob directory, by file number.
abbrev Blobs := FileId → Option Bytes

def writeBlob (blobs : Blobs) (file : FileId) (data : Bytes) : Blobs := Function.update blobs file (some data)

def getOwnedFileOr404 (db : Db) (user : UserId) (file : FileId) : Except Raised FileObject :=
  match (db.files[file]?).join with
  | some f => if f.userId = user then .ok f else .error (.notFound "No such file.")
  | none => .error (.notFound "No such file.")

def getOwnedBatchOr404 (db : Db) (user : UserId) (batch : BatchId) : Except Raised Batch :=
  match db.batches[batch]? with
  | some b => if b.userId = user then .ok b else .error (.notFound "No such batch.")
  | none => .error (.notFound "No such batch.")

def newTask (batchId : BatchId) (p : ParsedLine) : Task where
  batchId := batchId
  lineIndex := p.lineIndex
  customId := p.customId
  requestBody := p.body
  reservedTokens := p.reservedTokens
  promptTokensEstimate := p.promptTokens
  maxTokens := p.maxTokens

def totalReserve (lines : List ParsedLine) : Int := (lines.map ParsedLine.reservedTokens).sum

def newBatch (user : UserId) (inputFile : FileId) (endpoint completionWindow : Str) (lines : List ParsedLine)
    (now : Instant) : Batch where
  userId := user
  inputFileId := inputFile
  endpoint := endpoint
  completionWindow := completionWindow
  status := .inProgress
  reservedTokens := totalReserve lines
  requestTotal := lines.length
  createdAt := now
  inProgressAt := some now
  expiresAt := if completionWindow = text "24h" then some (now + hours 24) else none

-- The rows db.add put into the session.
def addBatch (db : Db) (batch : Batch) (lines : List ParsedLine) : Db :=
  {db with
    batches := db.batches ++ [batch]
    tasks := db.tasks ++ lines.map (newTask db.batches.length)}

-- Binding the parameters of a row, its texts before its numbers. A text that UTF-8 cannot
-- hold raises.
def bindBatch (batch : Batch) : Except Raised Unit := do
  require ((encode batch.endpoint).isSome && (encode batch.completionWindow).isSome) .unicodeEncodeError
  require (fitsInteger batch.reservedTokens) .overflowError

def bindTask (p : ParsedLine) : Except Raised Unit := do
  require (encode p.customId).isSome .unicodeEncodeError
  require (newTask 0 p).fits .overflowError

def bindTasks : List ParsedLine → Except Raised Unit
  | [] => .ok ()
  | p :: rest => do
    bindTask p
    bindTasks rest

-- The JSON columns are serialised for all rows of the INSERT before it binds the first.
def serialise (codec : Codec) (lines : List ParsedLine) : Except Raised Unit :=
  require (lines.all (fun p => nests codec .submitted (.obj p.body))) .statementError

-- The flush sends the Batch row, then the Task rows as they were added.
def flushRows (codec : Codec) (metadata : Option Json) (batch : Batch) (lines : List ParsedLine) : Except Raised Unit := do
  require (metadata.all (nests codec .described)) .statementError
  bindBatch batch
  serialise codec lines
  bindTasks lines

-- Batch and Task rows wait in the session until reserve's SELECT flushes them;
-- its commit is the only one. Nothing reads the metadata again but to show it.
def createBatch (codec : Codec) (user : UserId) (inputFile : FileId) (endpoint completionWindow : Str) (lines : List ParsedLine)
    (now : Instant) (db : Db) (metadata : Option Json := none) : Except Raised (Db × BatchId) := do
  let batch := newBatch user inputFile endpoint completionWindow lines now
  let db' ← Ledger.perform (flushRows codec metadata batch lines)
    (Ledger.reserve user (totalReserve lines) (some db.batches.length)
      (some (text "batch submit (" ++ text (toString lines.length) ++ text " requests)")))
    (addBatch db batch lines)
  return (db',db.batches.length)

-- The SELECT of the batch's PENDING and RUNNING tasks.
def tasksToStop (db : Db) (batch : BatchId) : List (Task × TaskId) :=
  db.tasks.zipIdx.filter (fun row => row.1.batchId == batch && row.1.live)

def Task.cancel (now : Instant) (t : Task) : Task := {t with status := .cancelled,finishedAt := some now}

def stopTasks (ids : List TaskId) (now : Instant) (tasks : List Task) : List Task :=
  tasks.mapIdx (fun i t => if i ∈ ids then Task.cancel now t else t)

-- cancelled_at or expired_at, by the terminal status.
def Batch.terminate (terminal : BatchStatus) (now : Instant) (b : Batch) : Batch :=
  match terminal with
  | .cancelled => {b with status := .cancelled,cancelledAt := some now}
  | .expired => {b with status := .expired,expiredAt := some now}
  | other => {b with status := other}

def holds (rows : List (Task × TaskId)) : Int := (rows.map (fun row => row.1.reservedTokens)).sum

-- The rows _terminate_batch changes before its release.
def stopped (rows : List (Task × TaskId)) (batch : BatchId) (terminal : BatchStatus) (now : Instant) (db : Db) : Db :=
  {db with tasks := stopTasks (rows.map Prod.snd) now db.tasks}.updateBatch batch (Batch.terminate terminal now)

-- Its one commit, for the task rows its SELECT returned.
def terminateSelected (rows : List (Task × TaskId)) (user : UserId) (batch : BatchId) (terminal : BatchStatus)
    (note : String) (now : Instant) (db : Db) : Except Raised Db :=
  if 0 < holds rows then
    Ledger.perform (.ok ()) (Ledger.release user (holds rows) (some batch) none (some (text note)))
      (stopped rows batch terminal now db)
  else .ok (stopped rows batch terminal now db)

def terminateBatch (user : UserId) (batch : BatchId) (terminal : BatchStatus) (note : String) (now : Instant)
    (db : Db) : Except Raised Db :=
  terminateSelected (tasksToStop db batch) user batch terminal note now db

def statusName : BatchStatus → String
  | .validating => "validating"
  | .inProgress => "in_progress"
  | .finalizing => "finalizing"
  | .completed => "completed"
  | .failed => "failed"
  | .cancelling => "cancelling"
  | .cancelled => "cancelled"
  | .expired => "expired"

def requireCancellable (b : Batch) : Except Raised Unit :=
  require (cancellable b.status) (.conflict (statusName b.status))

-- The route's ownership test, then cancel_batch.
def cancelBatch (user : UserId) (batch : BatchId) (now : Instant) (db : Db) : Except Raised Db := do
  let b ← getOwnedBatchOr404 db user batch
  requireCancellable b
  terminateBatch user batch .cancelled "batch cancelled" now db

def expireBatch (batch : BatchId) (now : Instant) (db : Db) : Except Raised Db :=
  match db.batches[batch]? with
  | none => .error .attributeError
  | some b => do
    requireCancellable b
    terminateBatch b.userId batch .expired "batch expired" now db

def Task.complete (responseBody : Json) (promptTokens completionTokens : Int) (now : Instant) (t : Task) : Task :=
  {t with
    status := .completed
    responseBody := some responseBody
    promptTokens := some promptTokens
    completionTokens := some completionTokens
    finishedAt := some now}

def Task.fail (error : Str) (now : Instant) (t : Task) : Task :=
  {t with status := .failed,error := some error,finishedAt := some now}

def Batch.countCompleted (b : Batch) : Batch := {b with requestCompleted := b.requestCompleted + 1}
def Batch.countFailed (b : Batch) : Batch := {b with requestFailed := b.requestFailed + 1}

variable (codec : Codec)

-- complete_task as far as ledger.charge's commit. The SELECT of the Batch row
-- flushes the changed task first, its JSON column before the row is bound.
def commitCompleted (alpha : ℚ) (task : TaskId) (responseBody : Json) (promptTokens completionTokens : Int)
    (now : Instant) (db : Db) : Except Raised Db :=
  match db.tasks[task]? with
  | none => .error .attributeError
  | some t => do
    require (stores codec responseBody) .statementError
    require (Task.complete responseBody promptTokens completionTokens now t).fits .overflowError
    match db.batches[t.batchId]? with
    | none => .error .attributeError
    | some b =>
      let settled := (db.updateTask task (Task.complete responseBody promptTokens completionTokens now)).updateBatch
        t.batchId Batch.countCompleted
      let stat := Eta.updateDispatchStats alpha (Task.complete responseBody promptTokens completionTokens now t) db.stat
      Ledger.perform (.ok ())
        (Ledger.charge b.userId t.reservedTokens (promptTokens + completionTokens) (some t.batchId) (some task) none)
        {settled with stat := stat}

-- fail_task as far as its commit; binding a text that UTF-8 cannot hold raises.
def commitFailed (task : TaskId) (error : Str) (now : Instant) (db : Db) : Except Raised Db :=
  match db.tasks[task]? with
  | none => .error .attributeError
  | some t => do
    require (encode error).isSome .unicodeEncodeError
    match db.batches[t.batchId]? with
    | none => .error .attributeError
    | some b =>
      let settled := (db.updateTask task (Task.fail error now)).updateBatch t.batchId Batch.countFailed
      if 0 < t.reservedTokens then
        Ledger.perform (.ok ())
          (Ledger.release b.userId t.reservedTokens (some t.batchId) (some task) (some error)) settled
      else .ok settled

-- A member of a record written to the output or error file.
def member (key : String) (value : Json) : Str × Json := (text key,value)

def idText (task : TaskId) : Json := .str (text (toString task))

def requestIdText (task : TaskId) : Json := .str (text "batch_req_" ++ text (toString task))

def outputRecord (row : Task × TaskId) : Json :=
  .obj [member "id" (requestIdText row.2),member "custom_id" (.str row.1.customId),
    member "response" (.obj [member "status_code" (.int 200),member "request_id" (idText row.2),
      member "body" (row.1.responseBody.getD .null)]),
    member "error" .null]

-- `t.error or "task failed"`
def errorMessage (t : Task) : Str :=
  match t.error with
  | some (c :: rest) => c :: rest
  | _ => text "task failed"

def errorRecord (row : Task × TaskId) : Json :=
  .obj [member "id" (requestIdText row.2),member "custom_id" (.str row.1.customId),
    member "response" .null,
    member "error" (.obj [member "message" (.str (errorMessage row.1)),member "code" (.str (text "task_failed"))])]

-- order_by(Task.line_index)
def byLineIndex (rows : List (Task × TaskId)) : List (Task × TaskId) :=
  rows.insertionSort (fun x y => x.1.lineIndex ≤ y.1.lineIndex)

def completedRows (rows : List (Task × TaskId)) : List (Task × TaskId) :=
  rows.filter (fun row => row.1.status == .completed)

def failedRows (rows : List (Task × TaskId)) : List (Task × TaskId) :=
  rows.filter (fun row => row.1.status == .failed)

-- ("\n".join(lines) + "\n").encode("utf-8"); json.dumps writes ASCII, which has
-- an encoding.
def fileBytes (records : List Json) : Bytes := (encode (writeLines codec records)).getD []

def shouldFinalize (b : Batch) : Bool :=
  b.status == .inProgress && decide (b.requestTotal ≤ b.requestCompleted + b.requestFailed)

def Batch.finish (output : FileId) (errors : Option FileId) (now : Instant) (b : Batch) : Batch :=
  {b with
    status := .completed
    finalizingAt := some now
    completedAt := some now
    outputFileId := some output
    errorFileId := errors}

def fileRow (user : UserId) (purpose : FilePurpose) (name : FileName) (data : Bytes) (now : Instant) : FileObject :=
  ⟨user,purpose,name,data.length,now⟩

def outputBytes (rows : List (Task × TaskId)) : Bytes := fileBytes codec ((completedRows rows).map outputRecord)

def errorBytes (rows : List (Task × TaskId)) : Bytes := fileBytes codec ((failedRows rows).map errorRecord)

-- The FileObject rows added for a batch; the error file only if a task failed.
def resultFiles (user : UserId) (batch : BatchId) (now : Instant) (rows : List (Task × TaskId)) :
    List (Option FileObject) :=
  some (fileRow user .batchOutput (.output batch) (outputBytes codec rows) now) ::
    if failedRows rows = [] then []
    else [some (fileRow user .batchError (.errors batch) (errorBytes codec rows) now)]

def errorFile (output : FileId) (rows : List (Task × TaskId)) : Option FileId :=
  if failedRows rows = [] then none else some (output + 1)

def resultBlobs (output : FileId) (rows : List (Task × TaskId)) (blobs : Blobs) : Blobs :=
  if failedRows rows = [] then writeBlob blobs output (outputBytes codec rows)
  else writeBlob (writeBlob blobs output (outputBytes codec rows)) (output + 1) (errorBytes codec rows)

-- _maybe_finalize_batch past its two tests, with the task rows its SELECT
-- returned; the session's own copy of the batch names the user.
def finalizeRows (copy : Batch) (rows : List (Task × TaskId)) (batch : BatchId) (now : Instant) (db : Db)
    (blobs : Blobs) : Db × Blobs :=
  let output := db.files.length
  ({db with files := db.files ++ resultFiles codec copy.userId batch now rows}.updateBatch batch
      (Batch.finish output (errorFile output rows) now),
    resultBlobs codec output rows blobs)

def finalizeBatch (copy : Batch) (batch : BatchId) (now : Instant) (db : Db) (blobs : Blobs) : Db × Blobs :=
  finalizeRows codec copy (byLineIndex (db.batchTasks batch)) batch now db blobs

def maybeFinalizeBatch (batch : BatchId) (now : Instant) (db : Db) (blobs : Blobs) : Db × Blobs :=
  match db.batches[batch]? with
  | none => (db,blobs)
  | some copy => if shouldFinalize copy then finalizeBatch codec copy batch now db blobs else (db,blobs)

-- The batch a task belongs to; what both sinks finalize after their commit.
def finalizeAfter (task : TaskId) (now : Instant) (db : Db) (blobs : Blobs) : Db × Blobs :=
  match db.tasks[task]? with
  | none => (db,blobs)
  | some t => maybeFinalizeBatch codec t.batchId now db blobs

def completeTask (alpha : ℚ) (task : TaskId) (responseBody : Json) (promptTokens completionTokens : Int)
    (now : Instant) (db : Db) (blobs : Blobs) : Except Raised (Db × Blobs) := do
  let db ← commitCompleted codec alpha task responseBody promptTokens completionTokens now db
  return finalizeAfter codec task now db blobs

def failTask (task : TaskId) (error : Str) (now : Instant) (db : Db) (blobs : Blobs) :
    Except Raised (Db × Blobs) := do
  let db ← commitFailed task error now db
  return finalizeAfter codec task now db blobs

theorem owned_file {db : Db} {user : UserId} {f : FileId} {row : FileObject} (owned : getOwnedFileOr404 db user f = .ok row) :
    db.files[f]? = some (some row) ∧ row.userId = user := by
  unfold getOwnedFileOr404 at owned
  split at owned
  · rename_i found
    split at owned
    · rename_i mine
      cases owned
      exact ⟨Option.join_eq_some_iff.mp found,mine⟩
    · cases owned
  · cases owned

theorem owned_batch {db : Db} {user : UserId} {i : BatchId} {b : Batch} (owned : getOwnedBatchOr404 db user i = .ok b) :
    db.batches[i]? = some b ∧ b.userId = user := by
  unfold getOwnedBatchOr404 at owned
  split at owned
  · rename_i found
    split at owned
    · rename_i mine
      cases owned
      exact ⟨found,mine⟩
    · cases owned
  · cases owned

theorem createBatch_parts {codec : Codec} {user : UserId} {inputFile : FileId} {endpoint window : Str} {lines : List ParsedLine}
    {now : Instant} {db after : Db} {batch : BatchId} {metadata : Option Json}
    (created : createBatch codec user inputFile endpoint window lines now db metadata = .ok (after,batch)) :
    batch = db.batches.length ∧ 0 < totalReserve lines ∧
    totalReserve lines ≤ (db.getOrCreateBudget user).availableTokens ∧
    ∃ entry, entry.entryType = .reserve ∧ after = Ledger.post (addBatch db (newBatch user inputFile endpoint window lines now) lines) user
      {db.getOrCreateBudget user with
        reservedTokens := (db.getOrCreateBudget user).reservedTokens + totalReserve lines} entry := by
  unfold createBatch at created
  obtain ⟨reserved,done,same⟩ := bind_ok created
  cases same
  obtain ⟨positive,enough,_,posted⟩ := Ledger.perform_reserve done
  exact ⟨rfl,positive,enough,_,rfl,posted⟩

theorem terminateSelected_parts {rows : List (Task × TaskId)} {user : UserId} {batch : BatchId}
    {terminal : BatchStatus} {note : String} {now : Instant} {db after : Db}
    (done : terminateSelected rows user batch terminal note now db = .ok after) :
    (holds rows ≤ 0 ∧ after = stopped rows batch terminal now db) ∨
    (0 < holds rows ∧ ∃ amount entry, amount = min (holds rows) (db.getOrCreateBudget user).reservedTokens ∧
      entry.entryType = .release ∧ after = Ledger.post (stopped rows batch terminal now db) user
        {db.getOrCreateBudget user with reservedTokens := (db.getOrCreateBudget user).reservedTokens - amount}
        entry) := by
  unfold terminateSelected at done
  split at done
  · rename_i some_held
    obtain ⟨_,amount,size,posted⟩ := Ledger.perform_release done
    exact .inr ⟨some_held,amount,_,size,rfl,posted⟩
  · rename_i nothing_held
    cases done
    exact .inl ⟨Int.not_lt.mp nothing_held,rfl⟩

-- The tasks a termination stops, as one pass over the table.
theorem stopTasks_live (db : Db) (batch : BatchId) (now : Instant) :
    stopTasks ((tasksToStop db batch).map Prod.snd) now db.tasks =
      db.tasks.map (fun t => if t.batchId == batch && t.live then Task.cancel now t else t) := by
  apply List.ext_getElem?
  intro i
  simp only [stopTasks,List.getElem?_mapIdx,List.getElem?_map]
  cases found : db.tasks[i]? with
  | none => rfl
  | some t =>
    have chosen : i ∈ (tasksToStop db batch).map Prod.snd ↔ (t.batchId == batch && t.live) = true := by
      rw [tasksToStop,Rows.mem_selected (p := fun t : Task => t.batchId == batch && t.live)]
      simp [found]
    simp only [Option.map_some,chosen]

variable {codec}

-- The two settlements up to their call of the ledger.
theorem commitCompleted_performs {alpha : ℚ} {task : TaskId} {responseBody : Json} {promptTokens completionTokens : Int}
    {now : Instant} {db after : Db}
    (done : commitCompleted codec alpha task responseBody promptTokens completionTokens now db = .ok after) :
    ∃ t b stat, db.tasks[task]? = some t ∧ db.batches[t.batchId]? = some b ∧
      stores codec responseBody = true ∧
      (Task.complete responseBody promptTokens completionTokens now t).fits = true ∧
      Ledger.perform (.ok ())
        (Ledger.charge b.userId t.reservedTokens (promptTokens + completionTokens) (some t.batchId) (some task) none)
        {(db.updateTask task (Task.complete responseBody promptTokens completionTokens now)).updateBatch t.batchId
          Batch.countCompleted with stat := stat} = .ok after := by
  unfold commitCompleted at done
  split at done
  · cases done
  · rename_i t found
    obtain ⟨_,nested,done⟩ := bind_ok done
    obtain ⟨_,fits,done⟩ := bind_ok done
    split at done
    · cases done
    · rename_i b owned
      exact ⟨t,b,_,found,owned,require_ok.mp nested,require_ok.mp fits,done⟩

theorem commitFailed_performs {task : TaskId} {error : Str} {now : Instant} {db after : Db}
    (done : commitFailed task error now db = .ok after) :
    ∃ t b, db.tasks[task]? = some t ∧ db.batches[t.batchId]? = some b ∧ (encode error).isSome = true ∧
      ((t.reservedTokens ≤ 0 ∧ after = (db.updateTask task (Task.fail error now)).updateBatch t.batchId Batch.countFailed) ∨
       (0 < t.reservedTokens ∧
        Ledger.perform (.ok ()) (Ledger.release b.userId t.reservedTokens (some t.batchId) (some task) (some error))
          ((db.updateTask task (Task.fail error now)).updateBatch t.batchId Batch.countFailed) = .ok after)) := by
  unfold commitFailed at done
  split at done
  · cases done
  · rename_i t found
    obtain ⟨_,encodes,done⟩ := bind_ok done
    split at done
    · cases done
    · rename_i b owned
      dsimp only at done
      split at done
      · rename_i held
        exact ⟨t,b,found,owned,require_ok.mp encodes,.inr ⟨held,done⟩⟩
      · rename_i free
        cases done
        exact ⟨t,b,found,owned,require_ok.mp encodes,.inl ⟨Int.not_lt.mp free,rfl⟩⟩

theorem commitCompleted_parts {alpha : ℚ} {task : TaskId} {responseBody : Json} {promptTokens completionTokens : Int}
    {now : Instant} {db after : Db}
    (done : commitCompleted codec alpha task responseBody promptTokens completionTokens now db = .ok after) :
    ∃ t b stat amount entry, db.tasks[task]? = some t ∧ db.batches[t.batchId]? = some b ∧
      0 ≤ t.reservedTokens ∧ 0 ≤ promptTokens + completionTokens ∧
      amount = min t.reservedTokens (db.getOrCreateBudget b.userId).reservedTokens ∧ entry.entryType = .charge ∧
      after = Ledger.post {(db.updateTask task (Task.complete responseBody promptTokens completionTokens now)).updateBatch
          t.batchId Batch.countCompleted with stat := stat} b.userId
        {db.getOrCreateBudget b.userId with
          reservedTokens := (db.getOrCreateBudget b.userId).reservedTokens - amount
          usedTokens := (db.getOrCreateBudget b.userId).usedTokens + (promptTokens + completionTokens)} entry := by
  obtain ⟨t,b,stat,found,owned,_,_,performed⟩ := commitCompleted_performs done
  obtain ⟨hold,actual,amount,size,posted⟩ := Ledger.perform_charge performed
  exact ⟨t,b,stat,amount,_,found,owned,hold,actual,size,rfl,posted⟩

theorem commitFailed_parts {task : TaskId} {error : Str} {now : Instant} {db after : Db}
    (done : commitFailed task error now db = .ok after) :
    ∃ t b, db.tasks[task]? = some t ∧ db.batches[t.batchId]? = some b ∧
      ((t.reservedTokens ≤ 0 ∧ after = (db.updateTask task (Task.fail error now)).updateBatch t.batchId Batch.countFailed) ∨
       (0 < t.reservedTokens ∧ ∃ amount entry,
        amount = min t.reservedTokens (db.getOrCreateBudget b.userId).reservedTokens ∧ entry.entryType = .release ∧
        after = Ledger.post ((db.updateTask task (Task.fail error now)).updateBatch t.batchId Batch.countFailed) b.userId
          {db.getOrCreateBudget b.userId with
            reservedTokens := (db.getOrCreateBudget b.userId).reservedTokens - amount} entry)) := by
  obtain ⟨t,b,found,owned,_,free | ⟨held,performed⟩⟩ := commitFailed_performs done
  · exact ⟨t,b,found,owned,.inl free⟩
  · obtain ⟨_,amount,size,posted⟩ := Ledger.perform_release performed
    exact ⟨t,b,found,owned,.inr ⟨held,amount,_,size,rfl,posted⟩⟩

theorem terminate_user (terminal : BatchStatus) (now : Instant) (b : Batch) :
    (Batch.terminate terminal now b).userId = b.userId := by
  cases terminal <;> rfl

variable (codec) in
theorem finalizeAfter_parts (task : TaskId) (now : Instant) (db : Db) (blobs : Blobs) :
    finalizeAfter codec task now db blobs = (db,blobs) ∨
    ∃ t b, db.tasks[task]? = some t ∧ db.batches[t.batchId]? = some b ∧ shouldFinalize b = true ∧
      finalizeAfter codec task now db blobs = finalizeBatch codec b t.batchId now db blobs := by
  unfold finalizeAfter
  split
  · exact .inl rfl
  · rename_i t found
    unfold maybeFinalizeBatch
    split
    · exact .inl rfl
    · rename_i b owned
      split
      · rename_i due
        exact .inr ⟨t,b,found,owned,due,rfl⟩
      · exact .inl rfl

end BatchGateway.BatchOps
