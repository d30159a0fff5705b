import BatchGateway.JsonText
import BatchGateway.UnitOfWork
import BatchGateway.Service

-- A submission statement by statement, in the session its request opened.
namespace BatchGateway.Submission
open PythonText PythonJson Raising BatchInput BatchOps UnitOfWork

-- A fault is the text of the database's own exception.
abbrev RequestWork (α : Type) := Work Db Raised String α

def insertBatch (b : Batch) : Statement Db Raised := fun db => do
  bindBatch b
  return {db with batches := db.batches ++ [b]}

-- The row of the first line, where the INSERT serialises the bodies of all that go with it.
def insertTask (codec : Codec) (batchId : BatchId) (p : ParsedLine) (rest : List ParsedLine) : Statement Db Raised := fun db => do
  serialise codec (p :: rest)
  bindTask p
  return {db with tasks := db.tasks ++ [newTask batchId p]}

def insertLedgerEntry (e : LedgerEntry) : Statement Db Raised := fun db => do
  require e.fits .overflowError
  return {db with ledger := db.ledger ++ [e]}

-- The INSERT of a new Budget row, or the UPDATE of one the session has changed.
def writeBudget (user : UserId) (row : Budget) : Statement Db Raised := fun db => do
  require row.fits .overflowError
  return {db with budgets := Function.update db.budgets user (some row)}

-- No request that submits has its Budget row before, so db.get sends a SELECT.
def getOrCreateBudget (user : UserId) : RequestWork Budget := do
  match ← query (fun db => db.budgets user) with
  | some budget => return budget
  | none =>
    add (writeBudget user ⟨0,0,0⟩)
    flush
    return ⟨0,0,0⟩

def couldNotRefresh : String := "Could not refresh instance"

-- A function of ledger.py.
def perform (call : Ledger.Call) : RequestWork Budget := do
  lift call.check
  let budget ← getOrCreateBudget call.user
  let (row,entry) ← lift (call.move budget)
  add (writeBudget call.user row)
  add (insertLedgerEntry entry)
  commit
  refresh (fun db => db.budgets call.user) couldNotRefresh

def addTasks (codec : Codec) (batchId : BatchId) : List ParsedLine → RequestWork Unit
  | [] => pure ()
  | p :: rest => do
    add (insertTask codec batchId p rest)
    addTasks codec batchId rest

-- The uuid of the batch is the number its row will have.
def createBatch (codec : Codec) (user : UserId) (inputFile : FileId) (endpoint completionWindow : Str) (lines : List ParsedLine)
    (now : Instant) : RequestWork BatchId := do
  let batchId ← view (fun db => db.batches.length)
  add (insertBatch (newBatch user inputFile endpoint completionWindow lines now))
  addTasks codec batchId lines
  let _ ← perform (Ledger.reserve user (totalReserve lines) (some batchId)
    (some (text "batch submit (" ++ text (toString lines.length) ++ text " requests)")))
  let _ ← refresh (fun db => db.batches[batchId]?) couldNotRefresh
  return batchId

-- What a submission adds to the database: one batch, its tasks and one entry.
structure Submitted (user : UserId) (lines : List ParsedLine) (before after : Db) (id : BatchId) (b : Batch)
    (created : List Task) (e : LedgerEntry) : Prop where
  batches : after.batches = before.batches ++ [b] ∧ id = before.batches.length
  batch : b.userId = user ∧ b.status = .inProgress ∧ b.requestTotal = created.length
  tasks : after.tasks = before.tasks ++ created
  task : List.Forall₂ (fun t p => t.batchId = id ∧ t.status = .pending ∧ t.lineIndex = p.lineIndex ∧
    t.customId = p.customId ∧ t.requestBody = p.body ∧ t.reservedTokens = p.reservedTokens) created lines
  ledger : after.ledger = before.ledger ++ [e]
  entry : e.userId = user ∧ e.entryType = .reserve ∧ e.batchId = some id ∧ e.grantedDelta = 0 ∧ e.usedDelta = 0
  reserved : b.reservedTokens = (created.map Task.reservedTokens).sum ∧
    e.reservedDelta = (created.map Task.reservedTokens).sum
  budget : after.budgets = Function.update before.budgets user (some {before.getOrCreateBudget user with
    reservedTokens := (before.getOrCreateBudget user).reservedTokens + (created.map Task.reservedTokens).sum})
  others : after.files = before.files ∧ after.nodes = before.nodes ∧ after.stat = before.stat

variable {codec : Codec} {db w : Db} {l : List (Statement Db Raised)} {calm : Prop}
  {E : Failure Raised String → Session Db Raised String → Prop}

theorem sent_flush (statement : Statement Db Raised) (db : Db) : sent [statement] db = statement db := by
  rw [sent_cons]
  cases statement db <;> rfl

-- The session sees the row that was there, or the row of zeros it has written.
theorem getOrCreateBudget_spec (user : UserId) :
    Triple (At db w l calm) (getOrCreateBudget user)
      (fun budget s => ∃ after row, sent l w = .ok after ∧ budget = after.getOrCreateBudget user ∧
        At db {after with budgets := Function.update after.budgets user row} [] calm s)
      (Stopped db (fun e => sent l w = .error e) calm) := by
  refine triple_bind (query_spec _) (fun found => ?_)
  rintro s ⟨after,done,same,here⟩
  cases found with
  | some budget =>
    refine triple_pure budget s ⟨after,some budget,done,by simp [Db.getOrCreateBudget,← same],?_⟩
    rw [same,Function.update_eq_self]
    exact here
  | none =>
    refine triple_bind (add_spec (writeBudget user ⟨0,0,0⟩)) (fun _ => ?_) s here
    have written : sent ([] ++ [writeBudget user ⟨0,0,0⟩]) after =
        .ok {after with budgets := Function.update after.budgets user (some ⟨0,0,0⟩)} := sent_flush _ _
    refine triple_bind (triple_raises ?_ flush_spec) (fun _ => ?_)
    · intro e failed
      rw [written] at failed
      cases failed
    · rintro t ⟨zero,flushed,there⟩
      rw [written] at flushed
      cases flushed
      exact triple_pure _ t ⟨after,some ⟨0,0,0⟩,done,by simp [Db.getOrCreateBudget,← same],there⟩

-- The row and its entry, over whatever row the session had for the user.
theorem sent_posting (user : UserId) (before : Option Budget) (row : Budget) (entry : LedgerEntry) (db : Db) :
    sent ([] ++ [writeBudget user row] ++ [insertLedgerEntry entry])
        {db with budgets := Function.update db.budgets user before} =
      (require (row.fits && entry.fits) .overflowError).map (fun _ => Ledger.post db user row entry) := by
  rw [List.nil_append,List.singleton_append,sent_cons]
  unfold writeBudget
  cases row.fits with
  | false => rfl
  | true =>
    simp only [Bool.true_and,require,if_true,bind,Except.bind,pure,Except.pure,sent_flush,insertLedgerEntry,
      Function.update_idem]
    cases entry.fits <;> rfl

-- From the changed row to the row read back, over whatever row the session had.
theorem posted_spec (user : UserId) (before : Option Budget) (row : Budget) (entry : LedgerEntry) (after : Db) :
    Triple (At db {after with budgets := Function.update after.budgets user before} [] calm)
      (do
        add (writeBudget user row)
        add (insertLedgerEntry entry)
        commit
        refresh (fun db => db.budgets user) couldNotRefresh : RequestWork Budget)
      (fun _ s => ∃ posted, (require (row.fits && entry.fits) Raised.overflowError).map
        (fun _ => Ledger.post after user row entry) = .ok posted ∧ At posted posted [] calm s)
      (Stopped db (fun e => (require (row.fits && entry.fits) Raised.overflowError).map
        (fun _ => Ledger.post after user row entry) = .error e) calm) := by
  refine triple_bind (add_spec _) (fun _ => triple_bind (add_spec _) (fun _ =>
    triple_bind (triple_raises ?_ commit_spec) (fun _ => ?_)))
  · intro e failed
    rwa [sent_posting] at failed
  rintro s ⟨posted,sent_,here⟩
  rw [sent_posting] at sent_
  have present : posted.budgets user = some row := by
    cases fits : row.fits && entry.fits with
    | false =>
      rw [fits] at sent_
      cases sent_
    | true =>
      rw [fits] at sent_
      cases sent_
      exact Function.update_self _ _ _
  exact triple_entails (fun _ there => there) (refresh_spec (fun db : Db => db.budgets user) present _)
    (fun _ _ seen => ⟨posted,sent_,seen.2⟩) s here

-- In a session a function of ledger.py does what it does to a database in which the
-- waiting rows are written, or publishes nothing.
theorem perform_spec (call : Ledger.Call) {flush : Except Raised Unit} {flushed : Db}
    (waiting : sent l w = flush.map (fun _ => flushed)) :
    Triple (At db w l calm) (perform call)
      (fun _ s => ∃ after, Ledger.perform flush call flushed = .ok after ∧ At after after [] calm s)
      (Stopped db (fun e => Ledger.perform flush call flushed = .error e) calm) := by
  refine triple_bind (triple_raises ?_ (lift_spec call.check)) (fun _ => ?_)
  · intro e refused
    simp only [Ledger.perform,refused]
    rfl
  rintro s ⟨checked,here⟩
  refine triple_bind (triple_raises ?_ (getOrCreateBudget_spec call.user)) (fun budget => ?_) s here
  · intro e failed
    rw [waiting] at failed
    cases flush with
    | ok => cases failed
    | error reason =>
      cases failed
      simp only [Ledger.perform,checked]
      rfl
  rintro s ⟨after,row,done,same,here⟩
  have wrote : flush = .ok () ∧ after = flushed := by
    rw [waiting] at done
    cases flush with
    | ok => cases done; exact ⟨rfl,rfl⟩
    | error => cases done
  obtain ⟨rfl,rfl⟩ := wrote
  refine triple_bind (triple_raises ?_ (lift_spec (call.move budget))) (fun moved => ?_) s here
  · intro e refused
    rw [same] at refused
    simp only [Ledger.perform,checked,refused]
    rfl
  rintro s ⟨move,here⟩
  obtain ⟨changed,entry⟩ := moved
  rw [same] at move
  have decided : Ledger.perform (.ok ()) call after =
      (require (changed.fits && entry.fits) .overflowError).map (fun _ => Ledger.post after call.user changed entry) := by
    simp only [Ledger.perform,checked,move,require,bind,Except.bind]
    cases changed.fits && entry.fits <;> rfl
  rw [decided]
  exact posted_spec call.user row changed entry after s here

-- The statements of the rows, one after the other.
def taskStatements (codec : Codec) (batchId : BatchId) : List ParsedLine → List (Statement Db Raised)
  | [] => []
  | p :: rest => insertTask codec batchId p rest :: taskStatements codec batchId rest

theorem serialise_tail {p : ParsedLine} {rest : List ParsedLine} (all : serialise codec (p :: rest) = .ok ()) :
    serialise codec rest = .ok () := by
  have each := require_ok.mp all
  rw [List.all_cons,Bool.and_eq_true] at each
  exact require_ok.mpr each.2

theorem sent_tasks (batchId : BatchId) (lines : List ParsedLine) (db : Db) :
    sent (taskStatements codec batchId lines) db = (do
      serialise codec lines
      bindTasks lines
      return {db with tasks := db.tasks ++ lines.map (newTask batchId)}) := by
  induction lines generalizing db with
  | nil =>
    rw [List.map_nil,List.append_nil]
    rfl
  | cons p rest ih =>
    rw [taskStatements,sent_cons]
    unfold insertTask
    cases all : serialise codec (p :: rest) with
    | error e => rfl
    | ok =>
      simp only [bindTasks]
      cases bindTask p with
      | error e => rfl
      | ok =>
        change sent (taskStatements codec batchId rest) {db with tasks := db.tasks ++ [newTask batchId p]} = _
        rw [ih,serialise_tail all,List.map_cons,List.append_assoc,List.singleton_append]
        rfl

-- The rows a submission adds, as its first flush writes them.
theorem sent_rows (codec : Codec) (batch : Batch) (lines : List ParsedLine) (db : Db) :
    sent (insertBatch batch :: taskStatements codec db.batches.length lines) db =
      (flushRows codec none batch lines).map (fun _ => addBatch db batch lines) := by
  rw [sent_cons]
  unfold insertBatch flushRows
  cases bindBatch batch with
  | error e => rfl
  | ok =>
    simp only [require,Option.all_none,if_true,bind,Except.bind,pure,Except.pure]
    rw [sent_tasks]
    cases serialise codec lines with
    | error e => rfl
    | ok => cases bindTasks lines <;> rfl

theorem addTasks_spec (batchId : BatchId) (lines : List ParsedLine) :
    Triple (At db w l calm) (addTasks codec batchId lines) (fun _ => At db w (l ++ taskStatements codec batchId lines) calm) E := by
  induction lines generalizing l with
  | nil =>
    rw [taskStatements,List.append_nil]
    exact triple_returns (fun s here => ⟨(),s,rfl,here⟩)
  | cons p rest ih =>
    rw [taskStatements,List.append_cons]
    exact triple_bind (add_spec _) (fun _ => ih)

-- A submission does in its session what it does as one step, or publishes nothing.
theorem createBatch_spec (user : UserId) (inputFile : FileId) (endpoint window : Str) (lines : List ParsedLine)
    (now : Instant) (db : Db) :
    Triple (At db db [] calm) (createBatch codec user inputFile endpoint window lines now)
      (fun id s => ∃ after, BatchOps.createBatch codec user inputFile endpoint window lines now db = .ok (after,id) ∧
        At after after [] calm s)
      (Stopped db (fun e => BatchOps.createBatch codec user inputFile endpoint window lines now db = .error e) calm) := by
  refine triple_bind (view_spec _) (fun batchId => ?_)
  rintro s ⟨rfl,here⟩
  have waiting := sent_rows codec (newBatch user inputFile endpoint window lines now) lines db
  refine triple_bind (add_spec _) (fun _ => triple_bind (addTasks_spec _ lines) (fun _ =>
    triple_bind (triple_raises ?_ (perform_spec _ waiting)) (fun _ => ?_))) s here
  · intro e refused
    simp only [BatchOps.createBatch,refused]
    rfl
  rintro t ⟨after,done,there⟩
  have created : BatchOps.createBatch codec user inputFile endpoint window lines now db = .ok (after,db.batches.length) := by
    simp only [BatchOps.createBatch,done]
    rfl
  have present : after.batches[db.batches.length]? = some (newBatch user inputFile endpoint window lines now) := by
    obtain ⟨_,_,_,_,_,rfl⟩ := createBatch_parts created
    simp [addBatch]
  refine triple_bind (refresh_spec (fun now : Db => now.batches[db.batches.length]?) present _) (fun _ => ?_) t there
  rintro u ⟨_,last⟩
  exact triple_pure db.batches.length u ⟨after,created,last⟩

theorem tasks_reserved (batchId : BatchId) (lines : List ParsedLine) :
    ((lines.map (newTask batchId)).map Task.reservedTokens).sum = totalReserve lines := by
  rw [List.map_map]
  rfl

theorem tasks_lines (batchId : BatchId) (lines : List ParsedLine) :
    List.Forall₂ (fun t p => t.batchId = batchId ∧ t.status = .pending ∧ t.lineIndex = p.lineIndex ∧
      t.customId = p.customId ∧ t.requestBody = p.body ∧ t.reservedTokens = p.reservedTokens)
      (lines.map (newTask batchId)) lines := by
  induction lines with
  | nil => exact .nil
  | cons p rest ih => exact .cons ⟨rfl,rfl,rfl,rfl,rfl,rfl⟩ ih

theorem created_submitted {user : UserId} {inputFile : FileId} {endpoint window : Str} {lines : List ParsedLine}
    {now : Instant} {before after : Db} {id : BatchId}
    (created : BatchOps.createBatch codec user inputFile endpoint window lines now before = .ok (after,id)) :
    ∃ b tasks e, Submitted user lines before after id b tasks e := by
  unfold BatchOps.createBatch at created
  obtain ⟨_,done,same⟩ := bind_ok created
  cases same
  obtain ⟨_,_,_,rfl⟩ := Ledger.perform_reserve done
  exact ⟨newBatch user inputFile endpoint window lines now,lines.map (newTask before.batches.length),_,{
    batches := ⟨rfl,rfl⟩
    batch := ⟨rfl,rfl,(List.length_map _).symm⟩
    tasks := rfl
    task := tasks_lines _ lines
    ledger := rfl
    entry := ⟨rfl,rfl,rfl,rfl,rfl⟩
    reserved := ⟨(tasks_reserved _ lines).symm,(tasks_reserved _ lines).symm⟩
    budget := by rw [tasks_reserved]; rfl
    others := ⟨rfl,rfl,rfl⟩}⟩

section
variable (codec : Codec) (user : UserId) (inputFile : FileId) (endpoint window : Str) (lines : List ParsedLine) (now : Instant)
  (faults : List (Option String)) (db : Db)

-- With nothing in its way the session does what the submission does as one step.
theorem request_createBatch :
    request (createBatch codec user inputFile endpoint window lines now) [] db =
      match BatchOps.createBatch codec user inputFile endpoint window lines now db with
      | .ok (after,id) => (.ok id,after)
      | .error e => (.error (.raised e),db) := by
  rcases request_spec (createBatch_spec user inputFile endpoint window lines now db) with
    ⟨id,s,ran,after,created,here⟩ | ⟨e,s,ran,stopped⟩
  · rw [ran,created,here.committed]
  · rcases stopped.reason with ⟨reason,rfl,raised⟩ | faulty
    · rw [ran,raised,stopped.committed]
    · exact absurd rfl faulty

-- Whatever statement meets a fault, a submission that raises leaves the database as
-- it was, and one that returns adds its batch whole.
theorem submission_whole :
    (∀ e, (request (createBatch codec user inputFile endpoint window lines now) faults db).1 = .error e →
      (request (createBatch codec user inputFile endpoint window lines now) faults db).2 = db) ∧
    (∀ id, (request (createBatch codec user inputFile endpoint window lines now) faults db).1 = .ok id →
      ∃ b created e, Submitted user lines db
        (request (createBatch codec user inputFile endpoint window lines now) faults db).2 id b created e) := by
  rcases request_spec (createBatch_spec user inputFile endpoint window lines now db) with
    ⟨id,s,ran,after,created,here⟩ | ⟨e,s,ran,stopped⟩
  · rw [ran,here.committed]
    refine ⟨fun _ failed => by (cases failed),fun other same => ?_⟩
    cases same
    exact created_submitted created
  · rw [ran,stopped.committed]
    exact ⟨fun _ _ => rfl,fun _ returned => by (cases returned)⟩

end

def funded : Db := {budgets := fun _ => some ⟨100,0,0⟩,files := [none]}

-- One line: the batch, the task, the SELECT, the Budget row, the entry, COMMIT.
def submitOne (faults : List (Option String)) : Except (Failure Raised String) BatchId × Db :=
  request (createBatch JsonText.codec 1 0 [] [] [Service.shortLine 0] 0) faults funded

def lockedAtCommit : List (Option String) := [none,none,none,none,none,some "database is locked"]

theorem submission_whole_funded :
    (∃ b created e, Submitted 1 [Service.shortLine 0] funded (submitOne []).2 0 b created e) ∧
      (submitOne lockedAtCommit).2 = funded := by
  have whole := submission_whole JsonText.codec 1 0 [] [] [Service.shortLine 0] 0
  have completes : returned (submitOne []).1 = some 0 := by decide +kernel
  have raises : returned (submitOne lockedAtCommit).1 = none := by decide +kernel
  refine ⟨(whole [] funded).2 0 (returned_some.mp completes),?_⟩
  cases outcome : (submitOne lockedAtCommit).1 with
  | ok id =>
    rw [outcome] at raises
    cases raises
  | error e => exact (whole lockedAtCommit funded).1 e outcome

end BatchGateway.Submission
