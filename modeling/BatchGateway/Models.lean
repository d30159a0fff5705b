import BatchGateway.PythonJson
import BatchGateway.Rows

namespace BatchGateway
open PythonText PythonJson

-- Rows are numbered in insertion order; a number stands for the row's uuid4 hex
-- text, of which the code only uses that no two rows share it.
abbrev UserId := Nat
abbrev FileId := Nat
abbrev BatchId := Nat
abbrev TaskId := Nat
abbrev NodeName := String

-- Microseconds; every datetime the service writes is UTC.
abbrev Instant := Int

def hours (n : Int) : Int := n * 3600000000
def days (n : Int) : Int := n * 86400000000

-- What a call can raise instead of returning.
inductive Raised where
  | valueError (message : String)
  | typeError
  | attributeError
  | overflowError
  | recursionError
  | unicodeEncodeError
  -- what a flush makes of an exception that it meets before it binds the row
  | statementError
  | insufficientBudget (requested available : Int)
  | invalidRequest (message : Str) (param : String)
  | notFound (message : String)
  | conflict (status : String)
  deriving DecidableEq, Repr

-- SQLite stores an INTEGER column in 64 bits; flushing a row with a larger
-- Python integer raises OverflowError.
def fitsInteger (n : Int) : Bool := decide (-2^63 ≤ n ∧ n < 2^63)

theorem fits_iff {n : Int} : fitsInteger n = true ↔ -2^63 ≤ n ∧ n < 2^63 := decide_eq_true_iff

structure Budget where
  grantedTokens : Int
  reservedTokens : Int
  usedTokens : Int
  deriving DecidableEq, Repr

def Budget.availableTokens (b : Budget) : Int := b.grantedTokens - b.reservedTokens - b.usedTokens

def Budget.fits (b : Budget) : Bool :=
  fitsInteger b.grantedTokens && fitsInteger b.reservedTokens && fitsInteger b.usedTokens

inductive LedgerEntryType where
  | grant | reserve | release | charge | adjust
  deriving DecidableEq, Repr

structure LedgerEntry where
  userId : UserId
  entryType : LedgerEntryType
  grantedDelta : Int := 0
  reservedDelta : Int := 0
  usedDelta : Int := 0
  batchId : Option BatchId := none
  taskId : Option TaskId := none
  note : Option Str := none
  deriving DecidableEq, Repr

def LedgerEntry.fits (e : LedgerEntry) : Bool :=
  fitsInteger e.grantedDelta && fitsInteger e.reservedDelta && fitsInteger e.usedDelta

inductive FilePurpose where
  | batchInput | batchOutput | batchError
  deriving DecidableEq, Repr

-- The filename texts f"{batch.id}_output.jsonl" and f"{batch.id}_errors.jsonl"
-- are kept apart by the batch they name.
inductive FileName where
  | upload (name : Str)
  | output (batch : BatchId)
  | errors (batch : BatchId)
  deriving DecidableEq, Repr

-- `path` is <blob_dir>/<id>.jsonl, so the row's own id finds the blob.
structure FileObject where
  userId : UserId
  purpose : FilePurpose
  filename : FileName
  bytes : Nat
  createdAt : Instant
  deriving DecidableEq, Repr

inductive BatchStatus where
  | validating | inProgress | finalizing | completed | failed | cancelling | cancelled | expired
  deriving DecidableEq, Repr

structure Batch where
  userId : UserId
  inputFileId : FileId
  outputFileId : Option FileId := none
  errorFileId : Option FileId := none
  endpoint : Str
  completionWindow : Str
  status : BatchStatus
  reservedTokens : Int
  requestTotal : Nat
  requestCompleted : Nat := 0
  requestFailed : Nat := 0
  createdAt : Instant
  inProgressAt : Option Instant := none
  expiresAt : Option Instant := none
  finalizingAt : Option Instant := none
  completedAt : Option Instant := none
  failedAt : Option Instant := none
  cancelledAt : Option Instant := none
  expiredAt : Option Instant := none
  purgedAt : Option Instant := none
  deriving DecidableEq, Repr

inductive TaskStatus where
  | pending | running | completed | failed | cancelled
  deriving DecidableEq, Repr

structure Task where
  batchId : BatchId
  lineIndex : Nat
  customId : Str
  requestBody : Dict
  status : TaskStatus := .pending
  reservedTokens : Int
  promptTokensEstimate : Int
  maxTokens : Int
  promptTokens : Option Int := none
  completionTokens : Option Int := none
  responseBody : Option Json := none
  error : Option Str := none
  attempts : Nat := 0
  nodeName : Option NodeName := none
  startedAt : Option Instant := none
  finishedAt : Option Instant := none

-- Task.status.in_([PENDING, RUNNING])
def TaskStatus.live : TaskStatus → Bool
  | .pending | .running => true
  | .completed | .failed | .cancelled => false

def Task.live (t : Task) : Bool := t.status.live

def Task.fits (t : Task) : Bool :=
  fitsInteger t.reservedTokens && fitsInteger t.promptTokensEstimate && fitsInteger t.maxTokens &&
  t.promptTokens.all fitsInteger && t.completionTokens.all fitsInteger

inductive NodeHealth where
  | healthy | unhealthy | disabled
  deriving DecidableEq, Repr

structure Node where
  name : NodeName
  baseUrl : String
  parallelSlots : Int
  health : NodeHealth := .healthy
  consecutiveFailures : Int := 0
  deriving DecidableEq, Repr

structure DispatchStat where
  tokensPerSecondEwma : Option ℚ := none
  avgCompletionTokensEwma : Option ℚ := none
  sampleCount : Nat := 0
  deriving DecidableEq

-- A purged file leaves its number unused.
structure Db where
  budgets : UserId → Option Budget := fun _ => none
  ledger : List LedgerEntry := []
  files : List (Option FileObject) := []
  batches : List Batch := []
  tasks : List Task := []
  nodes : List Node := []
  stat : Option DispatchStat := none

namespace Db

-- get_or_create_budget: a missing row is a row of zeros.
def getOrCreateBudget (db : Db) (user : UserId) : Budget := (db.budgets user).getD ⟨0,0,0⟩

def updateTask (db : Db) (task : TaskId) (f : Task → Task) : Db :=
  {db with tasks := db.tasks.modify task f}

def updateBatch (db : Db) (batch : BatchId) (f : Batch → Batch) : Db :=
  {db with batches := db.batches.modify batch f}

-- The user a task's batch belongs to.
def owner (db : Db) (t : Task) : Option UserId := db.batches[t.batchId]?.map Batch.userId

-- The tasks of one batch, with their numbers.
def batchTasks (db : Db) (batch : BatchId) : List (Task × TaskId) :=
  db.tasks.zipIdx.filter (fun row => row.1.batchId == batch)

end Db

end BatchGateway
