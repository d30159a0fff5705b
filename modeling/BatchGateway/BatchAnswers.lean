import BatchGateway.Consumption
import BatchGateway.QueueEta
import BatchGateway.Routes
import BatchGateway.Timestamps

-- What the routes send back: `_file_out` and `_batch_out` of the rows they have found.
namespace BatchGateway.BatchAnswers
open PythonText PythonJson PythonTime Raising BatchOps Routes QueueEta

structure FileOut where
  id : FileId
  bytes : Nat
  createdAt : Int
  filename : FileName
  purpose : FilePurpose
  deriving DecidableEq

structure RequestCounts where
  total : Nat
  completed : Nat
  failed : Nat
  deriving DecidableEq

structure TokenUsage where
  reserved : Int
  consumed : Int
  deriving DecidableEq

structure BatchEtaOut where
  estimatedSecondsRemaining : Option ℚ := none
  estimatedCompletionAt : Option Int := none
  queuePosition : Option Nat := none
  confidence : Confidence := .unavailable
  deriving DecidableEq

-- metadata is passed through.
structure BatchOut where
  id : BatchId
  endpoint : Str
  inputFileId : FileId
  completionWindow : Str
  status : BatchStatus
  outputFileId : Option FileId
  errorFileId : Option FileId
  createdAt : Option Int
  inProgressAt : Option Int
  expiresAt : Option Int
  finalizingAt : Option Int
  completedAt : Option Int
  failedAt : Option Int
  cancelledAt : Option Int
  expiredAt : Option Int
  requestCounts : RequestCounts
  xTokens : TokenUsage
  xEta : BatchEtaOut
  deriving DecidableEq

section
variable (zone : Zone)

def fileOut (id : FileId) (row : FileObject) : FileOut :=
  ⟨id,row.bytes,Timestamps.fileOutCreatedAt zone (Timestamps.stored (Timestamps.utcNow row.createdAt)),row.filename,row.purpose⟩

-- _ts of a column, as a host in this zone reads it back.
def shown (column : Option Instant) : Option Int :=
  Timestamps.ts zone (column.map (fun t => Timestamps.stored (Timestamps.utcNow t)))

def etaOut (estimate : BatchEta) : BatchEtaOut :=
  ⟨estimate.estimatedSecondsRemaining,Timestamps.ts zone estimate.estimatedCompletionAt,estimate.queuePosition,estimate.confidence⟩

-- A batch as it is shown with this estimate.
def withEta (db : Db) (i : BatchId) (b : Batch) (estimate : BatchEtaOut) : BatchOut where
  id := i
  endpoint := b.endpoint
  inputFileId := b.inputFileId
  completionWindow := b.completionWindow
  status := b.status
  outputFileId := b.outputFileId
  errorFileId := b.errorFileId
  createdAt := shown zone (some b.createdAt)
  inProgressAt := shown zone b.inProgressAt
  expiresAt := shown zone b.expiresAt
  finalizingAt := shown zone b.finalizingAt
  completedAt := shown zone b.completedAt
  failedAt := shown zone b.failedAt
  cancelledAt := shown zone b.cancelledAt
  expiredAt := shown zone b.expiredAt
  requestCounts := ⟨b.requestTotal,b.requestCompleted,b.requestFailed⟩
  xTokens := ⟨b.reservedTokens,Consumption.tokensConsumed db i⟩
  xEta := estimate

variable (settings : Settings) (clock : BatchId → Instant) (db : Db)

-- _batch_out; the clock is what estimate_batch_eta reads for the batch.
def batchOut (i : BatchId) (b : Batch) : Except EtaError BatchOut := do
  let estimate ← estimateBatchEta settings db (clock i) b i
  return withEta zone db i b (etaOut zone estimate)

end

inductive Answer where
  | file (out : FileOut)
  | content (data : Bytes)
  | batch (out : BatchOut)
  | batchList (data : List BatchOut)
  deriving DecidableEq

def BatchOut.withoutEta (o : BatchOut) : BatchOut := {o with xEta := {}}

def Answer.withoutEta : Answer → Answer
  | .batch out => .batch out.withoutEta
  | .batchList data => .batchList (data.map BatchOut.withoutEta)
  | answer => answer

-- The rows of a response with what the tables say of them when it is built.
def render (zone : Zone) (settings : Settings) (clock : BatchId → Instant) (db : Db) : Response → Except EtaError Answer
  | .file id row => .ok (.file (fileOut zone id row))
  | .content data => .ok (.content data)
  | .batch id row => (batchOut zone settings clock db id row).map .batch
  | .batchList rows => (rows.mapM fun row => batchOut zone settings clock db row.2 row.1).map .batchList

-- What a request leaves, and what it is answered: an estimate that raises comes after the
-- route's own commit, and makes the answer a 500.
def answered (codec : Codec) (defaultMaxTokens : Int) (zone : Zone) (settings : Settings) (clock : BatchId → Instant) (user : UserId)
    (now : Instant) (request : Request) (s : Service) : Except Failure (Service × Except EtaError Answer) := do
  let (t,response) ← handle codec defaultMaxTokens user now request s
  return (t,render zone settings clock t.db response)

-- The batches a response shows.
def Shows : Response → BatchId → Prop
  | .batch id _,i => id = i
  | .batchList rows,i => ∃ row ∈ rows, row.2 = i
  | .file _ _,_ | .content _,_ => False

-- The answer but for its estimates.
def plain (zone : Zone) (db : Db) : Response → Answer
  | .file id row => .file (fileOut zone id row)
  | .content data => .content data
  | .batch id row => .batch (withEta zone db id row {})
  | .batchList rows => .batchList (rows.map fun row => withEta zone db row.2 row.1 {})

-- Two answers that are the same but for the estimates of the batches they show, and for
-- those that raise.
structure SameAnswer (x y : Except Failure (Except EtaError Answer)) : Prop where
  refusal : refusal x = refusal y
  shown : ∀ a b, x = .ok (.ok a) → y = .ok (.ok b) → a.withoutEta = b.withoutEta

variable {codec : Codec} {defaultMaxTokens : Int} {zone : Zone} {settings : Settings} {clock : BatchId → Instant} {db : Db}
  {user : UserId} {now : Instant} {request : Request} {s t : Service} {i : BatchId} {b : Batch} {out : BatchOut}

@[simp] theorem withoutEta_withEta (x : BatchEtaOut) : (withEta zone db i b x).withoutEta = withEta zone db i b {} := rfl

theorem batchOut_ok (done : batchOut zone settings clock db i b = .ok out) : out.withoutEta = withEta zone db i b {} := by
  obtain ⟨estimate,_,same⟩ := bind_ok done
  cases same
  rfl

-- The only estimate that raises is one of a batch in progress, past the year 9999.
theorem batchOut_error {e : EtaError} (failed : batchOut zone settings clock db i b = .error e) :
    e = .overflowError ∧ (b.status = .validating ∨ b.status = .inProgress) := by
  cases estimated : estimateBatchEta settings db (clock i) b i with
  | ok estimate =>
    rw [batchOut,estimated] at failed
    cases failed
  | error raised =>
    rw [batchOut,estimated] at failed
    cases failed
    constructor
    · cases e with
      | overflowError => rfl
      | zeroDivisionError => exact absurd estimated (never_divides_by_zero settings db (clock i) b i)
    · by_contra ended
      rw [estimateBatchEta,if_pos (not_or.mp ended)] at estimated
      cases estimated

theorem listed_ok {rows : List (Batch × BatchId)} {outs : List BatchOut}
    (done : rows.mapM (fun row => batchOut zone settings clock db row.2 row.1) = .ok outs) :
    outs.map BatchOut.withoutEta = rows.map fun row => withEta zone db row.2 row.1 {} := by
  induction rows generalizing outs with
  | nil =>
    cases done
    rfl
  | cons row rows ih =>
    rw [List.mapM_cons] at done
    obtain ⟨first,one,done⟩ := bind_ok done
    obtain ⟨rest,more,same⟩ := bind_ok done
    cases same
    rw [List.map_cons,List.map_cons,batchOut_ok one,ih more]

theorem answered_ok {answer : Except EtaError Answer}
    (done : answered codec defaultMaxTokens zone settings clock user now request s = .ok (t,answer)) :
    ∃ response, handle codec defaultMaxTokens user now request s = .ok (t,response) ∧ answer = render zone settings clock t.db response := by
  obtain ⟨⟨after,response⟩,handled,same⟩ := bind_ok done
  cases same
  exact ⟨response,handled,rfl⟩

theorem answered_of {response : Response} (handled : handle codec defaultMaxTokens user now request s = .ok (t,response)) :
    answered codec defaultMaxTokens zone settings clock user now request s = .ok (t,render zone settings clock t.db response) := by
  rw [answered,handled]
  rfl

theorem render_batch {answer : Answer} (done : render zone settings clock db (.batch i b) = .ok answer) :
    ∃ out, answer = .batch out ∧ batchOut zone settings clock db i b = .ok out := by
  cases built : batchOut zone settings clock db i b with
  | error e =>
    rw [render,built] at done
    cases done
  | ok out =>
    rw [render,built] at done
    cases done
    exact ⟨out,rfl,rfl⟩

theorem render_plain {response : Response} {answer : Answer} (done : render zone settings clock db response = .ok answer) :
    answer.withoutEta = plain zone db response := by
  cases response with
  | file id row =>
    cases done
    rfl
  | content data =>
    cases done
    rfl
  | batch id row =>
    obtain ⟨out,rfl,built⟩ := render_batch done
    exact congrArg Answer.batch (batchOut_ok built)
  | batchList rows =>
    rw [render] at done
    cases built : rows.mapM (fun row => batchOut zone settings clock db row.2 row.1) with
    | error e =>
      rw [built] at done
      cases done
    | ok outs =>
      rw [built] at done
      cases done
      exact congrArg Answer.batchList (listed_ok built)

theorem withEta_same {base : Db} (same : Consumption.tokensConsumed db i = Consumption.tokensConsumed base i) (b : Batch) (x : BatchEtaOut) :
    withEta zone db i b x = withEta zone base i b x := by
  simp only [withEta,same]

theorem plain_same {base : Db} {response : Response}
    (same : ∀ i, Shows response i → Consumption.tokensConsumed db i = Consumption.tokensConsumed base i) :
    plain zone db response = plain zone base response := by
  cases response with
  | file => rfl
  | content => rfl
  | batch id row => exact congrArg Answer.batch (withEta_same (same id rfl) row {})
  | batchList rows =>
    exact congrArg Answer.batchList (List.map_congr_left fun row member => withEta_same (same row.2 ⟨row,member,rfl⟩) row.1 {})

end BatchGateway.BatchAnswers
