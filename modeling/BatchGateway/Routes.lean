import BatchGateway.Service

-- The routes of routers/files.py and routers/batches.py, for a user get_current_user has returned.
namespace BatchGateway.Routes
open PythonText PythonJson Raising BatchInput BatchOps LabelledRuns

-- read_blob opens the path itself.
inductive Failure where
  | raised (e : Raised)
  | fileNotFoundError
  deriving DecidableEq

def raising {α : Type} (x : Except Raised α) : Except Failure α := x.mapError .raised

def readBlob (blobs : Blobs) (file : FileId) : Except Failure Bytes :=
  match blobs file with
  | some data => .ok data
  | none => .error .fileNotFoundError

inductive Request where
  | createFile (filename : Option Str) (purpose : Str) (data : Bytes)
  | getFile (file : FileId)
  | getFileContent (file : FileId)
  | createBatch (inputFile : FileId) (endpoint completionWindow : Str)
  | getBatch (batch : BatchId)
  | listBatches (limit : Int)
  | cancelBatch (batch : BatchId)

-- The rows _file_out and _batch_out show, or the bytes sent.
inductive Response where
  | file (id : FileId) (row : FileObject)
  | content (data : Bytes)
  | batch (id : BatchId) (row : Batch)
  | batchList (rows : List (Batch × BatchId))

-- `file.filename or "upload.jsonl"`
def uploadName : Option Str → Str
  | some (c :: rest) => c :: rest
  | _ => text "upload.jsonl"

def createFile (user : UserId) (filename : Option Str) (purpose : Str) (data : Bytes) (now : Instant) (s : Service) :
    Except Failure (Service × Response) := do
  raising (require (purpose == text "batch")
    (.invalidRequest (text "Only purpose='batch' uploads are accepted on this server.") "purpose"))
  raising (require (!data.isEmpty) (.invalidRequest (text "Uploaded file is empty.") "file"))
  let t := Service.uploadFile user (uploadName filename) data now s
  let row ← raising (getOwnedFileOr404 t.db user s.db.files.length)
  return (t,.file s.db.files.length row)

def getFile (user : UserId) (file : FileId) (s : Service) : Except Failure (Service × Response) := do
  let row ← raising (getOwnedFileOr404 s.db user file)
  return (s,.file file row)

def getFileContent (user : UserId) (file : FileId) (s : Service) : Except Failure (Service × Response) := do
  let _ ← raising (getOwnedFileOr404 s.db user file)
  let data ← readBlob s.blobs file
  return (s,.content data)

def unsupportedEndpoint (endpoint : Str) : Raised :=
  .invalidRequest (text "Unsupported endpoint '" ++ endpoint ++ text "'. This server only serves '" ++
    supportedEndpoint ++ text "' (it hosts a single model).") "endpoint"

def windowError : Raised := .invalidRequest (text "completion_window must be '24h'.") "completion_window"

def wrongPurpose (file : FileId) : Raised :=
  .invalidRequest (text "File '" ++ text (toString file) ++ text "' was not uploaded with purpose='batch'.")
    "input_file_id"

variable (codec : Codec) (alpha : ℚ) (defaultMaxTokens : Int)

def createBatch (user : UserId) (inputFile : FileId) (endpoint completionWindow : Str) (now : Instant) (s : Service) :
    Except Failure (Service × Response) := do
  raising (require (endpoint == supportedEndpoint) (unsupportedEndpoint endpoint))
  raising (require (completionWindow == text "24h") windowError)
  let file ← raising (getOwnedFileOr404 s.db user inputFile)
  raising (require (file.purpose == .batchInput) (wrongPurpose inputFile))
  let raw ← readBlob s.blobs inputFile
  let lines ← raising (parseBatchInput codec endpoint defaultMaxTokens raw)
  let (db,batch) ← raising (BatchOps.createBatch codec user inputFile endpoint completionWindow lines now s.db)
  let row ← raising (getOwnedBatchOr404 db user batch)
  return ({s with db := db},.batch batch row)

def getBatch (user : UserId) (batch : BatchId) (s : Service) : Except Failure (Service × Response) := do
  let row ← raising (getOwnedBatchOr404 s.db user batch)
  return (s,.batch batch row)

-- max(1, min(limit, 100))
def pageSize (limit : Int) : Nat := (max 1 (min limit 100)).toNat

-- order_by(Batch.created_at.desc()).limit(limit)
def listBatches (user : UserId) (limit : Int) (s : Service) : Except Failure (Service × Response) :=
  let rows := s.db.batches.zipIdx.filter (fun row => row.1.userId == user)
  .ok (s,.batchList ((rows.insertionSort (fun x y => y.1.createdAt ≤ x.1.createdAt)).take (pageSize limit)))

def cancelBatch (user : UserId) (batch : BatchId) (now : Instant) (s : Service) :
    Except Failure (Service × Response) := do
  let db ← raising (BatchOps.cancelBatch user batch now s.db)
  let row ← raising (getOwnedBatchOr404 db user batch)
  return ({s with db := db},.batch batch row)

def handle (user : UserId) (now : Instant) : Request → Service → Except Failure (Service × Response)
  | .createFile filename purpose data => createFile user filename purpose data now
  | .getFile file => getFile user file
  | .getFileContent file => getFileContent user file
  | .createBatch inputFile endpoint window => createBatch codec defaultMaxTokens user inputFile endpoint window now
  | .getBatch batch => getBatch user batch
  | .listBatches limit => listBatches user limit
  | .cancelBatch batch => cancelBatch user batch now

inductive Action where
  | request (user : UserId) (request : Request) (now : Instant)
  | background (op : Service.Operation)

-- What happens without a student's request: the dispatcher, the retention job, the admin, a restart.
def background : Service.Operation → Bool
  | .uploadFile _ _ _ _ | .createBatch _ _ _ _ _ _ | .cancelBatch _ _ _ => false
  | _ => true

-- A request that raises leaves its session's changes uncommitted.
def advance : Action → Service → Option Service
  | .request user request now, s =>
    match handle codec defaultMaxTokens user now request s with
    | .ok (t,_) => some t
    | .error _ => some s
  | .background op, s => if background op then Service.advance codec alpha op s else none

def Step (s : Service) (action : Action) (t : Service) : Prop := advance codec alpha defaultMaxTokens action s = some t

variable {codec alpha defaultMaxTokens} {s t : Service} {user : UserId} {now : Instant} {response : Response}

theorem raising_ok {α : Type} {x : Except Raised α} {a : α} : raising x = .ok a ↔ x = .ok a := by
  cases x <;> simp [raising,Except.mapError]

theorem raising_error {α : Type} {x : Except Raised α} {e : Raised} (failed : x = .error e) :
    raising x = .error (.raised e) := by rw [failed]; rfl

theorem createFile_parts {filename : Option Str} {purpose : Str} {data : Bytes}
    (done : createFile user filename purpose data now s = .ok (t,response)) :
    purpose = text "batch" ∧ t = Service.uploadFile user (uploadName filename) data now s ∧
      ∃ id row, response = .file id row ∧ t.db.files[id]? = some (some row) ∧ row.userId = user := by
  unfold createFile at done
  obtain ⟨_,allowed,done⟩ := bind_ok done
  obtain ⟨_,_,done⟩ := bind_ok done
  obtain ⟨row,owned,done⟩ := bind_ok done
  cases done
  exact ⟨by simpa using require_ok.mp (raising_ok.mp allowed),rfl,_,row,rfl,owned_file (raising_ok.mp owned)⟩

theorem getFile_parts {f : FileId} (done : getFile user f s = .ok (t,response)) :
    t = s ∧ ∃ row, response = .file f row ∧ s.db.files[f]? = some (some row) ∧ row.userId = user := by
  obtain ⟨row,owned,done⟩ := bind_ok done
  cases done
  exact ⟨rfl,row,rfl,owned_file (raising_ok.mp owned)⟩

theorem getFileContent_parts {f : FileId} (done : getFileContent user f s = .ok (t,response)) :
    t = s ∧ ∃ row data, response = .content data ∧ s.db.files[f]? = some (some row) ∧ row.userId = user ∧
      s.blobs f = some data := by
  obtain ⟨row,owned,done⟩ := bind_ok done
  obtain ⟨data,read,done⟩ := bind_ok done
  cases done
  obtain ⟨found,mine⟩ := owned_file (raising_ok.mp owned)
  unfold readBlob at read
  split at read
  · rename_i stored
    cases read
    exact ⟨rfl,row,data,rfl,found,mine,stored⟩
  · cases read

theorem createBatch_parts (alpha : ℚ) {f : FileId} {endpoint window : Str}
    (done : createBatch codec defaultMaxTokens user f endpoint window now s = .ok (t,response)) :
    endpoint = supportedEndpoint ∧ window = text "24h" ∧
      (∃ row, s.db.files[f]? = some (some row) ∧ row.userId = user ∧ row.purpose = .batchInput) ∧
      (∃ raw lines, s.blobs f = some raw ∧ parseBatchInput codec endpoint defaultMaxTokens raw = .ok lines ∧
        Service.Step codec alpha s (.createBatch user f endpoint window lines now) t) ∧
      ∃ id row, response = .batch id row ∧ t.db.batches[id]? = some row ∧ row.userId = user := by
  unfold createBatch at done
  obtain ⟨_,endpoint_ok,done⟩ := bind_ok done
  obtain ⟨_,window_ok,done⟩ := bind_ok done
  obtain ⟨file,owned,done⟩ := bind_ok done
  obtain ⟨_,purpose,done⟩ := bind_ok done
  obtain ⟨raw,read,done⟩ := bind_ok done
  obtain ⟨lines,parsed,done⟩ := bind_ok done
  obtain ⟨⟨db,id⟩,created,done⟩ := bind_ok done
  obtain ⟨row,mine,done⟩ := bind_ok done
  cases done
  obtain ⟨found,own⟩ := owned_file (raising_ok.mp owned)
  have stored : s.blobs f = some raw := by
    unfold readBlob at read
    split at read
    · rename_i stored
      cases read
      exact stored
    · cases read
  refine ⟨by simpa using require_ok.mp (raising_ok.mp endpoint_ok),by simpa using require_ok.mp (raising_ok.mp window_ok),
    ⟨file,found,own,by simpa using require_ok.mp (raising_ok.mp purpose)⟩,⟨raw,lines,stored,raising_ok.mp parsed,?_⟩,
    _,row,rfl,owned_batch (raising_ok.mp mine)⟩
  simp only [Service.Step,Service.advance,raising_ok.mp created,returned,Option.map_some]

theorem getBatch_parts {i : BatchId} (done : getBatch user i s = .ok (t,response)) :
    t = s ∧ ∃ row, response = .batch i row ∧ s.db.batches[i]? = some row ∧ row.userId = user := by
  obtain ⟨row,owned,done⟩ := bind_ok done
  cases done
  exact ⟨rfl,row,rfl,owned_batch (raising_ok.mp owned)⟩

theorem listBatches_parts {limit : Int} (done : listBatches user limit s = .ok (t,response)) :
    t = s ∧ ∃ rows, response = .batchList rows ∧ rows.length ≤ pageSize limit ∧
      ∀ row ∈ rows, s.db.batches[row.2]? = some row.1 ∧ row.1.userId = user := by
  cases done
  refine ⟨rfl,_,rfl,List.length_take_le ..,fun row member => ?_⟩
  have sorted := (List.take_subset ..) member
  have listed := (List.perm_insertionSort ..).mem_iff.mp sorted
  obtain ⟨there,mine⟩ := List.mem_filter.mp listed
  exact ⟨List.mk_mem_zipIdx_iff_getElem?.mp there,by simpa using mine⟩

theorem cancelBatch_parts (codec : Codec) (alpha : ℚ) {i : BatchId} (done : cancelBatch user i now s = .ok (t,response)) :
    Service.Step codec alpha s (.cancelBatch user i now) t ∧
      ∃ row, response = .batch i row ∧ t.db.batches[i]? = some row ∧ row.userId = user := by
  obtain ⟨db,cancelled,done⟩ := bind_ok done
  obtain ⟨row,owned,done⟩ := bind_ok done
  cases done
  refine ⟨?_,row,rfl,owned_batch (raising_ok.mp owned)⟩
  simp only [Service.Step,Service.advance,raising_ok.mp cancelled,returned,Option.map_some]

-- The operation a request performs, with what its route has checked.
inductive Performs (s : Service) : Action → Service.Operation → Prop where
  | upload (user : UserId) (filename : Option Str) (data : Bytes) (now : Instant) :
      Performs s (.request user (.createFile filename (text "batch") data) now)
        (.uploadFile user (uploadName filename) data now)
  | submit (user : UserId) (f : FileId) (lines : List ParsedLine) (now : Instant)
      (owned : ∃ row, s.db.files[f]? = some (some row) ∧ row.userId = user ∧ row.purpose = .batchInput) :
      Performs s (.request user (.createBatch f supportedEndpoint (text "24h")) now)
        (.createBatch user f supportedEndpoint (text "24h") lines now)
  | cancel (user : UserId) (i : BatchId) (now : Instant) :
      Performs s (.request user (.cancelBatch i) now) (.cancelBatch user i now)
  | background (op : Service.Operation) (allowed : background op = true) : Performs s (.background op) op

theorem step_performs {action : Action} (step : Step codec alpha defaultMaxTokens s action t) :
    t = s ∨ ∃ op, Service.Step codec alpha s op t ∧ Performs s action op := by
  cases action with
  | background op =>
    simp only [Step,advance] at step
    split at step
    · rename_i allowed
      exact .inr ⟨op,step,.background op allowed⟩
    · cases step
  | request user request now =>
    simp only [Step,advance] at step
    split at step
    · rename_i after response done
      cases step
      cases request with
      | createFile filename purpose data =>
        obtain ⟨rfl,rfl,_⟩ := createFile_parts done
        exact .inr ⟨.uploadFile user (uploadName filename) data now,rfl,.upload user filename data now⟩
      | getFile f => exact .inl (getFile_parts done).1
      | getFileContent f => exact .inl (getFileContent_parts done).1
      | createBatch f endpoint window =>
        obtain ⟨rfl,rfl,owned,⟨_,lines,_,_,created⟩,_⟩ := createBatch_parts alpha done
        exact .inr ⟨_,created,.submit user f lines now owned⟩
      | getBatch i => exact .inl (getBatch_parts done).1
      | listBatches limit => exact .inl (listBatches_parts done).1
      | cancelBatch i => exact .inr ⟨_,(cancelBatch_parts codec alpha done).1,.cancel user i now⟩
    · cases step
      exact .inl rfl

-- The requests that name a file or a batch, and the errors they meet when it is not the user's.
def Foreign (db : Db) (user : UserId) : Request → Prop
  | .createFile _ _ _ | .listBatches _ => False
  | .getFile f | .getFileContent f | .createBatch f _ _ => ∃ row, db.files[f]? = some (some row) ∧ row.userId ≠ user
  | .getBatch i | .cancelBatch i => ∃ b, db.batches[i]? = some b ∧ b.userId ≠ user

-- The parameters beside the id.
def OtherwiseValid : Request → Prop
  | .createBatch _ endpoint window => endpoint = supportedEndpoint ∧ window = text "24h"
  | _ => True

theorem foreign_file {db : Db} {f : FileId} {row : FileObject} (found : db.files[f]? = some (some row))
    (other : row.userId ≠ user) : getOwnedFileOr404 db user f = .error (.notFound "No such file.") := by
  simp [getOwnedFileOr404,found,other]

theorem foreign_batch {db : Db} {i : BatchId} {b : Batch} (found : db.batches[i]? = some b) (other : b.userId ≠ user) :
    getOwnedBatchOr404 db user i = .error (.notFound "No such batch.") := by
  simp [getOwnedBatchOr404,found,other]

theorem bind_raised {α β : Type} {x : Except Raised α} {e : Raised} (failed : x = .error e) (f : α → Except Failure β) :
    (raising x >>= f) = .error (.raised e) := by
  rw [raising_error failed]
  rfl

theorem bind_returned {α β : Type} {x : Except Raised α} {a : α} (passed : x = .ok a) (f : α → Except Failure β) :
    (raising x >>= f) = f a := by
  rw [raising_ok.mpr passed]
  rfl

theorem foreign_fails (codec : Codec) (defaultMaxTokens : Int) (now : Instant) {request : Request}
    (foreign : Foreign s.db user request) :
    ∃ e, handle codec defaultMaxTokens user now request s = .error e ∧
      (OtherwiseValid request → ∃ message, e = .raised (.notFound message)) := by
  cases request with
  | createFile => cases foreign
  | listBatches => cases foreign
  | getFile f =>
    obtain ⟨row,found,other⟩ := foreign
    exact ⟨_,bind_raised (foreign_file found other) _,fun _ => ⟨_,rfl⟩⟩
  | getFileContent f =>
    obtain ⟨row,found,other⟩ := foreign
    exact ⟨_,bind_raised (foreign_file found other) _,fun _ => ⟨_,rfl⟩⟩
  | getBatch i =>
    obtain ⟨b,found,other⟩ := foreign
    exact ⟨_,bind_raised (foreign_batch found other) _,fun _ => ⟨_,rfl⟩⟩
  | cancelBatch i =>
    obtain ⟨b,found,other⟩ := foreign
    have refused : BatchOps.cancelBatch user i now s.db = .error (.notFound "No such batch.") := by
      rw [BatchOps.cancelBatch,foreign_batch found other]
      rfl
    exact ⟨_,bind_raised refused _,fun _ => ⟨_,rfl⟩⟩
  | createBatch f endpoint window =>
    obtain ⟨row,found,other⟩ := foreign
    by_cases served : endpoint = supportedEndpoint
    · have endpoint_ok : require (endpoint == supportedEndpoint) (unsupportedEndpoint endpoint) = .ok () :=
        require_ok.mpr (by simpa using served)
      by_cases day : window = text "24h"
      · have window_ok : require (window == text "24h") windowError = .ok () := require_ok.mpr (by simpa using day)
        refine ⟨.raised (.notFound "No such file."),?_,fun _ => ⟨_,rfl⟩⟩
        exact (bind_returned endpoint_ok _).trans ((bind_returned window_ok _).trans (bind_raised (foreign_file found other) _))
      · have window_bad : require (window == text "24h") windowError = .error windowError := by simp [require,day]
        refine ⟨.raised windowError,?_,fun valid => absurd valid.2 day⟩
        exact (bind_returned endpoint_ok _).trans (bind_raised window_bad _)
    · have endpoint_bad : require (endpoint == supportedEndpoint) (unsupportedEndpoint endpoint) =
          .error (unsupportedEndpoint endpoint) := by simp [require,served]
      exact ⟨.raised (unsupportedEndpoint endpoint),bind_raised endpoint_bad _,fun valid => absurd valid.1 served⟩

end BatchGateway.Routes
