import BatchGateway.BatchAnswers
import BatchGateway.Footprints

-- What the other tenants can change of one user's answers.
namespace BatchGateway.Noninterference
open PythonText PythonJson PythonTime Raising BatchInput BatchOps LabelledRuns Counters ResultFiles FileOwnership Routes BatchAnswers
  Footprints

variable (codec : Codec) (alpha : ℚ) (defaultMaxTokens : Int)

-- The rows a request is answered with, and the answer itself.
def answer (user : UserId) (request : Request) (now : Instant) (s : Service) : Except Failure Response :=
  (handle codec defaultMaxTokens user now request s).map Prod.snd

def sent (zone : Zone) (settings : QueueEta.Settings) (clock : BatchId → Instant) (user : UserId) (request : Request) (now : Instant)
    (s : Service) : Except Failure (Except QueueEta.EtaError Answer) :=
  (answered codec defaultMaxTokens zone settings clock user now request s).map Prod.snd

-- The requests whose answer holds no id that is given only now.
def Addressed : Request → Prop
  | .createFile _ _ _ | .createBatch _ _ _ => False
  | .getFile _ | .getFileContent _ | .getBatch _ | .listBatches _ | .cancelBatch _ => True

-- Whose rows an action can touch.
def concernedBy (s : Service) : Action → List UserId
  | .request user _ _ => [user]
  | .background op => concerned s op

def Apart (user : UserId) (s : Service) (action : Action) : Prop := user ∉ concernedBy s action

instance (user : UserId) (s : Service) (action : Action) : Decidable (Apart user s action) :=
  inferInstanceAs (Decidable (user ∉ concernedBy s action))

-- What two states have in common for a user: the rows, and every answer but for its estimates.
structure Alike (user : UserId) (s t : Service) : Prop where
  rows : Untouched user s t
  answers : ∀ zone settings clock request now, Addressed request →
    SameAnswer (sent codec defaultMaxTokens zone settings clock user request now t)
      (sent codec defaultMaxTokens zone settings clock user request now s)
  refusals : ∀ zone settings clock request now, refusal (sent codec defaultMaxTokens zone settings clock user request now t) =
    refusal (sent codec defaultMaxTokens zone settings clock user request now s)

variable {codec alpha defaultMaxTokens} {s t : Service} {user : UserId} {actions before : List Action}

theorem refusal_map {ε α β : Type} (f : α → β) (x : Except ε α) : refusal (x.map f) = refusal x := by
  cases x <;> rfl

-- The same refusal, and nothing else to tell.
theorem map_same {ε α β γ : Type} {x : Except ε α} {y : Except ε β} (same : refusal x = refusal y) (r : γ) :
    x.map (fun _ => r) = y.map (fun _ => r) := by
  cases x with
  | error e =>
    cases y with
    | error other =>
      cases same
      rfl
    | ok _ => cases same
  | ok _ =>
    cases y with
    | error other => cases same
    | ok _ => rfl

theorem owned_file_or (db : Db) (user : UserId) (f : FileId) : (∃ row, getOwnedFileOr404 db user f = .ok row) ∨
    getOwnedFileOr404 db user f = .error (.notFound "No such file.") := by
  unfold getOwnedFileOr404
  split
  · split
    · exact .inl ⟨_,rfl⟩
    · exact .inr rfl
  · exact .inr rfl

theorem owned_batch_or (db : Db) (user : UserId) (i : BatchId) : (∃ b, getOwnedBatchOr404 db user i = .ok b) ∨
    getOwnedBatchOr404 db user i = .error (.notFound "No such batch.") := by
  unfold getOwnedBatchOr404
  split
  · split
    · exact .inl ⟨_,rfl⟩
    · exact .inr rfl
  · exact .inr rfl

theorem file_owned {db : Db} {f : FileId} {row : FileObject} (found : db.files[f]? = some (some row)) (mine : row.userId = user) :
    getOwnedFileOr404 db user f = .ok row := by
  simp [getOwnedFileOr404,found,mine]

theorem batch_owned {db : Db} {i : BatchId} {b : Batch} (found : db.batches[i]? = some b) (mine : b.userId = user) :
    getOwnedBatchOr404 db user i = .ok b := by
  simp [getOwnedBatchOr404,found,mine]

-- A ledger call raises by the budget of its user alone.
theorem perform_same {flush : Except Raised Unit} {call : Ledger.Call} {db base : Db}
    (same : base.getOrCreateBudget call.user = db.getOrCreateBudget call.user) :
    refusal (Ledger.perform flush call base) = refusal (Ledger.perform flush call db) := by
  unfold Ledger.perform
  rw [same]
  refine refusal_bind rfl fun _ _ _ _ => refusal_bind rfl fun _ _ _ _ => refusal_bind rfl fun a c first second => ?_
  cases first.symm.trans second
  exact refusal_bind rfl fun _ _ _ _ => rfl

theorem reserve_same {flush : Except Raised Unit} {tokens : Int} {note : Option Str} (batch other : Option BatchId) {db base : Db}
    (same : base.getOrCreateBudget user = db.getOrCreateBudget user) :
    refusal (Ledger.perform flush (Ledger.reserve user tokens batch note) base) =
      refusal (Ledger.perform flush (Ledger.reserve user tokens other note) db) := by
  have alike : refusal (Ledger.perform flush (Ledger.reserve user tokens batch note) base) =
      refusal (Ledger.perform flush (Ledger.reserve user tokens batch note) db) := perform_same same
  rw [alike]
  unfold Ledger.perform Ledger.reserve
  refine refusal_bind rfl fun _ _ _ _ => refusal_bind rfl fun _ _ _ _ => ?_
  dsimp only
  split
  · rfl
  · refine refusal_bind rfl fun _ _ first second => ?_
    cases first
    cases second
    exact refusal_bind rfl fun _ _ _ _ => rfl

-- What cancelling a batch of one's own answers: the row, if its release goes through.
theorem cancelled_answer {i : BatchId} {b : Batch} (found : s.db.batches[i]? = some b) (mine : b.userId = user) (now : Instant) :
    answer codec defaultMaxTokens user (.cancelBatch i) now s = (raising (requireCancellable b) >>= fun _ =>
      (raising (terminateBatch user i .cancelled "batch cancelled" now s.db)).map
        fun _ => Response.batch i (Batch.terminate .cancelled now b)) := by
  have called : BatchOps.cancelBatch user i now s.db =
      (requireCancellable b >>= fun _ => terminateBatch user i .cancelled "batch cancelled" now s.db) := by
    unfold BatchOps.cancelBatch
    rw [batch_owned found mine]
    rfl
  have refused : ∀ e, BatchOps.cancelBatch user i now s.db = .error e →
      answer codec defaultMaxTokens user (.cancelBatch i) now s = .error (.raised e) := by
    intro e failed
    simp only [answer,handle,Routes.cancelBatch,failed]
    rfl
  cases allowed : requireCancellable b with
  | error e => exact refused e (called.trans (by rw [allowed]; rfl))
  | ok _ =>
    cases stopped : terminateBatch user i .cancelled "batch cancelled" now s.db with
    | error e => exact refused e (called.trans (by rw [allowed,stopped]; rfl))
    | ok after =>
      have done : BatchOps.cancelBatch user i now s.db = .ok after := called.trans (by rw [allowed,stopped]; rfl)
      have there : after.batches[i]? = some (Batch.terminate .cancelled now b) := by
        rw [RowMoves.stop_batches stopped]
        exact Rows.getElem?_modify_self found _
      have read : getOwnedBatchOr404 after user i = .ok (Batch.terminate .cancelled now b) := batch_owned there mine
      have response : Routes.cancelBatch user i now s =
          .ok ({s with db := after},.batch i (Batch.terminate .cancelled now b)) :=
        (bind_returned done _).trans (bind_returned read _)
      exact congrArg (Except.map Prod.snd) response

section Sent
variable {zone : Zone} {settings : QueueEta.Settings} {clock : BatchId → Instant} {request : Request} {now : Instant}

theorem sent_refusal : refusal (sent codec defaultMaxTokens zone settings clock user request now s) =
    refusal (answer codec defaultMaxTokens user request now s) := by
  unfold sent answer answered
  cases handle codec defaultMaxTokens user now request s <;> rfl

theorem sent_ok {a : Answer} (shown : sent codec defaultMaxTokens zone settings clock user request now s = .ok (.ok a)) :
    ∃ after response, handle codec defaultMaxTokens user now request s = .ok (after,response) ∧
      answer codec defaultMaxTokens user request now s = .ok response ∧ a.withoutEta = plain zone after.db response := by
  unfold sent answered at shown
  unfold answer
  cases handled : handle codec defaultMaxTokens user now request s with
  | error e =>
    rw [handled] at shown
    cases shown
  | ok done =>
    rw [handled] at shown
    exact ⟨done.1,done.2,rfl,rfl,render_plain (Except.ok.inj shown)⟩

-- A request that names its row, or lists one's own, charges nothing and shows one's own batches.
theorem addressed_shows {after : Service} {response : Response} (addressed : Addressed request)
    (handled : handle codec defaultMaxTokens user now request s = .ok (after,response)) :
    (∀ i, Consumption.tokensConsumed after.db i = Consumption.tokensConsumed s.db i) ∧
    ∀ i, Shows response i → ∃ b, s.db.batches[i]? = some b ∧ b.userId = user := by
  cases request with
  | createFile => cases addressed
  | createBatch => cases addressed
  | getFile f =>
    obtain ⟨rfl,row,rfl,_⟩ := getFile_parts handled
    exact ⟨fun _ => rfl,fun _ shows => by cases shows⟩
  | getFileContent f =>
    obtain ⟨rfl,row,data,rfl,_⟩ := getFileContent_parts handled
    exact ⟨fun _ => rfl,fun _ shows => by cases shows⟩
  | getBatch i =>
    obtain ⟨rfl,b,rfl,found,mine⟩ := getBatch_parts handled
    refine ⟨fun _ => rfl,fun j shows => ?_⟩
    cases shows
    exact ⟨b,found,mine⟩
  | listBatches limit =>
    obtain ⟨rfl,rows,rfl,_,own⟩ := listBatches_parts handled
    refine ⟨fun _ => rfl,fun j shows => ?_⟩
    obtain ⟨row,member,rfl⟩ := shows
    exact ⟨row.1,own row member⟩
  | cancelBatch i =>
    obtain ⟨step,b,rfl,_⟩ := cancelBatch_parts codec 0 handled
    refine ⟨fun j => ?_,fun j shows => ?_⟩
    · have none_ : (AuditTrail.posted s (.cancelBatch user i now)).filter
          (fun e => e.batchId == some j && e.entryType == .charge) = [] := by
        refine List.filter_eq_nil_iff.mpr fun e member both => ?_
        obtain ⟨_,_,_,_,settles,_⟩ := AuditTrail.charge_posted step member (eq_of_beq (Bool.and_eq_true_iff.mp both).2)
        cases settles
      unfold Consumption.tokensConsumed
      rw [AuditTrail.ledger_posted step,List.filter_append,none_,List.append_nil]
    · cases shows
      obtain ⟨old,_,found,mine,_⟩ := Service.cancel_step step
      exact ⟨old,found,mine⟩

end Sent

section Untouched
variable (rows : Untouched user s t)
include rows

theorem file_same (f : FileId) : getOwnedFileOr404 t.db user f = getOwnedFileOr404 s.db user f := by
  rcases owned_file_or s.db user f with ⟨row,owned⟩ | missing
  · obtain ⟨there,mine⟩ := owned_file owned
    exact (file_owned ((rows.files f row mine).mpr there) mine).trans owned.symm
  · rcases owned_file_or t.db user f with ⟨row,owned⟩ | same
    · obtain ⟨there,mine⟩ := owned_file owned
      cases missing.symm.trans (file_owned ((rows.files f row mine).mp there) mine)
    · exact same.trans missing.symm

theorem batch_same (i : BatchId) : getOwnedBatchOr404 t.db user i = getOwnedBatchOr404 s.db user i := by
  rcases owned_batch_or s.db user i with ⟨b,owned⟩ | missing
  · obtain ⟨there,mine⟩ := owned_batch owned
    exact (batch_owned ((rows.batches i b mine).mpr there) mine).trans owned.symm
  · rcases owned_batch_or t.db user i with ⟨b,owned⟩ | same
    · obtain ⟨there,mine⟩ := owned_batch owned
      cases missing.symm.trans (batch_owned ((rows.batches i b mine).mp there) mine)
    · exact same.trans missing.symm

theorem content_same {f : FileId} {row : FileObject} (owned : getOwnedFileOr404 s.db user f = .ok row) :
    readBlob t.blobs f = readBlob s.blobs f := by
  obtain ⟨there,mine⟩ := owned_file owned
  simp only [readBlob,rows.content f row mine there]

theorem stops_same {i : BatchId} {b : Batch} (found : s.db.batches[i]? = some b) (mine : b.userId = user) :
    tasksToStop t.db i = tasksToStop s.db i := by
  have there := (rows.batches i b mine).mpr found
  refine Rows.selected_iff (p := fun row : Task => row.batchId == i && row.live) fun j row chosen => ?_
  have named : row.batchId = i := eq_of_beq (Bool.and_eq_true_iff.mp chosen).1
  have owner : ∀ {db : Db}, db.batches[i]? = some b → db.owner row = some user := by
    intro db listed
    rw [Db.owner,named,listed,Option.map_some,mine]
  constructor
  · intro listed
    exact ((rows.tasks j row).mp ⟨listed,owner there⟩).1
  · intro listed
    exact ((rows.tasks j row).mpr ⟨listed,owner found⟩).1

theorem termination_same {i : BatchId} {b : Batch} (found : s.db.batches[i]? = some b) (mine : b.userId = user)
    (terminal : BatchStatus) (note : String) (now : Instant) :
    refusal (terminateBatch user i terminal note now t.db) = refusal (terminateBatch user i terminal note now s.db) := by
  unfold terminateBatch terminateSelected
  rw [stops_same rows found mine]
  split
  · exact perform_same rows.budget
  · rfl

theorem submission_same (f : FileId) (endpoint window : Str) (lines : List ParsedLine) (now : Instant) :
    refusal (BatchOps.createBatch codec user f endpoint window lines now t.db) =
      refusal (BatchOps.createBatch codec user f endpoint window lines now s.db) := by
  unfold BatchOps.createBatch
  exact refusal_bind (reserve_same _ _ rows.budget) fun _ _ _ _ => rfl

theorem cancellation_same (i : BatchId) (now : Instant) :
    answer codec defaultMaxTokens user (.cancelBatch i) now t = answer codec defaultMaxTokens user (.cancelBatch i) now s := by
  rcases owned_batch_or s.db user i with ⟨b,owned⟩ | missing
  · obtain ⟨found,mine⟩ := owned_batch owned
    rw [cancelled_answer found mine,cancelled_answer ((rows.batches i b mine).mpr found) mine]
    congr 1
    funext _
    exact map_same (refusal_mapError _ (termination_same rows found mine .cancelled "batch cancelled" now)) _
  · have absent := (batch_same rows i).trans missing
    simp only [answer,handle,Routes.cancelBatch,BatchOps.cancelBatch,missing,absent]
    rfl

theorem answers_same (request : Request) (now : Instant) (addressed : Addressed request) :
    answer codec defaultMaxTokens user request now t = answer codec defaultMaxTokens user request now s := by
  cases request with
  | createFile => cases addressed
  | createBatch => cases addressed
  | getFile f =>
    simp only [answer,handle,getFile,file_same rows]
    cases getOwnedFileOr404 s.db user f <;> rfl
  | getFileContent f =>
    simp only [answer,handle,getFileContent,file_same rows]
    cases owned : getOwnedFileOr404 s.db user f with
    | error e => rfl
    | ok row =>
      rw [content_same rows owned]
      cases readBlob s.blobs f <;> rfl
  | getBatch i =>
    simp only [answer,handle,getBatch,batch_same rows]
    cases getOwnedBatchOr404 s.db user i <;> rfl
  | listBatches limit =>
    have listed : t.db.batches.zipIdx.filter (fun row => row.1.userId == user) =
        s.db.batches.zipIdx.filter (fun row => row.1.userId == user) :=
      Rows.selected_iff (p := fun b : Batch => b.userId == user) fun i b mine => rows.batches i b (eq_of_beq mine)
    simp only [answer,handle,listBatches,listed]
    rfl
  | cancelBatch i => exact cancellation_same rows i now

theorem refusals_same (request : Request) (now : Instant) : refusal (answer codec defaultMaxTokens user request now t) =
    refusal (answer codec defaultMaxTokens user request now s) := by
  cases request with
  | createFile filename purpose data =>
    simp only [answer,handle,refusal_map,Routes.createFile]
    refine refusal_bind rfl fun _ _ _ _ => refusal_bind rfl fun _ _ _ _ => refusal_bind ?_ fun _ _ _ _ => rfl
    have stored : ∀ r : Service, getOwnedFileOr404 (Service.uploadFile user (uploadName filename) data now r).db user
        r.db.files.length = .ok ⟨user,.batchInput,.upload (uploadName filename),data.length,now⟩ := by
      intro r
      exact file_owned List.getElem?_concat_length rfl
    rw [stored s,stored t]
  | createBatch f endpoint window =>
    simp only [answer,handle,refusal_map,Routes.createBatch,file_same rows]
    refine refusal_bind rfl fun _ _ _ _ => refusal_bind rfl fun _ _ _ _ => refusal_bind rfl fun row row' owned owned' => ?_
    cases owned.symm.trans owned'
    rw [content_same rows (raising_ok.mp owned)]
    refine refusal_bind rfl fun _ _ _ _ => refusal_bind rfl fun raw raw' read read' => ?_
    cases read.symm.trans read'
    refine refusal_bind rfl fun lines lines' parsed parsed' => ?_
    cases parsed.symm.trans parsed'
    refine refusal_bind (refusal_mapError _ (submission_same rows f endpoint window lines now)) fun a c first second => ?_
    refine refusal_bind ?_ fun _ _ _ _ => rfl
    have listed : ∀ {r : Service} {made : Db × BatchId}, raising (BatchOps.createBatch codec user f endpoint window lines now r.db) =
        .ok made → getOwnedBatchOr404 made.1 user made.2 = .ok (newBatch user f endpoint window lines now) := by
      intro r made done
      obtain ⟨id,_,_,_,_,same⟩ := BatchOps.createBatch_parts (raising_ok.mp done)
      rw [id,same]
      exact batch_owned List.getElem?_concat_length rfl
    rw [listed first,listed second]
  | getFile f => exact congrArg refusal (answers_same rows (.getFile f) now trivial)
  | getFileContent f => exact congrArg refusal (answers_same rows (.getFileContent f) now trivial)
  | getBatch i => exact congrArg refusal (answers_same rows (.getBatch i) now trivial)
  | listBatches limit => exact congrArg refusal (answers_same rows (.listBatches limit) now trivial)
  | cancelBatch i => exact congrArg refusal (answers_same rows (.cancelBatch i) now trivial)

-- An answer that shows a batch of the user's shows what it has consumed.
theorem sent_same (zone : Zone) (settings : QueueEta.Settings) (clock : BatchId → Instant) (request : Request) (now : Instant)
    (addressed : Addressed request) : SameAnswer (sent codec defaultMaxTokens zone settings clock user request now t)
      (sent codec defaultMaxTokens zone settings clock user request now s) := by
  refine ⟨?_,fun a b later earlier => ?_⟩
  · rw [sent_refusal,sent_refusal]
    exact refusals_same rows request now
  · obtain ⟨_,_,handled,answers,shown⟩ := sent_ok later
    obtain ⟨_,_,first,was,before⟩ := sent_ok earlier
    cases (answers.symm.trans (answers_same rows request now addressed)).trans was
    obtain ⟨free,_⟩ := addressed_shows addressed handled
    obtain ⟨kept,own⟩ := addressed_shows addressed first
    rw [shown,before]
    refine plain_same fun i shows => ?_
    obtain ⟨row,found,mine⟩ := own i shows
    rw [free,kept]
    exact rows.consumed i row mine found

end Untouched

theorem performs_concerned {action : Action} {op : Service.Operation} (performs : Performs s action op) (acts : ActsFor s op user) :
    user ∈ concernedBy s action := by
  cases performs with
  | background op => exact acts.listed
  | upload => exact acts.listed
  | submit => exact acts.listed
  | cancel => exact acts.listed

theorem step_untouched {action : Action} (valid : TenantIsolation.Isolated codec before s)
    (step : Routes.Step codec alpha defaultMaxTokens s action t) (apart : Apart user s action) : Untouched user s t := by
  have after := TenantIsolation.isolated_step valid step
  rcases step_performs step with rfl | ⟨op,performed,performs⟩
  · exact .refl user _
  · exact untouched_step valid after.tidy performed fun acts => apart (performs_concerned performs acts)

theorem run_untouched (prior : Run (Routes.Step codec alpha defaultMaxTokens) {} before s)
    (later : Run (Guarded (Apart user) (Routes.Step codec alpha defaultMaxTokens)) s actions t) : Untouched user s t := by
  induction later with
  | nil => exact .refl user s
  | step path last ih =>
    obtain ⟨apart,step⟩ := last
    exact ih.trans (step_untouched (TenantIsolation.run_isolated (prior.append path.unguarded)) step apart)

-- Whatever the other tenants request, and whatever is done for them meanwhile, a user
-- has what they had and, but for the estimates, is answered as before.
theorem tenants_apart (prior : Run (Routes.Step codec alpha defaultMaxTokens) {} before s)
    (later : Run (Guarded (Apart user) (Routes.Step codec alpha defaultMaxTokens)) s actions t) :
    Alike codec defaultMaxTokens user s t := by
  have rows := run_untouched prior later
  refine ⟨rows,sent_same rows,fun zone settings clock request now => ?_⟩
  rw [sent_refusal,sent_refusal]
  exact refusals_same rows request now

-- A second user's grant, upload, submission, pass, answer, failure and cancellation beside the first one's results.
def elsewhere : List Action :=
  [.background (.grant 2 1000 none),
    .request 2 (.createFile none (text "batch") (Service.inputFile [Service.requestLine "c" "",Service.requestLine "d" ""])) 5,
    .request 2 (.createBatch 3 supportedEndpoint (text "24h")) 6,.background Service.claimPass,
    .background (.completeTask 2 (.obj []) 3 2 7),.request 2 (.cancelBatch 0) 8,.request 2 (.cancelBatch 1) 9,
    .background (.startup [])]

theorem tenants_apart_elsewhere : ∃ s t, Alike JsonText.codec 16 1 s t ∧
    t.db.batches.map Batch.status = [.completed,.cancelled] ∧ s.db.batches.map Batch.status = [.completed] := by
  have ran : (replay (Routes.advance JsonText.codec (3/10) 16) TenantIsolation.answeredBatch {}).any (fun s =>
      decide (s.db.batches.map Batch.status = [.completed]) &&
        (replay (checked (Apart 1) (Routes.advance JsonText.codec (3/10) 16)) elsewhere s).any (fun t =>
          decide (t.db.batches.map Batch.status = [.completed,.cancelled]))) = true := by decide +kernel
  obtain ⟨s,prior,facts⟩ := replay_reaches ran
  obtain ⟨single,ran⟩ := Bool.and_eq_true_iff.mp facts
  obtain ⟨t,later,both⟩ := checked_reaches ran
  have prior : Run (Routes.Step JsonText.codec (3/10) 16) {} TenantIsolation.answeredBatch s := prior
  exact ⟨s,t,tenants_apart prior later,of_decide_eq_true both,of_decide_eq_true single⟩

end BatchGateway.Noninterference
