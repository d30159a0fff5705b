import BatchGateway.Dispatcher
import BatchGateway.LabelledRuns
import BatchGateway.Retention

namespace BatchGateway
open PythonText PythonJson Raising BatchInput BatchOps LabelledRuns

-- The committed database, the blob directory, and the executions the dispatcher
-- has started and not yet settled.
structure Service where
  db : Db := {}
  blobs : Blobs := fun _ => none
  inFlight : List TaskId := []

namespace Service

-- The operations of the service, each run to its end.
inductive Operation where
  | grant (user : UserId) (tokens : Int) (note : Option Str)
  | uploadFile (user : UserId) (name : Str) (data : Bytes) (now : Instant)
  | createBatch (user : UserId) (inputFile : FileId) (endpoint completionWindow : Str) (lines : List ParsedLine)
      (now : Instant)
  | claimAndAssign (load : Dispatcher.InFlight) (now : Instant)
  | completeTask (task : TaskId) (responseBody : Json) (promptTokens completionTokens : Int) (now : Instant)
  | failTask (task : TaskId) (error : Str) (now : Instant)
  | cancelBatch (user : UserId) (batch : BatchId) (now : Instant)
  | expireBatch (batch : BatchId) (now : Instant)
  | purgeExpiredResults (retentionDays : Int) (now : Instant)
  | applyHealthResults (threshold : Int) (results : List (NodeName × Bool))
  | startup (nodes : List Dispatcher.NodeConfig)

def uploadFile (user : UserId) (name : Str) (data : Bytes) (now : Instant) (s : Service) : Service :=
  {s with
    db := {s.db with files := s.db.files ++ [some ⟨user,.batchInput,.upload name,data.length,now⟩]}
    blobs := writeBlob s.blobs s.db.files.length data}

variable (codec : Codec) (alpha : ℚ)

-- An operation that raises has no effect and no step. A settlement needs an
-- execution in flight; nothing asks whether its task is still RUNNING.
def advance : Operation → Service → Option Service
  | .grant user tokens note, s =>
    (returned (Ledger.perform (.ok ()) (Ledger.grant user tokens note) s.db)).map (fun db => {s with db := db})
  | .uploadFile user name data now, s => some (uploadFile user name data now s)
  | .createBatch user inputFile endpoint window lines now, s =>
    (returned (createBatch codec user inputFile endpoint window lines now s.db)).map (fun r => {s with db := r.1})
  | .claimAndAssign load now, s =>
    let (db,chosen) := Dispatcher.claimAndAssign load now s.db
    some {s with db := db,inFlight := s.inFlight ++ chosen.map Dispatcher.Assignment.task}
  | .completeTask task responseBody promptTokens completionTokens now, s =>
    if task ∈ s.inFlight then
      (returned (completeTask codec alpha task responseBody promptTokens completionTokens now s.db s.blobs)).map
        (fun r => ⟨r.1,r.2,s.inFlight.erase task⟩)
    else none
  | .failTask task error now, s =>
    if task ∈ s.inFlight then
      (returned (failTask codec task error now s.db s.blobs)).map (fun r => ⟨r.1,r.2,s.inFlight.erase task⟩)
    else none
  | .cancelBatch user batch now, s => (returned (cancelBatch user batch now s.db)).map (fun db => {s with db := db})
  | .expireBatch batch now, s => (returned (expireBatch batch now s.db)).map (fun db => {s with db := db})
  | .purgeExpiredResults retentionDays now, s =>
    let (db,blobs) := Retention.purgeExpiredResults retentionDays now s.db s.blobs
    some {s with db := db,blobs := blobs}
  | .applyHealthResults threshold results, s =>
    some {s with db := Dispatcher.applyHealthResults threshold results s.db}
  | .startup nodes, s => some {s with db := Dispatcher.startup nodes s.db,inFlight := []}

def Step (s : Service) (op : Operation) (t : Service) : Prop := advance codec alpha op s = some t

variable {codec alpha} {s t : Service}

-- A settlement commits, then finalizes after what it has committed.
theorem settled_parts {task : TaskId} {now : Instant} {commit : Except Raised Db}
    (stepped : (returned (do let db ← commit; return finalizeAfter codec task now db s.blobs)).map
      (fun r => (⟨r.1,r.2,s.inFlight.erase task⟩ : Service)) = some t) :
    ∃ db, commit = .ok db ∧
      t = ⟨(finalizeAfter codec task now db s.blobs).1,(finalizeAfter codec task now db s.blobs).2,s.inFlight.erase task⟩ := by
  obtain ⟨r,done,rfl⟩ := Option.map_eq_some_iff.mp stepped
  rw [returned_some] at done
  obtain ⟨db,committed,same⟩ := bind_ok done
  cases same
  exact ⟨db,committed,rfl⟩

theorem complete_step {task : TaskId} {responseBody : Json} {promptTokens completionTokens : Int} {now : Instant}
    (step : Step codec alpha s (.completeTask task responseBody promptTokens completionTokens now) t) :
    task ∈ s.inFlight ∧ ∃ db, commitCompleted codec alpha task responseBody promptTokens completionTokens now s.db = .ok db ∧
      t = ⟨(finalizeAfter codec task now db s.blobs).1,(finalizeAfter codec task now db s.blobs).2,
        s.inFlight.erase task⟩ := by
  simp only [Step,advance] at step
  split at step
  · rename_i flying
    exact ⟨flying,settled_parts step⟩
  · cases step

theorem fail_step {task : TaskId} {error : Str} {now : Instant}
    (step : Step codec alpha s (.failTask task error now) t) :
    task ∈ s.inFlight ∧ ∃ db, commitFailed task error now s.db = .ok db ∧
      t = ⟨(finalizeAfter codec task now db s.blobs).1,(finalizeAfter codec task now db s.blobs).2,
        s.inFlight.erase task⟩ := by
  simp only [Step,advance] at step
  split at step
  · rename_i flying
    exact ⟨flying,settled_parts step⟩
  · cases step

-- Both ways of stopping a batch early, by the same termination.
theorem cancel_step {user : UserId} {batch : BatchId} {now : Instant}
    (step : Step codec alpha s (.cancelBatch user batch now) t) :
    ∃ b db, s.db.batches[batch]? = some b ∧ b.userId = user ∧ cancellable b.status = true ∧
      terminateBatch user batch .cancelled "batch cancelled" now s.db = .ok db ∧ t = {s with db := db} := by
  simp only [Step,advance] at step
  obtain ⟨db,done,rfl⟩ := Option.map_eq_some_iff.mp step
  rw [returned_some] at done
  unfold cancelBatch at done
  obtain ⟨b,owned,done⟩ := bind_ok done
  obtain ⟨_,allowed,done⟩ := bind_ok done
  obtain ⟨found,mine⟩ := owned_batch owned
  exact ⟨b,db,found,mine,require_ok.mp allowed,done,rfl⟩

theorem expire_step {batch : BatchId} {now : Instant} (step : Step codec alpha s (.expireBatch batch now) t) :
    ∃ b db, s.db.batches[batch]? = some b ∧ cancellable b.status = true ∧
      terminateBatch b.userId batch .expired "batch expired" now s.db = .ok db ∧ t = {s with db := db} := by
  simp only [Step,advance] at step
  obtain ⟨db,done,rfl⟩ := Option.map_eq_some_iff.mp step
  rw [returned_some] at done
  unfold expireBatch at done
  split at done
  · cases done
  · rename_i b found
    obtain ⟨_,allowed,done⟩ := bind_ok done
    exact ⟨b,db,found,require_ok.mp allowed,done,rfl⟩

theorem create_step {user : UserId} {inputFile : FileId} {endpoint window : Str} {lines : List ParsedLine}
    {now : Instant} (step : Step codec alpha s (.createBatch user inputFile endpoint window lines now) t) :
    ∃ db, createBatch codec user inputFile endpoint window lines now s.db = .ok (db,s.db.batches.length) ∧
      t = {s with db := db} := by
  simp only [Step,advance] at step
  obtain ⟨⟨db,batch⟩,done,rfl⟩ := Option.map_eq_some_iff.mp step
  rw [returned_some] at done
  have named := (createBatch_parts done).1
  subst named
  exact ⟨db,done,rfl⟩

theorem grant_step {user : UserId} {tokens : Int} {note : Option Str}
    (step : Step codec alpha s (.grant user tokens note) t) :
    ∃ db, Ledger.perform (.ok ()) (Ledger.grant user tokens note) s.db = .ok db ∧ t = {s with db := db} := by
  simp only [Step,advance] at step
  obtain ⟨db,done,rfl⟩ := Option.map_eq_some_iff.mp step
  exact ⟨db,returned_some.mp done,rfl⟩

theorem grant_posts {user : UserId} {tokens : Int} {note : Option Str}
    (step : Step codec alpha s (.grant user tokens note) t) :
    0 < tokens ∧ t = {s with
      db := Ledger.post s.db user
        {s.db.getOrCreateBudget user with grantedTokens := (s.db.getOrCreateBudget user).grantedTokens + tokens}
        {userId := user,entryType := .grant,grantedDelta := tokens,note := note}} := by
  obtain ⟨db,done,rfl⟩ := grant_step step
  obtain ⟨positive,rfl⟩ := Ledger.perform_grant done
  exact ⟨positive,rfl⟩

theorem purge_step {retentionDays : Int} {now : Instant} (step : Step codec alpha s (.purgeExpiredResults retentionDays now) t) :
    t.db.budgets = s.db.budgets ∧ t.db.ledger = s.db.ledger ∧ t.db.tasks = s.db.tasks ∧ t.db.nodes = s.db.nodes := by
  cases step
  exact Retention.purgeAll_tables now _ s.db s.blobs

-- Concrete operations: a node, a submission of lines that hold ten tokens each,
-- a claim pass.
def nodeWith (slots : Int) : Operation := .startup [⟨"node-a","http://node-a",slots⟩]

def shortLine (i : Nat) : ParsedLine := ⟨i,text (toString i),[],4,6⟩

def submitShort (user : UserId) (lines : Nat) (now : Instant) : Operation :=
  .createBatch user 0 [] [] ((List.range lines).map shortLine) now

def claimPass : Operation := .claimAndAssign (fun _ => 0) 0

def submitLines (lines : List ParsedLine) : Operation := .createBatch 1 0 supportedEndpoint (text "24h") lines 0

def requestLine (customId rest : String) : String :=
  "\x7b\"custom_id\": \"" ++ customId ++ "\", \"method\": \"POST\", \"url\": \"/v1/chat/completions\", \"body\": " ++
    "\x7b\"messages\": [\x7b\"role\": \"user\", \"content\": \"hi\"\x7d]" ++ rest ++ "\x7d\x7d"

def inputFile (lines : List String) : Bytes := (encode (join [newline] (lines.map text))).getD []

-- The parsing of an input file and its submission, checked by evaluation.
def submitted (codec : Codec) (raw : Bytes) (setup : List Operation) (p : List ParsedLine → Service → Service → Bool) :
    Bool :=
  (returned (parseBatchInput codec supportedEndpoint 512 raw)).any (fun lines =>
    (replay (advance codec (3/10)) setup {}).any (fun s =>
      (advance codec (3/10) (submitLines lines) s).any (p lines s)))

theorem submitted_parts {codec : Codec} {raw : Bytes} {setup : List Operation}
    {p : List ParsedLine → Service → Service → Bool} (ran : submitted codec raw setup p = true) :
    ∃ lines s m, parseBatchInput codec supportedEndpoint 512 raw = .ok lines ∧ Run (Step codec (3/10)) {} setup s ∧
      Step codec (3/10) s (submitLines lines) m ∧ p lines s m = true := by
  obtain ⟨lines,parsed,ran⟩ := (Option.any_eq_true _ _).mp ran
  obtain ⟨s,reached,ran⟩ := replay_reaches ran
  obtain ⟨m,created,ran⟩ := (Option.any_eq_true _ _).mp ran
  exact ⟨lines,s,m,returned_some.mp parsed,reached,created,ran⟩

end Service

end BatchGateway
