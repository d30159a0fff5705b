import BatchGateway.OpenBatches
import BatchGateway.Sessions
import BatchGateway.SingleWriter

-- Worker threads, one for each execution, over SQLite's single writer lock: a
-- locked section runs from the first flushed write to the commit.
namespace BatchGateway.SettlementThreads
open PythonText PythonJson BatchOps Sessions SingleWriter LabelledRuns Counters ResultFiles OpenBatches
open Service (Operation)

inductive Thread where
  | worker (task : TaskId)
  | server
  deriving DecidableEq

-- What a thread's session holds. The two clock readings of a settlement are
-- chosen when it begins.
inductive Memory where
  | idle
  | requested (op : Operation)
  | loaded (task : TaskId) (own : Task) (sink : Sink) (now later : Instant)
  | flushed (task : TaskId) (own : Task) (sink : Sink) (later : Instant)
  | counted (task : TaskId) (own : Task) (sink : Sink) (later : Instant) (copy : Batch)
  | priced (task : TaskId) (own : Task) (later : Instant) (copy : Batch) (charge : Option (Ledger.Call × Budget))
  | settled (task : TaskId) (own : Task) (copy : Batch) (later : Instant)
  | finalizing (task : TaskId) (own : Task) (copy : Batch) (later : Instant)
  | selected (task : TaskId) (own : Task) (copy : Batch) (later : Instant) (rows : List (Task × TaskId))
  | written (task : TaskId) (own : Task) (copy : Batch) (later : Instant) (rows : List (Task × TaskId)) (output : FileId)
  | finalized (task : TaskId) (own : Task) (copy : Batch) (rows : List (Task × TaskId))
  | dropped

-- The UPDATE of the one changed column, with the copy's absolute value.
def storeCounter : Sink → Batch → Batch → Batch
  | .complete _ _ _, copy, b => {b with requestCompleted := copy.requestCompleted}
  | .fail _, copy, b => {b with requestFailed := copy.requestFailed}

def ledgerCall (task : TaskId) (own : Task) (copy : Batch) : Sink → Option Ledger.Call
  | .complete _ promptTokens completionTokens => some (Ledger.charge copy.userId own.reservedTokens
      (promptTokens + completionTokens) (some own.batchId) (some task) none)
  | .fail error =>
    if 0 < own.reservedTokens then
      some (Ledger.release copy.userId own.reservedTokens (some own.batchId) (some task) (some error))
    else none

variable (codec : Codec) (alpha : ℚ)

-- The SELECT of the batch flushes the task, and so takes the lock.
def flushTask : Statement Service Memory := fun s memory =>
  match memory with
  | .loaded task own sink now later =>
    if sink.stores codec now own then
      .ok ({s with db := s.db.updateTask task (sink.settle now)},.flushed task (sink.settle now own) sink later)
    else .error .dropped
  | _ => .error .dropped

def readBatch : Statement Service Memory := fun s memory =>
  match memory with
  | .flushed task own sink later =>
    match s.db.batches[own.batchId]? with
    | none => .error .dropped
    | some b => .ok (s,.counted task own sink later (sink.count b))
  | _ => .error .dropped

-- The SELECT of the user flushes the counter.
def writeCounter : Statement Service Memory := fun s memory =>
  match memory with
  | .counted task own sink later copy =>
    .ok ({s with db := s.db.updateBatch own.batchId (storeCounter sink copy)},.counted task own sink later copy)
  | _ => .error .dropped

def writeStats : Statement Service Memory := fun s memory =>
  match memory with
  | .counted _ own sink _ _ =>
    match sink with
    | .complete _ _ _ => .ok ({s with db := {s.db with stat := Eta.updateDispatchStats alpha own s.db.stat}},memory)
    | .fail _ => .ok (s,memory)
  | _ => .error .dropped

def readBudget : Statement Service Memory := fun s memory =>
  match memory with
  | .counted task own sink later copy =>
    match ledgerCall task own copy sink with
    | none => .ok (s,.priced task own later copy none)
    | some call => match call.check with
      | .error _ => .error .dropped
      | .ok () => .ok (s,.priced task own later copy (some (call,s.db.getOrCreateBudget call.user)))
  | _ => .error .dropped

-- The execution ends with the commit.
def writeBudget : Statement Service Memory := fun s memory =>
  match memory with
  | .priced task own later copy none => .ok ({s with inFlight := s.inFlight.erase task},.settled task own copy later)
  | .priced task own later copy (some (call,row)) =>
    match call.move row with
    | .error _ => .error .dropped
    | .ok (after,entry) =>
      if after.fits && entry.fits then
        .ok ({s with db := Ledger.post s.db call.user after entry,inFlight := s.inFlight.erase task},
          .settled task own copy later)
      else .error .dropped
  | _ => .error .dropped

def settlement : List (Statement Service Memory) :=
  [flushTask codec,readBatch,writeCounter,writeStats alpha,readBudget,writeBudget]

-- The SELECT of the tasks flushes the status FINALIZING.
def flushFinalizing : Statement Service Memory := fun s memory =>
  match memory with
  | .settled task own copy later =>
    .ok ({s with db := s.db.updateBatch own.batchId (fun b => {b with status := .finalizing,finalizingAt := some later})},
      .finalizing task own copy later)
  | _ => .error .dropped

def selectTasks : Statement Service Memory := fun s memory =>
  match memory with
  | .finalizing task own copy later => .ok (s,.selected task own copy later (sessionRows task own own.batchId s.db))
  | _ => .error .dropped

def writeOutput : Statement Service Memory := fun s memory =>
  match memory with
  | .selected task own copy later rows =>
    .ok ({s with
        db := {s.db with files := s.db.files ++
          [some (fileRow copy.userId .batchOutput (.output own.batchId) (outputBytes codec rows) later)]}
        blobs := writeBlob s.blobs s.db.files.length (outputBytes codec rows)},
      .written task own copy later rows s.db.files.length)
  | _ => .error .dropped

def writeErrors : Statement Service Memory := fun s memory =>
  match memory with
  | .written _ own copy later rows output =>
    if failedRows rows = [] then .ok (s,memory)
    else .ok ({s with
        db := {s.db with files := s.db.files ++
          [some (fileRow copy.userId .batchError (.errors own.batchId) (errorBytes codec rows) later)]}
        blobs := writeBlob s.blobs (output + 1) (errorBytes codec rows)},memory)
  | _ => .error .dropped

def finish : Statement Service Memory := fun s memory =>
  match memory with
  | .written task own copy later rows output =>
    .ok ({s with db := s.db.updateBatch own.batchId (Batch.finish output (errorFile output rows) later)},
      .finalized task own copy rows)
  | _ => .error .dropped

def finalization : List (Statement Service Memory) :=
  [flushFinalizing,selectTasks,writeOutput codec,writeErrors codec,finish]

def serve : Statement Service Memory := fun s memory =>
  match memory with
  | .requested op => match Service.advance codec alpha op s with
    | some after => .ok (after,.idle)
    | none => .error .idle
  | _ => .error .idle

-- Everything but settlements, purges, restarts and the end of the given batch.
def served (batch : BatchId) : Operation → Bool
  | .cancelBatch _ other _ | .expireBatch other _ => other != batch
  | .completeTask _ _ _ _ _ | .failTask _ _ _ | .purgeExpiredResults _ _ | .startup _ => false
  | _ => true

-- A worker loads its task while its execution is in flight; it may also be lost
-- before its first write.
def settlements (batch : BatchId) : Program Thread Service Memory where
  free thread s before after := match thread with
    | .worker task => (∃ own sink now later, before = .idle ∧ task ∈ s.inFlight ∧ s.db.tasks[task]? = some own ∧
        after = .loaded task own sink now later) ∨
      (∃ own sink now later, before = .loaded task own sink now later ∧ after = .dropped)
    | .server => ∃ op, before = .idle ∧ served batch op = true ∧ after = .requested op
  locked memory := match memory with
    | .requested _ => some [serve codec alpha]
    | .loaded _ _ _ _ _ => some (settlement codec alpha)
    | .settled _ _ copy _ => if shouldFinalize copy then some (finalization codec) else none
    | _ => none

-- What a cancellation leaves of a task row.
def core (t : Task) : Task := {t with status := .pending,finishedAt := none}

variable {codec alpha} {s v : Service} {memory : Memory}

theorem settle_agree {own t : Task} (agree : core own = core t) (now : Instant) (sink : Sink) :
    sink.settle now own = sink.settle now t := by
  have whole : ∀ u, sink.settle now u = sink.settle now (core u) := by
    intro u
    cases sink <;> rfl
  rw [whole own,agree,← whole]

theorem stored_counter {b : Batch} {sink : Sink} : storeCounter sink (sink.count b) b = sink.count b := by
  cases sink <;> rfl

theorem stores_agree {own t : Task} (agree : core own = core t) (now : Instant) (sink : Sink) :
    sink.stores codec now own = sink.stores codec now t := by
  have whole : ∀ u, sink.stores codec now u = sink.stores codec now (core u) := by
    intro u
    cases sink <;> rfl
  rw [whole own,agree,← whole]

theorem flushTask_ok {task : TaskId} {own : Task} {sink : Sink} {now later : Instant}
    (ran : flushTask codec s (.loaded task own sink now later) = .ok (v,memory)) :
    sink.stores codec now own = true ∧ v = {s with db := s.db.updateTask task (sink.settle now)} ∧
    memory = .flushed task (sink.settle now own) sink later := by
  simp only [flushTask] at ran
  split at ran
  · rename_i stored
    cases ran
    exact ⟨stored,rfl,rfl⟩
  · cases ran

theorem readBatch_ok {task : TaskId} {own : Task} {sink : Sink} {later : Instant}
    (ran : readBatch s (.flushed task own sink later) = .ok (v,memory)) :
    ∃ b, s.db.batches[own.batchId]? = some b ∧ v = s ∧ memory = .counted task own sink later (sink.count b) := by
  simp only [readBatch] at ran
  split at ran
  · cases ran
  · rename_i b found
    cases ran
    exact ⟨b,found,rfl,rfl⟩

theorem readBudget_ok {task : TaskId} {own : Task} {sink : Sink} {later : Instant} {copy : Batch}
    (ran : readBudget s (.counted task own sink later copy) = .ok (v,memory)) : v = s ∧
    ((ledgerCall task own copy sink = none ∧ memory = .priced task own later copy none) ∨
     (∃ call, ledgerCall task own copy sink = some call ∧ call.check = .ok () ∧
       memory = .priced task own later copy (some (call,s.db.getOrCreateBudget call.user)))) := by
  simp only [readBudget] at ran
  split at ran
  · rename_i none_
    cases ran
    exact ⟨rfl,.inl ⟨none_,rfl⟩⟩
  · rename_i call some_
    split at ran
    · cases ran
    · rename_i checked
      cases ran
      exact ⟨rfl,.inr ⟨call,some_,checked,rfl⟩⟩

theorem writeBudget_ok {task : TaskId} {own : Task} {later : Instant} {copy : Batch} {call : Ledger.Call} {row : Budget}
    (ran : writeBudget s (.priced task own later copy (some (call,row))) = .ok (v,memory)) :
    ∃ after entry, call.move row = .ok (after,entry) ∧ (after.fits && entry.fits) = true ∧
      v = {s with db := Ledger.post s.db call.user after entry,inFlight := s.inFlight.erase task} ∧
      memory = .settled task own copy later := by
  simp only [writeBudget] at ran
  split at ran
  · cases ran
  · rename_i after entry moved
    split at ran
    · rename_i fits
      cases ran
      exact ⟨after,entry,moved,fits,rfl,rfl⟩
    · cases ran

-- What the section has written when it comes to the ledger.
def countedDb (task : TaskId) (sink : Sink) (now : Instant) (batch : BatchId) (db : Db) : Db :=
  (db.updateTask task (sink.settle now)).updateBatch batch sink.count

def statedDb (alpha : ℚ) (task : TaskId) (sink : Sink) (now : Instant) (t : Task) (db : Db) : Db :=
  match sink with
  | .complete _ _ _ => {countedDb task sink now t.batchId db with
      stat := Eta.updateDispatchStats alpha (sink.settle now t) db.stat}
  | .fail _ => countedDb task sink now t.batchId db

theorem stated_batches {task : TaskId} {sink : Sink} {now : Instant} {t : Task} {db : Db} :
    (statedDb alpha task sink now t db).batches = db.batches.modify t.batchId sink.count := by
  cases sink <;> rfl

theorem writeStats_ok {task : TaskId} {t : Task} {sink : Sink} {now later : Instant} {copy : Batch}
    (ran : writeStats alpha {s with db := countedDb task sink now t.batchId s.db}
      (.counted task (sink.settle now t) sink later copy) = .ok (v,memory)) :
    v = {s with db := statedDb alpha task sink now t s.db} ∧
    memory = .counted task (sink.settle now t) sink later copy := by
  cases sink with
  | complete => cases ran; exact ⟨rfl,rfl⟩
  | fail => cases ran; exact ⟨rfl,rfl⟩

theorem counted_update (sink : Sink) {db : Db} {batch : BatchId} {b : Batch} (found : db.batches[batch]? = some b) :
    db.updateBatch batch (storeCounter sink (sink.count b)) = db.updateBatch batch sink.count := by
  simp only [Db.updateBatch,Rows.modify_congr found stored_counter]

theorem commit_performs {task : TaskId} {t : Task} {b : Batch} {db : Db} {sink : Sink} {now : Instant}
    {call : Ledger.Call} {row : Budget} {entry : LedgerEntry} (found : db.tasks[task]? = some t)
    (owned : db.batches[t.batchId]? = some b)
    (stored : sink.stores codec now t = true)
    (called : ledgerCall task (sink.settle now t) (sink.count b) sink = some call)
    (checked : call.check = .ok ())
    (moved : call.move ((statedDb alpha task sink now t db).getOrCreateBudget call.user) = .ok (row,entry))
    (sizes : (row.fits && entry.fits) = true) :
    sink.commit codec alpha task now db = .ok (Ledger.post (statedDb alpha task sink now t db) call.user row entry) := by
  cases sink with
  | complete responseBody promptTokens completionTokens =>
    cases called
    obtain ⟨nested,fits⟩ := Bool.and_eq_true_iff.mp stored
    have deep : Raising.require (stores codec responseBody) Raised.statementError = .ok () :=
      Raising.require_ok.mpr nested
    have fine : Raising.require (Task.complete responseBody promptTokens completionTokens now t).fits Raised.overflowError =
        .ok () := Raising.require_ok.mpr fits
    have performed := Ledger.perform_ok (statedDb alpha task _ now t db) checked moved sizes
    simp only [Sink.commit,commitCompleted,found,deep,fine,bind,Except.bind,owned]
    exact performed
  | fail error =>
    have fine : Raising.require (encode error).isSome Raised.unicodeEncodeError = .ok () := Raising.require_ok.mpr stored
    simp only [ledgerCall] at called
    split at called
    · rename_i held
      cases called
      have held : 0 < t.reservedTokens := held
      have performed := Ledger.perform_ok (statedDb alpha task _ now t db) checked moved sizes
      simp only [Sink.commit,commitFailed,found,fine,bind,Except.bind,owned,held,if_true]
      exact performed
    · cases called

theorem commit_skips {task : TaskId} {t : Task} {b : Batch} {db : Db} {sink : Sink} {now : Instant}
    (found : db.tasks[task]? = some t) (owned : db.batches[t.batchId]? = some b) (stored : sink.stores codec now t = true)
    (called : ledgerCall task (sink.settle now t) (sink.count b) sink = none) :
    sink.commit codec alpha task now db = .ok (statedDb alpha task sink now t db) := by
  cases sink with
  | complete => cases called
  | fail error =>
    have fine : Raising.require (encode error).isSome Raised.unicodeEncodeError = .ok () := Raising.require_ok.mpr stored
    simp only [ledgerCall] at called
    split at called
    · cases called
    · rename_i free
      have free : ¬ 0 < t.reservedTokens := free
      simp only [Sink.commit,commitFailed,found,fine,bind,Except.bind,owned,free,if_false]
      rfl

-- A section whose statements go through is its sink's commit, on the row that
-- the table has now.
theorem settlement_commits {task : TaskId} {own t : Task} {sink : Sink} {now later : Instant}
    (found : s.db.tasks[task]? = some t) (agree : core own = core t)
    (ran : runAll (settlement codec alpha) s (.loaded task own sink now later) = .ok (v,memory)) :
    ∃ db copy, sink.commit codec alpha task now s.db = .ok db ∧ db.batches[t.batchId]? = some copy ∧
      v = {s with db := db,inFlight := s.inFlight.erase task} ∧
      memory = .settled task (sink.settle now t) copy later := by
  have owner : (sink.settle now t).batchId = t.batchId := settle_owner now sink t
  obtain ⟨_,_,first,ran⟩ := runAll_cons_ok ran
  obtain ⟨stored,rfl,rfl⟩ := flushTask_ok first
  rw [stores_agree agree] at stored
  rw [settle_agree agree] at ran
  obtain ⟨_,_,second,ran⟩ := runAll_cons_ok ran
  obtain ⟨b,owned,rfl,rfl⟩ := readBatch_ok second
  rw [owner] at owned
  have owned : s.db.batches[t.batchId]? = some b := owned
  obtain ⟨_,_,third,ran⟩ := runAll_cons_ok ran
  cases third
  obtain ⟨w,n,fourth,ran⟩ := runAll_cons_ok ran
  have counter := @counted_update sink (s.db.updateTask task (sink.settle now)) _ _ owned
  rw [owner,counter] at fourth
  have staged : writeStats alpha {s with db := countedDb task sink now t.batchId s.db}
      (.counted task (sink.settle now t) sink later (sink.count b)) = .ok (w,n) := fourth
  obtain ⟨rfl,rfl⟩ := writeStats_ok staged
  have copied : (statedDb alpha task sink now t s.db).batches[t.batchId]? = some (sink.count b) := by
    rw [stated_batches]
    exact Rows.getElem?_modify_self owned _
  obtain ⟨_,_,fifth,ran⟩ := runAll_cons_ok ran
  obtain ⟨_,_,sixth,ran⟩ := runAll_cons_ok ran
  cases ran
  obtain ⟨rfl,⟨none_,rfl⟩ | ⟨call,some_,checked,rfl⟩⟩ := readBudget_ok fifth
  · cases sixth
    exact ⟨_,_,commit_skips found owned stored none_,copied,rfl,rfl⟩
  · obtain ⟨after,entry,moved,sizes,rfl,rfl⟩ := writeBudget_ok sixth
    exact ⟨_,_,commit_performs found owned stored some_ checked moved sizes,copied,rfl,rfl⟩

theorem settlement_raises {m left : Memory} (ran : runAll (settlement codec alpha) s m = .error left) : left = .dropped := by
  refine runAll_raises (fun stmt member v m m' raised => ?_) ran
  simp only [settlement,List.mem_cons,List.not_mem_nil,or_false] at member
  rcases member with rfl | rfl | rfl | rfl | rfl | rfl
  · cases m with
    | loaded task own sink now later =>
      simp only [flushTask] at raised
      split at raised
      · cases raised
      · cases raised; rfl
    | _ => cases raised; rfl
  · cases m with
    | flushed task own sink later =>
      simp only [readBatch] at raised
      split at raised
      · cases raised; rfl
      · cases raised
    | _ => cases raised; rfl
  · cases m with
    | counted => cases raised
    | _ => cases raised; rfl
  · cases m with
    | counted task own sink later copy => cases sink <;> cases raised
    | _ => cases raised; rfl
  · cases m with
    | counted task own sink later copy =>
      simp only [readBudget] at raised
      split at raised
      · cases raised
      · split at raised
        · cases raised; rfl
        · cases raised
    | _ => cases raised; rfl
  · cases m with
    | priced task own later copy charge =>
      cases charge with
      | none => cases raised
      | some charge =>
        simp only [writeBudget] at raised
        split at raised
        · cases raised; rfl
        · split at raised
          · cases raised
          · cases raised; rfl
    | _ => cases raised; rfl

-- The second section writes what _maybe_finalize_batch writes, and cannot raise.
theorem finalization_runs (task : TaskId) (own : Task) (copy : Batch) (later : Instant) :
    runAll (finalization codec) s (.settled task own copy later) =
      .ok ({s with
          db := (finalizeRows codec copy (sessionRows task own own.batchId s.db) own.batchId later s.db s.blobs).1
          blobs := (finalizeRows codec copy (sessionRows task own own.batchId s.db) own.batchId later s.db s.blobs).2},
        .finalized task own copy (sessionRows task own own.batchId s.db)) := by
  have again : ∀ output errors, (fun b : Batch => Batch.finish output errors later
      {b with status := .finalizing,finalizingAt := some later}) = Batch.finish output errors later := fun _ _ => rfl
  simp only [finalization,runAll,flushFinalizing,selectTasks,writeOutput,writeErrors]
  have rows : sessionRows task own own.batchId (s.db.updateBatch own.batchId
      (fun b => {b with status := .finalizing,finalizingAt := some later})) = sessionRows task own own.batchId s.db := rfl
  rw [rows]
  by_cases failed : failedRows (sessionRows task own own.batchId s.db) = []
  · simp only [failed,if_true,finish,finalizeRows,resultFiles,resultBlobs,errorFile,Db.updateBatch,List.modify_modify_eq]
    rfl
  · simp only [failed,if_false,finish,finalizeRows,resultFiles,resultBlobs,errorFile,Db.updateBatch,
      List.modify_modify_eq,List.append_assoc]
    rfl

theorem serve_raises {s : Service} {op : Operation} {m : Memory} (ran : runAll [serve codec alpha] s (.requested op) = .error m) :
    m = .idle := by
  simp only [runAll,serve] at ran
  split at ran
  · rename_i first
    cases ran
    split at first
    · cases first
    · cases first
      rfl
  · cases ran

theorem serve_runs {s v : Service} {op : Operation} {m : Memory}
    (ran : runAll [serve codec alpha] s (.requested op) = .ok (v,m)) : Service.Step codec alpha s op v ∧ m = .idle := by
  obtain ⟨w,n,first,rest⟩ := runAll_cons_ok ran
  cases rest
  simp only [serve] at first
  split at first
  · rename_i done
    cases first
    exact ⟨done,rfl⟩
  · cases first

-- All that a whole section or a free step can do.
theorem atomic_cases {batch : BatchId} {c d : Cut Thread Service Memory} {w : Whole Thread}
    (step : Atomic (settlements codec alpha batch) c w d) :
    (∃ actor m, (settlements codec alpha batch).free actor c.committed (c.memory actor) m ∧
      d = ⟨c.committed,Function.update c.memory actor m⟩) ∨
    (∃ actor op v, c.memory actor = .requested op ∧ Service.Step codec alpha c.committed op v ∧
      d = ⟨v,Function.update c.memory actor .idle⟩) ∨
    (∃ actor task own sink now later v m, c.memory actor = .loaded task own sink now later ∧
      runAll (settlement codec alpha) c.committed (.loaded task own sink now later) = .ok (v,m) ∧
      d = ⟨v,Function.update c.memory actor m⟩) ∨
    (∃ actor task own copy later v m, c.memory actor = .settled task own copy later ∧ shouldFinalize copy = true ∧
      runAll (finalization codec) c.committed (.settled task own copy later) = .ok (v,m) ∧
      d = ⟨v,Function.update c.memory actor m⟩) ∨
    (∃ actor m, ((∃ op, c.memory actor = .requested op ∧ m = .idle) ∨
        (∃ task own sink now later, c.memory actor = .loaded task own sink now later ∧ m = .dropped)) ∧
      d = ⟨c.committed,Function.update c.memory actor m⟩) := by
  cases step with
  | free acts => exact .inl ⟨_,_,acts,rfl⟩
  | @«section» statements v m _ actor ready ran =>
    cases held : c.memory actor with
    | requested op =>
      rw [held] at ready ran
      cases ready
      obtain ⟨done,rfl⟩ := serve_runs ran
      exact .inr (.inl ⟨actor,op,v,held,done,rfl⟩)
    | loaded task own sink now later =>
      rw [held] at ready ran
      cases ready
      exact .inr (.inr (.inl ⟨actor,task,own,sink,now,later,v,m,held,ran,rfl⟩))
    | settled task own copy later =>
      rw [held] at ready ran
      simp only [settlements] at ready
      split at ready
      · rename_i due
        cases ready
        exact .inr (.inr (.inr (.inl ⟨actor,task,own,copy,later,v,m,held,due,ran,rfl⟩)))
      · cases ready
    | _ => rw [held] at ready; cases ready
  | @raised statements m _ actor ready ran =>
    refine .inr (.inr (.inr (.inr ⟨actor,m,?_,rfl⟩)))
    cases held : c.memory actor with
    | requested op =>
      rw [held] at ready ran
      cases ready
      exact .inl ⟨op,rfl,serve_raises ran⟩
    | loaded task own sink now later =>
      rw [held] at ready ran
      cases ready
      exact .inr ⟨task,own,sink,now,later,rfl,settlement_raises ran⟩
    | settled task own copy later =>
      rw [held] at ready ran
      simp only [settlements] at ready
      split at ready
      · cases ready
        rw [finalization_runs] at ran
        cases ran
      · cases ready
    | _ => rw [held] at ready; cases ready

end BatchGateway.SettlementThreads
