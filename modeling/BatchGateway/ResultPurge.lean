import BatchGateway.PythonTime
import BatchGateway.TenantIsolation

-- A purge statement by statement, and what it removes.
namespace BatchGateway.ResultPurge
open PythonJson PythonTime BatchOps Retention LabelledRuns FileOwnership ResultFiles

-- OverflowError before the first statement, IntegrityError from a DELETE.
inductive PurgeError where
  | overflowError
  | integrityError
  deriving DecidableEq, Repr

-- _now() - timedelta(days=retentionDays)
def cutoffOf (retentionDays : Int) (now : Instant) : Except PurgeError Instant :=
  if -999999999 ≤ retentionDays ∧ retentionDays ≤ 999999999 then
    match (nowAt 0 now).plus (-days retentionDays) with
    | some d => .ok d.wall
    | none => .error .overflowError
  else .error .overflowError

def candidates (db : Db) : List (Batch × BatchId) :=
  db.batches.zipIdx.filter (fun row => (terminalTimestamp row.1).isSome && row.1.purgedAt.isNone)

def past (cutoff : Instant) (b : Batch) : Bool :=
  match terminalTimestamp b with
  | some (some terminalAt) => decide (terminalAt ≤ cutoff)
  | _ => false

-- The three columns of the batches that point into the files.
def pointsAt (b : Batch) (f : FileId) : Prop := b.inputFileId = f ∨ refersTo b f

instance (b : Batch) (f : FileId) : Decidable (refersTo b f) :=
  inferInstanceAs (Decidable (b.outputFileId = some f ∨ b.errorFileId = some f))

instance (b : Batch) (f : FileId) : Decidable (pointsAt b f) :=
  inferInstanceAs (Decidable (b.inputFileId = f ∨ refersTo b f))

-- DELETE FROM files, with PRAGMA foreign_keys=ON.
def deleteRow (f : FileId) (db : Db) : Except PurgeError Db :=
  if db.batches.any (fun b => decide (pointsAt b f)) then .error .integrityError
  else .ok {db with files := deleteFile (some f) db.files}

def deleteRows : List FileId → Db → Except PurgeError Db
  | [], db => .ok db
  | f :: rest, db => do
    let db ← deleteRow f db
    deleteRows rest db

-- The session's view; rows given to db.delete wait for the next flush.
structure Session where
  db : Db
  blobs : Blobs
  deleted : List FileId := []
  purgedCount : Nat := 0

def Session.flush (s : Session) : Except PurgeError Session := do
  let db ← deleteRows s.deleted s.db
  return {s with db := db,deleted := []}

-- The rows db.get finds for a batch's two references.
def foundFiles (b : Batch) (files : List (Option FileObject)) : List FileId :=
  (b.outputFileId.toList ++ b.errorFileId.toList).filter (fun f => (files[f]?).join.isSome)

def unlinkAll (found : List FileId) (blobs : Blobs) : Blobs := found.foldl (fun blobs f => Function.update blobs f none) blobs

-- One turn of the loop: the flush sends the last turn's DELETEs and this one's UPDATE.
def purgeOne (now : Instant) (row : Batch × BatchId) (s : Session) : Except PurgeError Session := do
  let s ← s.flush
  let found := foundFiles row.1 s.db.files
  return {
    db := s.db.updateBatch row.2 (Batch.purge now)
    blobs := unlinkAll found s.blobs
    deleted := found
    purgedCount := s.purgedCount + 1}

def purgeLoop (cutoff now : Instant) : List (Batch × BatchId) → Session → Except PurgeError Session
  | [], s => .ok s
  | row :: rest, s =>
    if past cutoff row.1 then do
      let s ← purgeOne now row s
      purgeLoop cutoff now rest s
    else purgeLoop cutoff now rest s

-- purge_expired_results; its commit flushes what the last turn deleted.
def purge (retentionDays : Int) (now : Instant) (db : Db) (blobs : Blobs) : Except PurgeError (Nat × Db × Blobs) := do
  let cutoff ← cutoffOf retentionDays now
  let s ← purgeLoop cutoff now (candidates db) {db := db,blobs := blobs}
  if s.purgedCount = 0 then return (0,s.db,s.blobs)
  else
    let s ← s.flush
    return (s.purgedCount,s.db,s.blobs)

variable {codec : Codec} {alpha : ℚ} {defaultMaxTokens : Int} {actions : List Routes.Action} {s : Service}
variable {db : Db} {blobs : Blobs} {now cutoff : Instant} {retentionDays : Int} {row : Batch × BatchId}
variable {rows : List (Batch × BatchId)} {f : FileId}

theorem cutoffOf_ok (computed : cutoffOf retentionDays now = .ok cutoff) : cutoff = now - days retentionDays := by
  unfold cutoffOf Datetime.plus at computed
  split at computed
  · split at computed
    · rename_i d found
      split at found
      · cases found
        cases computed
        simp [nowAt,Datetime.add,sub_eq_add_neg]
      · cases found
    · cases computed
  · cases computed

theorem cutoffOf_error {e : PurgeError} (failed : cutoffOf retentionDays now = .error e) : e = .overflowError := by
  unfold cutoffOf at failed
  split at failed
  · split at failed
    · cases failed
    · cases failed
      rfl
  · cases failed
    rfl

-- The DELETEs pass once no batch row points at the files.
theorem deleteRows_ok {files : List FileId} (free : ∀ f ∈ files, ∀ b ∈ db.batches, ¬ pointsAt b f) :
    deleteRows files db = .ok {db with files := files.foldl (fun files f => deleteFile (some f) files) db.files} := by
  induction files generalizing db with
  | nil => rfl
  | cons f rest ih =>
    have none : db.batches.any (fun b => decide (pointsAt b f)) = false := by
      simpa using free f List.mem_cons_self
    rw [deleteRows,deleteRow,none]
    exact ih fun g member => free g (List.mem_cons_of_mem _ member)

theorem found_all {b : Batch} (own : Owned db.files b) :
    foundFiles b db.files = b.outputFileId.toList ++ b.errorFileId.toList := by
  refine List.filter_eq_self.mpr fun f member => ?_
  rcases List.mem_append.mp member with output | errors
  · obtain ⟨row,there,_⟩ := own.output f (Option.mem_toList.mp output)
    rw [there]
    rfl
  · obtain ⟨row,there,_⟩ := own.errors f (Option.mem_toList.mp errors)
    rw [there]
    rfl

-- No other batch points at a batch's result files, and its own row no longer does.
theorem purged_free (tidy : Tidy db) (filed : Filed codec db blobs) (found : db.batches[row.2]? = some row.1)
    (refers : refersTo row.1 f) : ∀ b ∈ (db.updateBatch row.2 (Batch.purge now)).batches, ¬ pointsAt b f := by
  have own := tidy.owned row.2 row.1 found
  intro b member points
  obtain ⟨i,there⟩ := List.mem_iff_getElem?.mp member
  by_cases mine : row.2 = i
  · subst mine
    have self : (db.updateBatch row.2 (Batch.purge now)).batches[row.2]? = some (Batch.purge now row.1) :=
      Rows.getElem?_modify_self found _
    rw [self] at there
    cases there
    rcases points with input | output | errors
    · exact own.upload_apart (input ▸ own.input) refers
    · cases output
    · cases errors
  · have was : db.batches[i]? = some b := (Rows.getElem?_modify_other mine _).symm.trans there
    rcases points with input | again
    · exact own.upload_apart (input ▸ (tidy.owned i b was).input) refers
    · exact refers_apart filed found was mine refers again

theorem unlinkBlob_found {file : Option FileId} {files : List (Option FileObject)}
    (present : ∀ f, file = some f → ∃ row, files[f]? = some (some row)) : unlinkBlob file files blobs = unlinkAll file.toList blobs := by
  cases file with
  | none => rfl
  | some f =>
    obtain ⟨row,there⟩ := present f rfl
    simp [unlinkBlob,unlinkAll,there]

theorem deleteFile_list (file : Option FileId) (files : List (Option FileObject)) :
    file.toList.foldl (fun files f => deleteFile (some f) files) files = deleteFile file files := by
  cases file <;> rfl

-- One batch: its UPDATE, the unlinks, and the DELETEs of the flush after it.
theorem one_batch (tidy : Tidy db) (filed : Filed codec db blobs) (found : db.batches[row.2]? = some row.1) (now : Instant) :
    deleteRows (foundFiles row.1 db.files) (db.updateBatch row.2 (Batch.purge now)) = .ok (purgeBatch now row db blobs).1 ∧
      unlinkAll (foundFiles row.1 db.files) blobs = (purgeBatch now row db blobs).2 := by
  have own := tidy.owned row.2 row.1 found
  have output : ∀ f, row.1.outputFileId = some f → ∃ object, db.files[f]? = some (some object) := fun f same =>
    (own.output f same).imp fun object held => held.1
  have errors : ∀ f, row.1.errorFileId = some f → ∃ object, db.files[f]? = some (some object) := fun f same =>
    (own.errors f same).imp fun object held => held.1
  rw [found_all own]
  constructor
  · have refers : ∀ f ∈ row.1.outputFileId.toList ++ row.1.errorFileId.toList, refersTo row.1 f := fun f member =>
      (List.mem_append.mp member).imp Option.mem_toList.mp Option.mem_toList.mp
    rw [deleteRows_ok fun f member => purged_free tidy filed found (refers f member),List.foldl_append,deleteFile_list,
      deleteFile_list]
    rfl
  · rw [purgeBatch,unlinkBlob_found errors,unlinkBlob_found output,unlinkAll,unlinkAll,unlinkAll,List.foldl_append]

theorem terminal_ended {b : Batch} (terminal : (terminalTimestamp b).isSome = true) : cancellable b.status = false := by
  unfold terminalTimestamp at terminal
  cases status : b.status <;> simp [status,cancellable] at terminal ⊢

-- Rows of finished batches, each as its table has it and listed once.
structure Listed (codec : Codec) (rows : List (Batch × BatchId)) (db : Db) (blobs : Blobs) : Prop where
  tidy : Tidy db
  filed : Filed codec db blobs
  read : ∀ row ∈ rows, db.batches[row.2]? = some row.1
  ended : ∀ row ∈ rows, cancellable row.1.status = false
  distinct : (rows.map Prod.snd).Nodup

theorem Listed.rest (listed : Listed codec (row :: rows) db blobs) : Listed codec rows db blobs :=
  ⟨listed.tidy,listed.filed,fun next member => listed.read next (List.mem_cons_of_mem _ member),
    fun next member => listed.ended next (List.mem_cons_of_mem _ member),(List.nodup_cons.mp listed.distinct).2⟩

theorem Listed.purged (listed : Listed codec (row :: rows) db blobs) (now : Instant) :
    Listed codec rows (purgeBatch now row db blobs).1 (purgeBatch now row db blobs).2 := by
  have found := listed.read row List.mem_cons_self
  exact ⟨tidy_purged listed.tidy listed.filed found (listed.ended row List.mem_cons_self) now,
    filed_purged listed.filed found now,
    fun next member => purgeBatch_read blobs listed.distinct member (listed.rest.read next member),listed.rest.ended,
    listed.rest.distinct⟩

theorem listed_filter (tidy : Tidy db) (filed : Filed codec db blobs) {p : Batch × BatchId → Bool}
    (ended : ∀ row, p row = true → cancellable row.1.status = false) : Listed codec (db.batches.zipIdx.filter p) db blobs := by
  refine ⟨tidy,filed,fun row member => ?_,fun row member => ended row (List.mem_filter.mp member).2,
    Rows.selected_distinct _ _⟩
  exact List.mk_mem_zipIdx_iff_getElem?.mp (List.mem_filter.mp member).1

-- One turn of the loop, entered with deletions that pass and left with such.
theorem purgeOne_runs {s : Session} (sent : deleteRows s.deleted s.db = .ok db) (listed : Listed codec (row :: rows) db s.blobs)
    (now : Instant) : ∃ t, purgeOne now row s = .ok t ∧ deleteRows t.deleted t.db = .ok (purgeBatch now row db s.blobs).1 ∧
      t.blobs = (purgeBatch now row db s.blobs).2 ∧ t.purgedCount = s.purgedCount + 1 := by
  obtain ⟨passes,unlinked⟩ := one_batch listed.tidy listed.filed (listed.read row List.mem_cons_self) now
  refine ⟨⟨db.updateBatch row.2 (Batch.purge now),unlinkAll (foundFiles row.1 db.files) s.blobs,foundFiles row.1 db.files,
    s.purgedCount + 1⟩,?_,passes,unlinked,rfl⟩
  rw [purgeOne,Session.flush,sent]
  rfl

-- The loop runs to its end, as purgeAll does on the rows that are due.
theorem purgeLoop_runs {s : Session} (sent : deleteRows s.deleted s.db = .ok db) (listed : Listed codec rows db s.blobs)
    (now : Instant) : ∃ t after, purgeLoop cutoff now rows s = .ok t ∧ deleteRows t.deleted t.db = .ok after ∧
      (after,t.blobs) = purgeAll now (rows.filter (fun row => past cutoff row.1)) db s.blobs ∧
      t.purgedCount = s.purgedCount + (rows.filter (fun row => past cutoff row.1)).length := by
  induction rows generalizing s db with
  | nil => exact ⟨s,db,rfl,sent,rfl,rfl⟩
  | cons row rows ih =>
    by_cases due : past cutoff row.1 = true
    · have kept : (row :: rows).filter (fun row => past cutoff row.1) = row :: rows.filter (fun row => past cutoff row.1) :=
        List.filter_cons_of_pos due
      obtain ⟨next,one,again,unlinked,counted⟩ := purgeOne_runs sent listed now
      obtain ⟨t,after,loop,passes,outcome,count⟩ := ih again (unlinked ▸ listed.purged now)
      refine ⟨t,after,?_,passes,?_,?_⟩
      · rw [purgeLoop,if_pos due,one]
        exact loop
      · rw [outcome,kept,unlinked,purgeAll]
      · rw [count,counted,kept,List.length_cons]
        omega
    · have left : (row :: rows).filter (fun row => past cutoff row.1) = rows.filter (fun row => past cutoff row.1) :=
        List.filter_cons_of_neg due
      obtain ⟨t,after,loop,passes,outcome,count⟩ := ih sent listed.rest
      refine ⟨t,after,?_,passes,?_,?_⟩
      · rw [purgeLoop,if_neg due]
        exact loop
      · rw [outcome,left]
      · rw [count,left]

theorem purgeLoop_none {s : Session} (now : Instant) (none : ∀ row ∈ rows, ¬ past cutoff row.1 = true) :
    purgeLoop cutoff now rows s = .ok s := by
  induction rows with
  | nil => rfl
  | cons row rows ih =>
    rw [purgeLoop,if_neg (none row List.mem_cons_self)]
    exact ih fun next member => none next (List.mem_cons_of_mem _ member)

def dueRows (retentionDays : Int) (now : Instant) (db : Db) : List (Batch × BatchId) :=
  db.batches.zipIdx.filter (fun row => purgeDue retentionDays now row.1)

theorem candidates_due (computed : cutoffOf retentionDays now = .ok cutoff) (db : Db) :
    (candidates db).filter (fun row => past cutoff row.1) = dueRows retentionDays now db := by
  rw [candidates,List.filter_filter,dueRows,cutoffOf_ok computed]
  refine List.filter_congr fun row _ => ?_
  unfold past purgeDue
  cases terminalTimestamp row.1 with
  | none => simp
  | some at_ => cases at_ <;> simp [Bool.and_comm]

-- No DELETE fails, and the commit leaves what the loop over the due rows computes.
theorem purge_runs (tidy : Tidy db) (filed : Filed codec db blobs) (computed : cutoffOf retentionDays now = .ok cutoff) :
    purge retentionDays now db blobs = .ok ((dueRows retentionDays now db).length,purgeExpiredResults retentionDays now db blobs) := by
  have listed : Listed codec (candidates db) db blobs :=
    listed_filter tidy filed fun row kept => terminal_ended (Bool.and_eq_true_iff.mp kept).1
  obtain ⟨t,after,loop,passes,outcome,count⟩ := purgeLoop_runs (s := {db := db,blobs := blobs}) rfl listed now
  rw [candidates_due computed] at outcome count
  have counted : t.purgedCount = (dueRows retentionDays now db).length := count.trans (Nat.zero_add _)
  rw [purge,computed]
  by_cases idle : dueRows retentionDays now db = []
  · have none : ∀ row ∈ candidates db, ¬ past cutoff row.1 = true :=
      List.filter_eq_nil_iff.mp ((candidates_due computed db).trans idle)
    have still : purgeExpiredResults retentionDays now db blobs = (db,blobs) := by
      rw [purgeExpiredResults,← dueRows,idle]
      rfl
    rw [still,idle]
    simp [bind,Except.bind,purgeLoop_none now none,pure,Except.pure]
  · have some : (dueRows retentionDays now db).length ≠ 0 := fun zero => idle (List.length_eq_zero_iff.mp zero)
    simp only [bind,Except.bind,loop,counted,if_neg some,Session.flush,passes,pure,Except.pure,outcome]
    rfl

-- What a purge of the listed rows takes away.
theorem purgeBatch_files {object : FileObject} :
    (purgeBatch now row db blobs).1.files[f]? = some (some object) ↔
      db.files[f]? = some (some object) ∧ ¬ refersTo row.1 f := by
  constructor
  · intro there
    obtain ⟨there,noErrors⟩ := deleted_some there
    obtain ⟨there,noOutput⟩ := deleted_some there
    exact ⟨there,fun refers => refers.elim noOutput noErrors⟩
  · rintro ⟨there,apart⟩
    exact (deleted_other (fun errors => apart (.inr errors)) _).trans
      ((deleted_other (fun output => apart (.inl output)) _).trans there)

theorem purgeAll_files {object : FileObject} :
    (purgeAll now rows db blobs).1.files[f]? = some (some object) ↔
      db.files[f]? = some (some object) ∧ ∀ row ∈ rows, ¬ refersTo row.1 f := by
  induction rows generalizing db blobs with
  | nil => simp [purgeAll]
  | cons row rows ih => rw [purgeAll,ih,purgeBatch_files,List.forall_mem_cons,and_assoc]

theorem unlinkAll_at (found : List FileId) (blobs : Blobs) (f : FileId) :
    unlinkAll found blobs f = if f ∈ found then none else blobs f := by
  induction found generalizing blobs with
  | nil => rfl
  | cons g found ih =>
    rw [unlinkAll,List.foldl_cons,← unlinkAll,ih]
    by_cases same : f = g
    · simp [same]
    · simp [same]

theorem purgeBatch_blobs (listed : Listed codec (row :: rows) db blobs) (now : Instant) (f : FileId) :
    (purgeBatch now row db blobs).2 f = if refersTo row.1 f then none else blobs f := by
  have found := listed.read row List.mem_cons_self
  have referred : f ∈ foundFiles row.1 db.files ↔ refersTo row.1 f := by
    rw [found_all (listed.tidy.owned row.2 row.1 found),List.mem_append,Option.mem_toList,Option.mem_toList]
    rfl
  rw [← (one_batch listed.tidy listed.filed found now).2,unlinkAll_at]
  exact if_congr referred rfl rfl

theorem purgeAll_blobs (listed : Listed codec rows db blobs) (now : Instant) (f : FileId) :
    (purgeAll now rows db blobs).2 f = if ∃ row ∈ rows, refersTo row.1 f then none else blobs f := by
  induction rows generalizing db blobs with
  | nil => simp [purgeAll]
  | cons row rows ih =>
    rw [purgeAll,ih (listed.purged now),purgeBatch_blobs listed]
    by_cases later : ∃ row ∈ rows, refersTo row.1 f
    · rw [if_pos later,if_pos (later.imp fun _ held => ⟨List.mem_cons_of_mem _ held.1,held.2⟩)]
    · simp [later]

theorem purgeAll_batches (i : BatchId) :
    (purgeAll now rows db blobs).1.batches[i]? =
      (db.batches[i]?).map (fun b => if i ∈ rows.map Prod.snd then Batch.purge now b else b) := by
  induction rows generalizing db blobs with
  | nil => simp [purgeAll]
  | cons row rows ih =>
    have one : (purgeBatch now row db blobs).1.batches = db.batches.modify row.2 (Batch.purge now) := rfl
    rw [purgeAll,ih,one,List.getElem?_modify,Option.map_eq_map,Option.map_map,List.map_cons]
    refine congrArg (fun g => (db.batches[i]?).map g) (funext fun b => ?_)
    by_cases mine : row.2 = i
    · subst mine
      by_cases again : row.2 ∈ rows.map Prod.snd <;> simp [again,Batch.purge]
    · have same : i ∈ rows.map Prod.snd ↔ i ∈ row.2 :: rows.map Prod.snd :=
        ⟨List.mem_cons_of_mem _,fun member => (List.mem_cons.mp member).resolve_left (Ne.symm mine)⟩
      simp only [Function.comp_apply,if_neg mine]
      exact if_congr same rfl rfl

-- A finished batch that has kept its results for the retention period.
def Due (retentionDays : Int) (now : Instant) (b : Batch) : Prop :=
  b.purgedAt = none ∧ ∃ terminalAt, terminalTimestamp b = some (some terminalAt) ∧ terminalAt + days retentionDays ≤ now

theorem purgeDue_iff {b : Batch} : purgeDue retentionDays now b = true ↔ Due retentionDays now b := by
  unfold purgeDue Due
  rw [Bool.and_eq_true,Option.isNone_iff_eq_none]
  refine and_congr_right fun _ => ?_
  cases terminalTimestamp b with
  | none => simp
  | some at_ =>
    cases at_ with
    | none => simp
    | some terminalAt => simp [le_sub_iff_add_le]

instance (b : Batch) : Decidable (Due retentionDays now b) := decidable_of_iff _ purgeDue_iff

def DueResult (retentionDays : Int) (now : Instant) (db : Db) (f : FileId) : Prop :=
  ∃ b ∈ db.batches, Due retentionDays now b ∧ refersTo b f

instance (f : FileId) : Decidable (DueResult retentionDays now db f) :=
  inferInstanceAs (Decidable (∃ b ∈ db.batches, Due retentionDays now b ∧ refersTo b f))

structure PurgedExactly (retentionDays : Int) (now : Instant) (db : Db) (blobs : Blobs) (count : Nat) (after : Db)
    (blobsAfter : Blobs) : Prop where
  removed : ∀ f, DueResult retentionDays now db f →
    (∃ object, db.files[f]? = some (some object) ∧ object.purpose ≠ .batchInput) ∧ (blobs f).isSome
  files : ∀ (f : FileId) object, after.files[f]? = some (some object) ↔
    db.files[f]? = some (some object) ∧ ¬ DueResult retentionDays now db f
  blobs : ∀ f, blobsAfter f = if DueResult retentionDays now db f then none else blobs f
  inputs : ∀ b ∈ db.batches, ¬ DueResult retentionDays now db b.inputFileId
  spared : ∀ b ∈ db.batches, ¬ Due retentionDays now b → ∀ f, refersTo b f → ¬ DueResult retentionDays now db f
  batches : ∀ i : BatchId, after.batches[i]? =
    (db.batches[i]?).map (fun b => if Due retentionDays now b then Batch.purge now b else b)
  others : after = {db with files := after.files,batches := after.batches}
  unreferenced : ∀ f, DueResult retentionDays now db f → ∀ b ∈ after.batches, ¬ pointsAt b f
  counted : count = db.batches.countP (fun b => decide (Due retentionDays now b))
  again : purge retentionDays now after blobsAfter = .ok (0,after,blobsAfter)

theorem mem_dueRows {i : BatchId} {b : Batch} :
    (b,i) ∈ dueRows retentionDays now db ↔ db.batches[i]? = some b ∧ Due retentionDays now b := by
  rw [dueRows,List.mem_filter,List.mk_mem_zipIdx_iff_getElem?,purgeDue_iff]

theorem dueResult_rows : DueResult retentionDays now db f ↔ ∃ row ∈ dueRows retentionDays now db, refersTo row.1 f := by
  constructor
  · rintro ⟨b,member,due,refers⟩
    obtain ⟨i,there⟩ := List.mem_iff_getElem?.mp member
    exact ⟨(b,i),mem_dueRows.mpr ⟨there,due⟩,refers⟩
  · rintro ⟨⟨b,i⟩,member,refers⟩
    obtain ⟨there,due⟩ := mem_dueRows.mp member
    exact ⟨b,List.mem_of_getElem? there,due,refers⟩

theorem dueRows_length (retentionDays : Int) (now : Instant) (db : Db) :
    (dueRows retentionDays now db).length = db.batches.countP (fun b => decide (Due retentionDays now b)) := by
  have chosen := congrArg List.length (Rows.map_selected db.batches (purgeDue retentionDays now) id)
  rw [List.length_map,List.length_map,← List.countP_eq_length_filter (p := purgeDue retentionDays now)] at chosen
  refine chosen.trans (List.countP_congr fun b _ => ?_)
  rw [purgeDue_iff,decide_eq_true_iff]

theorem purgeAll_others (now : Instant) (rows : List (Batch × BatchId)) (db : Db) (blobs : Blobs) :
    (purgeAll now rows db blobs).1 = {db with
      files := (purgeAll now rows db blobs).1.files
      batches := (purgeAll now rows db blobs).1.batches} := by
  induction rows generalizing db blobs with
  | nil => rfl
  | cons row rows ih => exact ih _ _

theorem due_listed (tidy : Tidy db) (filed : Filed codec db blobs) (retentionDays : Int) (now : Instant) :
    Listed codec (dueRows retentionDays now db) db blobs :=
  listed_filter tidy filed fun _ due => purgeDue_ended due

-- A row that a batch refers to was published with it, and no input is one.
theorem result_there (tidy : Tidy db) (filed : Filed codec db blobs) (due : DueResult retentionDays now db f) :
    (∃ object, db.files[f]? = some (some object) ∧ object.purpose ≠ .batchInput) ∧ (blobs f).isSome := by
  obtain ⟨b,member,_,refers⟩ := due
  obtain ⟨i,there⟩ := List.mem_iff_getElem?.mp member
  have own := tidy.owned i b there
  obtain ⟨completed,unpurged⟩ := own.finished f refers
  have published := filed.published i b there completed unpurged
  rcases refers with output | errors
  · obtain ⟨object,found,_,purpose⟩ := own.output f output
    obtain ⟨g,same,stored⟩ := published.output
    rw [output] at same
    cases same
    exact ⟨⟨object,found,by simp [purpose]⟩,by simp [stored]⟩
  · obtain ⟨object,found,_,purpose⟩ := own.errors f errors
    exact ⟨⟨object,found,by simp [purpose]⟩,by simp [published.errors f errors]⟩

theorem input_spared (tidy : Tidy db) {b : Batch} (member : b ∈ db.batches) :
    ¬ DueResult retentionDays now db b.inputFileId := by
  rintro ⟨c,other,_,refers⟩
  obtain ⟨i,there⟩ := List.mem_iff_getElem?.mp member
  obtain ⟨j,found⟩ := List.mem_iff_getElem?.mp other
  exact (tidy.owned j c found).upload_apart (tidy.owned i b there).input refers

theorem undue_spared (filed : Filed codec db blobs) {b : Batch} (member : b ∈ db.batches)
    (undue : ¬ Due retentionDays now b) (refers : refersTo b f) : ¬ DueResult retentionDays now db f := by
  rintro ⟨c,other,due,again⟩
  obtain ⟨i,there⟩ := List.mem_iff_getElem?.mp member
  obtain ⟨j,found⟩ := List.mem_iff_getElem?.mp other
  by_cases same : i = j
  · subst same
    rw [there] at found
    cases found
    exact undue due
  · exact refers_apart filed there found same refers again

theorem purged_batches (retentionDays : Int) (now : Instant) (db : Db) (blobs : Blobs) (i : BatchId) :
    (purgeExpiredResults retentionDays now db blobs).1.batches[i]? =
      (db.batches[i]?).map (fun b => if Due retentionDays now b then Batch.purge now b else b) := by
  rw [purgeExpiredResults,purgeAll_batches]
  refine Option.map_congr fun b there => if_congr ?_ rfl rfl
  rw [Rows.mem_selected (p := purgeDue retentionDays now),← purgeDue_iff]
  constructor
  · rintro ⟨row,found,due⟩
    rw [there] at found
    cases found
    exact due
  · exact fun due => ⟨b,there,due⟩

theorem purged_row {b : Batch} (member : b ∈ (purgeExpiredResults retentionDays now db blobs).1.batches) :
    ∃ old ∈ db.batches, b = if Due retentionDays now old then Batch.purge now old else old := by
  obtain ⟨i,there⟩ := List.mem_iff_getElem?.mp member
  rw [purged_batches] at there
  obtain ⟨old,found,same⟩ := Option.map_eq_some_iff.mp there
  exact ⟨old,List.mem_of_getElem? found,same.symm⟩

theorem purged_unreferenced (tidy : Tidy db) (filed : Filed codec db blobs) (due : DueResult retentionDays now db f) :
    ∀ b ∈ (purgeExpiredResults retentionDays now db blobs).1.batches, ¬ pointsAt b f := by
  intro b member points
  obtain ⟨old,was,rfl⟩ := purged_row member
  by_cases late : Due retentionDays now old
  · rw [if_pos late] at points
    rcases points with input | output | errors
    · exact input_spared tidy was (input ▸ due)
    · cases output
    · cases errors
  · rw [if_neg late] at points
    rcases points with input | refers
    · exact input_spared tidy was (input ▸ due)
    · exact undue_spared filed was late refers due

theorem dueRows_purged (retentionDays : Int) (now : Instant) (db : Db) (blobs : Blobs) :
    dueRows retentionDays now (purgeExpiredResults retentionDays now db blobs).1 = [] := by
  refine List.filter_eq_nil_iff.mpr fun row member due => ?_
  have there := List.mem_of_getElem? (List.mk_mem_zipIdx_iff_getElem?.mp member)
  obtain ⟨old,_,same⟩ := purged_row there
  have still := purgeDue_iff.mp due
  rw [same] at still
  by_cases late : Due retentionDays now old
  · rw [if_pos late] at still
    cases still.1
  · rw [if_neg late] at still
    exact late still

theorem purge_again (tidy : Tidy db) (filed : Filed codec db blobs) (computed : cutoffOf retentionDays now = .ok cutoff) :
    purge retentionDays now (purgeExpiredResults retentionDays now db blobs).1 (purgeExpiredResults retentionDays now db blobs).2 =
      .ok (0,purgeExpiredResults retentionDays now db blobs) := by
  have listed := due_listed tidy filed retentionDays now
  have tidyAfter : Tidy (purgeExpiredResults retentionDays now db blobs).1 :=
    tidy_purgedAll tidy filed (fun row member => ⟨listed.read row member,listed.ended row member⟩) listed.distinct now
  have filedAfter : Filed codec (purgeExpiredResults retentionDays now db blobs).1 (purgeExpiredResults retentionDays now db blobs).2 :=
    filed_purgedAll filed listed.read listed.distinct now
  have none := dueRows_purged retentionDays now db blobs
  rw [purge_runs tidyAfter filedAfter computed,none,purgeExpiredResults,← dueRows,none]
  rfl

theorem purged_exactly (tidy : Tidy db) (filed : Filed codec db blobs) (computed : cutoffOf retentionDays now = .ok cutoff) :
    PurgedExactly retentionDays now db blobs (dueRows retentionDays now db).length
      (purgeExpiredResults retentionDays now db blobs).1 (purgeExpiredResults retentionDays now db blobs).2 where
  removed _ := result_there tidy filed
  files _ _ := by
    rw [dueResult_rows,not_exists]
    exact purgeAll_files.trans (and_congr_right fun _ => forall_congr' fun _ => not_and.symm)
  blobs f := (purgeAll_blobs (due_listed tidy filed retentionDays now) now f).trans (if_congr dueResult_rows.symm rfl rfl)
  inputs _ := input_spared tidy
  spared _ member undue _ := undue_spared filed member undue
  batches := purged_batches retentionDays now db blobs
  others := purgeAll_others now _ db blobs
  unreferenced _ := purged_unreferenced tidy filed
  counted := dueRows_length retentionDays now db
  again := purge_again tidy filed computed

-- In every state a run reaches a purge takes exactly the due results.
theorem purge_exact (path : Run (Routes.Step codec alpha defaultMaxTokens) {} actions s) (retentionDays : Int) (now : Instant) :
    purge retentionDays now s.db s.blobs ≠ .error .integrityError ∧
    ∀ cutoff, cutoffOf retentionDays now = .ok cutoff → ∃ count after blobsAfter,
      purge retentionDays now s.db s.blobs = .ok (count,after,blobsAfter) ∧
      (after,blobsAfter) = purgeExpiredResults retentionDays now s.db s.blobs ∧
      PurgedExactly retentionDays now s.db s.blobs count after blobsAfter := by
  have valid := TenantIsolation.run_isolated path
  constructor
  · cases computed : cutoffOf retentionDays now with
    | error e =>
      rw [purge,computed,cutoffOf_error computed]
      nofun
    | ok cutoff =>
      rw [purge_runs valid.tidy valid.filed computed]
      nofun
  · intro cutoff computed
    exact ⟨_,_,_,purge_runs valid.tidy valid.filed computed,rfl,purged_exactly valid.tidy valid.filed computed⟩

-- The batch of one answered and one failed request, a month after it ended.
theorem purge_exact_month : ∃ s after blobsAfter,
    Run (Routes.Step JsonText.codec (3/10) 16) {} TenantIsolation.answeredBatch s ∧
    purge 30 (days 31) s.db s.blobs = .ok (1,after,blobsAfter) ∧
    PurgedExactly 30 (days 31) s.db s.blobs 1 after blobsAfter := by
  have ran : (replay (Routes.advance JsonText.codec (3/10) 16) TenantIsolation.answeredBatch {}).any
      (fun s => decide (s.db.batches.countP (fun b => decide (Due 30 (days 31) b)) = 1)) = true := by decide +kernel
  obtain ⟨s,path,one⟩ := replay_reaches ran
  obtain ⟨count,after,blobsAfter,done,_,outcome⟩ := (purge_exact path 30 (days 31)).2 (days 1) (by decide)
  have counted : count = 1 := outcome.counted.trans (of_decide_eq_true one)
  subst counted
  exact ⟨s,after,blobsAfter,path,done,outcome⟩

end BatchGateway.ResultPurge
