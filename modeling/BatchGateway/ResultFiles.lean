import BatchGateway.Counters

-- The output and error files of completed batches, until they are purged.
namespace BatchGateway.ResultFiles
open PythonText PythonJson BatchOps Service LabelledRuns Records Counters

def rowsOf (db : Db) (batch : BatchId) : List (Task × TaskId) := byLineIndex (db.batchTasks batch)

-- The files a batch row refers to are its own.
structure Named (db : Db) (batch : BatchId) (b : Batch) : Prop where
  output : ∀ f, b.outputFileId = some f → ∃ row, db.files[f]? = some (some row) ∧ row.filename = .output batch
  errors : ∀ f, b.errorFileId = some f → ∃ row, db.files[f]? = some (some row) ∧ row.filename = .errors batch

structure Published (codec : Codec) (db : Db) (blobs : Blobs) (batch : BatchId) (b : Batch) : Prop where
  settled : ∀ row ∈ db.batchTasks batch, settled row.1 = true
  output : ∃ f, b.outputFileId = some f ∧ blobs f = some (outputBytes codec (rowsOf db batch))
  clean : b.errorFileId = none ↔ failedRows (rowsOf db batch) = []
  errors : ∀ f, b.errorFileId = some f → blobs f = some (errorBytes codec (rowsOf db batch))

structure Filed (codec : Codec) (db : Db) (blobs : Blobs) : Prop where
  named : ∀ i b, db.batches[i]? = some b → Named db i b
  published : ∀ i b, db.batches[i]? = some b → b.status = .completed → b.purgedAt = none → Published codec db blobs i b

def references (b : Batch) : Option FileId × Option FileId × Option Instant := (b.outputFileId,b.errorFileId,b.purgedAt)

variable {codec : Codec} {alpha : ℚ} {s t : Service} {op : Operation} {db after : Db} {blobs blobsAfter : Blobs}

theorem mem_batchTasks {batch : BatchId} {t : Task} {i : TaskId} :
    (t,i) ∈ db.batchTasks batch ↔ db.tasks[i]? = some t ∧ t.batchId = batch := by
  simp [Db.batchTasks,List.mk_mem_zipIdx_iff_getElem?]

-- No operation writes the row of a settled task.
theorem settled_frozen (progress : Progress s.db s.inFlight) (step : Step codec alpha s op t) {i : TaskId} {row : Task}
    (found : s.db.tasks[i]? = some row) (ended : settled row = true) : t.db.tasks[i]? = some row := by
  have dead : row.live = false := by
    cases live : row.live with
    | false => rfl
    | true => rw [live_unsettled live] at ended; cases ended
  refine dead_stays step found dead fun task settling => ?_
  have flying : task ∈ s.inFlight := by
    cases op with
    | completeTask =>
      cases settling
      exact (complete_step step).1
    | failTask =>
      cases settling
      exact (fail_step step).1
    | _ => cases settling
  rintro rfl
  obtain ⟨u,there,status⟩ := progress.flying task flying
  rw [found] at there
  cases there
  rcases status with running | cancelled
  · simp [settled,running,settledStatus] at ended
  · simp [settled,cancelled,settledStatus] at ended

-- The tasks of a batch that has no open task are never written again, and no
-- task is added to a batch.
theorem batchTasks_frozen (progress : Progress s.db s.inFlight) (step : Step codec alpha s op t) {batch : BatchId}
    (inside : batch < s.db.batches.length) (ended : ∀ row ∈ s.db.batchTasks batch, settled row.1 = true) :
    t.db.batchTasks batch = s.db.batchTasks batch := by
  have requests := step_requests step
  refine Rows.selected_same (p := fun t : Task => t.batchId == batch) ?_ ?_
  · intro i row found
    have here := (List.getElem?_eq_some_iff.mp found).choose
    have kept : (t.db.tasks.map Task.request)[i]? = some (Task.request row) := by
      rw [requests,List.getElem?_append_left (by rwa [List.length_map]),List.getElem?_map,found,Option.map_some]
    rw [List.getElem?_map] at kept
    obtain ⟨next,there,same⟩ := Option.map_eq_some_iff.mp kept
    refine ⟨next,there,fun mine => ?_⟩
    have owner : next.batchId = row.batchId := congrArg Request.batchId same
    have named : row.batchId = batch := by
      rcases mine with mine | mine
      · simpa using mine
      · rw [← owner]
        simpa using mine
    have frozen := settled_frozen progress step found (ended (row,i) (mem_batchTasks.mpr ⟨found,named⟩))
    rw [there] at frozen
    exact Option.some.inj frozen
  · intro i next far there
    have listed : (t.db.tasks.map Task.request)[i]? = some (Task.request next) := by simp [there]
    rw [requests,List.getElem?_append_right (by rwa [List.length_map])] at listed
    obtain ⟨created,member,same⟩ := List.mem_map.mp (List.mem_of_getElem? listed)
    have owner : created.batchId = next.batchId := congrArg Request.batchId same
    cases op with
    | createBatch user inputFile endpoint window lines now =>
      obtain ⟨p,_,rfl⟩ := List.mem_map.mp member
      rw [← owner]
      simpa [newTask] using Nat.ne_of_gt inside
    | _ => cases member

-- A row that a change of the tables leaves as it was, as far as its files go.
def Kept (db : Db) (i : BatchId) (b : Batch) : Prop :=
  ∃ old, db.batches[i]? = some old ∧ references b = references old ∧ (b.status = .completed → old.status = .completed)

def Unpublished (b : Batch) : Prop := b.outputFileId = none ∧ b.errorFileId = none ∧ b.status ≠ .completed

theorem file_inside {files : List (Option FileObject)} {f : FileId} {row : FileObject}
    (found : files[f]? = some (some row)) : f < files.length := (List.getElem?_eq_some_iff.mp found).choose

theorem named_kept {i : BatchId} {b old : Batch} (valid : Named db i old) (same : references b = references old)
    (files : ∀ (f : FileId) row, db.files[f]? = some (some row) → after.files[f]? = some (some row)) : Named after i b := by
  simp only [references,Prod.mk.injEq] at same
  refine ⟨fun f refers => ?_,fun f refers => ?_⟩
  · obtain ⟨row,found,name⟩ := valid.output f (same.1 ▸ refers)
    exact ⟨row,files f row found,name⟩
  · obtain ⟨row,found,name⟩ := valid.errors f (same.2.1 ▸ refers)
    exact ⟨row,files f row found,name⟩

theorem published_kept {i : BatchId} {b old : Batch} (named : Named db i old) (valid : Published codec db blobs i old)
    (same : references b = references old) (tasks : after.batchTasks i = db.batchTasks i)
    (content : ∀ f < db.files.length, blobsAfter f = blobs f) : Published codec after blobsAfter i b := by
  simp only [references,Prod.mk.injEq] at same
  have rows : rowsOf after i = rowsOf db i := congrArg byLineIndex tasks
  refine ⟨by rw [tasks]; exact valid.settled,?_,by rw [same.2.1,rows]; exact valid.clean,?_⟩
  · obtain ⟨f,refers,written⟩ := valid.output
    obtain ⟨row,found,_⟩ := named.output f refers
    exact ⟨f,same.1.trans refers,by rw [content f (file_inside found),rows,written]⟩
  · intro f refers
    rw [same.2.1] at refers
    obtain ⟨row,found,_⟩ := named.errors f refers
    rw [content f (file_inside found),rows]
    exact valid.errors f refers

-- Tables and blobs that only grow, with at most new results.
theorem filed_grown (valid : Filed codec db blobs)
    (files : ∀ (f : FileId) row, db.files[f]? = some (some row) → after.files[f]? = some (some row))
    (content : ∀ f < db.files.length, blobsAfter f = blobs f)
    (tasks : ∀ i < db.batches.length, (∀ row ∈ db.batchTasks i, settled row.1 = true) →
      after.batchTasks i = db.batchTasks i)
    (batches : ∀ i b, after.batches[i]? = some b → Kept db i b ∨ Unpublished b ∨
      (Named after i b ∧ Published codec after blobsAfter i b)) : Filed codec after blobsAfter := by
  refine ⟨fun i b found => ?_,fun i b found done unpurged => ?_⟩
  · rcases batches i b found with ⟨old,was,same,_⟩ | ⟨none_out,none_err,_⟩ | ⟨named,_⟩
    · exact named_kept (valid.named i old was) same files
    · refine ⟨fun f refers => ?_,fun f refers => ?_⟩
      · rw [none_out] at refers
        cases refers
      · rw [none_err] at refers
        cases refers
    · exact named
  · rcases batches i b found with ⟨old,was,same,closed⟩ | ⟨_,_,open_⟩ | ⟨_,published⟩
    · have kept : old.purgedAt = none := by
        simp only [references,Prod.mk.injEq] at same
        rw [← same.2.2]
        exact unpurged
      have before := valid.published i old was (closed done) kept
      have inside := (List.getElem?_eq_some_iff.mp was).choose
      exact published_kept (valid.named i old was) before same (tasks i inside before.settled) content
    · exact absurd done open_
    · exact published

-- An update of one batch row that does not touch its files.
theorem kept_modify (batch : BatchId) {i : BatchId} {g : Batch → Batch} {b : Batch}
    (found : (db.batches.modify batch g)[i]? = some b) (same : ∀ old, references (g old) = references old)
    (closed : ∀ old, (g old).status = .completed → old.status = .completed) : Kept db i b := by
  rw [List.getElem?_modify] at found
  obtain ⟨old,was,rfl⟩ := Option.map_eq_some_iff.mp found
  refine ⟨old,was,?_,?_⟩
  · split
    · exact same old
    · rfl
  · split
    · exact closed old
    · exact fun done => done

theorem kept_same {i : BatchId} {b : Batch} (found : db.batches[i]? = some b) : Kept db i b := ⟨b,found,rfl,fun done => done⟩

-- What the finalization of a batch writes.
theorem finalizeBatch_published {flights : List TaskId} {copy : Batch} {batch : BatchId} (progress : Progress db flights)
    (found : db.batches[batch]? = some copy) (due : shouldFinalize copy = true) (now : Instant) (blobs : Blobs) :
    ∀ b, (finalizeBatch codec copy batch now db blobs).1.batches[batch]? = some b →
      Named (finalizeBatch codec copy batch now db blobs).1 batch b ∧
      Published codec (finalizeBatch codec copy batch now db blobs).1 (finalizeBatch codec copy batch now db blobs).2
        batch b := by
  intro b there
  have written : b = Batch.finish db.files.length (errorFile db.files.length (rowsOf db batch)) now copy := by
    have row : (db.batches.modify batch (Batch.finish db.files.length (errorFile db.files.length (rowsOf db batch)) now))[batch]? =
        some b := there
    rw [Rows.getElem?_modify_self found] at row
    exact (Option.some.inj row).symm
  have files : (finalizeBatch codec copy batch now db blobs).1.files =
      db.files ++ resultFiles codec copy.userId batch now (rowsOf db batch) := rfl
  have content : (finalizeBatch codec copy batch now db blobs).2 =
      resultBlobs codec db.files.length (rowsOf db batch) blobs := rfl
  have rows : rowsOf (finalizeBatch codec copy batch now db blobs).1 batch = rowsOf db batch := rfl
  have errorRef : b.errorFileId = errorFile db.files.length (rowsOf db batch) := by rw [written]; rfl
  have ended := counted_settled (progress.counted batch copy found) (by
    simp only [shouldFinalize,Bool.and_eq_true,decide_eq_true_eq] at due
    exact due.2)
  subst written
  refine ⟨⟨fun f refers => ?_,fun f refers => ?_⟩,⟨fun row member => ?_,⟨_,rfl,?_⟩,?_,fun f refers => ?_⟩⟩
  · cases Option.some.inj refers
    rw [files,List.getElem?_append_right le_rfl,Nat.sub_self]
    exact ⟨_,rfl,rfl⟩
  · rw [errorRef,errorFile] at refers
    split at refers
    · cases refers
    · rename_i some_failed
      cases refers
      rw [files,List.getElem?_append_right (Nat.le_add_right _ 1),Nat.add_sub_cancel_left,resultFiles,if_neg some_failed]
      exact ⟨_,rfl,rfl⟩
  · obtain ⟨task,i⟩ := row
    obtain ⟨there,mine⟩ := mem_batchTasks.mp member
    exact ended task (List.mem_of_getElem? there) mine
  · rw [content,rows,resultBlobs]
    split
    · exact Function.update_self ..
    · rw [writeBlob,Function.update_of_ne (Nat.ne_of_lt (Nat.lt_succ_self _))]
      exact Function.update_self ..
  · rw [errorRef,rows,errorFile]
    split
    · rename_i none_failed
      simp [none_failed]
    · rename_i some_failed
      simp [some_failed]
  · rw [errorRef,errorFile] at refers
    split at refers
    · cases refers
    · rename_i some_failed
      cases refers
      rw [content,rows,resultBlobs,if_neg some_failed]
      exact Function.update_self ..

theorem blobs_below (output : FileId) (rows : List (Task × TaskId)) (blobs : Blobs) :
    ∀ f < output, resultBlobs codec output rows blobs f = blobs f := by
  intro f below
  have first : f ≠ output := Nat.ne_of_lt below
  have second : f ≠ output + 1 := Nat.ne_of_lt (Nat.lt_succ_of_lt below)
  unfold resultBlobs
  split
  · exact Function.update_of_ne first _ _
  · exact (Function.update_of_ne second _ _).trans (Function.update_of_ne first _ _)

-- A settlement: one batch counts it, and is finalized if it was the last.
theorem filed_settled {task : TaskId} {now : Instant} {mid : Db} {flights : List TaskId} {batch : BatchId}
    {g : Batch → Batch} (valid : Filed codec db blobs) (progress : Progress mid flights)
    (files : mid.files = db.files) (batches : mid.batches = db.batches.modify batch g)
    (same : ∀ b, references (g b) = references b) (closed : ∀ b, (g b).status = .completed → b.status = .completed)
    (tasks : ∀ i < db.batches.length, (∀ row ∈ db.batchTasks i, settled row.1 = true) →
      (finalizeAfter codec task now mid blobs).1.batchTasks i = db.batchTasks i) :
    Filed codec (finalizeAfter codec task now mid blobs).1 (finalizeAfter codec task now mid blobs).2 := by
  have counted : ∀ (i : BatchId) b, mid.batches[i]? = some b → Kept db i b := fun i b found =>
    kept_modify batch (batches ▸ found) same closed
  rcases finalizeAfter_parts codec task now mid blobs with whole | ⟨t,copy,_,owned,due,whole⟩
  · rw [whole] at tasks ⊢
    exact filed_grown valid (fun f row found => files ▸ found) (fun _ _ => rfl) tasks
      fun i b found => .inl (counted i b found)
  · rw [whole] at tasks ⊢
    refine filed_grown valid (fun f row found => ?_) (fun f below => ?_) tasks fun i b found => ?_
    · have grown : (finalizeBatch codec copy t.batchId now mid blobs).1.files =
          mid.files ++ resultFiles codec copy.userId t.batchId now (rowsOf mid t.batchId) := rfl
      rw [grown,files,List.getElem?_append_left (file_inside found),found]
    · exact blobs_below _ _ _ f (files ▸ below)
    · by_cases mine : t.batchId = i
      · subst mine
        exact .inr (.inr (finalizeBatch_published progress owned due now blobs b found))
      · have row : (mid.batches.modify t.batchId (Batch.finish mid.files.length
            (errorFile mid.files.length (rowsOf mid t.batchId)) now))[i]? = some b := found
        rw [Rows.getElem?_modify_other mine] at row
        exact .inl (counted i b row)

theorem filed_terminated {batch : BatchId} {user : UserId} {terminal : BatchStatus} {note : String} {now : Instant}
    (valid : Filed codec db blobs) (kind : terminal = .cancelled ∨ terminal = .expired)
    (done : terminateBatch user batch terminal note now db = .ok after)
    (tasks : ∀ i < db.batches.length, (∀ row ∈ db.batchTasks i, settled row.1 = true) →
      after.batchTasks i = db.batchTasks i) : Filed codec after blobs := by
  have row : ∀ old, references (Batch.terminate terminal now old) = references old := by
    intro old
    rcases kind with rfl | rfl <;> rfl
  have closed : ∀ old, (Batch.terminate terminal now old).status = .completed → old.status = .completed := by
    intro old completed
    rcases kind with rfl | rfl <;> cases completed
  rcases terminateSelected_parts done with ⟨_,rfl⟩ | ⟨_,_,_,_,_,rfl⟩
  · exact filed_grown valid (fun _ _ found => found) (fun _ _ => rfl) tasks
      fun i b found => .inl (kept_modify batch (g := Batch.terminate terminal now) found row closed)
  · exact filed_grown valid (fun _ _ found => found) (fun _ _ => rfl) tasks
      fun i b found => .inl (kept_modify batch (g := Batch.terminate terminal now) found row closed)

theorem deleted_other {f : FileId} {file : Option FileId} (different : file ≠ some f) (files : List (Option FileObject)) :
    (Retention.deleteFile file files)[f]? = files[f]? := by
  cases file with
  | none => rfl
  | some g => exact Rows.getElem?_modify_other (fun same => different (congrArg some same)) _

theorem unlinked_other {f : FileId} {file : Option FileId} (different : file ≠ some f) (files : List (Option FileObject))
    (blobs : Blobs) : Retention.unlinkBlob file files blobs f = blobs f := by
  cases file with
  | none => rfl
  | some g =>
    simp only [Retention.unlinkBlob]
    split
    · exact Function.update_of_ne (fun same => different (congrArg some same.symm)) _ _
    · rfl

-- The files of one batch go, every other file stays.
theorem filed_purged {copy : Batch} {batch : BatchId} (valid : Filed codec db blobs)
    (found : db.batches[batch]? = some copy) (now : Instant) :
    Filed codec (Retention.purgeBatch now (copy,batch) db blobs).1 (Retention.purgeBatch now (copy,batch) db blobs).2 := by
  have own := valid.named batch copy found
  have survives : ∀ (f : FileId) row, db.files[f]? = some (some row) → row.filename ≠ .output batch →
      row.filename ≠ .errors batch →
      (Retention.purgeBatch now (copy,batch) db blobs).1.files[f]? = some (some row) ∧
      (Retention.purgeBatch now (copy,batch) db blobs).2 f = blobs f := by
    intro f row there output errors
    have first : copy.outputFileId ≠ some f := by
      intro refers
      obtain ⟨other,same,name⟩ := own.output f refers
      rw [there] at same
      cases same
      exact output name
    have second : copy.errorFileId ≠ some f := by
      intro refers
      obtain ⟨other,same,name⟩ := own.errors f refers
      rw [there] at same
      cases same
      exact errors name
    constructor
    · simp only [Retention.purgeBatch]
      rw [deleted_other second,deleted_other first,there]
    · simp only [Retention.purgeBatch]
      rw [unlinked_other second,unlinked_other first]
  have row : ∀ (i : BatchId) b, (Retention.purgeBatch now (copy,batch) db blobs).1.batches[i]? = some b →
      (i = batch ∧ b = Retention.Batch.purge now copy) ∨ (i ≠ batch ∧ db.batches[i]? = some b) := by
    intro i b there
    have modified : (db.batches.modify batch (Retention.Batch.purge now))[i]? = some b := there
    by_cases mine : batch = i
    · subst mine
      rw [Rows.getElem?_modify_self found] at modified
      exact .inl ⟨rfl,(Option.some.inj modified).symm⟩
    · rw [Rows.getElem?_modify_other mine] at modified
      exact .inr ⟨Ne.symm mine,modified⟩
  have kept : ∀ (i : BatchId) b, i ≠ batch → db.batches[i]? = some b →
      Named (Retention.purgeBatch now (copy,batch) db blobs).1 i b := by
    intro i b other was
    refine ⟨fun f refers => ?_,fun f refers => ?_⟩
    · obtain ⟨row,there,name⟩ := (valid.named i b was).output f refers
      exact ⟨row,(survives f row there (by simpa [name] using other) (by simp [name])).1,name⟩
    · obtain ⟨row,there,name⟩ := (valid.named i b was).errors f refers
      exact ⟨row,(survives f row there (by simp [name]) (by simpa [name] using other)).1,name⟩
  refine ⟨fun i b there => ?_,fun i b there done unpurged => ?_⟩
  · rcases row i b there with ⟨_,rfl⟩ | ⟨other,was⟩
    · refine ⟨fun f refers => ?_,fun f refers => ?_⟩
      · cases refers
      · cases refers
    · exact kept i b other was
  · rcases row i b there with ⟨_,rfl⟩ | ⟨other,was⟩
    · cases unpurged
    · have before := valid.published i b was done unpurged
      refine ⟨before.settled,?_,before.clean,fun f refers => ?_⟩
      · obtain ⟨f,refers,written⟩ := before.output
        obtain ⟨row,there,name⟩ := (valid.named i b was).output f refers
        exact ⟨f,refers,by rw [(survives f row there (by simpa [name] using other) (by simp [name])).2]; exact written⟩
      · obtain ⟨row,there,name⟩ := (valid.named i b was).errors f refers
        rw [(survives f row there (by simp [name]) (by simpa [name] using other)).2]
        exact before.errors f refers

theorem filed_purgedAll {rows : List (Batch × BatchId)} (valid : Filed codec db blobs)
    (found : ∀ row ∈ rows, db.batches[row.2]? = some row.1) (distinct : (rows.map Prod.snd).Nodup) (now : Instant) :
    Filed codec (Retention.purgeAll now rows db blobs).1 (Retention.purgeAll now rows db blobs).2 := by
  induction rows generalizing db blobs with
  | nil => exact valid
  | cons row rows ih =>
    have here := found row List.mem_cons_self
    refine ih (filed_purged valid here now) (fun later member => ?_) (List.nodup_cons.mp distinct).2
    exact Retention.purgeBatch_read blobs distinct member (found later (List.mem_cons_of_mem _ member))

theorem step_filed (progress : Progress s.db s.inFlight) (valid : Filed codec s.db s.blobs)
    (step : Step codec alpha s op t) : Filed codec t.db t.blobs := by
  have tasks : ∀ i < s.db.batches.length, (∀ row ∈ s.db.batchTasks i, settled row.1 = true) →
      t.db.batchTasks i = s.db.batchTasks i := fun i => batchTasks_frozen progress step
  cases op with
  | grant =>
    obtain ⟨_,rfl⟩ := grant_posts step
    exact filed_grown valid (fun _ _ found => found) (fun _ _ => rfl) tasks fun i b found => .inl (kept_same found)
  | uploadFile user name data now =>
    cases step
    refine filed_grown valid (fun f row found => ?_) (fun f below => ?_) tasks fun i b found => .inl (kept_same found)
    · exact (List.getElem?_append_left (file_inside found)).trans found
    · exact Function.update_of_ne (Nat.ne_of_lt below) _ _
  | createBatch user inputFile endpoint window lines now =>
    obtain ⟨db,created,rfl⟩ := create_step step
    obtain ⟨_,_,_,_,_,rfl⟩ := createBatch_parts created
    refine filed_grown valid (fun _ _ found => found) (fun _ _ => rfl) tasks fun i b found => ?_
    have row : (s.db.batches ++ [newBatch user inputFile endpoint window lines now])[i]? = some b := found
    rcases Nat.lt_or_ge i s.db.batches.length with inside | outside
    · rw [List.getElem?_append_left inside] at row
      exact .inl (kept_same row)
    · rw [List.getElem?_append_right outside] at row
      rw [List.mem_singleton.mp (List.mem_of_getElem? row)]
      exact .inr (.inl ⟨rfl,rfl,by simp [newBatch]⟩)
  | completeTask task responseBody promptTokens completionTokens now =>
    obtain ⟨flying,db,committed,rfl⟩ := complete_step step
    have mid := progress_completed progress flying committed
    obtain ⟨_,_,_,_,_,_,_,_,_,_,_,rfl⟩ := commitCompleted_parts committed
    exact filed_settled valid mid rfl rfl (fun _ => rfl) (fun _ done => done) tasks
  | failTask task error now =>
    obtain ⟨flying,db,committed,rfl⟩ := fail_step step
    have mid := progress_failed progress flying committed
    obtain ⟨_,_,_,_,⟨_,rfl⟩ | ⟨_,_,_,_,_,rfl⟩⟩ := commitFailed_parts committed
    · exact filed_settled valid mid rfl rfl (fun _ => rfl) (fun _ done => done) tasks
    · exact filed_settled valid mid rfl rfl (fun _ => rfl) (fun _ done => done) tasks
  | cancelBatch =>
    obtain ⟨b,db,_,_,_,done,rfl⟩ := cancel_step step
    exact filed_terminated valid (.inl rfl) done tasks
  | expireBatch =>
    obtain ⟨b,db,_,_,done,rfl⟩ := expire_step step
    exact filed_terminated valid (.inr rfl) done tasks
  | purgeExpiredResults retentionDays now =>
    cases step
    refine filed_purgedAll valid (fun row member => ?_) (Rows.selected_distinct _ _) now
    exact List.mk_mem_zipIdx_iff_getElem?.mp (List.mem_filter.mp member).1
  | claimAndAssign load now =>
    cases step
    exact filed_grown valid (fun _ _ found => found) (fun _ _ => rfl) tasks fun i b found => .inl (kept_same found)
  | applyHealthResults threshold results =>
    cases step
    exact filed_grown valid (fun _ _ found => found) (fun _ _ => rfl) tasks fun i b found => .inl (kept_same found)
  | startup nodes =>
    cases step
    exact filed_grown valid (fun _ _ found => found) (fun _ _ => rfl) tasks fun i b found => .inl (kept_same found)

theorem initial_filed : Filed codec ({} : Db) (fun _ => none) := by
  refine ⟨?_,?_⟩
  · intro i b found
    cases found
  · intro i b found
    cases found

end BatchGateway.ResultFiles
