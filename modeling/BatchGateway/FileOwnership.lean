import BatchGateway.ResultFiles

-- Whose files a batch refers to.
namespace BatchGateway.FileOwnership
open PythonText PythonJson BatchOps Service LabelledRuns Records Counters ResultFiles

-- A file row of this user and purpose.
def Holds (files : List (Option FileObject)) (user : UserId) (purpose : FilePurpose) (f : FileId) : Prop :=
  ∃ row, files[f]? = some (some row) ∧ row.userId = user ∧ row.purpose = purpose

def refersTo (b : Batch) (f : FileId) : Prop := b.outputFileId = some f ∨ b.errorFileId = some f

structure Owned (files : List (Option FileObject)) (b : Batch) : Prop where
  input : Holds files b.userId .batchInput b.inputFileId
  output : ∀ f, b.outputFileId = some f → Holds files b.userId .batchOutput f
  errors : ∀ f, b.errorFileId = some f → Holds files b.userId .batchError f
  finished : ∀ f, refersTo b f → b.status = .completed ∧ b.purgedAt = none
  purged : b.purgedAt ≠ none → cancellable b.status = false

-- Every batch refers to its own user's files, and every result file is one a batch refers to.
structure Tidy (db : Db) : Prop where
  owned : ∀ (i : BatchId) b, db.batches[i]? = some b → Owned db.files b
  results : ∀ (f : FileId) row, db.files[f]? = some (some row) → row.purpose ≠ .batchInput →
    ∃ (i : BatchId) (b : Batch), db.batches[i]? = some b ∧ b.userId = row.userId ∧ refersTo b f

-- What no operation but a finalization or a purge changes of a batch.
structure Steady (old new : Batch) : Prop where
  user : new.userId = old.userId
  input : new.inputFileId = old.inputFileId
  references : references new = references old
  ended : cancellable old.status = false → new.status = old.status

variable {codec : Codec} {alpha : ℚ} {s t : Service} {op : Operation} {db after : Db} {blobs blobsAfter : Blobs}
  {files later : List (Option FileObject)}

theorem Steady.refl (b : Batch) : Steady b b := ⟨rfl,rfl,rfl,fun _ => rfl⟩

theorem Holds.kept {user : UserId} {purpose : FilePurpose} {f : FileId} (held : Holds files user purpose f)
    (kept : ∀ row, files[f]? = some (some row) → later[f]? = some (some row)) : Holds later user purpose f := by
  obtain ⟨row,found,mine⟩ := held
  exact ⟨row,kept row found,mine⟩

theorem Steady.refers {old new : Batch} (steady : Steady old new) (f : FileId) : refersTo new f ↔ refersTo old f := by
  have same := steady.references
  simp only [ResultFiles.references,Prod.mk.injEq] at same
  simp only [refersTo,same]

theorem Owned.steady {old new : Batch} (valid : Owned files old) (steady : Steady old new)
    (kept : ∀ (f : FileId) row, files[f]? = some (some row) → later[f]? = some (some row)) : Owned later new := by
  have same := steady.references
  simp only [ResultFiles.references,Prod.mk.injEq] at same
  refine ⟨?_,fun f refers => ?_,fun f refers => ?_,fun f refers => ?_,fun purged => ?_⟩
  · rw [steady.user,steady.input]
    exact valid.input.kept (kept _)
  · rw [steady.user]
    exact (valid.output f (same.1 ▸ refers)).kept (kept f)
  · rw [steady.user]
    exact (valid.errors f (same.2.1 ▸ refers)).kept (kept f)
  · obtain ⟨done,unpurged⟩ := valid.finished f ((steady.refers f).1 refers)
    refine ⟨?_,same.2.2.trans unpurged⟩
    rw [steady.ended (by rw [done]; rfl),done]
  · have ended := valid.purged (same.2.2 ▸ purged)
    rw [steady.ended ended]
    exact ended

-- Tables that keep every file row and every reference.
theorem tidy_grown (valid : Tidy db)
    (kept : ∀ (f : FileId) row, db.files[f]? = some (some row) → after.files[f]? = some (some row))
    (batches : ∀ (i : BatchId) b, after.batches[i]? = some b →
      (∃ old, db.batches[i]? = some old ∧ Steady old b) ∨ Owned after.files b)
    (referred : ∀ (i : BatchId) old f, db.batches[i]? = some old → refersTo old f →
      ∃ b, after.batches[i]? = some b ∧ b.userId = old.userId ∧ refersTo b f)
    (results : ∀ (f : FileId) row, after.files[f]? = some (some row) → row.purpose ≠ .batchInput →
      db.files[f]? = some (some row) ∨
        ∃ (i : BatchId) (b : Batch), after.batches[i]? = some b ∧ b.userId = row.userId ∧ refersTo b f) : Tidy after := by
  refine ⟨fun i b found => ?_,fun f row found result => ?_⟩
  · rcases batches i b found with ⟨old,was,steady⟩ | owned
    · exact (valid.owned i old was).steady steady kept
    · exact owned
  · rcases results f row found result with was | referenced
    · obtain ⟨i,old,there,mine,refers⟩ := valid.results f row was result
      obtain ⟨b,here,same,refers⟩ := referred i old f there refers
      exact ⟨i,b,here,same.trans mine,refers⟩
    · exact referenced

-- One row of the batches changes, and not in what it refers to.
theorem tidy_modified {batch : BatchId} {g : Batch → Batch} (valid : Tidy db) (files : after.files = db.files)
    (batches : after.batches = db.batches.modify batch g)
    (steady : ∀ b, db.batches[batch]? = some b → Steady b (g b)) : Tidy after := by
  have row : ∀ (i : BatchId) old, db.batches[i]? = some old → ∃ b, after.batches[i]? = some b ∧ Steady old b := by
    intro i old was
    rw [batches]
    by_cases mine : batch = i
    · subst mine
      exact ⟨g old,Rows.getElem?_modify_self was g,steady old was⟩
    · exact ⟨old,(Rows.getElem?_modify_other mine g).trans was,.refl old⟩
  refine tidy_grown valid (fun f row found => files ▸ found) (fun i b found => .inl ?_) (fun i old f was refers => ?_)
    fun f row found _ => .inl (files ▸ found)
  · have inside : i < db.batches.length := by
      have here := (List.getElem?_eq_some_iff.mp found).choose
      rwa [batches,List.length_modify] at here
    obtain ⟨b',found',kept⟩ := row i db.batches[i] (List.getElem?_eq_getElem inside)
    rw [found] at found'
    cases found'
    exact ⟨_,List.getElem?_eq_getElem inside,kept⟩
  · obtain ⟨b,found,kept⟩ := row i old was
    exact ⟨b,found,kept.user,(kept.refers f).2 refers⟩

theorem shouldFinalize_status {b : Batch} (due : shouldFinalize b = true) : b.status = .inProgress := by
  simp only [shouldFinalize,Bool.and_eq_true,beq_iff_eq] at due
  exact due.1

-- A batch that is not finished refers to no result file.
theorem Owned.unfinished {b : Batch} {f : FileId} (valid : Owned files b) (running : b.status = .inProgress) :
    ¬ refersTo b f := by
  intro refers
  have done := (valid.finished f refers).1
  rw [running] at done
  cases done

-- The rows a finished batch adds, by their place in the table.
section
variable {copy : Batch} {batch : BatchId} {now : Instant}

theorem finalized_files : (finalizeBatch codec copy batch now db blobs).1.files =
    db.files ++ resultFiles codec copy.userId batch now (rowsOf db batch) := rfl

theorem finalized_kept {f : FileId} {row : FileObject} (there : db.files[f]? = some (some row)) :
    (finalizeBatch codec copy batch now db blobs).1.files[f]? = some (some row) := by
  rw [finalized_files,List.getElem?_append_left (file_inside there),there]

theorem finalized_output :
    Holds (finalizeBatch codec copy batch now db blobs).1.files copy.userId .batchOutput db.files.length := by
  refine ⟨fileRow copy.userId .batchOutput (.output batch) (outputBytes codec (rowsOf db batch)) now,?_,rfl,rfl⟩
  rw [finalized_files,List.getElem?_append_right (le_refl _),Nat.sub_self]
  rfl

theorem finalized_errors {f : FileId} (refers : errorFile db.files.length (rowsOf db batch) = some f) :
    Holds (finalizeBatch codec copy batch now db blobs).1.files copy.userId .batchError f := by
  unfold errorFile at refers
  split at refers
  · cases refers
  · rename_i some_failed
    cases refers
    refine ⟨fileRow copy.userId .batchError (.errors batch) (errorBytes codec (rowsOf db batch)) now,?_,rfl,rfl⟩
    rw [finalized_files,List.getElem?_append_right (Nat.le_add_right _ 1),Nat.add_sub_cancel_left,resultFiles,if_neg some_failed]
    rfl

theorem finalized_added {f : FileId} {row : FileObject}
    (there : (finalizeBatch codec copy batch now db blobs).1.files[f]? = some (some row)) :
    db.files[f]? = some (some row) ∨ (row.userId = copy.userId ∧
      (f = db.files.length ∨ errorFile db.files.length (rowsOf db batch) = some f)) := by
  rcases Nat.lt_or_ge f db.files.length with below | above
  · rw [finalized_files,List.getElem?_append_left below] at there
    exact .inl there
  · obtain ⟨n,rfl⟩ := Nat.exists_eq_add_of_le above
    rw [finalized_files,List.getElem?_append_right above,Nat.add_sub_cancel_left,resultFiles] at there
    cases n with
    | zero =>
      cases there
      exact .inr ⟨rfl,.inl rfl⟩
    | succ n =>
      rw [List.getElem?_cons_succ] at there
      split at there
      · cases there
      · rename_i some_failed
        have first : n = 0 := by
          have inside := (List.getElem?_eq_some_iff.mp there).choose
          simpa using inside
        subst first
        cases there
        exact .inr ⟨rfl,.inr (if_neg some_failed)⟩

end

theorem tidy_finalized {copy : Batch} {batch : BatchId} (valid : Tidy db) (found : db.batches[batch]? = some copy)
    (due : shouldFinalize copy = true) (now : Instant) : Tidy (finalizeBatch codec copy batch now db blobs).1 := by
  have own := valid.owned batch copy found
  have running := shouldFinalize_status due
  have unpurged : copy.purgedAt = none := by
    refine Classical.not_not.mp fun purged => ?_
    have ended := own.purged purged
    rw [running] at ended
    cases ended
  have self : (finalizeBatch codec copy batch now db blobs).1.batches[batch]? =
      some (Batch.finish db.files.length (errorFile db.files.length (rowsOf db batch)) now copy) :=
    Rows.getElem?_modify_self found _
  have other : ∀ i, batch ≠ i → (finalizeBatch codec copy batch now db blobs).1.batches[i]? = db.batches[i]? :=
    fun i different => Rows.getElem?_modify_other different _
  refine tidy_grown valid (fun _ _ there => finalized_kept there) (fun i b there => ?_) (fun i old f was refers => ?_)
    fun f row there _ => ?_
  · by_cases mine : batch = i
    · subst mine
      rw [self] at there
      cases there
      refine .inr ⟨own.input.kept fun _ => finalized_kept,fun f refers => ?_,fun _ => finalized_errors,
        fun _ _ => ⟨rfl,unpurged⟩,fun purged => ?_⟩
      · cases refers
        exact finalized_output
      · exact absurd unpurged purged
    · exact .inl ⟨b,(other i mine).symm.trans there,.refl b⟩
  · by_cases mine : batch = i
    · subst mine
      rw [found] at was
      cases was
      exact absurd refers (own.unfinished running)
    · exact ⟨old,(other i mine).trans was,rfl,refers⟩
  · rcases finalized_added there with old | ⟨mine,output | errors⟩
    · exact .inl old
    · exact .inr ⟨batch,_,self,mine.symm,.inl (congrArg some output.symm)⟩
    · exact .inr ⟨batch,_,self,mine.symm,.inr errors⟩

theorem deleted_some {f : FileId} {file : Option FileId} {row : FileObject}
    (there : (Retention.deleteFile file files)[f]? = some (some row)) : files[f]? = some (some row) ∧ file ≠ some f := by
  by_cases same : file = some f
  · subst same
    simp only [Retention.deleteFile,List.getElem?_modify] at there
    obtain ⟨old,_,none⟩ := Option.map_eq_some_iff.mp there
    simp at none
  · exact ⟨(deleted_other same files).symm.trans there,same⟩

-- Result files carry the name of their batch, so two batches share none.
theorem refers_named {i : BatchId} {b : Batch} {f : FileId} (filed : Filed codec db blobs) (there : db.batches[i]? = some b)
    (refers : refersTo b f) : ∃ row, db.files[f]? = some (some row) ∧ (row.filename = .output i ∨ row.filename = .errors i) := by
  rcases refers with output | errors
  · obtain ⟨row,here,name⟩ := (filed.named i b there).output f output
    exact ⟨row,here,.inl name⟩
  · obtain ⟨row,here,name⟩ := (filed.named i b there).errors f errors
    exact ⟨row,here,.inr name⟩

theorem refers_apart {i j : BatchId} {b c : Batch} {f : FileId} (filed : Filed codec db blobs)
    (left : db.batches[i]? = some b) (right : db.batches[j]? = some c) (different : i ≠ j) (refers : refersTo b f) :
    ¬ refersTo c f := by
  intro again
  obtain ⟨row,here,name⟩ := refers_named filed left refers
  obtain ⟨twin,same,other⟩ := refers_named filed right again
  rw [here] at same
  cases same
  rcases name with name | name <;> rcases other with other | other <;> rw [name] at other <;> cases other <;>
    exact different rfl

-- An upload is no result file.
theorem Owned.upload_apart {b : Batch} {user : UserId} {f : FileId} (own : Owned files b)
    (upload : Holds files user .batchInput f) : ¬ refersTo b f := by
  obtain ⟨row,there,_,purpose⟩ := upload
  rintro (output | errors)
  · obtain ⟨again,same,_,result⟩ := own.output f output
    rw [there] at same
    cases same
    rw [purpose] at result
    cases result
  · obtain ⟨again,same,_,result⟩ := own.errors f errors
    rw [there] at same
    cases same
    rw [purpose] at result
    cases result

-- The files of one batch go, and its references with them.
theorem tidy_purged {copy : Batch} {batch : BatchId} (valid : Tidy db) (filed : Filed codec db blobs)
    (found : db.batches[batch]? = some copy) (ended : cancellable copy.status = false) (now : Instant) :
    Tidy (Retention.purgeBatch now (copy,batch) db blobs).1 := by
  have own := valid.owned batch copy found
  have files : (Retention.purgeBatch now (copy,batch) db blobs).1.files =
      Retention.deleteFile copy.errorFileId (Retention.deleteFile copy.outputFileId db.files) := rfl
  have survives : ∀ (f : FileId), ¬ refersTo copy f →
      (Retention.purgeBatch now (copy,batch) db blobs).1.files[f]? = db.files[f]? := by
    intro f apart
    rw [files,deleted_other (fun same => apart (.inr same)),deleted_other (fun same => apart (.inl same))]
  have self : (Retention.purgeBatch now (copy,batch) db blobs).1.batches[batch]? =
      some (Retention.Batch.purge now copy) := Rows.getElem?_modify_self found _
  have other : ∀ i, batch ≠ i → (Retention.purgeBatch now (copy,batch) db blobs).1.batches[i]? = db.batches[i]? :=
    fun i different => Rows.getElem?_modify_other different _
  have input : ∀ {user f}, Holds db.files user .batchInput f →
      Holds (Retention.purgeBatch now (copy,batch) db blobs).1.files user .batchInput f := by
    rintro user f upload
    have apart := own.upload_apart upload
    obtain ⟨row,there,mine,purpose⟩ := upload
    exact ⟨row,(survives f apart).trans there,mine,purpose⟩
  refine ⟨fun i b there => ?_,fun f row there result => ?_⟩
  · by_cases mine : batch = i
    · subst mine
      rw [self] at there
      cases there
      refine ⟨input own.input,fun f refers => ?_,fun f refers => ?_,fun f refers => ?_,fun _ => ended⟩
      · cases refers
      · cases refers
      · rcases refers with refers | refers <;> cases refers
    · rw [other i mine] at there
      have was := valid.owned i b there
      have kept : ∀ f, refersTo b f → ∀ row, db.files[f]? = some (some row) →
          (Retention.purgeBatch now (copy,batch) db blobs).1.files[f]? = some (some row) :=
        fun f refers row here => (survives f (refers_apart filed there found (Ne.symm mine) refers)).trans here
      exact ⟨input was.input,fun f refers => (was.output f refers).kept (kept f (.inl refers)),
        fun f refers => (was.errors f refers).kept (kept f (.inr refers)),was.finished,was.purged⟩
  · obtain ⟨there,noError⟩ := deleted_some (files ▸ there)
    obtain ⟨there,noOutput⟩ := deleted_some there
    obtain ⟨i,b,here,mine,refers⟩ := valid.results f row there result
    have different : batch ≠ i := by
      rintro rfl
      rw [found] at here
      cases here
      rcases refers with output | errors
      · exact noOutput output
      · exact noError errors
    exact ⟨i,b,(other i different).trans here,mine,refers⟩

theorem purgeDue_ended {retentionDays : Int} {now : Instant} {b : Batch}
    (due : Retention.purgeDue retentionDays now b = true) : cancellable b.status = false := by
  unfold Retention.purgeDue Retention.terminalTimestamp at due
  cases status : b.status <;> simp [status,cancellable] at due ⊢

theorem tidy_purgedAll {rows : List (Batch × BatchId)} (valid : Tidy db) (filed : Filed codec db blobs)
    (found : ∀ row ∈ rows, db.batches[row.2]? = some row.1 ∧ cancellable row.1.status = false)
    (distinct : (rows.map Prod.snd).Nodup) (now : Instant) : Tidy (Retention.purgeAll now rows db blobs).1 := by
  induction rows generalizing db blobs with
  | nil => exact valid
  | cons row rows ih =>
    obtain ⟨here,ended⟩ := found row List.mem_cons_self
    refine ih (tidy_purged valid filed here ended now) (filed_purged filed here now) (fun next member => ?_)
      (List.nodup_cons.mp distinct).2
    obtain ⟨there,closed⟩ := found next (List.mem_cons_of_mem _ member)
    exact ⟨Retention.purgeBatch_read blobs distinct member there,closed⟩

theorem tidy_finalizeAfter (valid : Tidy db) (task : TaskId) (now : Instant) :
    Tidy (finalizeAfter codec task now db blobs).1 := by
  rcases finalizeAfter_parts codec task now db blobs with same | ⟨t,copy,_,found,due,same⟩
  · rw [same]
    exact valid
  · rw [same]
    exact tidy_finalized valid found due now

theorem steady_terminate {terminal : BatchStatus} {b : Batch} (open_ : cancellable b.status = true)
    (kind : terminal = .cancelled ∨ terminal = .expired) (now : Instant) :
    Steady b (Batch.terminate terminal now b) := by
  have ended : ∀ status, cancellable b.status = false → status = b.status := by
    intro status ended
    rw [open_] at ended
    cases ended
  rcases kind with rfl | rfl
  · exact ⟨rfl,rfl,rfl,ended _⟩
  · exact ⟨rfl,rfl,rfl,ended _⟩

theorem tidy_terminated {batch : BatchId} {b : Batch} {user : UserId} {terminal : BatchStatus} {note : String}
    {now : Instant} (valid : Tidy db) (found : db.batches[batch]? = some b) (open_ : cancellable b.status = true)
    (kind : terminal = .cancelled ∨ terminal = .expired)
    (done : terminateBatch user batch terminal note now db = .ok after) : Tidy after := by
  have steady : ∀ row, db.batches[batch]? = some row → Steady row (Batch.terminate terminal now row) := by
    intro row there
    rw [found] at there
    cases there
    exact steady_terminate open_ kind now
  rcases terminateSelected_parts done with ⟨_,rfl⟩ | ⟨_,_,_,_,_,rfl⟩
  · exact tidy_modified valid rfl rfl steady
  · exact tidy_modified valid rfl rfl steady

-- A submission must name a file its own user uploaded.
def Sound (files : List (Option FileObject)) : Operation → Prop
  | .createBatch user inputFile _ _ _ _ => Holds files user .batchInput inputFile
  | _ => True

theorem step_tidy (valid : Tidy s.db) (filed : Filed codec s.db s.blobs) (sound : Sound s.db.files op)
    (step : Step codec alpha s op t) : Tidy t.db := by
  cases op with
  | grant =>
    obtain ⟨_,rfl⟩ := grant_posts step
    exact ⟨valid.owned,valid.results⟩
  | uploadFile user name data now =>
    cases step
    have kept : ∀ (f : FileId) row, s.db.files[f]? = some (some row) →
        (s.db.files ++ [some ⟨user,.batchInput,.upload name,data.length,now⟩])[f]? = some (some row) :=
      fun f row found => (List.getElem?_append_left (file_inside found)).trans found
    refine tidy_grown valid kept (fun i b found => .inl ⟨b,found,.refl b⟩) (fun i old f was refers => ⟨old,was,rfl,refers⟩)
      fun f row found result => .inl ?_
    change (s.db.files ++ [some _])[f]? = some (some row) at found
    rcases Nat.lt_or_ge f s.db.files.length with below | above
    · rwa [List.getElem?_append_left below] at found
    · rw [List.getElem?_append_right above] at found
      cases List.mem_singleton.mp (List.mem_of_getElem? found)
      exact absurd rfl result
  | createBatch user inputFile endpoint window lines now =>
    obtain ⟨db,created,rfl⟩ := create_step step
    obtain ⟨_,_,_,_,_,rfl⟩ := createBatch_parts created
    refine tidy_grown valid (fun _ _ found => found) (fun i b found => ?_) (fun i old f was refers => ?_)
      fun _ _ found _ => .inl found
    · change (s.db.batches ++ [newBatch user inputFile endpoint window lines now])[i]? = some b at found
      rcases Nat.lt_or_ge i s.db.batches.length with below | above
      · rw [List.getElem?_append_left below] at found
        exact .inl ⟨b,found,.refl b⟩
      · rw [List.getElem?_append_right above] at found
        cases List.mem_singleton.mp (List.mem_of_getElem? found)
        refine .inr ⟨sound,fun f refers => ?_,fun f refers => ?_,fun f refers => ?_,fun purged => ?_⟩
        · cases refers
        · cases refers
        · rcases refers with refers | refers <;> cases refers
        · exact absurd rfl purged
    · exact ⟨old,(List.getElem?_append_left (List.getElem?_eq_some_iff.mp was).choose).trans was,rfl,refers⟩
  | completeTask task responseBody promptTokens completionTokens now =>
    obtain ⟨_,db,committed,rfl⟩ := complete_step step
    obtain ⟨_,_,_,_,_,_,_,_,_,_,_,rfl⟩ := commitCompleted_parts committed
    refine tidy_finalizeAfter ?_ task now
    exact tidy_modified (g := Batch.countCompleted) valid rfl rfl fun b _ => ⟨rfl,rfl,rfl,fun _ => rfl⟩
  | failTask task error now =>
    obtain ⟨_,db,committed,rfl⟩ := fail_step step
    obtain ⟨_,_,_,_,⟨_,rfl⟩ | ⟨_,_,_,_,_,rfl⟩⟩ := commitFailed_parts committed
    · refine tidy_finalizeAfter ?_ task now
      exact tidy_modified (g := Batch.countFailed) valid rfl rfl fun b _ => ⟨rfl,rfl,rfl,fun _ => rfl⟩
    · refine tidy_finalizeAfter ?_ task now
      exact tidy_modified (g := Batch.countFailed) valid rfl rfl fun b _ => ⟨rfl,rfl,rfl,fun _ => rfl⟩
  | cancelBatch =>
    obtain ⟨b,db,found,_,open_,done,rfl⟩ := cancel_step step
    exact tidy_terminated valid found open_ (.inl rfl) done
  | expireBatch =>
    obtain ⟨b,db,found,open_,done,rfl⟩ := expire_step step
    exact tidy_terminated valid found open_ (.inr rfl) done
  | purgeExpiredResults retentionDays now =>
    cases step
    refine tidy_purgedAll valid filed (fun row member => ?_) (Rows.selected_distinct _ _) now
    obtain ⟨listed,due⟩ := List.mem_filter.mp member
    exact ⟨List.mk_mem_zipIdx_iff_getElem?.mp listed,purgeDue_ended due⟩
  | claimAndAssign => cases step; exact ⟨valid.owned,valid.results⟩
  | applyHealthResults => cases step; exact ⟨valid.owned,valid.results⟩
  | startup => cases step; exact ⟨valid.owned,valid.results⟩

-- A file row that a purge leaves keeps its content.
theorem purged_kept {now : Instant} {rows : List (Batch × BatchId)} {f : FileId} {row : FileObject}
    (there : (Retention.purgeAll now rows db blobs).1.files[f]? = some (some row)) :
    db.files[f]? = some (some row) ∧ (Retention.purgeAll now rows db blobs).2 f = blobs f := by
  induction rows generalizing db blobs with
  | nil => exact ⟨there,rfl⟩
  | cons first rows ih =>
    obtain ⟨here,content⟩ := ih there
    obtain ⟨here,noError⟩ := deleted_some here
    obtain ⟨here,noOutput⟩ := deleted_some here
    refine ⟨here,content.trans ?_⟩
    exact (unlinked_other noError _ _).trans (unlinked_other noOutput _ _)

theorem finalized_upload {task : TaskId} {now : Instant} {f : FileId} {row : FileObject}
    (there : (finalizeAfter codec task now db blobs).1.files[f]? = some (some row)) (upload : row.purpose = .batchInput) :
    db.files[f]? = some (some row) ∧ (finalizeAfter codec task now db blobs).2 f = blobs f := by
  rcases finalizeAfter_parts codec task now db blobs with same | ⟨t,copy,_,_,_,same⟩
  · rw [same] at there ⊢
    exact ⟨there,rfl⟩
  · rw [same] at there ⊢
    change (db.files ++ resultFiles codec copy.userId t.batchId now (rowsOf db t.batchId))[f]? = some (some row) at there
    rcases Nat.lt_or_ge f db.files.length with below | above
    · rw [List.getElem?_append_left below] at there
      exact ⟨there,blobs_below _ _ _ f below⟩
    · rw [List.getElem?_append_right above] at there
      have added := List.mem_of_getElem? there
      unfold resultFiles at added
      rcases List.mem_cons.mp added with same | errors
      · cases same
        cases upload
      · split at errors
        · cases errors
        · cases List.mem_singleton.mp errors
          cases upload

-- An uploaded file that can be seen is the one its user uploaded, byte for byte.
theorem step_uploads (step : Step codec alpha s op t) {f : FileId} {row : FileObject}
    (there : t.db.files[f]? = some (some row)) (upload : row.purpose = .batchInput) :
    (s.db.files[f]? = some (some row) ∧ t.blobs f = s.blobs f) ∨
    ∃ name data, op = .uploadFile row.userId name data row.createdAt ∧ t.blobs f = some data := by
  cases op with
  | grant =>
    obtain ⟨_,rfl⟩ := grant_posts step
    exact .inl ⟨there,rfl⟩
  | uploadFile user name data now =>
    cases step
    change (s.db.files ++ [some _])[f]? = some (some row) at there
    rcases Nat.lt_or_ge f s.db.files.length with below | above
    · rw [List.getElem?_append_left below] at there
      exact .inl ⟨there,Function.update_of_ne (Nat.ne_of_lt below) _ _⟩
    · rw [List.getElem?_append_right above] at there
      have inside := (List.getElem?_eq_some_iff.mp there).choose
      have place : f = s.db.files.length := Nat.le_antisymm (Nat.sub_eq_zero_iff_le.mp (by simpa using inside)) above
      cases List.mem_singleton.mp (List.mem_of_getElem? there)
      subst place
      exact .inr ⟨name,data,rfl,Function.update_self ..⟩
  | createBatch user inputFile endpoint window lines now =>
    obtain ⟨db,created,rfl⟩ := create_step step
    obtain ⟨_,_,_,_,_,rfl⟩ := createBatch_parts created
    exact .inl ⟨there,rfl⟩
  | completeTask task responseBody promptTokens completionTokens now =>
    obtain ⟨_,db,committed,rfl⟩ := complete_step step
    obtain ⟨_,_,_,_,_,_,_,_,_,_,_,rfl⟩ := commitCompleted_parts committed
    exact .inl (finalized_upload there upload)
  | failTask task error now =>
    obtain ⟨_,db,committed,rfl⟩ := fail_step step
    obtain ⟨_,_,_,_,⟨_,rfl⟩ | ⟨_,_,_,_,_,rfl⟩⟩ := commitFailed_parts committed
    · exact .inl (finalized_upload there upload)
    · exact .inl (finalized_upload there upload)
  | cancelBatch =>
    obtain ⟨b,db,_,_,_,done,rfl⟩ := cancel_step step
    rcases terminateSelected_parts done with ⟨_,rfl⟩ | ⟨_,_,_,_,_,rfl⟩
    · exact .inl ⟨there,rfl⟩
    · exact .inl ⟨there,rfl⟩
  | expireBatch =>
    obtain ⟨b,db,_,_,done,rfl⟩ := expire_step step
    rcases terminateSelected_parts done with ⟨_,rfl⟩ | ⟨_,_,_,_,_,rfl⟩
    · exact .inl ⟨there,rfl⟩
    · exact .inl ⟨there,rfl⟩
  | purgeExpiredResults retentionDays now =>
    cases step
    exact .inl (purged_kept there)
  | claimAndAssign => cases step; exact .inl ⟨there,rfl⟩
  | applyHealthResults => cases step; exact .inl ⟨there,rfl⟩
  | startup => cases step; exact .inl ⟨there,rfl⟩

end BatchGateway.FileOwnership
