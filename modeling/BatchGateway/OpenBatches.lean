import BatchGateway.ResultFiles

-- Batches that are still open.
namespace BatchGateway.OpenBatches
open PythonText PythonJson BatchOps Service LabelledRuns Counters ResultFiles

variable {codec : Codec} {alpha : ℚ} {s t : Service} {op : Operation} {db after : Db} {blobs : Blobs}

def nameOf : FileName → Option BatchId
  | .upload _ => none
  | .output batch => some batch
  | .errors batch => some batch

def Closed (db : Db) (i : BatchId) : Prop := ∃ b, db.batches[i]? = some b ∧ b.status ≠ .inProgress

-- An open batch waits for a task and has no result file yet.
structure Unfinished (db : Db) : Prop where
  short : ∀ (i : BatchId) b, db.batches[i]? = some b → b.status = .inProgress →
    b.requestCompleted + b.requestFailed < b.requestTotal
  unnamed : ∀ row, some row ∈ db.files → ∀ i, nameOf row.filename = some i → Closed db i

theorem closed_modify {i batch : BatchId} {g : Batch → Batch} (valid : Closed db i)
    (batches : after.batches = db.batches.modify batch g)
    (closed : ∀ b, (g b).status = .inProgress → b.status = .inProgress) : Closed after i := by
  obtain ⟨b,was,closed_⟩ := valid
  rw [Closed,batches,List.getElem?_modify,was]
  refine ⟨_,rfl,fun open_ => closed_ ?_⟩
  split at open_
  · exact closed b open_
  · exact open_

-- Batch rows with the same counters and states, and no more result files.
theorem unfinished_same (valid : Unfinished db) (batches : after.batches.map rowColumns = db.batches.map rowColumns)
    (files : ∀ row, some row ∈ after.files → some row ∈ db.files ∨ nameOf row.filename = none) : Unfinished after := by
  have back : ∀ (i : BatchId) b, after.batches[i]? = some b → ∃ old, db.batches[i]? = some old ∧ rowColumns old = rowColumns b := by
    intro i b found
    have listed : (after.batches.map rowColumns)[i]? = some (rowColumns b) := by simp [found]
    rw [batches,List.getElem?_map] at listed
    exact Option.map_eq_some_iff.mp listed
  have forth : ∀ i, Closed db i → Closed after i := by
    rintro i ⟨old,was,closed⟩
    have listed : (db.batches.map rowColumns)[i]? = some (rowColumns old) := by simp [was]
    rw [← batches,List.getElem?_map] at listed
    obtain ⟨b,found,same⟩ := Option.map_eq_some_iff.mp listed
    exact ⟨b,found,by rw [show b.status = old.status from congrArg Prod.snd same]; exact closed⟩
  refine ⟨fun i b found open_ => ?_,fun row member i named => ?_⟩
  · obtain ⟨old,was,same⟩ := back i b found
    have before := valid.short i old was ((congrArg Prod.snd same).trans open_)
    have columns := congrArg Prod.fst same
    simp only [rowColumns,counters,Prod.mk.injEq] at columns
    omega
  · rcases files row member with old | none_
    · exact forth i (valid.unnamed row old i named)
    · rw [none_] at named
      cases named

-- A batch that is closed with its files, when every other open batch was short already.
theorem unfinished_finished {copy : Batch} {batch : BatchId} {now : Instant} (owned : db.batches[batch]? = some copy)
    (others : ∀ (i : BatchId) b, batch ≠ i → db.batches[i]? = some b → b.status = .inProgress →
      b.requestCompleted + b.requestFailed < b.requestTotal)
    (unnamed : ∀ row, some row ∈ db.files → ∀ i, nameOf row.filename = some i → Closed db i) :
    Unfinished (finalizeBatch codec copy batch now db blobs).1 := by
  have rows : (finalizeBatch codec copy batch now db blobs).1.batches = db.batches.modify batch
      (Batch.finish db.files.length (errorFile db.files.length (rowsOf db batch)) now) := rfl
  have final : ∀ b : Batch, (Batch.finish db.files.length (errorFile db.files.length (rowsOf db batch)) now b).status =
      .completed := fun _ => rfl
  refine ⟨fun i b found open_ => ?_,fun row member i mine => ?_⟩
  · rw [rows] at found
    by_cases same : batch = i
    · subst same
      rw [Rows.getElem?_modify_self owned] at found
      cases found
      cases open_
    · rw [Rows.getElem?_modify_other same] at found
      exact others i b same found open_
  · have listed : some row ∈ db.files ++ resultFiles codec copy.userId batch now (rowsOf db batch) := member
    rcases List.mem_append.mp listed with old | new
    · refine closed_modify (unnamed row old i mine) rows ?_
      intro b open_
      cases open_
    · have mine : i = batch := by
        rw [resultFiles] at new
        rcases List.mem_cons.mp new with first | second
        · cases first
          cases mine
          rfl
        · split at second
          · cases second
          · cases List.mem_singleton.mp second
            cases mine
            rfl
      subst mine
      rw [Closed,rows,Rows.getElem?_modify_self owned]
      exact ⟨_,rfl,by rw [final]; simp⟩

theorem unfinished_settled {task : TaskId} {now : Instant} {mid : Db} (batch : BatchId) {g : Batch → Batch}
    (valid : Unfinished db) (files : mid.files = db.files) (batches : mid.batches = db.batches.modify batch g)
    (closed : ∀ b, (g b).status = .inProgress → b.status = .inProgress)
    (owner : ∀ t, mid.tasks[task]? = some t → t.batchId = batch) (settles : ∃ t, mid.tasks[task]? = some t) :
    Unfinished (finalizeAfter codec task now mid blobs).1 := by
  obtain ⟨t,there⟩ := settles
  have named := owner t there
  have others : ∀ (i : BatchId) b, batch ≠ i → mid.batches[i]? = some b → b.status = .inProgress →
      b.requestCompleted + b.requestFailed < b.requestTotal := by
    intro i b other found open_
    rw [batches,Rows.getElem?_modify_other other] at found
    exact valid.short i b found open_
  have unnamed : ∀ row, some row ∈ mid.files → ∀ i, nameOf row.filename = some i → Closed mid i :=
    fun row member i named => closed_modify (valid.unnamed row (files ▸ member) i named) batches closed
  cases owned : mid.batches[batch]? with
  | none =>
    have whole : finalizeAfter codec task now mid blobs = (mid,blobs) := by
      simp [finalizeAfter,there,maybeFinalizeBatch,named,owned]
    rw [whole]
    refine ⟨fun i b found open_ => others i b ?_ found open_,unnamed⟩
    rintro rfl
    rw [owned] at found
    cases found
  | some copy =>
    cases due : shouldFinalize copy with
    | false =>
      have whole : finalizeAfter codec task now mid blobs = (mid,blobs) := by
        simp [finalizeAfter,there,maybeFinalizeBatch,named,owned,due]
      rw [whole]
      refine ⟨fun i b found open_ => ?_,unnamed⟩
      by_cases mine : batch = i
      · subst mine
        rw [owned] at found
        cases found
        simp only [shouldFinalize,open_,beq_self_eq_true,Bool.true_and,decide_eq_false_iff_not] at due
        omega
      · exact others i b mine found open_
    | true =>
      have whole : finalizeAfter codec task now mid blobs = finalizeBatch codec copy batch now mid blobs := by
        simp [finalizeAfter,there,maybeFinalizeBatch,named,owned,due]
      rw [whole]
      exact unfinished_finished owned others unnamed

theorem purged_files (now : Instant) (rows : List (Batch × BatchId)) (db : Db) (blobs : Blobs) (row : FileObject)
    (member : some row ∈ (Retention.purgeAll now rows db blobs).1.files) : some row ∈ db.files := by
  have deleted : ∀ (file : Option FileId) (files : List (Option FileObject)),
      some row ∈ Retention.deleteFile file files → some row ∈ files := by
    intro file files listed
    cases file with
    | none => exact listed
    | some f =>
      rcases Rows.mem_modify listed with old | ⟨_,_,gone⟩
      · exact old
      · cases gone
  induction rows generalizing db blobs with
  | nil => exact member
  | cons first rows ih => exact deleted _ _ (deleted _ _ (ih _ _ member))

theorem unfinished_terminated {batch : BatchId} {user : UserId} {terminal : BatchStatus} {note : String} {now : Instant}
    (valid : Unfinished db) (kind : terminal = .cancelled ∨ terminal = .expired)
    (done : terminateBatch user batch terminal note now db = .ok after) : Unfinished after := by
  have closed : ∀ b, (Batch.terminate terminal now b).status ≠ .inProgress := by
    intro b
    rcases kind with rfl | rfl <;> simp [Batch.terminate]
  have rows : after.batches = db.batches.modify batch (Batch.terminate terminal now) ∧ after.files = db.files := by
    rcases terminateSelected_parts done with ⟨_,rfl⟩ | ⟨_,_,_,_,_,rfl⟩
    · exact ⟨rfl,rfl⟩
    · exact ⟨rfl,rfl⟩
  refine ⟨fun i b found open_ => ?_,fun row member i named => ?_⟩
  · rw [rows.1] at found
    by_cases mine : batch = i
    · rw [List.getElem?_modify] at found
      obtain ⟨old,_,rfl⟩ := Option.map_eq_some_iff.mp found
      simp only [mine,if_true] at open_
      exact absurd open_ (closed old)
    · rw [Rows.getElem?_modify_other mine] at found
      exact valid.short i b found open_
  · rw [rows.2] at member
    exact closed_modify (valid.unnamed row member i named) rows.1 fun b open_ => absurd open_ (closed b)

theorem step_unfinished (valid : Unfinished s.db) (step : Step codec alpha s op t) :
    Unfinished t.db := by
  cases op with
  | grant =>
    obtain ⟨_,rfl⟩ := grant_posts step
    exact unfinished_same valid rfl fun _ member => .inl member
  | uploadFile user name data now =>
    cases step
    refine unfinished_same valid rfl fun row member => ?_
    rcases List.mem_append.mp member with old | new
    · exact .inl old
    · cases List.mem_singleton.mp new
      exact .inr rfl
  | createBatch user inputFile endpoint window lines now =>
    obtain ⟨db,created,rfl⟩ := create_step step
    obtain ⟨_,positive,_,_,_,rfl⟩ := createBatch_parts created
    refine ⟨fun i b found open_ => ?_,fun row member i named => ?_⟩
    · have row : (s.db.batches ++ [newBatch user inputFile endpoint window lines now])[i]? = some b := found
      rcases Nat.lt_or_ge i s.db.batches.length with inside | outside
      · rw [List.getElem?_append_left inside] at row
        exact valid.short i b row open_
      · rw [List.getElem?_append_right outside] at row
        rw [List.mem_singleton.mp (List.mem_of_getElem? row)]
        exact List.length_pos_iff.mpr (created_lines positive)
    · obtain ⟨b,was,closed⟩ := valid.unnamed row member i named
      refine ⟨b,?_,closed⟩
      change (s.db.batches ++ [newBatch user inputFile endpoint window lines now])[i]? = some b
      rw [List.getElem?_append_left (List.getElem?_eq_some_iff.mp was).choose,was]
  | completeTask task responseBody promptTokens completionTokens now =>
    obtain ⟨flying,db,committed,rfl⟩ := complete_step step
    obtain ⟨u,_,_,_,_,found,_,_,_,_,_,rfl⟩ := commitCompleted_parts committed
    have row : (s.db.tasks.modify task (Task.complete responseBody promptTokens completionTokens now))[task]? =
        some (Task.complete responseBody promptTokens completionTokens now u) := Rows.getElem?_modify_self found _
    refine unfinished_settled u.batchId (g := Batch.countCompleted) valid rfl rfl (fun _ open_ => open_)
      (fun v there => ?_) ⟨_,row⟩
    cases row.symm.trans there
    rfl
  | failTask task error now =>
    obtain ⟨flying,db,committed,rfl⟩ := fail_step step
    obtain ⟨u,b,found,_,parts⟩ := commitFailed_parts committed
    have row : (s.db.tasks.modify task (Task.fail error now))[task]? = some (Task.fail error now u) :=
      Rows.getElem?_modify_self found _
    rcases parts with ⟨_,rfl⟩ | ⟨_,_,_,_,_,rfl⟩
    · refine unfinished_settled u.batchId (g := Batch.countFailed) valid rfl rfl (fun _ open_ => open_)
        (fun v there => ?_) ⟨_,row⟩
      cases row.symm.trans there
      rfl
    · refine unfinished_settled u.batchId (g := Batch.countFailed) valid rfl rfl (fun _ open_ => open_)
        (fun v there => ?_) ⟨_,row⟩
      cases row.symm.trans there
      rfl
  | cancelBatch =>
    obtain ⟨b,db,_,_,_,done,rfl⟩ := cancel_step step
    exact unfinished_terminated valid (.inl rfl) done
  | expireBatch =>
    obtain ⟨b,db,_,_,done,rfl⟩ := expire_step step
    exact unfinished_terminated valid (.inr rfl) done
  | purgeExpiredResults retentionDays now =>
    cases step
    exact unfinished_same valid (Retention.purgeAll_column rowColumns now (fun _ => rfl) _ s.db s.blobs)
      fun row member => .inl (purged_files now _ s.db s.blobs row member)
  | claimAndAssign => cases step; exact unfinished_same valid rfl fun _ member => .inl member
  | applyHealthResults => cases step; exact unfinished_same valid rfl fun _ member => .inl member
  | startup => cases step; exact unfinished_same valid rfl fun _ member => .inl member

theorem initial_unfinished : Unfinished ({} : Db) := by
  refine ⟨?_,?_⟩
  · intro i b found
    cases found
  · intro row member
    cases member

theorem run_unfinished {operations : List Operation} (path : Run (Step codec alpha) {} operations s) : Unfinished s.db :=
  path.preserves (I := fun s => Unfinished s.db) initial_unfinished fun _ _ _ => step_unfinished

end BatchGateway.OpenBatches
