import BatchGateway.Lifecycle

-- How long a file that could once be downloaded still can.
namespace BatchGateway.DurableFiles
open PythonText PythonJson BatchOps Service LabelledRuns Counters ResultFiles FileOwnership ResultPurge RowMoves Routes

-- What one operation can do to a file that was there before it.
inductive FileMove (s : Service) (op : Service.Operation) (f : FileId) (t : Service) : Prop where
  | kept : t.db.files[f]? = s.db.files[f]? → t.blobs f = s.blobs f → FileMove s op f t
  | purged {retentionDays : Int} {now : Instant} : op = .purgeExpiredResults retentionDays now →
    DueResult retentionDays now s.db f → t.db.files[f]? = some none → t.blobs f = none → FileMove s op f t

variable {codec : Codec} {alpha : ℚ} {defaultMaxTokens : Int} {s t : Service} {op : Service.Operation} {db : Db} {blobs : Blobs}
  {f : FileId}

theorem settled_move {task : TaskId} {now : Instant} {flights : List TaskId} (files : db.files = s.db.files)
    (inside : f < s.db.files.length) :
    FileMove s op f ⟨(finalizeAfter codec task now db s.blobs).1,(finalizeAfter codec task now db s.blobs).2,flights⟩ := by
  rcases finalizeAfter_parts codec task now db s.blobs with same | ⟨row,copy,_,_,_,same⟩
  · rw [same]
    exact .kept (congrArg (fun l => l[f]?) files) rfl
  · rw [same]
    rw [← files] at inside
    refine .kept ?_ (blobs_below _ _ _ f inside)
    exact (List.getElem?_append_left inside).trans (congrArg (fun l => l[f]?) files)

-- A slot whose row is deleted.
def cleared (slot : Option (Option FileObject)) : Option (Option FileObject) := slot.map (fun _ => none)

theorem cleared_twice (slot : Option (Option FileObject)) : cleared (cleared slot) = cleared slot := by
  cases slot with
  | none => rfl
  | some row => rfl

theorem deleteFile_at (file : Option FileId) (files : List (Option FileObject)) :
    (Retention.deleteFile file files)[f]? = if file = some f then cleared files[f]? else files[f]? := by
  by_cases same : file = some f
  · subst same
    rw [if_pos rfl]
    cases found : files[f]? with
    | none => simp [Retention.deleteFile,cleared,found]
    | some row => exact Rows.getElem?_modify_self found _
  · rw [if_neg same,deleted_other same]

theorem purgeBatch_at (now : Instant) (row : Batch × BatchId) (db : Db) (blobs : Blobs) :
    (Retention.purgeBatch now row db blobs).1.files[f]? =
      if refersTo row.1 f then cleared db.files[f]? else db.files[f]? := by
  rw [Retention.purgeBatch,deleteFile_at,deleteFile_at]
  by_cases output : row.1.outputFileId = some f
  · by_cases errors : row.1.errorFileId = some f
    · rw [if_pos errors,if_pos output,if_pos (.inl output),cleared_twice]
    · rw [if_neg errors,if_pos output,if_pos (.inl output)]
  · rw [if_neg output]
    exact if_congr ⟨.inr,fun refers => refers.resolve_left output⟩ rfl rfl

theorem purgeAll_at (now : Instant) (rows : List (Batch × BatchId)) (db : Db) (blobs : Blobs) :
    (Retention.purgeAll now rows db blobs).1.files[f]? =
      if ∃ row ∈ rows, refersTo row.1 f then cleared db.files[f]? else db.files[f]? := by
  induction rows generalizing db blobs with
  | nil => simp [Retention.purgeAll]
  | cons row rows ih =>
    rw [Retention.purgeAll,ih,purgeBatch_at]
    simp only [List.exists_mem_cons_iff]
    by_cases here : refersTo row.1 f
    · rw [if_pos here,cleared_twice,ite_self,if_pos (.inl here)]
    · rw [if_neg here]
      exact if_congr (or_iff_right here).symm rfl rfl

theorem file_moves (filed : Filed codec s.db s.blobs) (tidy : Tidy s.db) (step : Service.Step codec alpha s op t)
    (inside : f < s.db.files.length) : FileMove s op f t := by
  cases op with
  | grant =>
    obtain ⟨_,rfl⟩ := grant_posts step
    exact .kept rfl rfl
  | uploadFile user name data now =>
    cases step
    exact .kept (List.getElem?_append_left inside) (Function.update_of_ne (Nat.ne_of_lt inside) _ _)
  | createBatch user inputFile endpoint window lines now =>
    obtain ⟨db,created,rfl⟩ := create_step step
    obtain ⟨_,_,_,_,_,rfl⟩ := createBatch_parts created
    exact .kept rfl rfl
  | completeTask task responseBody promptTokens completionTokens now =>
    obtain ⟨_,db,committed,rfl⟩ := complete_step step
    obtain ⟨_,_,_,_,_,_,_,_,_,_,_,rfl⟩ := commitCompleted_parts committed
    exact settled_move rfl inside
  | failTask task error now =>
    obtain ⟨_,db,committed,rfl⟩ := fail_step step
    obtain ⟨_,_,_,_,⟨_,rfl⟩ | ⟨_,_,_,_,_,rfl⟩⟩ := commitFailed_parts committed
    · exact settled_move rfl inside
    · exact settled_move rfl inside
  | cancelBatch =>
    obtain ⟨b,db,_,_,_,done,rfl⟩ := cancel_step step
    rcases terminateSelected_parts done with ⟨_,rfl⟩ | ⟨_,_,_,_,_,rfl⟩
    · exact .kept rfl rfl
    · exact .kept rfl rfl
  | expireBatch =>
    obtain ⟨b,db,_,_,done,rfl⟩ := expire_step step
    rcases terminateSelected_parts done with ⟨_,rfl⟩ | ⟨_,_,_,_,_,rfl⟩
    · exact .kept rfl rfl
    · exact .kept rfl rfl
  | purgeExpiredResults retentionDays now =>
    cases step
    by_cases due : DueResult retentionDays now s.db f
    · obtain ⟨⟨row,found,_⟩,_⟩ := result_there tidy filed due
      refine .purged rfl due ?_ ?_
      · exact (purgeAll_at now _ s.db s.blobs).trans ((if_pos (dueResult_rows.mp due)).trans (by rw [found]; rfl))
      · exact (purgeAll_blobs (due_listed tidy filed retentionDays now) now f).trans (if_pos (dueResult_rows.mp due))
    · have none := mt dueResult_rows.mpr due
      refine .kept ?_ ?_
      · exact (purgeAll_at now _ s.db s.blobs).trans (if_neg none)
      · exact (purgeAll_blobs (due_listed tidy filed retentionDays now) now f).trans (if_neg none)
  | claimAndAssign => cases step; exact .kept rfl rfl
  | applyHealthResults => cases step; exact .kept rfl rfl
  | startup => cases step; exact .kept rfl rfl

-- A purge has taken the file, with the finished batch it was a result of.
structure Taken (s : Service) (f : FileId) (user : UserId) (retentionDays : Int) (now : Instant) : Prop where
  gone : s.db.files[f]? = some none
  batch : ∃ (i : BatchId) (b : Batch), s.db.batches[i]? = some b ∧ b.userId = user ∧ b.purgedAt = some now ∧
    ∃ completedAt, b.completedAt = some completedAt ∧ completedAt + days retentionDays ≤ now

theorem purged_stays (tidy : Tidy s.db) (step : Service.Step codec alpha s op t) {i : BatchId} {b : Batch}
    (found : s.db.batches[i]? = some b) (purged : b.purgedAt ≠ none) : ∃ next, t.db.batches[i]? = some next ∧
    next.userId = b.userId ∧ next.purgedAt = b.purgedAt ∧ next.completedAt = b.completedAt := by
  have ended := (tidy.owned i b found).purged purged
  obtain ⟨next,there,moved⟩ := batch_moves step found
  refine ⟨next,there,?_⟩
  cases moved with
  | kept => exact ⟨rfl,rfl,rfl⟩
  | counted settles => cases settles <;> exact ⟨rfl,rfl,rfl⟩
  | finished settles _ _ last =>
    have open_ := shouldFinalize_status last
    have same : b.status = .inProgress := by
      cases settles <;> exact open_
    rw [same] at ended
    cases ended
  | stopped _ open_ =>
    rw [open_] at ended
    cases ended
  | purged _ due => exact absurd due.1 purged

-- What a due purge leaves of a file that a batch refers to.
theorem due_taken {retentionDays : Int} {now : Instant} {row : FileObject} (tidy : Tidy s.db)
    (found : s.db.files[f]? = some (some row)) (due : DueResult retentionDays now s.db f)
    (step : Service.Step codec alpha s (.purgeExpiredResults retentionDays now) t) (gone : t.db.files[f]? = some none) :
    row.purpose ≠ .batchInput ∧ Taken t f row.userId retentionDays now := by
  obtain ⟨b,member,ended,refers⟩ := due
  obtain ⟨i,there⟩ := List.mem_iff_getElem?.mp member
  have own := tidy.owned i b there
  have named : b.userId = row.userId ∧ row.purpose ≠ .batchInput := by
    rcases refers with output | errors
    · obtain ⟨same,listed,mine,purpose⟩ := own.output f output
      cases found.symm.trans listed
      exact ⟨mine.symm,by simp [purpose]⟩
    · obtain ⟨same,listed,mine,purpose⟩ := own.errors f errors
      cases found.symm.trans listed
      exact ⟨mine.symm,by simp [purpose]⟩
  refine ⟨named.2,gone,i,Retention.Batch.purge now b,?_,named.1,rfl,?_⟩
  · cases step
    refine (purged_batches retentionDays now s.db s.blobs i).trans ?_
    rw [there,Option.map_some,if_pos ended]
  · obtain ⟨_,completedAt,terminal,kept⟩ := ended
    rw [Retention.terminalTimestamp,(own.finished f refers).1] at terminal
    exact ⟨completedAt,Option.some.inj terminal,kept⟩

-- What has become of a file that was stored with this row and these bytes.
inductive Fate (f : FileId) (row : FileObject) (data : Bytes) (actions : List Action) (s : Service) : Prop where
  | stored : s.db.files[f]? = some (some row) → s.blobs f = some data → Fate f row data actions s
  | taken {retentionDays : Int} {now : Instant} : row.purpose ≠ .batchInput →
    .background (.purgeExpiredResults retentionDays now) ∈ actions → Taken s f row.userId retentionDays now →
    Fate f row data actions s

variable {row : FileObject} {data : Bytes} {before actions : List Action} {action : Action}

theorem taken_stays {user : UserId} {retentionDays : Int} {now : Instant} (valid : TenantIsolation.Isolated codec before s)
    (taken : Taken s f user retentionDays now) (step : Service.Step codec alpha s op t) : Taken t f user retentionDays now := by
  obtain ⟨i,b,found,mine,purged,completed⟩ := taken.batch
  obtain ⟨next,there,owner,same,finished⟩ := purged_stays valid.tidy step found (by rw [purged]; exact Option.some_ne_none now)
  refine ⟨?_,i,next,there,owner.trans mine,same.trans purged,by rwa [finished]⟩
  cases file_moves valid.filed valid.tidy step (List.getElem?_eq_some_iff.mp taken.gone).choose with
  | kept files => exact files.trans taken.gone
  | purged _ _ gone => exact gone

theorem fate_step (valid : TenantIsolation.Isolated codec before s) (fate : Fate f row data actions s)
    (step : Routes.Step codec alpha defaultMaxTokens s action t) : Fate f row data (actions ++ [action]) t := by
  rcases step_performs step with rfl | ⟨op,step,performs⟩
  · cases fate with
    | stored found content => exact .stored found content
    | taken result purged taken => exact .taken result (List.mem_append_left _ purged) taken
  cases fate with
  | stored found content =>
    cases file_moves valid.filed valid.tidy step (file_inside found) with
    | kept files blobs => exact .stored (files.trans found) (blobs.trans content)
    | purged same due gone =>
      subst same
      obtain ⟨result,taken⟩ := due_taken valid.tidy found due step gone
      cases performs with
      | background _ _ => exact .taken result (List.mem_append_right _ (List.mem_singleton.mpr rfl)) taken
  | taken result purged taken => exact .taken result (List.mem_append_left _ purged) (taken_stays valid taken step)

variable (codec defaultMaxTokens) in
-- What its owner and everybody else are answered about a file.
structure Downloads (s : Service) (f : FileId) (row : FileObject) (data : Bytes) : Prop where
  content : ∀ now, handle codec defaultMaxTokens row.userId now (.getFileContent f) s = .ok (s,.content data)
  details : ∀ now, handle codec defaultMaxTokens row.userId now (.getFile f) s = .ok (s,.file f row)

end BatchGateway.DurableFiles
