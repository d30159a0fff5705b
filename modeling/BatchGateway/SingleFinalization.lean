import BatchGateway.JsonText
import BatchGateway.SettlementThreads

namespace BatchGateway.SingleFinalization
open PythonText PythonJson Raising BatchOps Sessions SingleWriter LabelledRuns Records Counters ResultFiles OpenBatches SettlementThreads
open Service (Operation)

-- The thread has passed both tests of _maybe_finalize_batch for the batch.
def finalizes (k : BatchId) : Memory → Bool
  | .settled _ own copy _ => own.batchId == k && shouldFinalize copy
  | .finalized _ own _ _ => own.batchId == k
  | _ => false

-- How many files of this name have been created.
def filesNamed (name : FileName) (db : Db) : Nat := db.files.countP (fun f => f.any (fun row => row.filename == name))

-- What a thread holds agrees with the committed tables.
def Sound (k : BatchId) (s : Service) (thread : Thread) : Memory → Prop
  | .requested op => served k op = true
  | .loaded task own _ _ _ => thread = .worker task ∧ task ∈ s.inFlight ∧
      ∃ t, s.db.tasks[task]? = some t ∧ core own = core t
  | .settled task own _ _ => thread = .worker task ∧ s.db.tasks[task]? = some own ∧ Counters.settled own = true
  | _ => True

-- Nobody is to finalize the batch, and it has no result file.
structure Quiet (k : BatchId) (c : Cut Thread Service Memory) : Prop where
  threads : ∀ thread, finalizes k (c.memory thread) = false
  output : filesNamed (.output k) c.committed.db = 0
  errors : filesNamed (.errors k) c.committed.db = 0

-- One worker is to finalize the batch, or has done so.
structure Elected (k : BatchId) (b : Batch) (task : TaskId) (c : Cut Thread Service Memory) : Prop where
  only : ∀ thread, finalizes k (c.memory thread) = true ↔ thread = .worker task
  stage : (∃ own copy later, c.memory (.worker task) = .settled task own copy later ∧ b.status = .inProgress ∧
      filesNamed (.output k) c.committed.db = 0 ∧ filesNamed (.errors k) c.committed.db = 0) ∨
    (∃ own copy, c.memory (.worker task) = .finalized task own copy (rowsOf c.committed.db k) ∧ b.status = .completed ∧
      (∀ row ∈ c.committed.db.batchTasks k, Counters.settled row.1 = true) ∧
      filesNamed (.output k) c.committed.db = 1 ∧
      filesNamed (.errors k) c.committed.db = if failedRows (rowsOf c.committed.db k) = [] then 0 else 1)

structure Once (k : BatchId) (c : Cut Thread Service Memory) : Prop where
  progress : Progress c.committed.db c.committed.inFlight
  sessions : ∀ thread, Sound k c.committed thread (c.memory thread)
  absent : c.committed.db.batches[k]? = none → Quiet k c
  short : ∀ b, c.committed.db.batches[k]? = some b → b.requestCompleted + b.requestFailed < b.requestTotal →
    b.status = .inProgress ∧ Quiet k c
  done : ∀ b, c.committed.db.batches[k]? = some b → b.requestTotal ≤ b.requestCompleted + b.requestFailed →
    ∃ task, Elected k b task c

variable {codec : Codec} {alpha : ℚ} {k : BatchId} {c d : Cut Thread Service Memory}

-- Whatever the step was, as far as the batch is concerned nothing has happened.
theorem once_frame (valid : Once k c) (progress : Progress d.committed.db d.committed.inFlight)
    (sessions : ∀ thread, Sound k d.committed thread (d.memory thread))
    (row : d.committed.db.batches[k]? = c.committed.db.batches[k]?)
    (output : filesNamed (.output k) d.committed.db = filesNamed (.output k) c.committed.db)
    (errors : filesNamed (.errors k) d.committed.db = filesNamed (.errors k) c.committed.db)
    (tasks : k < c.committed.db.batches.length → (∀ row ∈ c.committed.db.batchTasks k, Counters.settled row.1 = true) →
      d.committed.db.batchTasks k = c.committed.db.batchTasks k)
    (memory : ∀ thread, d.memory thread = c.memory thread ∨
      (finalizes k (d.memory thread) = false ∧ finalizes k (c.memory thread) = false)) : Once k d := by
  have same : ∀ thread, finalizes k (d.memory thread) = finalizes k (c.memory thread) := by
    intro thread
    rcases memory thread with same | ⟨after,before⟩
    · rw [same]
    · rw [after,before]
  have quiet : Quiet k c → Quiet k d := fun before =>
    ⟨fun thread => (same thread).trans (before.threads thread),output.trans before.output,errors.trans before.errors⟩
  refine ⟨progress,sessions,fun gone => quiet (valid.absent (row ▸ gone)),fun b found short => ?_,fun b found reached => ?_⟩
  · obtain ⟨open_,before⟩ := valid.short b (row ▸ found) short
    exact ⟨open_,quiet before⟩
  · obtain ⟨task,elected⟩ := valid.done b (row ▸ found) reached
    have chosen : d.memory (.worker task) = c.memory (.worker task) := by
      rcases memory (.worker task) with same | ⟨_,before⟩
      · exact same
      · rw [(elected.only (.worker task)).mpr rfl] at before
        cases before
    refine ⟨task,fun thread => by rw [same]; exact elected.only thread,?_⟩
    rcases elected.stage with ⟨own,copy,later,held,open_,none_,free⟩ | ⟨own,copy,held,closed,ended,one,some_⟩
    · exact .inl ⟨own,copy,later,chosen.trans held,open_,output.trans none_,errors.trans free⟩
    · have rows := tasks (List.getElem?_eq_some_iff.mp (row ▸ found)).choose ended
      have sorted : rowsOf d.committed.db k = rowsOf c.committed.db k := congrArg byLineIndex rows
      refine .inr ⟨own,copy,?_,closed,by rw [rows]; exact ended,output.trans one,?_⟩
      · rw [sorted]
        exact chosen.trans held
      · rw [errors,sorted]
        exact some_

section Server
variable {s t : Service} {op : Operation}

theorem uploaded_names (db : Db) (user : UserId) (name : Str) (data : Bytes) (now : Instant) (i : BatchId) :
    filesNamed (.output i) {db with files := db.files ++ [some ⟨user,.batchInput,.upload name,data.length,now⟩]} =
      filesNamed (.output i) db ∧
    filesNamed (.errors i) {db with files := db.files ++ [some ⟨user,.batchInput,.upload name,data.length,now⟩]} =
      filesNamed (.errors i) db := by
  constructor
  · simp [filesNamed,List.countP_append]
  · simp [filesNamed,List.countP_append]

theorem terminated_frame {db after : Db} {batch : BatchId} {user : UserId} {terminal : BatchStatus} {note : String}
    {now : Instant} (done : terminateBatch user batch terminal note now db = .ok after) (other : batch ≠ k) :
    after.batches[k]? = db.batches[k]? ∧ after.files = db.files := by
  rcases terminateSelected_parts done with ⟨_,rfl⟩ | ⟨_,_,_,_,_,rfl⟩
  · exact ⟨Rows.getElem?_modify_other other _,rfl⟩
  · exact ⟨Rows.getElem?_modify_other other _,rfl⟩

-- The batch's row under an operation of the server: kept, or just created.
theorem served_row (allowed : served k op = true) (step : Service.Step codec alpha s op t) :
    t.db.batches[k]? = s.db.batches[k]? ∨ (s.db.batches[k]? = none ∧ ∃ b, t.db.batches[k]? = some b ∧
      b.status = .inProgress ∧ b.requestCompleted + b.requestFailed < b.requestTotal) := by
  cases op with
  | grant =>
    obtain ⟨_,rfl⟩ := Service.grant_posts step
    exact .inl rfl
  | createBatch user inputFile endpoint window lines now =>
    obtain ⟨db,created,rfl⟩ := Service.create_step step
    obtain ⟨_,positive,_,_,_,rfl⟩ := createBatch_parts created
    change (s.db.batches ++ [newBatch user inputFile endpoint window lines now])[k]? = _ ∨ _ ∧
      ∃ b, (s.db.batches ++ [newBatch user inputFile endpoint window lines now])[k]? = some b ∧ _
    rcases Nat.lt_trichotomy k s.db.batches.length with inside | same | outside
    · exact .inl (List.getElem?_append_left inside)
    · subst same
      refine .inr ⟨List.getElem?_eq_none le_rfl,newBatch user inputFile endpoint window lines now,?_,rfl,?_⟩
      · rw [List.getElem?_append_right le_rfl,Nat.sub_self]
        rfl
      · exact List.length_pos_iff.mpr (created_lines positive)
    · refine .inl ?_
      rw [List.getElem?_eq_none (Nat.le_of_lt outside),List.getElem?_eq_none]
      rw [List.length_append]
      exact outside
  | cancelBatch =>
    obtain ⟨b,db,_,_,_,done,rfl⟩ := Service.cancel_step step
    exact .inl (terminated_frame done (by simpa [served] using allowed)).1
  | expireBatch =>
    obtain ⟨b,db,_,_,done,rfl⟩ := Service.expire_step step
    exact .inl (terminated_frame done (by simpa [served] using allowed)).1
  | uploadFile => cases step; exact .inl rfl
  | claimAndAssign => cases step; exact .inl rfl
  | applyHealthResults => cases step; exact .inl rfl
  | completeTask => cases allowed
  | failTask => cases allowed
  | purgeExpiredResults => cases allowed
  | startup => cases allowed

theorem served_files (allowed : served k op = true) (step : Service.Step codec alpha s op t) :
    filesNamed (.output k) t.db = filesNamed (.output k) s.db ∧
      filesNamed (.errors k) t.db = filesNamed (.errors k) s.db := by
  have same : ∀ {after : Db}, after.files = s.db.files → filesNamed (.output k) after = filesNamed (.output k) s.db ∧
      filesNamed (.errors k) after = filesNamed (.errors k) s.db := by
    intro after files
    simp only [filesNamed,files,and_self]
  cases op with
  | grant =>
    obtain ⟨_,rfl⟩ := Service.grant_posts step
    exact same rfl
  | createBatch user inputFile endpoint window lines now =>
    obtain ⟨db,created,rfl⟩ := Service.create_step step
    obtain ⟨_,_,_,_,_,rfl⟩ := createBatch_parts created
    exact same rfl
  | cancelBatch =>
    obtain ⟨b,db,_,_,_,done,rfl⟩ := Service.cancel_step step
    exact same (terminated_frame done (by simpa [served] using allowed)).2
  | expireBatch =>
    obtain ⟨b,db,_,_,done,rfl⟩ := Service.expire_step step
    exact same (terminated_frame done (by simpa [served] using allowed)).2
  | uploadFile user name data now => cases step; exact uploaded_names s.db user name data now k
  | claimAndAssign => cases step; exact same rfl
  | applyHealthResults => cases step; exact same rfl
  | completeTask => cases allowed
  | failTask => cases allowed
  | purgeExpiredResults => cases allowed
  | startup => cases allowed

theorem stopped_core {db after : Db} {batch : BatchId} {user : UserId} {terminal : BatchStatus} {note : String}
    {now : Instant} (done : terminateBatch user batch terminal note now db = .ok after) {i : TaskId} {row : Task}
    (found : db.tasks[i]? = some row) : ∃ next, after.tasks[i]? = some next ∧ core next = core row := by
  have tasks : after.tasks = stopTasks ((tasksToStop db batch).map Prod.snd) now db.tasks := by
    rcases terminateSelected_parts done with ⟨_,rfl⟩ | ⟨_,_,_,_,_,rfl⟩
    · rfl
    · rfl
  rw [tasks,stopTasks_live,List.getElem?_map,found]
  refine ⟨_,rfl,?_⟩
  dsimp only
  split <;> rfl

-- An execution in flight stays in flight, and its row keeps what was loaded.
theorem served_flying (progress : Progress s.db s.inFlight) (allowed : served k op = true)
    (step : Service.Step codec alpha s op t) {i : TaskId} (flying : i ∈ s.inFlight) {row : Task}
    (found : s.db.tasks[i]? = some row) :
    i ∈ t.inFlight ∧ ∃ next, t.db.tasks[i]? = some next ∧ core next = core row := by
  cases op with
  | grant =>
    obtain ⟨_,rfl⟩ := Service.grant_posts step
    exact ⟨flying,row,found,rfl⟩
  | createBatch user inputFile endpoint window lines now =>
    obtain ⟨db,created,rfl⟩ := Service.create_step step
    obtain ⟨_,_,_,_,_,rfl⟩ := createBatch_parts created
    refine ⟨flying,row,?_,rfl⟩
    exact (List.getElem?_append_left (List.getElem?_eq_some_iff.mp found).choose).trans found
  | claimAndAssign load now =>
    cases step
    refine ⟨List.mem_append_left _ flying,row,?_,rfl⟩
    rcases Dispatcher.startTasks_parts load now s.db found with ⟨_,same⟩ | ⟨_,waiting,_⟩
    · exact same
    · obtain ⟨u,there,status⟩ := progress.flying i flying
      rw [found] at there
      cases there
      rcases status with running | cancelled
      · rw [running] at waiting
        cases waiting
      · rw [cancelled] at waiting
        cases waiting
  | cancelBatch =>
    obtain ⟨b,db,_,_,_,done,rfl⟩ := Service.cancel_step step
    exact ⟨flying,stopped_core done found⟩
  | expireBatch =>
    obtain ⟨b,db,_,_,done,rfl⟩ := Service.expire_step step
    exact ⟨flying,stopped_core done found⟩
  | uploadFile => cases step; exact ⟨flying,row,found,rfl⟩
  | applyHealthResults => cases step; exact ⟨flying,row,found,rfl⟩
  | completeTask => cases allowed
  | failTask => cases allowed
  | purgeExpiredResults => cases allowed
  | startup => cases allowed

end Server

section Threads
variable {s v : Service} {actor thread : Thread} {held m : Memory}

theorem sound_moved {memories : Thread → Memory} (actor : Thread) (valid : ∀ thread, Sound k s thread (memories thread))
    (new : Sound k v actor m) (kept : ∀ thread held, thread ≠ actor → Sound k s thread held → Sound k v thread held) :
    ∀ thread, Sound k v thread (Function.update memories actor m thread) := by
  intro thread
  by_cases mine : thread = actor
  · subst mine
    rw [Function.update_self]
    exact new
  · rw [Function.update_of_ne mine]
    exact kept thread _ mine (valid thread)

-- An execution keeps its task, and a settled task its row.
theorem sound_kept (valid : Sound k s thread held)
    (rows : ∀ task row, thread = .worker task → s.db.tasks[task]? = some row →
      (task ∈ s.inFlight → task ∈ v.inFlight ∧ ∃ next, v.db.tasks[task]? = some next ∧ core next = core row) ∧
      (Counters.settled row = true → v.db.tasks[task]? = some row)) : Sound k v thread held := by
  cases held with
  | loaded task own sink now later =>
    obtain ⟨rfl,flying,row,found,agree⟩ := valid
    obtain ⟨still,next,there,same⟩ := (rows task row rfl found).1 flying
    exact ⟨rfl,still,next,there,agree.trans same.symm⟩
  | settled task own copy later =>
    obtain ⟨rfl,found,ended⟩ := valid
    exact ⟨rfl,(rows task own rfl found).2 ended,ended⟩
  | requested op => exact valid
  | _ => trivial

theorem memory_moved (before : finalizes k (c.memory actor) = false) (after : finalizes k m = false) (thread : Thread) :
    Function.update c.memory actor m thread = c.memory thread ∨
      (finalizes k (Function.update c.memory actor m thread) = false ∧ finalizes k (c.memory thread) = false) := by
  by_cases mine : thread = actor
  · subst mine
    rw [Function.update_self]
    exact .inr ⟨after,before⟩
  · exact .inl (Function.update_of_ne mine _ _)

theorem once_memory (valid : Once k c) (new : Sound k c.committed actor m)
    (before : finalizes k (c.memory actor) = false) (after : finalizes k m = false) :
    Once k ⟨c.committed,Function.update c.memory actor m⟩ :=
  once_frame valid valid.progress (sound_moved _ valid.sessions new fun _ _ _ same => same) rfl rfl rfl (fun _ _ => rfl)
    (memory_moved before after)

theorem once_free (valid : Once k c) (acts : (settlements codec alpha k).free actor c.committed (c.memory actor) m) :
    Once k ⟨c.committed,Function.update c.memory actor m⟩ := by
  cases actor with
  | worker task =>
    rcases acts with ⟨own,sink,now,later,idle,flying,found,rfl⟩ | ⟨own,sink,now,later,loaded,rfl⟩
    · exact once_memory valid ⟨rfl,flying,own,found,rfl⟩ (by rw [idle]; rfl) rfl
    · exact once_memory valid trivial (by rw [loaded]; rfl) rfl
  | server =>
    obtain ⟨op,idle,allowed,rfl⟩ := acts
    exact once_memory valid allowed (by rw [idle]; rfl) rfl

theorem once_served {op : Operation} (valid : Once k c) (requested : c.memory actor = .requested op)
    (done : Service.Step codec alpha c.committed op v) : Once k ⟨v,Function.update c.memory actor .idle⟩ := by
  have allowed : served k op = true := by simpa [Sound,requested] using valid.sessions actor
  have progress := step_progress valid.progress done
  have sessions : ∀ thread, Sound k v thread (Function.update c.memory actor .idle thread) :=
    sound_moved _ valid.sessions trivial fun thread held _ sound => sound_kept sound fun task row _ found =>
      ⟨fun flying => served_flying valid.progress allowed done flying found,
        fun ended => settled_frozen valid.progress done found ended⟩
  have before : finalizes k (c.memory actor) = false := by rw [requested]; rfl
  have memory := memory_moved (c := c) (m := .idle) before rfl
  obtain ⟨output,errors⟩ := served_files allowed done
  rcases served_row allowed done with row | ⟨gone,b,created,open_,short⟩
  · exact once_frame valid progress sessions row output errors
      (fun inside ended => batchTasks_frozen valid.progress done inside ended) memory
  · have quiet : Quiet k ⟨v,Function.update c.memory actor .idle⟩ := by
      have prior := valid.absent gone
      refine ⟨fun thread => ?_,output.trans prior.output,errors.trans prior.errors⟩
      rcases memory thread with same | ⟨none_,_⟩
      · exact (congrArg (finalizes k) same).trans (prior.threads thread)
      · exact none_
    refine ⟨progress,sessions,fun none_ => quiet,fun a found _ => ?_,fun a found reached => ?_⟩
    · cases created.symm.trans found
      exact ⟨open_,quiet⟩
    · cases created.symm.trans found
      omega

-- The settlement of a task of another batch.
theorem batchTasks_other {db after : Db} {task : TaskId} {t : Task} {f : Task → Task}
    (tasks : after.tasks = db.tasks.modify task f) (found : db.tasks[task]? = some t) (other : t.batchId ≠ k)
    (owner : (f t).batchId = t.batchId) : after.batchTasks k = db.batchTasks k := by
  refine Rows.selected_same (p := fun t : Task => t.batchId == k) ?_ ?_
  · intro i row there
    by_cases mine : task = i
    · subst mine
      cases found.symm.trans there
      refine ⟨f t,by rw [tasks]; exact Rows.getElem?_modify_self there f,fun chosen => ?_⟩
      simp [owner,other] at chosen
    · exact ⟨row,by rw [tasks,Rows.getElem?_modify_other mine,there],fun _ => rfl⟩
  · intro i row outside there
    have inside := (List.getElem?_eq_some_iff.mp there).choose
    have size : after.tasks.length = db.tasks.length := by rw [tasks,List.length_modify]
    omega

-- While an execution of the batch is in flight its counters are short.
theorem flying_short {db : Db} {flights : List TaskId} {task : TaskId} {t : Task} {b : Batch}
    (valid : Progress db flights) (flying : task ∈ flights) (found : db.tasks[task]? = some t)
    (owned : db.batches[t.batchId]? = some b) : b.requestCompleted + b.requestFailed < b.requestTotal := by
  by_contra reached
  obtain ⟨row,there,status⟩ := valid.flying task flying
  cases found.symm.trans there
  have ended := counted_settled (valid.counted t.batchId b owned) (Nat.le_of_not_lt reached) t
    (List.mem_of_getElem? found) rfl
  rcases status with running | cancelled
  · simp [Counters.settled,running,settledStatus] at ended
  · simp [Counters.settled,cancelled,settledStatus] at ended

theorem once_settled {task : TaskId} {own : Task} {sink : Sink} {now later : Instant} {m : Memory} (valid : Once k c)
    (loaded : c.memory actor = .loaded task own sink now later)
    (ran : runAll (settlement codec alpha) c.committed (.loaded task own sink now later) = .ok (v,m)) :
    Once k ⟨v,Function.update c.memory actor m⟩ := by
  have sound := valid.sessions actor
  rw [loaded] at sound
  obtain ⟨rfl,flying,t,found,agree⟩ := sound
  obtain ⟨db,copy,done,copied,rfl,rfl⟩ := settlement_commits found agree ran
  obtain ⟨row,there,tasks,batches,files⟩ := commit_parts done
  cases found.symm.trans there
  have settledRow : db.tasks[task]? = some (sink.settle now t) := by
    rw [tasks]
    exact Rows.getElem?_modify_self found _
  have progress := sink_progress valid.progress flying done
  have sessions : ∀ thread, Sound k {c.committed with db := db,inFlight := c.committed.inFlight.erase task} thread
      (Function.update c.memory (.worker task) (.settled task (sink.settle now t) copy later) thread) := by
    refine sound_moved _ valid.sessions ⟨rfl,settledRow,settle_ends sink now t⟩ fun thread held other sound =>
      sound_kept sound fun i row named there => ?_
    have different : task ≠ i := fun same => other (by rw [named,same])
    have kept : db.tasks[i]? = some row := by
      rw [tasks,Rows.getElem?_modify_other different,there]
    exact ⟨fun flies => ⟨(List.mem_erase_of_ne (Ne.symm different)).mpr flies,row,kept,rfl⟩,fun _ => kept⟩
  have before : finalizes k (c.memory (.worker task)) = false := by rw [loaded]; rfl
  by_cases mine : t.batchId = k
  · subst mine
    obtain ⟨b,owned⟩ : ∃ b, c.committed.db.batches[t.batchId]? = some b :=
      ⟨_,List.getElem?_eq_getElem (valid.progress.owned t (List.mem_of_getElem? found))⟩
    obtain ⟨open_,quiet⟩ := valid.short b owned (flying_short valid.progress flying found owned)
    have counted : copy = sink.count b := by
      rw [batches,Rows.getElem?_modify_self owned] at copied
      exact (Option.some.inj copied).symm
    have status : copy.status = .inProgress := by rw [counted,count_status,open_]
    have output : filesNamed (.output t.batchId) db = 0 := by simpa only [filesNamed,files] using quiet.output
    have errors : filesNamed (.errors t.batchId) db = 0 := by simpa only [filesNamed,files] using quiet.errors
    have chosen : ∀ thread, finalizes t.batchId (Function.update c.memory (.worker task)
        (.settled task (sink.settle now t) copy later) thread) = true ↔ thread = .worker task ∧ shouldFinalize copy = true := by
      intro thread
      by_cases same : thread = .worker task
      · subst same
        simp [finalizes,settle_owner]
      · simp [quiet.threads thread,same]
    refine ⟨progress,sessions,fun gone => ?_,fun a row short => ?_,fun a row reached => ?_⟩
    · cases gone.symm.trans copied
    · cases row.symm.trans copied
      refine ⟨status,fun thread => ?_,output,errors⟩
      rw [Bool.eq_false_iff]
      intro finalizing
      have due := ((chosen thread).mp finalizing).2
      simp only [shouldFinalize,status,beq_self_eq_true,Bool.true_and,decide_eq_true_eq] at due
      omega
    · cases row.symm.trans copied
      have due : shouldFinalize copy = true := by
        simp only [shouldFinalize,status,beq_self_eq_true,Bool.true_and,decide_eq_true_eq]
        exact reached
      refine ⟨task,fun thread => by simp [chosen thread,due],.inl ⟨_,copy,later,Function.update_self ..,status,output,errors⟩⟩
  · refine once_frame valid progress sessions ?_ ?_ ?_ (fun _ _ => ?_) (memory_moved before ?_)
    · change db.batches[k]? = _
      rw [batches,Rows.getElem?_modify_other mine]
    · simp only [filesNamed,files]
    · simp only [filesNamed,files]
    · exact batchTasks_other tasks found mine (settle_owner now sink t)
    · simp [finalizes,settle_owner,mine]

theorem resultFiles_named {db after : Db} {user : UserId} {batch : BatchId} {now : Instant} {rows : List (Task × TaskId)}
    (files : after.files = db.files ++ resultFiles codec user batch now rows) :
    filesNamed (.output k) after = filesNamed (.output k) db + (if batch = k then 1 else 0) ∧
    filesNamed (.errors k) after = filesNamed (.errors k) db +
      (if batch = k then if failedRows rows = [] then 0 else 1 else 0) := by
  simp only [filesNamed,files,List.countP_append,resultFiles]
  by_cases clean : failedRows rows = []
  · simp [clean,fileRow]
  · simp [clean,fileRow,List.countP_cons]

-- Only a batch whose counters have reached the total has a thread to finalize it.
theorem chosen_reached (valid : Once k c) (chosen : finalizes k (c.memory thread) = true) :
    ∃ b task, c.committed.db.batches[k]? = some b ∧ b.requestTotal ≤ b.requestCompleted + b.requestFailed ∧
      Elected k b task c := by
  have active : ¬ Quiet k c := fun quiet => by
    rw [quiet.threads] at chosen
    cases chosen
  cases found : c.committed.db.batches[k]? with
  | none => exact absurd (valid.absent found) active
  | some b =>
    have reached : b.requestTotal ≤ b.requestCompleted + b.requestFailed := by
      by_contra short
      exact active (valid.short b found (Nat.lt_of_not_le short)).2
    obtain ⟨task,elected⟩ := valid.done b found reached
    exact ⟨b,task,rfl,reached,elected⟩

theorem finalizeRows_parts (codec : Codec) (copy : Batch) (rows : List (Task × TaskId)) (batch : BatchId) (now : Instant)
    (db : Db) (blobs : Blobs) : (finalizeRows codec copy rows batch now db blobs).1.tasks = db.tasks ∧
      (finalizeRows codec copy rows batch now db blobs).1.batches =
        db.batches.modify batch (Batch.finish db.files.length (errorFile db.files.length rows) now) ∧
      (finalizeRows codec copy rows batch now db blobs).1.files = db.files ++ resultFiles codec copy.userId batch now rows :=
  ⟨rfl,rfl,rfl⟩

theorem once_finalized {task : TaskId} {own : Task} {copy : Batch} {later : Instant} {m : Memory} (valid : Once k c)
    (settled : c.memory actor = .settled task own copy later) (due : shouldFinalize copy = true)
    (ran : runAll (finalization codec) c.committed (.settled task own copy later) = .ok (v,m)) :
    Once k ⟨v,Function.update c.memory actor m⟩ := by
  have sound := valid.sessions actor
  rw [settled] at sound
  obtain ⟨rfl,found,_⟩ := sound
  rw [finalization_runs,sessionRows_own found] at ran
  cases ran
  obtain ⟨tasks,batches,files⟩ := finalizeRows_parts codec copy (rowsOf c.committed.db own.batchId) own.batchId later
    c.committed.db c.committed.blobs
  generalize finalizeRows codec copy (rowsOf c.committed.db own.batchId) own.batchId later c.committed.db
    c.committed.blobs = final at tasks batches files ⊢
  have progress := progress_closed valid.progress tasks batches (fun _ => rfl) (fun _ open_ => by cases open_)
  obtain ⟨output,errors⟩ := resultFiles_named (k := k) files
  have sessions := sound_moved (.worker task) valid.sessions (v := {c.committed with db := final.1,blobs := final.2})
    (m := .finalized task own copy (rowsOf c.committed.db own.batchId)) trivial
    fun thread held _ sound => sound_kept sound fun i row _ there =>
      ⟨fun flies => ⟨flies,row,tasks ▸ there,rfl⟩,fun _ => tasks ▸ there⟩
  have rows : ∀ i, final.1.batchTasks i = c.committed.db.batchTasks i := by
    intro i
    simp only [Db.batchTasks,tasks]
  by_cases mine : own.batchId = k
  · subst mine
    have chosen : finalizes own.batchId (c.memory (.worker task)) = true := by simp [finalizes,settled,due]
    obtain ⟨b,other,owned,reached,elected⟩ := chosen_reached valid chosen
    cases (elected.only _).mp chosen
    have row : final.1.batches[own.batchId]? = some (Batch.finish c.committed.db.files.length
        (errorFile c.committed.db.files.length (rowsOf c.committed.db own.batchId)) later b) := by
      rw [batches]
      exact Rows.getElem?_modify_self owned _
    have ended := counted_settled (valid.progress.counted own.batchId b owned) reached
    have sorted : rowsOf final.1 own.batchId = rowsOf c.committed.db own.batchId := congrArg byLineIndex (rows _)
    have before : filesNamed (.output own.batchId) c.committed.db = 0 ∧ filesNamed (.errors own.batchId) c.committed.db = 0 := by
      rcases elected.stage with ⟨_,_,_,_,_,none_,free⟩ | ⟨_,_,held,_⟩
      · exact ⟨none_,free⟩
      · cases settled.symm.trans held
    refine ⟨progress,sessions,fun gone => ?_,fun a found short => ?_,fun a found _ => ⟨task,fun thread => ?_,.inr ?_⟩⟩
    · cases gone.symm.trans row
    · cases row.symm.trans found
      exact absurd reached (Nat.not_le_of_lt short)
    · by_cases same : thread = .worker task
      · subst same
        simp [finalizes]
      · simp only [Function.update_of_ne same]
        exact elected.only thread
    · cases row.symm.trans found
      refine ⟨own,copy,?_,rfl,fun row member => ?_,?_,?_⟩
      · rw [sorted]
        exact Function.update_self ..
      · obtain ⟨there,owner⟩ := mem_batchTasks.mp ((rows own.batchId) ▸ member)
        exact ended row.1 (List.mem_of_getElem? there) owner
      · simpa [before.1] using output
      · rw [sorted]
        simpa [before.2] using errors
  · refine once_frame valid progress sessions ?_ ?_ ?_ (fun _ _ => rows k) (memory_moved ?_ ?_)
    · change final.1.batches[k]? = _
      rw [batches,Rows.getElem?_modify_other mine]
    · simpa [mine] using output
    · simpa [mine] using errors
    · simp [settled,finalizes,mine]
    · simp [finalizes,mine]

theorem once_step {w : Whole Thread} (valid : Once k c) (step : Atomic (settlements codec alpha k) c w d) : Once k d := by
  rcases atomic_cases step with ⟨actor,m,acts,rfl⟩ | ⟨actor,op,v,held,done,rfl⟩ | ⟨actor,_,_,_,_,_,v,m,held,ran,rfl⟩ |
    ⟨actor,_,_,_,_,v,m,held,due,ran,rfl⟩ | ⟨actor,m,raised,rfl⟩
  · exact once_free valid acts
  · exact once_served valid held done
  · exact once_settled valid held ran
  · exact once_finalized valid held due ran
  · rcases raised with ⟨_,held,rfl⟩ | ⟨_,_,_,_,_,held,rfl⟩
    · exact once_memory valid trivial (by rw [held]; rfl) rfl
    · exact once_memory valid trivial (by rw [held]; rfl) rfl

-- A thread that is to finalize the batch does not change its mind.
theorem finalizes_stays {w : Whole Thread} (step : Atomic (settlements codec alpha k) c w d)
    (chosen : finalizes k (c.memory thread) = true) : finalizes k (d.memory thread) = true := by
  have moved : ∀ {actor v m}, d = ⟨v,Function.update c.memory actor m⟩ →
      (finalizes k (c.memory actor) = true → finalizes k m = true) → finalizes k (d.memory thread) = true := by
    rintro actor v m rfl after
    by_cases mine : thread = actor
    · subst mine
      simpa using after chosen
    · simpa [mine] using chosen
  rcases atomic_cases step with ⟨actor,m,acts,same⟩ | ⟨actor,op,v,held,_,same⟩ | ⟨actor,_,_,_,_,_,v,m,held,_,same⟩ |
    ⟨actor,task,own,copy,later,v,m,held,_,ran,same⟩ | ⟨actor,m,raised,same⟩
  · refine moved same fun before => ?_
    cases actor with
    | worker task =>
      rcases acts with ⟨_,_,_,_,held,_⟩ | ⟨_,_,_,_,held,_⟩
      · rw [held] at before
        cases before
      · rw [held] at before
        cases before
    | server =>
      obtain ⟨_,held,_⟩ := acts
      rw [held] at before
      cases before
  · refine moved same fun before => ?_
    rw [held] at before
    cases before
  · refine moved same fun before => ?_
    rw [held] at before
    cases before
  · refine moved same fun before => ?_
    rw [finalization_runs] at ran
    cases ran
    rw [held] at before
    exact (Bool.and_eq_true_iff.mp before).1
  · refine moved same fun before => ?_
    rcases raised with ⟨_,held,_⟩ | ⟨_,_,_,_,_,held,_⟩
    · rw [held] at before
      cases before
    · rw [held] at before
      cases before

end Threads

-- All threads at rest on the tables that a run of whole operations has left.
def begun (s : Service) : State Thread Service Memory := ⟨s,fun _ => .idle,none⟩

section Runs
variable {s₀ : Service} {operations : List Operation} {labels : List (SingleWriter.Action Thread)}
  {s last : State Thread Service Memory} {thread : Thread}

theorem once_begun (start : Run (Service.Step codec alpha) {} operations s₀)
    (opened : ∀ b, s₀.db.batches[k]? = some b → b.status = .inProgress) : Once k (begun s₀).cut := by
  have progress := run_progress start
  have unfinished := run_unfinished start
  have nameless : ∀ name, nameOf name = some k → filesNamed name s₀.db = 0 := by
    intro name named
    refine List.countP_eq_zero.mpr fun f member found => ?_
    obtain ⟨row,rfl,same⟩ := (Option.any_eq_true _ _).mp found
    obtain ⟨b,was,closed⟩ := unfinished.unnamed row member k (by rw [eq_of_beq same]; exact named)
    exact closed (opened b was)
  have quiet : Quiet k (begun s₀).cut := ⟨fun _ => rfl,nameless _ rfl,nameless _ rfl⟩
  refine ⟨progress,fun _ => trivial,fun _ => quiet,fun b found _ => ⟨opened b found,quiet⟩,fun b found reached => ?_⟩
  exact absurd (unfinished.short k b found (opened b found)) (Nat.not_lt_of_le reached)

theorem once_run (valid : Once k s.cut) (idle : s.writer = none)
    (path : Run (SingleWriter.Step (settlements codec alpha k)) s labels last) : Once k last.cut :=
  run_invariant path idle valid fun _ _ _ => once_step

theorem finalizes_run (idle : s.writer = none) (path : Run (SingleWriter.Step (settlements codec alpha k)) s labels last)
    (chosen : finalizes k (s.memory thread) = true) : finalizes k (last.memory thread) = true :=
  run_invariant (I := fun c => finalizes k (c.memory thread) = true) path idle chosen fun _ _ _ => Function.swap finalizes_stays

-- The chosen thread's second section can be entered and goes through.
theorem elected_runs {b : Batch} {task : TaskId} (valid : Once k s.cut) (idle : s.writer = none)
    (found : s.committed.db.batches[k]? = some b) (elected : Elected k b task s.cut) :
    ∃ last own copy, Reached (SingleWriter.Step (settlements codec alpha k)) s last ∧
      last.memory (.worker task) = .finalized task own copy (rowsOf last.committed.db k) := by
  rcases elected.stage with ⟨own,copy,later,held,_⟩ | ⟨own,copy,held,_⟩
  · have chosen := (elected.only (.worker task)).mpr rfl
    rw [held] at chosen
    obtain ⟨mine,due⟩ := Bool.and_eq_true_iff.mp chosen
    have mine : own.batchId = k := eq_of_beq mine
    subst mine
    have held : s.memory (.worker task) = .settled task own copy later := held
    have sound : Sound own.batchId s.committed (.worker task) (s.memory (.worker task)) := valid.sessions (.worker task)
    rw [held] at sound
    have ran := @finalization_runs codec s.committed task own copy later
    rw [sessionRows_own sound.2.1] at ran
    have ready : (settlements codec alpha own.batchId).locked (s.memory (.worker task)) = some (finalization codec) := by
      rw [held]
      exact if_pos due
    exact ⟨_,own,copy,section_runs idle ready (by rw [held]; exact ran),Function.update_self ..⟩
  · exact ⟨s,own,copy,.refl,held⟩

-- Once a thread is to finalize the batch, it is the only one.
theorem chosen_only {c : Cut Thread Service Memory} (valid : Once k c) (chosen : finalizes k (c.memory thread) = true)
    (other : Thread) : finalizes k (c.memory other) = true ↔ other = thread := by
  obtain ⟨b,task,_,_,elected⟩ := chosen_reached valid chosen
  rw [(elected.only thread).mp chosen]
  exact elected.only other

-- The thread whose commit completes the counters is the one.
theorem commit_chooses {next : State Thread Service Memory} {a b : Batch} (valid : Once k s.cut) 
    (serial : Serial (settlements codec alpha k) s)
    (step : SingleWriter.Step (settlements codec alpha k) s (.commit thread) next)
    (found : s.committed.db.batches[k]? = some b) (short : b.requestCompleted + b.requestFailed < b.requestTotal)
    (after : next.committed.db.batches[k]? = some a) (reached : a.requestTotal ≤ a.requestCompleted + a.requestFailed) :
    finalizes k (next.memory thread) = true := by
  obtain ⟨task,elected⟩ := (once_step valid (step_whole serial step rfl)).done a after reached
  have chosen : finalizes k (next.memory (.worker task)) = true := (elected.only _).mpr rfl
  by_cases mine : Thread.worker task = thread
  · rw [← mine]
    exact chosen
  · have kept : next.memory (.worker task) = s.memory (.worker task) := by
      cases step
      exact Function.update_of_ne mine _ _
    have quiet : finalizes k (s.memory (.worker task)) = false := (valid.short b found short).2.threads _
    rw [kept,quiet] at chosen
    cases chosen

theorem one_thread_finalizes (start : Run (Service.Step codec alpha) {} operations s₀)
    (opened : ∀ b, s₀.db.batches[k]? = some b → b.status = .inProgress)
    (path : Run (SingleWriter.Step (settlements codec alpha k)) (begun s₀) labels s) {b : Batch}
    (found : s.committed.db.batches[k]? = some b) :
    b.requestCompleted = tally s.committed.db k .completed ∧ b.requestFailed = tally s.committed.db k .failed ∧
    (b.requestCompleted + b.requestFailed < b.requestTotal → Quiet k s.cut) ∧
    (b.requestTotal ≤ b.requestCompleted + b.requestFailed → ∃ task, Elected k b task s.cut ∧
      (s.writer = none → ∃ last own copy, Reached (SingleWriter.Step (settlements codec alpha k)) s last ∧
        last.memory (.worker task) = .finalized task own copy (rowsOf last.committed.db k))) ∧
    (∀ thread next a, SingleWriter.Step (settlements codec alpha k) s (.commit thread) next →
      b.requestCompleted + b.requestFailed < b.requestTotal → next.committed.db.batches[k]? = some a →
      a.requestTotal ≤ a.requestCompleted + a.requestFailed → ∀ labels last,
      Run (SingleWriter.Step (settlements codec alpha k)) next labels last →
      ∀ other, finalizes k (last.memory other) = true ↔ other = thread) := by
  have valid := once_run (once_begun start opened) rfl path
  have counted := valid.progress.counted k b found
  refine ⟨counted.completed,counted.failed,fun short => (valid.short b found short).2,fun reached => ?_,?_⟩
  · obtain ⟨task,elected⟩ := valid.done b found reached
    exact ⟨task,elected,fun idle => elected_runs valid idle found elected⟩
  · intro thread next a step short after reached labels last later
    have serial := run_serial path rfl
    have idle : next.writer = none := by cases step; rfl
    have chosen := commit_chooses valid serial step found short after reached
    exact chosen_only (once_run (once_step valid (step_whole serial step rfl)) idle later) (finalizes_run idle later chosen)

theorem worker_loads {task : TaskId} {own : Task} (idle : s.writer = none) (fresh : s.memory (.worker task) = .idle)
    (flying : task ∈ s.committed.inFlight) (found : s.committed.db.tasks[task]? = some own) (sink : Sink) (now later : Instant) :
    Reached (SingleWriter.Step (settlements codec alpha k)) s
      {s with memory := Function.update s.memory (.worker task) (.loaded task own sink now later)} := by
  have acts : (settlements codec alpha k).free (.worker task) s.committed (s.memory (.worker task))
      (.loaded task own sink now later) := .inl ⟨own,sink,now,later,fresh,flying,found,rfl⟩
  refine Reached.refl.next (.free (fun o open_ => ?_) acts)
  rw [idle] at open_
  cases open_

-- Two executions in flight, both loaded before the first of them commits.
def settledPair (s : Service) : Bool :=
  s.db.tasks[0]?.any fun first => s.db.tasks[1]?.any fun second =>
    decide (0 ∈ s.inFlight) && decide (1 ∈ s.inFlight) &&
      (returned (runAll (settlement JsonText.codec (3/10)) s (.loaded 0 first (.fail []) 0 0))).any fun left =>
        (returned (runAll (settlement JsonText.codec (3/10)) left.1 (.loaded 1 second (.complete (.obj []) 3 2) 0 0))).any fun right =>
          right.1.db.batches[0]?.any fun b => decide (b.requestTotal ≤ b.requestCompleted + b.requestFailed)

theorem one_thread_finalizes_two : ∃ (s : State Thread Service Memory) (b : Batch),
    s.committed.db.batches[0]? = some b ∧ b.requestTotal ≤ b.requestCompleted + b.requestFailed ∧
    ∃ task, Elected 0 b task s.cut := by
  have ran : (replay (Service.advance JsonText.codec (3/10)) [Service.nodeWith 2,.grant 1 1000 none,
      Service.submitShort 1 2 0,Service.claimPass] {}).any (fun s => settledPair s &&
        s.db.batches[0]?.any (fun b => b.status == .inProgress)) = true := by decide +kernel
  obtain ⟨s₀,start,facts⟩ := replay_reaches ran
  obtain ⟨pair,facts⟩ := Bool.and_eq_true_iff.mp facts
  obtain ⟨a,owned,facts⟩ := (Option.any_eq_true _ _).mp facts
  have opened : ∀ b, s₀.db.batches[0]? = some b → b.status = .inProgress := by
    intro b found
    cases owned.symm.trans found
    exact eq_of_beq facts
  obtain ⟨first,here,pair⟩ := (Option.any_eq_true _ _).mp pair
  obtain ⟨second,there,pair⟩ := (Option.any_eq_true _ _).mp pair
  obtain ⟨flying,pair⟩ := Bool.and_eq_true_iff.mp pair
  obtain ⟨zero,one⟩ := Bool.and_eq_true_iff.mp flying
  obtain ⟨⟨v,left⟩,ended,pair⟩ := (Option.any_eq_true _ _).mp pair
  obtain ⟨⟨w,right⟩,last,pair⟩ := (Option.any_eq_true _ _).mp pair
  obtain ⟨b,found,reached⟩ := (Option.any_eq_true _ _).mp pair
  let loaded : Memory := .loaded 1 second (.complete (.obj []) 3 2) 0 0
  let both := Function.update (Function.update (begun s₀).memory (.worker 0) (.loaded 0 first (.fail []) 0 0)) (.worker 1) loaded
  have loads : Reached (SingleWriter.Step (settlements JsonText.codec (3/10) 0)) (begun s₀) ⟨s₀,both,none⟩ :=
    (worker_loads rfl rfl (of_decide_eq_true zero) here _ 0 0).trans
      (worker_loads rfl rfl (of_decide_eq_true one) there _ 0 0)
  have commits : Reached (SingleWriter.Step (settlements JsonText.codec (3/10) 0)) ⟨s₀,both,none⟩
      ⟨v,Function.update both (.worker 0) left,none⟩ := section_runs rfl rfl (returned_some.mp ended)
  have completes : Reached (SingleWriter.Step (settlements JsonText.codec (3/10) 0))
      ⟨v,Function.update both (.worker 0) left,none⟩
      ⟨w,Function.update (Function.update both (.worker 0) left) (.worker 1) right,none⟩ :=
    section_runs rfl rfl (returned_some.mp last)
  obtain ⟨labels,path⟩ := (loads.trans commits).trans completes
  have reached := of_decide_eq_true reached
  obtain ⟨task,elected,_⟩ := (one_thread_finalizes start opened path found).2.2.2.1 reached
  exact ⟨_,b,found,reached,task,elected⟩

end Runs

end BatchGateway.SingleFinalization
