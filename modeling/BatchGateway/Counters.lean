import BatchGateway.Records

-- The counters of a batch row against the statuses of its tasks.
namespace BatchGateway.Counters
open BatchOps Service LabelledRuns Records

def belongs (batch : BatchId) (t : Task) : Bool := t.batchId == batch

def tally (db : Db) (batch : BatchId) (status : TaskStatus) : Nat :=
  db.tasks.countP (fun t => belongs batch t && t.status == status)

def settledStatus : TaskStatus → Bool
  | .completed | .failed => true
  | .pending | .running | .cancelled => false

def settled (t : Task) : Bool := settledStatus t.status

structure Counted (db : Db) (batch : BatchId) (b : Batch) : Prop where
  total : b.requestTotal = db.tasks.countP (belongs batch)
  completed : b.requestCompleted = tally db batch .completed
  failed : b.requestFailed = tally db batch .failed
  nonempty : 0 < b.requestTotal

-- An execution in flight was claimed once and has not been settled; only the
-- end of its batch can have taken its task's status.
structure Progress (db : Db) (inFlight : List TaskId) : Prop where
  owned : ∀ t ∈ db.tasks, t.batchId < db.batches.length
  once : inFlight.Nodup
  flying : ∀ i ∈ inFlight, ∃ t, db.tasks[i]? = some t ∧ (t.status = .running ∨ t.status = .cancelled)
  counted : ∀ i b, db.batches[i]? = some b → Counted db i b
  uncancelled : ∀ t ∈ db.tasks, ∀ b, db.batches[t.batchId]? = some b → b.status = .inProgress → t.status ≠ .cancelled

def counters (b : Batch) : Nat × Nat × Nat := (b.requestTotal,b.requestCompleted,b.requestFailed)

theorem Counted.transport {db after : Db} {batch : BatchId} {b c : Batch} (valid : Counted db batch b)
    (same : counters c = counters b) (total : after.tasks.countP (belongs batch) = db.tasks.countP (belongs batch))
    (tallies : ∀ status, settledStatus status = true → tally after batch status = tally db batch status) :
    Counted after batch c := by
  simp only [counters,Prod.mk.injEq] at same
  refine ⟨?_,?_,?_,?_⟩
  · rw [same.1,valid.total,total]
  · rw [same.2.1,valid.completed,tallies _ rfl]
  · rw [same.2.2,valid.failed,tallies _ rfl]
  · rw [same.1]
    exact valid.nonempty

-- The three kinds a batch's tasks fall into.
theorem tally_split (db : Db) (batch : BatchId) :
    db.tasks.countP (belongs batch) = tally db batch .completed + tally db batch .failed +
      db.tasks.countP (fun t => belongs batch t && !settled t) := by
  unfold tally
  induction db.tasks with
  | nil => rfl
  | cons t tasks ih =>
    simp only [List.countP_cons,ih,settled]
    cases belongs batch t <;> cases t.status <;> simp [settledStatus] <;> omega

theorem counted_settled {db : Db} {batch : BatchId} {b : Batch} (valid : Counted db batch b)
    (reached : b.requestTotal ≤ b.requestCompleted + b.requestFailed) :
    ∀ t ∈ db.tasks, t.batchId = batch → settled t = true := by
  have split := tally_split db batch
  rw [← valid.total,← valid.completed,← valid.failed] at split
  have rest : db.tasks.countP (fun t => belongs batch t && !settled t) = 0 := by omega
  intro t member mine
  simpa [belongs,mine] using List.countP_eq_zero.mp rest t member

theorem counted_open {db : Db} {batch : BatchId} {b : Batch} (valid : Counted db batch b)
    (short : b.requestCompleted + b.requestFailed < b.requestTotal) :
    ∃ t ∈ db.tasks, t.batchId = batch ∧ settled t = false := by
  have split := tally_split db batch
  rw [← valid.total,← valid.completed,← valid.failed] at split
  have rest : 0 < db.tasks.countP (fun t => belongs batch t && !settled t) := by omega
  obtain ⟨t,member,kind⟩ := List.countP_pos_iff.mp rest
  exact ⟨t,member,by simpa [belongs] using kind⟩

-- The counters never pass the total.
theorem counted_bound {db : Db} {batch : BatchId} {b : Batch} (valid : Counted db batch b) :
    b.requestCompleted + b.requestFailed ≤ b.requestTotal := by
  have split := tally_split db batch
  rw [← valid.total,← valid.completed,← valid.failed] at split
  omega

def rowColumns (b : Batch) : (Nat × Nat × Nat) × BatchStatus := (counters b,b.status)

variable {db after : Db} {inFlight : List TaskId}

-- Whatever leaves the tasks alone and keeps these columns of the batches.
theorem Progress.transport (valid : Progress db inFlight) (tasks : after.tasks = db.tasks)
    (batches : after.batches.map rowColumns = db.batches.map rowColumns) : Progress after inFlight := by
  have size : after.batches.length = db.batches.length := by simpa using congrArg List.length batches
  have row : ∀ (i : BatchId) (b : Batch), after.batches[i]? = some b → ∃ old, db.batches[i]? = some old ∧ rowColumns old = rowColumns b := by
    intro i b found
    have listed : (after.batches.map rowColumns)[i]? = some (rowColumns b) := by simp [found]
    rw [batches,List.getElem?_map] at listed
    exact Option.map_eq_some_iff.mp listed
  refine ⟨by rw [tasks,size]; exact valid.owned,valid.once,by rw [tasks]; exact valid.flying,?_,?_⟩
  · intro i b found
    obtain ⟨old,there,same⟩ := row i b found
    refine (valid.counted i old there).transport (congrArg Prod.fst same).symm ?_ ?_
    · rw [tasks]
    · intro status _
      rw [tally,tasks,tally]
  · intro t member b found open_
    obtain ⟨old,there,same⟩ := row _ b found
    rw [tasks] at member
    exact valid.uncancelled t member old there ((congrArg Prod.snd same).trans open_)

-- A status change that neither makes nor unmakes a settled task.
theorem tally_same {f : Nat → Task → Task} (tasks : after.tasks = db.tasks.mapIdx f)
    (batch : ∀ i t, (f i t).batchId = t.batchId)
    (kept : ∀ i t, db.tasks[i]? = some t → ∀ status, settledStatus status = true →
      ((f i t).status = status ↔ t.status = status)) (i : BatchId) :
    after.tasks.countP (belongs i) = db.tasks.countP (belongs i) ∧
    ∀ status, settledStatus status = true → tally after i status = tally db i status := by
  have column : ∀ {κ : Type} (g : Task → κ) (p : κ → Bool),
      after.tasks.map g = db.tasks.map g → after.tasks.countP (p ∘ g) = db.tasks.countP (p ∘ g) := by
    intro κ g p same
    rw [← List.countP_map,same,List.countP_map]
  constructor
  · refine column Task.batchId (fun b => b == i) ?_
    rw [tasks]
    exact Rows.map_mapIdx_same fun j t _ => batch j t
  · intro status terminal
    have same : after.tasks.map (fun t => (t.batchId,decide (t.status = status))) =
        db.tasks.map (fun t => (t.batchId,decide (t.status = status))) := by
      rw [tasks]
      refine Rows.map_mapIdx_same fun j t found => ?_
      simp only [batch,kept j t found status terminal]
    have counts := column _ (fun c : BatchId × Bool => c.1 == i && c.2) same
    simpa [tally,Function.comp_def,belongs,beq_eq_decide] using counts

-- One row takes a settled status.
theorem tally_settled {task : TaskId} {t : Task} {f : Task → Task} {terminal : TaskStatus}
    (found : db.tasks[task]? = some t) (unsettled : t.status = .running ∨ t.status = .cancelled)
    (tasks : after.tasks = db.tasks.modify task f) (row : (f t).batchId = t.batchId ∧ (f t).status = terminal)
    (i : BatchId) {status : TaskStatus} (settles : settledStatus status = true) :
    tally after i status = tally db i status + if t.batchId = i ∧ terminal = status then 1 else 0 := by
  have moved := Rows.countP_modify found f (fun t => belongs i t && t.status == status)
  have before : (belongs i t && t.status == status) = false := by
    have other : t.status ≠ status := by
      rintro rfl
      rcases unsettled with running | cancelled
      · rw [running] at settles
        cases settles
      · rw [cancelled] at settles
        cases settles
    simp [other]
  simp only [before] at moved
  simp only [belongs,row.1,row.2] at moved
  simpa [tally,tasks,belongs] using moved

theorem total_modify {task : TaskId} {t : Task} {f : Task → Task} (found : db.tasks[task]? = some t)
    (tasks : after.tasks = db.tasks.modify task f) (row : (f t).batchId = t.batchId) (i : BatchId) :
    after.tasks.countP (belongs i) = db.tasks.countP (belongs i) := by
  have moved := Rows.countP_modify found f (belongs i)
  simp only [belongs,row] at moved
  rw [tasks]
  exact Nat.add_right_cancel moved

-- One execution reports in: its task and one counter of its batch move together.
theorem progress_settled {task : TaskId} {t : Task} {f : Task → Task} {g : Batch → Batch} (terminal : TaskStatus)
    (valid : Progress db inFlight) (flying : task ∈ inFlight) (found : db.tasks[task]? = some t)
    (tasks : after.tasks = db.tasks.modify task f) (batches : after.batches = db.batches.modify t.batchId g)
    (ended : settledStatus terminal = true) (row : (f t).batchId = t.batchId ∧ (f t).status = terminal)
    (counts : ∀ b, rowColumns (g b) = ((b.requestTotal,b.requestCompleted + (if terminal = .completed then 1 else 0),
      b.requestFailed + (if terminal = .failed then 1 else 0)),b.status)) :
    Progress after (inFlight.erase task) := by
  obtain ⟨t',found',unsettled⟩ := valid.flying task flying
  rw [found] at found'
  cases found'
  have size : after.batches.length = db.batches.length := by simp [batches]
  have tallied := @tally_settled db after task t f terminal found unsettled tasks row
  have total := total_modify found tasks row.1
  refine ⟨?_,valid.once.erase task,?_,?_,?_⟩
  · intro u member
    rw [tasks] at member
    rw [size]
    rcases Rows.mem_modify member with old | ⟨old,there,rfl⟩
    · exact valid.owned u old
    · rw [found] at there
      cases there
      rw [row.1]
      exact valid.owned t (List.mem_of_getElem? found)
  · intro i listed
    obtain ⟨different,before⟩ := (valid.once.mem_erase_iff).mp listed
    obtain ⟨u,there,status⟩ := valid.flying i before
    exact ⟨u,by rw [tasks,Rows.getElem?_modify_other (Ne.symm different),there],status⟩
  · intro i b there
    rw [batches,List.getElem?_modify] at there
    obtain ⟨old,was,rfl⟩ := Option.map_eq_some_iff.mp there
    have prior := valid.counted i old was
    by_cases mine : t.batchId = i
    · simp only [mine,if_true]
      have columns := congrArg Prod.fst (counts old)
      simp only [rowColumns,counters,Prod.mk.injEq] at columns
      refine ⟨?_,?_,?_,?_⟩
      · rw [columns.1,prior.total,total]
      · rw [columns.2.1,prior.completed,tallied i rfl]
        simp [mine]
      · rw [columns.2.2,prior.failed,tallied i rfl]
        simp [mine]
      · rw [columns.1]
        exact prior.nonempty
    · simp only [mine,if_false]
      refine prior.transport rfl (total i) fun status terminal_ => ?_
      rw [tallied i terminal_]
      simp [mine]
  · intro u member b there open_
    rw [tasks] at member
    rw [batches,List.getElem?_modify] at there
    obtain ⟨old,was,rfl⟩ := Option.map_eq_some_iff.mp there
    have opened : old.status = .inProgress := by
      split at open_
      · exact (congrArg Prod.snd (counts old)).symm.trans open_
      · exact open_
    rcases Rows.mem_modify member with before | ⟨before,at_,rfl⟩
    · exact valid.uncancelled u before old was opened
    · rw [found] at at_
      cases at_
      rw [row.2]
      intro cancelled
      rw [cancelled] at ended
      cases ended

-- Status changes by position that keep every settled task as it is.
theorem progress_moved {f : Nat → Task → Task} {flights : List TaskId}
    (valid : Progress db inFlight) (tasks : after.tasks = db.tasks.mapIdx f)
    (batches : after.batches.map counters = db.batches.map counters)
    (owner : ∀ i t, (f i t).batchId = t.batchId)
    (kept : ∀ i t, db.tasks[i]? = some t → settled t = true → (f i t).status = t.status)
    (unsettled : ∀ i t, db.tasks[i]? = some t → settled t = false → settled (f i t) = false)
    (once : flights.Nodup)
    (flying : ∀ i ∈ flights, ∃ t, after.tasks[i]? = some t ∧ (t.status = .running ∨ t.status = .cancelled))
    (uncancelled : ∀ t ∈ after.tasks, ∀ b, after.batches[t.batchId]? = some b → b.status = .inProgress →
      t.status ≠ .cancelled) : Progress after flights := by
  have statuses : ∀ i t, db.tasks[i]? = some t → ∀ status, settledStatus status = true →
      ((f i t).status = status ↔ t.status = status) := by
    intro i t found status terminal
    cases ended : settled t with
    | true => rw [kept i t found ended]
    | false =>
      have still := unsettled i t found ended
      constructor
      · intro is
        rw [settled,is,terminal] at still
        cases still
      · intro is
        rw [settled,is,terminal] at ended
        cases ended
  have counts := tally_same tasks owner statuses
  refine ⟨?_,once,flying,?_,uncancelled⟩
  · intro t member
    rw [tasks] at member
    obtain ⟨i,inside,rfl⟩ := List.mem_mapIdx.mp member
    rw [owner,← List.length_map (f := counters),batches,List.length_map]
    exact valid.owned _ (List.getElem_mem _)
  · intro i b there
    have listed : (after.batches.map counters)[i]? = some (counters b) := by simp [there]
    rw [batches,List.getElem?_map] at listed
    obtain ⟨old,was,same⟩ := Option.map_eq_some_iff.mp listed
    exact (valid.counted i old was).transport same.symm (counts i).1 (counts i).2

-- The tasks of a new batch are all there is of it, and they are pending.
theorem counted_added {lines : List BatchInput.ParsedLine} (owned : ∀ t ∈ db.tasks, t.batchId < db.batches.length)
    (some_line : lines ≠ []) (user : UserId) (inputFile : FileId) (endpoint window : PythonText.Str) (now : Instant) :
    Counted (addBatch db (newBatch user inputFile endpoint window lines now) lines) db.batches.length
      (newBatch user inputFile endpoint window lines now) := by
  have fresh : ∀ p : Task → Bool, (∀ t, p t = true → belongs db.batches.length t = true) →
      (db.tasks ++ lines.map (newTask db.batches.length)).countP p =
        (lines.map (newTask db.batches.length)).countP p := by
    intro p inside
    have none_old : db.tasks.countP p = 0 := by
      refine List.countP_eq_zero.mpr fun t member chosen => ?_
      exact Nat.ne_of_lt (owned t member) (eq_of_beq (inside t chosen))
    rw [List.countP_append,none_old,Nat.zero_add]
  have unsettled : ∀ status, status ≠ .pending →
      tally (addBatch db (newBatch user inputFile endpoint window lines now) lines) db.batches.length status = 0 := by
    intro status other
    refine (fresh _ fun t chosen => (Bool.and_eq_true_iff.mp chosen).1).trans (List.countP_eq_zero.mpr fun t member => ?_)
    obtain ⟨q,_,rfl⟩ := List.mem_map.mp member
    simp [newTask,Ne.symm other]
  refine ⟨?_,(unsettled .completed (by simp)).symm,(unsettled .failed (by simp)).symm,List.length_pos_iff.mpr some_line⟩
  refine Eq.trans ?_ (fresh _ fun _ mine => mine).symm
  rw [List.countP_eq_length.mpr]
  · simp [newBatch]
  · intro t member
    obtain ⟨q,_,rfl⟩ := List.mem_map.mp member
    simp [belongs,newTask]

theorem progress_added {lines : List BatchInput.ParsedLine} (valid : Progress db inFlight) (some_line : lines ≠ [])
    (user : UserId) (inputFile : FileId) (endpoint window : PythonText.Str) (now : Instant) :
    Progress (addBatch db (newBatch user inputFile endpoint window lines now) lines) inFlight := by
  have older : ∀ i < db.batches.length, ∀ p : Task → Bool, (∀ q, p (newTask db.batches.length q) = true → db.batches.length = i) →
      (db.tasks ++ lines.map (newTask db.batches.length)).countP p = db.tasks.countP p := by
    intro i inside p only
    have none_new : (lines.map (newTask db.batches.length)).countP p = 0 := by
      refine List.countP_eq_zero.mpr fun t member chosen => ?_
      obtain ⟨q,_,rfl⟩ := List.mem_map.mp member
      exact Nat.ne_of_gt inside (only q chosen)
    rw [List.countP_append,none_new,Nat.add_zero]
  refine ⟨?_,valid.once,?_,?_,?_⟩
  · intro t member
    simp only [addBatch,List.length_append,List.length_cons,List.length_nil]
    rcases List.mem_append.mp member with old | new
    · exact Nat.lt_succ_of_lt (valid.owned t old)
    · obtain ⟨q,_,rfl⟩ := List.mem_map.mp new
      exact Nat.lt_succ_self _
  · intro i listed
    obtain ⟨t,found,status⟩ := valid.flying i listed
    refine ⟨t,?_,status⟩
    rw [addBatch,List.getElem?_append_left (List.getElem?_eq_some_iff.mp found).choose,found]
  · intro i b there
    simp only [addBatch] at there
    rcases Nat.lt_or_ge i db.batches.length with inside | outside
    · rw [List.getElem?_append_left inside] at there
      refine (valid.counted i b there).transport rfl ?_ ?_
      · exact older i inside _ fun q mine => by simpa [belongs,newTask] using mine
      · intro status _
        exact older i inside _ fun q mine => by simpa [belongs,newTask] using (Bool.and_eq_true_iff.mp mine).1
    · rw [List.getElem?_append_right outside] at there
      have first : i = db.batches.length := by
        have bound : i - db.batches.length < 1 := (List.getElem?_eq_some_iff.mp there).choose
        exact Nat.le_antisymm (Nat.sub_eq_zero_iff_le.mp (Nat.lt_one_iff.mp bound)) outside
      subst first
      rw [List.mem_singleton.mp (List.mem_of_getElem? there)]
      exact counted_added valid.owned some_line user inputFile endpoint window now
  · intro t member b there open_
    simp only [addBatch] at there
    rcases List.mem_append.mp member with old | new
    · rw [List.getElem?_append_left (valid.owned t old)] at there
      exact valid.uncancelled t old b there open_
    · obtain ⟨q,_,rfl⟩ := List.mem_map.mp new
      simp [newTask]

-- A batch row that does not come back to IN_PROGRESS.
theorem progress_closed {g : Batch → Batch} {batch : BatchId} (valid : Progress db inFlight)
    (tasks : after.tasks = db.tasks) (batches : after.batches = db.batches.modify batch g)
    (same : ∀ b, counters (g b) = counters b) (closed : ∀ b, (g b).status = .inProgress → b.status = .inProgress) :
    Progress after inFlight := by
  refine ⟨by rw [tasks,batches,List.length_modify]; exact valid.owned,valid.once,by rw [tasks]; exact valid.flying,?_,?_⟩
  · intro i b there
    rw [batches,List.getElem?_modify] at there
    obtain ⟨old,was,rfl⟩ := Option.map_eq_some_iff.mp there
    refine (valid.counted i old was).transport ?_ (by rw [tasks]) (fun status _ => by rw [tally,tasks,tally])
    split
    · exact same old
    · rfl
  · intro t member b there open_
    rw [batches,List.getElem?_modify] at there
    obtain ⟨old,was,rfl⟩ := Option.map_eq_some_iff.mp there
    rw [tasks] at member
    refine valid.uncancelled t member old was ?_
    split at open_
    · exact closed old open_
    · exact open_

theorem progress_claimed (valid : Progress db inFlight) (load : Dispatcher.InFlight) (now : Instant) :
    Progress (Dispatcher.claimAndAssign load now db).1
      (inFlight ++ (Dispatcher.claimAndAssign load now db).2.map Dispatcher.Assignment.task) := by
  have assigned : ∀ i ∈ (Dispatcher.assignments load db).map Dispatcher.Assignment.task, ∃ t,
      db.tasks[i]? = some t ∧ t.status = .pending := by
    intro i listed
    obtain ⟨a,member,rfl⟩ := List.mem_map.mp listed
    obtain ⟨t,_,found,_,waiting,_⟩ := Dispatcher.assigned_eligible member
    exact ⟨t,found,waiting⟩
  have unsettled : ∀ {t : Task}, t.status = .running ∨ t.status = .cancelled → t.status ≠ .pending := by
    intro t status waiting
    rcases status with running | cancelled
    · rw [running] at waiting
      cases waiting
    · rw [cancelled] at waiting
      cases waiting
  refine progress_moved (f := Dispatcher.startTask (Dispatcher.assignments load db) now) valid rfl rfl ?_ ?_ ?_ ?_ ?_ ?_
  · intro i t
    rcases Dispatcher.startTask_cases (Dispatcher.assignments load db) now i t with same | ⟨node,same⟩
    · rw [same]
    · rw [same]
      rfl
  · intro i t found ended
    rcases Dispatcher.startTask_parts load now db found with ⟨_,same⟩ | ⟨_,waiting,_⟩
    · rw [same]
    · rw [settled,waiting] at ended
      cases ended
  · intro i t found open_
    rcases Dispatcher.startTask_parts load now db found with ⟨_,same⟩ | ⟨_,_,node,started⟩
    · rw [same]
      exact open_
    · rw [started]
      rfl
  · refine List.nodup_append.mpr ⟨valid.once,Dispatcher.assigned_distinct load db,?_⟩
    intro i flying j listed same
    subst same
    obtain ⟨t,found,waiting⟩ := assigned i listed
    obtain ⟨u,there,status⟩ := valid.flying i flying
    rw [found] at there
    cases there
    exact unsettled status waiting
  · intro i listed
    rcases List.mem_append.mp listed with before | new
    · obtain ⟨t,found,status⟩ := valid.flying i before
      rcases Dispatcher.startTasks_parts load now db found with ⟨_,same⟩ | ⟨_,_,node,started⟩
      · exact ⟨t,same,status⟩
      · exact ⟨_,started,.inl rfl⟩
    · obtain ⟨t,found,waiting⟩ := assigned i new
      rcases Dispatcher.startTasks_parts load now db found with ⟨absent,_⟩ | ⟨_,_,node,started⟩
      · exact absurd new absent
      · exact ⟨_,started,.inl rfl⟩
  · intro u member b owned open_
    obtain ⟨i,inside,rfl⟩ := List.mem_mapIdx.mp member
    have found := List.getElem?_eq_getElem inside
    rcases Dispatcher.startTask_parts load now db found with ⟨_,same⟩ | ⟨_,_,node,started⟩
    · rw [same] at owned ⊢
      exact valid.uncancelled _ (List.getElem_mem inside) b owned open_
    · rw [started]
      simp [Dispatcher.Task.start]

theorem progress_recovered (valid : Progress db inFlight) (nodes : List Dispatcher.NodeConfig) :
    Progress (Dispatcher.startup nodes db) [] := by
  refine progress_moved (f := fun _ => Dispatcher.Task.recover) valid ?_ rfl ?_ ?_ ?_ .nil ?_ ?_
  · exact Rows.map_eq_mapIdx Dispatcher.Task.recover db.tasks
  · intro i t
    unfold Dispatcher.Task.recover
    split <;> rfl
  · intro i t _ ended
    unfold Dispatcher.Task.recover
    split
    · rename_i running
      rw [settled,running] at ended
      cases ended
    · rfl
  · intro i t _ unsettled
    unfold Dispatcher.Task.recover
    split
    · rfl
    · exact unsettled
  · intro i listed
    cases listed
  · intro u member b owned open_
    obtain ⟨t,listed,rfl⟩ := List.mem_map.mp member
    have same : (Dispatcher.startup nodes db).batches = db.batches := rfl
    rw [same] at owned
    unfold Dispatcher.Task.recover at owned ⊢
    split
    · simp
    · rename_i idle
      rw [if_neg idle] at owned
      exact valid.uncancelled t listed b owned open_

theorem live_unsettled {t : Task} (live : t.live = true) : settled t = false := by
  unfold Task.live at live
  unfold settled
  cases status : t.status <;> simp [status,TaskStatus.live,settledStatus] at live ⊢

theorem progress_stopped {batch : BatchId} {terminal : BatchStatus} (valid : Progress db inFlight)
    (ended : terminal = .cancelled ∨ terminal = .expired) (now : Instant) :
    Progress (stopped (tasksToStop db batch) batch terminal now db) inFlight := by
  have closed : ∀ b, (Batch.terminate terminal now b).status ≠ .inProgress := by
    intro b
    rcases ended with rfl | rfl <;> simp [Batch.terminate]
  have tasks : (stopped (tasksToStop db batch) batch terminal now db).tasks =
      db.tasks.map (fun t => if t.batchId == batch && t.live then Task.cancel now t else t) := stopTasks_live db batch now
  refine progress_moved (f := fun _ t => if t.batchId == batch && t.live then Task.cancel now t else t)
    valid ?_ ?_ ?_ ?_ ?_ valid.once ?_ ?_
  · exact tasks.trans (Rows.map_eq_mapIdx _ _)
  · exact Rows.map_modify_same fun b => by cases terminal <;> rfl
  · intro i t
    split <;> rfl
  · intro i t _ done
    split
    · rename_i chosen
      rw [live_unsettled (Bool.and_eq_true_iff.mp chosen).2] at done
      cases done
    · rfl
  · intro i t _ unsettled
    split
    · rfl
    · exact unsettled
  · intro i listed
    obtain ⟨t,found,status⟩ := valid.flying i listed
    refine ⟨_,by rw [tasks,List.getElem?_map,found,Option.map_some],?_⟩
    split
    · exact .inr rfl
    · exact status
  · intro u member b owned open_
    rw [tasks] at member
    obtain ⟨t,listed,rfl⟩ := List.mem_map.mp member
    have batch_row : (stopped (tasksToStop db batch) batch terminal now db).batches =
        db.batches.modify batch (Batch.terminate terminal now) := rfl
    have named : (if (t.batchId == batch && t.live) = true then Task.cancel now t else t).batchId = t.batchId := by
      split <;> rfl
    rw [named,batch_row,List.getElem?_modify] at owned
    obtain ⟨old,was,rfl⟩ := Option.map_eq_some_iff.mp owned
    by_cases mine : batch = t.batchId
    · simp only [mine,if_true] at open_
      exact absurd open_ (closed old)
    · have other : (t.batchId == batch && t.live) = false := by simp [Ne.symm mine]
      simp only [mine,if_false] at open_
      simp only [other]
      exact valid.uncancelled t listed old was open_

-- The budget row and the ledger are beside the point.
theorem Progress.posted (valid : Progress db inFlight) (user : UserId) (row : Budget) (entry : LedgerEntry) :
    Progress (Ledger.post db user row entry) inFlight := valid.transport rfl rfl

theorem progress_completed {alpha : ℚ} {task : TaskId} {responseBody : PythonJson.Json}
    {promptTokens completionTokens : Int} {now : Instant} (valid : Progress db inFlight) (flying : task ∈ inFlight)
    (done : commitCompleted codec alpha task responseBody promptTokens completionTokens now db = .ok after) :
    Progress after (inFlight.erase task) := by
  obtain ⟨t,b,stat,_,_,found,_,_,_,_,_,rfl⟩ := commitCompleted_parts done
  exact progress_settled .completed valid flying found rfl rfl rfl ⟨rfl,rfl⟩ fun _ => rfl

theorem progress_failed {task : TaskId} {error : PythonText.Str} {now : Instant} (valid : Progress db inFlight)
    (flying : task ∈ inFlight) (done : commitFailed task error now db = .ok after) :
    Progress after (inFlight.erase task) := by
  obtain ⟨t,b,found,_,⟨_,rfl⟩ | ⟨_,_,_,_,_,rfl⟩⟩ := commitFailed_parts done
  · exact progress_settled .failed valid flying found rfl rfl rfl ⟨rfl,rfl⟩ fun _ => rfl
  · exact progress_settled .failed valid flying found rfl rfl rfl ⟨rfl,rfl⟩ fun _ => rfl

theorem progress_finalized (codec : PythonJson.Codec) (valid : Progress db inFlight) (task : TaskId) (now : Instant)
    (blobs : Blobs) : Progress (finalizeAfter codec task now db blobs).1 inFlight := by
  rcases finalizeAfter_parts codec task now db blobs with same | ⟨t,b,_,_,_,same⟩
  · rw [same]
    exact valid
  · rw [same]
    exact progress_closed valid rfl rfl (fun _ => rfl) (fun _ open_ => by cases open_)

theorem progress_terminated {batch : BatchId} {user : UserId} {terminal : BatchStatus} {note : String} {now : Instant}
    (valid : Progress db inFlight) (ended : terminal = .cancelled ∨ terminal = .expired)
    (done : terminateBatch user batch terminal note now db = .ok after) : Progress after inFlight := by
  rcases terminateSelected_parts done with ⟨_,rfl⟩ | ⟨_,_,_,_,_,rfl⟩
  · exact progress_stopped valid ended now
  · exact (progress_stopped valid ended now).posted _ _ _

theorem created_lines {lines : List BatchInput.ParsedLine} (positive : 0 < totalReserve lines) : lines ≠ [] := by
  rintro rfl
  cases positive

variable {codec : PythonJson.Codec} {alpha : ℚ} {s t : Service} {op : Operation}

theorem step_progress (valid : Progress s.db s.inFlight) (step : Step codec alpha s op t) :
    Progress t.db t.inFlight := by
  cases op with
  | grant =>
    obtain ⟨_,rfl⟩ := grant_posts step
    exact valid.posted _ _ _
  | createBatch user inputFile endpoint window lines now =>
    obtain ⟨db,created,rfl⟩ := create_step step
    obtain ⟨_,positive,_,_,_,rfl⟩ := createBatch_parts created
    exact (progress_added valid (created_lines positive) user inputFile endpoint window now).posted _ _ _
  | claimAndAssign load now =>
    cases step
    exact progress_claimed valid load now
  | completeTask task responseBody promptTokens completionTokens now =>
    obtain ⟨flying,db,committed,rfl⟩ := complete_step step
    exact progress_finalized codec (progress_completed valid flying committed) task now s.blobs
  | failTask task error now =>
    obtain ⟨flying,db,committed,rfl⟩ := fail_step step
    exact progress_finalized codec (progress_failed valid flying committed) task now s.blobs
  | cancelBatch =>
    obtain ⟨b,db,_,_,_,done,rfl⟩ := cancel_step step
    exact progress_terminated valid (.inl rfl) done
  | expireBatch =>
    obtain ⟨b,db,_,_,done,rfl⟩ := expire_step step
    exact progress_terminated valid (.inr rfl) done
  | purgeExpiredResults retentionDays now =>
    obtain ⟨_,_,tasks,_⟩ := purge_step step
    cases step
    exact valid.transport tasks (Retention.purgeAll_column rowColumns now (fun _ => rfl) _ s.db s.blobs)
  | startup nodes =>
    cases step
    exact progress_recovered valid nodes
  | uploadFile => cases step; exact valid.transport rfl rfl
  | applyHealthResults => cases step; exact valid.transport rfl rfl

theorem initial_progress : Progress ({} : Db) [] := by
  refine ⟨?_,.nil,?_,?_,?_⟩
  · intro t member
    cases member
  · intro i listed
    cases listed
  · intro i b found
    cases found
  · intro t member
    cases member

theorem run_progress {operations : List Operation} (path : Run (Step codec alpha) {} operations s) :
    Progress s.db s.inFlight :=
  path.preserves (I := fun s => Progress s.db s.inFlight) initial_progress fun _ _ _ => step_progress

end BatchGateway.Counters
