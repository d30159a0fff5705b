import BatchGateway.JsonText
import BatchGateway.Sessions

-- A claim pass at the granularity of its two reads and its commit, while the
-- sessions of requests, settlements and the retention job go on.
namespace BatchGateway.ClaimRaces
open PythonText PythonJson BatchOps Dispatcher Sessions LabelledRuns
open Service (Operation nodeWith submitShort)

-- A selected task with the node chosen for it and the session's copy of its row.
structure Chosen where
  assignment : Assignment
  copy : Task

inductive Claim where
  | idle
  | nodesRead (load : InFlight) (nodes : List Node)
  | selected (chosen : List Chosen)

def Claim.chosen : Claim → List Chosen
  | .selected chosen => chosen
  | _ => []

-- One dispatcher: a pass starts only when the one before it is over.
structure Floor where
  world : World := {}
  claim : Claim := .idle

def Floor.db (f : Floor) : Db := f.world.service.db
def Floor.inFlight (f : Floor) : List TaskId := f.world.service.inFlight

inductive Action where
  | session (a : Sessions.Action)
  | readNodes (load : InFlight)
  | selectEligible
  | commit (now : Instant)
  | abort

-- The SELECT of the eligible tasks and the choice of their nodes, from the nodes
-- that the pass has read before.
def selection (load : InFlight) (nodes : List Node) (db : Db) : List Chosen :=
  (assignments load {db with nodes := nodes}).filterMap (fun a => db.tasks[a.task]?.map (Chosen.mk a))

-- The UPDATE of a selected row writes `attempts` from the session's copy.
def Chosen.write (now : Instant) (c : Chosen) (t : Task) : Task :=
  {t with
    status := .running
    nodeName := some c.assignment.nodeName
    startedAt := some now
    attempts := c.copy.attempts + 1}

def startChosen (chosen : List Chosen) (now : Instant) (i : TaskId) (t : Task) : Task :=
  match chosen.find? (fun c => c.assignment.task == i) with
  | some c => c.write now t
  | none => t

def committed (chosen : List Chosen) (now : Instant) (s : Service) : Service :=
  {s with
    db := {s.db with tasks := s.db.tasks.mapIdx (startChosen chosen now)}
    inFlight := s.inFlight ++ chosen.map (fun c => c.assignment.task)}

-- The whole pass of Service is not used here: its steps are below.
def wholePass : Sessions.Action → Bool
  | .operation (.claimAndAssign _ _) => true
  | _ => false

def claimAfter : Sessions.Action → Claim → Claim
  | .restart _, _ => .idle
  | _, claim => claim

variable (codec : Codec) (alpha : ℚ)

def advance : Action → Floor → Option Floor
  | .session a, f =>
    if wholePass a then none
    else (Sessions.advance codec alpha a f.world).map (fun w => ⟨w,claimAfter a f.claim⟩)
  | .readNodes load, f => match f.claim with
    | .idle => some {f with claim := .nodesRead load (healthyNodes f.db)}
    | _ => none
  | .selectEligible, f => match f.claim with
    | .nodesRead load nodes => some {f with claim := .selected (selection load nodes f.db)}
    | _ => none
  | .commit now, f => match f.claim with
    | .selected chosen => some ⟨{f.world with service := committed chosen now f.world.service},.idle⟩
    | _ => none
  | .abort, f => some {f with claim := .idle}

def Step (f : Floor) (a : Action) (g : Floor) : Prop := advance codec alpha a f = some g

-- A pass commits only while the batches of the tasks it has selected are still
-- in progress in the committed table.
def Unstopped (f : Floor) : Action → Prop
  | .commit _ => ∀ c ∈ f.claim.chosen, (f.db.batches[c.copy.batchId]?).map Batch.status = some .inProgress
  | _ => True

instance (f : Floor) : (a : Action) → Decidable (Unstopped f a)
  | .commit _ => inferInstanceAs (Decidable (∀ c ∈ f.claim.chosen, _))
  | .session _ | .readNodes _ | .selectEligible | .abort => .isTrue trivial

def Stopped (db : Db) (i : BatchId) : Prop :=
  ∃ b, db.batches[i]? = some b ∧ (b.status = .cancelled ∨ b.status = .expired)

-- No task of the batch is pending or running, and none will be selected.
structure Quiet (db : Db) (i : BatchId) : Prop where
  closed : ∃ b, db.batches[i]? = some b ∧ b.status ≠ .inProgress
  still : ∀ t ∈ db.tasks, t.batchId = i → t.live = false

-- What the steps of a run do to the tables: no row comes back to life, no batch
-- is reopened, and new rows belong to new batches.
structure Calmer (before after : Db) : Prop where
  batches : ∀ (i : BatchId) b, before.batches[i]? = some b →
    ∃ c, after.batches[i]? = some c ∧ (c.status = .inProgress → b.status = .inProgress)
  tasks : ∀ (i : TaskId) t, before.tasks[i]? = some t → ∃ u, after.tasks[i]? = some u ∧ u.batchId = t.batchId ∧
    (u.live = true → t.live = true) ∧ (u.status = .pending → t.status = .pending)
  fresh : ∀ (i : TaskId) u, after.tasks[i]? = some u → before.tasks.length ≤ i →
    before.batches.length ≤ u.batchId ∧ u.batchId < after.batches.length

-- A pending row stays pending as long as its batch is in progress.
def Waits (before after : Db) : Prop :=
  ∀ (i : TaskId) t, before.tasks[i]? = some t → t.status = .pending → ∃ u, after.tasks[i]? = some u ∧
    (u.status = .pending ∨ ∀ c, after.batches[t.batchId]? = some c → c.status ≠ .inProgress)

-- What a session still relies on of the rows it has read.
def Covers (db : Db) : Session → Prop
  | .cancelling batch _ => batch < db.batches.length
  | .expiring rows => ∀ row ∈ rows, row.2 < db.batches.length
  | .terminating t rest => t.batch < db.batches.length ∧ (t.terminal = .cancelled ∨ t.terminal = .expired) ∧
      (∀ i ∈ t.rows.map Prod.snd, ∃ row, db.tasks[i]? = some row ∧ row.batchId = t.batch) ∧
      (∀ (i : TaskId) row, db.tasks[i]? = some row → row.batchId = t.batch → row.live = true →
        i ∈ t.rows.map Prod.snd) ∧
      ∀ row ∈ rest, row.2 < db.batches.length
  | .settled _ _ _ _ | .closed => True

structure Calm (f : Floor) : Prop where
  owned : ∀ t ∈ f.db.tasks, t.batchId < f.db.batches.length
  flying : ∀ i ∈ f.inFlight, ∃ t, f.db.tasks[i]? = some t ∧ t.status ≠ .pending
  sessions : ∀ session ∈ f.world.sessions, Covers f.db session
  -- a selected row is pending until its batch is stopped
  chosen : ∀ c ∈ f.claim.chosen, ∃ t b, f.db.tasks[c.assignment.task]? = some t ∧ t.batchId = c.copy.batchId ∧
    f.db.batches[t.batchId]? = some b ∧ (b.status = .inProgress → t.status = .pending)
  stopped : ∀ i, Stopped f.db i → Quiet f.db i

variable {codec alpha} {f g : Floor} {w x : World} {db before after : Db}

theorem Calmer.refl (db : Db) : Calmer db db :=
  ⟨fun _ b found => ⟨b,found,fun open_ => open_⟩,fun _ t found => ⟨t,found,rfl,fun live => live,fun waiting => waiting⟩,
    fun _ _ found far => absurd (List.getElem?_eq_some_iff.mp found).choose (Nat.not_lt.mpr far)⟩

theorem Waits.refl (db : Db) : Waits db db := fun _ t found waiting => ⟨t,found,.inl waiting⟩

theorem Calmer.grows (calmer : Calmer before after) : before.batches.length ≤ after.batches.length := by
  by_contra short
  have inside : after.batches.length < before.batches.length := Nat.not_le.mp short
  obtain ⟨c,found,_⟩ := calmer.batches _ _ (List.getElem?_eq_getElem inside)
  exact absurd (List.getElem?_eq_some_iff.mp found).choose (Nat.lt_irrefl _)

-- The row a later row stems from.
theorem Calmer.origin (calmer : Calmer before after) {i : TaskId} {u : Task} (found : after.tasks[i]? = some u) :
    (∃ t, before.tasks[i]? = some t ∧ u.batchId = t.batchId ∧ (u.live = true → t.live = true)) ∨
    (before.batches.length ≤ u.batchId ∧ u.batchId < after.batches.length) := by
  rcases Nat.lt_or_ge i before.tasks.length with inside | outside
  · obtain ⟨v,there,batch,live,_⟩ := calmer.tasks i _ (List.getElem?_eq_getElem inside)
    cases found.symm.trans there
    exact .inl ⟨_,List.getElem?_eq_getElem inside,batch,live⟩
  · exact .inr (calmer.fresh i u found outside)

theorem owned_kept (calmer : Calmer before after) (owned : ∀ t ∈ before.tasks, t.batchId < before.batches.length) :
    ∀ t ∈ after.tasks, t.batchId < after.batches.length := by
  intro u member
  obtain ⟨i,found⟩ := List.mem_iff_getElem?.mp member
  rcases calmer.origin found with ⟨t,there,batch,_⟩ | ⟨_,inside⟩
  · rw [batch]
    exact Nat.lt_of_lt_of_le (owned t (List.mem_of_getElem? there)) calmer.grows
  · exact inside

theorem quiet_kept {i : BatchId} (calmer : Calmer before after) (quiet : Quiet before i) : Quiet after i := by
  obtain ⟨⟨b,found,closed⟩,still⟩ := quiet
  obtain ⟨c,there,open_⟩ := calmer.batches i b found
  refine ⟨⟨c,there,fun again => closed (open_ again)⟩,fun u member mine => ?_⟩
  obtain ⟨j,listed⟩ := List.mem_iff_getElem?.mp member
  rcases calmer.origin listed with ⟨t,was,batch,live⟩ | ⟨new,_⟩
  · cases alive : u.live with
    | false => rfl
    | true =>
      have before_ := still t (List.mem_of_getElem? was) (batch.symm.trans mine)
      rw [live alive] at before_
      cases before_
  · rw [mine] at new
    exact absurd (List.getElem?_eq_some_iff.mp found).choose (Nat.not_lt.mpr new)

theorem covers_kept {session : Session} (calmer : Calmer before after) (covers : Covers before session) :
    Covers after session := by
  have grows := calmer.grows
  cases session with
  | settled => trivial
  | closed => trivial
  | cancelling batch copy => exact Nat.lt_of_lt_of_le covers grows
  | expiring rows => exact fun row member => Nat.lt_of_lt_of_le (covers row member) grows
  | terminating t rest =>
    obtain ⟨inside,terminal,mine,all,later⟩ := covers
    refine ⟨Nat.lt_of_lt_of_le inside grows,terminal,fun i member => ?_,fun i row found batch live => ?_,
      fun row member => Nat.lt_of_lt_of_le (later row member) grows⟩
    · obtain ⟨row,found,batch⟩ := mine i member
      obtain ⟨u,there,same,_⟩ := calmer.tasks i row found
      exact ⟨u,there,same.trans batch⟩
    · rcases calmer.origin found with ⟨old,was,same,alive⟩ | ⟨new,_⟩
      · exact all i old was (same.symm.trans batch) (alive live)
      · rw [batch] at new
        exact absurd inside (Nat.not_lt.mpr new)

-- Tables that keep their rows, each changed by its own function.
theorem calmer_moved {f : TaskId → Task → Task} {g : BatchId → Batch → Batch}
    (tasks : ∀ i, after.tasks[i]? = (before.tasks[i]?).map (f i))
    (batches : ∀ i, after.batches[i]? = (before.batches[i]?).map (g i))
    (rows : ∀ i t, before.tasks[i]? = some t → (f i t).batchId = t.batchId ∧ ((f i t).live = true → t.live = true) ∧
      ((f i t).status = .pending → t.status = .pending))
    (status : ∀ i b, before.batches[i]? = some b → (g i b).status = .inProgress → b.status = .inProgress) :
    Calmer before after := by
  refine ⟨fun i b found => ⟨g i b,by rw [batches,found]; rfl,status i b found⟩,
    fun i t found => ⟨f i t,by rw [tasks,found]; rfl,rows i t found⟩,fun i u found far => ?_⟩
  rw [tasks,List.getElem?_eq_none far] at found
  cases found

theorem calmer_added {new : List Task} {b : Batch} (tasks : after.tasks = before.tasks ++ new)
    (batches : after.batches = before.batches ++ [b]) (mine : ∀ t ∈ new, t.batchId = before.batches.length) :
    Calmer before after ∧ Waits before after := by
  have kept : ∀ (i : TaskId) t, before.tasks[i]? = some t → after.tasks[i]? = some t := by
    intro i t found
    rw [tasks,List.getElem?_append_left (List.getElem?_eq_some_iff.mp found).choose,found]
  refine ⟨⟨fun i c found => ⟨c,?_,fun open_ => open_⟩,
    fun i t found => ⟨t,kept i t found,rfl,fun live => live,fun waiting => waiting⟩,fun i u found far => ?_⟩,
    fun i t found waiting => ⟨t,kept i t found,.inl waiting⟩⟩
  · rw [batches,List.getElem?_append_left (List.getElem?_eq_some_iff.mp found).choose,found]
  · rw [tasks,List.getElem?_append_right far] at found
    have batch := mine u (List.mem_of_getElem? found)
    rw [batches,batch]
    exact ⟨Nat.le_refl _,by simp⟩

theorem terminated_rows {t : Termination} (done : t.commit before = .ok after) :
    (∀ i, after.tasks[i]? = (before.tasks[i]?).map (fun row =>
      if i ∈ t.rows.map Prod.snd then Task.cancel t.now row else row)) ∧
    after.batches = before.batches.modify t.batch (Batch.terminate t.terminal t.now) := by
  have tables : after.tasks = stopTasks (t.rows.map Prod.snd) t.now before.tasks ∧
      after.batches = before.batches.modify t.batch (Batch.terminate t.terminal t.now) := by
    rcases terminateSelected_parts done with ⟨_,rfl⟩ | ⟨_,_,_,_,_,rfl⟩
    · exact ⟨rfl,rfl⟩
    · exact ⟨rfl,rfl⟩
  refine ⟨fun i => ?_,tables.2⟩
  rw [tables.1,stopTasks,List.getElem?_mapIdx]

theorem terminate_status {terminal : BatchStatus} (kind : terminal = .cancelled ∨ terminal = .expired) (now : Instant)
    (b : Batch) : (Batch.terminate terminal now b).status = terminal := by
  rcases kind with rfl | rfl
  · rfl
  · rfl

theorem modified_rows {α : Type} (rows : List α) (k : Nat) (h : α → α) (i : Nat) :
    (rows.modify k h)[i]? = (rows[i]?).map (fun row => if k = i then h row else row) := by
  rw [List.getElem?_modify]
  rfl

-- A termination whose SELECT is still covered: every row it stops is its batch's.
theorem calmer_terminated {t : Termination} {rest : List (Batch × BatchId)}
    (covers : Covers before (.terminating t rest)) (done : t.commit before = .ok after) :
    Calmer before after ∧ Waits before after ∧ Quiet after t.batch := by
  obtain ⟨tasks,batches⟩ := terminated_rows done
  obtain ⟨inside,kind,mine,all,_⟩ := covers
  have closes : ∀ b, (Batch.terminate t.terminal t.now b).status ≠ .inProgress := by
    intro b
    rw [terminate_status kind]
    rcases kind with same | same
    · simp [same]
    · simp [same]
  have calmer : Calmer before after := by
    refine calmer_moved tasks (fun i => by rw [batches]; exact modified_rows _ _ _ i) (fun i row _ => ?_) (fun i b _ => ?_)
    · split
      · exact ⟨rfl,fun live => (by cases live),fun waiting => (by cases waiting)⟩
      · exact ⟨rfl,fun live => live,fun waiting => waiting⟩
    · split
      · exact fun open_ => absurd open_ (closes b)
      · exact fun open_ => open_
  have closed : ∀ c, after.batches[t.batch]? = some c → c.status ≠ .inProgress := by
    intro c found
    rw [batches,List.getElem?_modify] at found
    obtain ⟨b,_,rfl⟩ := Option.map_eq_some_iff.mp found
    simpa using closes b
  refine ⟨calmer,fun i row found waiting => ?_,?_,fun u member batch => ?_⟩
  · obtain ⟨u,there,_⟩ := calmer.tasks i row found
    refine ⟨u,there,?_⟩
    by_cases stopped : i ∈ t.rows.map Prod.snd
    · obtain ⟨same,here,batch⟩ := mine i stopped
      cases found.symm.trans here
      exact .inr (batch ▸ closed)
    · rw [tasks,found,Option.map_some,if_neg stopped] at there
      cases there
      exact .inl waiting
  · obtain ⟨c,found,_⟩ := calmer.batches t.batch _ (List.getElem?_eq_getElem inside)
    exact ⟨c,found,closed c found⟩
  · obtain ⟨i,found⟩ := List.mem_iff_getElem?.mp member
    rw [tasks] at found
    obtain ⟨row,was,rfl⟩ := Option.map_eq_some_iff.mp found
    by_cases stopped : i ∈ t.rows.map Prod.snd
    · rw [if_pos stopped]
      rfl
    · rw [if_neg stopped] at batch ⊢
      cases live : row.live with
      | false => rfl
      | true => exact absurd (all i row was batch live) stopped

-- The operations with one commit, whole passes apart.
theorem operation_calmer {s t : Service} {op : Operation} (single : oneCommit op = true)
    (other : wholePass (.operation op) = false) (step : Service.Step codec alpha s op t) :
    Calmer s.db t.db ∧ Waits s.db t.db ∧ t.inFlight = s.inFlight := by
  have same : ∀ {u : Service}, u.db.tasks = s.db.tasks → u.db.batches = s.db.batches → u.inFlight = s.inFlight →
      Calmer s.db u.db ∧ Waits s.db u.db ∧ u.inFlight = s.inFlight := by
    intro u tasks batches flights
    refine ⟨⟨fun i b found => ⟨b,batches ▸ found,fun open_ => open_⟩,
      fun i row found => ⟨row,tasks ▸ found,rfl,fun live => live,fun waiting => waiting⟩,fun i row found far => ?_⟩,
      fun i row found waiting => ⟨row,tasks ▸ found,.inl waiting⟩,flights⟩
    rw [tasks,List.getElem?_eq_none far] at found
    cases found
  cases op with
  | grant =>
    obtain ⟨_,rfl⟩ := Service.grant_posts step
    exact same rfl rfl rfl
  | createBatch user inputFile endpoint window lines now =>
    obtain ⟨db,created,rfl⟩ := Service.create_step step
    obtain ⟨_,_,_,_,_,rfl⟩ := createBatch_parts created
    have added : Calmer s.db (addBatch s.db (newBatch user inputFile endpoint window lines now) lines) ∧ Waits s.db _ :=
      calmer_added rfl rfl (fun t member => by obtain ⟨p,_,rfl⟩ := List.mem_map.mp member; rfl)
    exact ⟨⟨added.1.batches,added.1.tasks,added.1.fresh⟩,added.2,rfl⟩
  | uploadFile => cases step; exact same rfl rfl rfl
  | applyHealthResults => cases step; exact same rfl rfl rfl
  | claimAndAssign => cases other
  | completeTask => cases single
  | failTask => cases single
  | cancelBatch => cases single
  | expireBatch => cases single
  | purgeExpiredResults => cases single
  | startup => cases single

theorem settled_calmer {task : TaskId} {sink : Sink} {now : Instant} (done : sink.commit codec alpha task now before = .ok after)
    (flying : ∃ t, before.tasks[task]? = some t ∧ t.status ≠ .pending) : Calmer before after ∧ Waits before after := by
  obtain ⟨t,found,tasks,batches,_⟩ := commit_parts done
  have ends : ∀ row, (sink.settle now row).live = false := by
    intro row
    cases sink with
    | complete => rfl
    | fail => rfl
  have rows := fun i => (congrArg (fun rows => rows[i]?) tasks).trans (modified_rows before.tasks task (sink.settle now) i)
  refine ⟨calmer_moved rows (fun i => by rw [batches]; exact modified_rows _ _ _ i) (fun i row _ => ?_) (fun i b _ => ?_),
    fun i row there waiting => ?_⟩
  · split
    · refine ⟨settle_owner now sink row,fun live => ?_,fun waiting => ?_⟩
      · rw [ends row] at live
        cases live
      · have dead := ends row
        rw [Task.live,waiting] at dead
        cases dead
    · exact ⟨rfl,fun live => live,fun waiting => waiting⟩
  · split
    · rw [count_status]
      exact fun open_ => open_
    · exact fun open_ => open_
  · -- the settled task is in flight, so it is not the pending one
    have different : task ≠ i := by
      rintro rfl
      obtain ⟨same,here,running⟩ := flying
      cases there.symm.trans here
      exact running waiting
    refine ⟨row,?_,.inl waiting⟩
    rw [rows,there]
    simp [different]

theorem finished_calmer {batch : BatchId} {output : FileId} {errors : Option FileId} {now : Instant}
    (tasks : after.tasks = before.tasks)
    (batches : after.batches = before.batches.modify batch (Batch.finish output errors now)) :
    Calmer before after ∧ Waits before after := by
  refine ⟨calmer_moved (f := fun _ t => t) (fun i => by rw [tasks,Option.map_id']) (fun i => by
    rw [batches]; exact modified_rows _ _ _ i) (fun _ _ _ => ⟨rfl,fun live => live,fun waiting => waiting⟩)
    (fun i b _ => ?_),fun i row found waiting => ⟨row,tasks ▸ found,.inl waiting⟩⟩
  split
  · exact fun open_ => by cases open_
  · exact fun open_ => open_

-- The steps of the sessions; a new process is the one step left out.
theorem world_calmer {a : Sessions.Action} (flying : ∀ i ∈ w.service.inFlight, ∃ t, w.service.db.tasks[i]? = some t ∧
    t.status ≠ .pending) (covers : ∀ session ∈ w.sessions, Covers w.service.db session)
    (step : Sessions.Step codec alpha w a x) (other : wholePass a = false) (running : ∀ nodes, a ≠ .restart nodes) :
    Calmer w.service.db x.service.db ∧ Waits w.service.db x.service.db ∧
      x.service.inFlight.Sublist w.service.inFlight := by
  cases a with
  | operation op =>
    obtain ⟨single,s,done,rfl⟩ := operation_step step
    obtain ⟨calmer,waits,flights⟩ := operation_calmer single other done
    exact ⟨calmer,waits,flights ▸ List.Sublist.refl _⟩
  | settle task sink now =>
    obtain ⟨listed,db,own,copy,done,_,_,rfl⟩ := settle_step step
    obtain ⟨calmer,waits⟩ := settled_calmer done (flying task listed)
    exact ⟨calmer,waits,List.erase_sublist⟩
  | finalize id now =>
    obtain ⟨task,own,batch,copy,_,_,⟨_,same⟩ | ⟨_,final,service,rfl⟩⟩ := finalize_step step
    · rw [same]
      exact ⟨Calmer.refl _,Waits.refl _,List.Sublist.refl _⟩
    · rw [service]
      have finished : Calmer w.service.db (finalizeRows codec copy (sessionRows task own batch w.service.db) batch now
        w.service.db w.service.blobs).1 ∧ Waits w.service.db _ := finished_calmer rfl rfl
      exact ⟨finished.1,finished.2,List.Sublist.refl _⟩
  | terminate id =>
    obtain ⟨t,rest,db,found,done,rfl⟩ := terminate_step step
    obtain ⟨calmer,waits,_⟩ := calmer_terminated (covers _ (List.mem_of_getElem? found)) done
    exact ⟨calmer,waits,List.Sublist.refl _⟩
  | readBatch user batch =>
    obtain ⟨copy,_,_,rfl⟩ := readBatch_step step
    exact ⟨Calmer.refl _,Waits.refl _,List.Sublist.refl _⟩
  | selectTasks id now =>
    obtain ⟨session,selected,_,_,rfl⟩ := selectTasks_step step
    exact ⟨Calmer.refl _,Waits.refl _,List.Sublist.refl _⟩
  | readOverdue now => cases step; exact ⟨Calmer.refl _,Waits.refl _,List.Sublist.refl _⟩
  | lose task => cases step; exact ⟨Calmer.refl _,Waits.refl _,List.erase_sublist⟩
  | abandon id => cases step; exact ⟨Calmer.refl _,Waits.refl _,List.Sublist.refl _⟩
  | restart nodes => exact absurd rfl (running nodes)

theorem covers_selected {t : Termination} {rest : List (Batch × BatchId)} (inside : t.batch < db.batches.length)
    (rows : t.rows = tasksToStop db t.batch) (kind : t.terminal = .cancelled ∨ t.terminal = .expired)
    (later : ∀ row ∈ rest, row.2 < db.batches.length) : Covers db (.terminating t rest) := by
  have listed : ∀ i, i ∈ t.rows.map Prod.snd ↔ ∃ row, db.tasks[i]? = some row ∧ (row.batchId == t.batch && row.live) = true := by
    intro i
    rw [rows]
    exact Rows.mem_selected (p := fun row : Task => row.batchId == t.batch && row.live)
  refine ⟨inside,kind,fun i member => ?_,fun i row found batch live => ?_,later⟩
  · obtain ⟨row,found,chosen⟩ := (listed i).mp member
    exact ⟨row,found,eq_of_beq (Bool.and_eq_true_iff.mp chosen).1⟩
  · exact (listed i).mpr ⟨row,found,by simp [batch,live]⟩

theorem session_covers {a : Sessions.Action} (calmer : Calmer w.service.db x.service.db)
    (covers : ∀ session ∈ w.sessions, Covers w.service.db session) (step : Sessions.Step codec alpha w a x) :
    ∀ session ∈ x.sessions, Covers x.service.db session := by
  have kept : ∀ session ∈ w.sessions, Covers x.service.db session :=
    fun session member => covers_kept calmer (covers session member)
  have added : ∀ new : Session, Covers x.service.db new → ∀ session ∈ w.sessions ++ [new], Covers x.service.db session := by
    intro new here session member
    rcases List.mem_append.mp member with old | last
    · exact kept session old
    · exact List.mem_singleton.mp last ▸ here
  have changed : ∀ (id : Nat) (new : Session), Covers x.service.db new →
      ∀ session ∈ w.sessions.set id new, Covers x.service.db session := by
    intro id new here session member
    rcases List.mem_or_eq_of_mem_set member with old | rfl
    · exact kept session old
    · exact here
  cases a with
  | operation op =>
    obtain ⟨_,s,_,rfl⟩ := operation_step step
    exact kept
  | settle task sink now =>
    obtain ⟨_,db,own,copy,_,_,_,rfl⟩ := settle_step step
    exact added _ trivial
  | finalize id now =>
    obtain ⟨_,_,_,_,_,sessions,_⟩ := finalize_step step
    rw [sessions]
    exact changed id _ trivial
  | readBatch user batch =>
    obtain ⟨copy,found,_,rfl⟩ := readBatch_step step
    exact added _ (List.getElem?_eq_some_iff.mp found).choose
  | readOverdue now =>
    cases step
    refine added _ fun row member => ?_
    have there := List.mk_mem_zipIdx_iff_getElem?.mp (List.mem_of_mem_filter member)
    exact (List.getElem?_eq_some_iff.mp there).choose
  | selectTasks id now =>
    obtain ⟨session,selected,found,begun,rfl⟩ := selectTasks_step step
    have before := covers session (List.mem_of_getElem? found)
    obtain ⟨t,rest,rfl,_,rows,⟨rfl,terminal,rfl⟩ | ⟨rfl,_,terminal⟩⟩ := beginTermination_parts begun
    · exact changed id _ (covers_selected before rows (.inl terminal) (by simp))
    · exact changed id _ (covers_selected (before _ (List.mem_cons_self ..)) rows (.inr terminal)
        fun row member => before row (List.mem_cons_of_mem _ member))
  | terminate id =>
    obtain ⟨t,rest,db,found,_,rfl⟩ := terminate_step step
    obtain ⟨_,_,_,_,later⟩ := covers_kept calmer (covers _ (List.mem_of_getElem? found))
    cases rest with
    | nil => exact changed id _ trivial
    | cons row rest => exact changed id _ later
  | lose task => cases step; exact kept
  | abandon id => cases step; exact changed id _ trivial
  | restart nodes => cases step; exact fun session member => by cases member

def Halted (b : Batch) : Prop := b.status = .cancelled ∨ b.status = .expired

theorem stopped_moved {h : BatchId → Batch → Batch} {i : BatchId}
    (batches : ∀ i, after.batches[i]? = (before.batches[i]?).map (h i)) (status : ∀ i b, Halted (h i b) → Halted b)
    (stopped : Stopped after i) : Stopped before i := by
  obtain ⟨b,found,kind⟩ := stopped
  rw [batches] at found
  obtain ⟨old,was,rfl⟩ := Option.map_eq_some_iff.mp found
  exact ⟨old,was,status i old kind⟩

theorem stopped_added {user : UserId} {inputFile : FileId} {endpoint window : Str} {lines : List BatchInput.ParsedLine}
    {now : Instant} {i : BatchId} (batches : after.batches = before.batches ++ [newBatch user inputFile endpoint window lines now])
    (stopped : Stopped after i) : Stopped before i := by
  obtain ⟨b,found,kind⟩ := stopped
  rw [batches] at found
  rcases Nat.lt_or_ge i before.batches.length with inside | outside
  · rw [List.getElem?_append_left inside] at found
    exact ⟨b,found,kind⟩
  · rw [List.getElem?_append_right outside] at found
    rw [List.mem_singleton.mp (List.mem_of_getElem? found)] at kind
    rcases kind with fresh | fresh
    · cases fresh
    · cases fresh

-- Only a termination stops a batch, and then its tasks are stopped with it.
theorem world_stopped {a : Sessions.Action} (covers : ∀ session ∈ w.sessions, Covers w.service.db session)
    (step : Sessions.Step codec alpha w a x) {i : BatchId} (stopped : Stopped x.service.db i) :
    Stopped w.service.db i ∨ Quiet x.service.db i := by
  cases a with
  | operation op =>
    obtain ⟨single,s,done,rfl⟩ := operation_step step
    rcases oneCommit_batches single done with same | ⟨user,inputFile,endpoint,window,lines,now,_,batches⟩
    · exact .inl (by simpa [Stopped,same] using stopped)
    · exact .inl (stopped_added batches stopped)
  | settle task sink now =>
    obtain ⟨_,db,own,copy,done,_,_,rfl⟩ := settle_step step
    obtain ⟨t,_,_,batches,_⟩ := commit_parts done
    refine .inl (stopped_moved (fun i => by rw [batches]; exact modified_rows _ _ _ i) (fun i b kind => ?_) stopped)
    split at kind
    · simpa [Halted,count_status] using kind
    · exact kind
  | finalize id now =>
    obtain ⟨task,own,batch,copy,_,_,⟨_,same⟩ | ⟨_,final,service,rfl⟩⟩ := finalize_step step
    · exact .inl (same ▸ stopped)
    · rw [service] at stopped
      refine .inl (stopped_moved (fun i => modified_rows _ _ _ i) (fun i b kind => ?_) stopped)
      split at kind
      · rcases kind with done | done
        · cases done
        · cases done
      · exact kind
  | terminate id =>
    obtain ⟨t,rest,db,found,done,rfl⟩ := terminate_step step
    have before := covers _ (List.mem_of_getElem? found)
    obtain ⟨_,_,quiet⟩ := calmer_terminated before done
    obtain ⟨_,batches⟩ := terminated_rows done
    by_cases here : i = t.batch
    · exact .inr (here ▸ quiet)
    · obtain ⟨b,there,kind⟩ := stopped
      rw [batches,Rows.getElem?_modify_other (Ne.symm here)] at there
      exact .inl ⟨b,there,kind⟩
  | readBatch user batch => obtain ⟨copy,_,_,rfl⟩ := readBatch_step step; exact .inl stopped
  | selectTasks id now => obtain ⟨session,selected,_,_,rfl⟩ := selectTasks_step step; exact .inl stopped
  | readOverdue now => cases step; exact .inl stopped
  | lose task => cases step; exact .inl stopped
  | abandon id => cases step; exact .inl stopped
  | restart nodes => cases step; exact .inl stopped

-- A new process puts running tasks back; a batch without live tasks has none.
theorem quiet_recovered (nodes : List NodeConfig) {i : BatchId} (quiet : Quiet db i) : Quiet (startup nodes db) i := by
  refine ⟨quiet.closed,fun u member mine => ?_⟩
  obtain ⟨t,listed,rfl⟩ := List.mem_map.mp member
  unfold Task.recover at mine ⊢
  split
  · rename_i running
    rw [if_pos running] at mine
    have dead := quiet.still t listed mine
    rw [Task.live,running] at dead
    cases dead
  · rename_i other
    rw [if_neg other] at mine
    exact quiet.still t listed mine

theorem startChosen_parts {chosen : List Chosen} {now : Instant} {i : TaskId} (t : Task) :
    startChosen chosen now i t = t ∨ ∃ c ∈ chosen, c.assignment.task = i ∧ startChosen chosen now i t = c.write now t := by
  unfold startChosen
  split
  · rename_i c found
    exact .inr ⟨c,List.mem_of_find?_eq_some found,by simpa using List.find?_some found,rfl⟩
  · exact .inl rfl

-- A pass that commits in time changes rows that were pending.
theorem committed_calmer {now : Instant} (valid : Calm f) (timely : Unstopped f (.commit now)) :
    Calmer f.db (committed f.claim.chosen now f.world.service).db := by
  have waiting : ∀ c ∈ f.claim.chosen, ∃ t, f.db.tasks[c.assignment.task]? = some t ∧ t.status = .pending := by
    intro c member
    obtain ⟨t,b,found,batch,owned,pending⟩ := valid.chosen c member
    have open_ := timely c member
    rw [← batch,owned,Option.map_some,Option.some.injEq] at open_
    exact ⟨t,found,pending open_⟩
  refine calmer_moved (g := fun _ b => b) (fun i => List.getElem?_mapIdx) (fun i => Option.map_id'.symm)
    (fun i t found => ?_) (fun _ _ _ open_ => open_)
  have moved : startChosen f.claim.chosen now i t = t ∨ _ := startChosen_parts t
  rcases moved with same | ⟨c,member,rfl,same⟩
  · rw [same]
    exact ⟨rfl,fun live => live,fun waits => waits⟩
  · obtain ⟨u,there,pending⟩ := waiting c member
    cases found.symm.trans there
    rw [same]
    exact ⟨rfl,fun _ => by rw [Task.live,pending]; rfl,fun waits => by cases waits⟩

theorem flying_kept {flights later : List TaskId} (calmer : Calmer before after)
    (flying : ∀ i ∈ flights, ∃ t, before.tasks[i]? = some t ∧ t.status ≠ .pending) (fewer : ∀ i ∈ later, i ∈ flights) :
    ∀ i ∈ later, ∃ t, after.tasks[i]? = some t ∧ t.status ≠ .pending := by
  intro i member
  obtain ⟨t,found,running⟩ := flying i (fewer i member)
  obtain ⟨u,there,_,_,pending⟩ := calmer.tasks i t found
  exact ⟨u,there,fun waits => running (pending waits)⟩

theorem chosen_kept {c : Chosen} (calmer : Calmer before after) (waits : Waits before after)
    (chosen : ∃ t b, before.tasks[c.assignment.task]? = some t ∧ t.batchId = c.copy.batchId ∧
      before.batches[t.batchId]? = some b ∧ (b.status = .inProgress → t.status = .pending)) :
    ∃ t b, after.tasks[c.assignment.task]? = some t ∧ t.batchId = c.copy.batchId ∧
      after.batches[t.batchId]? = some b ∧ (b.status = .inProgress → t.status = .pending) := by
  obtain ⟨t,b,found,batch,owned,pending⟩ := chosen
  obtain ⟨u,there,same,_⟩ := calmer.tasks _ t found
  obtain ⟨d,still,open_⟩ := calmer.batches _ b owned
  refine ⟨u,d,there,same.trans batch,same.symm ▸ still,fun again => ?_⟩
  obtain ⟨v,here,waiting | closed⟩ := waits _ t found (pending (open_ again))
  · cases here.symm.trans there
    exact waiting
  · exact absurd again (closed d still)

theorem reread_nodes (load : InFlight) (db : Db) : assignments load {db with nodes := healthyNodes db} = assignments load db := by
  have same : healthyNodes {db with nodes := healthyNodes db} = healthyNodes db := by
    simp [healthyNodes,List.filter_filter]
  simp only [assignments,capacity,baseUrlOf,same]
  rfl

theorem selection_copy {load : InFlight} {nodes : List Node} {db : Db} {c : Chosen} (member : c ∈ selection load nodes db) :
    db.tasks[c.assignment.task]? = some c.copy := by
  obtain ⟨a,_,row⟩ := List.mem_filterMap.mp member
  obtain ⟨t,found,rfl⟩ := Option.map_eq_some_iff.mp row
  exact found

theorem selection_assignments (load : InFlight) (nodes : List Node) (db : Db) :
    (selection load nodes db).map Chosen.assignment = assignments load {db with nodes := nodes} := by
  have rows : ∀ a ∈ assignments load {db with nodes := nodes}, ∃ t, db.tasks[a.task]? = some t := by
    intro a assigned
    obtain ⟨t,_,found,_⟩ := assigned_eligible assigned
    exact ⟨t,found⟩
  unfold selection
  generalize assignments load {db with nodes := nodes} = chosen at rows
  induction chosen with
  | nil => rfl
  | cons a chosen ih =>
    obtain ⟨t,found⟩ := rows a (List.mem_cons_self ..)
    rw [List.filterMap_cons]
    simp only [found,Option.map_some,List.map_cons]
    rw [ih fun b member => rows b (List.mem_cons_of_mem _ member)]

-- The three steps of a pass, one after another, are the whole pass.
theorem pass_whole {s t : Service} {sessions : List Session} {load : InFlight} {now : Instant}
    (step : Service.Step codec alpha s (.claimAndAssign load now) t) :
    Run (Step codec alpha) ⟨⟨s,sessions⟩,.idle⟩ [.readNodes load,.selectEligible,.commit now] ⟨⟨t,sessions⟩,.idle⟩ := by
  have chosen : (selection load (healthyNodes s.db) s.db).map Chosen.assignment = assignments load s.db :=
    (selection_assignments load _ s.db).trans (reread_nodes load s.db)
  have rows : s.db.tasks.mapIdx (startChosen (selection load (healthyNodes s.db) s.db) now) =
      startTasks (assignments load s.db) now s.db.tasks := by
    refine List.ext_getElem? fun i => ?_
    rw [startTasks,List.getElem?_mapIdx,List.getElem?_mapIdx]
    cases found : s.db.tasks[i]? with
    | none => rfl
    | some row =>
      have finds := List.find?_map (p := fun a : Assignment => a.task == i) (f := Chosen.assignment)
        (l := selection load (healthyNodes s.db) s.db)
      rw [chosen] at finds
      simp only [Option.map_some,startChosen,startTask,finds]
      cases here : (selection load (healthyNodes s.db) s.db).find? ((fun a : Assignment => a.task == i) ∘ Chosen.assignment) with
      | none => simp only [Function.comp_def] at here; simp [here]
      | some c =>
        have copy := selection_copy (List.mem_of_find?_eq_some here)
        have named : c.assignment.task = i := by simpa using List.find?_some here
        rw [named,found] at copy
        cases copy
        simp only [Function.comp_def] at here
        simp [here,Chosen.write,Task.start]
  have final : committed (selection load (healthyNodes s.db) s.db) now s = t := by
    cases step
    have tasks := congrArg (List.map Assignment.task) chosen
    rw [List.map_map] at tasks
    simp only [committed,rows]
    exact congrArg (fun flights => Service.mk {s.db with tasks := startTasks (assignments load s.db) now s.db.tasks} s.blobs
      (s.inFlight ++ flights)) tasks
  have reads : Step codec alpha ⟨⟨s,sessions⟩,.idle⟩ (.readNodes load)
      ⟨⟨s,sessions⟩,.nodesRead load (healthyNodes s.db)⟩ := rfl
  have selects : Step codec alpha ⟨⟨s,sessions⟩,.nodesRead load (healthyNodes s.db)⟩ .selectEligible
      ⟨⟨s,sessions⟩,.selected (selection load (healthyNodes s.db) s.db)⟩ := rfl
  rw [← final]
  exact ((Run.single reads).step selects).step rfl

theorem selected_chosen (load : InFlight) (nodes : List Node) (db : Db) : ∀ c ∈ selection load nodes db, ∃ t b,
    db.tasks[c.assignment.task]? = some t ∧ t.batchId = c.copy.batchId ∧ db.batches[t.batchId]? = some b ∧
      (b.status = .inProgress → t.status = .pending) := by
  intro c member
  obtain ⟨a,assigned,row⟩ := List.mem_filterMap.mp member
  obtain ⟨t,b,found,owned,waiting,_⟩ := assigned_eligible assigned
  have same : db.tasks[a.task]? = some t := found
  rw [same] at row
  cases row
  exact ⟨t,b,found,rfl,owned,fun _ => waiting⟩

theorem session_step {a : Sessions.Action} (step : Step codec alpha f (.session a) g) :
    wholePass a = false ∧ ∃ x, Sessions.Step codec alpha f.world a x ∧ g = ⟨x,claimAfter a f.claim⟩ := by
  simp only [Step,advance] at step
  split at step
  · cases step
  · rename_i other
    obtain ⟨x,done,rfl⟩ := Option.map_eq_some_iff.mp step
    exact ⟨by simpa using other,x,done,rfl⟩

-- What one step keeps: the rows of stopped batches stay as they are, and the
-- executions of their tasks only become fewer.
structure Keeps (f g : Floor) : Prop where
  calm : Calm g
  quiet : ∀ i, Quiet f.db i → Quiet g.db i
  flights : ∀ i, Quiet f.db i → ∀ task, (∃ t, g.db.tasks[task]? = some t ∧ t.batchId = i) →
    g.inFlight.count task ≤ f.inFlight.count task

-- A step that leaves the tables and the executions alone.
theorem keeps_tables (valid : Calm f) (world : g.world = f.world) (chosen : ∀ c ∈ g.claim.chosen, ∃ t b,
    f.db.tasks[c.assignment.task]? = some t ∧ t.batchId = c.copy.batchId ∧ f.db.batches[t.batchId]? = some b ∧
      (b.status = .inProgress → t.status = .pending)) : Keeps f g := by
  obtain ⟨_,claim⟩ := g
  cases world
  exact ⟨⟨valid.owned,valid.flying,valid.sessions,chosen,valid.stopped⟩,fun _ quiet => quiet,fun _ _ _ _ => Nat.le_refl _⟩

theorem keeps_session {a : Sessions.Action} (valid : Calm f) (step : Step codec alpha f (.session a) g) : Keeps f g := by
  obtain ⟨other,x,done,rfl⟩ := session_step step
  by_cases dies : ∃ nodes, a = .restart nodes
  · obtain ⟨nodes,rfl⟩ := dies
    cases done
    refine ⟨⟨?_,?_,?_,?_,fun i stopped => quiet_recovered nodes (valid.stopped i stopped)⟩,
      fun i quiet => quiet_recovered nodes quiet,fun _ _ _ _ => Nat.zero_le _⟩
    rotate_left
    · intro i member
      cases member
    · intro session member
      cases member
    · intro c member
      cases member
    intro u member
    obtain ⟨t,listed,rfl⟩ := List.mem_map.mp member
    have same : (Task.recover t).batchId = t.batchId := by
      unfold Task.recover
      split <;> rfl
    rw [same]
    exact valid.owned t listed
  · have running : ∀ nodes, a ≠ .restart nodes := fun nodes same => dies ⟨nodes,same⟩
    obtain ⟨calmer,waits,fewer⟩ := world_calmer valid.flying valid.sessions done other running
    have claim : claimAfter a f.claim = f.claim := by
      cases a with
      | restart nodes => exact absurd rfl (running nodes)
      | _ => rfl
    refine ⟨⟨owned_kept calmer valid.owned,flying_kept calmer valid.flying fun i member => fewer.subset member,
      session_covers calmer valid.sessions done,fun c member => ?_,fun i stopped => ?_⟩,fun i quiet => quiet_kept calmer quiet,
      fun _ _ task _ => fewer.count_le task⟩
    · exact chosen_kept calmer waits (valid.chosen c (claim ▸ member))
    · rcases world_stopped valid.sessions done stopped with before | quiet
      · exact quiet_kept calmer (valid.stopped i before)
      · exact quiet

theorem keeps_commit {now : Instant} (valid : Calm f) (timely : Unstopped f (.commit now))
    (step : Step codec alpha f (.commit now) g) : Keeps f g := by
  have calmer : Calmer f.db (committed f.claim.chosen now f.world.service).db := committed_calmer valid timely
  simp only [Step,advance] at step
  split at step
  · rename_i chosen selected
    have list : f.claim.chosen = chosen := by rw [selected]; rfl
    rw [list] at calmer
    cases step
    have started : ∀ c ∈ chosen, ∃ t, (committed chosen now f.world.service).db.tasks[c.assignment.task]? = some t ∧
        t.status = .running := by
      intro c member
      obtain ⟨t,b,found,_⟩ := valid.chosen c (list ▸ member)
      refine ⟨startChosen chosen now c.assignment.task t,?_,?_⟩
      · exact List.getElem?_mapIdx.trans (congrArg (Option.map _) found)
      · unfold startChosen
        split
        · rfl
        · rename_i none_
          exact absurd (List.find?_eq_none.mp none_ c member) (by simp)
    refine ⟨⟨owned_kept calmer valid.owned,fun i member => ?_,
      fun session member => covers_kept calmer (valid.sessions session member),fun c member => (by cases member),
      fun i stopped => quiet_kept calmer (valid.stopped i stopped)⟩,
      fun i quiet => quiet_kept calmer quiet,fun i quiet task mine => ?_⟩
    · rcases List.mem_append.mp member with old | new
      · exact flying_kept calmer valid.flying (fun _ listed => listed) i old
      · obtain ⟨c,listed,rfl⟩ := List.mem_map.mp new
        obtain ⟨t,found,running⟩ := started c listed
        exact ⟨t,found,by rw [running]; simp⟩
    · -- a task of a quiet batch has no live row, and a selected one has
      have absent : task ∉ chosen.map (fun c => c.assignment.task) := by
        intro member
        obtain ⟨c,listed,rfl⟩ := List.mem_map.mp member
        obtain ⟨t,found,running⟩ := started c listed
        obtain ⟨u,there,batch⟩ := mine
        cases found.symm.trans there
        have dead := (quiet_kept calmer quiet).still t (List.mem_of_getElem? found) batch
        rw [Task.live,running] at dead
        cases dead
      have count : (f.inFlight ++ chosen.map (fun c => c.assignment.task)).count task = f.inFlight.count task := by
        rw [List.count_append,List.count_eq_zero_of_not_mem absent,Nat.add_zero]
      exact Nat.le_of_eq count
  · cases step

theorem step_keeps {a : Action} (valid : Calm f) (step : Guarded Unstopped (Step codec alpha) f a g) : Keeps f g := by
  obtain ⟨timely,step⟩ := step
  cases a with
  | session a => exact keeps_session valid step
  | commit now => exact keeps_commit valid timely step
  | readNodes load =>
    simp only [Step,advance] at step
    split at step
    · cases step
      exact keeps_tables valid rfl (by intro c member; cases member)
    · cases step
  | selectEligible =>
    simp only [Step,advance] at step
    split at step
    · cases step
      exact keeps_tables valid rfl (selected_chosen _ _ _)
    · cases step
  | abort =>
    cases step
    exact keeps_tables valid rfl (by intro c member; cases member)

theorem initial_calm : Calm {} := by
  refine ⟨?_,?_,?_,?_,?_⟩
  · intro t member
    cases member
  · intro i member
    cases member
  · intro session member
    cases member
  · intro c member
    cases member
  · rintro i ⟨b,found,_⟩
    cases found

theorem run_calm {actions : List Action} (path : Run (Guarded Unstopped (Step codec alpha)) {} actions f) : Calm f :=
  path.preserves initial_calm fun _ _ _ valid step => (step_keeps valid step).calm

-- In a run whose passes all commit in time, no task of a stopped batch is ever
-- pending or running again, and no step adds an execution of one.
theorem stopped_work_stays {earlier later : List Action} (reached : Run (Guarded Unstopped (Step codec alpha)) {} earlier f)
    {i : BatchId} (stopped : Stopped f.db i) (path : Run (Guarded Unstopped (Step codec alpha)) f later g) :
    (∀ t ∈ g.db.tasks, t.batchId = i → t.status ≠ .pending ∧ t.status ≠ .running) ∧
    ∀ a h, Guarded Unstopped (Step codec alpha) g a h →
      ∀ task, (∃ t, h.db.tasks[task]? = some t ∧ t.batchId = i) → h.inFlight.count task ≤ g.inFlight.count task := by
  have calm := run_calm reached
  have both : Calm g ∧ Quiet g.db i := by
    refine path.preserves (I := fun g => Calm g ∧ Quiet g.db i) ⟨calm,calm.stopped i stopped⟩ ?_
    rintro s a t ⟨valid,quiet⟩ step
    have keeps := step_keeps valid step
    exact ⟨keeps.calm,keeps.quiet i quiet⟩
  obtain ⟨valid,quiet⟩ := both
  refine ⟨fun t member mine => ?_,fun a h step => (step_keeps valid step).flights i quiet⟩
  have dead := quiet.still t member mine
  constructor
  · intro waiting
    rw [Task.live,waiting] at dead
    cases dead
  · intro running
    rw [Task.live,running] at dead
    cases dead

def oneSlot : Action := .session (.restart [⟨"node-a","http://node-a",1⟩])

def cancelOver : List Action := [.session (.readBatch 1 0),.session (.selectTasks 0 0),.session (.terminate 0)]

-- One of two lines is claimed, the batch is cancelled, the next pass finds
-- nothing, and the running line is settled late.
theorem stopped_work_stays_cancelled : ∃ f g : Floor, Stopped f.db 0 ∧ f.inFlight = [0] ∧
    g.db.tasks.map Task.status = [.completed,.cancelled] ∧
    ∀ t ∈ g.db.tasks, t.batchId = 0 → t.status ≠ .pending ∧ t.status ≠ .running := by
  have ran : (replay (checked Unstopped (advance JsonText.codec (3/10))) ([.session (.operation (.grant 1 30 none)),oneSlot,
      .session (.operation (submitShort 1 2 0)),.readNodes (fun _ => 0),.selectEligible,.commit 0] ++ cancelOver) {}).any
      (fun f => f.inFlight == [0] && (f.db.batches[0]?.any (fun b => b.status == .cancelled) &&
        (replay (checked Unstopped (advance JsonText.codec (3/10))) [.readNodes (fun _ => 0),.selectEligible,.commit 0,
          .session (.settle 0 (.complete .null 3 2) 0)] f).any (fun g =>
            g.db.tasks.map Task.status == [.completed,.cancelled]))) = true := by decide +kernel
  obtain ⟨f,reached,facts⟩ := checked_reaches ran
  obtain ⟨flights,facts⟩ := Bool.and_eq_true_iff.mp facts
  obtain ⟨stopped,facts⟩ := Bool.and_eq_true_iff.mp facts
  obtain ⟨b,found,cancelled⟩ := (Option.any_eq_true _ _).mp stopped
  obtain ⟨g,path,statuses⟩ := checked_reaches facts
  have halted : Stopped f.db 0 := ⟨b,found,.inl (eq_of_beq cancelled)⟩
  exact ⟨f,g,halted,eq_of_beq flights,eq_of_beq statuses,(stopped_work_stays reached halted path).1⟩

-- The batch is cancelled between the SELECT and the commit of a pass: the commit
-- sets its task RUNNING and starts an execution, and the hold is already returned.
def cancelledWhileClaimed : List Action :=
  [.session (.operation (.grant 1 30 none)),oneSlot,.session (.operation (submitShort 1 1 0)),.readNodes (fun _ => 0),
    .selectEligible] ++ cancelOver

theorem stale_claim_resurrects : ∃ f g : Floor, Run (Step JsonText.codec (3/10)) {} cancelledWhileClaimed f ∧
    Stopped f.db 0 ∧ (f.db.getOrCreateBudget 1).reservedTokens = 0 ∧ Run (Step JsonText.codec (3/10)) f [.commit 0] g ∧
    (∃ t, g.db.tasks[0]? = some t ∧ t.batchId = 0 ∧ t.status = .running) ∧ f.inFlight = [] ∧ g.inFlight = [0] := by
  have ran : (replay (advance JsonText.codec (3/10)) cancelledWhileClaimed {}).any (fun f =>
      f.inFlight == [] && ((f.db.getOrCreateBudget 1).reservedTokens == 0 &&
        (f.db.batches[0]?.any (fun b => b.status == .cancelled) &&
        (replay (advance JsonText.codec (3/10)) [.commit 0] f).any (fun g => g.inFlight == [0] &&
          g.db.tasks[0]?.any (fun t => t.batchId == 0 && t.status == .running))))) = true := by decide +kernel
  obtain ⟨f,reached,facts⟩ := replay_reaches ran
  obtain ⟨idle,facts⟩ := Bool.and_eq_true_iff.mp facts
  obtain ⟨returned,facts⟩ := Bool.and_eq_true_iff.mp facts
  obtain ⟨stopped,facts⟩ := Bool.and_eq_true_iff.mp facts
  obtain ⟨b,found,cancelled⟩ := (Option.any_eq_true _ _).mp stopped
  obtain ⟨g,path,facts⟩ := replay_reaches facts
  obtain ⟨started,facts⟩ := Bool.and_eq_true_iff.mp facts
  obtain ⟨t,there,facts⟩ := (Option.any_eq_true _ _).mp facts
  obtain ⟨mine,running⟩ := Bool.and_eq_true_iff.mp facts
  exact ⟨f,g,reached,⟨b,found,.inl (eq_of_beq cancelled)⟩,eq_of_beq returned,path,
    ⟨t,there,eq_of_beq mine,eq_of_beq running⟩,eq_of_beq idle,eq_of_beq started⟩

end BatchGateway.ClaimRaces
