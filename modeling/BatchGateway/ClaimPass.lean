import BatchGateway.Dispatcher

-- One claim pass: which tasks it takes, and on which nodes it puts them.
namespace BatchGateway.ClaimPass
open Dispatcher RoundRobin

def isEligible (db : Db) (t : Task) : Bool :=
  decide (t.status = .pending) && (db.batches[t.batchId]?).any (fun b => decide (b.status = .inProgress))

def eligibleCount (db : Db) : Nat := db.tasks.countP (isEligible db)

-- A user's eligible tasks, by batch creation time and line index.
def eligibleOf (user : UserId) (db : Db) : List TaskId :=
  ((eligibleRows db).filter (fun row => row.user = user)).map EligibleRow.task

-- u's first eligible task comes before v's.
def FirstBefore (u v : UserId) (db : Db) : Prop := Precedes u v ((eligibleRows db).map EligibleRow.user)

structure FairPass (limit : Int) (db : Db) (claimed : List (UserId × TaskId)) : Prop where
  ends : Ends limit.toNat (userQueues db) claimed
  count : (claimed.length : Int) = min (max limit 0) (eligibleCount db)
  once : (claimed.map Prod.snd).Nodup
  eligible : ∀ user task, (user,task) ∈ claimed → ∃ t b, db.tasks[task]? = some t ∧ db.batches[t.batchId]? = some b ∧
    t.status = .pending ∧ b.status = .inProgress ∧ b.userId = user
  ordered : (eligibleRows db).Pairwise EligibleRow.before
  inOrder : ∀ user, turnsOf user claimed <+: eligibleOf user db
  near : ∀ u v, (∃ task ∈ eligibleOf u db, (u,task) ∉ claimed) →
    (turnsOf v claimed).length ≤ (turnsOf u claimed).length + 1
  level : ∀ u v, (∃ task ∈ eligibleOf u db, (u,task) ∉ claimed) → FirstBefore u v db →
    (turnsOf v claimed).length ≤ (turnsOf u claimed).length

theorem claimTasks_serve (limit : Int) (db : Db) : claimTasks limit db = serve limit.toNat (userQueues db) := by
  unfold claimTasks
  split
  · rename_i closed
    rw [Int.toNat_of_nonpos closed]
    rfl
  · rfl

theorem before_trans {x y z : EligibleRow} (first : x.before y) (second : y.before z) : x.before z := by
  rcases first with earlier | ⟨same,line⟩
  · rcases second with later | ⟨equal,_⟩
    · exact .inl (lt_trans earlier later)
    · exact .inl (equal ▸ earlier)
  · rcases second with later | ⟨equal,next⟩
    · exact .inl (same ▸ later)
    · exact .inr ⟨same.trans equal,line.trans next⟩

theorem before_total (x y : EligibleRow) : x.before y ∨ y.before x := by
  rcases lt_trichotomy x.createdAt y.createdAt with earlier | same | later
  · exact .inl (.inl earlier)
  · rcases Nat.le_total x.lineIndex y.lineIndex with line | line
    · exact .inl (.inr ⟨same,line⟩)
    · exact .inr (.inr ⟨same.symm,line⟩)
  · exact .inr (.inl later)

instance : IsTrans EligibleRow EligibleRow.before := ⟨fun _ _ _ => before_trans⟩
instance : Std.Total EligibleRow.before := ⟨before_total⟩

theorem eligibleRows_ordered (db : Db) : (eligibleRows db).Pairwise EligibleRow.before :=
  List.pairwise_insertionSort _ _

theorem eligible_isSome (db : Db) (t : Task) (task : TaskId) : (eligibleRow db t task).isSome = isEligible db t := by
  unfold eligibleRow isEligible
  cases db.batches[t.batchId]? with
  | none => simp
  | some b =>
    by_cases waiting : t.status = .pending
    · by_cases open_ : b.status = .inProgress <;> simp [waiting,open_]
    · simp [waiting]

theorem eligibleRows_count (db : Db) : (eligibleRows db).length = eligibleCount db := by
  rw [(eligibleRows_perm db).length_eq,List.length_filterMap_eq_countP]
  simp only [eligible_isSome]
  have firsts := List.countP_map (p := isEligible db) (f := Prod.fst) (l := db.tasks.zipIdx)
  rw [List.zipIdx_map_fst] at firsts
  exact firsts.symm

theorem waitingOf_queues (user : UserId) (db : Db) : waitingOf user (userQueues db) = eligibleOf user db := by
  rw [userQueues,waitingOf_group,List.filter_map,List.map_map]
  rfl

theorem claimTasks_ends (limit : Int) (db : Db) : Ends limit.toNat (userQueues db) (claimTasks limit db) := by
  rw [claimTasks_serve]
  exact rounds_ends _ le_rfl

theorem claimTasks_inOrder (limit : Int) (db : Db) (user : UserId) :
    turnsOf user (claimTasks limit db) <+: eligibleOf user db := by
  rw [← waitingOf_queues]
  exact (claimTasks_ends limit db).initial (group_keys _) user

theorem claimTasks_count (limit : Int) (db : Db) :
    ((claimTasks limit db).length : Int) = min (max limit 0) (eligibleCount db) := by
  have listed : (items (userQueues db)).length = eligibleCount db := by
    rw [userQueues,(group_items _).length_eq,List.length_map,eligibleRows_count]
  rw [(claimTasks_ends limit db).count,listed]
  omega

-- A user with a task left over was not served to the end.
theorem left_over {limit : Int} {db : Db} {user : UserId}
    (left : ∃ task ∈ eligibleOf user db, (user,task) ∉ claimTasks limit db) :
    served user (serve limit.toNat (userQueues db)) < (waitingOf user (userQueues db)).length := by
  obtain ⟨task,listed,missed⟩ := left
  have initial := claimTasks_inOrder limit db user
  rw [← claimTasks_serve,waitingOf_queues,← turnsOf_length]
  by_contra full
  have whole := initial.eq_of_length_le (Nat.not_lt.mp full)
  rw [← whole,turnsOf,List.mem_map] at listed
  obtain ⟨row,member,rfl⟩ := listed
  obtain ⟨there,mine⟩ := List.mem_filter.mp member
  have named : row.1 = user := by simpa using mine
  exact missed (named ▸ there)

theorem claim_tasks_fair (limit : Int) (db : Db) : FairPass limit db (claimTasks limit db) where
  ends := claimTasks_ends limit db
  count := claimTasks_count limit db
  once := claimed_distinct limit db
  eligible _ _ claimed := claimed_eligible claimed
  ordered := eligibleRows_ordered db
  inOrder := claimTasks_inOrder limit db
  near u v left := by
    rw [turnsOf_length,turnsOf_length,claimTasks_serve]
    exact served_near (group_keys _) (left_over left)
  level u v left first := by
    rw [turnsOf_length,turnsOf_length,claimTasks_serve]
    refine served_first (group_keys _) (group_precedes ?_) (left_over left)
    rw [List.map_map]
    exact first

-- A node's free slots before the pass, and what it was given.
def free (load : InFlight) (n : Node) : Int := n.parallelSlots - load n.name
def received (name : NodeName) (placed : List (TaskId × NodeName)) : Nat := placed.countP (fun a => a.2 = name)

variable {capacity : List (NodeName × Int)} {tasks : List TaskId}

@[simp] theorem received_cons (name node : NodeName) (task : TaskId) (placed : List (TaskId × NodeName)) :
    received name ((task,node) :: placed) = received name placed + if node = name then 1 else 0 := by
  simp [received,List.countP_cons]

-- One step of the assignment loop: the roomiest node is taken, or the loop is left.
theorem place_cases (task : TaskId) (rest : List TaskId) (capacity : List (NodeName × Int)) :
    place (task :: rest) capacity = [] ∨ ∃ best ∈ capacity, 0 < best.2 ∧ (∀ c ∈ capacity, c.2 ≤ best.2) ∧
      place (task :: rest) capacity = (task,best.1) :: place rest (occupy best.1 capacity) := by
  simp only [place]
  cases found : roomiest capacity with
  | none => exact .inl rfl
  | some best =>
    obtain ⟨member,most⟩ := roomiest_parts found
    by_cases full : best.2 ≤ 0
    · exact .inl (if_pos full)
    · exact .inr ⟨best,member,Int.not_le.mp full,most,if_neg full⟩

theorem mem_occupy (name : NodeName) {c : NodeName × Int} (member : c ∈ capacity) :
    (c.1,c.2 - if c.1 = name then 1 else 0) ∈ occupy name capacity := by
  refine List.mem_map.mpr ⟨c,member,?_⟩
  split <;> simp

theorem place_names {a : TaskId × NodeName} (member : a ∈ place tasks capacity) : a.2 ∈ capacity.map Prod.fst := by
  induction tasks generalizing capacity with
  | nil => cases member
  | cons task rest ih =>
    rcases place_cases task rest capacity with none | ⟨best,listed,_,_,same⟩
    · rw [none] at member
      cases member
    · rw [same] at member
      rcases List.mem_cons.mp member with rfl | later
      · exact List.mem_map_of_mem listed
      · rw [← occupy_names best.1]
        exact ih later

theorem place_within (distinct : (capacity.map Prod.fst).Nodup) {c : NodeName × Int} (listed : c ∈ capacity) :
    (received c.1 (place tasks capacity) : Int) ≤ max c.2 0 := by
  induction tasks generalizing capacity c with
  | nil => simp [place,received]
  | cons task rest ih =>
    rcases place_cases task rest capacity with none | ⟨best,member,open_,_,same⟩
    · rw [none]
      simp [received]
    · have later := ih (by rwa [occupy_names]) (mem_occupy best.1 listed)
      rw [same,received_cons]
      by_cases mine : best.1 = c.1
      · cases List.inj_on_of_nodup_map distinct member listed mine
        simp only [if_true] at later ⊢
        push_cast
        omega
      · simp only [Ne.symm mine,if_false] at later
        simp only [mine,if_false]
        push_cast
        omega

-- Whoever received a task ends at most one slot below the roomiest.
theorem place_level (distinct : (capacity.map Prod.fst).Nodup) {c d : NodeName × Int} (here : c ∈ capacity)
    (there : d ∈ capacity) (took : 0 < received c.1 (place tasks capacity)) :
    d.2 - received d.1 (place tasks capacity) - 1 ≤ c.2 - received c.1 (place tasks capacity) := by
  induction tasks generalizing capacity c d with
  | nil => simp [place,received] at took
  | cons task rest ih =>
    rcases place_cases task rest capacity with none | ⟨best,member,_,most,same⟩
    · rw [none] at took
      simp [received] at took
    rw [same,received_cons] at took
    rw [same,received_cons,received_cons]
    -- What is left of a node after the whole loop does not depend on when it is counted.
    have left : ∀ e : NodeName × Int, e.2 - ((received e.1 (place rest (occupy best.1 capacity)) +
        if best.1 = e.1 then 1 else 0 : Nat) : Int) =
        (e.2 - if e.1 = best.1 then 1 else 0) - received e.1 (place rest (occupy best.1 capacity)) := by
      intro e
      by_cases mine : best.1 = e.1
      · simp only [mine,if_true]
        push_cast
        omega
      · simp only [mine,Ne.symm mine,if_false]
        omega
    rw [left,left]
    by_cases again : 0 < received c.1 (place rest (occupy best.1 capacity))
    · exact ih (by rwa [occupy_names]) (mem_occupy best.1 here) (mem_occupy best.1 there) again
    · -- The task just placed is its only one, and it was the roomiest then.
      have mine : best.1 = c.1 := by
        by_contra other
        rw [if_neg other] at took
        exact again took
      cases List.inj_on_of_nodup_map distinct member here mine
      have bound := most d there
      have none_later := Nat.eq_zero_of_not_pos again
      rw [none_later]
      simp only [if_true]
      split <;> omega

def given (name : NodeName) (out : List Assignment) : Nat := out.countP (fun a => a.nodeName = name)

-- The slots of all healthy nodes that have any free.
def freeCapacity (load : InFlight) (db : Db) : Int := ((healthyNodes db).map (fun n => max (free load n) 0)).sum

structure LevelPlacement (load : InFlight) (now : Instant) (db after : Db) (out : List Assignment) : Prop where
  count : (out.length : Int) = min (freeCapacity load db) (eligibleCount db)
  every : out.map Assignment.task = (claimTasks (freeCapacity load db) db).map Prod.snd
  once : (out.map Assignment.task).Nodup
  healthy : ∀ a ∈ out, ∃ n ∈ db.nodes, n.health = .healthy ∧ a.nodeName = n.name ∧ a.baseUrl = n.baseUrl
  within : ∀ n ∈ healthyNodes db, (given n.name out : Int) ≤ max (free load n) 0
  level : ∀ n ∈ healthyNodes db, ∀ m ∈ healthyNodes db, 0 < given n.name out →
    free load m - given m.name out - 1 ≤ free load n - given n.name out
  started : ∀ a ∈ out, ∃ t, db.tasks[a.task]? = some t ∧ after.tasks[a.task]? = some (Task.start a.nodeName now t)
  others : ∀ i, i ∉ out.map Assignment.task → after.tasks[i]? = db.tasks[i]?
  tasksOnly : after = {db with tasks := after.tasks}

section
variable {load : InFlight} {now : Instant} {db : Db}

theorem freeCapacity_total (load : InFlight) (db : Db) : freeCapacity load db = totalCapacity (Dispatcher.capacity load db) := by
  rw [totalCapacity_sum,Dispatcher.capacity,List.map_map,freeCapacity]
  refine congrArg List.sum (List.map_congr_left fun n _ => ?_)
  simp only [Function.comp_apply,free]
  split <;> omega

theorem capacity_distinct (distinct : (db.nodes.map Node.name).Nodup) :
    ((Dispatcher.capacity load db).map Prod.fst).Nodup := by
  have kept : (Dispatcher.capacity load db).map Prod.fst = (healthyNodes db).map Node.name := by
    simp [Dispatcher.capacity,Function.comp_def]
  rw [kept]
  exact (List.filter_sublist.map Node.name).nodup distinct

theorem given_received (name : NodeName) : given name (assignments load db) = received name
    (place ((claimTasks (totalCapacity (Dispatcher.capacity load db)) db).map Prod.snd) (Dispatcher.capacity load db)) := by
  rw [given,assignments,List.countP_map]
  rfl

theorem mem_capacity {n : Node} (listed : n ∈ healthyNodes db) : (n.name,free load n) ∈ Dispatcher.capacity load db :=
  List.mem_map_of_mem (f := fun n => (n.name,n.parallelSlots - load n.name)) listed

theorem baseUrlOf_healthy {name : NodeName} (listed : name ∈ (healthyNodes db).map Node.name) :
    ∃ n ∈ db.nodes, n.health = .healthy ∧ name = n.name ∧ baseUrlOf db name = n.baseUrl := by
  unfold baseUrlOf
  cases found : (healthyNodes db).find? (fun n => n.name == name) with
  | none =>
    obtain ⟨n,member,named⟩ := List.mem_map.mp listed
    exact absurd named (by simpa using List.find?_eq_none.mp found n member)
  | some n =>
    have named : n.name = name := by simpa using List.find?_some found
    obtain ⟨member,health⟩ := List.mem_filter.mp (List.mem_of_find?_eq_some found)
    exact ⟨n,member,eq_of_beq health,named.symm,rfl⟩

theorem assigned_healthy {a : Assignment} (assigned : a ∈ assignments load db) :
    ∃ n ∈ db.nodes, n.health = .healthy ∧ a.nodeName = n.name ∧ a.baseUrl = n.baseUrl := by
  obtain ⟨placed,member,rfl⟩ := List.mem_map.mp assigned
  refine baseUrlOf_healthy ?_
  have listed := place_names member
  rwa [Dispatcher.capacity,List.map_map] at listed

theorem assigned_started {a : Assignment} (assigned : a ∈ assignments load db) : ∃ t, db.tasks[a.task]? = some t ∧
    (startTasks (assignments load db) now db.tasks)[a.task]? = some (Task.start a.nodeName now t) := by
  obtain ⟨t,b,found,_⟩ := assigned_eligible assigned
  refine ⟨t,found,?_⟩
  have first : (assignments load db).find? (fun other => other.task == a.task) = some a :=
    Rows.find?_unique (assigned_distinct load db) assigned
  simp [startTasks,List.getElem?_mapIdx,found,startTask,first]

theorem unassigned_kept {i : TaskId} (absent : i ∉ (assignments load db).map Assignment.task) :
    (startTasks (assignments load db) now db.tasks)[i]? = db.tasks[i]? := by
  cases found : db.tasks[i]? with
  | none => simp [startTasks,List.getElem?_mapIdx,found]
  | some t =>
    rcases startTasks_parts load now db found with ⟨_,same⟩ | ⟨member,_⟩
    · exact same
    · exact absurd member absent

end

theorem assigned_count (distinct : (db.nodes.map Node.name).Nodup) :
    ((assignments load db).length : Int) = min (freeCapacity load db) (eligibleCount db) := by
  have all : (assignments load db).length = (claimTasks (freeCapacity load db) db).length := by
    have everyone : (assignments load db).map Assignment.task = _ := assigned_all distinct
    have mapped := congrArg List.length everyone
    rwa [List.length_map,List.length_map,← freeCapacity_total] at mapped
  have sign := totalCapacity_nonnegative (Dispatcher.capacity load db)
  rw [← freeCapacity_total] at sign
  rw [all,claimTasks_count,max_eq_left sign]

theorem given_within {n : Node} (distinct : (db.nodes.map Node.name).Nodup) (listed : n ∈ healthyNodes db) :
    (given n.name (assignments load db) : Int) ≤ max (free load n) 0 := by
  rw [given_received]
  exact place_within (capacity_distinct distinct) (mem_capacity listed)

theorem claim_and_assign_levels (load : InFlight) (now : Instant) (db : Db) (distinct : (db.nodes.map Node.name).Nodup) :
    LevelPlacement load now db (claimAndAssign load now db).1 (claimAndAssign load now db).2 where
  count := assigned_count distinct
  every := by
    rw [freeCapacity_total]
    exact assigned_all distinct
  once := assigned_distinct load db
  healthy _ assigned := assigned_healthy assigned
  within n listed := given_within distinct listed
  level n here m there took := by
    change free load m - given m.name (assignments load db) - 1 ≤ free load n - given n.name (assignments load db)
    change 0 < given n.name (assignments load db) at took
    rw [given_received] at took
    rw [given_received,given_received]
    exact place_level (capacity_distinct distinct) (mem_capacity here) (mem_capacity there) took
  started _ assigned := assigned_started assigned
  others _ absent := unassigned_kept absent
  tasksOnly := rfl

def smallBatch : Batch where
  userId := 1
  inputFileId := 0
  endpoint := []
  completionWindow := []
  status := .inProgress
  reservedTokens := 0
  requestTotal := 3
  createdAt := 0

def smallTask (lineIndex : Nat) : Task where
  batchId := 0
  lineIndex := lineIndex
  customId := []
  requestBody := []
  reservedTokens := 0
  promptTokensEstimate := 0
  maxTokens := 0

def smallNode (name : NodeName) (parallelSlots : Int) (health : NodeHealth) : Node where
  name := name
  baseUrl := "http://" ++ name
  parallelSlots := parallelSlots
  health := health

-- Three eligible tasks, and three free slots on healthy nodes.
def smallDb : Db where
  batches := [smallBatch]
  tasks := [smallTask 0,smallTask 1,smallTask 2]
  nodes := [smallNode "a" 2 .healthy,smallNode "b" (-1) .healthy,smallNode "c" 5 .healthy,smallNode "d" 9 .unhealthy]

def busyC : InFlight := fun name => if name = "c" then 4 else 0

theorem claim_and_assign_levels_small :
    (claimAndAssign busyC 0 smallDb).2 = [⟨0,"a","http://a"⟩,⟨1,"a","http://a"⟩,⟨2,"c","http://c"⟩] ∧
    LevelPlacement busyC 0 smallDb (claimAndAssign busyC 0 smallDb).1 (claimAndAssign busyC 0 smallDb).2 :=
  ⟨by decide +kernel,claim_and_assign_levels busyC 0 smallDb (by decide)⟩

end BatchGateway.ClaimPass
