import BatchGateway.FairShare
import BatchGateway.Lifecycle

-- How many claim passes a task can wait for, whatever the other users submit.
namespace BatchGateway.BoundedWaiting
open BatchOps Service LabelledRuns Dispatcher RoundRobin RowMoves Lifecycle
open ClaimPass (eligibleOf)

-- The user's eligible tasks that the claim order may put before this one.
def aheadOf (db : Db) (row : EligibleRow) : List TaskId :=
  ((eligibleRows db).filter (fun r => decide (r.user = row.user ∧ r.before row ∧ r.task ≠ row.task))).map EligibleRow.task

def ahead (db : Db) (row : EligibleRow) : Nat := (aheadOf db row).length

-- The users a claim pass finds tasks of.
def usersWaiting (db : Db) : List UserId := (userQueues db).map Prod.fst

-- No clock goes back behind the task's batch, and the process goes on.
def Orderly (row : EligibleRow) : Operation → Prop
  | .createBatch user _ _ _ _ now => user = row.user → row.createdAt < now
  | .startup _ => False
  | _ => True

-- A claim pass with a slot for each user.
def roomy (s : Service) : Operation → Bool
  | .claimAndAssign load _ => decide (((usersWaiting s.db).length : Int) ≤ totalCapacity (capacity load s.db))
  | _ => false

instance (row : EligibleRow) : (op : Operation) → Decidable (Orderly row op)
  | .createBatch user _ _ _ _ now => inferInstanceAs (Decidable (user = row.user → row.createdAt < now))
  | .startup _ => .isFalse id
  | .grant _ _ _ | .uploadFile _ _ _ _ | .claimAndAssign _ _ | .completeTask _ _ _ _ _ | .failTask _ _ _ | .cancelBatch _ _ _
  | .expireBatch _ _ | .purgeExpiredResults _ _ | .applyHealthResults _ _ => .isTrue trivial

variable {codec : PythonJson.Codec} {alpha : ℚ} {s t : Service} {op : Operation} {row r : EligibleRow}

theorem runs_on (orderly : Orderly row op) : ∀ nodes, op ≠ .startup nodes := by
  rintro nodes rfl
  exact orderly

-- An eligible task was so before, or has just been submitted.
theorem eligible_origin (sound : Sound s) (step : Step codec alpha s op t) (runs : ∀ nodes, op ≠ .startup nodes)
    (member : r ∈ eligibleRows t.db) : r ∈ eligibleRows s.db ∨
    ∃ user inputFile endpoint window lines now, op = .createBatch user inputFile endpoint window lines now ∧
      r.user = user ∧ r.createdAt = now := by
  obtain ⟨u,b,there,owned,waiting,open_,shape⟩ := eligible_parts member
  rcases row_batch sound.linked step there owned with ⟨v,c,found,moved,_,was,change⟩ | ⟨new,created⟩
  · left
    have same : u = v := by
      cases moved with
      | kept => rfl
      | claimed => cases waiting
      | completed => cases waiting
      | failed => cases waiting
      | stopped => cases waiting
      | recovered named => exact absurd named (runs _)
    subst same
    have columns := open_kept change open_
    rw [shape,columns.2.1,columns.2.2.1]
    exact eligible_listed found was waiting columns.1
  · right
    cases op with
    | createBatch user inputFile endpoint window lines now =>
      cases List.mem_singleton.mp created
      refine ⟨user,inputFile,endpoint,window,lines,now,rfl,?_,?_⟩
      · rw [shape]
        rfl
      · rw [shape]
        rfl
    | _ => cases new

theorem aheadOf_distinct (db : Db) (row : EligibleRow) : (aheadOf db row).Nodup :=
  (List.filter_sublist.map EligibleRow.task).nodup (eligible_distinct db)

theorem mem_aheadOf {db : Db} {task : TaskId} : task ∈ aheadOf db row ↔
    ∃ r ∈ eligibleRows db, r.task = task ∧ r.user = row.user ∧ r.before row ∧ r.task ≠ row.task := by
  simp only [aheadOf,List.mem_map,List.mem_filter,decide_eq_true_eq]
  constructor
  · rintro ⟨r,⟨member,holds⟩,named⟩
    exact ⟨r,member,named,holds⟩
  · rintro ⟨r,member,named,holds⟩
    exact ⟨r,⟨member,holds⟩,named⟩

-- Nobody gets in front of a waiting task.
theorem aheadOf_shrinks (sound : Sound s) (step : Step codec alpha s op t) (orderly : Orderly row op) :
    aheadOf t.db row ⊆ aheadOf s.db row := by
  intro task member
  obtain ⟨r,listed,named,mine,before,other⟩ := mem_aheadOf.mp member
  rcases eligible_origin sound step (runs_on orderly) listed with old | ⟨user,_,_,_,_,now,rfl,owner,created⟩
  · exact mem_aheadOf.mpr ⟨r,old,named,mine,before,other⟩
  · have late : row.createdAt < now := orderly (owner.symm.trans mine)
    rcases before with earlier | ⟨same,_⟩
    · rw [created] at earlier
      exact absurd (late.trans earlier) (lt_irrefl _)
    · rw [created] at same
      exact absurd (same ▸ late) (lt_irrefl _)

theorem heads_length {κ α : Type} (queues : Queues κ α) : (heads queues).length ≤ (queues.map Prod.fst).length := by
  rw [List.length_map]
  exact List.length_filterMap_le _ _

-- With a slot for each user, every user with an eligible task is served.
theorem user_served {db : Db} {limit : Int} (room : ((usersWaiting db).length : Int) ≤ limit) (member : row ∈ eligibleRows db) :
    0 < served row.user (claimTasks limit db) := by
  have waits : 0 < (waitingOf row.user (userQueues db)).length := by
    rw [ClaimPass.waitingOf_queues]
    apply List.length_pos_of_mem (a := row.task)
    exact List.mem_map_of_mem (List.mem_filter.mpr ⟨member,decide_eq_true rfl⟩)
  have first := earlier_bound waits
  have many := heads_length (userQueues db)
  rw [usersWaiting] at room
  have slot : earlier 0 row.user (userQueues db) < limit.toNat := by omega
  rw [ClaimPass.claimTasks_serve]
  refine (served_serve (group_keys _) row.user 0).mpr ⟨waits,?_⟩
  rw [ahead_zero]
  exact slot

-- What the pass takes of the user's tasks stood before a task it leaves.
theorem taken_ahead {db : Db} {limit : Int} (member : row ∈ eligibleRows db)
    (left : row.task ∉ turnsOf row.user (claimTasks limit db)) : turnsOf row.user (claimTasks limit db) ⊆ aheadOf db row := by
  intro task taken
  obtain ⟨rest,whole⟩ := ClaimPass.claimTasks_inOrder limit db row.user
  rw [eligibleOf] at whole
  obtain ⟨first,second,split,firsts,seconds⟩ := List.append_eq_map_iff.mp whole
  have ordered : (first ++ second).Pairwise EligibleRow.before := by
    rw [← split]
    exact (ClaimPass.eligibleRows_ordered db).filter _
  have inside : row ∈ first ++ second := by
    rw [← split]
    exact List.mem_filter.mpr ⟨member,decide_eq_true rfl⟩
  have last : row ∈ second := by
    rcases List.mem_append.mp inside with early | late
    · exact absurd (firsts ▸ List.mem_map_of_mem early) left
    · exact late
  rw [← firsts] at taken
  obtain ⟨r,early,named⟩ := List.mem_map.mp taken
  have listed : r ∈ (eligibleRows db).filter (fun r => decide (r.user = row.user)) := by
    rw [split]
    exact List.mem_append_left _ early
  obtain ⟨eligible,mine⟩ := List.mem_filter.mp listed
  refine mem_aheadOf.mpr ⟨r,eligible,named,of_decide_eq_true mine,(List.pairwise_append.mp ordered).2.2 r early row last,?_⟩
  intro same
  rw [← firsts] at left
  exact left (same ▸ List.mem_map_of_mem early)

-- A pass that leaves the task has moved it up by at least one place.
theorem pass_advances (load : InFlight) (now : Instant) (sound : Sound s)
    (room : ((usersWaiting s.db).length : Int) ≤ totalCapacity (capacity load s.db)) (member : row ∈ eligibleRows s.db)
    (still : row ∈ eligibleRows (claimAndAssign load now s.db).1) :
    ahead (claimAndAssign load now s.db).1 row + 1 ≤ ahead s.db row := by
  have step : Step JsonText.codec 0 s (.claimAndAssign load now)
      {s with db := (claimAndAssign load now s.db).1,
              inFlight := s.inFlight ++ (claimAndAssign load now s.db).2.map Assignment.task} := rfl
  have shrinks : aheadOf (claimAndAssign load now s.db).1 row ⊆ aheadOf s.db row := aheadOf_shrinks sound step trivial
  -- A task the pass has taken is not PENDING any more.
  have apart : ∀ task ∈ turnsOf row.user (claimTasks (totalCapacity (capacity load s.db)) s.db),
      ∀ r ∈ eligibleRows (claimAndAssign load now s.db).1, r.task ≠ task := by
    rintro task taken r listed rfl
    obtain ⟨⟨user,claimed⟩,chosen,same⟩ := List.mem_map.mp taken
    cases same
    have assigned : r.task ∈ (assignments load s.db).map Assignment.task := by
      rw [assigned_all sound.linked.nodes]
      exact List.mem_map_of_mem (List.mem_filter.mp chosen).1
    obtain ⟨u,b,there,_,waiting,_⟩ := eligible_parts listed
    obtain ⟨a,given,named⟩ := List.mem_map.mp assigned
    obtain ⟨_,_,started⟩ := assigned_start now given
    rw [named] at started
    cases there.symm.trans started
    cases waiting
  have takes : turnsOf row.user (claimTasks (totalCapacity (capacity load s.db)) s.db) ⊆ aheadOf s.db row :=
    taken_ahead member fun taken => apart _ taken row still rfl
  have several := user_served room member
  have both : (aheadOf (claimAndAssign load now s.db).1 row ++
      turnsOf row.user (claimTasks (totalCapacity (capacity load s.db)) s.db)).Nodup := by
    refine List.nodup_append.mpr ⟨aheadOf_distinct _ row,?_,?_⟩
    · exact (List.filter_sublist.map Prod.snd).nodup (claimed_distinct _ s.db)
    · rintro task waits other taken rfl
      obtain ⟨r,listed,named,_⟩ := mem_aheadOf.mp waits
      exact apart _ taken r listed named
  have within := (List.subperm_of_subset both (List.append_subset.mpr ⟨shrinks,takes⟩)).length_le
  rw [List.length_append,turnsOf_length] at within
  rw [ahead,ahead]
  omega

theorem roomy_pass (room : roomy s op = true) : ∃ load now, op = .claimAndAssign load now ∧
    ((usersWaiting s.db).length : Int) ≤ totalCapacity (capacity load s.db) := by
  cases op with
  | claimAndAssign load now => exact ⟨load,now,rfl,of_decide_eq_true room⟩
  | _ => cases room

-- One step moves the task up by the pass it makes, if that has room.
theorem places_spent (sound : Sound s) (step : Step codec alpha s op t) (orderly : Orderly row op)
    (member : row ∈ eligibleRows s.db) (still : row ∈ eligibleRows t.db) :
    (roomy s op).toNat + ahead t.db row ≤ ahead s.db row := by
  cases counts : roomy s op with
  | true =>
    obtain ⟨load,now,rfl,room⟩ := roomy_pass counts
    cases step
    have advances := pass_advances load now sound room member still
    change 1 + ahead (claimAndAssign load now s.db).1 row ≤ ahead s.db row
    omega
  | false =>
    have shrinks : aheadOf t.db row ⊆ aheadOf s.db row := aheadOf_shrinks sound step orderly
    have within := (List.subperm_of_subset (aheadOf_distinct t.db row) shrinks).length_le
    rw [Bool.toNat_false,Nat.zero_add]
    exact within

-- What has become of a task that had been claimed `claims` times, `spent` passes ago.
inductive Fate (claims spent limit : Nat) (row : EligibleRow) (s : Service) : Prop where
  | waiting {u : Task} : row ∈ eligibleRows s.db → s.db.tasks[row.task]? = some u → u.attempts = claims →
      spent + ahead s.db row ≤ limit → Fate claims spent limit row s
  | claimed {u : Task} : s.db.tasks[row.task]? = some u → claims < u.attempts → Fate claims spent limit row s
  | stopped {u : Task} : s.db.tasks[row.task]? = some u → u.status = .cancelled → row.task ∉ s.inFlight →
      Fate claims spent limit row s

theorem move_attempts {i : TaskId} {u v : Task} (moved : TaskMove s op i u v) : u.attempts ≤ v.attempts := by
  cases moved with
  | claimed => exact Nat.le_succ _
  | recovered _ running =>
    rw [Dispatcher.Task.recover,if_pos running]
  | _ => exact le_rfl

theorem fate_step {claims spent limit : Nat} (sound : Sound s) (fate : Fate claims spent limit row s)
    (step : Step codec alpha s op t) (orderly : Orderly row op) : Fate claims (spent + (roomy s op).toNat) limit row t := by
  cases fate with
  | @waiting u member found attempts room =>
    obtain ⟨v,b,first,owned,pending,open_,shape⟩ := eligible_parts member
    cases found.symm.trans first
    obtain ⟨later,there,moved⟩ := task_moves step found
    have grounded : row.task ∉ s.inFlight := by
      intro flying
      obtain ⟨w,here,either⟩ := sound.progress.flying _ flying
      cases found.symm.trans here
      rw [pending] at either
      rcases either with running | cancelled
      · cases running
      · cases cancelled
    cases moved with
    | kept =>
      -- Its batch is open still, for a live task's batch always is.
      obtain ⟨c,after,open_after⟩ := (sound_step sound step).coherent.live u (List.mem_of_getElem? there)
        (by rw [Task.live,pending]; rfl)
      obtain ⟨d,same,change⟩ := batch_moves step owned
      cases after.symm.trans same
      obtain ⟨_,owner,created,_⟩ := open_kept change open_after
      have still : row ∈ eligibleRows t.db := by
        rw [shape,← owner,← created]
        exact eligible_listed there after pending open_after
      have places := places_spent sound step orderly member still
      exact .waiting still there attempts (by omega)
    | claimed => exact .claimed there (Nat.lt_succ_of_le attempts.ge)
    | completed _ flying => exact absurd flying grounded
    | failed _ flying => exact absurd flying grounded
    | stopped named =>
      refine .stopped there rfl fun flying => ?_
      rcases flight_origin sound.progress.once step flying with ⟨old,_⟩ | ⟨load,now,a,claims,_⟩
      · exact grounded old
      · rcases named with rfl | rfl
        · cases claims
        · cases claims
    | recovered named => exact absurd named (runs_on orderly _)
  | claimed found more =>
    obtain ⟨later,there,moved⟩ := task_moves step found
    exact .claimed there (more.trans_le (move_attempts moved))
  | @stopped u found cancelled grounded =>
    have dead : u.live = false := by
      rw [Task.live,cancelled]
      rfl
    refine .stopped (Records.dead_stays step found dead fun task settling => ?_) cancelled fun flying => ?_
    · rintro rfl
      cases op with
      | completeTask =>
        cases settling
        exact grounded (complete_step step).1
      | failTask =>
        cases settling
        exact grounded (fail_step step).1
      | _ => cases settling
    · rcases flight_origin sound.progress.once step flying with ⟨old,_⟩ | ⟨load,now,a,rfl,assigned,named⟩
      · exact grounded old
      · obtain ⟨v,_,there,_,waiting,_⟩ := assigned_eligible assigned
        rw [named,found] at there
        cases there
        rw [cancelled] at waiting
        cases waiting

theorem run_waits {labels : List (Operation × Bool)} {claims limit : Nat} (sound : Sound s)
    (path : Run (Guarded (fun _ label => Orderly row label.1) (Marked roomy (Step codec alpha))) s labels t)
    (fate : Fate claims 0 limit row s) : Sound t ∧ Fate claims (marks labels) limit row t := by
  induction path with
  | nil => exact ⟨sound,fate⟩
  | @step labels m label t _ last ih =>
    obtain ⟨orderly,flag,step⟩ := last
    obtain ⟨sound,fate⟩ := ih
    rw [marks_step,flag]
    exact ⟨sound_step sound step,fate_step sound fate step orderly⟩

-- A task with n tasks of its user before it is claimed, or stopped with its batch,
-- by the (n+1)st pass that has room for every user.
theorem claimed_within {before : List Operation} {labels : List (Operation × Bool)} {u : Task}
    (reached : Run (Step codec alpha) {} before s) (waits : row ∈ eligibleRows s.db) (found : s.db.tasks[row.task]? = some u)
    (path : Run (Guarded (fun _ label => Orderly row label.1) (Marked roomy (Step codec alpha))) s labels t)
    (enough : ahead s.db row < marks labels) :
    ∃ v, t.db.tasks[row.task]? = some v ∧ (u.attempts < v.attempts ∨ v.status = .cancelled) := by
  have fate : Fate u.attempts 0 (ahead s.db row) row s := .waiting waits found rfl (Nat.zero_add _).le
  cases (run_waits (run_sound reached) path fate).2 with
  | waiting _ _ _ room => omega
  | claimed there more => exact ⟨_,there,.inl more⟩
  | stopped there cancelled => exact ⟨_,there,.inr cancelled⟩

-- The last line of a batch of three, beside another user's batch; one pass finds its node full.
def lastLine : EligibleRow := ⟨1,2,1,2⟩
def busy : List Operation := [nodeWith 2,.grant 1 100 none,.grant 2 100 none,submitShort 1 3 1,submitShort 2 2 2]
def threePasses : List (Operation × Bool) :=
  [(claimPass,true),(submitShort 2 2 3,false),(.claimAndAssign (fun _ => 2) 4,false),(.completeTask 0 .null 3 2 4,false),
    (claimPass,true),(submitShort 1 1 5,false),(claimPass,true)]

theorem claimed_within_three : ∃ s t : Service,
    (∃ u, s.db.tasks[2]? = some u ∧ u.attempts = 0) ∧ ahead s.db lastLine = 2 ∧
    ∃ v, t.db.tasks[2]? = some v ∧ (0 < v.attempts ∨ v.status = .cancelled) := by
  have ran : (replay (advance JsonText.codec (3/10)) busy {}).any (fun s => decide (
      (lastLine ∈ eligibleRows s.db ∧ ahead s.db lastLine = 2 ∧ (s.db.tasks[2]?).any (fun u => u.attempts = 0) = true) ∧
      (replay (checked (fun s label => Orderly lastLine label.1 ∧ label.2 = roomy s label.1)
        fun label => advance JsonText.codec (3/10) label.1) threePasses s).any (fun _ => true) = true)) =
      true := by decide +kernel
  obtain ⟨s,reached,facts⟩ := replay_reaches ran
  obtain ⟨⟨waits,two,fresh⟩,later⟩ := of_decide_eq_true facts
  obtain ⟨t,path,_⟩ := checked_reaches later
  have reached : Run (Step JsonText.codec (3/10)) {} busy s := reached
  have path : Run (Guarded (fun _ label => Orderly lastLine label.1) (Marked roomy (Step JsonText.codec (3/10)))) s threePasses t :=
    path.weaken fun _ _ _ step => ⟨step.1.1,step.1.2,step.2⟩
  cases found : s.db.tasks[2]? with
  | none =>
    rw [found] at fresh
    cases fresh
  | some u =>
    rw [found,Option.any_some] at fresh
    have unclaimed := of_decide_eq_true fresh
    have served := claimed_within reached waits found path (by rw [two]; decide)
    rw [unclaimed] at served
    exact ⟨s,t,⟨u,found,unclaimed⟩,two,served⟩

end BatchGateway.BoundedWaiting
