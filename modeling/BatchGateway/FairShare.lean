import BatchGateway.JsonText
import BatchGateway.Records

namespace BatchGateway.FairShare
open Service LabelledRuns Records Dispatcher RoundRobin

-- `attempts` counts the claims of a task.
def timesClaimed (db : Db) (user : UserId) : Nat :=
  (db.tasks.map (fun t => if db.owner t = some user then t.attempts else 0)).sum

def Eligible (db : Db) (user : UserId) : Prop := ∃ row ∈ eligibleRows db, row.user = user

-- The slots a claim pass may fill.
def passCapacity (s : Service) : Operation → Int
  | .claimAndAssign load _ => totalCapacity (capacity load s.db)
  | _ => 0

-- A pass that ends between a turn of `ahead` and the turn of `behind` in the same round
-- of the round robin.
def splitting (ahead behind : UserId) (s : Service) : Operation → Bool
  | .claimAndAssign load _ => decide (Splits (totalCapacity (capacity load s.db)).toNat ahead behind (userQueues s.db))
  | _ => false

instance (db : Db) (user : UserId) : Decidable (Eligible db user) :=
  inferInstanceAs (Decidable (∃ row ∈ eligibleRows db, row.user = user))

def owners (db : Db) : List UserId := (db.batches.map Batch.submission).map Submission.userId

theorem owner_owners (db : Db) (t : Task) : db.owner t = (owners db)[t.batchId]? := by
  simp only [Db.owner,owners,List.getElem?_map,Option.map_map]
  rfl

def share (owners : List UserId) (user : UserId) (record : Request × Nat) : Nat :=
  if owners[record.1.batchId]? = some user then record.2 else 0

theorem timesClaimed_records (db : Db) (user : UserId) :
    timesClaimed db user = ((db.tasks.map Task.record).map (share (owners db) user)).sum := by
  rw [timesClaimed,List.map_map]
  refine congrArg List.sum (List.map_congr_left fun t _ => ?_)
  exact if_congr (by rw [owner_owners]; rfl) rfl rfl

variable {codec : PythonJson.Codec} {alpha : ℚ} {s t : Service} {op : Operation}

-- Only claim passes count.
theorem timesClaimed_other (valid : Linked s.db) (step : Step codec alpha s op t)
    (other : ∀ load now, op ≠ .claimAndAssign load now) (user : UserId) :
    timesClaimed t.db user = timesClaimed s.db user := by
  have longer : owners t.db = owners s.db ++ ((createdBatches op).map Batch.submission).map Submission.userId := by
    rw [owners,step_submissions step,List.map_append]
    rfl
  have old : ∀ row ∈ s.db.tasks.map Task.record, share (owners t.db) user row = share (owners s.db) user row := by
    intro row member
    obtain ⟨task,listed,rfl⟩ := List.mem_map.mp member
    have inside : task.batchId < (owners s.db).length := by
      simpa [owners] using valid.owned task listed
    have same : (owners t.db)[task.batchId]? = (owners s.db)[task.batchId]? := by
      rw [longer,List.getElem?_append_left inside]
    exact if_congr (Eq.to_iff (congrArg (· = some user) same)) rfl rfl
  have created : ∀ row ∈ (createdTasks s op).map Task.record, share (owners t.db) user row = 0 := by
    intro row member
    obtain ⟨task,listed,rfl⟩ := List.mem_map.mp member
    have unclaimed : task.attempts = 0 := by
      cases op with
      | createBatch =>
        obtain ⟨p,_,rfl⟩ := List.mem_map.mp listed
        rfl
      | _ => cases listed
    simp [share,Task.record,unclaimed]
  rw [timesClaimed_records,timesClaimed_records,step_records step other,List.map_append,List.sum_append,
    List.map_congr_left old,List.map_congr_left created]
  simp [Function.comp_def]

theorem claimed_rows (limit : Int) (db : Db) (user : UserId) :
    (db.tasks.zipIdx.filter
      (fun r => decide (r.2 ∈ (claimTasks limit db).map Prod.snd ∧ db.owner r.1 = some user))).length =
      served user (claimTasks limit db) := by
  have rows : ((db.tasks.zipIdx.filter
      (fun r => decide (r.2 ∈ (claimTasks limit db).map Prod.snd ∧ db.owner r.1 = some user))).map Prod.snd).Nodup :=
    Rows.selected_distinct _ _
  have mine : (((claimTasks limit db).filter (fun row => row.1 = user)).map Prod.snd).Nodup :=
    (List.filter_sublist.map Prod.snd).nodup (claimed_distinct limit db)
  have same := (List.perm_ext_iff_of_nodup rows mine).mpr fun i => ?_
  · have sizes := same.length_eq
    rw [List.length_map,List.length_map] at sizes
    rw [sizes,served,List.countP_eq_length_filter]
  · simp only [List.mem_map,List.mem_filter,decide_eq_true_eq,Prod.exists,exists_eq_right]
    constructor
    · rintro ⟨t,listed,⟨other,claimed⟩,owned⟩
      obtain ⟨t',b,found,batch,_,_,named⟩ := claimed_eligible claimed
      cases (List.mk_mem_zipIdx_iff_getElem?.mp listed).symm.trans found
      have who : some user = some other := by
        rw [← owned,← named]
        simp [Db.owner,batch]
      cases who
      exact claimed
    · intro claimed
      obtain ⟨t,b,found,batch,_,_,named⟩ := claimed_eligible claimed
      exact ⟨t,List.mk_mem_zipIdx_iff_getElem?.mpr found,⟨user,claimed⟩,by simp [Db.owner,batch,named]⟩

-- A pass claims for each user what the round robin serves it.
theorem timesClaimed_pass {db : Db} (valid : Linked db) (load : InFlight) (now : Instant) (user : UserId) :
    timesClaimed (claimAndAssign load now db).1 user =
      timesClaimed db user + served user (claimTasks (totalCapacity (capacity load db)) db) := by
  have counted : timesClaimed (claimAndAssign load now db).1 user = timesClaimed db user +
      (db.tasks.zipIdx.filter (fun r => decide (r.2 ∈ (assignments load db).map Assignment.task ∧
        db.owner r.1 = some user))).length := by
    change ((startTasks (assignments load db) now db.tasks).map
      (fun t => if db.owner t = some user then t.attempts else 0)).sum = timesClaimed db user + _
    refine Rows.sum_mapIdx_chosen
      (fun i t => decide (i ∈ (assignments load db).map Assignment.task ∧ db.owner t = some user)) fun i row found => ?_
    have started := startTasks_parts load now db found
    simp only [startTasks,List.getElem?_mapIdx,found,Option.map_some,Option.some.injEq] at started
    rcases started with ⟨unclaimed,kept⟩ | ⟨claimed,_,node,changed⟩
    · rw [kept]
      simp only [unclaimed,false_and,decide_false,Bool.false_eq_true,if_false,Nat.add_zero]
    · rw [changed]
      have owner : db.owner (Dispatcher.Task.start node now row) = db.owner row := rfl
      simp only [owner]
      by_cases mine : db.owner row = some user
      · simp [mine,claimed,Dispatcher.Task.start]
      · simp [mine]
  rw [counted,assigned_all valid.nodes,claimed_rows]

-- Who still has an eligible task after a pass was not served to the end.
theorem pass_waits {db : Db} (valid : Linked db) {load : InFlight} {now : Instant} {user : UserId}
    (eligible : Eligible (claimAndAssign load now db).1 user) :
    served user (claimTasks (totalCapacity (capacity load db)) db) < (waitingOf user (userQueues db)).length := by
  obtain ⟨row,listed,named⟩ := eligible
  obtain ⟨t,b,found,owned,waiting,open_,shape⟩ := eligible_parts listed
  have mine : b.userId = user := by rw [← named,shape]
  change (startTasks (assignments load db) now db.tasks)[row.task]? = some t at found
  change db.batches[t.batchId]? = some b at owned
  have before : db.tasks[row.task]? = some t ∧ row.task ∉ (assignments load db).map Assignment.task := by
    cases prior : db.tasks[row.task]? with
    | none => simp [startTasks,List.getElem?_mapIdx,prior] at found
    | some old =>
      rcases startTasks_parts load now db prior with ⟨unclaimed,kept⟩ | ⟨_,_,node,changed⟩
      · cases kept.symm.trans found
        exact ⟨rfl,unclaimed⟩
      · cases changed.symm.trans found
        cases waiting
  have waits : (user,row.task) ∈ (eligibleRows db).map (fun r => (r.user,r.task)) :=
    List.mem_map.mpr ⟨_,eligible_listed before.1 owned waiting open_,by rw [mine]⟩
  have within := (claimed_subperm (totalCapacity (capacity load db)) db).filter (fun r => decide (r.1 = user))
  rw [userQueues,waitingOf_group,List.length_map,served,List.countP_eq_length_filter]
  by_contra full
  have same := within.perm_of_length_le (Nat.not_lt.mp full)
  have claimed := (List.mem_filter.mp (same.mem_iff.mpr (List.mem_filter.mpr ⟨waits,by simp⟩))).1
  refine before.2 ?_
  rw [assigned_all valid.nodes]
  exact List.mem_map_of_mem claimed

-- A pass serves nobody more than one task before who still waits, and that one only where it splits.
theorem pass_level {db : Db} (valid : Linked db) {load : InFlight} {now : Instant} (ahead : UserId) {behind : UserId}
    (eligible : Eligible (claimAndAssign load now db).1 behind) :
    served ahead (claimTasks (totalCapacity (capacity load db)) db) ≤
      served behind (claimTasks (totalCapacity (capacity load db)) db) +
        (decide (Splits (totalCapacity (capacity load db)).toNat ahead behind (userQueues db))).toNat := by
  have waits := pass_waits valid eligible
  unfold claimTasks at waits ⊢
  by_cases closed : totalCapacity (capacity load db) ≤ 0
  · rw [if_pos closed]
    exact Nat.zero_le _
  · rw [if_neg closed] at waits ⊢
    by_cases splits : Splits (totalCapacity (capacity load db)).toNat ahead behind (userQueues db)
    · rw [decide_eq_true splits]
      exact served_near (group_keys _) waits
    · rw [decide_eq_false splits]
      exact served_level (group_keys _) splits waits

-- How far a user is ahead of another.
def lead (ahead behind : UserId) (s : Service) : Int := timesClaimed s.db ahead - timesClaimed s.db behind

theorem step_level (valid : Linked s.db) (step : Step codec alpha s op t) (ahead : UserId) {behind : UserId}
    (eligible : Eligible t.db behind) : lead ahead behind t ≤ lead ahead behind s + (splitting ahead behind s op).toNat := by
  unfold lead
  by_cases claims : ∃ load now, op = .claimAndAssign load now
  · obtain ⟨load,now,rfl⟩ := claims
    cases step
    have level := pass_level valid ahead eligible
    have first := timesClaimed_pass valid load now ahead
    have second := timesClaimed_pass valid load now behind
    change (timesClaimed (claimAndAssign load now s.db).1 ahead : Int) - timesClaimed (claimAndAssign load now s.db).1 behind ≤
      _ + ((decide (Splits (totalCapacity (capacity load s.db)).toNat ahead behind (userQueues s.db))).toNat : Int)
    omega
  · have other : ∀ load now, op ≠ .claimAndAssign load now := fun load now same => claims ⟨load,now,same⟩
    rw [timesClaimed_other valid step other,timesClaimed_other valid step other]
    omega

-- A stretch of a run in which both users have an eligible task all the time.
def BothEligible (u v : UserId) (capacityBound : Nat) (s : Service) (op : Operation) : Prop :=
  Eligible s.db u ∧ Eligible s.db v ∧ passCapacity s op ≤ capacityBound

instance (u v : UserId) (capacityBound : Nat) (s : Service) (op : Operation) :
    Decidable (BothEligible u v capacityBound s op) :=
  inferInstanceAs (Decidable (Eligible s.db u ∧ Eligible s.db v ∧ passCapacity s op ≤ capacityBound))

-- The lead of v grows by one in a pass that splits, and in no other: it stays within the
-- bound as long as no more passes than that do.
theorem fair_share_across_passes {before : List Operation} {labels : List (Operation × Bool)} {u v : UserId} {capacityBound : Nat}
    (reached : Run (Step codec alpha) {} before s)
    (path : Run (Guarded (fun s label => BothEligible u v capacityBound s label.1) (Marked (splitting v u) (Step codec alpha)))
      s labels t)
    (last : Eligible t.db u ∧ Eligible t.db v) (few : marks labels ≤ capacityBound) :
    timesClaimed t.db v + timesClaimed s.db u ≤
      timesClaimed t.db u + timesClaimed s.db v + capacityBound := by
  suffices level : lead v u t ≤ lead v u s + marks labels by
    unfold lead at level
    omega
  suffices whole : Linked t.db ∧ lead v u t ≤ lead v u s + marks labels from whole.2
  clear few
  have linked := run_linked reached
  induction path with
  | nil => exact ⟨linked,by simp [marks]⟩
  | step prior next ih =>
    obtain ⟨both,flag,taken⟩ := next
    obtain ⟨valid,earlier⟩ := ih ⟨both.1,both.2.1⟩
    have now := step_level valid taken v last.1
    rw [marks_step,flag]
    refine ⟨linked_preserved valid taken,?_⟩
    push_cast
    omega

-- One slot: the first of two passes splits, and the lead stays at one.
def oneSlot : List Operation :=
  [nodeWith 1,.grant 1 100 none,.grant 2 100 none,submitShort 1 2 1,submitShort 2 2 2]

theorem fair_share_one_slot : ∃ s t : Service, timesClaimed t.db 1 = timesClaimed s.db 1 + 1 ∧
    timesClaimed t.db 1 + timesClaimed s.db 2 ≤ timesClaimed t.db 2 + timesClaimed s.db 1 + (1 : Nat) := by
  have set : (replay (advance JsonText.codec (3/10)) oneSlot {}).any (fun s => decide (
      (replay (checked (fun s label => BothEligible 2 1 1 s label.1 ∧ label.2 = splitting 1 2 s label.1)
        fun label => advance JsonText.codec (3/10) label.1) [(claimPass,true)] s).any (fun t => decide (
          (Eligible t.db 2 ∧ Eligible t.db 1) ∧ timesClaimed t.db 1 = timesClaimed s.db 1 + 1)) = true)) = true := by
    decide +kernel
  obtain ⟨s,reached,ran⟩ := replay_reaches set
  obtain ⟨t,path,facts⟩ := checked_reaches (of_decide_eq_true ran)
  have facts := of_decide_eq_true facts
  have reached : Run (Step JsonText.codec (3/10)) {} oneSlot s := reached
  have path : Run (Guarded (fun s label => BothEligible 2 1 1 s label.1) (Marked (splitting 1 2) (Step JsonText.codec (3/10))))
      s [(claimPass,true)] t := path.weaken fun _ _ _ step => ⟨step.1.1,step.1.2,step.2⟩
  exact ⟨s,t,facts.2,fair_share_across_passes reached path facts.1 (by decide)⟩

-- One slot and two users: the older batch is served until it is empty.
def waiting : List Operation :=
  [nodeWith 1,.grant 1 100 none,.grant 2 100 none,submitShort 1 3 1,submitShort 2 1 2]
def passes : List Operation := [claimPass,.completeTask 0 .null 3 2 0,claimPass,.completeTask 1 .null 3 2 0]

theorem younger_batch_starves : ∃ s t : Service, Run (Step JsonText.codec (3/10)) {} waiting s ∧
    Run (Guarded (BothEligible 2 1 1) (Step JsonText.codec (3/10))) s passes t ∧
    (Eligible t.db 2 ∧ Eligible t.db 1) ∧
    ¬ timesClaimed t.db 1 + timesClaimed s.db 2 ≤ timesClaimed t.db 2 + timesClaimed s.db 1 + 1 := by
  have ran : (replay (advance JsonText.codec (3/10)) waiting {}).any (fun s => decide (
      (replay (checked (BothEligible 2 1 1) (advance JsonText.codec (3/10))) passes s).any (fun t => decide (
        (Eligible t.db 2 ∧ Eligible t.db 1) ∧
        ¬ timesClaimed t.db 1 + timesClaimed s.db 2 ≤ timesClaimed t.db 2 + timesClaimed s.db 1 + 1)) = true)) =
      true := by decide +kernel
  obtain ⟨s,reached,later⟩ := replay_reaches ran
  obtain ⟨t,path,facts⟩ := checked_reaches (of_decide_eq_true later)
  have facts := of_decide_eq_true facts
  exact ⟨s,t,reached,path,facts.1,facts.2⟩

end BatchGateway.FairShare
