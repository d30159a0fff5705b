import BatchGateway.JsonText
import BatchGateway.Records
import Mathlib.Algebra.Order.BigOperators.Group.List

namespace BatchGateway.Reservations
open BatchOps Service LabelledRuns

-- What a task holds of a user's reserved tokens.
def holdOf (db : Db) (user : UserId) (t : Task) : Int :=
  if t.live = true ∧ db.owner t = some user then t.reservedTokens else 0

def liveHolds (db : Db) (user : UserId) : Int := (db.tasks.map (holdOf db user)).sum

def users (db : Db) : List UserId := db.batches.map Batch.userId

structure Held (db : Db) : Prop where
  reserved : ∀ user, (db.getOrCreateBudget user).reservedTokens = liveHolds db user
  owned : ∀ t ∈ db.tasks, t.batchId < db.batches.length
  nonnegative : ∀ t ∈ db.tasks, 0 ≤ t.reservedTokens

-- An execution is settled while its task is still RUNNING: its batch has not
-- been cancelled or expired since the claim. No submitted line holds a negative
-- number of tokens.
def Timely (s : Service) : Operation → Prop
  | .createBatch _ _ _ _ lines _ => ∀ p ∈ lines, 0 ≤ p.reservedTokens
  | .completeTask task _ _ _ _ => s.db.tasks[task]?.map Task.status = some .running
  | .failTask task _ _ => s.db.tasks[task]?.map Task.status = some .running
  | _ => True

instance (s : Service) : (op : Operation) → Decidable (Timely s op)
  | .createBatch _ _ _ _ lines _ => inferInstanceAs (Decidable (∀ p ∈ lines, 0 ≤ p.reservedTokens))
  | .completeTask task _ _ _ _ => inferInstanceAs (Decidable (s.db.tasks[task]?.map Task.status = some .running))
  | .failTask task _ _ => inferInstanceAs (Decidable (s.db.tasks[task]?.map Task.status = some .running))
  | .grant _ _ _ | .uploadFile _ _ _ _ | .claimAndAssign _ _ | .cancelBatch _ _ _ | .expireBatch _ _
  | .purgeExpiredResults _ _ | .applyHealthResults _ _ | .startup _ => .isTrue trivial

-- What an operation asks the ledger to take off whose reserved tokens.
def takes (db : Db) : Operation → Option (UserId × Int)
  | .completeTask task _ _ _ _ => (db.tasks[task]?).bind (fun t => (db.owner t).map (fun u => (u,t.reservedTokens)))
  | .failTask task _ _ => (db.tasks[task]?).bind (fun t => (db.owner t).map (fun u => (u,t.reservedTokens)))
  | .cancelBatch user batch _ => some (user,holds (tasksToStop db batch))
  | .expireBatch batch _ => db.batches[batch]?.map (fun b => (b.userId,holds (tasksToStop db batch)))
  | _ => none

theorem owner_users (db : Db) (t : Task) : db.owner t = (users db)[t.batchId]? := by
  simp [Db.owner,users]

theorem holdOf_users {db after : Db} (same : users after = users db) (user : UserId) :
    holdOf after user = holdOf db user := by
  funext t
  simp [holdOf,owner_users,same]

theorem users_length (db : Db) : (users db).length = db.batches.length := by simp [users]

theorem users_updateBatch {db : Db} {batch : BatchId} {f : Batch → Batch} (same : ∀ b, (f b).userId = b.userId) :
    users (db.updateBatch batch f) = users db :=
  Rows.map_modify_same same

theorem holdOf_live {db : Db} {t : Task} {owner : UserId} (live : t.live = true) (owned : db.owner t = some owner)
    (user : UserId) : holdOf db user t = if user = owner then t.reservedTokens else 0 := by
  simp only [holdOf,live,owned,true_and,Option.some.injEq,eq_comm]

theorem holdOf_ended {t : Task} (ended : t.live = false) (db : Db) (user : UserId) : holdOf db user t = 0 := by
  simp [holdOf,ended]

theorem holdOf_nonnegative {db : Db} {user : UserId} {t : Task} (size : 0 ≤ t.reservedTokens) :
    0 ≤ holdOf db user t := by
  unfold holdOf
  split
  · exact size
  · exact le_rfl

theorem sum_nonnegative {rows : List Task} {g : Task → Int} (each : ∀ t ∈ rows, 0 ≤ g t) : 0 ≤ (rows.map g).sum := by
  apply List.sum_nonneg
  intro n member
  obtain ⟨t,listed,rfl⟩ := List.mem_map.mp member
  exact each t listed

def holdColumns (t : Task) : Bool × BatchId × Int := (t.live,t.batchId,t.reservedTokens)

-- Whatever keeps the reserved tokens, the batches' users and these columns.
theorem Held.transport {db after : Db} (valid : Held db)
    (reserved : ∀ user, (after.getOrCreateBudget user).reservedTokens = (db.getOrCreateBudget user).reservedTokens)
    (same : users after = users db) (columns : after.tasks.map holdColumns = db.tasks.map holdColumns) : Held after := by
  have row : ∀ t ∈ after.tasks, ∃ old ∈ db.tasks, holdColumns old = holdColumns t := by
    intro t member
    exact List.mem_map.mp (columns ▸ List.mem_map_of_mem member)
  have share : ∀ user, holdOf db user = (fun c : Bool × BatchId × Int =>
      if c.1 = true ∧ (users db)[c.2.1]? = some user then c.2.2 else 0) ∘ holdColumns := by
    intro user
    funext t
    exact if_congr (by rw [owner_users]; rfl) rfl rfl
  refine ⟨fun user => ?_,fun t member => ?_,fun t member => ?_⟩
  · rw [reserved,valid.reserved,liveHolds,liveHolds,holdOf_users same,share,← List.map_map,← List.map_map,columns]
  · obtain ⟨old,listed,cols⟩ := row t member
    have batch : old.batchId = t.batchId := congrArg (fun c => c.2.1) cols
    rw [← users_length,same,users_length,← batch]
    exact valid.owned old listed
  · obtain ⟨old,listed,cols⟩ := row t member
    have size : old.reservedTokens = t.reservedTokens := congrArg (fun c => c.2.2) cols
    rw [← size]
    exact valid.nonnegative old listed

-- One task stops being live: its hold leaves the sum.
theorem liveHolds_settled {db after : Db} {task : TaskId} {t : Task} {f : Task → Task}
    (found : db.tasks[task]? = some t) (tasks : after.tasks = db.tasks.modify task f)
    (same : users after = users db) (live : t.live = true) (ended : (f t).live = false)
    {owner : UserId} (owned : db.owner t = some owner) (user : UserId) :
    liveHolds after user + (if user = owner then t.reservedTokens else 0) = liveHolds db user := by
  have moved := Rows.sum_modify found f (holdOf db user)
  rw [holdOf_live live owned,holdOf_ended ended,add_zero] at moved
  rw [liveHolds,tasks,holdOf_users same]
  exact moved

theorem hold_within {db : Db} (valid : Held db) {task : TaskId} {t : Task} (found : db.tasks[task]? = some t)
    (live : t.live = true) {owner : UserId} (owned : db.owner t = some owner) :
    t.reservedTokens ≤ (db.getOrCreateBudget owner).reservedTokens := by
  have moved := Rows.sum_modify found (fun t => {t with status := .cancelled}) (holdOf db owner)
  have rest : 0 ≤ ((db.tasks.modify task (fun t => {t with status := .cancelled})).map (holdOf db owner)).sum := by
    apply sum_nonnegative
    intro row member
    rcases Rows.mem_modify member with old | ⟨old,at_,rfl⟩
    · exact holdOf_nonnegative (valid.nonnegative row old)
    · exact holdOf_nonnegative (valid.nonnegative old (List.mem_of_getElem? at_))
  rw [holdOf_live live owned,if_pos rfl,holdOf_ended rfl] at moved
  rw [valid.reserved,liveHolds]
  omega

theorem post_reserved (db : Db) (user : UserId) (row : Budget) (entry : LedgerEntry) (other : UserId) :
    ((Ledger.post db user row entry).getOrCreateBudget other).reservedTokens =
      if other = user then row.reservedTokens else (db.getOrCreateBudget other).reservedTokens := by
  by_cases same : other = user
  · rw [if_pos same,same,Ledger.post_budget_self]
  · rw [if_neg same,Ledger.post_budget_other same]

theorem liveHolds_added {db : Db} (owned : ∀ t ∈ db.tasks, t.batchId < db.batches.length) (b : Batch)
    (lines : List BatchInput.ParsedLine) (user : UserId) :
    liveHolds (addBatch db b lines) user = liveHolds db user + if user = b.userId then totalReserve lines else 0 := by
  have older : ∀ t ∈ db.tasks, holdOf (addBatch db b lines) user t = holdOf db user t := by
    intro t member
    have kept : (addBatch db b lines).owner t = db.owner t := by
      simp only [Db.owner,addBatch,List.getElem?_append_left (owned t member)]
    simp only [holdOf,kept]
  have newer : ∀ p ∈ lines, (holdOf (addBatch db b lines) user ∘ newTask db.batches.length) p =
      if user = b.userId then p.reservedTokens else 0 := by
    intro p _
    simp [holdOf,Db.owner,addBatch,newTask,Task.live,TaskStatus.live,eq_comm]
  have added : (lines.map (fun p => if user = b.userId then p.reservedTokens else 0)).sum =
      if user = b.userId then totalReserve lines else 0 := by
    by_cases same : user = b.userId <;> simp [same,totalReserve]
  calc liveHolds (addBatch db b lines) user
      = ((db.tasks ++ lines.map (newTask db.batches.length)).map (holdOf (addBatch db b lines) user)).sum := rfl
    _ = (db.tasks.map (holdOf db user)).sum +
          (lines.map (fun p => if user = b.userId then p.reservedTokens else 0)).sum := by
        rw [List.map_append,List.sum_append,List.map_map,List.map_congr_left older,List.map_congr_left newer]
    _ = liveHolds db user + if user = b.userId then totalReserve lines else 0 := by rw [added,liveHolds]

theorem held_created {db after : Db} (valid : Held db) {user : UserId} {inputFile : FileId}
    {endpoint window : PythonText.Str} {lines : List BatchInput.ParsedLine} {now : Instant} {batch : BatchId}
    (sizes : ∀ p ∈ lines, 0 ≤ p.reservedTokens)
    (created : createBatch codec user inputFile endpoint window lines now db = .ok (after,batch)) : Held after := by
  obtain ⟨_,_,_,entry,_,rfl⟩ := createBatch_parts created
  refine ⟨fun other => ?_,fun t member => ?_,fun t member => ?_⟩
  · have total := liveHolds_added valid.owned (newBatch user inputFile endpoint window lines now) lines other
    have before := valid.reserved other
    have named : (newBatch user inputFile endpoint window lines now).userId = user := rfl
    rw [post_reserved]
    change _ = liveHolds (addBatch db _ lines) other
    rw [total,named]
    by_cases same : other = user
    · subst same
      simp only [if_true]
      omega
    · simp only [same,if_false,add_zero]
      exact before
  · change t ∈ db.tasks ++ lines.map (newTask db.batches.length) at member
    change t.batchId < (db.batches ++ [_]).length
    rw [List.length_append]
    rcases List.mem_append.mp member with old | new
    · exact Nat.lt_add_right _ (valid.owned t old)
    · obtain ⟨p,_,rfl⟩ := List.mem_map.mp new
      exact Nat.lt_succ_self _
  · change t ∈ db.tasks ++ lines.map (newTask db.batches.length) at member
    rcases List.mem_append.mp member with old | new
    · exact valid.nonnegative t old
    · obtain ⟨p,listed,rfl⟩ := List.mem_map.mp new
      exact sizes p listed

-- A live task is settled and its hold is taken off the reserved tokens.
theorem held_settled {db after : Db} (valid : Held db) {task : TaskId} {t : Task} {f : Task → Task}
    (found : db.tasks[task]? = some t) (live : t.live = true) {owner : UserId} (owned : db.owner t = some owner)
    (tasks : after.tasks = db.tasks.modify task f) (same : users after = users db)
    (kept : ∀ t, (f t).live = false ∧ (f t).batchId = t.batchId ∧ (f t).reservedTokens = t.reservedTokens)
    (reserved : ∀ user, (after.getOrCreateBudget user).reservedTokens =
      (db.getOrCreateBudget user).reservedTokens - if user = owner then t.reservedTokens else 0) : Held after := by
  have row : ∀ t ∈ after.tasks, ∃ old ∈ db.tasks, t.batchId = old.batchId ∧ t.reservedTokens = old.reservedTokens := by
    intro t member
    rw [tasks] at member
    rcases Rows.mem_modify member with old | ⟨old,at_,rfl⟩
    · exact ⟨t,old,rfl,rfl⟩
    · exact ⟨old,List.mem_of_getElem? at_,(kept old).2⟩
  refine ⟨fun user => ?_,fun t member => ?_,fun t member => ?_⟩
  · have left := liveHolds_settled found tasks same live (kept t).1 owned user
    rw [reserved,valid.reserved]
    omega
  · obtain ⟨old,listed,batch,_⟩ := row t member
    rw [← users_length,same,users_length,batch]
    exact valid.owned old listed
  · obtain ⟨old,listed,_,size⟩ := row t member
    rw [size]
    exact valid.nonnegative old listed

theorem owner_of {db : Db} {t : Task} {b : Batch} (owned : db.batches[t.batchId]? = some b) :
    db.owner t = some b.userId := by simp [Db.owner,owned]

-- A posting that takes from the reservation of one user.
theorem post_released {db : Db} {owner : UserId} {row : Budget} {amount : Int} (entry : LedgerEntry)
    (less : row.reservedTokens = (db.getOrCreateBudget owner).reservedTokens - amount) (user : UserId) :
    ((Ledger.post db owner row entry).getOrCreateBudget user).reservedTokens =
      (db.getOrCreateBudget user).reservedTokens - if user = owner then amount else 0 := by
  rw [post_reserved]
  by_cases same : user = owner
  · rw [if_pos same,if_pos same,same,less]
  · rw [if_neg same,if_neg same,sub_zero]

-- The hold of a live task goes with its settlement.
theorem held_released {db after : Db} (valid : Held db) {task : TaskId} {t : Task} {f : Task → Task}
    (found : db.tasks[task]? = some t) (live : t.live = true) {b : Batch} (owned : db.batches[t.batchId]? = some b)
    (tasks : after.tasks = db.tasks.modify task f) (same : users after = users db)
    (kept : ∀ t, (f t).live = false ∧ (f t).batchId = t.batchId ∧ (f t).reservedTokens = t.reservedTokens)
    (reserved : ∀ user, (after.getOrCreateBudget user).reservedTokens =
      (db.getOrCreateBudget user).reservedTokens - if user = b.userId then t.reservedTokens else 0) :
    Held after ∧ ∃ owner, db.owner t = some owner ∧ t.reservedTokens ≤ (db.getOrCreateBudget owner).reservedTokens ∧
      (after.getOrCreateBudget owner).reservedTokens = (db.getOrCreateBudget owner).reservedTokens - t.reservedTokens :=
  ⟨held_settled valid found live (owner_of owned) tasks same kept reserved,b.userId,owner_of owned,
    hold_within valid found live (owner_of owned),by rw [reserved,if_pos rfl]⟩

theorem held_completed {db after : Db} (valid : Held db) {alpha : ℚ} {task : TaskId} {t : Task}
    {responseBody : PythonJson.Json} {promptTokens completionTokens : Int} {now : Instant}
    (found : db.tasks[task]? = some t) (live : t.live = true)
    (done : commitCompleted codec alpha task responseBody promptTokens completionTokens now db = .ok after) :
    Held after ∧ ∃ owner, db.owner t = some owner ∧ t.reservedTokens ≤ (db.getOrCreateBudget owner).reservedTokens ∧
      (after.getOrCreateBudget owner).reservedTokens = (db.getOrCreateBudget owner).reservedTokens - t.reservedTokens := by
  obtain ⟨_,b,stat,amount,entry,found',owned,_,_,size,_,rfl⟩ := commitCompleted_parts done
  cases found.symm.trans found'
  have within := hold_within valid found live (owner_of owned)
  have whole : amount = t.reservedTokens := by omega
  subst whole
  exact held_released valid found live owned rfl (users_updateBatch fun _ => rfl) (fun _ => ⟨rfl,rfl,rfl⟩)
    (post_released entry rfl)

theorem held_failed {db after : Db} (valid : Held db) {task : TaskId} {t : Task} {error : PythonText.Str}
    {now : Instant} (found : db.tasks[task]? = some t) (live : t.live = true)
    (done : commitFailed task error now db = .ok after) :
    Held after ∧ ∃ owner, db.owner t = some owner ∧ t.reservedTokens ≤ (db.getOrCreateBudget owner).reservedTokens ∧
      (after.getOrCreateBudget owner).reservedTokens = (db.getOrCreateBudget owner).reservedTokens - t.reservedTokens := by
  obtain ⟨_,b,found',owned,cases_⟩ := commitFailed_parts done
  cases found.symm.trans found'
  have within := hold_within valid found live (owner_of owned)
  have sign := valid.nonnegative t (List.mem_of_getElem? found)
  rcases cases_ with ⟨free,rfl⟩ | ⟨held,amount,entry,size,_,rfl⟩
  · have nothing : t.reservedTokens = 0 := by omega
    refine held_released valid found live owned rfl (users_updateBatch fun _ => rfl) (fun _ => ⟨rfl,rfl,rfl⟩) fun user => ?_
    rw [nothing,ite_self,sub_zero]
    rfl
  · have whole : amount = t.reservedTokens := by omega
    subst whole
    exact held_released valid found live owned rfl (users_updateBatch fun _ => rfl) (fun _ => ⟨rfl,rfl,rfl⟩)
      (post_released entry rfl)

theorem held_claimed {db : Db} (valid : Held db) (load : Dispatcher.InFlight) (now : Instant) :
    Held (Dispatcher.claimAndAssign load now db).1 := by
  refine valid.transport (fun _ => rfl) rfl (Rows.map_mapIdx_same fun i t found => ?_)
  rcases Dispatcher.startTask_parts load now db found with ⟨_,same⟩ | ⟨_,waiting,node,started⟩
  · rw [same]
  rw [started]
  simp [holdColumns,Dispatcher.Task.start,Task.live,TaskStatus.live,waiting]

theorem held_recovered {db : Db} (valid : Held db) (nodes : List Dispatcher.NodeConfig) :
    Held (Dispatcher.startup nodes db) := by
  refine valid.transport (fun _ => rfl) rfl ?_
  change (db.tasks.map Dispatcher.Task.recover).map holdColumns = db.tasks.map holdColumns
  rw [List.map_map]
  apply List.map_congr_left
  intro t _
  simp only [Function.comp_apply,Dispatcher.Task.recover]
  split
  · rename_i running
    simp [holdColumns,Task.live,TaskStatus.live,running]
  · rfl

theorem holds_live (db : Db) (batch : BatchId) :
    holds (tasksToStop db batch) =
      (db.tasks.map (fun t => if t.batchId == batch && t.live then t.reservedTokens else 0)).sum := by
  rw [holds,tasksToStop,Rows.map_selected db.tasks (fun t => t.batchId == batch && t.live) Task.reservedTokens,
    Rows.sum_filter]

theorem liveHolds_stopped {db : Db} {batch : BatchId} {b : Batch} (found : db.batches[batch]? = some b)
    (terminal : BatchStatus) (now : Instant) (user : UserId) :
    liveHolds (stopped (tasksToStop db batch) batch terminal now db) user +
      (if user = b.userId then holds (tasksToStop db batch) else 0) = liveHolds db user := by
  have same : users (stopped (tasksToStop db batch) batch terminal now db) = users db :=
    (users_updateBatch (terminate_user terminal now)).trans rfl
  have share : ∀ t : Task, holdOf db user (if t.batchId == batch && t.live then Task.cancel now t else t) +
      (if user = b.userId then (if t.batchId == batch && t.live then t.reservedTokens else 0) else 0) =
        holdOf db user t := by
    intro t
    by_cases chosen : (t.batchId == batch && t.live) = true
    · have parts : t.batchId = batch ∧ t.live = true := by simpa using chosen
      have owner : db.owner t = some b.userId := by simp [Db.owner,parts.1,found]
      rw [if_pos chosen,if_pos chosen,holdOf_ended rfl,holdOf_live parts.2 owner,zero_add]
    · rw [if_neg chosen,if_neg chosen,ite_self,add_zero]
  have tasks : (stopped (tasksToStop db batch) batch terminal now db).tasks =
      db.tasks.map (fun t => if t.batchId == batch && t.live then Task.cancel now t else t) := stopTasks_live db batch now
  have taken : (if user = b.userId then holds (tasksToStop db batch) else 0) = (db.tasks.map (fun t =>
      if user = b.userId then (if t.batchId == batch && t.live then t.reservedTokens else 0) else 0)).sum := by
    by_cases mine : user = b.userId
    · simp only [mine,if_true,holds_live]
    · simp [mine]
  rw [liveHolds,tasks,holdOf_users same,List.map_map,taken,← List.sum_map_add]
  exact congrArg List.sum (List.map_congr_left fun t _ => share t)

theorem stopped_row {db : Db} {batch : BatchId} {terminal : BatchStatus} {now : Instant} {t : Task}
    (member : t ∈ (stopped (tasksToStop db batch) batch terminal now db).tasks) :
    ∃ old ∈ db.tasks, t.batchId = old.batchId ∧ t.reservedTokens = old.reservedTokens := by
  change t ∈ stopTasks ((tasksToStop db batch).map Prod.snd) now db.tasks at member
  rw [stopTasks_live] at member
  obtain ⟨old,listed,rfl⟩ := List.mem_map.mp member
  refine ⟨old,listed,?_⟩
  split <;> exact ⟨rfl,rfl⟩

theorem held_terminated {db after : Db} (valid : Held db) {batch : BatchId} {b : Batch}
    (found : db.batches[batch]? = some b) {terminal : BatchStatus} {note : String} {now : Instant}
    (done : terminateBatch b.userId batch terminal note now db = .ok after) :
    Held after ∧ holds (tasksToStop db batch) ≤ (db.getOrCreateBudget b.userId).reservedTokens ∧
      (after.getOrCreateBudget b.userId).reservedTokens =
        (db.getOrCreateBudget b.userId).reservedTokens - holds (tasksToStop db batch) := by
  have left := liveHolds_stopped found terminal now
  have sizes : ∀ t ∈ (stopped (tasksToStop db batch) batch terminal now db).tasks, 0 ≤ t.reservedTokens := by
    intro t member
    obtain ⟨old,listed,_,size⟩ := stopped_row member
    rw [size]
    exact valid.nonnegative old listed
  have owned : ∀ t ∈ (stopped (tasksToStop db batch) batch terminal now db).tasks,
      t.batchId < (db.batches.modify batch (Batch.terminate terminal now)).length := by
    intro t member
    obtain ⟨old,listed,same,_⟩ := stopped_row member
    rw [same,List.length_modify]
    exact valid.owned old listed
  have within : holds (tasksToStop db batch) ≤ (db.getOrCreateBudget b.userId).reservedTokens := by
    have rest : 0 ≤ liveHolds (stopped (tasksToStop db batch) batch terminal now db) b.userId :=
      sum_nonnegative fun t member => holdOf_nonnegative (sizes t member)
    have mine := left b.userId
    rw [if_pos rfl] at mine
    rw [valid.reserved]
    omega
  have sign : 0 ≤ holds (tasksToStop db batch) := by
    rw [holds_live]
    refine sum_nonnegative fun t member => ?_
    split
    · exact valid.nonnegative t member
    · exact le_rfl
  rcases terminateSelected_parts done with ⟨free,rfl⟩ | ⟨held,amount,entry,size,_,rfl⟩
  · have nothing : holds (tasksToStop db batch) = 0 := by omega
    refine ⟨⟨fun user => ?_,owned,sizes⟩,within,by rw [nothing,sub_zero]; rfl⟩
    have mine := left user
    rw [nothing,ite_self,add_zero] at mine
    rw [mine]
    exact valid.reserved user
  · have whole : amount = holds (tasksToStop db batch) := by omega
    subst whole
    refine ⟨⟨fun user => ?_,owned,sizes⟩,within,by rw [post_reserved,if_pos rfl]⟩
    have mine := left user
    have before := valid.reserved user
    rw [post_reserved]
    change _ = liveHolds (stopped (tasksToStop db batch) batch terminal now db) user
    by_cases same : user = b.userId
    · rw [if_pos same] at mine ⊢
      subst same
      simp only
      omega
    · rw [if_neg same] at mine ⊢
      change (db.getOrCreateBudget user).reservedTokens = _
      omega

theorem held_finalized {db : Db} (valid : Held db) (codec : PythonJson.Codec) (task : TaskId) (now : Instant)
    (blobs : Blobs) : Held (finalizeAfter codec task now db blobs).1 := by
  rcases finalizeAfter_parts codec task now db blobs with same | ⟨t,b,_,_,_,same⟩
  · rw [same]
    exact valid
  · rw [same]
    exact valid.transport (fun _ => rfl) (Rows.map_modify_same fun _ => rfl) rfl

theorem finalized_reserved (codec : PythonJson.Codec) (task : TaskId) (now : Instant) (db : Db) (blobs : Blobs)
    (user : UserId) :
    ((finalizeAfter codec task now db blobs).1.getOrCreateBudget user) = db.getOrCreateBudget user := by
  rcases finalizeAfter_parts codec task now db blobs with same | ⟨t,b,_,_,_,same⟩
  · rw [same]
  · rw [same]
    rfl

theorem held_purged {db : Db} (valid : Held db) (now : Instant) (rows : List (Batch × BatchId)) (blobs : Blobs) :
    Held (Retention.purgeAll now rows db blobs).1 := by
  obtain ⟨budgets,_,tasks,_⟩ := Retention.purgeAll_tables now rows db blobs
  refine valid.transport (fun user => ?_) ?_ (by rw [tasks])
  · rw [Db.getOrCreateBudget,budgets]
    rfl
  · exact Retention.purgeAll_column Batch.userId now (fun _ => rfl) rows db blobs

theorem timely_live {db : Db} {task : TaskId} (running : db.tasks[task]?.map Task.status = some .running) :
    ∃ t, db.tasks[task]? = some t ∧ t.live = true := by
  obtain ⟨t,found,status⟩ := Option.map_eq_some_iff.mp running
  exact ⟨t,found,by simp [Task.live,TaskStatus.live,status]⟩

theorem held_preserved {codec : PythonJson.Codec} {alpha : ℚ} {s t : Service} {op : Operation} (valid : Held s.db)
    (timely : Timely s op) (step : Step codec alpha s op t) : Held t.db := by
  cases op with
  | grant user tokens note =>
    obtain ⟨_,rfl⟩ := grant_posts step
    refine valid.transport (fun other => ?_) rfl rfl
    rw [post_reserved]
    split
    · rename_i same
      rw [same]
    · rfl
  | uploadFile => cases step; exact valid.transport (fun _ => rfl) rfl rfl
  | createBatch =>
    obtain ⟨db,created,rfl⟩ := create_step step
    exact held_created valid timely created
  | claimAndAssign load now => cases step; exact held_claimed valid load now
  | completeTask task responseBody promptTokens completionTokens now =>
    obtain ⟨_,db,committed,rfl⟩ := complete_step step
    obtain ⟨row,found,live⟩ := timely_live timely
    exact held_finalized (held_completed valid found live committed).1 codec task now s.blobs
  | failTask task error now =>
    obtain ⟨_,db,committed,rfl⟩ := fail_step step
    obtain ⟨row,found,live⟩ := timely_live timely
    exact held_finalized (held_failed valid found live committed).1 codec task now s.blobs
  | cancelBatch user batch now =>
    obtain ⟨b,db,found,rfl,_,done,rfl⟩ := cancel_step step
    exact (held_terminated valid found done).1
  | expireBatch batch now =>
    obtain ⟨b,db,found,_,done,rfl⟩ := expire_step step
    exact (held_terminated valid found done).1
  | purgeExpiredResults retentionDays now => cases step; exact held_purged valid now _ s.blobs
  | applyHealthResults => cases step; exact valid.transport (fun _ => rfl) rfl rfl
  | startup nodes => cases step; exact held_recovered valid nodes

theorem initial_held : Held ({} : Service).db := by
  refine ⟨fun user => rfl,?_,?_⟩ <;> intro t member <;> cases member

theorem run_held {codec : PythonJson.Codec} {alpha : ℚ} {s : Service} {operations : List Operation}
    (path : Run (Guarded Timely (Step codec alpha)) {} operations s) : Held s.db :=
  path.preserves (I := fun s => Held s.db) initial_held (fun _ _ _ valid step => held_preserved valid step.1 step.2)

variable {codec : PythonJson.Codec} {alpha : ℚ} {s t : Service}

-- A settled row is never written again.
theorem settled_stays {op : Operation} (timely : Timely s op) (step : Step codec alpha s op t) {i : TaskId}
    {row : Task} (found : s.db.tasks[i]? = some row) (ended : row.live = false) : t.db.tasks[i]? = some row := by
  refine Records.dead_stays step found ended fun task settling => ?_
  have running : s.db.tasks[task]?.map Task.status = some .running := by
    cases op with
    | completeTask =>
      cases settling
      exact timely
    | failTask =>
      cases settling
      exact timely
    | _ => cases settling
  obtain ⟨other,there,live⟩ := timely_live running
  rintro rfl
  rw [found] at there
  cases there
  rw [ended] at live
  cases live

-- No clamp: what is asked for is there, and exactly that leaves.
theorem takes_exact {op : Operation} (valid : Held s.db) (timely : Timely s op) (step : Step codec alpha s op t)
    {user : UserId} {amount : Int} (taken : takes s.db op = some (user,amount)) :
    amount ≤ (s.db.getOrCreateBudget user).reservedTokens ∧
      (t.db.getOrCreateBudget user).reservedTokens = (s.db.getOrCreateBudget user).reservedTokens - amount := by
  cases op with
  | completeTask task responseBody promptTokens completionTokens now =>
    obtain ⟨_,db,committed,rfl⟩ := complete_step step
    obtain ⟨row,found,live⟩ := timely_live timely
    obtain ⟨_,owner,owned,within,left⟩ := held_completed valid found live committed
    simp only [takes,found,Option.bind_some,owned,Option.map_some,Option.some.injEq,Prod.mk.injEq] at taken
    obtain ⟨rfl,rfl⟩ := taken
    exact ⟨within,by rw [finalized_reserved]; exact left⟩
  | failTask task error now =>
    obtain ⟨_,db,committed,rfl⟩ := fail_step step
    obtain ⟨row,found,live⟩ := timely_live timely
    obtain ⟨_,owner,owned,within,left⟩ := held_failed valid found live committed
    simp only [takes,found,Option.bind_some,owned,Option.map_some,Option.some.injEq,Prod.mk.injEq] at taken
    obtain ⟨rfl,rfl⟩ := taken
    exact ⟨within,by rw [finalized_reserved]; exact left⟩
  | cancelBatch =>
    obtain ⟨b,db,found,rfl,_,done,rfl⟩ := cancel_step step
    cases taken
    exact (held_terminated valid found done).2
  | expireBatch =>
    obtain ⟨b,db,found,_,done,rfl⟩ := expire_step step
    simp only [takes,found,Option.map_some,Option.some.injEq,Prod.mk.injEq] at taken
    obtain ⟨rfl,rfl⟩ := taken
    exact (held_terminated valid found done).2
  | grant => cases taken
  | uploadFile => cases taken
  | createBatch => cases taken
  | claimAndAssign => cases taken
  | purgeExpiredResults => cases taken
  | applyHealthResults => cases taken
  | startup => cases taken

theorem reserved_is_live_holds {operations : List Operation}
    (path : Run (Guarded Timely (Step codec alpha)) {} operations s) :
    (∀ user, (s.db.getOrCreateBudget user).reservedTokens = liveHolds s.db user) ∧
    (∀ op t, Timely s op → Step codec alpha s op t →
      (∀ user amount, takes s.db op = some (user,amount) →
        amount ≤ (s.db.getOrCreateBudget user).reservedTokens ∧
        (t.db.getOrCreateBudget user).reservedTokens = (s.db.getOrCreateBudget user).reservedTokens - amount) ∧
      (∀ (i : TaskId) row, s.db.tasks[i]? = some row → row.live = false → t.db.tasks[i]? = some row)) := by
  have valid := run_held path
  refine ⟨valid.reserved,fun op t timely step => ⟨fun user amount => takes_exact valid timely step,?_⟩⟩
  exact fun i row found ended => settled_stays timely step found ended

-- Three tasks, of which one is answered, one fails and one is running, a batch that is
-- cancelled and one that expires.
def severalEnds : List Operation :=
  [nodeWith 2,.grant 1 100 none,submitShort 1 3 0,submitShort 1 1 1,submitShort 1 1 2,claimPass,.completeTask 0 .null 3 2 3,
    .failTask 1 [] 3,.cancelBatch 1 1 4,.expireBatch 2 4,claimPass]

theorem reserved_is_live_holds_claimed : ∃ s : Service, s.inFlight = [2] ∧
    s.db.tasks.map Task.status = [.completed,.failed,.running,.cancelled,.cancelled] ∧
    (s.db.getOrCreateBudget 1).reservedTokens = 10 ∧ liveHolds s.db 1 = 10 := by
  have ran : (replay (checked Timely (advance JsonText.codec (3/10))) severalEnds {}).any (fun s => decide (s.inFlight = [2] ∧
      s.db.tasks.map Task.status = [.completed,.failed,.running,.cancelled,.cancelled] ∧
      (s.db.getOrCreateBudget 1).reservedTokens = 10)) = true := by decide +kernel
  obtain ⟨s,path,facts⟩ := checked_reaches ran
  obtain ⟨flying,ends,reserved⟩ := of_decide_eq_true facts
  have path : Run (Guarded Timely (Step JsonText.codec (3/10))) {} severalEnds s := path
  exact ⟨s,flying,ends,reserved,((reserved_is_live_holds path).1 1).symm.trans reserved⟩

-- Batch 0 is cancelled while its task runs; the settlement then takes the hold
-- of batch 1.
def lateSettlement : List Operation :=
  [nodeWith 1,.grant 1 30 none,submitShort 1 1 0,submitShort 1 1 0,claimPass,.cancelBatch 1 0 0,.completeTask 0 .null 3 2 0]

theorem late_settlement_takes_twice : ∃ s, Run (Step JsonText.codec (3/10)) {} lateSettlement s ∧
    (s.db.getOrCreateBudget 1).reservedTokens = 0 ∧ liveHolds s.db 1 = 10 := by
  have ran : (replay (advance JsonText.codec (3/10)) lateSettlement {}).any
      (fun s => decide ((s.db.getOrCreateBudget 1).reservedTokens = 0 ∧ liveHolds s.db 1 = 10)) = true := by
    decide +kernel
  obtain ⟨s,path,values⟩ := replay_reaches ran
  exact ⟨s,path,of_decide_eq_true values⟩

-- The answer to an execution used no more tokens than its task reserved.
def WithinReservation (s : Service) : Operation → Prop
  | .completeTask task _ promptTokens completionTokens _ =>
    ∀ t ∈ s.db.tasks[task]?, promptTokens + completionTokens ≤ t.reservedTokens
  | _ => True

instance (s : Service) : (op : Operation) → Decidable (WithinReservation s op)
  | .completeTask task _ promptTokens completionTokens _ =>
    inferInstanceAs (Decidable (∀ t ∈ s.db.tasks[task]?, promptTokens + completionTokens ≤ t.reservedTokens))
  | .createBatch _ _ _ _ _ _ | .failTask _ _ _ | .grant _ _ _ | .uploadFile _ _ _ _ | .claimAndAssign _ _
  | .cancelBatch _ _ _ | .expireBatch _ _ | .purgeExpiredResults _ _ | .applyHealthResults _ _ | .startup _ =>
    .isTrue trivial

structure Covered (db : Db) : Prop where
  available : ∀ user, 0 ≤ (db.getOrCreateBudget user).availableTokens

theorem covered_post {db base : Db} (valid : Covered db) (same : base.budgets = db.budgets) {user : UserId} {row : Budget}
    {entry : LedgerEntry} (enough : 0 ≤ row.availableTokens) : Covered (Ledger.post base user row entry) := by
  refine ⟨fun other => ?_⟩
  by_cases mine : other = user
  · rw [mine,Ledger.post_budget_self]
    exact enough
  · rw [Ledger.post_budget_other mine,Db.getOrCreateBudget,same]
    exact valid.available other

theorem covered_terminated {db after : Db} (held : Held db) (valid : Covered db) {batch : BatchId} {user : UserId}
    {terminal : BatchStatus} {note : String} {now : Instant}
    (done : terminateBatch user batch terminal note now db = .ok after) : Covered after := by
  rcases terminateSelected_parts done with ⟨_,rfl⟩ | ⟨some_held,amount,entry,size,_,rfl⟩
  · exact ⟨valid.available⟩
  · refine covered_post valid (by rfl) ?_
    have before := valid.available user
    have sign : 0 ≤ (db.getOrCreateBudget user).reservedTokens := by
      rw [held.reserved]
      exact sum_nonnegative fun t member => holdOf_nonnegative (held.nonnegative t member)
    simp only [Budget.availableTokens] at before ⊢
    omega

theorem covered_finalized {db : Db} (valid : Covered db) (task : TaskId) (now : Instant) (blobs : Blobs) :
    Covered (finalizeAfter codec task now db blobs).1 := by
  refine ⟨fun user => ?_⟩
  rw [finalized_reserved]
  exact valid.available user

theorem covered_preserved {op : Operation} (held : Held s.db) (valid : Covered s.db) (timely : Timely s op)
    (within : WithinReservation s op) (step : Step codec alpha s op t) : Covered t.db := by
  cases op with
  | grant user tokens note =>
    obtain ⟨positive,rfl⟩ := grant_posts step
    refine covered_post valid (by rfl) ?_
    have before := valid.available user
    simp only [Budget.availableTokens] at before ⊢
    omega
  | createBatch user inputFile endpoint window lines now =>
    obtain ⟨db,created,rfl⟩ := create_step step
    obtain ⟨_,_,enough,entry,_,rfl⟩ := createBatch_parts created
    refine covered_post valid (by rfl) ?_
    simp only [Budget.availableTokens] at enough ⊢
    omega
  | completeTask task responseBody promptTokens completionTokens now =>
    obtain ⟨_,db,committed,rfl⟩ := complete_step step
    obtain ⟨row,found,live⟩ := timely_live timely
    have bound := within row found
    obtain ⟨_,b,stat,amount,entry,found',owned,_,_,size,_,rfl⟩ := commitCompleted_parts committed
    cases found.symm.trans found'
    have enough := hold_within held found live (owner_of owned)
    refine covered_finalized (covered_post valid (by rfl) ?_) task now s.blobs
    have before := valid.available b.userId
    simp only [Budget.availableTokens] at before ⊢
    omega
  | failTask task error now =>
    obtain ⟨_,db,committed,rfl⟩ := fail_step step
    obtain ⟨row,found,live⟩ := timely_live timely
    obtain ⟨_,b,found',owned,⟨_,rfl⟩ | ⟨some_held,amount,entry,size,_,rfl⟩⟩ := commitFailed_parts committed
    · refine covered_finalized ?_ task now s.blobs
      exact ⟨valid.available⟩
    · cases found.symm.trans found'
      have enough := hold_within held found live (owner_of owned)
      refine covered_finalized (covered_post valid (by rfl) ?_) task now s.blobs
      have before := valid.available b.userId
      simp only [Budget.availableTokens] at before ⊢
      omega
  | cancelBatch =>
    obtain ⟨b,db,_,_,_,done,rfl⟩ := cancel_step step
    exact covered_terminated held valid done
  | expireBatch =>
    obtain ⟨b,db,_,_,done,rfl⟩ := expire_step step
    exact covered_terminated held valid done
  | purgeExpiredResults retentionDays now =>
    obtain ⟨budgets,_⟩ := purge_step step
    refine ⟨fun user => ?_⟩
    simp only [Db.getOrCreateBudget,budgets]
    exact valid.available user
  | uploadFile => cases step; exact ⟨valid.available⟩
  | claimAndAssign => cases step; exact ⟨valid.available⟩
  | applyHealthResults => cases step; exact ⟨valid.available⟩
  | startup => cases step; exact ⟨valid.available⟩

-- The budget is never overrun.
theorem budget_never_overrun {operations : List Operation}
    (path : Run (Guarded (fun s op => Timely s op ∧ WithinReservation s op) (Step codec alpha)) {} operations s)
    (user : UserId) :
    (s.db.getOrCreateBudget user).usedTokens + (s.db.getOrCreateBudget user).reservedTokens ≤
      (s.db.getOrCreateBudget user).grantedTokens := by
  have both : Held s.db ∧ Covered s.db := by
    refine path.preserves (I := fun s => Held s.db ∧ Covered s.db) ⟨initial_held,⟨fun _ => le_rfl⟩⟩ ?_
    intro s op t valid step
    exact ⟨held_preserved valid.1 step.1.1 step.2,covered_preserved valid.1 valid.2 step.1.1 step.1.2 step.2⟩
  have covered := both.2.available user
  simp only [Budget.availableTokens] at covered
  omega

theorem budget_never_overrun_completed : ∃ s : Service, (s.db.getOrCreateBudget 1).usedTokens = 5 ∧
    (s.db.getOrCreateBudget 1).usedTokens + (s.db.getOrCreateBudget 1).reservedTokens ≤
      (s.db.getOrCreateBudget 1).grantedTokens := by
  have ran : (replay (checked (fun s op => Timely s op ∧ WithinReservation s op) (advance JsonText.codec (3/10)))
      [nodeWith 1,.grant 1 30 none,submitShort 1 1 0,claimPass,.completeTask 0 .null 3 2 0] {}).any
      (fun s => decide ((s.db.getOrCreateBudget 1).usedTokens = 5)) = true := by decide +kernel
  obtain ⟨s,path,used⟩ := checked_reaches ran
  have path : Run (Guarded _ (Step JsonText.codec (3/10))) {} _ s := path
  exact ⟨s,of_decide_eq_true used,budget_never_overrun path 1⟩

-- Ten tokens are granted once and spent twice.
def spentTwice : List Operation :=
  [nodeWith 1,.grant 1 10 none,submitShort 1 1 0,claimPass,.cancelBatch 1 0 0,submitShort 1 1 0,.completeTask 0 .null 6 4 0,claimPass,
    .completeTask 1 .null 6 4 0]

theorem late_settlement_overruns :
    ∃ s, Run (Guarded WithinReservation (Step JsonText.codec (3/10))) {} spentTwice s ∧
      (s.db.getOrCreateBudget 1).grantedTokens = 10 ∧ (s.db.getOrCreateBudget 1).usedTokens = 20 := by
  have ran : (replay (checked WithinReservation (advance JsonText.codec (3/10))) spentTwice {}).any
      (fun s => decide ((s.db.getOrCreateBudget 1).grantedTokens = 10 ∧
        (s.db.getOrCreateBudget 1).usedTokens = 20)) = true := by decide +kernel
  obtain ⟨s,path,values⟩ := checked_reaches ran
  exact ⟨s,path,of_decide_eq_true values⟩

end BatchGateway.Reservations
