import BatchGateway.BudgetRows
import BatchGateway.Lifecycle
import Mathlib.Algebra.Order.BigOperators.Group.List

-- One pass of the retention job, from its first query to its last commit.
namespace BatchGateway.RetentionPass
open PythonText PythonJson BatchOps Service LabelledRuns Retention ResultPurge RowMoves

-- The instants a pass reads from the clock.
structure Clock where
  query : Instant
  expiry : BatchId → Instant
  purge : Instant

-- expire_batch, with the row its caller has loaded.
def expireLoaded (clock : Clock) (row : Batch × BatchId) (db : Db) : Except Raised Db := do
  requireCancellable row.1
  terminateBatch row.1.userId row.2 .expired "batch expired" (clock.expiry row.2) db

-- Each batch is committed by itself; what raises leaves the ones before it expired.
def expireRows (clock : Clock) : List (Batch × BatchId) → Db → Db × Except Raised Unit
  | [],db => (db,.ok ())
  | row :: rest,db =>
    match expireLoaded clock row db with
    | .error e => (db,.error e)
    | .ok after => expireRows clock rest after

def expireOverdueBatches (clock : Clock) (db : Db) : Db × Except Raised Nat :=
  let overdue := overdueBatches clock.query db
  match expireRows clock overdue db with
  | (after,.error e) => (after,.error e)
  | (after,.ok ()) => (after,.ok overdue.length)

inductive PassError where
  | expiry (e : Raised)
  | purge (e : PurgeError)

-- RetentionJob.run_once; run_forever logs what it raises and goes on.
def runOnce (retentionDays : Int) (clock : Clock) (s : Service) : Service × Except PassError (Nat × Nat) :=
  match expireOverdueBatches clock s.db with
  | (db,.error e) => ({s with db := db},.error (.expiry e))
  | (db,.ok expired) =>
    match purge retentionDays clock.purge db s.blobs with
    | .error e => ({s with db := db},.error (.purge e))
    | .ok (purged,after,blobs) => ({s with db := after,blobs := blobs},.ok (expired,purged))

def reservedOf (db : Db) (user : UserId) : Int := (db.getOrCreateBudget user).reservedTokens

-- What the batches of a user that lapse still hold.
def freed (rows : List (Batch × BatchId)) (user : UserId) (db : Db) : Int :=
  ((rows.filter (fun row => row.1.userId == user)).map (fun row => max 0 (holds (tasksToStop db row.2)))).sum

def lapsed (clock : Clock) (db : Db) (t : Task) : Bool :=
  t.live && (db.batches[t.batchId]?).any (overdue clock.query)

structure Expires (clock : Clock) (db after : Db) : Prop where
  batches : ∀ i : BatchId, after.batches[i]? = (db.batches[i]?).map (fun b =>
    if overdue clock.query b then Batch.terminate .expired (clock.expiry i) b else b)
  tasks : ∀ i : TaskId, after.tasks[i]? = (db.tasks[i]?).map (fun t =>
    if lapsed clock db t then Task.cancel (clock.expiry t.batchId) t else t)
  -- A budget that has less reserved than its batches hold gives up what it has.
  reserved : ∀ user, reservedOf after user = max 0 (reservedOf db user - freed (overdueBatches clock.query db) user db)
  spent : ∀ user, (after.getOrCreateBudget user).grantedTokens = (db.getOrCreateBudget user).grantedTokens ∧
    (after.getOrCreateBudget user).usedTokens = (db.getOrCreateBudget user).usedTokens
  others : after.files = db.files ∧ after.nodes = db.nodes ∧ after.stat = db.stat

-- The same for the rows the loop still has before it.
structure Expired (clock : Clock) (rows : List (Batch × BatchId)) (db after : Db) : Prop where
  batches : ∀ i : BatchId, after.batches[i]? = (db.batches[i]?).map (fun b =>
    if i ∈ rows.map Prod.snd then Batch.terminate .expired (clock.expiry i) b else b)
  tasks : ∀ i : TaskId, after.tasks[i]? = (db.tasks[i]?).map (fun t =>
    if t.live = true ∧ t.batchId ∈ rows.map Prod.snd then Task.cancel (clock.expiry t.batchId) t else t)
  reserved : ∀ user, reservedOf after user = max 0 (reservedOf db user - freed rows user db)
  spent : ∀ user, (after.getOrCreateBudget user).grantedTokens = (db.getOrCreateBudget user).grantedTokens ∧
    (after.getOrCreateBudget user).usedTokens = (db.getOrCreateBudget user).usedTokens
  others : after.files = db.files ∧ after.nodes = db.nodes ∧ after.stat = db.stat

-- The rows as the query has read them.
structure Loaded (rows : List (Batch × BatchId)) (db : Db) : Prop where
  read : ∀ row ∈ rows, db.batches[row.2]? = some row.1
  open_ : ∀ row ∈ rows, cancellable row.1.status = true
  distinct : (rows.map Prod.snd).Nodup

variable {codec : Codec} {alpha : ℚ} {defaultMaxTokens : Int} {actions : List Routes.Action} {s t : Service}
variable {db mid after : Db} {clock : Clock} {row : Batch × BatchId} {rows : List (Batch × BatchId)}

theorem overdue_loaded (now : Instant) (db : Db) : Loaded (overdueBatches now db) db := by
  refine ⟨fun row member => ?_,fun row member => ?_,Rows.selected_distinct _ _⟩
  · exact List.mk_mem_zipIdx_iff_getElem?.mp (List.mem_filter.mp member).1
  · exact (Bool.and_eq_true_iff.mp (List.mem_filter.mp member).2).1

theorem terminate_tasks {batch : BatchId} {user : UserId} {note : String} {now : Instant}
    (done : terminateBatch user batch .expired note now db = .ok after) (i : TaskId) : after.tasks[i]? =
      (db.tasks[i]?).map (fun t => if t.batchId == batch && t.live then Task.cancel now t else t) := by
  cases found : db.tasks[i]? with
  | some t => exact stop_tasks done found
  | none =>
    have size : after.tasks.length = db.tasks.length := by
      rcases terminateSelected_parts done with ⟨_,rfl⟩ | ⟨_,_,_,_,_,rfl⟩
      · exact List.length_mapIdx
      · exact List.length_mapIdx
    rw [Option.map_none,List.getElem?_eq_none_iff,size]
    exact List.getElem?_eq_none_iff.mp found

-- A termination leaves the tasks of every other batch as they are.
theorem tasksToStop_other {batch other : BatchId} {user : UserId} {note : String} {now : Instant}
    (done : terminateBatch user batch .expired note now db = .ok after) (apart : batch ≠ other) :
    tasksToStop after other = tasksToStop db other := by
  refine Rows.selected_same (p := fun t : Task => t.batchId == other && t.live) ?_ ?_
  · intro i u found
    refine ⟨_,(terminate_tasks done i).trans (congrArg _ found),fun either => ?_⟩
    dsimp only at either ⊢
    split at either
    · rename_i chosen
      have mine := eq_of_beq (Bool.and_eq_true_iff.mp chosen).1
      rcases either with kept | kept
      · exact absurd (mine.symm.trans (eq_of_beq (Bool.and_eq_true_iff.mp kept).1)) apart
      · exact absurd (mine.symm.trans (eq_of_beq (Bool.and_eq_true_iff.mp kept).1)) apart
    · rename_i unchosen
      rw [if_neg unchosen]
  · intro i u far found
    rw [terminate_tasks done,List.getElem?_eq_none_iff.mpr far] at found
    cases found

theorem terminate_budgets (sized : BudgetRows.Sized db) {batch : BatchId} {user : UserId} {note : String} {now : Instant}
    (done : terminateBatch user batch .expired note now db = .ok after) (other : UserId) :
    reservedOf after other = (if other = user then
      max 0 (reservedOf db user - max 0 (holds (tasksToStop db batch))) else reservedOf db other) ∧
    (after.getOrCreateBudget other).grantedTokens = (db.getOrCreateBudget other).grantedTokens ∧
    (after.getOrCreateBudget other).usedTokens = (db.getOrCreateBudget other).usedTokens := by
  obtain ⟨_,reserved,_⟩ := sized.nonnegative user
  rcases terminateSelected_parts done with ⟨free,rfl⟩ | ⟨held,amount,entry,size,_,rfl⟩
  · refine ⟨?_,rfl,rfl⟩
    change reservedOf db other = _
    split
    · rename_i mine
      subst mine
      unfold reservedOf
      omega
    · rfl
  · by_cases mine : other = user
    · subst mine
      rw [if_pos rfl]
      unfold reservedOf
      rw [Ledger.post_budget_self]
      refine ⟨?_,rfl,rfl⟩
      dsimp only
      omega
    · rw [if_neg mine]
      unfold reservedOf
      rw [Ledger.post_budget_other mine]
      exact ⟨rfl,rfl,rfl⟩

theorem terminate_others {batch : BatchId} {user : UserId} {note : String} {now : Instant}
    (done : terminateBatch user batch .expired note now db = .ok after) :
    after.files = db.files ∧ after.nodes = db.nodes ∧ after.stat = db.stat := by
  rcases terminateSelected_parts done with ⟨_,rfl⟩ | ⟨_,_,_,_,_,rfl⟩
  · exact ⟨rfl,rfl,rfl⟩
  · exact ⟨rfl,rfl,rfl⟩

-- A batch that may be expired is: the release of a positive hold does not raise.
theorem expireLoaded_returns (sized : BudgetRows.Sized db) (clock : Clock) (row : Batch × BatchId)
    (allowed : cancellable row.1.status = true) : ∃ after, expireLoaded clock row db = .ok after ∧
      terminateBatch row.1.userId row.2 .expired "batch expired" (clock.expiry row.2) db = .ok after := by
  have passed : requireCancellable row.1 = .ok () := Raising.require_ok.mpr allowed
  have returns : ∃ after, terminateBatch row.1.userId row.2 .expired "batch expired" (clock.expiry row.2) db = .ok after := by
    unfold terminateBatch terminateSelected
    split
    · rename_i held
      exact BudgetRows.release_returns (sized.same rfl) held
    · exact ⟨_,rfl⟩
  obtain ⟨after,done⟩ := returns
  refine ⟨after,?_,done⟩
  rw [expireLoaded,passed]
  exact done

theorem terminate_loaded {user : UserId} {note : String} {now : Instant} (loaded : Loaded (row :: rows) db)
    (done : terminateBatch user row.2 .expired note now db = .ok mid) : Loaded rows mid := by
  obtain ⟨fresh,distinct⟩ := List.nodup_cons.mp loaded.distinct
  refine ⟨fun next member => ?_,fun next member => loaded.open_ next (List.mem_cons_of_mem _ member),distinct⟩
  have different : row.2 ≠ next.2 := fun same => fresh (same ▸ List.mem_map_of_mem member)
  rw [stop_batches done,Rows.getElem?_modify_other different]
  exact loaded.read next (List.mem_cons_of_mem _ member)

theorem freed_nonnegative (rows : List (Batch × BatchId)) (user : UserId) (db : Db) : 0 ≤ freed rows user db := by
  refine List.sum_nonneg fun n member => ?_
  obtain ⟨row,_,rfl⟩ := List.mem_map.mp member
  exact le_max_left _ _

theorem freed_cons (row : Batch × BatchId) (rows : List (Batch × BatchId)) (user : UserId) (db : Db) :
    freed (row :: rows) user db =
      (if user = row.1.userId then max 0 (holds (tasksToStop db row.2)) else 0) + freed rows user db := by
  by_cases mine : user = row.1.userId
  · simp [freed,mine]
  · have unchosen : (row.1.userId == user) = false := by simp [Ne.symm mine]
    simp [freed,unchosen,mine]

theorem freed_other {user owner : UserId} {batch : BatchId} {note : String} {now : Instant}
    (done : terminateBatch owner batch .expired note now db = .ok mid) (apart : batch ∉ rows.map Prod.snd) :
    freed rows user mid = freed rows user db := by
  unfold freed
  refine congrArg List.sum (List.map_congr_left fun next member => ?_)
  have different : batch ≠ next.2 := fun same => apart (same ▸ List.mem_map_of_mem (List.mem_filter.mp member).1)
  rw [tasksToStop_other done different]

-- One turn of the loop, before the rest of it.
theorem expired_cons (sized : BudgetRows.Sized db) (fresh : row.2 ∉ rows.map Prod.snd)
    (done : terminateBatch row.1.userId row.2 .expired "batch expired" (clock.expiry row.2) db = .ok mid)
    (rest : Expired clock rows mid after) : Expired clock (row :: rows) db after := by
  refine ⟨fun i => ?_,fun i => ?_,fun user => ?_,fun user => ?_,?_⟩
  · rw [rest.batches,stop_batches done]
    by_cases mine : row.2 = i
    · subst mine
      cases found : db.batches[row.2]? with
      | none =>
        have none_ : (db.batches.modify row.2 (Batch.terminate .expired (clock.expiry row.2)))[row.2]? = none := by
          rw [List.getElem?_modify,found]
          rfl
        rw [none_]
        rfl
      | some b =>
        rw [Rows.getElem?_modify_self found]
        simp [fresh]
    · rw [Rows.getElem?_modify_other mine]
      have same : i ∈ (row :: rows).map Prod.snd ↔ i ∈ rows.map Prod.snd := by simp [Ne.symm mine]
      simp only [same]
  · rw [rest.tasks,terminate_tasks done,Option.map_map]
    refine Option.map_congr fun u _ => ?_
    dsimp only [Function.comp_apply]
    by_cases mine : u.batchId = row.2
    · by_cases live : u.live = true
      · have stopped_ : (Task.cancel (clock.expiry row.2) u).live = false := rfl
        simp [mine,live,stopped_]
      · simp [live]
    · have kept : (if (u.batchId == row.2 && u.live) = true then Task.cancel (clock.expiry row.2) u else u) = u :=
        if_neg (by simp [mine])
      rw [kept]
      simp only [List.map_cons,List.mem_cons,mine,false_or]
  · obtain ⟨first,_⟩ := terminate_budgets sized done user
    have low := freed_nonnegative rows user db
    rw [rest.reserved,first,freed_other done fresh,freed_cons]
    split
    · rename_i mine
      subst mine
      omega
    · omega
  · obtain ⟨_,granted,used⟩ := terminate_budgets sized done user
    exact ⟨(rest.spent user).1.trans granted,(rest.spent user).2.trans used⟩
  · obtain ⟨files,nodes,stat⟩ := terminate_others done
    exact ⟨rest.others.1.trans files,rest.others.2.1.trans nodes,rest.others.2.2.trans stat⟩

def expiries (clock : Clock) (rows : List (Batch × BatchId)) : List Routes.Action :=
  rows.map (fun row => .background (.expireBatch row.2 (clock.expiry row.2)))

-- The loop returns, and is a run of expiries.
theorem expireRows_returns (sized : BudgetRows.Sized s.db) (loaded : Loaded rows s.db) (clock : Clock) :
    ∃ after, expireRows clock rows s.db = (after,.ok ()) ∧ Expired clock rows s.db after ∧
      Run (Routes.Step codec alpha defaultMaxTokens) s (expiries clock rows) {s with db := after} := by
  induction rows generalizing s with
  | nil =>
    refine ⟨s.db,rfl,⟨fun i => ?_,fun i => ?_,fun user => ?_,fun user => ⟨rfl,rfl⟩,rfl,rfl,rfl⟩,.nil⟩
    · simp
    · simp
    · obtain ⟨_,reserved,_⟩ := sized.nonnegative user
      simp only [freed,List.filter_nil,List.map_nil,List.sum_nil,Int.sub_zero]
      exact (max_eq_right reserved).symm
  | cons row rows ih =>
    have read := loaded.read row List.mem_cons_self
    have allowed := loaded.open_ row List.mem_cons_self
    obtain ⟨mid,returned_,done⟩ := expireLoaded_returns sized clock row allowed
    obtain ⟨after,looped,rest,path⟩ := @ih {s with db := mid} (BudgetRows.sized_terminated sized done)
      (terminate_loaded loaded done)
    refine ⟨after,?_,expired_cons sized (List.nodup_cons.mp loaded.distinct).1 done rest,?_⟩
    · rw [expireRows,returned_]
      exact looped
    · refine Run.cons ?_ path
      have expired : expireBatch row.2 (clock.expiry row.2) s.db = .ok mid := by
        rw [expireBatch,read]
        exact returned_
      have allowed_ : Routes.background (.expireBatch row.2 (clock.expiry row.2)) = true := rfl
      rw [Routes.Step,Routes.advance,if_pos allowed_]
      simp only [Service.advance,expired,Raising.returned,Option.map_some]

theorem Expired.expires (expired : Expired clock (overdueBatches clock.query db) db after) : Expires clock db after := by
  have chosen : ∀ i, i ∈ (overdueBatches clock.query db).map Prod.snd ↔
      ∃ b, db.batches[i]? = some b ∧ overdue clock.query b = true := fun i => Rows.mem_selected
  refine ⟨fun i => ?_,fun i => ?_,expired.reserved,expired.spent,expired.others⟩
  · rw [expired.batches]
    refine Option.map_congr fun b found => if_congr ?_ rfl rfl
    rw [chosen]
    exact ⟨fun ⟨c,there,late⟩ => Option.some.inj (there.symm.trans found) ▸ late,fun late => ⟨b,found,late⟩⟩
  · rw [expired.tasks]
    refine Option.map_congr fun u _ => if_congr ?_ rfl rfl
    rw [chosen,lapsed,Bool.and_eq_true,Option.any_eq_true]

theorem expire_returns (codec : Codec) (alpha : ℚ) (defaultMaxTokens : Int) (sized : BudgetRows.Sized s.db) (clock : Clock) : ∃ mid,
    expireOverdueBatches clock s.db = (mid,.ok (overdueBatches clock.query s.db).length) ∧ Expires clock s.db mid ∧
    Run (Routes.Step codec alpha defaultMaxTokens) s (expiries clock (overdueBatches clock.query s.db)) {s with db := mid} := by
  obtain ⟨mid,looped,expired,path⟩ := expireRows_returns sized (overdue_loaded clock.query s.db) clock
  refine ⟨mid,?_,expired.expires,path⟩
  simp only [expireOverdueBatches,looped]

-- What has expired is not overdue, nor is what the purge has marked.
theorem expired_none (expires : Expires clock db mid) : overdueBatches clock.query mid = [] := by
  refine List.filter_eq_nil_iff.mpr fun row member late => ?_
  have there := List.mk_mem_zipIdx_iff_getElem?.mp member
  rw [expires.batches] at there
  obtain ⟨old,_,same⟩ := Option.map_eq_some_iff.mp there
  rw [← same] at late
  split at late
  · cases late
  · rename_i current
    exact current late

theorem purged_none {retentionDays : Int} {now : Instant} {count : Nat} {blobs blobsAfter : Blobs}
    (none_ : overdueBatches clock.query mid = []) (purged : PurgedExactly retentionDays now mid blobs count after blobsAfter) :
    overdueBatches clock.query after = [] := by
  refine List.filter_eq_nil_iff.mpr fun row member late => ?_
  have there := List.mk_mem_zipIdx_iff_getElem?.mp member
  rw [purged.batches] at there
  obtain ⟨old,found,same⟩ := Option.map_eq_some_iff.mp there
  have was : overdue clock.query old = true := by
    rw [← same] at late
    split at late
    · exact late
    · exact late
  exact List.filter_eq_nil_iff.mp none_ (old,row.2) (List.mk_mem_zipIdx_iff_getElem?.mpr found) was

theorem overdue_none (none_ : overdueBatches clock.query db = []) : expireOverdueBatches clock db = (db,.ok 0) := by
  simp only [expireOverdueBatches,none_,expireRows,List.length_nil]

-- No open batch has a deadline before this instant.
def Current (since : Instant) (db : Db) : Prop :=
  ∀ b ∈ db.batches, b.status = .inProgress → ∀ deadline, b.expiresAt = some deadline → since ≤ deadline

-- Nothing is submitted at an earlier time.
def NotBefore (since : Instant) (_ : Service) : Routes.Action → Prop
  | .request _ (.createBatch _ _ _) now => since ≤ now
  | .request _ _ _ | .background _ => True

theorem expires_current (expires : Expires clock db mid) : Current clock.query mid := by
  intro b member open_ deadline set
  obtain ⟨i,there⟩ := List.mem_iff_getElem?.mp member
  rw [expires.batches] at there
  obtain ⟨old,_,rfl⟩ := Option.map_eq_some_iff.mp there
  split at open_
  · cases open_
  · rename_i current
    rw [if_neg current] at set
    by_contra past_
    refine current ?_
    rw [overdue,open_,set]
    exact decide_eq_true (Int.not_le.mp past_)

theorem purged_current {since : Instant} {retentionDays : Int} {now : Instant} {count : Nat} {blobs blobsAfter : Blobs}
    (valid : Current since mid) (purged : PurgedExactly retentionDays now mid blobs count after blobsAfter) :
    Current since after := by
  intro b member open_ deadline set
  obtain ⟨i,there⟩ := List.mem_iff_getElem?.mp member
  rw [purged.batches] at there
  obtain ⟨old,found,rfl⟩ := Option.map_eq_some_iff.mp there
  have listed := List.mem_of_getElem? found
  split at open_
  · rename_i due
    rw [if_pos due] at set
    exact valid old listed open_ deadline set
  · rename_i undue
    rw [if_neg undue] at set
    exact valid old listed open_ deadline set

theorem current_step {since : Instant} {action : Routes.Action} (valid : Current since s.db)
    (step : Guarded (NotBefore since) (Routes.Step codec alpha defaultMaxTokens) s action t) : Current since t.db := by
  obtain ⟨late,step⟩ := step
  rcases Routes.step_performs step with rfl | ⟨op,performed,performs⟩
  · exact valid
  · intro b member open_ deadline set
    obtain ⟨i,there⟩ := List.mem_iff_getElem?.mp member
    rcases batch_origin performed there with ⟨old,found,change⟩ | ⟨_,created⟩
    · obtain ⟨was,_,_,same⟩ := Lifecycle.open_kept change open_
      exact valid old (List.mem_of_getElem? found) was deadline (same.symm.trans set)
    · cases performs with
      | upload => cases created
      | cancel => cases created
      | submit user f lines now =>
        cases List.mem_singleton.mp created
        have after_ : since ≤ now := late
        simp only [newBatch,if_true,Option.some.injEq] at set
        rw [← set]
        exact after_.trans (le_add_of_nonneg_right (by decide))
      | background op allowed =>
        cases op with
        | createBatch => cases allowed
        | _ => cases created

variable (codec alpha defaultMaxTokens) in
-- A pass over `s`, which has left `mid` when its first half ends.
structure PassOver (retentionDays : Int) (clock : Clock) (s : Service) (mid : Db) : Prop where
  expires : Expires clock s.db mid
  expiring : Run (Routes.Step codec alpha defaultMaxTokens) s (expiries clock (overdueBatches clock.query s.db)) {s with db := mid}
  raises : ∀ e, cutoffOf retentionDays clock.purge = .error e →
    runOnce retentionDays clock s = ({s with db := mid},.error (.purge e)) ∧
    runOnce retentionDays clock {s with db := mid} = ({s with db := mid},.error (.purge e))
  returns : ∀ cutoff, cutoffOf retentionDays clock.purge = .ok cutoff → ∃ count t,
    runOnce retentionDays clock s = (t,.ok ((overdueBatches clock.query s.db).length,count)) ∧
    PurgedExactly retentionDays clock.purge mid s.blobs count t.db t.blobs ∧ t.inFlight = s.inFlight ∧
    Run (Routes.Step codec alpha defaultMaxTokens) {s with db := mid}
      [.background (.purgeExpiredResults retentionDays clock.purge)] t ∧
    overdueBatches clock.query t.db = [] ∧ runOnce retentionDays clock t = (t,.ok (0,0))
  -- Nothing stays open that was overdue, for as long as the service runs.
  current : ∀ later t, Run (Guarded (NotBefore clock.query) (Routes.Step codec alpha defaultMaxTokens))
    (runOnce retentionDays clock s).1 later t → Current clock.query t.db

theorem retention_pass (path : Run (Routes.Step codec alpha defaultMaxTokens) {} actions s) (retentionDays : Int)
    (clock : Clock) : ∃ mid, PassOver codec alpha defaultMaxTokens retentionDays clock s mid := by
  obtain ⟨operations,ran⟩ := Lifecycle.routed_run path
  obtain ⟨mid,done,expires,expiring⟩ := expire_returns codec alpha defaultMaxTokens (BudgetRows.run_sized ran) clock
  have idle := expired_none expires
  have raises : ∀ e, cutoffOf retentionDays clock.purge = .error e →
      runOnce retentionDays clock s = ({s with db := mid},.error (.purge e)) ∧
      runOnce retentionDays clock {s with db := mid} = ({s with db := mid},.error (.purge e)) := by
    intro e failed
    have refused : purge retentionDays clock.purge mid s.blobs = .error e := by
      rw [purge,failed]
      rfl
    constructor
    · simp only [runOnce,done,refused]
    · simp only [runOnce,overdue_none idle,refused]
  have valid := TenantIsolation.run_isolated (path.append expiring)
  refine ⟨mid,expires,expiring,raises,fun cutoff computed => ?_,fun later t rest => ?_⟩
  · have exactly := purged_exactly valid.tidy valid.filed computed
    have purged := purge_runs valid.tidy valid.filed computed
    have idle := purged_none idle exactly
    refine ⟨_,⟨(purgeExpiredResults retentionDays clock.purge mid s.blobs).1,
      (purgeExpiredResults retentionDays clock.purge mid s.blobs).2,s.inFlight⟩,?_,exactly,rfl,?_,idle,?_⟩
    · simp only [runOnce,done,purged]
    · refine Run.single ?_
      have allowed : Routes.background (.purgeExpiredResults retentionDays clock.purge) = true := rfl
      rw [Routes.Step,Routes.advance,if_pos allowed]
      rfl
    · simp only [runOnce,overdue_none idle,exactly.again]
  · refine rest.preserves ?_ fun _ _ _ valid step => current_step valid step
    cases computed : cutoffOf retentionDays clock.purge with
    | error e =>
      rw [(raises e computed).1]
      exact expires_current expires
    | ok cutoff =>
      have purged := purge_runs valid.tidy valid.filed computed
      simp only [runOnce,done,purged]
      exact purged_current (expires_current expires) (purged_exactly valid.tidy valid.filed computed)

-- The batch of two requests, one of them running, an hour after its day has gone.
def overdueDay : List Routes.Action := TenantIsolation.answeredBatch.take 5
def hourLate : Clock := ⟨hours 25,fun _ => hours 25,hours 25⟩

theorem retention_pass_day : ∃ s mid, (overdueBatches (hours 25) s.db).length = 1 ∧
    PassOver JsonText.codec (3/10) 16 7 hourLate s mid := by
  have ran : (replay (Routes.advance JsonText.codec (3/10) 16) overdueDay {}).any
      (fun s => decide ((overdueBatches (hours 25) s.db).length = 1)) = true := by decide +kernel
  obtain ⟨s,path,one⟩ := replay_reaches ran
  have path : Run (Routes.Step JsonText.codec (3/10) 16) {} overdueDay s := path
  obtain ⟨mid,outcome⟩ := retention_pass path 7 hourLate
  exact ⟨s,mid,of_decide_eq_true one,outcome⟩

end BatchGateway.RetentionPass
