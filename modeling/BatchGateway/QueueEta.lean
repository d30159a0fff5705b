import BatchGateway.Dispatcher
import BatchGateway.PythonTime
import BatchGateway.WaitingLine

-- The estimate of the status endpoint, and how it orders the batches that wait.
namespace BatchGateway.QueueEta
open Dispatcher Eta Doubles PythonTime WaitingLine

structure Settings where
  nodes : List NodeConfig := []
  etaMinSamplesForConfidence : Int := 5
  etaBootstrapTokensPerSecond : ℚ := 5
  etaBootstrapCompletionTokens : ℚ := 200

inductive Confidence where
  | normal | low | unavailable
  deriving DecidableEq, Repr

structure BatchEta where
  estimatedSecondsRemaining : Option ℚ
  estimatedCompletionAt : Option Datetime
  queuePosition : Option Nat
  confidence : Confidence
  deriving DecidableEq

inductive EtaError where
  | zeroDivisionError
  | overflowError
  deriving DecidableEq, Repr

-- _UNAVAILABLE
def unavailable : BatchEta := ⟨none,none,none,.unavailable⟩

-- `x or y`, for a number that may be None.
def orElse (x : Option ℚ) (y : ℚ) : ℚ :=
  match x with
  | some v => if v = 0 then y else v
  | none => y

def divide (a b : ℚ) : Except EtaError ℚ := if b = 0 then .error .zeroDivisionError else .ok (a / b)

-- datetime.now(UTC) + timedelta(seconds=x)
def completionAt (now : Instant) (x : ℚ) : Except EtaError Datetime :=
  match (timedelta x).bind (nowAt 0 now).plus with
  | some d => .ok d
  | none => .error .overflowError

def expectedCompletion (avgCompletionTokens : ℚ) (t : Task) : ℚ :=
  if t.maxTokens = 0 then avgCompletionTokens else min (t.maxTokens : ℚ) avgCompletionTokens

def expectedTokens (avgCompletionTokens : ℚ) (t : Task) : ℚ :=
  (t.promptTokensEstimate : ℚ) * promptTokenWeight + expectedCompletion avgCompletionTokens t

def remainingWeightedTokens (avgCompletionTokens : ℚ) (db : Db) (batch : BatchId) : ℚ :=
  ((db.tasks.filter (fun t => t.batchId == batch && t.live)).map (expectedTokens avgCompletionTokens)).sum

def healthySlots (db : Db) : Int := ((healthyNodes db).map Node.parallelSlots).sum

-- In_progress batches created before this one, by the SELECT's two conditions.
def aheadBatches (db : Db) (b : Batch) : List (Batch × BatchId) :=
  db.batches.zipIdx.filter (fun row => row.1.status == .inProgress && decide (row.1.createdAt < b.createdAt))

section
variable (settings : Settings) (db : Db)

def sampleCount : Int := (db.stat.map (fun stat => (stat.sampleCount : Int))).getD 0

def confidence : Confidence := if settings.etaMinSamplesForConfidence ≤ sampleCount db then .normal else .low

def perSlotTps : ℚ := orElse (db.stat.bind DispatchStat.tokensPerSecondEwma) settings.etaBootstrapTokensPerSecond

def avgCompletionTokens : ℚ := orElse (db.stat.bind DispatchStat.avgCompletionTokensEwma) settings.etaBootstrapCompletionTokens

def clusterTps : ℚ := perSlotTps settings db * healthySlots db

def aheadWeighted (b : Batch) : ℚ :=
  ((aheadBatches db b).map (fun row => remainingWeightedTokens (avgCompletionTokens settings db) db row.2)).sum

def estimateBatchEta (now : Instant) (b : Batch) (id : BatchId) : Except EtaError BatchEta :=
  if b.status ≠ .validating ∧ b.status ≠ .inProgress then .ok unavailable
  else if settings.nodes = [] then .ok unavailable
  else if healthySlots db ≤ 0 then .ok unavailable
  else if clusterTps settings db ≤ 0 then .ok unavailable
  else do
    let secondsRemaining ← divide
      (aheadWeighted settings db b + remainingWeightedTokens (avgCompletionTokens settings db) db id) (clusterTps settings db)
    let completion ← completionAt now secondsRemaining
    return ⟨some secondsRemaining,some completion,some (aheadBatches db b).length,confidence settings db⟩

end

-- Positive bootstrap values, and a dispatcher that runs.
structure Configured (settings : Settings) : Prop where
  nodes : settings.nodes ≠ []
  tokensPerSecond : 0 < settings.etaBootstrapTokensPerSecond
  completionTokens : 0 < settings.etaBootstrapCompletionTokens

structure Sound (db : Db) : Prop where
  prompt : ∀ t ∈ db.tasks, 0 ≤ t.promptTokensEstimate
  output : ∀ t ∈ db.tasks, 0 ≤ t.maxTokens
  throughput : ∀ tps, db.stat.bind DispatchStat.tokensPerSecondEwma = some tps → 0 < tps
  completion : ∀ avg, db.stat.bind DispatchStat.avgCompletionTokensEwma = some avg → 0 < avg

section
variable (settings : Settings) (db : Db) (now : Instant)

-- A task that is finished before the batch is: its own, or of a batch ahead.
def waitsFor (b : Batch) (id : BatchId) (t : Task) : Bool :=
  t.live && (t.batchId == id ||
    (db.batches[t.batchId]?).any (fun o => o.status == .inProgress && decide (o.createdAt < b.createdAt)))

def workload (b : Batch) (id : BatchId) : ℚ :=
  ((db.tasks.filter (waitsFor db b id)).map (expectedTokens (avgCompletionTokens settings db))).sum

-- At the cluster's throughput the work is done in the year 9999 or before.
def Lands (b : Batch) (id : BatchId) : Prop :=
  now + roundHalfEven (workload settings db b id / clusterTps settings db * 1000000) ≤ maxWall

-- An estimate that is available, by its seconds and its place in the queue.
def Estimated (b : Batch) (id : BatchId) (seconds : ℚ) (position : Nat) : Prop :=
  ∃ d c, estimateBatchEta settings db now b id = .ok ⟨some seconds,some d,some position,c⟩ ∧ c ≠ .unavailable

structure InOrder (a : Batch) (i : BatchId) (b : Batch) (j : BatchId) (earlier later : ℚ) (p q : Nat) : Prop where
  first : Estimated settings db now a i earlier p
  second : Estimated settings db now b j later q
  nonnegative : 0 ≤ earlier ∧ 0 ≤ later
  position : p < q
  apart : earlier + remainingWeightedTokens (avgCompletionTokens settings db) db j / clusterTps settings db ≤ later

def Ordered (a : Batch) (i : BatchId) (b : Batch) (j : BatchId) : Prop :=
  ∃ earlier later p q, InOrder settings db now a i b j earlier later p q

end

variable {settings : Settings} {db : Db} {now : Instant} {a b : Batch} {id i j : BatchId}

theorem orElse_positive {x : Option ℚ} {y : ℚ} (held : ∀ v, x = some v → 0 < v) (fallback : 0 < y) : 0 < orElse x y := by
  unfold orElse
  split
  · rename_i v
    split
    · exact fallback
    · exact held v rfl
  · exact fallback

theorem perSlot_positive (configured : Configured settings) (sound : Sound db) : 0 < perSlotTps settings db :=
  orElse_positive sound.throughput configured.tokensPerSecond

theorem average_positive (configured : Configured settings) (sound : Sound db) : 0 < avgCompletionTokens settings db :=
  orElse_positive sound.completion configured.completionTokens

theorem cluster_positive (configured : Configured settings) (sound : Sound db) (slots : 0 < healthySlots db) :
    0 < clusterTps settings db :=
  mul_pos (perSlot_positive configured sound) (Int.cast_pos.mpr slots)

theorem expectedTokens_nonnegative {avg : ℚ} {t : Task} (average : 0 ≤ avg) (prompt : 0 ≤ t.promptTokensEstimate)
    (output : 0 ≤ t.maxTokens) : 0 ≤ expectedTokens avg t := by
  have share : 0 ≤ (t.promptTokensEstimate : ℚ) * promptTokenWeight :=
    mul_nonneg (Int.cast_nonneg prompt) (by norm_num [promptTokenWeight])
  refine add_nonneg share ?_
  unfold expectedCompletion
  split
  · exact average
  · exact le_min (Int.cast_nonneg output) average

theorem expected_nonnegative (configured : Configured settings) (sound : Sound db) :
    ∀ t ∈ db.tasks, 0 ≤ expectedTokens (avgCompletionTokens settings db) t := fun t member =>
  expectedTokens_nonnegative (average_positive configured sound).le (sound.prompt t member) (sound.output t member)

theorem remaining_nonnegative (configured : Configured settings) (sound : Sound db) (id : BatchId) :
    0 ≤ remainingWeightedTokens (avgCompletionTokens settings db) db id :=
  load_nonnegative fun t member => expected_nonnegative configured sound t (List.mem_filter.mp member).1

-- The batches in progress stand in a line by creation time.
def inProgress (db : Db) : List (Batch × BatchId) := db.batches.zipIdx.filter (fun row => row.1.status == .inProgress)

def created (row : Batch × BatchId) : Instant := row.1.createdAt

theorem aheadBatches_before (db : Db) (b : Batch) : aheadBatches db b = before created (inProgress db) b.createdAt := by
  unfold aheadBatches before inProgress created
  rw [List.filter_filter]
  refine List.filter_congr fun row _ => ?_
  rw [Bool.and_comm]

theorem mem_inProgress {b : Batch} {id : BatchId} :
    (b,id) ∈ inProgress db ↔ db.batches[id]? = some b ∧ b.status = .inProgress := by
  rw [inProgress,List.mem_filter,List.mem_zipIdx_iff_getElem?,beq_iff_eq]

def seconds (settings : Settings) (db : Db) (b : Batch) (id : BatchId) : ℚ :=
  (aheadWeighted settings db b + remainingWeightedTokens (avgCompletionTokens settings db) db id) / clusterTps settings db

theorem estimate_waiting (configured : Configured settings) (sound : Sound db) (slots : 0 < healthySlots db)
    (waiting : b.status = .inProgress) : estimateBatchEta settings db now b id = (do
      let completion ← completionAt now (seconds settings db b id)
      return ⟨some (seconds settings db b id),some completion,some (aheadBatches db b).length,confidence settings db⟩) := by
  have positive := cluster_positive configured sound slots
  unfold estimateBatchEta
  rw [if_neg (by simp [waiting]),if_neg configured.nodes,if_neg (not_le.mpr slots),if_neg (not_le.mpr positive),divide,
    if_neg positive.ne']
  rfl

theorem completionAt_ok (clock : minWall ≤ now) {x : ℚ} (sign : 0 ≤ x) : completionAt now x =
    if now + roundHalfEven (x * 1000000) ≤ maxWall then .ok ((nowAt 0 now).add (roundHalfEven (x * 1000000)))
    else .error .overflowError := by
  have wall : (nowAt 0 now).wall = now := by simp [nowAt]
  unfold completionAt
  rw [plus_timedelta (by rwa [wall]) sign,wall]
  by_cases lands : now + roundHalfEven (x * 1000000) ≤ maxWall
  · rw [if_pos lands,if_pos lands]
  · rw [if_neg lands,if_neg lands]

section
variable (configured : Configured settings) (sound : Sound db) (slots : 0 < healthySlots db)
include configured sound slots

theorem seconds_nonnegative (b : Batch) (id : BatchId) : 0 ≤ seconds settings db b id := by
  refine div_nonneg (add_nonneg ?_ (remaining_nonnegative configured sound id)) (cluster_positive configured sound slots).le
  exact load_nonnegative fun row _ => remaining_nonnegative configured sound row.2

-- A batch in progress has its estimate, or its date cannot be represented.
theorem estimated_iff (clock : minWall ≤ now) (waiting : b.status = .inProgress) {x : ℚ} {p : Nat} :
    Estimated settings db now b id x p ↔ x = seconds settings db b id ∧ p = (aheadBatches db b).length ∧
      now + roundHalfEven (seconds settings db b id * 1000000) ≤ maxWall := by
  unfold Estimated
  rw [estimate_waiting configured sound slots waiting,completionAt_ok clock (seconds_nonnegative configured sound slots b id)]
  by_cases lands : now + roundHalfEven (seconds settings db b id * 1000000) ≤ maxWall
  · rw [if_pos lands]
    constructor
    · rintro ⟨d,c,same,_⟩
      cases same
      exact ⟨rfl,rfl,lands⟩
    · rintro ⟨rfl,rfl,_⟩
      refine ⟨_,_,rfl,?_⟩
      unfold confidence
      split <;> simp
  · rw [if_neg lands]
    refine iff_of_false ?_ fun all => lands all.2.2
    rintro ⟨d,c,same,_⟩
    cases same

theorem seconds_later (listed : (a,i) ∈ inProgress db) (earlier : a.createdAt < b.createdAt) :
    seconds settings db a i + remainingWeightedTokens (avgCompletionTokens settings db) db j / clusterTps settings db ≤
      seconds settings db b j := by
  have grows := load_later (fun row : Batch × BatchId => remainingWeightedTokens (avgCompletionTokens settings db) db row.2)
    created (fun row _ => remaining_nonnegative configured sound row.2) listed (t := b.createdAt) earlier
  have ahead : ∀ c : Batch, aheadWeighted settings db c =
      load (fun row => remainingWeightedTokens (avgCompletionTokens settings db) db row.2) (before created (inProgress db) c.createdAt) := by
    intro c
    rw [aheadWeighted,aheadBatches_before]
    rfl
  unfold seconds
  rw [← add_div,ahead,ahead]
  exact div_le_div_of_nonneg_right (add_le_add grows le_rfl) (cluster_positive configured sound slots).le

-- An earlier batch lands with a later one, and before it in every respect.
theorem ordered_lands (clock : minWall ≤ now) (first : (a,i) ∈ inProgress db) (second : (b,j) ∈ inProgress db)
    (earlier : a.createdAt < b.createdAt) : Ordered settings db now a i b j ↔
      now + roundHalfEven (seconds settings db b j * 1000000) ≤ maxWall := by
  have later := seconds_later (j := j) configured sound slots first earlier
  have signA := seconds_nonnegative configured sound slots a i
  have signB := seconds_nonnegative configured sound slots b j
  have own := div_nonneg (remaining_nonnegative configured sound j) (cluster_positive configured sound slots).le
  constructor
  · rintro ⟨x,y,p,q,order⟩
    exact ((estimated_iff configured sound slots clock (mem_inProgress.mp second).2).mp order.second).2.2
  · intro lands
    have sooner : seconds settings db a i * 1000000 ≤ seconds settings db b j * 1000000 := by linarith
    have landed : now + roundHalfEven (seconds settings db a i * 1000000) ≤ maxWall :=
      (add_le_add le_rfl (roundHalfEven_mono sooner)).trans lands
    refine ⟨_,_,_,_,(estimated_iff configured sound slots clock (mem_inProgress.mp first).2).mpr ⟨rfl,rfl,landed⟩,
      (estimated_iff configured sound slots clock (mem_inProgress.mp second).2).mpr ⟨rfl,rfl,lands⟩,⟨signA,signB⟩,?_,later⟩
    rw [aheadBatches_before,aheadBatches_before]
    exact length_later created first earlier

end

-- The work of a batch and of those ahead, task by task.
theorem mem_ahead {k : BatchId} : k ∈ (aheadBatches db b).map Prod.snd ↔
    ∃ o, db.batches[k]? = some o ∧ o.status = .inProgress ∧ o.createdAt < b.createdAt := by
  constructor
  · intro listed
    obtain ⟨⟨o,k⟩,member,rfl⟩ := List.mem_map.mp listed
    obtain ⟨there,conditions⟩ := List.mem_filter.mp member
    rw [List.mem_zipIdx_iff_getElem?] at there
    simp only [Bool.and_eq_true,beq_iff_eq,decide_eq_true_eq] at conditions
    exact ⟨o,there,conditions⟩
  · rintro ⟨o,there,waiting,sooner⟩
    refine List.mem_map_of_mem (f := Prod.snd) (a := (o,k)) (List.mem_filter.mpr ⟨?_,?_⟩)
    · exact List.mem_zipIdx_iff_getElem?.mpr there
    · simp [waiting,sooner]

theorem ahead_ids (found : db.batches[id]? = some b) : ((aheadBatches db b).map Prod.snd ++ [id]).Nodup := by
  refine List.Nodup.append (Rows.selected_distinct _ _) (List.nodup_singleton id) ?_
  intro k ahead here
  rw [List.mem_singleton.mp here] at ahead
  obtain ⟨o,there,_,sooner⟩ := mem_ahead.mp ahead
  rw [found] at there
  cases there
  exact lt_irrefl _ sooner

theorem waitsFor_iff {t : Task} : waitsFor db b id t = true ↔
    t.live = true ∧ t.batchId ∈ (aheadBatches db b).map Prod.snd ++ [id] := by
  rw [waitsFor,Bool.and_eq_true,Bool.or_eq_true,beq_iff_eq,Option.any_eq_true,List.mem_append,List.mem_singleton,mem_ahead]
  simp only [Bool.and_eq_true,beq_iff_eq,decide_eq_true_eq,or_comm]

theorem workload_seconds (found : db.batches[id]? = some b) :
    workload settings db b id / clusterTps settings db = seconds settings db b id := by
  have listed : ∀ t ∈ db.tasks.filter (waitsFor db b id), t.batchId ∈ (aheadBatches db b).map Prod.snd ++ [id] :=
    fun t member => (waitsFor_iff.mp (List.mem_filter.mp member).2).2
  have groups := Rows.sum_groups Task.batchId (expectedTokens (avgCompletionTokens settings db)) (ahead_ids found) listed
  have own : ∀ k ∈ (aheadBatches db b).map Prod.snd ++ [id],
      (((db.tasks.filter (waitsFor db b id)).filter (fun t => t.batchId == k)).map (expectedTokens (avgCompletionTokens settings db))).sum =
        remainingWeightedTokens (avgCompletionTokens settings db) db k := by
    intro k listed
    rw [List.filter_filter,remainingWeightedTokens]
    refine congrArg List.sum (congrArg (List.map _) (List.filter_congr fun t _ => ?_))
    rw [Bool.eq_iff_iff,Bool.and_eq_true,Bool.and_eq_true,waitsFor_iff,beq_iff_eq]
    exact ⟨fun all => ⟨all.1,all.2.1⟩,fun both => ⟨both.1,both.2,both.1 ▸ listed⟩⟩
  rw [workload,← groups,List.map_congr_left own,List.map_append,List.sum_append,List.map_map]
  simp [seconds,aheadWeighted,Function.comp_def]

-- A task turned terminal, and nothing else.
def settle (task : TaskId) (status : TaskStatus) (db : Db) : Db := db.updateTask task (fun t => {t with status := status})

variable {task : TaskId} {status : TaskStatus} {t : Task}

theorem settle_sound (sound : Sound db) : Sound (settle task status db) where
  prompt t member := by
    rcases Rows.mem_modify member with old | ⟨old,found,rfl⟩
    · exact sound.prompt t old
    · exact sound.prompt old (List.mem_of_getElem? found)
  output t member := by
    rcases Rows.mem_modify member with old | ⟨old,found,rfl⟩
    · exact sound.output t old
    · exact sound.output old (List.mem_of_getElem? found)
  throughput := sound.throughput
  completion := sound.completion

theorem settle_remaining {avg : ℚ} (size : 0 ≤ expectedTokens avg t) (found : db.tasks[task]? = some t)
    (closed : status.live = false) (k : BatchId) :
    remainingWeightedTokens avg (settle task status db) k ≤ remainingWeightedTokens avg db k := by
  unfold remainingWeightedTokens
  rw [Rows.sum_filter,Rows.sum_filter]
  have moved := Rows.sum_modify found (fun t => {t with status := status})
    (fun t => if t.batchId == k && t.live then expectedTokens avg t else 0)
  have gone : Task.live {t with status := status} = false := closed
  have share : 0 ≤ if t.batchId == k && t.live then expectedTokens avg t else 0 := by
    split
    · exact size
    · exact le_rfl
  simp only [gone,Bool.and_false,Bool.false_eq_true,if_false,add_zero] at moved
  exact le_of_add_le_of_nonneg_left moved.le share

-- A task that settles brings every estimate forward, or leaves it.
theorem settle_shortens (configured : Configured settings) (sound : Sound db) (slots : 0 < healthySlots db)
    (clock : minWall ≤ now) (found : db.tasks[task]? = some t) (closed : status.live = false)
    (waiting : b.status = .inProgress) {x : ℚ} {p : Nat} (estimated : Estimated settings db now b id x p) :
    ∃ y, Estimated settings (settle task status db) now b id y p ∧ y ≤ x := by
  obtain ⟨rfl,rfl,lands⟩ := (estimated_iff configured sound slots clock waiting).mp estimated
  have less : ∀ k, remainingWeightedTokens (avgCompletionTokens settings db) (settle task status db) k ≤
      remainingWeightedTokens (avgCompletionTokens settings db) db k :=
    settle_remaining (expected_nonnegative configured sound t (List.mem_of_getElem? found)) found closed
  have shorter : seconds settings (settle task status db) b id ≤ seconds settings db b id := by
    have ahead : aheadWeighted settings (settle task status db) b ≤ aheadWeighted settings db b :=
      load_lighter fun row _ => less row.2
    exact div_le_div_of_nonneg_right (add_le_add ahead (less id)) (cluster_positive configured sound slots).le
  refine ⟨_,(estimated_iff configured (settle_sound sound) slots clock waiting).mpr ⟨rfl,rfl,?_⟩,shorter⟩
  exact (add_le_add le_rfl (roundHalfEven_mono (by linarith))).trans lands

theorem never_divides_by_zero (settings : Settings) (db : Db) (now : Instant) (b : Batch) (id : BatchId) :
    estimateBatchEta settings db now b id ≠ .error .zeroDivisionError := by
  unfold estimateBatchEta
  split
  · simp
  · split
    · simp
    · split
      · simp
      · split
        · simp
        · rename_i positive
          rw [divide,if_neg (not_le.mp positive).ne']
          change (completionAt now _ >>= _) ≠ _
          unfold completionAt
          split <;> simp [bind,Except.bind,pure,Except.pure]

-- Estimates follow the order of creation but for dates past the year 9999.
theorem eta_order_iff (configured : Configured settings) (sound : Sound db) (slots : 0 < healthySlots db)
    (clock : minWall ≤ now) (first : db.batches[i]? = some a) (second : db.batches[j]? = some b)
    (waitingA : a.status = .inProgress) (waitingB : b.status = .inProgress) (earlier : a.createdAt < b.createdAt) :
    (Ordered settings db now a i b j ↔ Lands settings db now b j) ∧
    (∀ c k, estimateBatchEta settings db now c k ≠ .error .zeroDivisionError) ∧
    ∀ task t status, db.tasks[task]? = some t → t.live = true → status.live = false →
      ∀ c k x p, db.batches[k]? = some c → c.status = .inProgress → Estimated settings db now c k x p →
        ∃ y, Estimated settings (settle task status db) now c k y p ∧ y ≤ x := by
  refine ⟨?_,never_divides_by_zero settings db now,fun task t status found _ closed c k x p _ waiting estimated => ?_⟩
  · rw [Lands,workload_seconds second]
    exact ordered_lands configured sound slots clock (mem_inProgress.mpr ⟨first,waitingA⟩) (mem_inProgress.mpr ⟨second,waitingB⟩) earlier
  · exact settle_shortens configured sound slots clock found closed waiting estimated

-- Two batches of one task each, before one node with one slot.
def waitingBatch (createdAt : Instant) : Batch where
  userId := 0
  inputFileId := 0
  endpoint := []
  completionWindow := []
  status := .inProgress
  reservedTokens := 110
  requestTotal := 1
  createdAt := createdAt

def waitingTask (batchId : BatchId) : Task where
  batchId := batchId
  lineIndex := 0
  customId := []
  requestBody := []
  reservedTokens := 110
  promptTokensEstimate := 10
  maxTokens := 100

def backlog : Db where
  batches := [waitingBatch 0,waitingBatch 1]
  tasks := [waitingTask 0,waitingTask 1]
  nodes := [{name := "node",baseUrl := "http://node.test",parallelSlots := 1}]

def bootstrapped (tokensPerSecond : ℚ) : Settings where
  nodes := [⟨"node","http://node.test",1⟩]
  etaBootstrapTokensPerSecond := tokensPerSecond

theorem bootstrapped_configured {tokensPerSecond : ℚ} (positive : 0 < tokensPerSecond) :
    Configured (bootstrapped tokensPerSecond) :=
  ⟨List.cons_ne_nil _ _,positive,by norm_num [bootstrapped]⟩

theorem backlog_sound : Sound backlog where
  prompt := by simp [backlog,waitingTask]
  output := by simp [backlog,waitingTask]
  throughput tps none := by cases none
  completion avg none := by cases none

theorem eta_order_backlog : Ordered (bootstrapped 5) backlog 0 (waitingBatch 0) 0 (waitingBatch 1) 1 :=
  (eta_order_iff (bootstrapped_configured (by norm_num)) backlog_sound (by decide) (by decide) rfl rfl rfl rfl
    (by decide)).1.mpr (by unfold Lands; decide +kernel)

-- A ten-billionth of a token a second: the date is past the year 9999.
theorem completion_date_overflows : ¬ ∀ settings db now a i b j, Configured settings → Sound db → 0 < healthySlots db →
    minWall ≤ now → db.batches[i]? = some a → db.batches[j]? = some b → a.status = .inProgress → b.status = .inProgress →
    a.createdAt < b.createdAt → Ordered settings db now a i b j := by
  intro always
  obtain ⟨x,y,p,q,order⟩ := always (bootstrapped (1/10000000000)) backlog 0 (waitingBatch 0) 0 (waitingBatch 1) 1
    (bootstrapped_configured (by norm_num)) backlog_sound (by decide) (by decide) rfl rfl rfl rfl (by decide)
  obtain ⟨d,c,same,_⟩ := order.second
  have overflow : estimateBatchEta (bootstrapped (1/10000000000)) backlog 0 (waitingBatch 1) 1 = .error .overflowError := by
    decide +kernel
  rw [overflow] at same
  cases same

end BatchGateway.QueueEta
