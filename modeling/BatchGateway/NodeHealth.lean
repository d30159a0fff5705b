import Mathlib.Algebra.BigOperators.Ring.Finset
import Mathlib.Algebra.Order.BigOperators.Group.List
import BatchGateway.ClaimPass
import BatchGateway.Histories
import BatchGateway.LabelledRuns

-- The health of the nodes over process starts and health passes.
namespace BatchGateway.NodeHealth
open LabelledRuns Histories Dispatcher ClaimPass

-- health_check_all: every node that is not DISABLED is probed, then the answers are
-- written in a session of their own.
def healthCheckAll (threshold : Int) (probe : NodeName → Bool) (db : Db) : Db :=
  applyHealthResults threshold ((db.nodes.filter (fun n => n.health != .disabled)).map (fun n => (n.name,probe n.name))) db

inductive Action where
  | start (nodes : List NodeConfig)
  | healthPass (probe : NodeName → Bool)

def advance (threshold : Int) : Action → Db → Db
  | .start nodes => startup nodes
  | .healthPass probe => healthCheckAll threshold probe

def Step (threshold : Int) (s : Db) (action : Action) (t : Db) : Prop := t = advance threshold action s

def configAfter (nodes : List NodeConfig) : Action → List NodeConfig
  | .start later => later
  | .healthPass _ => nodes

def latestConfig (actions : List Action) : List NodeConfig := actions.foldl configAfter []

def Listed (actions : List Action) (name : NodeName) : Prop := name ∈ (latestConfig actions).map NodeConfig.name

-- The start that creates a node or enables it again, and a probe that succeeds.
def Resets (name : NodeName) (before : List Action) : Action → Prop
  | .start nodes => name ∈ nodes.map NodeConfig.name ∧ ¬ Listed before name
  | .healthPass probe => Listed before name ∧ probe name = true

def failedProbe (name : NodeName) : Action → Bool
  | .start _ => false
  | .healthPass probe => !probe name

-- A node that is listed is probed by every pass since its last reset.
structure Streak (threshold : Int) (actions : List Action) (n : Node) : Prop where
  failures : ∃ after, Latest (Resets n.name) actions after ∧ n.consecutiveFailures = after.countP (failedProbe n.name)
  health : n.health = if threshold ≤ n.consecutiveFailures then .unhealthy else .healthy

structure HealthTracked (threshold : Int) (actions : List Action) (db : Db) : Prop where
  distinct : (db.nodes.map Node.name).Nodup
  present : ∀ name, Listed actions name → ∃ n ∈ db.nodes, n.name = name
  disabled : ∀ n ∈ db.nodes, (n.health = .disabled ↔ ¬ Listed actions n.name)
  streak : ∀ n ∈ db.nodes, Listed actions n.name → Streak threshold actions n

variable {threshold : Int} {actions : List Action} {nodes : List NodeConfig} {probe : NodeName → Bool} {s t : Db} {n : Node}
  {name : NodeName}

theorem listed_start : Listed (actions ++ [.start nodes]) name ↔ name ∈ nodes.map NodeConfig.name := by
  unfold Listed latestConfig
  rw [List.foldl_concat]
  exact Iff.rfl

theorem listed_pass : Listed (actions ++ [.healthPass probe]) name ↔ Listed actions name := by
  unfold Listed latestConfig
  rw [List.foldl_concat]
  exact Iff.rfl

theorem configured_some : (∃ cfg, configured nodes name = some cfg) ↔ name ∈ nodes.map NodeConfig.name := by
  rw [← Option.isSome_iff_exists,configured,List.find?_isSome]
  simp [List.mem_map]

-- What a start makes of the rows.
theorem mem_synced (member : n ∈ (syncNodesFromConfig nodes s).nodes) :
    (∃ old ∈ s.nodes, n = syncNode nodes old) ∨
    ∃ cfg, configured nodes n.name = some cfg ∧ n = newNode cfg ∧ ∀ old ∈ s.nodes, old.name ≠ n.name := by
  rcases List.mem_append.mp member with old | new
  · obtain ⟨row,listed,rfl⟩ := List.mem_map.mp old
    exact .inl ⟨row,listed,rfl⟩
  · obtain ⟨cfg,listed,rfl⟩ := List.mem_map.mp new
    obtain ⟨name,fresh,found⟩ := List.mem_filterMap.mp listed
    have named : (newNode cfg).name = name := configured_name found
    rw [List.mem_eraseDups,List.mem_filter] at fresh
    refine .inr ⟨cfg,by rw [named]; exact found,rfl,fun old there same => ?_⟩
    have clash := List.all_eq_true.mp fresh.2 old there
    simp [same,named] at clash

theorem synced_present (listed : name ∈ nodes.map NodeConfig.name) :
    ∃ n ∈ (syncNodesFromConfig nodes s).nodes, n.name = name := by
  by_cases known : ∃ old ∈ s.nodes, old.name = name
  · obtain ⟨old,there,named⟩ := known
    exact ⟨syncNode nodes old,List.mem_append_left _ (List.mem_map_of_mem there),(syncNode_name nodes old).trans named⟩
  · obtain ⟨cfg,found⟩ := configured_some.mpr listed
    refine ⟨newNode cfg,List.mem_append_right _ (List.mem_map_of_mem (List.mem_filterMap.mpr ⟨name,?_,found⟩)),
      configured_name found⟩
    rw [List.mem_eraseDups,List.mem_filter]
    refine ⟨listed,List.all_eq_true.mpr fun old there => ?_⟩
    simpa using fun same => known ⟨old,there,same⟩

-- What a health pass makes of a row.
def checked (threshold : Int) (probe : NodeName → Bool) (n : Node) : Node :=
  if n.health = .disabled then n else applyHealthResult threshold n.name (probe n.name) n

theorem applied_name (name : NodeName) (ok : Bool) (n : Node) : (applyHealthResult threshold name ok n).name = n.name := by
  unfold applyHealthResult
  split
  · rfl
  · split
    · rfl
    · split <;> rfl

theorem applied_other {ok : Bool} (different : n.name ≠ name) : applyHealthResult threshold name ok n = n :=
  if_pos different

theorem applied_ok (threshold : Int) (n : Node) :
    applyHealthResult threshold n.name true n = {n with consecutiveFailures := 0,health := .healthy} := by
  simp [applyHealthResult]

theorem applied_failed (threshold : Int) (n : Node) : applyHealthResult threshold n.name false n =
    {n with consecutiveFailures := n.consecutiveFailures + 1
            health := if threshold ≤ n.consecutiveFailures + 1 then .unhealthy else n.health} := by
  by_cases enough : threshold ≤ n.consecutiveFailures + 1
  · simp [applyHealthResult,enough]
  · simp [applyHealthResult,enough]

-- A row takes the one result under its name.
theorem applied_results (threshold : Int) (results : List (NodeName × Bool)) (distinct : (results.map Prod.fst).Nodup)
    (nodes : List Node) : results.foldl (fun nodes r => nodes.map (applyHealthResult threshold r.1 r.2)) nodes =
      nodes.map (fun n => match results.find? (fun r => r.1 == n.name) with
        | some r => applyHealthResult threshold n.name r.2 n
        | none => n) := by
  induction results generalizing nodes with
  | nil => simp
  | cons r results ih =>
    obtain ⟨fresh,distinct⟩ := List.nodup_cons.mp distinct
    rw [List.foldl_cons,ih distinct,List.map_map]
    refine List.map_congr_left fun n _ => ?_
    simp only [Function.comp_apply,applied_name,List.find?_cons]
    by_cases mine : n.name = r.1
    · have absent : results.find? (fun other => other.1 == n.name) = none := by
        refine List.find?_eq_none.mpr fun other member => ?_
        have different : other.1 ≠ r.1 := fun same => fresh (same ▸ List.mem_map_of_mem member)
        simpa [mine] using different
      rw [absent]
      simp [mine]
    · have other : (r.1 == n.name) = false := beq_eq_false_iff_ne.mpr (Ne.symm mine)
      rw [other,applied_other mine]

theorem checked_nodes (distinct : (s.nodes.map Node.name).Nodup) :
    (healthCheckAll threshold probe s).nodes = s.nodes.map (checked threshold probe) := by
  have results : (((s.nodes.filter (fun n => n.health != .disabled)).map (fun n => (n.name,probe n.name))).map
      Prod.fst).Nodup := by
    rw [List.map_map]
    exact (List.filter_sublist.map Node.name).nodup distinct
  unfold healthCheckAll applyHealthResults
  rw [applied_results threshold _ results]
  refine List.map_congr_left fun n member => ?_
  rw [List.find?_map]
  cases found : (s.nodes.filter (fun n => n.health != .disabled)).find? ((fun r => r.1 == n.name) ∘ fun n => (n.name,probe n.name)) with
  | none =>
    have off : n.health = .disabled := by
      have missing := List.find?_eq_none.mp found n
      simpa [member] using missing
    simp [checked,off]
  | some m =>
    have inside := List.mem_filter.mp (List.mem_of_find?_eq_some found)
    have named : m.name = n.name := by simpa using List.find?_some found
    have same : m = n := List.inj_on_of_nodup_map distinct inside.1 member named
    subst same
    have on : m.health ≠ .disabled := by simpa using inside.2
    simp [checked,on]

theorem Streak.kept {action : Action} {m : Node} (valid : Streak threshold actions n) (name : m.name = n.name)
    (failures : m.consecutiveFailures = n.consecutiveFailures) (health : m.health = n.health)
    (no_reset : ¬ Resets n.name actions action) (no_failure : failedProbe n.name action = false) :
    Streak threshold (actions ++ [action]) m := by
  obtain ⟨after,latest,count⟩ := valid.failures
  refine ⟨⟨after ++ [action],?_,?_⟩,?_⟩
  · rw [name]
    exact latest.append no_reset
  · rw [name,failures,count,List.countP_append,List.countP_singleton,if_neg (by simp [no_failure]),Nat.add_zero]
  · rw [failures,health]
    exact valid.health

theorem streak_reset {action : Action} {m : Node} (positive : 1 ≤ threshold) (resets : Resets m.name actions action)
    (failures : m.consecutiveFailures = 0) (health : m.health = .healthy) : Streak threshold (actions ++ [action]) m := by
  refine ⟨⟨[],latest_start resets,by rw [failures]; rfl⟩,?_⟩
  rw [failures,if_neg (by omega),health]

theorem synced_disabled {old : Node} : (syncNode nodes old).health = .disabled ↔ old.name ∉ nodes.map NodeConfig.name := by
  unfold syncNode
  cases found : configured nodes old.name with
  | none =>
    have absent : old.name ∉ nodes.map NodeConfig.name := by
      rw [← configured_some,found]
      rintro ⟨cfg,same⟩
      cases same
    simpa using absent
  | some cfg =>
    have listed : old.name ∈ nodes.map NodeConfig.name := configured_some.mp ⟨cfg,found⟩
    refine iff_of_false ?_ (not_not.mpr listed)
    by_cases off : old.health = .disabled
    · simp [off]
    · simp [off]

theorem synced_streak {old : Node} (positive : 1 ≤ threshold) (valid : HealthTracked threshold actions s)
    (member : old ∈ s.nodes) (listed : old.name ∈ nodes.map NodeConfig.name) :
    Streak threshold (actions ++ [.start nodes]) (syncNode nodes old) := by
  obtain ⟨cfg,found⟩ := configured_some.mpr listed
  by_cases off : old.health = .disabled
  · have fresh := (valid.disabled old member).mp off
    have enabled : syncNode nodes old =
        {old with baseUrl := cfg.baseUrl,parallelSlots := cfg.parallelSlots,health := .healthy,consecutiveFailures := 0} := by
      simp [syncNode,found,off]
    rw [enabled]
    exact streak_reset positive ⟨listed,fresh⟩ rfl rfl
  · have known : Listed actions old.name := Classical.not_not.mp fun fresh => off ((valid.disabled old member).mpr fresh)
    have kept : syncNode nodes old = {old with baseUrl := cfg.baseUrl,parallelSlots := cfg.parallelSlots} := by
      simp [syncNode,found,off]
    rw [kept]
    exact (valid.streak old member known).kept rfl rfl rfl (fun resets => resets.2 known) rfl

theorem start_tracked (positive : 1 ≤ threshold) (valid : HealthTracked threshold actions s) :
    HealthTracked threshold (actions ++ [.start nodes]) (startup nodes s) := by
  refine ⟨sync_distinct nodes valid.distinct,fun name listed => synced_present (listed_start.mp listed),fun n member => ?_,
    fun n member listed => ?_⟩
  · rw [listed_start]
    rcases mem_synced member with ⟨old,there,rfl⟩ | ⟨cfg,found,created,fresh⟩
    · rw [syncNode_name]
      exact synced_disabled
    · refine iff_of_false ?_ (not_not.mpr (configured_some.mp ⟨cfg,found⟩))
      rw [created]
      simp [newNode]
  · rw [listed_start] at listed
    rcases mem_synced member with ⟨old,there,rfl⟩ | ⟨cfg,found,created,fresh⟩
    · rw [syncNode_name] at listed
      exact synced_streak positive valid there listed
    · refine streak_reset positive ⟨listed,fun known => ?_⟩ (by rw [created]; rfl) (by rw [created]; rfl)
      obtain ⟨old,there,named⟩ := valid.present n.name known
      exact fresh old there named

theorem checked_name (n : Node) : (checked threshold probe n).name = n.name := by
  unfold checked
  split
  · rfl
  · exact applied_name ..

theorem checked_streak (positive : 1 ≤ threshold) (known : Listed actions n.name) (on : n.health ≠ .disabled)
    (valid : Streak threshold actions n) : Streak threshold (actions ++ [.healthPass probe]) (checked threshold probe n) := by
  rw [checked,if_neg on]
  cases answer : probe n.name with
  | true =>
    rw [applied_ok]
    exact streak_reset positive ⟨known,answer⟩ rfl rfl
  | false =>
    obtain ⟨after,latest,count⟩ := valid.failures
    have no_reset : ¬ Resets n.name actions (.healthPass probe) := by
      rintro ⟨_,succeeded⟩
      rw [answer] at succeeded
      cases succeeded
    rw [applied_failed]
    refine ⟨⟨after ++ [.healthPass probe],latest.append no_reset,?_⟩,?_⟩
    · change n.consecutiveFailures + 1 = ((after ++ [Action.healthPass probe]).countP (failedProbe n.name) : Int)
      rw [List.countP_append,List.countP_singleton,if_pos (by simp [failedProbe,answer]),count]
      rfl
    · by_cases enough : threshold ≤ n.consecutiveFailures + 1
      · simp [enough]
      · have before : n.health = .healthy := by
          rw [valid.health,if_neg (by omega)]
        simp [enough,before]

theorem checked_disabled : (checked threshold probe n).health = .disabled ↔ n.health = .disabled := by
  unfold checked
  by_cases off : n.health = .disabled
  · rw [if_pos off]
  · rw [if_neg off]
    refine iff_of_false ?_ off
    cases probe n.name with
    | true => simp [applied_ok]
    | false =>
      rw [applied_failed]
      by_cases enough : threshold ≤ n.consecutiveFailures + 1
      · simp [enough]
      · simpa [enough] using off

theorem pass_tracked (positive : 1 ≤ threshold) (valid : HealthTracked threshold actions s) :
    HealthTracked threshold (actions ++ [.healthPass probe]) (healthCheckAll threshold probe s) := by
  have rows : (healthCheckAll threshold probe s).nodes = s.nodes.map (checked threshold probe) := checked_nodes valid.distinct
  refine ⟨?_,fun name listed => ?_,fun n member => ?_,fun n member listed => ?_⟩
  · rw [rows,List.map_map]
    have names : Node.name ∘ checked threshold probe = Node.name := funext checked_name
    rw [names]
    exact valid.distinct
  · obtain ⟨n,there,named⟩ := valid.present name (listed_pass.mp listed)
    exact ⟨checked threshold probe n,by rw [rows]; exact List.mem_map_of_mem there,(checked_name n).trans named⟩
  · rw [rows] at member
    obtain ⟨old,there,rfl⟩ := List.mem_map.mp member
    rw [checked_disabled,checked_name,listed_pass]
    exact valid.disabled old there
  · rw [rows] at member
    obtain ⟨old,there,rfl⟩ := List.mem_map.mp member
    rw [checked_name,listed_pass] at listed
    exact checked_streak positive listed (fun off => (valid.disabled old there).mp off listed) (valid.streak old there listed)

theorem run_tracked (positive : 1 ≤ threshold) (none_yet : s.nodes = []) (path : Run (Step threshold) s actions t) :
    HealthTracked threshold actions t := by
  induction path with
  | nil =>
    refine ⟨by rw [none_yet]; exact .nil,fun name listed => ?_,fun n member => ?_,fun n member => ?_⟩
    · cases listed
    · rw [none_yet] at member
      cases member
    · rw [none_yet] at member
      cases member
  | @step actions m action t _ last ih =>
    cases last
    cases action with
    | start nodes => exact start_tracked positive ih
    | healthPass probe => exact pass_tracked positive ih

-- How the rows bear on the claim passes: a probe that succeeds puts a node among those
-- with capacity, which get all of their free slots filled when tasks enough wait.
structure Serves (actions : List Action) (db : Db) : Prop where
  restored : ∀ before probe name, actions = before ++ [.healthPass probe] → Listed before name → probe name = true →
    ∃ n ∈ healthyNodes db, n.name = name
  filled : ∀ load, ∀ n ∈ healthyNodes db, freeCapacity load db ≤ eligibleCount db →
    (given n.name (assignments load db) : Int) = max (free load n) 0
  enabled : ∀ load, ∀ a ∈ assignments load db, Listed actions a.nodeName ∧ ∃ n ∈ healthyNodes db, n.name = a.nodeName

-- The tasks of a pass are counted once each, under the names of the nodes.
theorem given_sum {names : List NodeName} (distinct : names.Nodup) (out : List Assignment)
    (inside : ∀ a ∈ out, a.nodeName ∈ names) : (names.map (fun name => given name out)).sum = out.length := by
  have grouped := Rows.sum_groups Assignment.nodeName (fun _ => 1) distinct inside
  rw [List.map_const',List.sum_replicate,nsmul_eq_mul,mul_one,Nat.cast_id] at grouped
  refine Eq.trans (congrArg List.sum (List.map_congr_left fun name _ => ?_)) grouped
  rw [given,List.countP_eq_length_filter,List.map_const',List.sum_replicate,nsmul_eq_mul,mul_one,Nat.cast_id]
  rfl

theorem given_all {load : InFlight} {db : Db} (distinct : (db.nodes.map Node.name).Nodup)
    (enough : freeCapacity load db ≤ eligibleCount db) (listed : n ∈ healthyNodes db) :
    (given n.name (assignments load db) : Int) = max (free load n) 0 := by
  have names : ((healthyNodes db).map Node.name).Nodup := (List.filter_sublist.map Node.name).nodup distinct
  have total := given_sum names (assignments load db) fun a assigned => by
    obtain ⟨m,there,healthy,named,_⟩ := assigned_healthy assigned
    rw [named]
    exact List.mem_map_of_mem (List.mem_filter.mpr ⟨there,beq_iff_eq.mpr healthy⟩)
  have count : ((assignments load db).length : Int) = _ := assigned_count distinct
  rw [min_eq_left enough,← total] at count
  by_contra short
  have less : (given n.name (assignments load db) : Int) < max (free load n) 0 :=
    lt_of_le_of_ne (given_within distinct listed) short
  have strict := List.sum_lt_sum (fun m : Node => (given m.name (assignments load db) : Int)) (fun m => max (free load m) 0)
    (fun m member => given_within distinct member) ⟨n,listed,less⟩
  rw [List.map_map,freeCapacity,Nat.cast_list_sum,List.map_map] at count
  exact strict.ne count

theorem run_serves (positive : 1 ≤ threshold) (none_yet : s.nodes = []) (path : Run (Step threshold) s actions t) :
    Serves actions t := by
  have tracked := run_tracked positive none_yet path
  refine ⟨fun before probe name same listed succeeded => ?_,fun load n listed enough => given_all tracked.distinct enough listed,
    fun load a assigned => ?_⟩
  · subst same
    obtain ⟨m,prior,last⟩ := path.last
    cases last
    have valid := run_tracked positive none_yet prior
    obtain ⟨n,there,rfl⟩ := valid.present name listed
    have on : n.health ≠ .disabled := fun off => (valid.disabled n there).mp off listed
    refine ⟨checked threshold probe n,List.mem_filter.mpr ⟨?_,?_⟩,checked_name n⟩
    · change _ ∈ (healthCheckAll threshold probe m).nodes
      rw [checked_nodes valid.distinct]
      exact List.mem_map_of_mem there
    · rw [checked,if_neg on,succeeded,applied_ok]
      rfl
  · obtain ⟨n,there,healthy,named,_⟩ := assigned_healthy assigned
    refine ⟨?_,n,List.mem_filter.mpr ⟨there,beq_iff_eq.mpr healthy⟩,named.symm⟩
    rw [named]
    by_contra unlisted
    have off := (tracked.disabled n there).mpr unlisted
    rw [healthy] at off
    cases off

theorem node_health_tracked (positive : 1 ≤ threshold) (none_yet : s.nodes = []) (path : Run (Step threshold) s actions t) :
    HealthTracked threshold actions t ∧ Serves actions t :=
  ⟨run_tracked positive none_yet path,run_serves positive none_yet path⟩

theorem ran (threshold : Int) (s : Db) (actions : List Action) :
    Run (Step threshold) s actions (actions.foldl (fun db action => advance threshold action db) s) := by
  induction actions using List.reverseRecOn with
  | nil => exact .nil
  | append_singleton actions action ih =>
    rw [List.foldl_concat]
    exact ih.step rfl

-- A node that fails twice, leaves the configuration and comes back to fail once more,
-- beside one that recovers.
def first : NodeConfig := ⟨"first","http://first.test",4⟩
def second : NodeConfig := ⟨"second","http://second.test",2⟩

def outage : List Action :=
  [.start [first,second],.healthPass (fun _ => false),.healthPass (fun _ => false),.start [second],
    .healthPass (fun name => name == "second"),.start [first,second],.healthPass (fun name => name == "second")]

def recovered : Db := outage.foldl (fun db action => advance 2 action db) {}

theorem node_health_tracked_outage : (HealthTracked 2 outage recovered ∧ Serves outage recovered) ∧
    recovered.nodes.map (fun n => (n.name,n.health,n.consecutiveFailures)) = [("first",.healthy,1),("second",.healthy,0)] :=
  ⟨node_health_tracked (by decide) rfl (ran 2 {} outage),by decide +kernel⟩

end BatchGateway.NodeHealth
