import BatchGateway.NodeHealth
import BatchGateway.PassOutcome
import BatchGateway.RowMoves

-- run_forever in one process after another, while the service answers requests.
namespace BatchGateway.DispatchLoop
open PythonText PythonJson BatchOps Dispatcher Sessions LabelledRuns Counters Passes PassSettlement
open LlamaClient (ClientError)

inductive Action where
  -- a request, or a round of the retention worker, run to its end
  | request (op : Service.Operation)
  | healthPass (threshold : Int) (probe : NodeName → Bool)
  | dispatch (now : Instant)
  -- one execution goes on; this is what its client makes of the request it may send
  | execution (i : Nat) (now : Instant) (replies : TaskId → Nat → Except ClientError Json)
  -- the process dies, and the next one runs startup
  | restart (nodes : List NodeConfig)

def served : Service.Operation → Bool
  | .grant _ _ _ | .uploadFile _ _ _ _ | .createBatch _ _ _ _ _ _ | .cancelBatch _ _ _ | .expireBatch _ _
  | .purgeExpiredResults _ _ => true
  | .claimAndAssign _ _ | .completeTask _ _ _ _ _ | .failTask _ _ _ | .applyHealthResults _ _ | .startup _ => false

def Stage.over : Stage → Bool
  | .returned | .raised _ => true
  | _ => false

-- Between two passes. An exception that has escaped from a pass ends the loop.
def idle (p : Pass) : Bool := p.escaped.isNone && p.executions.all (fun x => Stage.over x.stage)

variable (codec : Codec) (alpha : ℚ) (taskMaxAttempts : Int)

def advance : Action → Pass → Option Pass
  | .request op, p =>
    if served op then (Service.advance codec alpha op p.service).map (fun s => {p with service := s}) else none
  | .healthPass threshold probe, p =>
    if idle p then some {p with service := {p.service with db := NodeHealth.healthCheckAll threshold probe p.service.db}}
    else none
  | .dispatch now, p => if idle p then some {begun p.load now p.service with posted := p.posted} else none
  | .execution i now replies, p => Passes.advance codec alpha taskMaxAttempts replies (i,now) p
  | .restart nodes, p =>
    some {service := {p.service with db := startup nodes p.service.db,inFlight := []},load := fun _ => 0,executions := []}

def Step (p : Pass) (a : Action) (q : Pass) : Prop := advance codec alpha taskMaxAttempts a p = some q

def initial : Pass := {service := {},load := fun _ => 0,executions := []}

-- The configuration that the process running now was started with.
def configAfter (config : List NodeConfig) : Action → List NodeConfig
  | .restart nodes => nodes
  | .request _ | .healthPass _ _ | .dispatch _ | .execution _ _ _ => config

def latestConfig (actions : List Action) : List NodeConfig := actions.foldl configAfter []

-- The execution has not settled its task yet.
def unsettled (x : Execution) : Bool :=
  match x.stage with
  | .created | .requesting _ _ _ | .replied _ _ => true
  | .committed _ _ | .returned | .raised _ | .stuck _ => false

def InLoop (attempts : Nat) (p : Pass) (x : Execution) : Prop :=
  match x.stage with
  | .created => p.sent x.task = 0
  | .requesting _ attempt _ => p.sent x.task = attempt ∧ attempt < attempts
  | _ => True

structure Valid (config : List NodeConfig) (attempts : Nat) (p : Pass) : Prop where
  nodes : (p.service.db.nodes.map Node.name).Nodup
  rows : ∀ n ∈ p.service.db.nodes, n.health ≠ .disabled →
    ∃ cfg, configured config n.name = some cfg ∧ cfg.baseUrl = n.baseUrl ∧ cfg.parallelSlots = n.parallelSlots
  progress : Progress p.service.db p.service.inFlight
  distinct : (p.executions.map Execution.task).Nodup
  flying : ∀ x ∈ p.executions, unsettled x = true → x.task ∈ p.service.inFlight
  loops : ∀ x ∈ p.executions, InLoop attempts p x
  load : ∀ name, p.load name = p.executions.countP (busy name)
  slots : ∀ name cfg, configured config name = some cfg →
    (p.executions.countP (busy name) : Int) ≤ max cfg.parallelSlots 0
  homes : ∀ x ∈ p.executions, ∃ cfg, configured config x.assignment.nodeName = some cfg ∧ x.assignment.baseUrl = cfg.baseUrl
  requests : ∀ task, p.sent task ≤ attempts
  unsent : ∀ task, 0 < p.sent task → ∃ t, p.service.db.tasks[task]? = some t ∧ t.status ≠ .pending

variable {codec alpha taskMaxAttempts} {p q : Pass} {config : List NodeConfig} {attempts : Nat} {s t : Service}

theorem over_busy {x : Execution} (over_ : Stage.over x.stage = true) (name : NodeName) : busy name x = false := by
  unfold busy
  cases place : x.stage <;> rw [place] at over_ <;> first | rfl | cases over_

theorem over_load (valid : Valid config attempts p) (over_ : ∀ x ∈ p.executions, Stage.over x.stage = true) :
    p.load = fun _ => 0 := by
  funext name
  have none_ : p.executions.countP (busy name) = 0 := by
    apply List.countP_eq_zero.mpr
    intro x member
    rw [over_busy (over_ x member) name]
    exact Bool.false_ne_true
  rw [valid.load,none_]
  rfl

theorem idle_load (valid : Valid config attempts p) (free : idle p = true) : p.load = fun _ => 0 :=
  over_load valid (List.all_eq_true.mp (Bool.and_eq_true_iff.mp free).2)

-- What a request leaves as it is.
theorem served_frame {op : Service.Operation} (allowed : served op = true) (step : Service.Step codec alpha s op t) :
    t.db.nodes = s.db.nodes ∧ t.inFlight = s.inFlight := by
  cases op with
  | grant =>
    obtain ⟨_,rfl⟩ := Service.grant_posts step
    exact ⟨rfl,rfl⟩
  | uploadFile => cases step; exact ⟨rfl,rfl⟩
  | createBatch =>
    obtain ⟨_,created,rfl⟩ := Service.create_step step
    obtain ⟨_,_,_,_,_,rfl⟩ := createBatch_parts created
    exact ⟨rfl,rfl⟩
  | cancelBatch =>
    obtain ⟨_,_,_,_,_,done,rfl⟩ := Service.cancel_step step
    exact ⟨(Records.terminated_tables done).2.2,rfl⟩
  | expireBatch =>
    obtain ⟨_,_,_,_,done,rfl⟩ := Service.expire_step step
    exact ⟨(Records.terminated_tables done).2.2,rfl⟩
  | purgeExpiredResults =>
    have nodes := (Service.purge_step step).2.2.2
    cases step
    exact ⟨nodes,rfl⟩
  | claimAndAssign => cases allowed
  | completeTask => cases allowed
  | failTask => cases allowed
  | applyHealthResults => cases allowed
  | startup => cases allowed

-- No task becomes PENDING again but at a startup.
theorem left_pending {op : Service.Operation} {i : TaskId} {row later : Task} (moved : RowMoves.TaskMove s op i row later)
    (runs : ∀ nodes, op ≠ .startup nodes) (left : row.status ≠ .pending) : later.status ≠ .pending := by
  cases moved with
  | kept => exact left
  | claimed _ _ _ waiting => exact absurd waiting left
  | completed => exact fun same => by cases same
  | failed => exact fun same => by cases same
  | stopped => exact fun same => by cases same
  | recovered named => exact absurd named (runs _)

theorem unsent_kept {op : Service.Operation} {sent : TaskId → Nat} (step : Service.Step codec alpha s op t)
    (runs : ∀ nodes, op ≠ .startup nodes)
    (valid : ∀ task, 0 < sent task → ∃ t, s.db.tasks[task]? = some t ∧ t.status ≠ .pending) :
    ∀ task, 0 < sent task → ∃ row, t.db.tasks[task]? = some row ∧ row.status ≠ .pending := by
  intro task asked
  obtain ⟨row,found,left⟩ := valid task asked
  obtain ⟨later,there,moved⟩ := RowMoves.task_moves step found
  exact ⟨later,there,left_pending moved runs left⟩

theorem valid_request {op : Service.Operation} (valid : Valid config attempts p) (allowed : served op = true)
    (step : Service.Step codec alpha p.service op t) : Valid config attempts {p with service := t} := by
  obtain ⟨nodes,flights⟩ := served_frame allowed step
  refine ⟨?_,?_,step_progress valid.progress step,valid.distinct,?_,valid.loops,valid.load,valid.slots,valid.homes,
    valid.requests,?_⟩
  · rw [nodes]
    exact valid.nodes
  · rw [nodes]
    exact valid.rows
  · rw [flights]
    exact valid.flying
  · apply unsent_kept step _ valid.unsent
    rintro nodes rfl
    cases allowed

theorem checked_columns (threshold : Int) (probe : NodeName → Bool) (n : Node) :
    (NodeHealth.checked threshold probe n).baseUrl = n.baseUrl ∧
    (NodeHealth.checked threshold probe n).parallelSlots = n.parallelSlots := by
  unfold NodeHealth.checked applyHealthResult
  split
  · exact ⟨rfl,rfl⟩
  · rw [if_neg (not_not.mpr rfl)]
    split
    · exact ⟨rfl,rfl⟩
    · split
      · exact ⟨rfl,rfl⟩
      · exact ⟨rfl,rfl⟩

-- A health pass never enables a row: it asks no node that is DISABLED.
theorem valid_health (valid : Valid config attempts p) (threshold : Int) (probe : NodeName → Bool) :
    Valid config attempts {p with service := {p.service with db := NodeHealth.healthCheckAll threshold probe p.service.db}} := by
  have nodes : (NodeHealth.healthCheckAll threshold probe p.service.db).nodes =
      p.service.db.nodes.map (NodeHealth.checked threshold probe) := NodeHealth.checked_nodes valid.nodes
  refine ⟨?_,?_,valid.progress.transport rfl rfl,valid.distinct,valid.flying,valid.loops,valid.load,valid.slots,valid.homes,
    valid.requests,valid.unsent⟩
  · rw [nodes,List.map_map]
    have names : Node.name ∘ NodeHealth.checked threshold probe = Node.name := funext NodeHealth.checked_name
    rw [names]
    exact valid.nodes
  · intro n member on
    rw [nodes] at member
    obtain ⟨row,there,rfl⟩ := List.mem_map.mp member
    have enabled : row.health ≠ .disabled := by
      intro off
      rw [NodeHealth.checked,if_pos off] at on
      exact on off
    obtain ⟨cfg,found,url,slots⟩ := valid.rows row there enabled
    obtain ⟨same,size⟩ := checked_columns threshold probe row
    exact ⟨cfg,by rw [NodeHealth.checked_name]; exact found,url.trans same.symm,slots.trans size.symm⟩

theorem valid_dispatch (valid : Valid config attempts p) (free : idle p = true) (now : Instant) :
    Valid config attempts {begun p.load now p.service with posted := p.posted} := by
  have step : Service.Step JsonText.codec 0 p.service (.claimAndAssign p.load now) (begun p.load now p.service).service := rfl
  have unloaded := idle_load valid free
  have fresh : ∀ x ∈ (begun p.load now p.service).executions, ∃ a ∈ assignments p.load p.service.db, x = {assignment := a} := by
    intro x member
    obtain ⟨a,assigned,rfl⟩ := List.mem_map.mp member
    exact ⟨a,assigned,rfl⟩
  have busyCount : ∀ name, (begun p.load now p.service).executions.countP (busy name) =
      ClaimPass.given name (assignments p.load p.service.db) := by
    intro name
    simp only [begun,claimAndAssign,List.countP_map,ClaimPass.given]
    apply List.countP_congr
    intro a _
    simp [busy]
  -- A row that a task is placed on is that of a configured node.
  have placed : ∀ a ∈ assignments p.load p.service.db, ∃ n ∈ healthyNodes p.service.db, ∃ cfg, a.nodeName = n.name ∧
      a.baseUrl = n.baseUrl ∧ configured config n.name = some cfg ∧ cfg.baseUrl = n.baseUrl ∧
      cfg.parallelSlots = n.parallelSlots := by
    intro a assigned
    obtain ⟨n,there,healthy,name,url⟩ := ClaimPass.assigned_healthy assigned
    have on : n.health ≠ .disabled := by
      rw [healthy]
      exact NodeHealth.noConfusion
    obtain ⟨cfg,found,same,size⟩ := valid.rows n there on
    exact ⟨n,List.mem_filter.mpr ⟨there,beq_iff_eq.mpr healthy⟩,cfg,name,url,found,same,size⟩
  refine ⟨valid.nodes,valid.rows,step_progress valid.progress step,begun_distinct p.load now p.service,?_,?_,?_,?_,?_,
    valid.requests,unsent_kept step (fun _ same => by cases same) valid.unsent⟩
  · intro x member _
    obtain ⟨a,assigned,rfl⟩ := fresh x member
    exact List.mem_append_right _ (List.mem_map_of_mem assigned)
  · intro x member
    obtain ⟨a,assigned,rfl⟩ := fresh x member
    obtain ⟨row,_,found,_,waiting,_⟩ := assigned_eligible assigned
    by_contra asked
    obtain ⟨other,there,left⟩ := valid.unsent a.task (Nat.pos_of_ne_zero asked)
    cases found.symm.trans there
    exact left waiting
  · intro name
    refine (occupied_slots _ p.load name).trans ?_
    rw [busyCount,unloaded,ClaimPass.given]
    simp [beq_eq_decide]
  · intro name cfg found
    rw [busyCount]
    by_cases given : ∃ a ∈ assignments p.load p.service.db, a.nodeName = name
    · obtain ⟨a,assigned,rfl⟩ := given
      obtain ⟨n,healthy,other,named,_,there,_,size⟩ := placed a assigned
      rw [named] at found ⊢
      cases found.symm.trans there
      have within : (ClaimPass.given n.name (assignments p.load p.service.db) : Int) ≤ max (ClaimPass.free p.load n) 0 :=
        ClaimPass.given_within valid.nodes healthy
      rw [size]
      simpa [ClaimPass.free,unloaded] using within
    · have none_ : ClaimPass.given name (assignments p.load p.service.db) = 0 := by
        apply List.countP_eq_zero.mpr
        intro a assigned named
        exact given ⟨a,assigned,of_decide_eq_true named⟩
      rw [none_]
      exact le_max_right _ _
  · intro x member
    obtain ⟨a,assigned,rfl⟩ := fresh x member
    obtain ⟨n,_,cfg,name,url,found,same,_⟩ := placed a assigned
    exact ⟨cfg,by rw [name]; exact found,url.trans same.symm⟩

theorem valid_restart (valid : Valid config attempts p) (nodes : List NodeConfig) : Valid nodes attempts
    {service := {p.service with db := startup nodes p.service.db,inFlight := []},load := fun _ => 0,executions := []} := by
  refine ⟨sync_distinct nodes valid.nodes,?_,progress_recovered valid.progress nodes,List.nodup_nil,?_,?_,fun _ => rfl,?_,?_,
    fun _ => Nat.zero_le _,?_⟩
  · intro n member on
    rcases NodeHealth.mem_synced member with ⟨old,_,rfl⟩ | ⟨cfg,found,rfl,_⟩
    · rw [syncNode_name]
      unfold syncNode at on ⊢
      cases found : configured nodes old.name with
      | none =>
        rw [found] at on
        exact absurd rfl on
      | some cfg =>
        refine ⟨cfg,rfl,?_⟩
        dsimp only
        split
        · exact ⟨rfl,rfl⟩
        · exact ⟨rfl,rfl⟩
    · exact ⟨cfg,found,rfl,rfl⟩
  · intro x member
    cases member
  · intro x member
    cases member
  · intro name cfg _
    exact le_max_right _ _
  · intro x member
    cases member
  · intro task asked
    cases asked

section Execution
variable {x : Execution} {stage : Stage} {i : Nat}

-- One execution moves on; it never takes a slot back.
theorem valid_moved (valid : Valid config attempts p) (found : p.executions[i]? = some x)
    (moved : q.executions = p.executions.modify i (Execution.goTo stage)) (nodes : q.service.db.nodes = p.service.db.nodes)
    (progress : Progress q.service.db q.service.inFlight)
    (flights : ∀ task ∈ p.service.inFlight, task ≠ x.task → task ∈ q.service.inFlight)
    (flies : unsettled (x.goTo stage) = true → x.task ∈ q.service.inFlight) (inLoop : InLoop attempts q (x.goTo stage))
    (others : ∀ task, task ≠ x.task → q.sent task = p.sent task) (bound : q.sent x.task ≤ attempts)
    (frees : ∀ name, busy name (x.goTo stage) = true → busy name x = true)
    (load : ∀ name, q.load name + (if busy name x then 1 else 0) = p.load name + (if busy name (x.goTo stage) then 1 else 0))
    (unsent : ∀ task, 0 < q.sent task → ∃ t, q.service.db.tasks[task]? = some t ∧ t.status ≠ .pending) :
    Valid config attempts q := by
  have counts : ∀ name, q.executions.countP (busy name) + (if busy name x then 1 else 0) =
      p.executions.countP (busy name) + (if busy name (x.goTo stage) then 1 else 0) := by
    intro name
    rw [moved]
    exact Rows.countP_modify found (Execution.goTo stage) (busy name)
  have lesser : ∀ name, q.executions.countP (busy name) ≤ p.executions.countP (busy name) := by
    intro name
    have total := counts name
    by_cases after : busy name (x.goTo stage) = true
    · rw [if_pos after,if_pos (frees name after)] at total
      omega
    · rw [if_neg after] at total
      omega
  -- The other executions are other tasks'.
  have rows : ∀ y ∈ q.executions, y = x.goTo stage ∨ (y ∈ p.executions ∧ y.task ≠ x.task) := by
    intro y member
    rw [moved] at member
    obtain ⟨j,there⟩ := List.mem_iff_getElem?.mp member
    by_cases same : i = j
    · subst same
      cases (Rows.getElem?_modify_self found _).symm.trans there
      exact .inl rfl
    · rw [Rows.getElem?_modify_other same] at there
      exact .inr ⟨List.mem_of_getElem? there,other_task valid.distinct found there same⟩
  refine ⟨nodes ▸ valid.nodes,nodes ▸ valid.rows,progress,?_,fun y member open_ => ?_,fun y member => ?_,fun name => ?_,
    fun name cfg listed => ?_,fun y member => ?_,fun task => ?_,unsent⟩
  · have tasks : q.executions.map Execution.task = p.executions.map Execution.task := by
      rw [moved]
      exact Rows.map_modify_same fun _ => rfl
    exact tasks ▸ valid.distinct
  · rcases rows y member with rfl | ⟨old,other⟩
    · exact flies open_
    · exact flights _ (valid.flying y old open_) other
  · rcases rows y member with rfl | ⟨old,other⟩
    · exact inLoop
    · have before := valid.loops y old
      simpa only [InLoop,others y.task other] using before
  · have before := valid.load name
    have after := load name
    have moved := counts name
    cases one : busy name x <;> cases other : busy name (x.goTo stage) <;> simp [one,other] at after moved ⊢ <;> omega
  · have before := valid.slots name cfg listed
    have lower := lesser name
    omega
  · rcases rows y member with rfl | ⟨old,_⟩
    · exact valid.homes x (List.mem_of_getElem? found)
    · exact valid.homes y old
  · by_cases mine : task = x.task
    · rw [mine]
      exact bound
    · rw [others task mine]
      exact valid.requests task

-- It moves on past its loop, without a slot, and sends nothing more.
theorem valid_past (valid : Valid config attempts p) (found : p.executions[i]? = some x)
    (moved : q.executions = p.executions.modify i (Execution.goTo stage)) (nodes : q.service.db.nodes = p.service.db.nodes)
    (progress : Progress q.service.db q.service.inFlight)
    (flights : ∀ task ∈ p.service.inFlight, task ≠ x.task → task ∈ q.service.inFlight)
    (sent : q.sent = p.sent) (settled : unsettled (x.goTo stage) = false) (free : ∀ name, busy name (x.goTo stage) = false)
    (load : ∀ name, q.load name + (if busy name x then 1 else 0) = p.load name)
    (unsent : ∀ task, 0 < p.sent task → ∃ t, q.service.db.tasks[task]? = some t ∧ t.status ≠ .pending) :
    Valid config attempts q := by
  apply valid_moved valid found moved nodes progress flights
  · intro open_
    rw [settled] at open_
    cases open_
  · cases stage with
    | created => cases settled
    | requesting => cases settled
    | _ => trivial
  · exact fun task _ => congrFun sent task
  · rw [sent]
    exact valid.requests x.task
  · intro name taken
    rw [free name] at taken
    cases taken
  · intro name
    simpa only [free name,Bool.false_eq_true,if_false,add_zero] using load name
  · rw [sent]
    exact unsent

-- The task of an execution that has not settled it is RUNNING, or CANCELLED with its batch.
theorem flying_left (valid : Valid config attempts p) (member : x ∈ p.executions) (open_ : unsettled x = true) :
    ∃ t, p.service.db.tasks[x.task]? = some t ∧ t.status ≠ .pending := by
  obtain ⟨t,there,either⟩ := valid.progress.flying x.task (valid.flying x member open_)
  refine ⟨t,there,fun waiting => ?_⟩
  rw [waiting] at either
  rcases either with running | cancelled
  · cases running
  · cases cancelled

theorem valid_begins {t : Task} (valid : Valid config attempts p) (found : p.executions[i]? = some x) (place : x.stage = .created)
    (some_attempt : 0 < attempts) : Valid config attempts (p.goTo i (.requesting t.requestBody 0 (text "unknown error"))) := by
  have member := List.mem_of_getElem? found
  have unsent := valid.loops x member
  simp only [InLoop,place] at unsent
  apply valid_moved (q := p.goTo i _) valid found rfl rfl valid.progress
  · exact fun _ flying _ => flying
  · exact fun _ => valid.flying x member (by simp [unsettled,place])
  · exact ⟨unsent,some_attempt⟩
  · exact fun _ _ => rfl
  · exact valid.requests x.task
  · intro name taken
    simpa [busy,place,Execution.goTo] using taken
  · intro name
    simp [busy,place,Execution.goTo,Pass.goTo]
  · exact valid.unsent

theorem valid_lost {e : Raised} (valid : Valid config attempts p) (found : p.executions[i]? = some x)
    (free : ∀ name, busy name x = false) : Valid config attempts (p.lose i (.raised e)) := by
  apply valid_past (q := p.lose i (.raised e)) valid found rfl rfl valid.progress
  · exact fun _ flying _ => flying
  · rfl
  · rfl
  · exact fun _ => rfl
  · intro name
    simp [free name,Pass.lose,Pass.goTo]
  · exact valid.unsent

theorem valid_asked {body : Dict} {attempt : Nat} {lastError : Str} {next : Stage} (valid : Valid config attempts p)
    (found : p.executions[i]? = some x) (place : x.stage = .requesting body attempt lastError)
    (later : InLoop attempts (afterRequest x i body next p) (x.goTo next))
    (takes : ∀ name, busy name (x.goTo next) = true → busy name x = true)
    (load : ∀ name, loadAfter x.assignment.nodeName next p.load name + (if busy name x then 1 else 0) =
      p.load name + (if busy name (x.goTo next) then 1 else 0)) : Valid config attempts (afterRequest x i body next p) := by
  have member := List.mem_of_getElem? found
  have open_ : unsettled x = true := by simp [unsettled,place]
  have own := valid.loops x member
  simp only [InLoop,place] at own
  have left := flying_left valid member open_
  have others : ∀ task, task ≠ x.task → (afterRequest x i body next p).sent task = p.sent task := by
    intro task other
    rw [sent_request,if_neg (Ne.symm other),Nat.add_zero]
  apply valid_moved (q := afterRequest x i body next p) valid found rfl rfl valid.progress
  · exact fun _ flying _ => flying
  · exact fun _ => valid.flying x member open_
  · exact later
  · exact others
  · rw [sent_request,if_pos rfl]
    exact own.1 ▸ own.2
  · exact takes
  · exact load
  · intro task asked
    by_cases mine : task = x.task
    · rw [mine]
      exact left
    · rw [others task mine] at asked
      exact valid.unsent task asked

theorem valid_replied {body : Dict} {attempt : Nat} {lastError : Str} (reply : Except ClientError Json)
    (valid : Valid config (maxAttempts taskMaxAttempts) p) (found : p.executions[i]? = some x)
    (place : x.stage = .requesting body attempt lastError) : Valid config (maxAttempts taskMaxAttempts)
      (afterRequest x i body (afterReply taskMaxAttempts body attempt lastError reply) p) := by
  have own := valid.loops x (List.mem_of_getElem? found)
  simp only [InLoop,place] at own
  have held : 0 < p.load x.assignment.nodeName := by
    have taken : 0 < p.executions.countP (busy x.assignment.nodeName) :=
      List.countP_pos_iff.mpr ⟨x,List.mem_of_getElem? found,by simp [busy,place]⟩
    rw [valid.load]
    omega
  cases reply with
  | ok value =>
    apply valid_asked valid found place
    · trivial
    · intro _ taken
      cases taken
    · exact slots_back place held
  | error raised =>
    cases raised with
    | nodeRequestError message =>
      by_cases more : attempt + 1 < maxAttempts taskMaxAttempts
      · simp only [afterReply,if_pos more]
        apply valid_asked valid found place
        · refine ⟨?_,more⟩
          change (afterRequest x i body _ p).sent x.task = _
          rw [sent_request,if_pos rfl,own.1]
        · intro name taken
          simpa [busy,place,Execution.goTo] using taken
        · intro name
          simp [loadAfter,busy,place,Execution.goTo]
      · simp only [afterReply,if_neg more]
        apply valid_asked valid found place
        · trivial
        · intro _ taken
          cases taken
        · exact slots_back place held
    | escaped e =>
      -- The slot stays taken.
      apply valid_asked valid found place
      · trivial
      · intro name taken
        simpa [afterReply,busy,place,Execution.goTo] using taken
      · intro name
        simp [afterReply,loadAfter,busy,place,Execution.goTo]

theorem commit_nodes {task : TaskId} {sink : Sink} {now : Instant} {db after : Db}
    (done : sink.commit codec alpha task now db = .ok after) : after.nodes = db.nodes := by
  cases sink with
  | complete => exact (Records.completed_tables done).2.2
  | fail => exact (Records.failed_tables done).2.2

theorem valid_committed {result : Option Json} {lastError : Str} {db : Db} {own : Task} {copy : Batch} {now : Instant}
    (valid : Valid config attempts p) (found : p.executions[i]? = some x) (place : x.stage = .replied result lastError)
    (committed : commitSettlement codec alpha x.task result lastError attempts now p.service.db = .ok db) :
    Valid config attempts {p.goTo i (.committed own copy) with
      service := {p.service with db := db,inFlight := p.service.inFlight.erase x.task}} := by
  have member := List.mem_of_getElem? found
  have flying := valid.flying x member (by simp [unsettled,place])
  obtain ⟨sink,_,done⟩ := commitSettlement_ok.mp committed
  obtain ⟨row,there,tasks,_⟩ := commit_parts done
  apply valid_past valid found
  · rfl
  · exact commit_nodes done
  · exact sink_progress valid.progress flying done
  · exact fun task old other => (List.mem_erase_of_ne other).mpr old
  · rfl
  · rfl
  · exact fun _ => rfl
  · intro name
    simp [busy,place,Pass.goTo]
  · intro task asked
    change ∃ t, db.tasks[task]? = some t ∧ t.status ≠ .pending
    obtain ⟨t,was,left⟩ := valid.unsent task asked
    rw [tasks]
    by_cases mine : x.task = task
    · subst mine
      cases there.symm.trans was
      refine ⟨_,Rows.getElem?_modify_self there _,?_⟩
      rw [settle_status]
      cases sink with
      | complete => exact fun same => by cases same
      | fail => exact fun same => by cases same
    · exact ⟨t,(Rows.getElem?_modify_other mine _).trans was,left⟩

theorem valid_finalized {own : Task} {copy : Batch} {now : Instant} (valid : Valid config attempts p)
    (found : p.executions[i]? = some x) (place : x.stage = .committed own copy) :
    Valid config attempts (afterFinalization codec own copy x i now p) := by
  have load : ∀ name, p.load name + (if busy name x then 1 else 0) = p.load name := by
    intro name
    simp [busy,place]
  unfold afterFinalization
  split
  · apply valid_past valid found
    · rfl
    · rfl
    · exact progress_closed valid.progress rfl rfl (fun _ => rfl) (fun _ open_ => by cases open_)
    · exact fun _ flying _ => flying
    · rfl
    · rfl
    · exact fun _ => rfl
    · exact load
    · exact valid.unsent
  · apply valid_past (q := p.goTo i .returned) valid found rfl rfl valid.progress
    · exact fun _ flying _ => flying
    · rfl
    · rfl
    · exact fun _ => rfl
    · exact load
    · exact valid.unsent

theorem valid_execution {action : Nat × Instant} {replies : TaskId → Nat → Except ClientError Json}
    (valid : Valid config (maxAttempts taskMaxAttempts) p) (step : Passes.Step codec alpha taskMaxAttempts replies p action q) :
    Valid config (maxAttempts taskMaxAttempts) q := by
  obtain ⟨x,found,⟨place,⟨t,_,rfl⟩ | ⟨gone,rfl⟩⟩ | ⟨body,attempt,lastError,next,place,rfl,rfl⟩ |
    ⟨result,lastError,place,⟨db,own,copy,done,_,_,rfl⟩ | ⟨e,_,rfl⟩⟩ | ⟨own,copy,place,rfl⟩⟩ := step_cases step
  · exact valid_begins valid found place attempts_positive
  · obtain ⟨t,there,_⟩ := flying_left valid (List.mem_of_getElem? found) (by simp [unsettled,place])
    cases gone.symm.trans there
  · exact valid_replied _ valid found place
  · exact valid_committed valid found place done
  · exact valid_lost valid found fun name => by simp [busy,place]
  · exact valid_finalized valid found place

end Execution

theorem valid_step {a : Action} (valid : Valid config (maxAttempts taskMaxAttempts) p)
    (step : Step codec alpha taskMaxAttempts p a q) : Valid (configAfter config a) (maxAttempts taskMaxAttempts) q := by
  cases a with
  | request op =>
    simp only [Step,advance] at step
    split at step
    · rename_i allowed
      obtain ⟨s,done,rfl⟩ := Option.map_eq_some_iff.mp step
      exact valid_request valid allowed done
    · cases step
  | healthPass threshold probe =>
    simp only [Step,advance] at step
    split at step
    · cases step
      exact valid_health valid threshold probe
    · cases step
  | dispatch now =>
    simp only [Step,advance] at step
    split at step
    · rename_i free
      cases step
      exact valid_dispatch valid free now
    · cases step
  | execution i now replies => exact valid_execution valid step
  | restart nodes =>
    cases step
    exact valid_restart valid nodes

theorem initial_valid : Valid [] attempts initial := by
  refine ⟨List.nodup_nil,?_,initial_progress,List.nodup_nil,?_,?_,fun _ => rfl,?_,?_,fun _ => Nat.zero_le _,?_⟩
  · intro n member
    cases member
  · intro x member
    cases member
  · intro x member
    cases member
  · intro name cfg listed
    cases listed
  · intro x member
    cases member
  · intro task asked
    cases asked

theorem run_valid {actions : List Action} (path : Run (Step codec alpha taskMaxAttempts) initial actions p) :
    Valid (latestConfig actions) (maxAttempts taskMaxAttempts) p := by
  induction path with
  | nil => exact initial_valid
  | @step labels m a q _ last ih =>
    have config : latestConfig (labels ++ [a]) = configAfter (latestConfig labels) a := List.foldl_concat ..
    rw [config]
    exact valid_step ih last

-- Requests open at a node, against the slots it is configured with, and requests
-- sent for a task. A slot is not given back by an execution that an exception has
-- ended in its loop.
structure WithinSlots (config : List NodeConfig) (attempts : Nat) (p : Pass) : Prop where
  slots : ∀ name cfg, configured config name = some cfg →
    (p.executions.countP (busy name) : Int) ≤ max cfg.parallelSlots 0
  homes : ∀ x ∈ p.executions, ∃ cfg, configured config x.assignment.nodeName = some cfg ∧ x.assignment.baseUrl = cfg.baseUrl
  counted : ∀ name, p.load name = p.executions.countP (busy name)
  free : (∀ x ∈ p.executions, Stage.over x.stage = true) → p.load = fun _ => 0
  once : (p.executions.map Execution.task).Nodup
  requests : ∀ task, p.sent task ≤ attempts

theorem loop_within_slots {actions : List Action} (path : Run (Step codec alpha taskMaxAttempts) initial actions p) :
    WithinSlots (latestConfig actions) (maxAttempts taskMaxAttempts) p := by
  have valid := run_valid path
  exact ⟨valid.slots,valid.homes,valid.load,over_load valid,valid.distinct,valid.requests⟩

-- Two slots and three requests; the batch is cancelled while the first is being asked,
-- and the second cannot be sent.
def cancelledMidway : List Action :=
  [.restart [⟨"node-a","http://node-a",2⟩],.request (.grant 1 1000 none),.request (Service.submitShort 1 3 0),.dispatch 1,
    .execution 0 1 (fun _ _ => .error (.nodeRequestError [])),.execution 0 1 (fun _ _ => .error (.nodeRequestError [])),
    .request (.cancelBatch 1 0 2),.execution 1 3 (fun _ _ => .error (.escaped .recursionError)),
    .execution 1 3 (fun _ _ => .error (.escaped .recursionError))]

theorem loop_within_slots_cancelled : ∃ p : Pass, (p.load "node-a" = 2 ∧ p.sent 0 = 1 ∧ p.escaped = some .recursionError) ∧
    WithinSlots [⟨"node-a","http://node-a",2⟩] (maxAttempts 3) p := by
  have ran : (replay (advance JsonText.codec (3/10) 3) cancelledMidway initial).any (fun p =>
      decide (p.load "node-a" = 2 ∧ p.sent 0 = 1 ∧ p.escaped = some .recursionError)) = true := by decide +kernel
  obtain ⟨p,path,facts⟩ := replay_reaches ran
  have path : Run (Step JsonText.codec (3/10) 3) initial cancelledMidway p := path
  exact ⟨p,of_decide_eq_true facts,loop_within_slots path⟩

end BatchGateway.DispatchLoop
