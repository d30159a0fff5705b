import BatchGateway.JsonText
import BatchGateway.PassSettlement
import BatchGateway.SettledRows

-- A cluster over time: claim passes, health passes, and executions that send every
-- request of a task to the one node it was placed on.
namespace BatchGateway.Failover
open PythonText PythonJson Raising BatchOps Dispatcher Service Sessions LabelledRuns Counters SettledRows PassSettlement

structure Cluster where
  service : Service := {}
  running : List Assignment := []

-- What is neither a claim pass nor a settlement.
def outside : Operation → Bool
  | .claimAndAssign .. | .completeTask .. | .failTask .. => false
  | _ => true

inductive Action where
  | operate (op : Operation)
  | claim (load : InFlight) (now : Instant)
  -- one execution, with the replies its node gives to the requests it may send
  | execute (a : Assignment) (replies : Nat → Reply) (now : Instant)

variable (codec : Codec) (alpha : ℚ) (taskMaxAttempts : Int)

def settleWith (a : Assignment) (outcome : Outcome) (now : Instant) (c : Cluster) : Option Cluster :=
  (returned (settleTask codec alpha a.task outcome.result outcome.lastError (maxAttempts taskMaxAttempts) now c.service.db
    c.service.blobs)).map
    (fun r => {service := ⟨r.1,r.2,c.service.inFlight.erase a.task⟩,running := c.running.erase a})

def advance : Action → Cluster → Option Cluster
  | .operate op, c =>
    if outside op then
      (Service.advance codec alpha op c.service).map (fun service =>
        {service := service,running := match op with
          | .startup _ => []
          | _ => c.running})
    else none
  | .claim load now, c =>
    let (db,chosen) := claimAndAssign load now c.service.db
    some {service := {c.service with db := db,inFlight := c.service.inFlight ++ chosen.map Assignment.task}
          running := c.running ++ chosen}
  | .execute a replies now, c =>
    if a ∈ c.running then
      (c.service.db.tasks[a.task]?).bind (fun t =>
        settleWith codec alpha taskMaxAttempts a (executeRequests taskMaxAttempts replies t) now c)
    else none

def Step (c : Cluster) (action : Action) (d : Cluster) : Prop := advance codec alpha taskMaxAttempts action c = some d

-- What chat_completion makes of a reply.
def completion : Reply → Except LlamaClient.ClientError Json
  | .answered value => .ok value
  | .failed message => .error (.nodeRequestError message)

-- The node answers one of the requests its execution may send, and not with null.
def Answers : Action → Prop
  | .execute _ replies _ => (settlementResult (firstAnswer (completion ∘ replies) (maxAttempts taskMaxAttempts))).isSome = true
  | .operate _ | .claim _ _ => True

def NoneFailed (c : Cluster) : Prop := ∀ t ∈ c.service.db.tasks, t.status ≠ .failed

-- A configured node that answers every request with a response and every probe.
def Dependable (name : NodeName) : Action → Prop
  | .execute a replies _ => a.nodeName = name → ∀ n, ∃ value, replies n = .answered value ∧ value ≠ .null
  | .operate (.applyHealthResults _ results) => ∀ r ∈ results, r.1 = name → r.2 = true
  | .operate (.startup nodes) => name ∈ nodes.map NodeConfig.name
  | .operate _ | .claim _ _ => True

-- The executions running are those in flight.
structure Executing (c : Cluster) : Prop where
  progress : Progress c.service.db c.service.inFlight
  flying : c.running.map Assignment.task = c.service.inFlight

variable {codec alpha taskMaxAttempts} {c d : Cluster} {action : Action}

-- The loop ends with the first response its node gives, if there is one.
theorem attemptLoop_result (body : Dict) (replies : Nat → Reply) (left attempt : Nat) (lastError : Str)
    (failed : loopAfter (completion ∘ replies) attempt = .asking lastError) :
    (attemptLoop body replies left attempt lastError).result = firstAnswer (completion ∘ replies) (attempt + left) := by
  induction left generalizing attempt lastError with
  | zero =>
    rw [Nat.add_zero,firstAnswer,failed]
    rfl
  | succ left ih =>
    unfold attemptLoop
    cases reply : replies attempt with
    | answered value =>
      have here : loopAfter (completion ∘ replies) (attempt + 1) = .answered value := by
        simp only [loopAfter,failed,Function.comp_apply,reply,completion]
      rw [firstAnswer,answered_stays here (show attempt + 1 ≤ attempt + (left + 1) by omega)]
    | failed message =>
      have here : loopAfter (completion ∘ replies) (attempt + 1) = .asking message := by
        simp only [loopAfter,failed,Function.comp_apply,reply,completion]
      have later := ih (attempt + 1) message here
      rw [Nat.add_assoc,Nat.add_comm 1 left] at later
      exact later

theorem executeRequests_result (replies : Nat → Reply) (t : Task) :
    (executeRequests taskMaxAttempts replies t).result = firstAnswer (completion ∘ replies) (maxAttempts taskMaxAttempts) := by
  have result := attemptLoop_result t.requestBody replies (maxAttempts taskMaxAttempts) 0 (text "unknown error") rfl
  rw [Nat.zero_add] at result
  exact result

-- An execution is a settlement of the service, with the sink its node's replies choose.
theorem execute_step {a : Assignment} {replies : Nat → Reply} {now : Instant} (executing : Executing c)
    (step : Step codec alpha taskMaxAttempts c (.execute a replies now) d) :
    a ∈ c.running ∧ d.running = c.running.erase a ∧ ∃ sink : Sink,
      Service.Step codec alpha c.service (sink.operation a.task now) d.service ∧
      (Answers taskMaxAttempts (.execute a replies now) ↔ sink.outcome = .completed) := by
  simp only [Step,advance] at step
  split at step
  · rename_i member
    obtain ⟨t,_,step⟩ := Option.bind_eq_some_iff.mp step
    obtain ⟨⟨db,blobs⟩,settled_,rfl⟩ := Option.map_eq_some_iff.mp step
    rw [returned_some] at settled_
    obtain ⟨committed,done,final⟩ := bind_ok settled_
    have same := pure_ok final
    have first : db = (finalizeAfter codec a.task now committed c.service.blobs).1 := congrArg Prod.fst same
    have second : blobs = (finalizeAfter codec a.task now committed c.service.blobs).2 := congrArg Prod.snd same
    obtain ⟨sink,reported,sunk⟩ := Passes.commitSettlement_ok.mp done
    refine ⟨member,rfl,sink,?_,?_⟩
    · have flying : a.task ∈ c.service.inFlight := executing.flying ▸ List.mem_map_of_mem member
      cases sink with
      | complete value promptTokens completionTokens =>
        simp only [Sink.commit] at sunk
        simp only [Sink.operation,Service.Step,Service.advance,if_pos flying,completeTask,sunk,bind,Except.bind]
        rw [first,second]
        rfl
      | fail error =>
        simp only [Sink.commit] at sunk
        simp only [Sink.operation,Service.Step,Service.advance,if_pos flying,failTask,sunk,bind,Except.bind]
        rw [first,second]
        rfl
    · rw [executeRequests_result] at reported
      cases sink with
      | complete => simp [Answers,reported.1,Sink.outcome]
      | fail => simp [Answers,reported.1,Sink.outcome]
  · cases step

theorem operate_step {op : Operation} (step : Step codec alpha taskMaxAttempts c (.operate op) d) :
    outside op = true ∧ Service.Step codec alpha c.service op d.service ∧
      ((d.running = c.running ∧ d.service.inFlight = c.service.inFlight) ∨
       (d.running = [] ∧ d.service.inFlight = [])) := by
  simp only [Step,advance] at step
  split at step
  · rename_i free
    obtain ⟨service,done,rfl⟩ := Option.map_eq_some_iff.mp step
    refine ⟨free,done,?_⟩
    cases op with
    | startup nodes => cases done; exact .inr ⟨rfl,rfl⟩
    | grant => obtain ⟨_,rfl⟩ := grant_posts done; exact .inl ⟨rfl,rfl⟩
    | createBatch => obtain ⟨_,_,rfl⟩ := create_step done; exact .inl ⟨rfl,rfl⟩
    | cancelBatch => obtain ⟨_,_,_,_,_,_,rfl⟩ := cancel_step done; exact .inl ⟨rfl,rfl⟩
    | expireBatch => obtain ⟨_,_,_,_,_,rfl⟩ := expire_step done; exact .inl ⟨rfl,rfl⟩
    | uploadFile | purgeExpiredResults | applyHealthResults => cases done; exact .inl ⟨rfl,rfl⟩
    | claimAndAssign | completeTask | failTask => cases free
  · cases step

theorem map_erase_distinct {running : List Assignment} {a : Assignment} (distinct : (running.map Assignment.task).Nodup)
    (member : a ∈ running) : (running.erase a).map Assignment.task = (running.map Assignment.task).erase a.task := by
  induction running with
  | nil => cases member
  | cons b rest ih =>
    by_cases here : b = a
    · subst here
      simp
    · have later : a ∈ rest := (List.mem_cons.mp member).resolve_left (Ne.symm here)
      have fresh := List.nodup_cons.mp distinct
      have apart : b.task ≠ a.task := fun same => fresh.1 (same ▸ List.mem_map_of_mem later)
      rw [List.erase_cons_tail (by simpa using here),List.map_cons,List.map_cons,List.erase_cons_tail (by simpa using apart),
        ih fresh.2 later]

theorem initial_executing : Executing {} := ⟨initial_progress,rfl⟩

theorem claim_step {load : InFlight} {now : Instant} (step : Step codec alpha taskMaxAttempts c (.claim load now) d) :
    Service.Step codec alpha c.service (.claimAndAssign load now) d.service ∧
      d.running = c.running ++ (claimAndAssign load now c.service.db).2 ∧
      d.service.inFlight = c.service.inFlight ++ (claimAndAssign load now c.service.db).2.map Assignment.task := by
  cases step
  exact ⟨rfl,rfl,rfl⟩

theorem step_executing (executing : Executing c) (step : Step codec alpha taskMaxAttempts c action d) : Executing d := by
  cases action with
  | operate op =>
    obtain ⟨free,done,running⟩ := operate_step step
    refine ⟨step_progress executing.progress done,?_⟩
    rcases running with ⟨same,flights⟩ | ⟨none_,flights⟩
    · rw [same,flights,executing.flying]
    · rw [none_,flights]
      rfl
  | claim load now =>
    obtain ⟨done,running,flights⟩ := claim_step step
    refine ⟨step_progress executing.progress done,?_⟩
    rw [running,flights,List.map_append,executing.flying]
  | execute a replies now =>
    obtain ⟨member,running,sink,done,_⟩ := execute_step executing step
    refine ⟨step_progress executing.progress done,?_⟩
    obtain ⟨_,db,_,rest⟩ := operation_parts done
    rw [running,rest,map_erase_distinct (executing.flying ▸ executing.progress.once) member,executing.flying]

def failedReport (r : Report) : Bool :=
  match r.2 with
  | some (.failed,_,_) => true
  | _ => false

theorem failed_report (t : Task) : failedReport (Task.report t) = (t.status == .failed) := by
  unfold Task.report settled
  cases t.status <;> rfl

theorem noneFailed_reports : NoneFailed c ↔ ∀ r ∈ c.service.db.tasks.map Task.report, failedReport r = false := by
  simp [NoneFailed,failed_report]

-- What is not a settlement leaves the failed tasks as they are.
theorem service_failed {op : Operation} {s t : Service} (step : Service.Step codec alpha s op t)
    (open_ : ∀ task body prompt completion now, op ≠ .completeTask task body prompt completion now)
    (unfailed : ∀ task error now, op ≠ .failTask task error now) {running rest : List Assignment} :
    NoneFailed ⟨t,rest⟩ ↔ NoneFailed ⟨s,running⟩ := by
  rw [noneFailed_reports,noneFailed_reports]
  simp only [step_reports step open_ unfailed,List.mem_append,or_imp,forall_and]
  refine and_iff_left ?_
  intro r member
  obtain ⟨row,created,rfl⟩ := List.mem_map.mp member
  simp [Task.report,created_unsettled created,failedReport]

-- A settlement fails a task exactly if its sink says so.
theorem settled_failed {a : Assignment} {now : Instant} {sink : Sink} (executing : Executing c)
    (done : Service.Step codec alpha c.service (sink.operation a.task now) d.service) :
    NoneFailed d ↔ NoneFailed c ∧ sink.outcome = .completed := by
  obtain ⟨flying,db,committed,rest⟩ := operation_parts done
  obtain ⟨t,found,tasks,_,_⟩ := commit_parts committed
  have table : d.service.db.tasks = c.service.db.tasks.modify a.task (sink.settle now) := by
    rw [rest]
    exact (Records.finalized_tables codec a.task now db c.service.blobs).1.trans tasks
  obtain ⟨u,there,status⟩ := executing.progress.flying a.task flying
  rw [found] at there
  cases there
  unfold NoneFailed
  rw [table]
  constructor
  · intro unfailed
    refine ⟨fun row member => ?_,?_⟩
    · obtain ⟨i,at_i⟩ := List.mem_iff_getElem?.mp member
      by_cases here : a.task = i
      · subst here
        rw [found] at at_i
        cases at_i
        rcases status with running | cancelled
        · rw [running]
          decide
        · rw [cancelled]
          decide
      · rw [← Rows.getElem?_modify_other here (sink.settle now)] at at_i
        exact unfailed row (List.mem_of_getElem? at_i)
    · have settled_row := unfailed _ (List.mem_of_getElem? (Rows.getElem?_modify_self found (sink.settle now)))
      rw [settle_status] at settled_row
      cases sink with
      | complete => rfl
      | fail => exact absurd rfl settled_row
  · rintro ⟨unfailed,completed⟩ row member
    rcases Rows.mem_modify member with old | ⟨old,was,rfl⟩
    · exact unfailed row old
    · rw [settle_status,completed]
      simp

theorem step_failed (executing : Executing c) (step : Step codec alpha taskMaxAttempts c action d) :
    NoneFailed d ↔ NoneFailed c ∧ Answers taskMaxAttempts action := by
  cases action with
  | operate op =>
    obtain ⟨free,done,_⟩ := operate_step step
    rw [Answers,and_true]
    refine service_failed done (fun _ _ _ _ _ same => ?_) (fun _ _ _ same => ?_)
    · rw [same] at free
      cases free
    · rw [same] at free
      cases free
  | claim load now =>
    rw [Answers,and_true]
    exact service_failed (claim_step step).1 (by simp) (by simp)
  | execute a replies now =>
    obtain ⟨_,_,sink,done,answers⟩ := execute_step executing step
    rw [answers]
    exact settled_failed executing done

-- In a run no task has failed exactly if every execution's own node answered it.
theorem none_failed_iff {actions : List Action} (path : Run (Step codec alpha taskMaxAttempts) {} actions c) :
    NoneFailed c ↔ ∀ action ∈ actions, Answers taskMaxAttempts action := by
  have both : Executing c ∧ (NoneFailed c ↔ ∀ action ∈ actions, Answers taskMaxAttempts action) := by
    induction path with
    | nil => exact ⟨initial_executing,by simp [NoneFailed]⟩
    | step _ last ih =>
      refine ⟨step_executing ih.1 last,?_⟩
      rw [step_failed ih.1 last,ih.2]
      simp [or_imp,forall_and]
  exact both.2

-- Two nodes with a slot each: the first fails every request and every probe, the
-- second answers them all and stays idle.
def nodeA : NodeConfig := ⟨"node-a","http://node-a",1⟩
def nodeB : NodeConfig := ⟨"node-b","http://node-b",1⟩

def oneTask : List Action :=
  [.operate (.startup [nodeA,nodeB]),.operate (.grant 1 10 none),.operate (submitShort 1 1 0),
   .operate (.applyHealthResults 3 [("node-a",false),("node-b",true)]),.claim (fun _ => 0) 0]

def refused : Nat → Reply := fun _ => .failed (text "node returned HTTP 500")

def answered : Nat → Reply := fun _ => .answered (.obj [])

theorem none_failed_answered : ∃ c, Run (Step JsonText.codec (3/10) 3) {}
    (oneTask ++ [.execute ⟨0,"node-a","http://node-a"⟩ answered 0]) c ∧ NoneFailed c := by
  have ran : (replay (advance JsonText.codec (3/10) 3)
      (oneTask ++ [.execute ⟨0,"node-a","http://node-a"⟩ answered 0]) {}).any (fun _ => true) = true := by
    decide +kernel
  obtain ⟨c,path,_⟩ := replay_reaches ran
  refine ⟨c,path,(none_failed_iff path).mpr ?_⟩
  have response : (settlementResult (firstAnswer (completion ∘ answered) (maxAttempts 3))).isSome = true := rfl
  simp [oneTask,Answers,response]

-- The task placed on the failing node fails, with the other node idle throughout.
theorem no_failover : ¬ ∀ (actions : List Action) (c : Cluster), Run (Step JsonText.codec (3/10) 3) {} actions c →
    (∃ name, ∀ action ∈ actions, Dependable name action) → NoneFailed c := by
  intro failover
  have ran : (replay (advance JsonText.codec (3/10) 3)
      (oneTask ++ [.execute ⟨0,"node-a","http://node-a"⟩ refused 0]) {}).any
      (fun c => c.service.db.tasks.any (fun t => t.status == .failed)) = true := by
    decide +kernel
  obtain ⟨c,path,found⟩ := replay_reaches ran
  obtain ⟨t,member,status⟩ := List.any_eq_true.mp found
  refine failover _ c path ⟨"node-b",?_⟩ t member (eq_of_beq status)
  simp [oneTask,Dependable,submitShort,nodeA,nodeB]

end BatchGateway.Failover
