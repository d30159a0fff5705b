import BatchGateway.BudgetRows
import BatchGateway.LlamaClient
import BatchGateway.Sessions

-- One pass of dispatch_once: its claim, and then its executions, which take turns
-- wherever they wait for a node or for a worker thread.
namespace BatchGateway.Passes
open PythonText PythonJson Raising BatchOps Dispatcher Sessions LabelledRuns
open LlamaClient (ClientError)

-- Where an execution stands.
inductive Stage where
  | created
  | requesting (body : Dict) (attempt : Nat) (lastError : Str)
  -- past the loop, its slot of the node given back
  | replied (result : Option Json) (lastError : Str)
  -- past the settlement's first commit, with the rows its session holds
  | committed (own : Task) (copy : Batch)
  | returned
  | raised (e : Raised)
  -- an exception inside the loop: the slot of the node is never given back
  | stuck (e : Raised)

def Stage.escapes : Stage → Option Raised
  | .raised e | .stuck e => some e
  | .created | .requesting _ _ _ | .replied _ _ | .committed _ _ | .returned => none

structure Execution where
  assignment : Assignment
  stage : Stage := .created

def Execution.task (x : Execution) : TaskId := x.assignment.task

-- `escaped` is the first exception of an execution, which gather passes on while
-- the other executions go on.
structure Pass where
  service : Service
  load : InFlight
  executions : List Execution
  posted : List (TaskId × Dict) := []
  escaped : Option Raised := none

def occupySlots (chosen : List Assignment) (load : InFlight) : InFlight :=
  chosen.foldl (fun load a => Function.update load a.nodeName (load a.nodeName + 1)) load

def begun (load : InFlight) (now : Instant) (s : Service) : Pass :=
  let (db,chosen) := claimAndAssign load now s.db
  {service := {s with db := db,inFlight := s.inFlight ++ chosen.map Assignment.task}
   load := occupySlots chosen load
   executions := chosen.map (fun a => {assignment := a})}

def giveBack (name : NodeName) (load : InFlight) : InFlight := Function.update load name (max 0 (load name - 1))

def Execution.goTo (stage : Stage) (x : Execution) : Execution := {x with stage := stage}

def Pass.goTo (p : Pass) (i : Nat) (stage : Stage) : Pass :=
  {p with executions := p.executions.modify i (Execution.goTo stage)}

def Pass.lose (p : Pass) (i : Nat) (stage : Stage) : Pass := {p.goTo i stage with escaped := p.escaped.or stage.escapes}

-- The number of requests handed to a client for a task.
def Pass.sent (p : Pass) (task : TaskId) : Nat := p.posted.countP (fun r => r.1 == task)

variable (codec : Codec) (alpha : ℚ) (taskMaxAttempts : Int) (replies : TaskId → Nat → Except ClientError Json)

-- What the loop does with what chat_completion returns or raises.
def afterReply (body : Dict) (attempt : Nat) (lastError : Str) : Except ClientError Json → Stage
  | .ok value => .replied (some value) lastError
  | .error (.nodeRequestError message) =>
    if attempt + 1 < maxAttempts taskMaxAttempts then .requesting body (attempt + 1) message else .replied none message
  | .error (.escaped e) => .stuck e

def loadAfter (name : NodeName) : Stage → InFlight → InFlight
  | .replied _ _, load => giveBack name load
  | _, load => load

def afterRequest (x : Execution) (i : Nat) (body : Dict) (next : Stage) (p : Pass) : Pass :=
  {p.lose i next with
    load := loadAfter x.assignment.nodeName next p.load
    posted := p.posted ++ [(x.task,body)]}

def afterCommit (x : Execution) (i : Nat) (db : Db) (p : Pass) : Option Pass := do
  let own ← db.tasks[x.task]?
  let copy ← db.batches[own.batchId]?
  return {p.goTo i (.committed own copy) with
    service := {p.service with db := db,inFlight := p.service.inFlight.erase x.task}}

def afterFinalization (own : Task) (copy : Batch) (x : Execution) (i : Nat) (now : Instant) (p : Pass) : Pass :=
  if shouldFinalize copy then
    let final := finalizeRows codec copy (sessionRows x.task own own.batchId p.service.db) own.batchId now p.service.db
      p.service.blobs
    {p.goTo i .returned with service := {p.service with db := final.1,blobs := final.2}}
  else p.goTo i .returned

-- One execution goes on to its next wait. A settlement is one locked section.
def proceed (x : Execution) (i : Nat) (now : Instant) (p : Pass) : Option Pass :=
  match x.stage with
  | .created => match p.service.db.tasks[x.task]? with
    | some t => some (p.goTo i (.requesting t.requestBody 0 (text "unknown error")))
    | none => some (p.lose i (.stuck .attributeError))
  | .requesting body attempt lastError =>
    some (afterRequest x i body (afterReply taskMaxAttempts body attempt lastError (replies x.task attempt)) p)
  | .replied result lastError =>
    match commitSettlement codec alpha x.task result lastError (maxAttempts taskMaxAttempts) now p.service.db with
    | .ok db => afterCommit x i db p
    | .error e => some (p.lose i (.raised e))
  | .committed own copy => some (afterFinalization codec own copy x i now p)
  | .returned => none
  | .raised _ => none
  | .stuck _ => none

def advance (action : Nat × Instant) (p : Pass) : Option Pass :=
  p.executions[action.1]?.bind (fun x => proceed codec alpha taskMaxAttempts replies x action.1 action.2 p)

def Step (p : Pass) (action : Nat × Instant) (q : Pass) : Prop :=
  advance codec alpha taskMaxAttempts replies action p = some q

variable {codec alpha taskMaxAttempts replies} {p q : Pass} {i : Nat} {now : Instant}

-- The steps of an execution, one for each place it can stand at.
theorem step_cases (step : Step codec alpha taskMaxAttempts replies p (i,now) q) : ∃ x, p.executions[i]? = some x ∧
    ((x.stage = .created ∧ ((∃ t, p.service.db.tasks[x.task]? = some t ∧
        q = p.goTo i (.requesting t.requestBody 0 (text "unknown error"))) ∨
      (p.service.db.tasks[x.task]? = none ∧ q = p.lose i (.stuck .attributeError)))) ∨
     (∃ body attempt lastError next, x.stage = .requesting body attempt lastError ∧
      next = afterReply taskMaxAttempts body attempt lastError (replies x.task attempt) ∧
      q = afterRequest x i body next p) ∨
     (∃ result lastError, x.stage = .replied result lastError ∧
      ((∃ db own copy, commitSettlement codec alpha x.task result lastError (maxAttempts taskMaxAttempts) now
          p.service.db = .ok db ∧ db.tasks[x.task]? = some own ∧ db.batches[own.batchId]? = some copy ∧
        q = {p.goTo i (.committed own copy) with
          service := {p.service with db := db,inFlight := p.service.inFlight.erase x.task}}) ∨
       (∃ e, commitSettlement codec alpha x.task result lastError (maxAttempts taskMaxAttempts) now
          p.service.db = .error e ∧ q = p.lose i (.raised e)))) ∨
     (∃ own copy, x.stage = .committed own copy ∧ q = afterFinalization codec own copy x i now p)) := by
  obtain ⟨x,found,step⟩ := Option.bind_eq_some_iff.mp step
  refine ⟨x,found,?_⟩
  simp only [proceed] at step
  cases place : x.stage with
  | created =>
    rw [place] at step
    cases row : p.service.db.tasks[x.task]? with
    | none =>
      simp only [row] at step
      cases step
      exact .inl ⟨rfl,.inr ⟨rfl,rfl⟩⟩
    | some t =>
      simp only [row] at step
      cases step
      exact .inl ⟨rfl,.inl ⟨t,rfl,rfl⟩⟩
  | requesting body attempt lastError =>
    rw [place] at step
    cases step
    exact .inr (.inl ⟨body,attempt,lastError,_,rfl,rfl,rfl⟩)
  | replied result lastError =>
    rw [place] at step
    refine .inr (.inr (.inl ⟨result,lastError,rfl,?_⟩))
    cases done : commitSettlement codec alpha x.task result lastError (maxAttempts taskMaxAttempts) now p.service.db with
    | ok db =>
      simp only [done] at step
      obtain ⟨own,there,step⟩ := Option.bind_eq_some_iff.mp step
      obtain ⟨copy,owned,step⟩ := Option.bind_eq_some_iff.mp step
      cases step
      exact .inl ⟨db,own,copy,rfl,there,owned,rfl⟩
    | error e =>
      simp only [done] at step
      cases step
      exact .inr ⟨e,rfl,rfl⟩
  | committed own copy =>
    rw [place] at step
    cases step
    exact .inr (.inr (.inr ⟨own,copy,rfl,rfl⟩))
  | returned =>
    rw [place] at step
    cases step
  | raised e =>
    rw [place] at step
    cases step
  | stuck e =>
    rw [place] at step
    cases step

-- How far an execution is from its end.
def Stage.rank (attempts : Nat) : Stage → Nat
  | .created => attempts + 4
  | .requesting _ attempt _ => attempts - attempt + 3
  | .replied _ _ => 2
  | .committed _ _ => 1
  | .returned => 0
  | .raised _ => 0
  | .stuck _ => 0

def Pass.size (attempts : Nat) (p : Pass) : Nat := (p.executions.map (fun x => x.stage.rank attempts)).sum

-- The two counts that a settlement reports.
def usageTokens (codec : Codec) (value : Json) : Except Raised (Int × Int) := do
  let usage ← usageOf value
  let promptTokens ← tokenCount codec usage "prompt_tokens"
  let completionTokens ← tokenCount codec usage "completion_tokens"
  return (promptTokens,completionTokens)

-- What a settlement reports for the outcome of the loop.
def Reports (codec : Codec) (result : Option Json) (lastError : Str) (attempts : Nat) : Sink → Prop
  | .complete value promptTokens completionTokens =>
    settlementResult result = some value ∧ usageTokens codec value = .ok (promptTokens,completionTokens)
  | .fail error => settlementResult result = none ∧ error = failureText attempts lastError

theorem commitSettlement_ok {task : TaskId} {result : Option Json} {lastError : Str} {attempts : Nat} {db after : Db} :
    commitSettlement codec alpha task result lastError attempts now db = .ok after ↔
      ∃ sink, Reports codec result lastError attempts sink ∧ sink.commit codec alpha task now db = .ok after := by
  unfold commitSettlement
  constructor
  · intro done
    split at done
    · rename_i value answered
      obtain ⟨usage,read,done⟩ := bind_ok done
      obtain ⟨promptTokens,first,done⟩ := bind_ok done
      obtain ⟨completionTokens,second,done⟩ := bind_ok done
      refine ⟨.complete value promptTokens completionTokens,⟨answered,?_⟩,done⟩
      simp only [usageTokens,read,first,second,bind,Except.bind]
      rfl
    · rename_i unanswered
      exact ⟨.fail _,⟨unanswered,rfl⟩,done⟩
  · rintro ⟨sink,reported,done⟩
    cases sink with
    | complete value promptTokens completionTokens =>
      obtain ⟨answered,counts⟩ := reported
      obtain ⟨usage,read,counts⟩ := bind_ok counts
      obtain ⟨m,first,counts⟩ := bind_ok counts
      obtain ⟨n,second,counts⟩ := bind_ok counts
      cases counts
      simp only [answered,read,first,second,bind,Except.bind]
      exact done
    | fail error =>
      obtain ⟨unanswered,rfl⟩ := reported
      simp only [unanswered]
      exact done

end BatchGateway.Passes
