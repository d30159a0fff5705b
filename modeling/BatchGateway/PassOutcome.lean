import BatchGateway.PassSettlement
import Mathlib.Algebra.Order.BigOperators.Group.List

-- When dispatch_once settles everything it has claimed, whatever the nodes answer.
namespace BatchGateway.PassOutcome
open PythonText PythonJson Raising BatchOps Dispatcher Sessions LabelledRuns Counters BudgetRows Passes PassSettlement
open LlamaClient (ClientError)

-- The pass has returned: every claimed task is settled as its requests went.
structure Served (load : InFlight) (attempts : Nat) (replies : TaskId → Nat → Except ClientError Json) (o p : Pass) : Prop where
  quiet : p.escaped = none
  returned : ∀ x ∈ p.executions, x.stage = .returned
  claimed : p.executions.map Execution.assignment = o.executions.map Execution.assignment
  requests : ∀ x ∈ p.executions, p.sent x.task ≤ attempts
  outcomes : ∀ x ∈ p.executions, ∃ t, p.service.db.tasks[x.task]? = some t ∧
    t.status = if (answer attempts replies x).isSome then .completed else .failed
  counters : ∀ (i : BatchId) b, o.service.db.batches[i]? = some b → ∃ a, p.service.db.batches[i]? = some a ∧
    a.requestCompleted = b.requestCompleted +
      p.executions.countP (fun x => inBatch o i x && (answer attempts replies x).isSome) ∧
    a.requestFailed = b.requestFailed + p.executions.countP (fun x => inBatch o i x && (answer attempts replies x).isNone)
  slots : p.load = load

-- No request raises what the loop does not catch, each response can be settled, the
-- text of each failure has an encoding, and each budget row has room for what the
-- responses report.
structure Answerable (codec : Codec) (attempts : Nat) (replies : TaskId → Nat → Except ClientError Json) (o : Pass) : Prop where
  quiet : ∀ x ∈ o.executions, ∀ e, loopAfter (replies x.task) attempts ≠ .escaped e
  explained : ∀ x ∈ o.executions, ∀ lastError, loopAfter (replies x.task) attempts = .asking lastError →
    (encode lastError).isSome = true
  usable : ∀ x ∈ o.executions, ∀ value, answer attempts replies x = some value →
    ∃ t, o.service.db.tasks[x.task]? = some t ∧ Usable codec t value
  room : ∀ user, fitsInteger (usedTokens o.service.db user +
    (o.executions.map (spent codec attempts replies o user)).sum) = true

variable {codec : Codec} {alpha : ℚ} {taskMaxAttempts : Int} {attempts : Nat} {replies : TaskId → Nat → Except ClientError Json}
  {o p q : Pass} {load : InFlight} {x : Execution} {s : Service} {operations : List Service.Operation} {now : Instant}

section Sufficient

structure Clean (p : Pass) : Prop where
  quiet : p.escaped = none
  fine : ∀ x ∈ p.executions, x.stage.escapes = none

end Sufficient

theorem run_accounted {labels : List (Nat × Instant)} (start : Run (Service.Step codec alpha) {} operations s)
    (loads : ∀ name, 0 ≤ load name)
    (path : Run (Step codec alpha taskMaxAttempts replies) (begun load now s) labels p) :
    Accounted codec (maxAttempts taskMaxAttempts) replies (begun load now s) load p := by
  have first : Accounted codec (maxAttempts taskMaxAttempts) replies (begun load now s) load (begun load now s) :=
    accounted_begun start
  exact path.preserves first fun _ _ _ valid step =>
    accounted_step first.progress (begun_distinct load now s) loads valid step

-- The counters of the nodes never fall below zero, so the next pass starts from
-- such counters again.
theorem run_loads {labels : List (Nat × Instant)} (start : Run (Service.Step codec alpha) {} operations s)
    (loads : ∀ name, 0 ≤ load name)
    (path : Run (Step codec alpha taskMaxAttempts replies) (begun load now s) labels p) : ∀ name, 0 ≤ p.load name := by
  intro name
  have held := (run_accounted start loads path).slots name
  have before := loads name
  omega

-- One node and one request. Both responses are objects or arrays without usage.
def oneRequest : List Service.Operation := [Service.nodeWith 1,.grant 1 1000 none,Service.submitShort 1 1 0]

end BatchGateway.PassOutcome
