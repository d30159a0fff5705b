import BatchGateway.DispatchLoop
import BatchGateway.OpenBatches

-- Passes one after the other while nothing else happens: the queue runs empty.
namespace BatchGateway.Draining
open PythonText PythonJson BatchOps Dispatcher Sessions LabelledRuns Counters BudgetRows Passes PassSettlement PassOutcome
open LlamaClient (ClientError NodeBehaviour chatCompletion)
open ClaimPass (eligibleCount isEligible freeCapacity)

-- One call of dispatch_once: when it claims, what the nodes make of each request, and
-- in which order its executions go on.
structure Round where
  now : Instant
  nodes : TaskId → Nat → NodeBehaviour
  schedule : List (Nat × Instant)

-- The service between two passes, with its counters of open requests.
structure Between where
  service : Service
  load : InFlight

variable (codec : Codec) (alpha : ℚ) (taskMaxAttempts : Int)

-- The client encodes the stored body of the task for each of its requests.
def requested (nodes : TaskId → Nat → NodeBehaviour) (db : Db) (task : TaskId) (n : Nat) : Except ClientError Json :=
  match db.tasks[task]? with
  | some t => chatCompletion codec (nodes task n) t.requestBody
  | none => .error (.escaped .attributeError)

def Dispatches (s : Between) (r : Round) (t : Between) : Prop :=
  ∃ p, Run (Passes.Step codec alpha taskMaxAttempts (requested codec r.nodes s.service.db)) (begun s.load r.now s.service)
    r.schedule p ∧ (∀ x ∈ p.executions, x.stage = .returned) ∧ p.escaped = none ∧ t = ⟨p.service,p.load⟩

-- The claimed bodies can be sent, and the nodes answer with something the service can
-- settle the tasks with.
def Answers (s : Between) (r : Round) : Prop :=
  Answerable codec (maxAttempts taskMaxAttempts) (requested codec r.nodes s.service.db) (begun s.load r.now s.service)

-- A settlement that is going to finish its batch.
def dueFor (i : BatchId) (x : Execution) : Prop :=
  ∃ own copy, x.stage = .committed own copy ∧ own.batchId = i ∧ shouldFinalize copy = true

def Finished (b : Batch) : Prop := b.status = .completed ∧ b.requestTotal ≤ b.requestCompleted + b.requestFailed

-- Where a pass stands with the batches, against its first state.
structure Closing (o p : Pass) : Prop where
  others : ∀ i, (∀ x ∈ p.executions, x.task ≠ i) → p.service.db.tasks[i]? = o.service.db.tasks[i]?
  size : p.service.db.tasks.length = o.service.db.tasks.length
  nodes : p.service.db.nodes = o.service.db.nodes
  short : ∀ (i : BatchId) b, p.service.db.batches[i]? = some b → b.status = .inProgress →
    b.requestCompleted + b.requestFailed < b.requestTotal ∨ ∃ x ∈ p.executions, dueFor i x
  due : ∀ x ∈ p.executions, ∀ i, dueFor i x → ∃ b c, p.service.db.batches[i]? = some b ∧
    b.requestTotal ≤ b.requestCompleted + b.requestFailed ∧ o.service.db.batches[i]? = some c ∧ c.status = .inProgress
  kept : ∀ (i : BatchId) b, o.service.db.batches[i]? = some b → ∃ a, p.service.db.batches[i]? = some a ∧
    a.requestTotal = b.requestTotal ∧ (a.status = b.status ∨ (b.status = .inProgress ∧ Finished a))

variable {codec alpha taskMaxAttempts} {o p q : Pass} {attempts : Nat} {x : Execution} {i : Nat} {stage : Stage}

theorem tasks_kept (moved : q.executions = p.executions.modify i (Execution.goTo stage)) {k : TaskId}
    (none_ : ∀ y ∈ q.executions, y.task ≠ k) : ∀ y ∈ p.executions, y.task ≠ k := by
  intro y member
  have listed : y.task ∈ p.executions.map Execution.task := List.mem_map_of_mem member
  have columns : q.executions.map Execution.task = p.executions.map Execution.task := by
    rw [moved]
    exact Rows.map_modify_same fun _ => rfl
  rw [← columns] at listed
  obtain ⟨z,there,named⟩ := List.mem_map.mp listed
  rw [← named]
  exact none_ z there

variable {s t : Between} {r : Round}

-- What one pass does, whatever order its executions went in.
structure Settles (codec : Codec) (attempts : Nat) (s : Between) (r : Round) (t : Between) (p : Pass) : Prop where
  account : Accounted codec attempts (requested codec r.nodes s.service.db) (begun s.load r.now s.service) s.load p
  served : Served s.load attempts (requested codec r.nodes s.service.db) (begun s.load r.now s.service) p
  closing : Closing (begun s.load r.now s.service) p
  next : t = ⟨p.service,p.load⟩

section Round
variable {codec : Codec} {p : Pass}

-- Which tasks the pass has taken.
def taken (s : Between) : List TaskId := (assignments s.load s.service.db).map Assignment.task

end Round

section Loop
variable {codec : Codec} {p : Pass}

-- The requests of earlier passes are only carried along.
def carried (earlier : List (TaskId × Dict)) (p : Pass) : Pass := {p with posted := earlier ++ p.posted}

theorem carried_step {replies : TaskId → Nat → Except ClientError Json} {action : Nat × Instant} (earlier : List (TaskId × Dict))
    (step : Passes.Step codec alpha taskMaxAttempts replies p action q) :
    Passes.Step codec alpha taskMaxAttempts replies (carried earlier p) action (carried earlier q) := by
  obtain ⟨x,found,moved⟩ := Option.bind_eq_some_iff.mp step
  refine Option.bind_eq_some_iff.mpr ⟨x,found,?_⟩
  simp only [proceed] at moved ⊢
  cases place : x.stage with
  | created =>
    rw [place] at moved
    cases row : p.service.db.tasks[x.task]? with
    | none =>
      simp only [row] at moved
      cases moved
      simp [carried,row,Pass.lose,Pass.goTo]
    | some t =>
      simp only [row] at moved
      cases moved
      simp [carried,row,Pass.goTo]
  | requesting body attempt lastError =>
    rw [place] at moved
    cases moved
    simp [carried,afterRequest,Pass.lose,Pass.goTo]
  | replied result lastError =>
    rw [place] at moved
    simp only [carried]
    cases done : commitSettlement codec alpha x.task result lastError (maxAttempts taskMaxAttempts) action.2 p.service.db with
    | error e =>
      simp only [done] at moved
      cases moved
      rfl
    | ok db =>
      simp only [done] at moved
      obtain ⟨own,there,moved⟩ := Option.bind_eq_some_iff.mp moved
      obtain ⟨copy,owned,moved⟩ := Option.bind_eq_some_iff.mp moved
      cases moved
      simp [afterCommit,there,owned,Pass.goTo]
  | committed own copy =>
    rw [place] at moved
    cases moved
    simp only [carried,afterFinalization]
    split
    · rfl
    · rfl
  | returned =>
    rw [place] at moved
    cases moved
  | raised e =>
    rw [place] at moved
    cases moved
  | stuck e =>
    rw [place] at moved
    cases moved

-- A round is what run_forever does from one idle moment to the next.
theorem round_loop {now : Instant} {nodes : TaskId → Nat → NodeBehaviour} {schedule : List (Nat × Instant)}
    (free : DispatchLoop.idle p = true)
    (round : Dispatches codec alpha taskMaxAttempts ⟨p.service,p.load⟩ ⟨now,nodes,schedule⟩ t) :
    ∃ q, Run (DispatchLoop.Step codec alpha taskMaxAttempts) p
      (.dispatch now :: schedule.map (fun a => .execution a.1 a.2 (requested codec nodes p.service.db))) q ∧
      DispatchLoop.idle q = true ∧ t = ⟨q.service,q.load⟩ := by
  obtain ⟨last,path,returned,quiet,rfl⟩ := round
  refine ⟨carried p.posted last,.cons (m := carried p.posted (begun p.load now p.service)) ?_ ?_,?_,rfl⟩
  · simp [DispatchLoop.Step,DispatchLoop.advance,free,carried,begun]
  · have steps : ∀ {labels : List (Nat × Instant)} {m : Pass},
        Run (Passes.Step codec alpha taskMaxAttempts (requested codec nodes p.service.db)) (begun p.load now p.service) labels m →
        Run (DispatchLoop.Step codec alpha taskMaxAttempts) (carried p.posted (begun p.load now p.service))
          (labels.map (fun a => .execution a.1 a.2 (requested codec nodes p.service.db))) (carried p.posted m) := by
      intro labels m path
      induction path with
      | nil => exact .nil
      | step _ step ih =>
        rw [List.map_append]
        exact ih.step (carried_step p.posted step)
    exact steps path
  · refine Bool.and_eq_true_iff.mpr ⟨?_,List.all_eq_true.mpr fun x member => ?_⟩
    · change last.escaped.isNone = true
      rw [quiet]
      rfl
    · rw [returned x member]
      rfl

end Loop

-- No request is ever answered.
def refused : TaskId → Nat → NodeBehaviour := fun _ _ _ => .httpError []

end BatchGateway.Draining
