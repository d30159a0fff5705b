import BatchGateway.Consumption
import BatchGateway.Draining
import BatchGateway.FileOwnership
import BatchGateway.PrintedRows
import BatchGateway.SingleFinalization

-- The rows, files and answers of a pass, while its settlements wait between their two commits.
namespace BatchGateway.PassFiles
open PythonText PythonJson BatchOps Dispatcher Sessions LabelledRuns Records Counters Passes PassSettlement PassOutcome
  ResultFiles FileOwnership PrintedRows Draining
open LlamaClient (ClientError chatCompletion)

-- Columns of a submission, which a pass leaves as they are.
def submitted (db : Db) : List Request × List (Submission × Option Instant) :=
  (db.tasks.map Task.request,db.batches.map (fun b => (Batch.submission b,b.purgedAt)))

-- A settled row says what its requests got.
def Carries (result : Option Json) (u : Task) : Prop :=
  match result with
  | some value => u.status = .completed ∧ u.responseBody = some value
  | none => u.status = .failed

variable {codec : Codec} {alpha : ℚ} {taskMaxAttempts : Int} {attempts : Nat} {replies : TaskId → Nat → Except ClientError Json}
  {o p q : Pass} {x y : Execution} {i j : Nat} {stage : Stage} {db after : Db} {blobs : Blobs}

section Steps

end Steps

section Rounds
variable {s t : Between} {r : Round}

-- Between two passes.
structure Stored (codec : Codec) (s : Between) : Prop where
  filed : Filed codec s.service.db s.service.blobs
  tidy : Tidy s.service.db
  printed : Printed codec s.service.db

-- The first answer of the nodes of a round to the stored body.
def nodesAnswer (codec : Codec) (attempts : Nat) (r : Round) (i : TaskId) (u : Task) : Option Json :=
  firstAnswer (fun n => chatCompletion codec (r.nodes i n) u.requestBody) attempts

variable {first : Service} {load : InFlight} {rounds : List Round}

structure Written (codec : Codec) (attempts : Nat) (first : Service) (rounds : List Round) (t : Between) : Prop where
  stored : Stored codec t
  same : submitted t.service.db = submitted first.db
  rows : ∀ (i : TaskId) u, t.service.db.tasks[i]? = some u →
    first.db.tasks[i]? = some u ∨ ∃ r ∈ rounds, Carries (nodesAnswer codec attempts r i u) u

end Rounds

end BatchGateway.PassFiles
