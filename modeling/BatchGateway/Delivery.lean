import BatchGateway.DurableFiles
import BatchGateway.PassFiles
import BatchGateway.Polling
import BatchGateway.Results

-- From a submission the service accepts to the files its user downloads.
namespace BatchGateway.Delivery
open PythonText PythonJson Raising BatchInput BatchOps Dispatcher LabelledRuns Records Counters Passes PassSettlement ResultFiles
  FileOwnership DurableFiles Draining PassFiles PrintedRows Results BatchAnswers
open ClaimPass (eligibleCount freeCapacity)

-- The user can download the file, and finds these records in its lines.
def Serves (codec : Codec) (defaultMaxTokens : Int) (s : Service) (user : UserId) (f : FileId) (records : List Json) : Prop :=
  ∃ row data, Downloads codec defaultMaxTokens s f row data ∧ row.userId = user ∧
    readLines codec (decode data) = records.map .ok

variable {codec : Codec} {alpha : ℚ} {defaultMaxTokens taskMaxAttempts : Int} {s m : Service} {user : UserId} {f : FileId}
  {endpoint window : Str} {now : Instant} {response : Routes.Response} {lines : List ParsedLine} {i : BatchId} {b : Batch}

section Submission

end Submission

section Results
variable {db : Db} {blobs : Blobs}

end Results

variable {rounds : List Round} {t : Between} {load : InFlight} {before : List Routes.Action}

def uploaded : List Routes.Action :=
  [.background (Service.nodeWith 2),.background (.grant 1 1000 none),.request 1 (.createFile none (text "batch") twoLines) 0]

end BatchGateway.Delivery
