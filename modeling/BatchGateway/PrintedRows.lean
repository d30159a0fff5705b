import BatchGateway.RowMoves

-- What a result file prints of a task row: every row keeps it in a form that the file's
-- lines are read back with.
namespace BatchGateway.PrintedRows
open PythonText PythonJson BatchInput BatchOps Service LabelledRuns Records RowMoves

structure Printable (codec : Codec) (t : Task) : Prop where
  customId : (encode t.customId).isSome = true
  response : ∀ body, t.responseBody = some body → stores codec body = true
  error : ∀ e, t.error = some e → (encode e).isSome = true

def Printed (codec : Codec) (db : Db) : Prop := ∀ t ∈ db.tasks, Printable codec t

variable {codec : Codec} {alpha : ℚ} {s t : Service} {op : Operation} {db after : Db} {i : TaskId} {row later : Task}

section Records
variable {row : Task × TaskId}

end Records

end BatchGateway.PrintedRows
