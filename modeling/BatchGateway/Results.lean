import BatchGateway.JsonText
import BatchGateway.PrintedRows
import BatchGateway.ResultFiles

namespace BatchGateway.Results
open PythonText PythonJson BatchInput BatchOps Service LabelledRuns Records Counters ResultFiles PrintedRows

variable {codec : Codec} {alpha : ℚ} {s m t : Service}

section Input
variable {endpoint : Str} {defaultMaxTokens : Int} {idx : Nat} {seen raws : List Str} {lines : List ParsedLine}

end Input

-- Two lines: one answered, one given up, both found again.
def twoLines : Bytes := inputFile [requestLine "a" ", \"max_tokens\": 5",requestLine "b" ", \"max_tokens\": 5"]

end BatchGateway.Results
