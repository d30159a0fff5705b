import BatchGateway.Service
import BatchGateway.JsonText
import BatchGateway.StrictJson

-- One request to a node as LlamaClient makes it, and what of it can end the
-- execution that asked for it.
namespace BatchGateway.LlamaClient
open PythonText PythonJson Raising BatchInput BatchOps Dispatcher StrictJson

-- What resp.json() raises: a ValueError with its text, or what is none.
inductive JsonFailure where
  | valueError (message : Str)
  | recursionError

-- `text` and `json` are what httpx decodes from the content.
structure Response where
  statusCode : Nat
  text : Str
  json : Except JsonFailure Json

-- What the node and the network make of a request that was sent.
inductive Sent where
  | httpError (message : Str)
  | response (r : Response)

abbrev NodeBehaviour := Bytes → Sent

inductive ClientError where
  | nodeRequestError (message : Str)
  -- an exception that chat_completion lets through
  | escaped (e : Raised)

-- httpx encodes the body before it sends anything; none of these is an httpx.HTTPError.
def encodeRaised : EncodeError → Raised
  | .outOfRange => .valueError "Out of range float values are not JSON compliant"
  | .tooDeep => .recursionError
  | .surrogates => .unicodeEncodeError

def responseResult (r : Response) : Except ClientError Json :=
  if 400 ≤ r.statusCode then
    .error (.nodeRequestError (PythonText.text s!"HTTP {r.statusCode}: " ++ r.text.take 500))
  else match r.json with
    | .ok value => .ok value
    | .error (.valueError message) => .error (.nodeRequestError (PythonText.text "non-JSON response: " ++ message))
    | .error .recursionError => .error (.escaped .recursionError)

def sentResult : Sent → Except ClientError Json
  | .httpError message => .error (.nodeRequestError message)
  | .response r => responseResult r

variable (codec : Codec)

def chatCompletion (node : NodeBehaviour) (body : Dict) : Except ClientError Json :=
  match encodeJson codec (.obj body) with
  | .error e => .error (.escaped (encodeRaised e))
  | .ok content => sentResult (node content)

-- The body of an input line.
def lineBody (rawLine : Str) : Option Dict :=
  match codec.loads rawLine with
  | .ok (.obj obj) => match get obj "body" with
    | some (.obj body) => some body
    | _ => none
  | _ => none

variable {codec} {body : Dict} {t : Task} {nodes : Nat → NodeBehaviour}

variable {endpoint : Str} {defaultMaxTokens : Int}

end BatchGateway.LlamaClient
