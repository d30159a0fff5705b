import BatchGateway.Models
import BatchGateway.Raising

namespace BatchGateway.BatchInput
open PythonText PythonJson Raising

def perMessageOverhead : Int := 4
def primingTokens : Int := 2
def charsPerToken : Nat := 4

def countTextTokens (s : Str) : Int :=
  if s = [] then 0 else max 1 (((s.length + charsPerToken - 1) / charsPerToken : Nat) : Int)

-- The "text" of a content part, where it is a dict with a string there.
def partText : Json → Option Str
  | .obj part => match get part "text" with
    | some (.str s) => some s
    | _ => none
  | _ => none

def messageText : Json → Str
  | .str s => s
  | .arr parts => join (text " ") (parts.filterMap partText)
  | _ => []

def messageTokens (message : Dict) : Int :=
  perMessageOverhead + countTextTokens (messageText (getOrNone message "content")) +
    match get message "name" with
    | some (.str name) => countTextTokens name
    | _ => 0

-- A message that is no dict has no .get.
def estimatePromptTokens : List Json → Except Raised Int
  | [] => .ok primingTokens
  | .obj message :: rest => do
    let total ← estimatePromptTokens rest
    return messageTokens message + total
  | _ :: _ => .error .attributeError

variable (codec : Codec)

-- `body.get("messages") or []`, iterated.
def messagesOf (body : Dict) : Except Raised (List Json) :=
  match getOrNone body "messages" with
  | .arr messages => .ok messages
  | .str s => .ok (s.map (fun c => .str [c]))
  | .obj members => .ok (members.map (fun row => .str row.1))
  | other => if truthy other then .error .typeError else .ok []

-- parse_batch_input lets only integers and booleans through to int() here.
def estimateRequestTokens (body : Dict) (defaultMaxTokens : Int) : Except Raised (Int × Int) := do
  let messages ← messagesOf body
  let promptTokens ← estimatePromptTokens messages
  match getOrNone body "max_tokens" with
  | .null => return (promptTokens,defaultMaxTokens)
  | value => match toInt codec value with
    | some maxTokens => return (promptTokens,maxTokens)
    | none => .error .typeError

structure ParsedLine where
  lineIndex : Nat
  customId : Str
  body : Dict
  promptTokens : Int
  maxTokens : Int

def ParsedLine.reservedTokens (p : ParsedLine) : Int := p.promptTokens + p.maxTokens

def maxErrorsShown : Nat := 5

-- The ways one line can be refused, in the order they are tested.
inductive LineFault where
  | invalidJson (message : Str)
  | notObject
  | missingCustomId
  | duplicateCustomId (customId : Str)
  | wrongMethod
  | wrongUrl (got : Json)
  | missingBody
  | emptyMessages
  | badMaxTokens

def LineFault.describe (endpoint : Str) : LineFault → Str
  | .invalidJson message => text "invalid JSON (" ++ message ++ text ")"
  | .notObject => text "must be a JSON object"
  | .missingCustomId => text "missing or invalid 'custom_id'"
  | .duplicateCustomId customId => text "duplicate custom_id '" ++ customId ++ text "'"
  | .wrongMethod => text "'method' must be 'POST'"
  | .wrongUrl got => text "'url' must be '" ++ endpoint ++ text "', got " ++ codec.repr got
  | .missingBody => text "missing or invalid 'body'"
  | .emptyMessages => text "body.messages must be a non-empty list"
  | .badMaxTokens => text "body.max_tokens must be a positive integer"

def LineFault.report (endpoint : Str) (idx : Nat) (fault : LineFault) : Str :=
  text "line " ++ text (toString idx) ++ text ": " ++ fault.describe codec endpoint

-- A JSON boolean is an int to isinstance: True passes as 1, False fails as 0.
def maxTokensValid : Json → Bool
  | .null => true
  | .int n => decide (0 < n)
  | .bool b => b
  | _ => false

-- The tests of one line, given the custom_ids of the valid lines before it.
def checkLine (endpoint : Str) (seen : List Str) (rawLine : Str) : Except LineFault (Str × Dict) :=
  match codec.loads rawLine with
  | .error message => .error (.invalidJson message)
  | .ok (.obj obj) =>
    match get obj "custom_id" with
    | some (.str customId) =>
      if customId = [] then .error .missingCustomId
      else if customId ∈ seen then .error (.duplicateCustomId customId)
      else match get obj "method" with
      | some (.str method) =>
        if method ≠ text "POST" then .error .wrongMethod
        else match get obj "url" with
        | some (.str url) =>
          if url ≠ endpoint then .error (.wrongUrl (.str url))
          else match get obj "body" with
          | some (.obj body) =>
            match get body "messages" with
            | some (.arr (_ :: _)) =>
              if maxTokensValid (getOrNone body "max_tokens") then .ok (customId,body) else .error .badMaxTokens
            | _ => .error .emptyMessages
          | _ => .error .missingBody
        | other => .error (.wrongUrl (other.getD .null))
      | _ => .error .wrongMethod
    | _ => .error .missingCustomId
  | .ok _ => .error .notObject

structure Accumulated where
  parsed : List ParsedLine
  errors : List Str
  seenCustomIds : List Str

def parseLine (endpoint : Str) (defaultMaxTokens : Int) (idx : Nat) (rawLine : Str) (acc : Accumulated) :
    Except Raised Accumulated :=
  match checkLine codec endpoint acc.seenCustomIds rawLine with
  | .error fault => .ok {acc with errors := acc.errors ++ [fault.report codec endpoint idx]}
  | .ok (customId,body) => do
    let (promptTokens,maxTokens) ← estimateRequestTokens codec body defaultMaxTokens
    return {acc with
      parsed := acc.parsed ++ [⟨idx,customId,body,promptTokens,maxTokens⟩]
      seenCustomIds := acc.seenCustomIds ++ [customId]}

def parseLoop (endpoint : Str) (defaultMaxTokens : Int) :
    Nat → List Str → Accumulated → Except Raised Accumulated
  | _, [], acc => .ok acc
  | idx, rawLine :: rest, acc => do
    let acc ← parseLine codec endpoint defaultMaxTokens idx rawLine acc
    parseLoop endpoint defaultMaxTokens (idx + 1) rest acc

def rawLines (raw : Bytes) : List Str := (splitOn newline (decode raw)).filter (fun line => !blank line)

def rejection (errors : List Str) : Str :=
  let extra := errors.length - maxErrorsShown
  text "Input file has " ++ text (toString errors.length) ++ text " invalid line(s): " ++
    join (text "; ") (errors.take maxErrorsShown) ++
    if extra > 0 then text " (+" ++ text (toString extra) ++ text " more)" else []

def parseBatchInput (endpoint : Str) (defaultMaxTokens : Int) (raw : Bytes) : Except Raised (List ParsedLine) := do
  require (rawLines raw ≠ []) (.invalidRequest (text "Input file has no request lines.") "input_file_id")
  let acc ← parseLoop codec endpoint defaultMaxTokens 0 (rawLines raw) ⟨[],[],[]⟩
  require (acc.errors = []) (.invalidRequest (rejection acc.errors) "input_file_id")
  return acc.parsed

variable {codec : Codec} {endpoint : Str} {defaultMaxTokens : Int}

theorem checkLine_parts {seen : List Str} {rawLine customId : Str} {body : Dict}
    (checked : checkLine codec endpoint seen rawLine = .ok (customId,body)) :
    ∃ obj, codec.loads rawLine = .ok (.obj obj) ∧ get obj "custom_id" = some (.str customId) ∧ customId ≠ [] ∧
      customId ∉ seen ∧ get obj "method" = some (.str (text "POST")) ∧ get obj "url" = some (.str endpoint) ∧
      get obj "body" = some (.obj body) ∧ (∃ m ms, get body "messages" = some (.arr (m :: ms))) ∧
      maxTokensValid (getOrNone body "max_tokens") = true := by
  unfold checkLine at checked
  split at checked
  · cases checked
  · rename_i obj decoded
    split at checked
    · rename_i name named
      split at checked
      · cases checked
      · rename_i present
        split at checked
        · cases checked
        · rename_i fresh
          split at checked
          · rename_i method posted
            split at checked
            · cases checked
            · rename_i post
              split at checked
              · rename_i url located
                split at checked
                · cases checked
                · rename_i here
                  split at checked
                  · rename_i inner stored
                    split at checked
                    · rename_i m ms messages
                      split at checked
                      · rename_i bounded
                        cases checked
                        exact ⟨obj,decoded,named,present,fresh,by rw [posted,not_not.mp post],
                          by rw [located,not_not.mp here],stored,⟨m,ms,messages⟩,bounded⟩
                      · cases checked
                    · cases checked
                  · cases checked
              · cases checked
          · cases checked
    · cases checked
  · cases checked

-- The lines of an accepted file and what they were parsed to, one to one.
inductive Accepted (codec : Codec) (endpoint : Str) (defaultMaxTokens : Int) :
    Nat → List Str → List Str → List ParsedLine → Prop where
  | nil : Accepted codec endpoint defaultMaxTokens idx seen [] []
  | cons (checked : checkLine codec endpoint seen rawLine = .ok (p.customId,p.body))
      (estimated : estimateRequestTokens codec p.body defaultMaxTokens = .ok (p.promptTokens,p.maxTokens))
      (numbered : p.lineIndex = idx)
      (rest : Accepted codec endpoint defaultMaxTokens (idx+1) (seen ++ [p.customId]) raws lines) :
      Accepted codec endpoint defaultMaxTokens idx seen (rawLine :: raws) (p :: lines)

theorem parseLoop_accepted {raws : List Str} {idx : Nat} {acc after : Accumulated}
    (parsed : parseLoop codec endpoint defaultMaxTokens idx raws acc = .ok after) (clean : after.errors = []) :
    acc.errors = [] ∧ ∃ lines, Accepted codec endpoint defaultMaxTokens idx acc.seenCustomIds raws lines ∧
      after.parsed = acc.parsed ++ lines := by
  induction raws generalizing idx acc with
  | nil =>
    cases parsed
    exact ⟨clean,[],.nil,(List.append_nil _).symm⟩
  | cons rawLine raws ih =>
    obtain ⟨next,line,rest⟩ := bind_ok parsed
    obtain ⟨kept,lines,accepted,whole⟩ := ih rest
    unfold parseLine at line
    split at line
    · cases line
      simp at kept
    · rename_i customId body checked
      obtain ⟨⟨promptTokens,maxTokens⟩,estimated,same⟩ := bind_ok line
      cases same
      refine ⟨kept,⟨idx,customId,body,promptTokens,maxTokens⟩ :: lines,.cons checked estimated rfl accepted,?_⟩
      rw [whole,List.append_assoc]
      rfl

theorem parseBatchInput_accepted {raw : Bytes} {lines : List ParsedLine}
    (parsed : parseBatchInput codec endpoint defaultMaxTokens raw = .ok lines) :
    Accepted codec endpoint defaultMaxTokens 0 [] (rawLines raw) lines := by
  unfold parseBatchInput at parsed
  obtain ⟨_,_,parsed⟩ := bind_ok parsed
  obtain ⟨acc,looped,parsed⟩ := bind_ok parsed
  obtain ⟨_,clean,parsed⟩ := bind_ok parsed
  obtain ⟨_,lines',accepted,whole⟩ := parseLoop_accepted looped (by simpa using require_ok.mp clean)
  cases parsed
  rw [whole]
  exact accepted

variable {idx : Nat} {seen raws : List Str} {lines : List ParsedLine}

theorem accepted_line (accepted : Accepted codec endpoint defaultMaxTokens idx seen raws lines) {p : ParsedLine}
    (member : p ∈ lines) :
    maxTokensValid (getOrNone p.body "max_tokens") = true ∧
      estimateRequestTokens codec p.body defaultMaxTokens = .ok (p.promptTokens,p.maxTokens) := by
  induction accepted with
  | nil => cases member
  | cons checked estimated _ _ ih =>
    rcases List.mem_cons.mp member with rfl | later
    · obtain ⟨_,_,_,_,_,_,_,_,_,bounded⟩ := checkLine_parts checked
      exact ⟨bounded,estimated⟩
    · exact ih later

-- The bound resolved at submission: the line's own value, or the default.
def resolvedMaxTokens (defaultMaxTokens : Int) : Json → Int
  | .int n => n
  | .bool true => 1
  | _ => defaultMaxTokens

theorem resolved_max_tokens {body : Dict} {promptTokens maxTokens : Int}
    (valid : maxTokensValid (getOrNone body "max_tokens") = true)
    (estimated : estimateRequestTokens codec body defaultMaxTokens = .ok (promptTokens,maxTokens)) :
    maxTokens = resolvedMaxTokens defaultMaxTokens (getOrNone body "max_tokens") := by
  unfold estimateRequestTokens at estimated
  obtain ⟨messages,_,estimated⟩ := bind_ok estimated
  obtain ⟨total,_,estimated⟩ := bind_ok estimated
  revert estimated valid
  cases getOrNone body "max_tokens" with
  | null => intro _ same; cases same; rfl
  | int n => intro _ same; cases same; rfl
  | bool b =>
    intro valid same
    cases valid
    cases same
    rfl
  | float => intro invalid; cases invalid
  | str => intro invalid; cases invalid
  | arr => intro invalid; cases invalid
  | obj => intro invalid; cases invalid

end BatchGateway.BatchInput
