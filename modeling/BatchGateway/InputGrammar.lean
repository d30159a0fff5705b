import BatchGateway.BatchInput
import BatchGateway.JsonText

-- The grammar of an input file, and what parse_batch_input accepts of it.
namespace BatchGateway.InputGrammar
open PythonText PythonJson Raising BatchInput

-- Absent, null or a positive JSON integer.
def IntegerBound : Json → Prop
  | .null => True
  | .int n => 0 < n
  | .bool _ | .float _ | .str _ | .arr _ | .obj _ => False

-- What isinstance(max_tokens, int) and max_tokens > 0 let through.
def CheckedBound (maxTokens : Json) : Prop := maxTokensValid maxTokens = true

-- estimate_prompt_tokens over messages that are all objects.
def objectOf : Json → Dict
  | .obj members => members
  | _ => []

def promptEstimate (messages : List Json) : Int :=
  primingTokens + (messages.map (fun message => messageTokens (objectOf message))).sum

def messageList (body : Dict) : List Json :=
  match get body "messages" with
  | some (.arr messages) => messages
  | _ => []

def Objects (messages : List Json) : Prop := ∀ message ∈ messages, ∃ members, message = .obj members

section
variable (codec : Codec) (endpoint : Str)

def RequestLine (bound : Json → Prop) (rawLine customId : Str) (body : Dict) : Prop :=
  ∃ obj, codec.loads rawLine = .ok (.obj obj) ∧ get obj "custom_id" = some (.str customId) ∧ customId ≠ [] ∧
    get obj "method" = some (.str (text "POST")) ∧ get obj "url" = some (.str endpoint) ∧
    get obj "body" = some (.obj body) ∧ (∃ m ms, get body "messages" = some (.arr (m :: ms))) ∧
    bound (getOrNone body "max_tokens")

-- A file: at least one request line, and no custom_id twice.
def Grammar (bound : Json → Prop) (raw : Bytes) : Prop :=
  rawLines raw ≠ [] ∧ ∃ requests : List (Str × Dict),
    List.Forall₂ (fun rawLine r => RequestLine codec endpoint bound rawLine r.1 r.2) (rawLines raw) requests ∧
    (requests.map Prod.fst).Nodup

def ObjectMessages (raw : Bytes) : Prop :=
  ∀ rawLine ∈ rawLines raw, ∀ obj body, codec.loads rawLine = .ok (.obj obj) → get obj "body" = some (.obj body) →
    Objects (messageList body)

-- Some line asks for "max_tokens": true.
def TrueBound (raw : Bytes) : Prop :=
  ∃ rawLine ∈ rawLines raw, ∃ obj body, codec.loads rawLine = .ok (.obj obj) ∧ get obj "body" = some (.obj body) ∧
    get body "max_tokens" = some (.bool true)

structure LineOf (defaultMaxTokens : Int) (idx : Nat) (rawLine : Str) (p : ParsedLine) : Prop where
  numbered : p.lineIndex = idx
  request : RequestLine codec endpoint IntegerBound rawLine p.customId p.body
  reserved : p.reservedTokens =
    promptEstimate (messageList p.body) + resolvedMaxTokens defaultMaxTokens (getOrNone p.body "max_tokens")

def Corresponds (defaultMaxTokens : Int) (raw : Bytes) (lines : List ParsedLine) : Prop :=
  lines.length = (rawLines raw).length ∧ ∀ idx rawLine p, (rawLines raw)[idx]? = some rawLine → lines[idx]? = some p →
    LineOf codec endpoint defaultMaxTokens idx rawLine p

-- Exactly the files of the grammar are accepted, each line as what it is.
def Exact (defaultMaxTokens : Int) (raw : Bytes) : Prop :=
  ((∃ lines, parseBatchInput codec endpoint defaultMaxTokens raw = .ok lines) ↔ Grammar codec endpoint IntegerBound raw) ∧
  ∀ lines, parseBatchInput codec endpoint defaultMaxTokens raw = .ok lines →
    Corresponds codec endpoint defaultMaxTokens raw lines

end

variable {codec : Codec} {endpoint : Str} {defaultMaxTokens : Int} {bound : Json → Prop}
variable {rawLine customId : Str} {body : Dict} {seen : List Str} {idx : Nat} {raws : List Str} {raw : Bytes}

theorem checkLine_iff : checkLine codec endpoint seen rawLine = .ok (customId,body) ↔
    RequestLine codec endpoint CheckedBound rawLine customId body ∧ customId ∉ seen := by
  constructor
  · intro checked
    obtain ⟨obj,decoded,named,present,fresh,method,url,stored,messages,bounded⟩ := checkLine_parts checked
    exact ⟨⟨obj,decoded,named,present,method,url,stored,messages,bounded⟩,fresh⟩
  · rintro ⟨⟨obj,decoded,named,present,method,url,stored,⟨m,ms,messages⟩,bounded⟩,fresh⟩
    have bounded : maxTokensValid (getOrNone body "max_tokens") = true := bounded
    simp [checkLine,decoded,named,present,fresh,method,url,stored,messages,bounded]

theorem RequestLine.weaken {other : Json → Prop} (line : RequestLine codec endpoint bound rawLine customId body)
    (weaker : bound (getOrNone body "max_tokens") → other (getOrNone body "max_tokens")) :
    RequestLine codec endpoint other rawLine customId body := by
  obtain ⟨obj,decoded,named,present,method,url,stored,messages,bounded⟩ := line
  exact ⟨obj,decoded,named,present,method,url,stored,messages,weaker bounded⟩

theorem integer_checked {maxTokens : Json} (integer : IntegerBound maxTokens) : CheckedBound maxTokens := by
  cases maxTokens with
  | null => rfl
  | int n =>
    have positive : 0 < n := integer
    simpa [CheckedBound,maxTokensValid] using positive
  | bool | float | str | arr | obj => exact integer.elim

-- The check and the grammar differ in `true` alone.
theorem checked_integer {maxTokens : Json} (checked : CheckedBound maxTokens) (not_true : maxTokens ≠ .bool true) :
    IntegerBound maxTokens := by
  cases maxTokens with
  | null => trivial
  | int n =>
    have positive : 0 < n := by simpa [CheckedBound,maxTokensValid] using checked
    exact positive
  | bool b =>
    cases b with
    | true => exact absurd rfl not_true
    | false => cases checked
  | float | str | arr | obj => cases checked

theorem estimate_objects {messages : List Json} (objects : Objects messages) :
    estimatePromptTokens messages = .ok (promptEstimate messages) := by
  induction messages with
  | nil => rfl
  | cons message rest ih =>
    obtain ⟨members,rfl⟩ := objects message List.mem_cons_self
    have later := ih fun other member => objects other (List.mem_cons_of_mem _ member)
    rw [estimatePromptTokens,later]
    refine congrArg Except.ok ?_
    simp only [promptEstimate,List.map_cons,List.sum_cons,objectOf]
    omega

theorem RequestLine.read (line : RequestLine codec endpoint bound rawLine customId body) :
    messagesOf body = .ok (messageList body) := by
  obtain ⟨obj,_,_,_,_,_,_,⟨m,ms,messages⟩,_⟩ := line
  simp [messagesOf,messageList,getOrNone,messages]

theorem estimate_request (line : RequestLine codec endpoint CheckedBound rawLine customId body)
    (objects : Objects (messageList body)) : estimateRequestTokens codec body defaultMaxTokens =
      .ok (promptEstimate (messageList body),resolvedMaxTokens defaultMaxTokens (getOrNone body "max_tokens")) := by
  have read := line.read
  obtain ⟨obj,_,_,_,_,_,_,_,bounded⟩ := line
  have checked : maxTokensValid (getOrNone body "max_tokens") = true := bounded
  unfold estimateRequestTokens
  rw [read]
  change (estimatePromptTokens (messageList body) >>= _) = _
  rw [estimate_objects objects]
  revert checked
  cases getOrNone body "max_tokens" with
  | null | int n => intro _; rfl
  | bool b =>
    intro checked
    cases checked
    rfl
  | float | str | arr | obj => intro checked; cases checked

-- The loop over lines that are all requests, each with an id of its own.
theorem parse_requests {requests : List (Str × Dict)} {acc : Accumulated}
    (lines : List.Forall₂ (fun rawLine r => RequestLine codec endpoint CheckedBound rawLine r.1 r.2 ∧
      Objects (messageList r.2)) raws requests)
    (distinct : (requests.map Prod.fst).Nodup) (fresh : ∀ r ∈ requests, r.1 ∉ acc.seenCustomIds) :
    ∃ after, parseLoop codec endpoint defaultMaxTokens idx raws acc = .ok after ∧ after.errors = acc.errors := by
  induction lines generalizing idx acc with
  | nil => exact ⟨acc,rfl,rfl⟩
  | @cons rawLine r raws requests first _ ih =>
    obtain ⟨line,objects⟩ := first
    rw [List.map_cons,List.nodup_cons] at distinct
    have checked := checkLine_iff.mpr ⟨line,fresh r List.mem_cons_self⟩
    have added : parseLine codec endpoint defaultMaxTokens idx rawLine acc = .ok {acc with
        parsed := acc.parsed ++ [⟨idx,r.1,r.2,promptEstimate (messageList r.2),
          resolvedMaxTokens defaultMaxTokens (getOrNone r.2 "max_tokens")⟩]
        seenCustomIds := acc.seenCustomIds ++ [r.1]} := by
      unfold parseLine
      rw [checked]
      dsimp only
      rw [estimate_request line objects]
      rfl
    rw [parseLoop,added]
    refine ih distinct.2 fun other member known => ?_
    rcases List.mem_append.mp known with old | new
    · exact fresh other (List.mem_cons_of_mem _ member) old
    · rw [← List.mem_singleton.mp new] at distinct
      exact distinct.1 (List.mem_map_of_mem member)

-- An accepted file is one of requests.
theorem accepted_requests {lines : List ParsedLine}
    (accepted : Accepted codec endpoint defaultMaxTokens idx seen raws lines) :
    List.Forall₂ (fun rawLine r => RequestLine codec endpoint CheckedBound rawLine r.1 r.2) raws
      (lines.map (fun p => (p.customId,p.body))) ∧
    (lines.map ParsedLine.customId).Nodup ∧ ∀ p ∈ lines, p.customId ∉ seen := by
  induction accepted with
  | nil => exact ⟨.nil,List.nodup_nil,fun p member => by cases member⟩
  | @cons seen rawLine p idx raws lines checked estimated numbered rest ih =>
    obtain ⟨requests,distinct,fresh⟩ := ih
    obtain ⟨line,unseen⟩ := checkLine_iff.mp checked
    refine ⟨.cons line requests,?_,fun other member => ?_⟩
    · rw [List.map_cons,List.nodup_cons]
      refine ⟨fun again => ?_,distinct⟩
      obtain ⟨other,member,same⟩ := List.mem_map.mp again
      exact fresh other member (same ▸ List.mem_append_right _ (List.mem_singleton.mpr rfl))
    · rcases List.mem_cons.mp member with rfl | later
      · exact unseen
      · exact fun known => fresh other later (List.mem_append_left _ known)

theorem grammar_accepted (objects : ObjectMessages codec raw) (grammar : Grammar codec endpoint CheckedBound raw) :
    ∃ lines, parseBatchInput codec endpoint defaultMaxTokens raw = .ok lines := by
  obtain ⟨present,requests,lines,distinct⟩ := grammar
  have both : List.Forall₂ (fun rawLine r => RequestLine codec endpoint CheckedBound rawLine r.1 r.2 ∧
      Objects (messageList r.2)) (rawLines raw) requests := by
    refine ((List.forall₂_and_left _ _).mpr ⟨objects,lines⟩).imp ?_
    rintro rawLine r ⟨each,line⟩
    obtain ⟨obj,decoded,_,_,_,_,stored,_⟩ := id line
    exact ⟨line,each obj r.2 decoded stored⟩
  obtain ⟨after,looped,clean⟩ : ∃ after, parseLoop codec endpoint defaultMaxTokens 0 (rawLines raw) ⟨[],[],[]⟩ = .ok after ∧
      after.errors = [] := parse_requests both distinct fun r _ known => by cases known
  refine ⟨after.parsed,?_⟩
  simp [parseBatchInput,require,present,looped,clean,bind,Except.bind,pure,Except.pure]

theorem accepted_grammar {lines : List ParsedLine}
    (parsed : parseBatchInput codec endpoint defaultMaxTokens raw = .ok lines) : Grammar codec endpoint CheckedBound raw := by
  have accepted := parseBatchInput_accepted parsed
  obtain ⟨requests,distinct,_⟩ := accepted_requests accepted
  refine ⟨?_,_,requests,?_⟩
  · unfold parseBatchInput at parsed
    obtain ⟨_,present,_⟩ := bind_ok parsed
    simpa using require_ok.mp present
  · rwa [List.map_map]

theorem accepted_at {lines : List ParsedLine} (accepted : Accepted codec endpoint defaultMaxTokens idx seen raws lines) :
    lines.length = raws.length ∧ ∀ i rawLine p, raws[i]? = some rawLine → lines[i]? = some p →
      p.lineIndex = idx + i ∧ RequestLine codec endpoint CheckedBound rawLine p.customId p.body ∧
        estimateRequestTokens codec p.body defaultMaxTokens = .ok (p.promptTokens,p.maxTokens) := by
  induction accepted with
  | nil => exact ⟨rfl,fun i rawLine p found => by cases found⟩
  | @cons seen rawLine p idx raws lines checked estimated numbered rest ih =>
    refine ⟨congrArg (· + 1) ih.1,fun i line q here there => ?_⟩
    cases i with
    | zero =>
      cases here
      cases there
      exact ⟨numbered,(checkLine_iff.mp checked).1,estimated⟩
    | succ i =>
      obtain ⟨later,request,tokens⟩ := ih.2 i line q here there
      exact ⟨by rw [later]; omega,request,tokens⟩

theorem stored_true (truth : getOrNone body "max_tokens" = .bool true) : get body "max_tokens" = some (.bool true) := by
  unfold getOrNone at truth
  cases stored : get body "max_tokens" with
  | none => rw [stored] at truth; cases truth
  | some value => rw [stored] at truth; exact congrArg some truth

theorem parsed_corresponds {lines : List ParsedLine} (objects : ObjectMessages codec raw) (no_true : ¬ TrueBound codec raw)
    (parsed : parseBatchInput codec endpoint defaultMaxTokens raw = .ok lines) :
    Corresponds codec endpoint defaultMaxTokens raw lines := by
  obtain ⟨sizes,each⟩ := accepted_at (parseBatchInput_accepted parsed)
  refine ⟨sizes,fun idx rawLine p here there => ?_⟩
  obtain ⟨numbered,request,tokens⟩ := each idx rawLine p here there
  have listed := List.mem_of_getElem? here
  obtain ⟨obj,decoded,_,_,_,_,stored,_⟩ := id request
  rw [estimate_request request (objects rawLine listed obj p.body decoded stored)] at tokens
  obtain ⟨prompt,output⟩ := Prod.mk.inj (Except.ok.inj tokens)
  refine ⟨numbered.trans (Nat.zero_add idx),request.weaken fun checked => checked_integer checked fun truth => ?_,?_⟩
  · exact no_true ⟨rawLine,listed,obj,p.body,decoded,stored,stored_true truth⟩
  · rw [ParsedLine.reservedTokens,← prompt,← output]

theorem integer_grammar (grammar : Grammar codec endpoint CheckedBound raw) (no_true : ¬ TrueBound codec raw) :
    Grammar codec endpoint IntegerBound raw := by
  obtain ⟨present,requests,lines,distinct⟩ := grammar
  have listed : ∀ rawLine ∈ rawLines raw, rawLine ∈ rawLines raw := fun _ member => member
  refine ⟨present,requests,((List.forall₂_and_left _ _).mpr ⟨listed,lines⟩).imp ?_,distinct⟩
  rintro rawLine r ⟨member,line⟩
  obtain ⟨obj,decoded,_,_,_,_,stored,_⟩ := id line
  refine line.weaken fun checked => checked_integer checked fun truth => ?_
  exact no_true ⟨rawLine,member,obj,r.2,decoded,stored,stored_true truth⟩

theorem checked_grammar (grammar : Grammar codec endpoint IntegerBound raw) : Grammar codec endpoint CheckedBound raw := by
  obtain ⟨present,requests,lines,distinct⟩ := grammar
  exact ⟨present,requests,lines.imp fun _ _ line => line.weaken integer_checked,distinct⟩

theorem integer_no_true (grammar : Grammar codec endpoint IntegerBound raw) : ¬ TrueBound codec raw := by
  rintro ⟨rawLine,member,obj,body,decoded,stored,asked⟩
  obtain ⟨_,requests,lines,_⟩ := grammar
  obtain ⟨i,bound,here⟩ := List.getElem_of_mem member
  have line := (List.forall₂_iff_get.mp lines).2 i bound ((List.forall₂_iff_get.mp lines).1 ▸ bound)
  rw [List.get_eq_getElem,here] at line
  obtain ⟨obj',decoded',_,_,_,_,stored',_,integer⟩ := line
  cases decoded.symm.trans decoded'
  cases stored.symm.trans stored'
  rw [getOrNone,asked] at integer
  exact integer

-- Only `true` as max_tokens tells the parser from the grammar.
theorem exact_iff (objects : ObjectMessages codec raw) : Exact codec endpoint defaultMaxTokens raw ↔
    ¬ (Grammar codec endpoint CheckedBound raw ∧ TrueBound codec raw) := by
  constructor
  · rintro ⟨accepts,_⟩ ⟨grammar,truth⟩
    exact integer_no_true (accepts.1 (grammar_accepted objects grammar)) truth
  · intro apart
    refine ⟨⟨?_,fun grammar => grammar_accepted objects (checked_grammar grammar)⟩,fun lines parsed => ?_⟩
    · rintro ⟨lines,parsed⟩
      have grammar := accepted_grammar parsed
      exact integer_grammar grammar fun truth => apart ⟨grammar,truth⟩
    · have grammar := accepted_grammar parsed
      exact parsed_corresponds objects (fun truth => apart ⟨grammar,truth⟩) parsed

-- A file of one line, by the message and the max_tokens it sends.
def chatEndpoint : Str := text "/v1/chat/completions"
def sayHi : Json := .obj [(text "role",.str (text "user")),(text "content",.str (text "hi"))]

section
variable (message maxTokens : Json)

def lineBody : Dict := [(text "messages",.arr [message]),(text "max_tokens",maxTokens)]
def lineObject : Dict :=
  [(text "custom_id",.str (text "a")),(text "method",.str (text "POST")),(text "url",.str chatEndpoint),
   (text "body",.obj (lineBody message maxTokens))]
def lineText : Str := JsonText.codec.dumps (.obj (lineObject message maxTokens))
def fileOf : Bytes := (encode (lineText message maxTokens)).getD []

def readsBack : Bool :=
  native (.obj (lineObject message maxTokens)) && decide (depth (.obj (lineObject message maxTokens)) ≤ JsonText.codec.reads)

variable {message maxTokens} in
theorem lineText_read (read : readsBack message maxTokens = true) :
    JsonText.codec.loads (lineText message maxTokens) = .ok (.obj (lineObject message maxTokens)) := by
  obtain ⟨whole,shallow⟩ := Bool.and_eq_true_iff.mp read
  exact JsonText.codec.loads_dumps _ whole (of_decide_eq_true shallow)

theorem body_get : get (lineObject message maxTokens) "body" = some (.obj (lineBody message maxTokens)) := by
  unfold lineObject
  rw [get_other (by decide +kernel),get_other (by decide +kernel),get_other (by decide +kernel),get_self]

theorem messages_get : get (lineBody message maxTokens) "messages" = some (.arr [message]) := get_self _ _ _

theorem tokens_get : get (lineBody message maxTokens) "max_tokens" = some maxTokens := by
  unfold lineBody
  rw [get_other (by decide +kernel),get_self]

theorem file_request (read : readsBack message maxTokens = true) (bounded : CheckedBound maxTokens) :
    RequestLine JsonText.codec chatEndpoint CheckedBound (lineText message maxTokens) (text "a")
      (lineBody message maxTokens) := by
  refine ⟨_,lineText_read read,get_self _ _ _,by decide +kernel,?_,?_,body_get _ _,⟨_,_,messages_get _ _⟩,?_⟩
  · unfold lineObject
    rw [get_other (by decide +kernel),get_self]
  · unfold lineObject
    rw [get_other (by decide +kernel),get_other (by decide +kernel),get_self]
  · rw [getOrNone,tokens_get]
    exact bounded

end

theorem file_line {message maxTokens : Json} {rawLine : Str} {obj body : Dict}
    (listed : rawLines (fileOf message maxTokens) = [lineText message maxTokens]) (read : readsBack message maxTokens = true)
    (member : rawLine ∈ rawLines (fileOf message maxTokens)) (decoded : JsonText.codec.loads rawLine = .ok (.obj obj))
    (stored : get obj "body" = some (.obj body)) : body = lineBody message maxTokens := by
  rw [listed,List.mem_singleton] at member
  rw [member,lineText_read read] at decoded
  rw [← Json.obj.inj (Except.ok.inj decoded),body_get] at stored
  exact (Json.obj.inj (Option.some.inj stored)).symm

theorem file_objects {maxTokens : Json} (listed : rawLines (fileOf sayHi maxTokens) = [lineText sayHi maxTokens])
    (read : readsBack sayHi maxTokens = true) : ObjectMessages JsonText.codec (fileOf sayHi maxTokens) := by
  intro rawLine member obj body decoded stored message inside
  rw [file_line listed read member decoded stored,messageList,messages_get] at inside
  exact ⟨_,List.mem_singleton.mp inside⟩

theorem exact_iff_small : Exact JsonText.codec chatEndpoint 1024 (fileOf sayHi (.int 5)) := by
  have listed : rawLines (fileOf sayHi (.int 5)) = [lineText sayHi (.int 5)] := by decide +kernel
  have read : readsBack sayHi (.int 5) = true := by decide +kernel
  refine (exact_iff (file_objects listed read)).2 fun both => ?_
  obtain ⟨rawLine,member,obj,body,decoded,stored,asked⟩ := both.2
  rw [file_line listed read member decoded stored,tokens_get] at asked
  cases asked

theorem true_is_no_integer : ¬ ∀ (codec : Codec) endpoint defaultMaxTokens raw, ObjectMessages codec raw →
    Exact codec endpoint defaultMaxTokens raw := by
  intro always
  have listed : rawLines (fileOf sayHi (.bool true)) = [lineText sayHi (.bool true)] := by decide +kernel
  have read : readsBack sayHi (.bool true) = true := by decide +kernel
  have objects := file_objects listed read
  have grammar : Grammar JsonText.codec chatEndpoint CheckedBound (fileOf sayHi (.bool true)) := by
    refine ⟨by rw [listed]; exact List.cons_ne_nil _ _,[(text "a",lineBody sayHi (.bool true))],?_,?_⟩
    · rw [listed]
      exact .cons (file_request _ _ read rfl) .nil
    · exact List.nodup_singleton _
  have truth : TrueBound JsonText.codec (fileOf sayHi (.bool true)) :=
    ⟨_,by rw [listed]; exact List.mem_cons_self,_,_,lineText_read read,body_get _ _,tokens_get _ _⟩
  have agrees := (always JsonText.codec chatEndpoint 1024 (fileOf sayHi (.bool true)) objects).1
  exact integer_no_true (agrees.1 (grammar_accepted objects grammar)) truth

end BatchGateway.InputGrammar
