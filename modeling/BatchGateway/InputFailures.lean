import BatchGateway.InputGrammar

-- Which exceptions parse_batch_input lets through, and how many lines it reports.
namespace BatchGateway.InputFailures
open PythonText PythonJson Raising BatchInput InputGrammar

-- json.loads can raise more than JSONDecodeError: on deep nesting, and on an integer
-- of more than 4300 digits.
inductive DecoderFailure where
  | recursionError
  | valueError
  deriving DecidableEq

inductive Escape where
  | raised (e : Raised)
  | decoder (failure : DecoderFailure)

def escaping {α : Type} (x : Except Raised α) : Except Escape α := x.mapError .raised

section
variable (codec : Codec) (fails : Str → Option DecoderFailure) (endpoint : Str) (defaultMaxTokens : Int)

def readLine (idx : Nat) (rawLine : Str) (acc : Accumulated) : Except Escape Accumulated :=
  match fails rawLine with
  | some failure => .error (.decoder failure)
  | none => escaping (parseLine codec endpoint defaultMaxTokens idx rawLine acc)

def readLoop : Nat → List Str → Accumulated → Except Escape Accumulated
  | _, [], acc => .ok acc
  | idx, rawLine :: rest, acc => do
    let acc ← readLine codec fails endpoint defaultMaxTokens idx rawLine acc
    readLoop (idx + 1) rest acc

-- parse_batch_input over a decoder that fails in these ways as well.
def readBatchInput (raw : Bytes) : Except Escape (List ParsedLine) := do
  escaping (require (rawLines raw ≠ []) (.invalidRequest (text "Input file has no request lines.") "input_file_id"))
  let acc ← readLoop codec fails endpoint defaultMaxTokens 0 (rawLines raw) ⟨[],[],[]⟩
  escaping (require (acc.errors = []) (.invalidRequest (rejection acc.errors) "input_file_id"))
  return acc.parsed

-- The custom_id of a line that is valid on its own.
def validId (rawLine : Str) : Option Str := (returned (checkLine codec endpoint [] rawLine)).map Prod.fst

-- Invalid on its own, or with the custom_id of an earlier valid line.
def invalid (earlier : List Str) (rawLine : Str) : Bool :=
  match validId codec endpoint rawLine with
  | none => true
  | some customId => earlier.any (fun line => validId codec endpoint line == some customId)

def invalidCount (earlier : List Str) : List Str → Nat
  | [] => 0
  | rawLine :: rest =>
    (if invalid codec endpoint earlier rawLine then 1 else 0) + invalidCount (earlier ++ [rawLine]) rest

-- A list, or an InvalidRequestError that counts the invalid lines.
def Reported (raw : Bytes) : Prop :=
  (rawLines raw = [] ∧ readBatchInput codec fails endpoint defaultMaxTokens raw =
    .error (.raised (.invalidRequest (text "Input file has no request lines.") "input_file_id"))) ∨
  (rawLines raw ≠ [] ∧ invalidCount codec endpoint [] (rawLines raw) = 0 ∧
    ∃ lines, readBatchInput codec fails endpoint defaultMaxTokens raw = .ok lines) ∨
  ∃ errors, readBatchInput codec fails endpoint defaultMaxTokens raw =
      .error (.raised (.invalidRequest (rejection errors) "input_file_id")) ∧
    errors.length = invalidCount codec endpoint [] (rawLines raw) ∧ 0 < errors.length

-- A line the estimator is given has objects in its messages.
def Estimable (earlier : List Str) (rawLine : Str) : Prop :=
  ∀ customId body, checkLine codec endpoint [] rawLine = .ok (customId,body) →
    invalid codec endpoint earlier rawLine = false → Objects (messageList body)

def NothingEscapes (earlier raws : List Str) : Prop :=
  (∀ rawLine ∈ raws, fails rawLine = none) ∧
  ∀ before rawLine after, raws = before ++ rawLine :: after → Estimable codec endpoint (earlier ++ before) rawLine

end

variable {codec : Codec} {fails : Str → Option DecoderFailure} {endpoint : Str} {defaultMaxTokens : Int}

theorem estimate_escapes {messages : List Json} (other : ¬ Objects messages) :
    estimatePromptTokens messages = .error .attributeError := by
  induction messages with
  | nil => exact absurd (fun _ member => by cases member) other
  | cons message rest ih =>
    cases message with
    | obj members =>
      have later : ¬ Objects rest := by
        intro objects
        refine other fun message member => ?_
        rcases List.mem_cons.mp member with rfl | inside
        · exact ⟨_,rfl⟩
        · exact objects message inside
      rw [estimatePromptTokens,ih later]
      rfl
    | null | bool | int | float | str | arr => rfl

variable {rawLine : Str} {earlier raws seen : List Str} {acc : Accumulated} {idx : Nat} {raw : Bytes}

theorem nothingEscapes_cons : NothingEscapes codec fails endpoint earlier (rawLine :: raws) ↔
    (fails rawLine = none ∧ Estimable codec endpoint earlier rawLine) ∧
      NothingEscapes codec fails endpoint (earlier ++ [rawLine]) raws := by
  constructor
  · rintro ⟨decodes,estimable⟩
    refine ⟨⟨decodes rawLine List.mem_cons_self,?_⟩,fun line member => decodes line (List.mem_cons_of_mem _ member),?_⟩
    · simpa using estimable [] rawLine raws rfl
    · intro before line after listed
      rw [List.append_assoc]
      exact estimable (rawLine :: before) line after (by rw [listed]; rfl)
  · rintro ⟨⟨decodes,estimable⟩,others,later⟩
    refine ⟨fun line member => ?_,fun before line after listed => ?_⟩
    · rcases List.mem_cons.mp member with rfl | inside
      · exact decodes
      · exact others line inside
    · cases before with
      | nil =>
        obtain ⟨rfl,_⟩ := List.cons.inj listed
        rwa [List.append_nil]
      | cons first before =>
        obtain ⟨rfl,same⟩ := List.cons.inj listed
        have inner := later before line after same
        rwa [List.append_assoc] at inner

-- The ids seen are those of the valid lines so far.
def Covered (codec : Codec) (endpoint : Str) (earlier seen : List Str) : Prop :=
  ∀ customId, customId ∈ seen ↔ ∃ line ∈ earlier, validId codec endpoint line = some customId

def Client (e : Escape) : Prop := ∃ message param, e = .raised (.invalidRequest message param)

theorem validId_some {customId : Str} (named : validId codec endpoint rawLine = some customId) :
    ∃ body, checkLine codec endpoint [] rawLine = .ok (customId,body) := by
  obtain ⟨⟨name,body⟩,checked,rfl⟩ := Option.map_eq_some_iff.mp named
  exact ⟨body,returned_some.mp checked⟩

theorem validId_ok {customId : Str} {body : Dict} (checked : checkLine codec endpoint [] rawLine = .ok (customId,body)) :
    validId codec endpoint rawLine = some customId := by
  rw [validId,checked]
  rfl

theorem checkLine_alone {customId : Str} {body : Dict} (checked : checkLine codec endpoint seen rawLine = .ok (customId,body)) :
    checkLine codec endpoint [] rawLine = .ok (customId,body) :=
  checkLine_iff.mpr ⟨(checkLine_iff.mp checked).1,List.not_mem_nil⟩

theorem invalid_seen {customId : Str} (covers : Covered codec endpoint earlier seen)
    (named : validId codec endpoint rawLine = some customId) :
    invalid codec endpoint earlier rawLine = true ↔ customId ∈ seen := by
  rw [covers customId,invalid,named]
  simp [List.any_eq_true]

theorem covered_kept (covers : Covered codec endpoint earlier seen)
    (known : ∀ customId, validId codec endpoint rawLine = some customId → customId ∈ seen) :
    Covered codec endpoint (earlier ++ [rawLine]) seen := by
  intro customId
  rw [covers customId]
  constructor
  · exact fun ⟨line,member,named⟩ => ⟨line,List.mem_append_left _ member,named⟩
  · rintro ⟨line,member,named⟩
    rcases List.mem_append.mp member with old | new
    · exact ⟨line,old,named⟩
    · cases List.mem_singleton.mp new
      exact (covers customId).1 (known customId named)

theorem covered_added {customId : Str} (covers : Covered codec endpoint earlier seen)
    (named : validId codec endpoint rawLine = some customId) :
    Covered codec endpoint (earlier ++ [rawLine]) (seen ++ [customId]) := by
  intro other
  rw [List.mem_append,List.mem_singleton,covers other]
  constructor
  · rintro (⟨line,member,same⟩ | rfl)
    · exact ⟨line,List.mem_append_left _ member,same⟩
    · exact ⟨rawLine,List.mem_append_right _ (List.mem_singleton.mpr rfl),named⟩
  · rintro ⟨line,member,same⟩
    rcases List.mem_append.mp member with old | new
    · exact .inl ⟨line,old,same⟩
    · cases List.mem_singleton.mp new
      exact .inr (Option.some.inj (same.symm.trans named))

-- A line that is refused adds one error, whatever else it holds.
theorem refused_line (refused : ∀ customId body, checkLine codec endpoint acc.seenCustomIds rawLine ≠ .ok (customId,body)) :
    ∃ error, parseLine codec endpoint defaultMaxTokens idx rawLine acc = .ok {acc with errors := acc.errors ++ [error]} := by
  unfold parseLine
  cases checked : checkLine codec endpoint acc.seenCustomIds rawLine with
  | error fault => exact ⟨_,rfl⟩
  | ok pair => exact absurd checked (refused pair.1 pair.2)

-- What a line that raises nothing leaves behind.
structure Went (codec : Codec) (endpoint : Str) (earlier : List Str) (rawLine : Str) (acc after : Accumulated) : Prop where
  estimable : Estimable codec endpoint earlier rawLine
  counted : after.errors.length = acc.errors.length + if invalid codec endpoint earlier rawLine then 1 else 0
  covers : Covered codec endpoint (earlier ++ [rawLine]) after.seenCustomIds

theorem refused_went (covers : Covered codec endpoint earlier acc.seenCustomIds)
    (refused : ∀ customId body, checkLine codec endpoint acc.seenCustomIds rawLine ≠ .ok (customId,body)) :
    ∃ after, parseLine codec endpoint defaultMaxTokens idx rawLine acc = .ok after ∧
      Went codec endpoint earlier rawLine acc after := by
  obtain ⟨error,added⟩ : ∃ error, parseLine codec endpoint defaultMaxTokens idx rawLine acc = .ok {acc with
      errors := acc.errors ++ [error]} := refused_line refused
  have known : ∀ customId, validId codec endpoint rawLine = some customId → customId ∈ acc.seenCustomIds := by
    intro customId named
    obtain ⟨body,alone⟩ := validId_some named
    by_contra fresh
    exact refused customId body (checkLine_iff.mpr ⟨(checkLine_iff.mp alone).1,fresh⟩)
  have counted : invalid codec endpoint earlier rawLine = true := by
    cases named : validId codec endpoint rawLine with
    | none => rw [invalid,named]
    | some customId => exact (invalid_seen covers named).2 (known customId named)
  refine ⟨_,added,fun customId body _ valid => ?_,?_,covered_kept covers known⟩
  · rw [counted] at valid
    cases valid
  · rw [counted,if_pos rfl]
    exact List.length_append

-- A line that passes the checks is estimated, or AttributeError leaves the call.
theorem parseLine_cases (covers : Covered codec endpoint earlier acc.seenCustomIds) :
    (∃ after, parseLine codec endpoint defaultMaxTokens idx rawLine acc = .ok after ∧
      Went codec endpoint earlier rawLine acc after) ∨
    (parseLine codec endpoint defaultMaxTokens idx rawLine acc = .error .attributeError ∧
      ¬ Estimable codec endpoint earlier rawLine) := by
  cases checked : checkLine codec endpoint acc.seenCustomIds rawLine with
  | error fault =>
    refine .inl (refused_went covers fun customId body ok => ?_)
    rw [checked] at ok
    cases ok
  | ok pair =>
    obtain ⟨customId,body⟩ := pair
    obtain ⟨line,fresh⟩ := checkLine_iff.mp checked
    have alone := checkLine_alone checked
    have named := validId_ok alone
    have valid : invalid codec endpoint earlier rawLine = false :=
      Bool.eq_false_iff.mpr fun repeated => fresh ((invalid_seen covers named).1 repeated)
    unfold parseLine
    rw [checked]
    dsimp only
    by_cases objects : Objects (messageList body)
    · rw [estimate_request line objects]
      refine .inl ⟨_,rfl,fun other stored again _ => ?_,?_,covered_added covers named⟩
      · cases alone.symm.trans again
        exact objects
      · rw [valid]
        rfl
    · refine .inr ⟨?_,fun estimable => objects (estimable customId body alone valid)⟩
      have escapes : estimateRequestTokens codec body defaultMaxTokens = .error .attributeError := by
        unfold estimateRequestTokens
        rw [line.read]
        change (estimatePromptTokens (messageList body) >>= _) = _
        rw [estimate_escapes objects]
        rfl
      rw [escapes]
      rfl

theorem readLine_cases (covers : Covered codec endpoint earlier acc.seenCustomIds) :
    (∃ after, readLine codec fails endpoint defaultMaxTokens idx rawLine acc = .ok after ∧ fails rawLine = none ∧
      Went codec endpoint earlier rawLine acc after) ∨
    ∃ e, readLine codec fails endpoint defaultMaxTokens idx rawLine acc = .error e ∧ ¬ Client e ∧
      ¬ (fails rawLine = none ∧ Estimable codec endpoint earlier rawLine) := by
  unfold readLine
  cases failing : fails rawLine with
  | some failure =>
    refine .inr ⟨_,rfl,?_,fun decodes => ?_⟩
    · rintro ⟨message,param,same⟩
      cases same
    · cases decodes.1
  | none =>
    dsimp only
    have line : (∃ after, parseLine codec endpoint defaultMaxTokens idx rawLine acc = .ok after ∧ _) ∨ _ :=
      parseLine_cases covers
    rcases line with ⟨after,parsed,went⟩ | ⟨failed,escapes⟩
    · rw [parsed]
      exact .inl ⟨after,rfl,rfl,went⟩
    · rw [failed]
      refine .inr ⟨_,rfl,?_,fun fine => escapes fine.2⟩
      rintro ⟨message,param,same⟩
      cases same

-- How the loop goes: it counts the invalid lines, or something leaves the call.
theorem readLoop_cases (covers : Covered codec endpoint earlier acc.seenCustomIds) :
    (∃ after, readLoop codec fails endpoint defaultMaxTokens idx raws acc = .ok after ∧
      NothingEscapes codec fails endpoint earlier raws ∧
      after.errors.length = acc.errors.length + invalidCount codec endpoint earlier raws) ∨
    ∃ e, readLoop codec fails endpoint defaultMaxTokens idx raws acc = .error e ∧ ¬ Client e ∧
      ¬ NothingEscapes codec fails endpoint earlier raws := by
  induction raws generalizing idx acc earlier with
  | nil =>
    refine .inl ⟨acc,rfl,⟨fun line member => (by cases member),fun before line after listed => ?_⟩,rfl⟩
    simp at listed
  | cons rawLine raws ih =>
    rw [nothingEscapes_cons,readLoop]
    have line : (∃ after, readLine codec fails endpoint defaultMaxTokens idx rawLine acc = .ok after ∧ _) ∨ _ :=
      readLine_cases covers
    rcases line with ⟨next,read,decodes,went⟩ | ⟨e,failed,outside,escapes⟩
    · rw [read]
      have rest : (∃ after, readLoop codec fails endpoint defaultMaxTokens (idx + 1) raws next = .ok after ∧ _) ∨ _ :=
        ih went.covers
      rcases rest with ⟨after,looped,nothing,counted⟩ | ⟨e,failed,outside,escapes⟩
      · refine .inl ⟨after,looped,⟨⟨decodes,went.estimable⟩,nothing⟩,?_⟩
        rw [counted,went.counted,invalidCount]
        omega
      · exact .inr ⟨e,failed,outside,fun all => escapes all.2⟩
    · rw [failed]
      exact .inr ⟨e,rfl,outside,fun all => escapes all.1⟩

theorem covered_nil : Covered codec endpoint [] [] := by
  intro customId
  simp

-- Where json.loads raises nothing else, this is parse_batch_input.
theorem readLoop_decodes : readLoop codec (fun _ => none) endpoint defaultMaxTokens idx raws acc =
    escaping (parseLoop codec endpoint defaultMaxTokens idx raws acc) := by
  induction raws generalizing idx acc with
  | nil => rfl
  | cons rawLine raws ih =>
    rw [readLoop,parseLoop,readLine]
    cases parseLine codec endpoint defaultMaxTokens idx rawLine acc with
    | error e => rfl
    | ok next => exact ih

theorem read_decodes : readBatchInput codec (fun _ => none) endpoint defaultMaxTokens raw =
    escaping (parseBatchInput codec endpoint defaultMaxTokens raw) := by
  unfold readBatchInput parseBatchInput
  simp only [escaping,mapError_bind,readLoop_decodes]
  rfl

theorem read_present (present : rawLines raw ≠ []) : readBatchInput codec fails endpoint defaultMaxTokens raw =
    readLoop codec fails endpoint defaultMaxTokens 0 (rawLines raw) ⟨[],[],[]⟩ >>= fun acc =>
      if acc.errors = [] then .ok acc.parsed
      else .error (.raised (.invalidRequest (rejection acc.errors) "input_file_id")) := by
  unfold readBatchInput
  rw [require,if_pos (by simpa using present)]
  refine congrArg (fun f => readLoop codec fails endpoint defaultMaxTokens 0 (rawLines raw) ⟨[],[],[]⟩ >>= f) ?_
  funext acc
  by_cases clean : acc.errors = [] <;> simp [require,clean] <;> rfl

theorem reported_nothing (reported : Reported codec fails endpoint defaultMaxTokens raw) :
    NothingEscapes codec fails endpoint [] (rawLines raw) := by
  by_cases present : rawLines raw = []
  · rw [present]
    exact ⟨fun line member => (by cases member),fun before line after listed => by simp at listed⟩
  have outcome : (∃ after, readLoop codec fails endpoint defaultMaxTokens 0 (rawLines raw) ⟨[],[],[]⟩ = .ok after ∧ _) ∨ _ :=
    readLoop_cases covered_nil
  rcases outcome with ⟨after,looped,nothing,counted⟩ | ⟨e,failed,outside,escapes⟩
  · exact nothing
  · unfold Reported at reported
    rw [read_present present,failed] at reported
    refine absurd ?_ outside
    rcases reported with ⟨_,same⟩ | ⟨_,_,lines,same⟩ | ⟨errors,same,_⟩
    · exact ⟨_,_,Except.error.inj same⟩
    · cases same
    · exact ⟨_,_,Except.error.inj same⟩

theorem nothing_reported (nothing : NothingEscapes codec fails endpoint [] (rawLines raw)) :
    Reported codec fails endpoint defaultMaxTokens raw := by
  by_cases present : rawLines raw = []
  · refine .inl ⟨present,?_⟩
    unfold readBatchInput
    rw [require,if_neg (by simpa using present)]
    rfl
  have outcome : (∃ after, readLoop codec fails endpoint defaultMaxTokens 0 (rawLines raw) ⟨[],[],[]⟩ = .ok after ∧ _) ∨ _ :=
    readLoop_cases covered_nil
  rcases outcome with ⟨after,looped,_,counted⟩ | ⟨e,failed,outside,escapes⟩
  · unfold Reported
    rw [read_present present,looped]
    simp only [List.length_nil,Nat.zero_add] at counted
    refine .inr ?_
    by_cases clean : after.errors = []
    · rw [clean] at counted
      exact .inl ⟨present,counted.symm,after.parsed,if_pos clean⟩
    · exact .inr ⟨after.errors,if_neg clean,counted,List.length_pos_iff.mpr clean⟩
  · exact absurd nothing escapes

-- Client errors alone leave the call exactly if every line decodes or is refused as
-- JSON, and the estimator meets objects only.
theorem reported_iff (raw : Bytes) : Reported codec fails endpoint defaultMaxTokens raw ↔
    NothingEscapes codec fails endpoint [] (rawLines raw) := ⟨reported_nothing,nothing_reported⟩

-- A message that is a string has no .get.
theorem string_message_escapes : ¬ ∀ (codec : Codec) fails endpoint defaultMaxTokens raw,
    Reported codec fails endpoint defaultMaxTokens raw := by
  intro always
  have listed : rawLines (fileOf (.str (text "hi")) .null) = [lineText (.str (text "hi")) .null] := by decide +kernel
  have reported := always JsonText.codec (fun _ => none) chatEndpoint 1024 (fileOf (.str (text "hi")) .null)
  have estimable := (reported_nothing reported).2 [] _ [] listed
  have checked : checkLine JsonText.codec chatEndpoint [] (lineText (.str (text "hi")) .null) = .ok _ :=
    checkLine_iff.mpr ⟨file_request _ _ (by decide +kernel) rfl,List.not_mem_nil⟩
  have valid : invalid JsonText.codec chatEndpoint [] (lineText (.str (text "hi")) .null) = false := by
    rw [invalid,validId_ok checked]
    rfl
  obtain ⟨members,same⟩ := estimable _ _ checked valid (.str (text "hi")) (by
    rw [messageList,messages_get]
    exact List.mem_cons_self)
  cases same

end BatchGateway.InputFailures
