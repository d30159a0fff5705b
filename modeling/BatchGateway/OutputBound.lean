import BatchGateway.JsonText
import BatchGateway.Records

namespace BatchGateway.OutputBound
open PythonText PythonJson BatchInput BatchOps Service LabelledRuns Records Dispatcher

-- The posted JSON body has the field, with this integer.
def carriesMaxTokens (body : Dict) (maxTokens : Int) : Bool :=
  match get body "max_tokens" with
  | some (.int n) => n == maxTokens
  | _ => false

-- The line's own body gives max_tokens as a JSON integer.
def givesInteger (body : Dict) : Bool :=
  match get body "max_tokens" with
  | some (.int _) => true
  | _ => false

theorem carries_resolved (body : Dict) (defaultMaxTokens : Int) :
    carriesMaxTokens body (resolvedMaxTokens defaultMaxTokens (getOrNone body "max_tokens")) = givesInteger body := by
  simp only [carriesMaxTokens,givesInteger,getOrNone]
  cases get body "max_tokens" with
  | none => rfl
  | some value => cases value <;> simp [resolvedMaxTokens]

variable {codec : Codec} {alpha : ℚ} {s m t : Service}

-- The row of a submitted line, in every later state.
theorem submitted_row {user : UserId} {inputFile : FileId} {endpoint window : Str} {lines : List ParsedLine}
    {now : Instant} {after : List Operation}
    (created : Step codec alpha s (.createBatch user inputFile endpoint window lines now) m)
    (later : Run (Step codec alpha) m after t) {i : Nat} {p : ParsedLine} (listed : lines[i]? = some p) :
    ∃ row, t.db.tasks[s.db.tasks.length + i]? = some row ∧
      Task.request row = Task.request (newTask s.db.batches.length p) := by
  obtain ⟨db,done,rfl⟩ := create_step created
  obtain ⟨_,_,_,_,_,rfl⟩ := createBatch_parts done
  refine (run_extends later).task ?_
  change (s.db.tasks ++ lines.map (newTask s.db.batches.length))[s.db.tasks.length + i]? = _
  rw [List.getElem?_append_right (Nat.le_add_right _ _),Nat.add_sub_cancel_left,List.getElem?_map,listed]
  rfl

-- What a node is asked to generate at most, against what was reserved for it.
theorem posted_output_bound {raw : Bytes} {endpoint : Str} {defaultMaxTokens : Int} {lines : List ParsedLine}
    (parsed : parseBatchInput codec endpoint defaultMaxTokens raw = .ok lines)
    {user : UserId} {inputFile : FileId} {url window : Str} {now : Instant}
    (created : Step codec alpha s (.createBatch user inputFile url window lines now) m)
    {after : List Operation} (later : Run (Step codec alpha) m after t)
    {i : Nat} {p : ParsedLine} (listed : lines[i]? = some p) (taskMaxAttempts : Int) (replies : Nat → Reply) :
    ∃ row, t.db.tasks[s.db.tasks.length + i]? = some row ∧
      row.reservedTokens = row.promptTokensEstimate + row.maxTokens ∧
      row.maxTokens = resolvedMaxTokens defaultMaxTokens (getOrNone p.body "max_tokens") ∧
      ((∀ body ∈ (executeRequests taskMaxAttempts replies row).posted, carriesMaxTokens body row.maxTokens = true) ↔
        givesInteger p.body = true) := by
  obtain ⟨row,found,same⟩ := submitted_row created later listed
  obtain ⟨valid,estimated⟩ := accepted_line (parseBatchInput_accepted parsed) (List.mem_of_getElem? listed)
  have bound : row.maxTokens = p.maxTokens := congrArg Request.maxTokens same
  have prompt : row.promptTokensEstimate = p.promptTokens := congrArg Request.promptTokensEstimate same
  have held : row.reservedTokens = p.promptTokens + p.maxTokens := congrArg Request.reservedTokens same
  have body : row.requestBody = p.body := congrArg Request.requestBody same
  have resolved := bound.trans (resolved_max_tokens valid estimated)
  refine ⟨row,found,by rw [held,prompt,bound],resolved,?_⟩
  obtain ⟨only,one⟩ := executeRequests_posted taskMaxAttempts replies row
  rw [← carries_resolved p.body defaultMaxTokens,← resolved]
  constructor
  · intro all
    rw [← body]
    exact all _ one
  · intro carried posted member
    rw [only posted member,body]
    exact carried

theorem posted_output_bound_given : ∃ (lines : List ParsedLine) (m : Service) (row : Task),
    parseBatchInput JsonText.codec supportedEndpoint 512 (inputFile [requestLine "a" ", \"max_tokens\": 5"]) = .ok lines ∧
    m.db.tasks[0]? = some row ∧ row.maxTokens = 5 ∧
    ∀ body ∈ (executeRequests 3 (fun _ => .failed []) row).posted, carriesMaxTokens body row.maxTokens = true := by
  have ran : submitted JsonText.codec (inputFile [requestLine "a" ", \"max_tokens\": 5"]) [.grant 1 1000 none]
      (fun lines s _ => s.db.tasks.length == 0 && lines.head?.any (fun p => givesInteger p.body &&
        resolvedMaxTokens 512 (getOrNone p.body "max_tokens") == 5)) = true := by decide +kernel
  obtain ⟨lines,s,m,parsed,_,created,facts⟩ := submitted_parts ran
  obtain ⟨empty,facts⟩ := Bool.and_eq_true_iff.mp facts
  obtain ⟨p,first,facts⟩ := (Option.any_eq_true _ _).mp facts
  obtain ⟨given,size⟩ := Bool.and_eq_true_iff.mp facts
  obtain ⟨row,found,_,bound,carried⟩ := posted_output_bound parsed created .nil (i := 0)
    (List.head?_eq_getElem? ▸ first) 3 (fun _ => .failed [])
  rw [Nat.add_zero,eq_of_beq empty] at found
  exact ⟨lines,m,row,parsed,found,bound.trans (eq_of_beq size),carried.mpr given⟩

-- A line that leaves the field out: 512 output tokens are reserved for it, the
-- node is told of no bound.
theorem omitted_bound_not_posted : ∃ (lines : List ParsedLine) (s m : Service) (row : Task),
    parseBatchInput JsonText.codec supportedEndpoint 512 (inputFile [requestLine "a" ""]) = .ok lines ∧
    Run (Step JsonText.codec (3/10)) {} [.grant 1 1000 none] s ∧ Step JsonText.codec (3/10) s (submitLines lines) m ∧
    m.db.tasks[0]? = some row ∧ row.maxTokens = 512 ∧
    ∃ body ∈ (executeRequests 3 (fun _ => .answered .null) row).posted, carriesMaxTokens body row.maxTokens = false := by
  have ran : submitted JsonText.codec (inputFile [requestLine "a" ""]) [.grant 1 1000 none]
      (fun _ _ m => m.db.tasks.head?.any (fun row => row.maxTokens == 512 &&
        (executeRequests 3 (fun _ => .answered .null) row).posted.any (fun body =>
          !carriesMaxTokens body row.maxTokens))) = true := by decide +kernel
  obtain ⟨lines,s,m,parsed,reached,created,facts⟩ := submitted_parts ran
  obtain ⟨row,first,facts⟩ := (Option.any_eq_true _ _).mp facts
  obtain ⟨size,facts⟩ := Bool.and_eq_true_iff.mp facts
  obtain ⟨body,posted,bare⟩ := List.any_eq_true.mp facts
  exact ⟨lines,s,m,row,parsed,reached,created,List.head?_eq_getElem? ▸ first,eq_of_beq size,body,posted,
    by simpa using bare⟩

end BatchGateway.OutputBound
