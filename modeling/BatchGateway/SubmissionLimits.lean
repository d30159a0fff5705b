import Mathlib.Algebra.Order.BigOperators.Group.List
import BatchGateway.BatchOps
import BatchGateway.InputGrammar

-- A submission near and beyond the 64-bit columns: which error ends it.
namespace BatchGateway.SubmissionLimits
open PythonText PythonJson Raising BatchInput BatchOps

def reserveCall (user : UserId) (lines : List ParsedLine) (batchId : BatchId) : Ledger.Call :=
  Ledger.reserve user (totalReserve lines) (some batchId)
    (some (text "batch submit (" ++ text (toString lines.length) ++ text " requests)"))

structure ErrorResponse where
  statusCode : Nat
  message : Str
  type : String
  code : String

-- insufficient_budget_handler; the other errors have no handler.
def insufficientBudgetHandler (requested available : Int) : ErrorResponse where
  statusCode := 429
  message := text "This request needs " ++ text (toString requested) ++ text " tokens but only " ++
    text (toString available) ++ text " remain in your budget."
  type := "insufficient_quota_error"
  code := "insufficient_quota"

def handled : Raised → Option ErrorResponse
  | .insufficientBudget requested available => some (insufficientBudgetHandler requested available)
  | _ => none

-- A batch where the total fits the budget, else an InsufficientBudgetError and its 429.
structure Verdict {α : Type} (total available : Int) (x : Except Raised α) : Prop where
  fits : total ≤ available → ∃ a, x = .ok a
  exceeds : available < total → ∃ e response, x = .error e ∧ e = .insufficientBudget total available ∧
    handled e = some response ∧ response.statusCode = 429

-- The rows of a submission can be stored, and so can the budget if it has room.
structure Storable (codec : Codec) (budget : Budget) (endpoint window : Str) (metadata : Option Json)
    (lines : List ParsedLine) : Prop where
  positive : 0 < totalReserve lines
  described : metadata.all (nests codec .described) = true
  texts : (encode endpoint).isSome = true ∧ (encode window).isSome = true
  total : fitsInteger (totalReserve lines) = true
  nested : ∀ p ∈ lines, nests codec .submitted (.obj p.body) = true
  tasks : ∀ p ∈ lines, (newTask 0 p).fits = true
  encodes : ∀ p ∈ lines, (encode p.customId).isSome = true
  room : totalReserve lines ≤ budget.availableTokens → budget.reservedTokens + totalReserve lines < 2^63

variable {codec : Codec} {user : UserId} {inputFile : FileId} {endpoint window : Str} {lines : List ParsedLine} {now : Instant}
  {db : Db} {metadata : Option Json}

-- A call succeeds, or fails with an error no handler maps, by a condition.
def Decides {α : Type} (x : Except Raised α) (a : α) (condition : Prop) : Prop :=
  (x = .ok a ∧ condition) ∨ ∃ e, x = .error e ∧ handled e = none ∧ ¬ condition

theorem require_decides {e : Raised} (condition : Bool) (unhandled : handled e = none) :
    Decides (require condition e) () (condition = true) := by
  cases condition with
  | true => exact .inl ⟨rfl,rfl⟩
  | false => exact .inr ⟨e,rfl,unhandled,Bool.false_ne_true⟩

theorem Decides.bind {α β : Type} {x : Except Raised α} {f : α → Except Raised β} {a : α} {b : β} {p q : Prop}
    (first : Decides x a p) (then_ : Decides (f a) b q) : Decides (x >>= f) b (p ∧ q) := by
  rcases first with ⟨rfl,holds⟩ | ⟨e,rfl,unhandled,fails⟩
  · rcases then_ with ⟨second,also⟩ | ⟨e,second,unhandled,fails⟩
    · exact .inl ⟨second,holds,also⟩
    · exact .inr ⟨e,second,unhandled,fun both => fails both.2⟩
  · exact .inr ⟨e,rfl,unhandled,fun both => fails both.1⟩

theorem Decides.congr {α : Type} {x : Except Raised α} {a : α} {p q : Prop} (decides : Decides x a p) (same : p ↔ q) :
    Decides x a q := by
  rwa [Decides,← same]

def BindsAs (p : ParsedLine) : Prop := (encode p.customId).isSome = true ∧ (newTask 0 p).fits = true

theorem bindTask_decides (p : ParsedLine) : Decides (bindTask p) () (BindsAs p) :=
  (require_decides _ rfl).bind (require_decides _ rfl)

theorem bindTasks_decides (lines : List ParsedLine) : Decides (bindTasks lines) () (∀ p ∈ lines, BindsAs p) := by
  induction lines with
  | nil => exact .inl ⟨rfl,fun p member => by cases member⟩
  | cons p rest ih =>
    refine ((bindTask_decides p).bind ih).congr ?_
    rw [List.forall_mem_cons]

theorem serialise_decides (lines : List ParsedLine) :
    Decides (serialise codec lines) () (∀ p ∈ lines, nests codec .submitted (.obj p.body) = true) :=
  (require_decides _ rfl).congr List.all_eq_true

theorem bindBatch_decides (batch : Batch) : Decides (bindBatch batch) ()
    (((encode batch.endpoint).isSome = true ∧ (encode batch.completionWindow).isSome = true) ∧
      fitsInteger batch.reservedTokens = true) :=
  ((require_decides _ rfl).congr Bool.and_eq_true_iff).bind (require_decides _ rfl)

theorem flushRows_decides (batch : Batch) (lines : List ParsedLine) : Decides (flushRows codec metadata batch lines) ()
    (metadata.all (nests codec .described) = true ∧
      (((encode batch.endpoint).isSome = true ∧ (encode batch.completionWindow).isSome = true) ∧
        fitsInteger batch.reservedTokens = true) ∧
      (∀ p ∈ lines, nests codec .submitted (.obj p.body) = true) ∧ ∀ p ∈ lines, BindsAs p) :=
  (require_decides _ rfl).bind ((bindBatch_decides batch).bind ((serialise_decides lines).bind (bindTasks_decides lines)))

-- Everything before the comparison with the budget.
def Flushes (codec : Codec) (endpoint window : Str) (metadata : Option Json) (lines : List ParsedLine) : Prop :=
  0 < totalReserve lines ∧ metadata.all (nests codec .described) = true ∧
    (((encode endpoint).isSome = true ∧ (encode window).isSome = true) ∧ fitsInteger (totalReserve lines) = true) ∧
    (∀ p ∈ lines, nests codec .submitted (.obj p.body) = true) ∧ ∀ p ∈ lines, BindsAs p

theorem check_decides (user : UserId) (lines : List ParsedLine) (batchId : BatchId) :
    Decides (reserveCall user lines batchId).check () (0 < totalReserve lines) := by
  change Decides (Ledger.positive "reserve amount must be positive" (totalReserve lines)) _ _
  unfold Ledger.positive
  by_cases none : totalReserve lines ≤ 0
  · rw [if_pos none]
    exact .inr ⟨_,rfl,rfl,not_lt.mpr none⟩
  · rw [if_neg none]
    exact .inl ⟨rfl,not_le.mp none⟩

theorem perform_split (flush : Except Raised Unit) (call : Ledger.Call) (db : Db) :
    Ledger.perform flush call db = (call.check >>= fun _ => flush) >>= fun _ => Ledger.perform (.ok ()) call db := by
  unfold Ledger.perform
  cases call.check with
  | error e => rfl
  | ok u => cases flush <;> rfl

-- The effects in order: reserve's test of the amount, the flush by its SELECT, and then
-- what a session without waiting rows would do.
theorem createBatch_split : createBatch codec user inputFile endpoint window lines now db metadata = (do
    (do
      (reserveCall user lines db.batches.length).check
      flushRows codec metadata (newBatch user inputFile endpoint window lines now) lines)
    let db' ← Ledger.perform (.ok ()) (reserveCall user lines db.batches.length)
      (addBatch db (newBatch user inputFile endpoint window lines now) lines)
    return (db',db.batches.length)) := by
  unfold createBatch
  dsimp only
  rw [perform_split]
  exact bind_assoc (m := Except Raised) _ _ _

theorem flush_decides (user : UserId) (inputFile : FileId) (endpoint window : Str) (lines : List ParsedLine) (now : Instant)
    (batchId : BatchId) : Decides (do
      (reserveCall user lines batchId).check
      flushRows codec metadata (newBatch user inputFile endpoint window lines now) lines) ()
        (Flushes codec endpoint window metadata lines) :=
  (check_decides user lines batchId).bind (flushRows_decides (newBatch user inputFile endpoint window lines now) lines)

theorem createBatch_blocked (blocked : ¬ Flushes codec endpoint window metadata lines) :
    ∃ e, createBatch codec user inputFile endpoint window lines now db metadata = .error e ∧ handled e = none := by
  rw [createBatch_split]
  rcases flush_decides user inputFile endpoint window lines now db.batches.length with ⟨_,flushes⟩ | ⟨e,failed,unhandled,_⟩
  · exact absurd flushes blocked
  · rw [failed]
    exact ⟨e,rfl,unhandled⟩

theorem createBatch_overflows (large : 2^63 ≤ totalReserve lines) (described : metadata.all (nests codec .described) = true)
    (texts : (encode endpoint).isSome = true ∧ (encode window).isSome = true) :
    createBatch codec user inputFile endpoint window lines now db metadata = .error .overflowError := by
  have outside : fitsInteger (totalReserve lines) = false := by
    rw [← Bool.not_eq_true,fits_iff]
    omega
  have checked : (reserveCall user lines db.batches.length).check = .ok () := if_neg (by omega)
  have bound : bindBatch (newBatch user inputFile endpoint window lines now) = .error .overflowError := by
    simp only [bindBatch,newBatch,texts,outside,Bool.and_self]
    rfl
  have flushed : flushRows codec metadata (newBatch user inputFile endpoint window lines now) lines = .error .overflowError := by
    simp only [flushRows,described,bound]
    rfl
  rw [createBatch_split,checked,flushed]
  rfl

theorem createBatch_flushed (flushes : Flushes codec endpoint window metadata lines) :
    createBatch codec user inputFile endpoint window lines now db metadata = (do
      let db' ← Ledger.perform (.ok ()) (reserveCall user lines db.batches.length)
        (addBatch db (newBatch user inputFile endpoint window lines now) lines)
      return (db',db.batches.length)) := by
  rw [createBatch_split]
  rcases flush_decides user inputFile endpoint window lines now db.batches.length with ⟨passed,_⟩ | ⟨e,_,_,fails⟩
  · rw [passed]
    rfl
  · exact absurd flushes fails

-- The comparison, and the commit of the budget row and its entry.
theorem reserve_exceeds (db : Db) (batchId : BatchId) (positive : 0 < totalReserve lines)
    (exceeds : (db.getOrCreateBudget user).availableTokens < totalReserve lines) :
    Ledger.perform (.ok ()) (reserveCall user lines batchId) db =
      .error (.insufficientBudget (totalReserve lines) (db.getOrCreateBudget user).availableTokens) := by
  unfold Ledger.perform reserveCall Ledger.reserve Ledger.positive
  simp only [if_neg (not_le.mpr positive),gt_iff_lt,if_pos exceeds]
  rfl

def reservedRow (budget : Budget) (lines : List ParsedLine) : Budget :=
  {budget with reservedTokens := budget.reservedTokens + totalReserve lines}

def reserveEntry (user : UserId) (lines : List ParsedLine) (batchId : BatchId) : LedgerEntry where
  userId := user
  entryType := .reserve
  reservedDelta := totalReserve lines
  batchId := some batchId
  note := some (text "batch submit (" ++ text (toString lines.length) ++ text " requests)")

theorem reserve_commits {batchId : BatchId} (positive : 0 < totalReserve lines)
    (enough : totalReserve lines ≤ (db.getOrCreateBudget user).availableTokens) :
    Ledger.perform (.ok ()) (reserveCall user lines batchId) db = (do
      require ((reservedRow (db.getOrCreateBudget user) lines).fits && (reserveEntry user lines batchId).fits) .overflowError
      return Ledger.post db user (reservedRow (db.getOrCreateBudget user) lines) (reserveEntry user lines batchId)) := by
  unfold Ledger.perform reserveCall Ledger.reserve Ledger.positive
  simp only [if_neg (not_le.mpr positive),gt_iff_lt,if_neg (not_lt.mpr enough)]
  rfl

-- The row stays in its columns unless the reserved tokens leave theirs upwards.
theorem columns_fit {budget : Budget} {batchId : BatchId} (stored : budget.fits = true)
    (flushes : Flushes codec endpoint window metadata lines) :
    ((reservedRow budget lines).fits && (reserveEntry user lines batchId).fits) = true ↔
      budget.reservedTokens + totalReserve lines < 2^63 := by
  obtain ⟨positive,_,⟨_,total⟩,_⟩ := flushes
  simp only [Budget.fits,Bool.and_eq_true,fits_iff] at stored total
  simp only [reservedRow,reserveEntry,Budget.fits,LedgerEntry.fits,Bool.and_eq_true,fits_iff]
  omega

theorem require_then {α : Type} (condition : Bool) (e : Raised) (a : α) (unhandled : handled e = none) :
    Decides (do require condition e; return a) a (condition = true) := by
  cases condition with
  | true => exact .inl ⟨rfl,rfl⟩
  | false => exact .inr ⟨_,rfl,unhandled,Bool.false_ne_true⟩

theorem reserve_fits (db : Db) (batchId : BatchId) (flushes : Flushes codec endpoint window metadata lines)
    (stored : (db.getOrCreateBudget user).fits = true)
    (enough : totalReserve lines ≤ (db.getOrCreateBudget user).availableTokens) : ∃ after,
    Decides (Ledger.perform (.ok ()) (reserveCall user lines batchId) db) after
      ((db.getOrCreateBudget user).reservedTokens + totalReserve lines < 2^63) := by
  refine ⟨Ledger.post db user (reservedRow (db.getOrCreateBudget user) lines) (reserveEntry user lines batchId),?_⟩
  rw [reserve_commits flushes.1 enough]
  exact (require_then _ _ _ rfl).congr (columns_fit stored flushes)

theorem storable_iff {budget : Budget} : Storable codec budget endpoint window metadata lines ↔
    Flushes codec endpoint window metadata lines ∧ (totalReserve lines ≤ budget.availableTokens → budget.reservedTokens + totalReserve lines < 2^63) := by
  constructor
  · intro valid
    exact ⟨⟨valid.positive,valid.described,⟨valid.texts,valid.total⟩,valid.nested,
      fun p member => ⟨valid.encodes p member,valid.tasks p member⟩⟩,valid.room⟩
  · rintro ⟨⟨positive,described,⟨texts,total⟩,nested,binds⟩,room⟩
    exact ⟨positive,described,texts,total,nested,fun p member => (binds p member).2,fun p member => (binds p member).1,room⟩

theorem verdict_iff (stored : (db.getOrCreateBudget user).fits = true) :
    Verdict (totalReserve lines) (db.getOrCreateBudget user).availableTokens
        (createBatch codec user inputFile endpoint window lines now db metadata) ↔
      Storable codec (db.getOrCreateBudget user) endpoint window metadata lines := by
  rw [storable_iff]
  by_cases flushes : Flushes codec endpoint window metadata lines
  · rw [and_iff_right flushes,createBatch_flushed flushes]
    by_cases enough : totalReserve lines ≤ (db.getOrCreateBudget user).availableTokens
    · obtain ⟨after,decides⟩ := reserve_fits (addBatch db (newBatch user inputFile endpoint window lines now) lines)
        db.batches.length flushes stored enough
      rcases decides with ⟨committed,room⟩ | ⟨e,failed,_,full⟩
      · rw [committed]
        exact iff_of_true ⟨fun _ => ⟨_,rfl⟩,fun exceeds => absurd enough (not_le.mpr exceeds)⟩ (fun _ => room)
      · rw [failed]
        refine iff_of_false (fun verdict => ?_) (fun room => full (room enough))
        obtain ⟨a,same⟩ := verdict.fits enough
        cases same
    · refine iff_of_true ⟨fun fits => absurd fits enough,fun exceeds => ?_⟩ (fun fits => absurd fits enough)
      have refused := reserve_exceeds (addBatch db (newBatch user inputFile endpoint window lines now) lines)
        db.batches.length flushes.1 exceeds
      rw [refused]
      exact ⟨_,_,rfl,rfl,rfl,rfl⟩
  · obtain ⟨e,failed,unhandled⟩ : ∃ e, createBatch codec user inputFile endpoint window lines now db metadata = .error e ∧ _ :=
      createBatch_blocked flushes
    refine iff_of_false (fun verdict => ?_) (fun both => flushes both.1)
    rw [failed] at verdict
    rcases le_or_gt (totalReserve lines) (db.getOrCreateBudget user).availableTokens with enough | exceeds
    · obtain ⟨a,same⟩ := verdict.fits enough
      cases same
    · obtain ⟨other,response,same,_,mapped,_⟩ := verdict.exceeds exceeds
      cases same
      rw [unhandled] at mapped
      cases mapped

variable {defaultMaxTokens : Int} {raw : Bytes}

theorem countTextTokens_nonnegative (s : Str) : 0 ≤ countTextTokens s := by
  unfold countTextTokens
  split <;> omega

theorem messageTokens_nonnegative (message : Dict) : 0 ≤ messageTokens message := by
  have content := countTextTokens_nonnegative (messageText (getOrNone message "content"))
  unfold messageTokens perMessageOverhead
  split
  · rename_i name _
    have named := countTextTokens_nonnegative name
    omega
  · omega

theorem estimatePromptTokens_positive {messages : List Json} {total : Int}
    (estimated : estimatePromptTokens messages = .ok total) : 0 < total := by
  induction messages generalizing total with
  | nil =>
    cases estimated
    decide
  | cons message rest ih =>
    cases message with
    | obj members =>
      obtain ⟨later,counted,same⟩ := bind_ok estimated
      cases same
      have tail := ih counted
      have head := messageTokens_nonnegative members
      omega
    | null | bool | int | float | str | arr => cases estimated

theorem promptTokens_positive {body : Dict} {promptTokens maxTokens : Int}
    (estimated : estimateRequestTokens codec body defaultMaxTokens = .ok (promptTokens,maxTokens)) : 0 < promptTokens := by
  unfold estimateRequestTokens at estimated
  obtain ⟨messages,_,estimated⟩ := bind_ok estimated
  obtain ⟨total,counted,estimated⟩ := bind_ok estimated
  have positive := estimatePromptTokens_positive counted
  split at estimated
  · cases estimated
    exact positive
  · split at estimated
    · cases estimated
      exact positive
    · cases estimated

theorem maxTokens_nonnegative {maxTokens : Json} (sign : 0 ≤ defaultMaxTokens) (valid : maxTokensValid maxTokens = true) :
    0 ≤ resolvedMaxTokens defaultMaxTokens maxTokens := by
  cases maxTokens with
  | int n =>
    have positive : 0 < n := by simpa [maxTokensValid] using valid
    exact positive.le
  | bool b =>
    cases b with
    | true => exact Int.one_nonneg
    | false => cases valid
  | null => exact sign
  | float | str | arr | obj => cases valid

-- What a line reserves is positive and at most the total.
theorem parsed_amounts (sign : 0 ≤ defaultMaxTokens)
    (parsed : parseBatchInput codec endpoint defaultMaxTokens raw = .ok lines) :
    0 < totalReserve lines ∧ ∀ p ∈ lines, 0 < p.promptTokens ∧ 0 ≤ p.maxTokens ∧ p.reservedTokens ≤ totalReserve lines := by
  have accepted := parseBatchInput_accepted parsed
  have amounts : ∀ p ∈ lines, 0 < p.promptTokens ∧ 0 ≤ p.maxTokens := by
    intro p member
    obtain ⟨valid,estimated⟩ := accepted_line accepted member
    refine ⟨promptTokens_positive estimated,?_⟩
    rw [resolved_max_tokens valid estimated]
    exact maxTokens_nonnegative sign valid
  have each : ∀ n ∈ lines.map ParsedLine.reservedTokens, 0 < n := by
    intro n listed
    obtain ⟨p,member,rfl⟩ := List.mem_map.mp listed
    exact add_pos_of_pos_of_nonneg (amounts p member).1 (amounts p member).2
  have present : lines ≠ [] := by
    rintro rfl
    have sizes := (InputGrammar.accepted_at accepted).1
    exact (InputGrammar.accepted_grammar parsed).1 (List.length_eq_zero_iff.mp sizes.symm)
  refine ⟨List.sum_pos _ each (by simpa using present),fun p member => ⟨(amounts p member).1,(amounts p member).2,?_⟩⟩
  exact List.single_le_sum (fun n listed => (each n listed).le) _ (List.mem_map_of_mem member)

-- Without negative amounts only the total can leave its column.
theorem storable_parsed {budget : Budget} (sign : 0 ≤ defaultMaxTokens) (stored : budget.fits = true)
    (used : 0 ≤ budget.usedTokens) (parsed : parseBatchInput codec endpoint defaultMaxTokens raw = .ok lines) :
    Storable codec budget endpoint window metadata lines ↔ totalReserve lines < 2^63 ∧
      metadata.all (nests codec .described) = true ∧ ((encode endpoint).isSome = true ∧ (encode window).isSome = true) ∧
      ∀ p ∈ lines, (encode p.customId).isSome = true ∧ nests codec .submitted (.obj p.body) = true := by
  obtain ⟨positive,amounts⟩ := parsed_amounts sign parsed
  constructor
  · intro valid
    exact ⟨(fits_iff.mp valid.total).2,valid.described,valid.texts,fun p member => ⟨valid.encodes p member,valid.nested p member⟩⟩
  · rintro ⟨bounded,described,texts,each⟩
    refine ⟨positive,described,texts,fits_iff.mpr ⟨by omega,bounded⟩,fun p member => (each p member).2,fun p member => ?_,
      fun p member => (each p member).1,fun enough => ?_⟩
    · obtain ⟨prompt,output,share⟩ := amounts p member
      have reserved : p.reservedTokens = p.promptTokens + p.maxTokens := rfl
      simp only [Task.fits,newTask,Option.all_none,Bool.and_true,Bool.and_eq_true,fits_iff]
      omega
    · simp only [Budget.fits,Bool.and_eq_true,fits_iff] at stored
      unfold Budget.availableTokens at enough
      omega

-- Whether a submission is accepted or refused as over budget depends on the columns too.
theorem budget_verdict_iff (parsed : parseBatchInput codec endpoint defaultMaxTokens raw = .ok lines)
    (stored : (db.getOrCreateBudget user).fits = true) :
    (Verdict (totalReserve lines) (db.getOrCreateBudget user).availableTokens
        (createBatch codec user inputFile endpoint window lines now db metadata) ↔
      Storable codec (db.getOrCreateBudget user) endpoint window metadata lines) ∧
    (0 ≤ defaultMaxTokens → 0 ≤ (db.getOrCreateBudget user).usedTokens →
      (Storable codec (db.getOrCreateBudget user) endpoint window metadata lines ↔
        totalReserve lines < 2^63 ∧
          metadata.all (nests codec .described) = true ∧ ((encode endpoint).isSome = true ∧ (encode window).isSome = true) ∧
          ∀ p ∈ lines, (encode p.customId).isSome = true ∧ nests codec .submitted (.obj p.body) = true)) :=
  ⟨verdict_iff stored,fun sign used => storable_parsed sign stored used parsed⟩

section
open InputGrammar

theorem one_line (maxTokens : Json) (bounded : CheckedBound maxTokens)
    (listed : rawLines (fileOf sayHi maxTokens) = [lineText sayHi maxTokens]) (read : readsBack sayHi maxTokens = true) :
    ∃ lines, parseBatchInput JsonText.codec chatEndpoint 512 (fileOf sayHi maxTokens) = .ok lines := by
  refine grammar_accepted (file_objects listed read) ⟨by rw [listed]; exact List.cons_ne_nil _ _,
    [(text "a",lineBody sayHi maxTokens)],?_,List.nodup_singleton _⟩
  rw [listed]
  exact .cons (file_request _ _ read bounded) .nil

theorem one_line_total {n : Int} {lines : List ParsedLine} (listed : rawLines (fileOf sayHi (.int n)) = [lineText sayHi (.int n)])
    (read : readsBack sayHi (.int n) = true) (parsed : parseBatchInput JsonText.codec chatEndpoint 512 (fileOf sayHi (.int n)) = .ok lines) :
    n < totalReserve lines := by
  obtain ⟨sizes,each⟩ := accepted_at (parseBatchInput_accepted parsed)
  obtain ⟨_,amounts⟩ := parsed_amounts (by decide) parsed
  rw [listed] at sizes each
  obtain ⟨p,rfl⟩ := List.length_eq_one_iff.mp sizes
  obtain ⟨_,⟨obj,decoded,_,_,_,_,stored,_,bounded⟩,estimated⟩ := each 0 _ p rfl rfl
  have body := file_line listed read (by rw [listed]; exact List.mem_cons_self) decoded stored
  have output := resolved_max_tokens bounded estimated
  rw [body,getOrNone,tokens_get] at output
  obtain ⟨prompt,_,share⟩ := amounts p List.mem_cons_self
  have reserved : p.reservedTokens = p.promptTokens + p.maxTokens := rfl
  have asked : p.maxTokens = n := output
  omega

theorem budget_verdict_small : ∃ lines, parseBatchInput JsonText.codec chatEndpoint 512 (fileOf sayHi (.int 5)) = .ok lines ∧
    (Verdict (totalReserve lines) (Db.getOrCreateBudget {} 0).availableTokens
        (createBatch JsonText.codec 0 0 chatEndpoint (text "24h") lines 0 {}) ↔
      Storable JsonText.codec (Db.getOrCreateBudget {} 0) chatEndpoint (text "24h") none lines) := by
  obtain ⟨lines,parsed⟩ : ∃ lines, _ = Except.ok lines := one_line (.int 5) rfl (by decide +kernel) (by decide +kernel)
  have stored : (Db.getOrCreateBudget {} 0).fits = true := by decide
  exact ⟨lines,parsed,(budget_verdict_iff parsed stored).1⟩

-- One request for 2^63 tokens, on a budget of none: not 429 but OverflowError.
theorem huge_max_tokens_overflow : ∃ lines,
    parseBatchInput JsonText.codec chatEndpoint 512 (fileOf sayHi (.int 9223372036854775808)) = .ok lines ∧
    createBatch JsonText.codec 0 0 chatEndpoint (text "24h") lines 0 {} = .error .overflowError ∧
    ¬ Verdict (totalReserve lines) (Db.getOrCreateBudget {} 0).availableTokens
        (createBatch JsonText.codec 0 0 chatEndpoint (text "24h") lines 0 {}) := by
  have listed : rawLines (fileOf sayHi (.int 9223372036854775808)) = [lineText sayHi (.int 9223372036854775808)] := by
    decide +kernel
  have read : readsBack sayHi (.int 9223372036854775808) = true := by decide +kernel
  obtain ⟨lines,parsed⟩ : ∃ lines, _ = Except.ok lines := one_line (.int 9223372036854775808) rfl listed read
  have large := one_line_total listed read parsed
  have overflow : createBatch JsonText.codec 0 0 chatEndpoint (text "24h") lines 0 {} = .error .overflowError :=
    createBatch_overflows (by omega) rfl (by decide +kernel)
  refine ⟨lines,parsed,overflow,fun verdict => ?_⟩
  rw [overflow] at verdict
  have available : (Db.getOrCreateBudget {} 0).availableTokens = 0 := rfl
  obtain ⟨e,response,same,named,_⟩ := verdict.exceeds (by omega)
  cases same
  cases named

end

end BatchGateway.SubmissionLimits
