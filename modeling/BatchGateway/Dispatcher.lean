import BatchGateway.BatchOps
import BatchGateway.RoundRobin

namespace BatchGateway.Dispatcher
open PythonText PythonJson Raising BatchOps

-- A row of the claim query, with the columns it is ordered by.
structure EligibleRow where
  user : UserId
  task : TaskId
  createdAt : Instant
  lineIndex : Nat
  deriving DecidableEq, Repr

def eligibleRow (db : Db) (t : Task) (task : TaskId) : Option EligibleRow :=
  match db.batches[t.batchId]? with
  | none => none
  | some b =>
    if t.status = .pending ∧ b.status = .inProgress then some ⟨b.userId,task,b.createdAt,t.lineIndex⟩ else none

def EligibleRow.before (x y : EligibleRow) : Prop :=
  x.createdAt < y.createdAt ∨ (x.createdAt = y.createdAt ∧ x.lineIndex ≤ y.lineIndex)

instance : DecidableRel EligibleRow.before := fun _ _ => inferInstanceAs (Decidable (_ ∨ _))

-- Rows equal in both columns keep their order of insertion.
def eligibleRows (db : Db) : List EligibleRow :=
  (db.tasks.zipIdx.filterMap (fun row => eligibleRow db row.1 row.2)).insertionSort EligibleRow.before

-- by_user and user_order
def userQueues (db : Db) : RoundRobin.Queues UserId TaskId :=
  RoundRobin.group ((eligibleRows db).map (fun row => (row.user,row.task)))

def claimTasks (limit : Int) (db : Db) : List (UserId × TaskId) :=
  if limit ≤ 0 then [] else RoundRobin.serve limit.toNat (userQueues db)

def healthyNodes (db : Db) : List Node := db.nodes.filter (fun n => n.health == .healthy)

-- `_in_flight`, read with .get(name, 0)
abbrev InFlight := NodeName → Int

def capacity (inFlight : InFlight) (db : Db) : List (NodeName × Int) :=
  (healthyNodes db).map (fun n => (n.name,n.parallelSlots - inFlight n.name))

def totalCapacity (capacity : List (NodeName × Int)) : Int :=
  ((capacity.filter (fun c => 0 < c.2)).map Prod.snd).sum

-- max over the dict's keys: the first name whose value is largest.
def roomiest : List (NodeName × Int) → Option (NodeName × Int)
  | [] => none
  | c :: rest => match roomiest rest with
    | none => some c
    | some best => if best.2 ≤ c.2 then some c else some best

def occupy (name : NodeName) (capacity : List (NodeName × Int)) : List (NodeName × Int) :=
  capacity.map (fun c => if c.1 = name then (c.1,c.2 - 1) else c)

def place : List TaskId → List (NodeName × Int) → List (TaskId × NodeName)
  | [], _ => []
  | task :: rest, localCapacity => match roomiest localCapacity with
    | none => []
    | some (name,free) => if free ≤ 0 then [] else (task,name) :: place rest (occupy name localCapacity)

structure Assignment where
  task : TaskId
  nodeName : NodeName
  baseUrl : String
  deriving DecidableEq, Repr

-- node_by_name[node_name].base_url
def baseUrlOf (db : Db) (name : NodeName) : String :=
  match (healthyNodes db).find? (fun n => n.name == name) with
  | some n => n.baseUrl
  | none => ""

def assignments (inFlight : InFlight) (db : Db) : List Assignment :=
  (place ((claimTasks (totalCapacity (capacity inFlight db)) db).map Prod.snd) (capacity inFlight db)).map
    (fun a => ⟨a.1,a.2,baseUrlOf db a.2⟩)

def Task.start (node : NodeName) (now : Instant) (t : Task) : Task :=
  {t with status := .running,nodeName := some node,startedAt := some now,attempts := t.attempts + 1}

def startTask (chosen : List Assignment) (now : Instant) (i : TaskId) (t : Task) : Task :=
  match chosen.find? (fun a => a.task == i) with
  | some a => Task.start a.nodeName now t
  | none => t

def startTasks (chosen : List Assignment) (now : Instant) (tasks : List Task) : List Task :=
  tasks.mapIdx (startTask chosen now)

def claimAndAssign (inFlight : InFlight) (now : Instant) (db : Db) : Db × List Assignment :=
  let chosen := assignments inFlight db
  ({db with tasks := startTasks chosen now db.tasks},chosen)

def Task.recover (t : Task) : Task :=
  if t.status = .running then {t with status := .pending,nodeName := none,startedAt := none} else t

def recoverRunningTasks (db : Db) : Db := {db with tasks := db.tasks.map Task.recover}

structure NodeConfig where
  name : NodeName
  baseUrl : String
  parallelSlots : Int

-- The dict by name: the last entry of a name counts.
def configured (nodes : List NodeConfig) (name : NodeName) : Option NodeConfig :=
  nodes.reverse.find? (fun n => n.name == name)

def syncNode (nodes : List NodeConfig) (row : Node) : Node :=
  match configured nodes row.name with
  | some cfg =>
    if row.health = .disabled then
      {row with baseUrl := cfg.baseUrl,parallelSlots := cfg.parallelSlots,health := .healthy,consecutiveFailures := 0}
    else {row with baseUrl := cfg.baseUrl,parallelSlots := cfg.parallelSlots}
  | none => {row with health := .disabled}

def newNode (cfg : NodeConfig) : Node := {name := cfg.name,baseUrl := cfg.baseUrl,parallelSlots := cfg.parallelSlots}

def syncNodesFromConfig (nodes : List NodeConfig) (db : Db) : Db :=
  let names := (nodes.map NodeConfig.name).filter (fun name => db.nodes.all (fun row => row.name != name))
  {db with nodes := db.nodes.map (syncNode nodes) ++ (names.eraseDups.filterMap (configured nodes)).map newNode}

def startup (nodes : List NodeConfig) (db : Db) : Db := recoverRunningTasks (syncNodesFromConfig nodes db)

def applyHealthResult (threshold : Int) (name : NodeName) (ok : Bool) (row : Node) : Node :=
  if row.name ≠ name then row
  else if ok then {row with consecutiveFailures := 0,health := .healthy}
  else if threshold ≤ row.consecutiveFailures + 1 then
    {row with consecutiveFailures := row.consecutiveFailures + 1,health := .unhealthy}
  else {row with consecutiveFailures := row.consecutiveFailures + 1}

def applyHealthResults (threshold : Int) (results : List (NodeName × Bool)) (db : Db) : Db :=
  {db with nodes := results.foldl (fun nodes r => nodes.map (applyHealthResult threshold r.1 r.2)) db.nodes}

-- What chat_completion does with one request: NodeRequestError, or the decoded
-- JSON of a response with a status below 400.
inductive Reply where
  | failed (message : Str)
  | answered (value : Json)

def maxAttempts (taskMaxAttempts : Int) : Nat := (max 1 taskMaxAttempts).toNat

structure Outcome where
  posted : List Dict
  result : Option Json
  lastError : Str

-- The loop of _execute_task from the given attempt on, for the replies its
-- requests would get.
def attemptLoop (body : Dict) (replies : Nat → Reply) : Nat → Nat → Str → Outcome
  | 0, _, lastError => ⟨[],none,lastError⟩
  | left+1, attempt, lastError => match replies attempt with
    | .answered value => ⟨[body],some value,lastError⟩
    | .failed message =>
      let later := attemptLoop body replies left (attempt + 1) message
      {later with posted := body :: later.posted}

-- The body is read from the row when the execution starts.
def executeRequests (taskMaxAttempts : Int) (replies : Nat → Reply) (t : Task) : Outcome :=
  attemptLoop t.requestBody replies (maxAttempts taskMaxAttempts) 0 (text "unknown error")

variable (codec : Codec)

-- `result.get("usage") or {}`
def usageOf : Json → Except Raised Dict
  | .obj result => match getOrNone result "usage" with
    | .obj usage => .ok usage
    | other => if truthy other then .error .attributeError else .ok []
  | _ => .error .attributeError

-- `int(usage.get(key, 0))`
def tokenCount (usage : Dict) (key : String) : Except Raised Int :=
  match get usage key with
  | none => .ok 0
  | some value => match toInt codec value with
    | some n => .ok n
    | none => .error .typeError

def failureText (attempts : Nat) (lastError : Str) : Str :=
  text "failed after " ++ text (toString attempts) ++ text " attempt(s): " ++ lastError

-- A JSON null arrives as None, like no result at all.
def settlementResult (result : Option Json) : Option Json :=
  match result with
  | some .null => none
  | other => other

-- _settle_task as far as the first commit of complete_task or fail_task.
def commitSettlement (alpha : ℚ) (task : TaskId) (result : Option Json) (lastError : Str) (attempts : Nat)
    (now : Instant) (db : Db) : Except Raised Db :=
  match settlementResult result with
  | some value => do
    let usage ← usageOf value
    let promptTokens ← tokenCount codec usage "prompt_tokens"
    let completionTokens ← tokenCount codec usage "completion_tokens"
    commitCompleted codec alpha task value promptTokens completionTokens now db
  | none => commitFailed task (failureText attempts lastError) now db

def settleTask (alpha : ℚ) (task : TaskId) (result : Option Json) (lastError : Str) (attempts : Nat)
    (now : Instant) (db : Db) (blobs : Blobs) : Except Raised (Db × Blobs) := do
  let db ← commitSettlement codec alpha task result lastError attempts now db
  return finalizeAfter codec task now db blobs

theorem failureText_encodes (attempts : Nat) (lastError : Str) :
    (encode (failureText attempts lastError)).isSome = (encode lastError).isSome := by
  simp only [encode_isSome,failureText,List.any_append,text_scalar,Bool.false_or]

-- Every attempt posts the same body, and at least one is made.
theorem attemptLoop_posted (body : Dict) (replies : Nat → Reply) (left attempt : Nat) (lastError : Str) :
    ∀ posted ∈ (attemptLoop body replies left attempt lastError).posted, posted = body := by
  induction left generalizing attempt lastError with
  | zero => intro posted member; cases member
  | succ left ih =>
    intro posted member
    simp only [attemptLoop] at member
    split at member
    · exact List.mem_singleton.mp member
    · rcases List.mem_cons.mp member with same | later
      · exact same
      · exact ih _ _ posted later

theorem executeRequests_posted (taskMaxAttempts : Int) (replies : Nat → Reply) (t : Task) :
    (∀ posted ∈ (executeRequests taskMaxAttempts replies t).posted, posted = t.requestBody) ∧
    t.requestBody ∈ (executeRequests taskMaxAttempts replies t).posted := by
  refine ⟨attemptLoop_posted _ _ _ _ _,?_⟩
  have some_attempt : ∃ left, maxAttempts taskMaxAttempts = left + 1 :=
    ⟨maxAttempts taskMaxAttempts - 1,by simp only [maxAttempts]; omega⟩
  obtain ⟨left,attempts⟩ := some_attempt
  simp only [executeRequests,attempts,attemptLoop]
  split <;> simp

theorem eligibleRow_parts {db : Db} {t : Task} {task : TaskId} {row : EligibleRow}
    (chosen : eligibleRow db t task = some row) :
    ∃ b, db.batches[t.batchId]? = some b ∧ t.status = .pending ∧ b.status = .inProgress ∧
      row = ⟨b.userId,task,b.createdAt,t.lineIndex⟩ := by
  unfold eligibleRow at chosen
  split at chosen
  · cases chosen
  · rename_i b owned
    split at chosen
    · rename_i waiting
      cases chosen
      exact ⟨b,owned,waiting.1,waiting.2,rfl⟩
    · cases chosen

theorem eligibleRows_perm (db : Db) :
    (eligibleRows db).Perm (db.tasks.zipIdx.filterMap (fun row => eligibleRow db row.1 row.2)) :=
  List.perm_insertionSort _ _

theorem eligible_parts {db : Db} {row : EligibleRow} (member : row ∈ eligibleRows db) :
    ∃ t b, db.tasks[row.task]? = some t ∧ db.batches[t.batchId]? = some b ∧ t.status = .pending ∧
      b.status = .inProgress ∧ row = ⟨b.userId,row.task,b.createdAt,t.lineIndex⟩ := by
  obtain ⟨⟨t,task⟩,listed,chosen⟩ := List.mem_filterMap.mp ((eligibleRows_perm db).mem_iff.mp member)
  obtain ⟨b,owned,waiting,open_,rfl⟩ := eligibleRow_parts chosen
  exact ⟨t,b,List.mk_mem_zipIdx_iff_getElem?.mp listed,owned,waiting,open_,rfl⟩

theorem eligible_listed {db : Db} {task : TaskId} {t : Task} {b : Batch} (found : db.tasks[task]? = some t)
    (owned : db.batches[t.batchId]? = some b) (waiting : t.status = .pending) (open_ : b.status = .inProgress) :
    ⟨b.userId,task,b.createdAt,t.lineIndex⟩ ∈ eligibleRows db := by
  refine (eligibleRows_perm db).mem_iff.mpr (List.mem_filterMap.mpr ⟨(t,task),?_,?_⟩)
  · exact List.mk_mem_zipIdx_iff_getElem?.mpr found
  · simp [eligibleRow,owned,waiting,open_]

-- A task is listed once: the query lists it with its own number.
theorem eligible_distinct (db : Db) : ((eligibleRows db).map EligibleRow.task).Nodup := by
  refine ((eligibleRows_perm db).map _).nodup_iff.mpr ?_
  have numbers : ∀ (rows : List Task) start,
      (((rows.zipIdx start).filterMap (fun row => eligibleRow db row.1 row.2)).map EligibleRow.task).Sublist
        (List.range' start rows.length) := by
    intro rows
    induction rows with
    | nil => intro start; exact .slnil
    | cons t rows ih =>
      intro start
      simp only [List.zipIdx_cons,List.length_cons,List.range'_succ,List.filterMap_cons]
      split
      · exact .cons _ (ih _)
      · rename_i row chosen
        obtain ⟨b,_,_,_,rfl⟩ := eligibleRow_parts chosen
        exact .cons_cons _ (ih _)
  exact (numbers db.tasks 0).nodup (List.nodup_range' 1)

theorem claimed_subperm (limit : Int) (db : Db) :
    (claimTasks limit db).Subperm ((eligibleRows db).map (fun row => (row.user,row.task))) := by
  unfold claimTasks
  split
  · exact List.nil_subperm
  · exact RoundRobin.serve_subperm _ _

theorem claimed_eligible {limit : Int} {db : Db} {user : UserId} {task : TaskId}
    (claimed : (user,task) ∈ claimTasks limit db) :
    ∃ t b, db.tasks[task]? = some t ∧ db.batches[t.batchId]? = some b ∧ t.status = .pending ∧
      b.status = .inProgress ∧ b.userId = user := by
  obtain ⟨row,listed,same⟩ := List.mem_map.mp ((claimed_subperm limit db).subset claimed)
  obtain ⟨t,b,found,owned,waiting,open_,shape⟩ := eligible_parts listed
  cases same
  exact ⟨t,b,found,owned,waiting,open_,by rw [shape]⟩

theorem claimed_distinct (limit : Int) (db : Db) : ((claimTasks limit db).map Prod.snd).Nodup := by
  obtain ⟨taken,same,within⟩ := claimed_subperm limit db
  refine ((same.map Prod.snd).nodup_iff).mp ((within.map Prod.snd).nodup ?_)
  rw [List.map_map]
  exact eligible_distinct db

theorem place_initial (tasks : List TaskId) (capacity : List (NodeName × Int)) :
    (place tasks capacity).map Prod.fst <+: tasks := by
  induction tasks generalizing capacity with
  | nil => exact List.nil_prefix
  | cons task rest ih =>
    simp only [place]
    split
    · exact List.nil_prefix
    · split
      · exact List.nil_prefix
      · exact List.cons_prefix_cons.mpr ⟨rfl,ih _⟩

theorem roomiest_none {capacity : List (NodeName × Int)} (empty : roomiest capacity = none) : capacity = [] := by
  cases capacity with
  | nil => rfl
  | cons c rest =>
    simp only [roomiest] at empty
    split at empty
    · cases empty
    · split at empty <;> cases empty

theorem roomiest_parts {capacity : List (NodeName × Int)} {best : NodeName × Int} (found : roomiest capacity = some best) :
    best ∈ capacity ∧ ∀ c ∈ capacity, c.2 ≤ best.2 := by
  induction capacity generalizing best with
  | nil => cases found
  | cons c rest ih =>
    simp only [roomiest] at found
    split at found
    · rename_i empty
      cases found
      rw [roomiest_none empty]
      simp
    · rename_i other later
      obtain ⟨member,most⟩ := ih later
      split at found
      · rename_i larger
        cases found
        refine ⟨by simp,fun d listed => ?_⟩
        rcases List.mem_cons.mp listed with rfl | deeper
        · exact le_rfl
        · exact (most d deeper).trans larger
      · rename_i smaller
        cases found
        refine ⟨List.mem_cons_of_mem _ member,fun d listed => ?_⟩
        rcases List.mem_cons.mp listed with rfl | deeper
        · omega
        · exact most d deeper

theorem totalCapacity_sum (capacity : List (NodeName × Int)) :
    totalCapacity capacity = (capacity.map (fun c => if 0 < c.2 then c.2 else 0)).sum := by
  rw [totalCapacity,Rows.sum_filter]
  simp

theorem occupy_names (name : NodeName) (capacity : List (NodeName × Int)) :
    (occupy name capacity).map Prod.fst = capacity.map Prod.fst := by
  rw [occupy,List.map_map]
  apply List.map_congr_left
  intro c _
  simp only [Function.comp_apply]
  split <;> rfl

theorem occupy_other {name : NodeName} {capacity : List (NodeName × Int)} (absent : name ∉ capacity.map Prod.fst) :
    occupy name capacity = capacity := by
  have same : ∀ c ∈ capacity, (if c.1 = name then (c.1,c.2 - 1) else c) = c := by
    intro c listed
    refine if_neg fun here => absent ?_
    rw [← here]
    exact List.mem_map_of_mem listed
  rw [occupy,List.map_congr_left same,List.map_id']

-- One slot less in all, where the named node has one.
theorem totalCapacity_occupy {capacity : List (NodeName × Int)} (distinct : (capacity.map Prod.fst).Nodup)
    {best : NodeName × Int} (member : best ∈ capacity) (free : 0 < best.2) :
    totalCapacity (occupy best.1 capacity) + 1 = totalCapacity capacity := by
  rw [totalCapacity_sum,totalCapacity_sum]
  induction capacity with
  | nil => cases member
  | cons c rest ih =>
    simp only [List.map_cons,List.nodup_cons] at distinct
    have head : occupy best.1 (c :: rest) = (if c.1 = best.1 then (c.1,c.2 - 1) else c) :: occupy best.1 rest := rfl
    rcases List.mem_cons.mp member with rfl | later
    · rw [head,occupy_other distinct.1]
      simp only [List.map_cons,List.sum_cons,if_true,free]
      split <;> omega
    · have different : c.1 ≠ best.1 := fun same => distinct.1 (same ▸ List.mem_map_of_mem later)
      have inner := ih distinct.2 later
      rw [head]
      simp only [different,if_false,List.map_cons,List.sum_cons]
      omega

-- The break in the assignment loop is never reached.
theorem place_all {tasks : List TaskId} {capacity : List (NodeName × Int)} (distinct : (capacity.map Prod.fst).Nodup)
    (room : tasks.length ≤ totalCapacity capacity) : (place tasks capacity).map Prod.fst = tasks := by
  induction tasks generalizing capacity with
  | nil => rfl
  | cons task rest ih =>
    rw [List.length_cons] at room
    cases found : roomiest capacity with
    | none =>
      rw [roomiest_none found] at room
      simp [totalCapacity] at room
      omega
    | some best =>
      obtain ⟨member,most⟩ := roomiest_parts found
      have free : 0 < best.2 := by
        by_contra full
        have none_free : capacity.filter (fun c => 0 < c.2) = [] := by
          apply List.filter_eq_nil_iff.mpr
          intro c listed
          have := most c listed
          simp
          omega
        rw [totalCapacity,none_free] at room
        simp at room
        omega
      have fewer := totalCapacity_occupy distinct member free
      simp only [place,found]
      rw [if_neg (by omega),List.map_cons,ih (by rwa [occupy_names]) (by push_cast at room; omega)]

theorem claimed_length (limit : Int) (db : Db) : ((claimTasks limit db).length : Int) ≤ max limit 0 := by
  unfold claimTasks
  split
  · simp
  · have bound := RoundRobin.rounds_length limit.toNat limit.toNat (userQueues db)
    simp only [RoundRobin.serve]
    omega

theorem totalCapacity_nonnegative (capacity : List (NodeName × Int)) : 0 ≤ totalCapacity capacity := by
  rw [totalCapacity]
  have positive : ∀ c ∈ capacity.filter (fun c => 0 < c.2), 0 < c.2 := by
    intro c listed
    simpa using (List.mem_filter.mp listed).2
  generalize capacity.filter (fun c => 0 < c.2) = kept at positive
  induction kept with
  | nil => simp
  | cons c rest ih =>
    have here := positive c (by simp)
    have later := ih (fun d listed => positive d (List.mem_cons_of_mem _ listed))
    simp only [List.map_cons,List.sum_cons]
    omega

theorem assigned_all {load : InFlight} {db : Db} (distinct : (db.nodes.map Node.name).Nodup) :
    (assignments load db).map Assignment.task = (claimTasks (totalCapacity (capacity load db)) db).map Prod.snd := by
  have names : ((capacity load db).map Prod.fst).Nodup := by
    have kept : (capacity load db).map Prod.fst = (healthyNodes db).map Node.name := by
      simp [capacity,Function.comp_def]
    rw [kept]
    exact (List.filter_sublist.map Node.name).nodup distinct
  have placed : (place ((claimTasks (totalCapacity (capacity load db)) db).map Prod.snd) (capacity load db)).map Prod.fst =
      (claimTasks (totalCapacity (capacity load db)) db).map Prod.snd := by
    apply place_all names
    have bound := claimed_length (totalCapacity (capacity load db)) db
    have sign := totalCapacity_nonnegative (capacity load db)
    rw [List.length_map]
    omega
  simpa [assignments,Function.comp_def] using placed

theorem nodup_eraseDups (names : List NodeName) : names.eraseDups.Nodup := by
  induction size : names.length using Nat.strong_induction_on generalizing names with
  | _ n ih =>
    cases names with
    | nil => simp
    | cons name rest =>
      rw [List.eraseDups_cons,List.nodup_cons]
      refine ⟨?_,ih _ ?_ _ rfl⟩
      · rw [List.mem_eraseDups]
        simp
      · have shorter := List.length_filter_le (fun other => !other == name) rest
        rw [List.length_cons] at size
        omega

theorem assigned_initial (load : InFlight) (db : Db) :
    (assignments load db).map Assignment.task <+:
      (claimTasks (totalCapacity (capacity load db)) db).map Prod.snd := by
  have placed := place_initial ((claimTasks (totalCapacity (capacity load db)) db).map Prod.snd) (capacity load db)
  simpa [assignments,Function.comp_def] using placed

theorem assigned_eligible {load : InFlight} {db : Db} {a : Assignment} (assigned : a ∈ assignments load db) :
    ∃ t b, db.tasks[a.task]? = some t ∧ db.batches[t.batchId]? = some b ∧ t.status = .pending ∧
      b.status = .inProgress := by
  have claimed := (assigned_initial load db).subset (List.mem_map_of_mem assigned)
  obtain ⟨⟨user,task⟩,listed,named⟩ := List.mem_map.mp claimed
  obtain ⟨t,b,found,owned,waiting,open_,_⟩ := claimed_eligible listed
  exact ⟨t,b,named ▸ found,owned,waiting,open_⟩

theorem assigned_distinct (load : InFlight) (db : Db) : ((assignments load db).map Assignment.task).Nodup :=
  (assigned_initial load db).sublist.nodup (claimed_distinct _ db)

theorem startTask_cases (chosen : List Assignment) (now : Instant) (i : TaskId) (t : Task) :
    startTask chosen now i t = t ∨ ∃ node, startTask chosen now i t = Task.start node now t := by
  unfold startTask
  split
  · exact .inr ⟨_,rfl⟩
  · exact .inl rfl

-- What a claim pass does to one task row.
theorem startTask_parts (load : InFlight) (now : Instant) (db : Db) {i : TaskId} {t : Task}
    (found : db.tasks[i]? = some t) :
    (i ∉ (assignments load db).map Assignment.task ∧ startTask (assignments load db) now i t = t) ∨
    (i ∈ (assignments load db).map Assignment.task ∧ t.status = .pending ∧ ∃ node,
      startTask (assignments load db) now i t = Task.start node now t) := by
  unfold startTask
  cases chosen : (assignments load db).find? (fun a => a.task == i) with
  | none =>
    refine .inl ⟨?_,rfl⟩
    intro member
    obtain ⟨a,listed,same⟩ := List.mem_map.mp member
    exact absurd (List.find?_eq_none.mp chosen a listed) (by simp [same])
  | some a =>
    have listed := List.mem_of_find?_eq_some chosen
    have same : a.task = i := by simpa using List.find?_some chosen
    obtain ⟨t',b,found',_,waiting,_⟩ := assigned_eligible listed
    rw [same,found] at found'
    cases found'
    exact .inr ⟨same ▸ List.mem_map_of_mem listed,waiting,a.nodeName,rfl⟩

theorem startTasks_parts (load : InFlight) (now : Instant) (db : Db) {i : TaskId} {t : Task}
    (found : db.tasks[i]? = some t) :
    (i ∉ (assignments load db).map Assignment.task ∧
      (startTasks (assignments load db) now db.tasks)[i]? = some t) ∨
    (i ∈ (assignments load db).map Assignment.task ∧ t.status = .pending ∧ ∃ node,
      (startTasks (assignments load db) now db.tasks)[i]? = some (Task.start node now t)) := by
  have row : (startTasks (assignments load db) now db.tasks)[i]? = some (startTask (assignments load db) now i t) := by
    simp [startTasks,List.getElem?_mapIdx,found]
  rw [row]
  rcases startTask_parts load now db found with ⟨absent,same⟩ | ⟨member,waiting,node,started⟩
  · exact .inl ⟨absent,congrArg some same⟩
  · exact .inr ⟨member,waiting,node,congrArg some started⟩

theorem configured_name {nodes : List NodeConfig} {name : NodeName} {cfg : NodeConfig}
    (found : configured nodes name = some cfg) : cfg.name = name := by
  simpa using List.find?_some found

theorem syncNode_name (nodes : List NodeConfig) (row : Node) : (syncNode nodes row).name = row.name := by
  unfold syncNode
  split
  · split <;> rfl
  · rfl

theorem sync_distinct {db : Db} (nodes : List NodeConfig) (distinct : (db.nodes.map Node.name).Nodup) :
    ((syncNodesFromConfig nodes db).nodes.map Node.name).Nodup := by
  have old : (db.nodes.map (syncNode nodes)).map Node.name = db.nodes.map Node.name := by
    simp [Function.comp_def,syncNode_name]
  have added : ∀ names : List NodeName,
      (((names.filterMap (configured nodes)).map newNode).map Node.name).Sublist names := by
    intro names
    induction names with
    | nil => exact .slnil
    | cons name names ih =>
      rw [List.filterMap_cons]
      split
      · exact .cons _ ih
      · rename_i cfg found
        have named : (newNode cfg).name = name := configured_name found
        simp only [List.map_cons,named]
        exact .cons_cons _ ih
  simp only [syncNodesFromConfig,List.map_append,old]
  refine List.nodup_append.mpr ⟨distinct,(added _).nodup (nodup_eraseDups _),?_⟩
  intro name before other after same
  have fresh := (added _).subset after
  rw [List.mem_eraseDups,List.mem_filter] at fresh
  obtain ⟨row,listed,named⟩ := List.mem_map.mp before
  have clash := List.all_eq_true.mp fresh.2 row listed
  simp [named,same] at clash

theorem health_names (threshold : Int) (results : List (NodeName × Bool)) (nodes : List Node) :
    (results.foldl (fun nodes r => nodes.map (applyHealthResult threshold r.1 r.2)) nodes).map Node.name =
      nodes.map Node.name := by
  induction results generalizing nodes with
  | nil => rfl
  | cons r results ih =>
    rw [List.foldl_cons,ih,List.map_map]
    apply List.map_congr_left
    intro row _
    simp only [Function.comp_apply,applyHealthResult]
    split
    · rfl
    · split
      · rfl
      · split <;> rfl

end BatchGateway.Dispatcher
