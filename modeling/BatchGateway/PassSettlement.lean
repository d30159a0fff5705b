import BatchGateway.JsonText
import BatchGateway.Passes

-- What a pass leaves of the tasks it has claimed.
namespace BatchGateway.PassSettlement
open PythonText PythonJson Raising BatchOps Dispatcher Sessions LabelledRuns Counters BudgetRows Passes
open LlamaClient (ClientError)

-- Where the loop of an execution stands after so many requests: still asking, with the
-- text of the last failure, or left with an answer or an exception.
inductive LoopState where
  | asking (lastError : Str)
  | answered (value : Json)
  | escaped (e : Raised)

def loopAfter (replies : Nat → Except ClientError Json) : Nat → LoopState
  | 0 => .asking (text "unknown error")
  | n+1 => match loopAfter replies n with
    | .asking _ => match replies n with
      | .ok value => .answered value
      | .error (.nodeRequestError message) => .asking message
      | .error (.escaped e) => .escaped e
    | .answered value => .answered value
    | .escaped e => .escaped e

-- The first response among so many requests, if one of them is answered.
def firstAnswer (replies : Nat → Except ClientError Json) (n : Nat) : Option Json :=
  match loopAfter replies n with
  | .answered value => some value
  | .asking _ | .escaped _ => none

-- What the loop hands on to the settlement.
def Leaves (loop : LoopState) (result : Option Json) (lastError : Str) : Prop :=
  match result with
  | some value => loop = .answered value
  | none => loop = .asking lastError

theorem answered_stays {replies : Nat → Except ClientError Json} {m n : Nat} {value : Json}
    (answered : loopAfter replies m = .answered value) (later : m ≤ n) : loopAfter replies n = .answered value := by
  induction later with
  | refl => exact answered
  | step _ ih => simp only [loopAfter,ih]

theorem escaped_stays {replies : Nat → Except ClientError Json} {m n : Nat} {e : Raised}
    (escaped : loopAfter replies m = .escaped e) (later : m ≤ n) : loopAfter replies n = .escaped e := by
  induction later with
  | refl => exact escaped
  | step _ ih => simp only [loopAfter,ih]

theorem leaves_answer {replies : Nat → Except ClientError Json} {n : Nat} {result : Option Json} {lastError : Str}
    (leaves : Leaves (loopAfter replies n) result lastError) : result = firstAnswer replies n := by
  unfold Leaves at leaves
  unfold firstAnswer
  cases result with
  | none =>
    dsimp only at leaves
    rw [leaves]
  | some value =>
    dsimp only at leaves
    rw [leaves]

-- The code can settle a task with this response.
def Usable (codec : Codec) (t : Task) (value : Json) : Prop :=
  ∃ promptTokens completionTokens, usageTokens codec value = .ok (promptTokens,completionTokens) ∧
    0 ≤ promptTokens + completionTokens ∧ 0 ≤ t.reservedTokens ∧ stores codec value = true ∧
    (Task.complete value promptTokens completionTokens 0 t).fits = true

def outcome (result : Option Json) : TaskStatus :=
  match settlementResult result with
  | some _ => .completed
  | none => .failed

def actualTokens (codec : Codec) (result : Option Json) : Int :=
  match settlementResult result with
  | none => 0
  | some value => match usageTokens codec value with
    | .ok (promptTokens,completionTokens) => promptTokens + completionTokens
    | .error _ => 0

def busy (name : NodeName) (x : Execution) : Bool :=
  match x.stage with
  | .created | .requesting _ _ _ | .stuck _ => x.assignment.nodeName == name
  | _ => false

-- Past the first commit.
def past (x : Execution) : Bool :=
  match x.stage with
  | .committed _ _ | .returned => true
  | _ => false

def usedTokens (db : Db) (user : UserId) : Int := (db.getOrCreateBudget user).usedTokens

section Pass
variable (codec : Codec) (attempts : Nat) (replies : TaskId → Nat → Except ClientError Json) (o : Pass)

def answer (x : Execution) : Option Json := firstAnswer (replies x.task) attempts

def inBatch (i : BatchId) (x : Execution) : Bool := o.service.db.tasks[x.task]?.any (fun t => t.batchId == i)

def ofUser (user : UserId) (x : Execution) : Bool :=
  o.service.db.tasks[x.task]?.any (fun t => o.service.db.owner t == some user)

-- The share of an execution in a user's used tokens, and in a batch's counters.
def spent (user : UserId) (x : Execution) : Int :=
  if ofUser o user x then actualTokens codec (answer attempts replies x) else 0

def endsAs (status : TaskStatus) (i : BatchId) (x : Execution) : Bool :=
  inBatch o i x && outcome (answer attempts replies x) == status

-- The row of an execution that has not settled is the claimed one.
def Waiting (p : Pass) (x : Execution) : Prop :=
  x.task ∈ p.service.inFlight ∧ ∃ t, p.service.db.tasks[x.task]? = some t ∧ o.service.db.tasks[x.task]? = some t

structure Reported (p : Pass) (x : Execution) : Prop where
  row : ∃ t, p.service.db.tasks[x.task]? = some t ∧ t.status = outcome (answer attempts replies x)
  usable : ∀ value, settlementResult (answer attempts replies x) = some value →
    ∃ t, o.service.db.tasks[x.task]? = some t ∧ Usable codec t value
  quiet : ∀ e, loopAfter (replies x.task) attempts ≠ .escaped e
  explained : ∀ lastError, loopAfter (replies x.task) attempts = .asking lastError → (encode lastError).isSome = true

def Good (p : Pass) (x : Execution) : Prop :=
  match x.stage with
  | .created => Waiting o p x ∧ p.sent x.task = 0
  | .requesting _ attempt lastError => Waiting o p x ∧ p.sent x.task = attempt ∧ attempt < attempts ∧
      loopAfter (replies x.task) attempt = .asking lastError
  | .replied result lastError => Waiting o p x ∧ p.sent x.task ≤ attempts ∧
      Leaves (loopAfter (replies x.task) attempts) result lastError
  | .committed _ _ | .returned => Reported codec attempts replies o p x ∧ p.sent x.task ≤ attempts
  | .raised _ => p.sent x.task ≤ attempts
  | .stuck e => p.sent x.task ≤ attempts ∧ loopAfter (replies x.task) attempts = .escaped e

-- Where a pass stands, against its first state and the counters before it.
structure Accounted (load : InFlight) (p : Pass) : Prop where
  progress : Progress p.service.db p.service.inFlight
  sized : Sized p.service.db
  assigned : p.executions.map Execution.assignment = o.executions.map Execution.assignment
  each : ∀ x ∈ p.executions, Good codec attempts replies o p x
  slots : ∀ name, p.load name = load name + p.executions.countP (busy name)
  counters : ∀ (i : BatchId) b, o.service.db.batches[i]? = some b → ∃ a, p.service.db.batches[i]? = some a ∧
    a.userId = b.userId ∧
    a.requestCompleted = b.requestCompleted + p.executions.countP (fun x => past x && endsAs attempts replies o .completed i x) ∧
    a.requestFailed = b.requestFailed + p.executions.countP (fun x => past x && endsAs attempts replies o .failed i x)
  used : ∀ user, usedTokens p.service.db user = usedTokens o.service.db user +
    (p.executions.map (fun x => if past x then spent codec attempts replies o user x else 0)).sum

end Pass

variable {codec : Codec} {alpha : ℚ} {taskMaxAttempts : Int} {attempts : Nat} {replies : TaskId → Nat → Except ClientError Json}
  {o p q : Pass} {load : InFlight} {x y : Execution} {i : Nat}

theorem reports_outcome {result : Option Json} {lastError : Str} {sink : Sink}
    (reported : Reports codec result lastError attempts sink) : sink.outcome = outcome result := by
  cases sink with
  | complete =>
    simp only [outcome,reported.1]
    rfl
  | fail =>
    simp only [outcome,reported.1]
    rfl

def actualOf : Sink → Int
  | .complete _ promptTokens completionTokens => promptTokens + completionTokens
  | .fail _ => 0

theorem reports_actual {result : Option Json} {lastError : Str} {sink : Sink}
    (reported : Reports codec result lastError attempts sink) : actualOf sink = actualTokens codec result := by
  cases sink with
  | complete =>
    simp only [actualTokens,reported.1,reported.2]
    rfl
  | fail =>
    simp only [actualTokens,reported.1]
    rfl

theorem sink_sized {task : TaskId} {sink : Sink} {now : Instant} {db after : Db} (valid : Sized db)
    (done : sink.commit codec alpha task now db = .ok after) : Sized after := by
  cases sink with
  | complete => exact sized_completed valid done
  | fail => exact sized_failed valid done

-- The used tokens after a settlement.
theorem sink_used {task : TaskId} {sink : Sink} {now : Instant} {db after : Db}
    (done : sink.commit codec alpha task now db = .ok after) : ∃ t b, db.tasks[task]? = some t ∧
      db.batches[t.batchId]? = some b ∧
      ∀ user, usedTokens after user = usedTokens db user + if user = b.userId then actualOf sink else 0 := by
  have posted : ∀ (base : Db) (owner : UserId) (row : Budget) (entry : LedgerEntry) (user : UserId),
      base.budgets = db.budgets → usedTokens (Ledger.post base owner row entry) user =
        if user = owner then row.usedTokens else usedTokens db user := by
    intro base owner row entry user budgets
    by_cases mine : user = owner
    · subst mine
      simp [usedTokens,Ledger.post,Db.getOrCreateBudget]
    · simp [usedTokens,Ledger.post,Db.getOrCreateBudget,mine,budgets]
  cases sink with
  | complete value promptTokens completionTokens =>
    obtain ⟨t,b,_,_,_,found,owned,_,_,_,_,rfl⟩ := commitCompleted_parts done
    refine ⟨t,b,found,owned,fun user => ?_⟩
    refine (posted _ _ _ _ user ?_).trans ?_
    · rfl
    · by_cases mine : user = b.userId
      · simp [usedTokens,actualOf,mine]
      · simp [mine]
  | fail error =>
    obtain ⟨t,b,found,owned,⟨_,rfl⟩ | ⟨_,_,_,_,_,rfl⟩⟩ := commitFailed_parts done
    · refine ⟨t,b,found,owned,fun user => ?_⟩
      simp only [actualOf,ite_self,Int.add_zero]
      rfl
    · refine ⟨t,b,found,owned,fun user => ?_⟩
      refine (posted _ _ _ _ user ?_).trans ?_
      · rfl
      · by_cases mine : user = b.userId
        · simp [usedTokens,actualOf,mine]
        · simp [mine]

section Steps
variable {stage : Stage}

theorem other_task {j : Nat} (distinct : (p.executions.map Execution.task).Nodup) (found : p.executions[i]? = some x)
    (there : p.executions[j]? = some y) (different : i ≠ j) : y.task ≠ x.task := by
  intro same
  apply different
  have one : (p.executions.map Execution.task)[i]? = some x.task := by simp [found]
  have other : (p.executions.map Execution.task)[j]? = some x.task := by simp [there,same]
  obtain ⟨inside,first⟩ := List.getElem?_eq_some_iff.mp one
  obtain ⟨within,second⟩ := List.getElem?_eq_some_iff.mp other
  exact (List.Nodup.getElem_inj_iff distinct).mp (first.trans second.symm)

-- One execution has moved; the others stand where they stood.
theorem each_goTo (distinct : (p.executions.map Execution.task).Nodup) (found : p.executions[i]? = some x)
    (each : ∀ y ∈ p.executions, Good codec attempts replies o p y)
    (moved : q.executions = p.executions.modify i (Execution.goTo stage))
    (good : Good codec attempts replies o q (x.goTo stage))
    (kept : ∀ y, y.task ≠ x.task → Good codec attempts replies o p y → Good codec attempts replies o q y) :
    ∀ y ∈ q.executions, Good codec attempts replies o q y := by
  intro y member
  rw [moved] at member
  obtain ⟨j,there⟩ := List.mem_iff_getElem?.mp member
  by_cases same : i = j
  · subst same
    cases (Rows.getElem?_modify_self found _).symm.trans there
    exact good
  · rw [Rows.getElem?_modify_other same] at there
    exact kept y (other_task distinct found there same) (each y (List.mem_of_getElem? there))

theorem good_kept (valid : Good codec attempts replies o p y)
    (flying : y.task ∈ p.service.inFlight → y.task ∈ q.service.inFlight)
    (row : q.service.db.tasks[y.task]? = p.service.db.tasks[y.task]?) (sent : q.sent y.task = p.sent y.task) :
    Good codec attempts replies o q y := by
  have waits : Waiting o p y → Waiting o q y := fun ⟨flies,t,there,first⟩ => ⟨flying flies,t,row.trans there,first⟩
  have reports : Reported codec attempts replies o p y → Reported codec attempts replies o q y := by
    intro ⟨⟨t,there,status⟩,usable,quiet,explained⟩
    exact ⟨⟨t,row.trans there,status⟩,usable,quiet,explained⟩
  unfold Good at valid ⊢
  rw [sent]
  cases place : y.stage with
  | created => rw [place] at valid; exact ⟨waits valid.1,valid.2⟩
  | requesting => rw [place] at valid; exact ⟨waits valid.1,valid.2⟩
  | replied => rw [place] at valid; exact ⟨waits valid.1,valid.2⟩
  | committed => rw [place] at valid; exact ⟨reports valid.1,valid.2⟩
  | returned => rw [place] at valid; exact ⟨reports valid.1,valid.2⟩
  | raised => rw [place] at valid; exact valid
  | stuck => rw [place] at valid; exact valid

theorem count_goTo (found : p.executions[i]? = some x) (f : Execution → Bool) (same : f (x.goTo stage) = f x) :
    (p.executions.modify i (Execution.goTo stage)).countP f = p.executions.countP f := by
  have total := Rows.countP_modify found (Execution.goTo stage) f
  rw [same] at total
  exact Nat.add_right_cancel total

-- A step that neither settles a task nor changes what the counters count.
theorem accounted_frame (valid : Accounted codec attempts replies o load p) (found : p.executions[i]? = some x)
    (moved : q.executions = p.executions.modify i (Execution.goTo stage)) (same : past (x.goTo stage) = past x)
    (progress : Progress q.service.db q.service.inFlight) (sized : Sized q.service.db)
    (each : ∀ y ∈ q.executions, Good codec attempts replies o q y)
    (slots : ∀ name, q.load name + (if busy name x then 1 else 0) = p.load name + (if busy name (x.goTo stage) then 1 else 0))
    (rows : ∀ (i : BatchId) b, p.service.db.batches[i]? = some b → ∃ a, q.service.db.batches[i]? = some a ∧
      a.userId = b.userId ∧ counters a = counters b)
    (used : ∀ user, usedTokens q.service.db user = usedTokens p.service.db user) :
    Accounted codec attempts replies o load q := by
  refine ⟨progress,sized,?_,each,fun name => ?_,fun k b first => ?_,fun user => ?_⟩
  · rw [moved,← valid.assigned]
    exact Rows.map_modify_same fun _ => rfl
  · have busyCount := Rows.countP_modify found (Execution.goTo stage) (busy name)
    have before := valid.slots name
    have after := slots name
    rw [moved]
    cases one : busy name x <;> cases other : busy name (x.goTo stage) <;> simp [one,other] at busyCount after ⊢ <;> omega
  · obtain ⟨a,there,owner,completed,failed⟩ := valid.counters k b first
    obtain ⟨c,now,owned,columns⟩ := rows k a there
    simp only [counters,Prod.mk.injEq] at columns
    refine ⟨c,now,owned.trans owner,?_,?_⟩
    · rw [moved,count_goTo found _ (by rw [same]; rfl)]
      exact columns.2.1.trans completed
    · rw [moved,count_goTo found _ (by rw [same]; rfl)]
      exact columns.2.2.trans failed
  · rw [used,valid.used,moved]
    congr 1
    refine (Rows.sum_modify_same _ _ fun row there => ?_).symm
    cases found.symm.trans there
    rw [same]
    rfl

-- An execution that only goes on to its next wait.
theorem accounted_goTo {next : Stage} (valid : Accounted codec attempts replies o load p) (found : p.executions[i]? = some x)
    (distinct : (p.executions.map Execution.task).Nodup) (same : past (x.goTo next) = past x)
    (free : ∀ name, busy name (x.goTo next) = busy name x)
    (good : Good codec attempts replies o (p.goTo i next) (x.goTo next)) :
    Accounted codec attempts replies o load (p.goTo i next) := by
  apply accounted_frame valid found rfl same
  · exact valid.progress
  · exact valid.sized
  · apply each_goTo distinct found valid.each rfl good
    intro y _ before
    exact good_kept before id rfl rfl
  · intro name
    rw [free]
    rfl
  · exact fun k b there => ⟨b,there,rfl,rfl⟩
  · exact fun _ => rfl

theorem accounted_lost {e : Raised} (valid : Accounted codec attempts replies o load p) (found : p.executions[i]? = some x)
    (distinct : (p.executions.map Execution.task).Nodup) (early : past x = false) (free : ∀ name, busy name x = false)
    (bound : p.sent x.task ≤ attempts) : Accounted codec attempts replies o load (p.lose i (.raised e)) := by
  apply accounted_frame valid found rfl
  · rw [early]
    rfl
  · exact valid.progress
  · exact valid.sized
  · apply each_goTo distinct found valid.each rfl
    · exact bound
    · intro y _ before
      exact good_kept before id rfl rfl
  · intro name
    rw [free]
    rfl
  · exact fun k b there => ⟨b,there,rfl,rfl⟩
  · exact fun _ => rfl

theorem accounted_created {t : Task} (valid : Accounted codec attempts replies o load p) (found : p.executions[i]? = some x)
    (distinct : (p.executions.map Execution.task).Nodup) (place : x.stage = .created) (some_attempt : 0 < attempts) :
    Accounted codec attempts replies o load (p.goTo i (.requesting t.requestBody 0 (text "unknown error"))) := by
  have good := valid.each x (List.mem_of_getElem? found)
  simp only [Good,place] at good
  apply accounted_goTo valid found distinct
  · simp [past,place,Execution.goTo]
  · intro name
    simp [busy,place,Execution.goTo]
  · exact ⟨good.1,good.2,some_attempt,rfl⟩

theorem sent_request (x : Execution) (i : Nat) (body : Dict) (next : Stage) (p : Pass) (task : TaskId) :
    (afterRequest x i body next p).sent task = p.sent task + if x.task = task then 1 else 0 := by
  simp [afterRequest,Pass.sent]

-- An execution in its loop holds a slot, so the floor at zero does nothing.
theorem slot_held (valid : Accounted codec attempts replies o load p) (found : p.executions[i]? = some x)
    (loads : ∀ name, 0 ≤ load name) (inside : busy x.assignment.nodeName x = true) : 0 < p.load x.assignment.nodeName := by
  have counted : 0 < p.executions.countP (busy x.assignment.nodeName) :=
    List.countP_pos_iff.mpr ⟨x,List.mem_of_getElem? found,inside⟩
  have before := loads x.assignment.nodeName
  rw [valid.slots]
  omega

theorem accounted_requested {body : Dict} {next : Stage} (valid : Accounted codec attempts replies o load p)
    (found : p.executions[i]? = some x) (distinct : (p.executions.map Execution.task).Nodup)
    (before : past x = false) (after : past (x.goTo next) = false)
    (good : Good codec attempts replies o (afterRequest x i body next p) (x.goTo next))
    (slots : ∀ name, loadAfter x.assignment.nodeName next p.load name + (if busy name x then 1 else 0) =
      p.load name + (if busy name (x.goTo next) then 1 else 0)) :
    Accounted codec attempts replies o load (afterRequest x i body next p) := by
  apply accounted_frame valid found rfl
  · rw [before,after]
  · exact valid.progress
  · exact valid.sized
  · apply each_goTo distinct found valid.each rfl good
    intro y different prior
    have sent : (afterRequest x i body next p).sent y.task = p.sent y.task := by
      rw [sent_request,if_neg (Ne.symm different),Nat.add_zero]
    exact good_kept prior id rfl sent
  · exact slots
  · exact fun k b there => ⟨b,there,rfl,rfl⟩
  · exact fun _ => rfl

theorem slots_back {body : Dict} {attempt : Nat} {lastError message : Str} {result : Option Json} {slots : InFlight}
    (place : x.stage = .requesting body attempt lastError) (held : 0 < slots x.assignment.nodeName) (name : NodeName) :
    loadAfter x.assignment.nodeName (.replied result message) slots name + (if busy name x then 1 else 0) =
      slots name + (if busy name (x.goTo (.replied result message)) then 1 else 0) := by
  by_cases mine : name = x.assignment.nodeName
  · subst mine
    simp [loadAfter,giveBack,busy,place,Execution.goTo]
    omega
  · simp [loadAfter,giveBack,busy,place,Execution.goTo,mine,Ne.symm mine]

-- One request: the loop goes on after a failure that leaves an attempt.
theorem accounted_reply {body : Dict} {attempt : Nat} {lastError : Str}
    (valid : Accounted codec (maxAttempts taskMaxAttempts) replies o load p) (found : p.executions[i]? = some x)
    (distinct : (p.executions.map Execution.task).Nodup) (loads : ∀ name, 0 ≤ load name)
    (place : x.stage = .requesting body attempt lastError) : Accounted codec (maxAttempts taskMaxAttempts) replies o load
      (afterRequest x i body (afterReply taskMaxAttempts body attempt lastError (replies x.task attempt)) p) := by
  have good := valid.each x (List.mem_of_getElem? found)
  simp only [Good,place] at good
  obtain ⟨waits,sent,early,unanswered⟩ := good
  have held := slot_held valid found loads (by simp [busy,place])
  have counted : ∀ next, (afterRequest x i body next p).sent x.task = attempt + 1 := by
    intro next
    rw [sent_request,if_pos rfl,sent]
  have before : past x = false := by simp [past,place]
  cases reply : replies x.task attempt with
  | ok value =>
    have answered : loopAfter (replies x.task) (attempt + 1) = .answered value := by
      simp only [loopAfter,unanswered,reply]
    apply accounted_requested valid found distinct before rfl
    · exact ⟨waits,(counted _).trans_le early,answered_stays answered early⟩
    · exact slots_back place held
  | error raised =>
    cases raised with
    | nodeRequestError message =>
      have still : loopAfter (replies x.task) (attempt + 1) = .asking message := by
        simp only [loopAfter,unanswered,reply]
      by_cases more : attempt + 1 < maxAttempts taskMaxAttempts
      · simp only [afterReply,if_pos more]
        apply accounted_requested valid found distinct before rfl
        · exact ⟨waits,counted _,more,still⟩
        · intro name
          simp [loadAfter,busy,place,Execution.goTo]
      · have last : attempt + 1 = maxAttempts taskMaxAttempts := Nat.le_antisymm early (Nat.le_of_not_lt more)
        simp only [afterReply,if_neg more]
        apply accounted_requested valid found distinct before rfl
        · exact ⟨waits,(counted _).trans_le early,last ▸ still⟩
        · exact slots_back place held
    | escaped e =>
      have left : loopAfter (replies x.task) (attempt + 1) = .escaped e := by
        simp only [loopAfter,unanswered,reply]
      apply accounted_requested valid found distinct before rfl
      · exact ⟨(counted _).trans_le early,escaped_stays left early⟩
      · intro name
        simp [afterReply,loadAfter,busy,place,Execution.goTo]

theorem accounted_finalized {own : Task} {copy : Batch} {now : Instant}
    (valid : Accounted codec attempts replies o load p) (found : p.executions[i]? = some x)
    (distinct : (p.executions.map Execution.task).Nodup) (place : x.stage = .committed own copy) :
    Accounted codec attempts replies o load (afterFinalization codec own copy x i now p) := by
  have good := valid.each x (List.mem_of_getElem? found)
  simp only [Good,place] at good
  unfold afterFinalization
  split
  · apply accounted_frame valid found rfl
    · simp [past,place,Execution.goTo]
    · exact progress_closed valid.progress rfl rfl (fun _ => rfl) (fun _ open_ => by cases open_)
    · exact valid.sized.same rfl
    · apply each_goTo distinct found valid.each rfl
      · exact ⟨⟨good.1.row,good.1.usable,good.1.quiet,good.1.explained⟩,good.2⟩
      · intro y _ before
        exact good_kept before id rfl rfl
    · intro name
      simp [busy,place,Execution.goTo,Pass.goTo]
    · intro k b there
      refine ⟨_,(List.getElem?_modify ..).trans (congrArg (Option.map _) there),?_⟩
      split
      · exact ⟨rfl,rfl⟩
      · exact ⟨rfl,rfl⟩
    · exact fun _ => rfl
  · apply accounted_goTo valid found distinct
    · simp [past,place,Execution.goTo]
    · intro name
      simp [busy,place,Execution.goTo]
    · exact ⟨⟨good.1.row,good.1.usable,good.1.quiet,good.1.explained⟩,good.2⟩

theorem settle_status (sink : Sink) (now : Instant) (t : Task) : (sink.settle now t).status = sink.outcome := by
  cases sink with
  | complete => rfl
  | fail => rfl

-- What went through is something the code can settle a task with.
theorem committed_usable {result : Option Json} {lastError : Str} {sink : Sink} {task : TaskId} {t : Task} {now : Instant}
    {db after : Db} {value : Json} (reported : Reports codec result lastError attempts sink)
    (done : sink.commit codec alpha task now db = .ok after) (found : db.tasks[task]? = some t)
    (answered : settlementResult result = some value) : Usable codec t value := by
  cases sink with
  | complete other promptTokens completionTokens =>
    obtain ⟨same,counts⟩ := reported
    cases answered.symm.trans same
    obtain ⟨u,_,_,there,_,nested,fits,_⟩ := commitCompleted_performs done
    obtain ⟨v,_,_,_,_,here,_,hold,actual,_⟩ := commitCompleted_parts done
    cases found.symm.trans there
    cases found.symm.trans here
    exact ⟨promptTokens,completionTokens,counts,actual,hold,nested,fits⟩
  | fail error => cases answered.symm.trans reported.1

theorem count_user (sink : Sink) (b : Batch) : (sink.count b).userId = b.userId := by
  cases sink with
  | complete => rfl
  | fail => rfl

theorem count_completed (sink : Sink) (b : Batch) :
    (sink.count b).requestCompleted = b.requestCompleted + if sink.outcome = .completed then 1 else 0 := by
  cases sink with
  | complete => rfl
  | fail => rfl

theorem count_failed (sink : Sink) (b : Batch) :
    (sink.count b).requestFailed = b.requestFailed + if sink.outcome = .failed then 1 else 0 := by
  cases sink with
  | complete => rfl
  | fail => rfl

-- The text of a failure that went through has an encoding.
theorem committed_explained {lastError : Str} {sink : Sink} {task : TaskId} {now : Instant} {db after : Db}
    (reported : Reports codec none lastError attempts sink) (done : sink.commit codec alpha task now db = .ok after) :
    (encode lastError).isSome = true := by
  cases sink with
  | complete value promptTokens completionTokens => cases reported.1
  | fail error =>
    obtain ⟨_,rfl⟩ := reported
    obtain ⟨_,_,_,_,encodes,_⟩ := commitFailed_performs done
    rwa [failureText_encodes] at encodes

-- What the execution adds to its batch's counters and to its user's used tokens.
theorem share_ended {t : Task} (own : Task) (copy : Batch) (found : p.executions[i]? = some x) (early : past x = false)
    (first : o.service.db.tasks[x.task]? = some t) (status : TaskStatus) (k : BatchId) :
    (p.executions.modify i (Execution.goTo (.committed own copy))).countP
        (fun x => past x && endsAs attempts replies o status k x) =
      p.executions.countP (fun x => past x && endsAs attempts replies o status k x) +
        if t.batchId = k ∧ outcome (answer attempts replies x) = status then 1 else 0 := by
  have total := Rows.countP_modify found (Execution.goTo (.committed own copy))
    (fun x => past x && endsAs attempts replies o status k x)
  have after : (past (x.goTo (.committed own copy)) && endsAs attempts replies o status k (x.goTo (.committed own copy))) =
      (t.batchId == k && outcome (answer attempts replies x) == status) := by
    have row : o.service.db.tasks[(x.goTo (.committed own copy)).task]? = some t := first
    simp only [endsAs,inBatch,row,Option.any_some]
    rfl
  simp only [early,Bool.false_and,after] at total
  simpa using total

theorem share_spent {t : Task} {c : Batch} (own : Task) (copy : Batch) (found : p.executions[i]? = some x)
    (early : past x = false) (first : o.service.db.tasks[x.task]? = some t)
    (owner : o.service.db.batches[t.batchId]? = some c) (user : UserId) :
    ((p.executions.modify i (Execution.goTo (.committed own copy))).map
        (fun x => if past x then spent codec attempts replies o user x else 0)).sum =
      (p.executions.map (fun x => if past x then spent codec attempts replies o user x else 0)).sum +
        if user = c.userId then actualTokens codec (answer attempts replies x) else 0 := by
  have total := Rows.sum_modify found (Execution.goTo (.committed own copy))
    (fun x => if past x then spent codec attempts replies o user x else 0)
  have after : spent codec attempts replies o user (x.goTo (.committed own copy)) =
      if user = c.userId then actualTokens codec (answer attempts replies x) else 0 := by
    have row : o.service.db.tasks[(x.goTo (.committed own copy)).task]? = some t := first
    have mine : (some c.userId == some user) = decide (user = c.userId) := by
      rw [beq_eq_decide]
      simp only [Option.some.injEq,eq_comm]
    simp only [spent,ofUser,row,Option.any_some,Db.owner,owner,Option.map_some,mine,decide_eq_true_eq]
    rfl
  have ended : past (x.goTo (.committed own copy)) = true := rfl
  simp only [early,ended,after] at total
  simpa using total

theorem accounted_committed {result : Option Json} {lastError : Str} {db : Db} {own : Task} {copy : Batch} {now : Instant}
    (origin : Progress o.service.db o.service.inFlight) (valid : Accounted codec attempts replies o load p)
    (found : p.executions[i]? = some x) (distinct : (p.executions.map Execution.task).Nodup)
    (place : x.stage = .replied result lastError)
    (committed : commitSettlement codec alpha x.task result lastError attempts now p.service.db = .ok db) :
    Accounted codec attempts replies o load {p.goTo i (.committed own copy) with
      service := {p.service with db := db,inFlight := p.service.inFlight.erase x.task}} := by
  have good := valid.each x (List.mem_of_getElem? found)
  simp only [Good,place] at good
  obtain ⟨⟨flying,t,there,first⟩,bound,leaves⟩ := good
  have same : result = answer attempts replies x := leaves_answer leaves
  obtain ⟨sink,reported,done⟩ := commitSettlement_ok.mp committed
  obtain ⟨u,row,tasks,batches,_⟩ := commit_parts done
  cases there.symm.trans row
  obtain ⟨u,b,row,owned,used⟩ := sink_used done
  cases there.symm.trans row
  obtain ⟨c,owner⟩ : ∃ c, o.service.db.batches[t.batchId]? = some c :=
    ⟨_,List.getElem?_eq_getElem (origin.owned t (List.mem_of_getElem? first))⟩
  have early : past x = false := by simp [past,place]
  refine ⟨sink_progress valid.progress flying done,sink_sized valid.sized done,?_,?_,fun name => ?_,fun k a start => ?_,
    fun user => ?_⟩
  · rw [← valid.assigned]
    exact Rows.map_modify_same fun _ => rfl
  · apply each_goTo distinct found valid.each rfl
    · refine ⟨⟨⟨sink.settle now t,?_,?_⟩,fun value answered => ⟨t,first,?_⟩,fun e escaped => ?_,
        fun text asking => ?_⟩,bound⟩
      · change db.tasks[x.task]? = _
        rw [tasks]
        exact Rows.getElem?_modify_self there _
      · rw [settle_status,reports_outcome reported,same]
        rfl
      · apply committed_usable reported done there
        rw [same]
        exact answered
      · have loop : loopAfter (replies x.task) attempts = .escaped e := escaped
        rw [loop] at leaves
        cases result <;> cases leaves
      · have loop : loopAfter (replies x.task) attempts = .asking text := asking
        rw [loop] at leaves
        cases result with
        | some value => cases leaves
        | none =>
          cases leaves
          exact committed_explained reported done
    · intro y different prior
      apply good_kept prior
      · exact (List.mem_erase_of_ne different).mpr
      · change db.tasks[y.task]? = _
        rw [tasks,Rows.getElem?_modify_other (Ne.symm different)]
      · rfl
  · have free := count_goTo found (busy name) (show busy name (x.goTo (.committed own copy)) = busy name x by
      simp [busy,place,Execution.goTo])
    exact (valid.slots name).trans (by rw [← free]; rfl)
  · obtain ⟨d,here,named,completed,failed⟩ := valid.counters k a start
    have share := fun status => @share_ended attempts replies o p x i t own copy found early first status k
    have ended : outcome (answer attempts replies x) = sink.outcome := by
      rw [reports_outcome reported,same]
    have moved : db.batches[k]? = some (if t.batchId = k then sink.count d else d) := by
      rw [batches,List.getElem?_modify,here]
      rfl
    refine ⟨_,moved,?_,?_,?_⟩
    · rw [← named]
      split
      · exact count_user sink d
      · rfl
    · refine Eq.trans ?_ (congrArg (a.requestCompleted + ·) (share .completed)).symm
      rw [ended,← Nat.add_assoc,← completed]
      by_cases mine : t.batchId = k
      · simp [mine,count_completed]
      · simp [mine]
    · refine Eq.trans ?_ (congrArg (a.requestFailed + ·) (share .failed)).symm
      rw [ended,← Nat.add_assoc,← failed]
      by_cases mine : t.batchId = k
      · simp [mine,count_failed]
      · simp [mine]
  · obtain ⟨d,here,named,_⟩ := valid.counters t.batchId c owner
    cases owned.symm.trans here
    refine (used user).trans ?_
    rw [valid.used,Int.add_assoc,named,reports_actual reported,same]
    exact congrArg _ (share_spent own copy found early first owner user).symm

end Steps

theorem assigned_tasks (same : p.executions.map Execution.assignment = o.executions.map Execution.assignment) :
    p.executions.map Execution.task = o.executions.map Execution.task := by
  have tasks := congrArg (List.map Assignment.task) same
  rw [List.map_map,List.map_map] at tasks
  exact tasks

theorem attempts_positive : 0 < maxAttempts taskMaxAttempts := by
  unfold maxAttempts
  omega

theorem accounted_step {action : Nat × Instant} (origin : Progress o.service.db o.service.inFlight)
    (distinct : (o.executions.map Execution.task).Nodup) (loads : ∀ name, 0 ≤ load name)
    (valid : Accounted codec (maxAttempts taskMaxAttempts) replies o load p)
    (step : Step codec alpha taskMaxAttempts replies p action q) :
    Accounted codec (maxAttempts taskMaxAttempts) replies o load q := by
  rw [← assigned_tasks valid.assigned] at distinct
  obtain ⟨x,found,⟨place,⟨t,_,rfl⟩ | ⟨gone,rfl⟩⟩ | ⟨body,attempt,lastError,next,place,rfl,rfl⟩ |
    ⟨result,lastError,place,⟨db,own,copy,done,_,_,rfl⟩ | ⟨e,_,rfl⟩⟩ | ⟨own,copy,place,rfl⟩⟩ := step_cases step
  · exact accounted_created valid found distinct place attempts_positive
  · have good := valid.each x (List.mem_of_getElem? found)
    simp only [Good,place] at good
    obtain ⟨⟨_,t,there,_⟩,_⟩ := good
    cases gone.symm.trans there
  · exact accounted_reply valid found distinct loads place
  · exact accounted_committed origin valid found distinct place done
  · have good := valid.each x (List.mem_of_getElem? found)
    simp only [Good,place] at good
    apply accounted_lost valid found distinct
    · simp [past,place]
    · intro name
      simp [busy,place]
    · exact good.2.1
  · exact accounted_finalized valid found distinct place

section Begin
variable {s : Service} {operations : List Service.Operation} {now : Instant}

theorem occupied_slots (chosen : List Assignment) (load : InFlight) (name : NodeName) :
    occupySlots chosen load name = load name + chosen.countP (fun a => a.nodeName == name) := by
  induction chosen generalizing load with
  | nil => simp [occupySlots]
  | cons a chosen ih =>
    have rest := ih (Function.update load a.nodeName (load a.nodeName + 1))
    simp only [occupySlots,List.foldl_cons,List.countP_cons] at rest ⊢
    rw [rest]
    by_cases mine : a.nodeName = name
    · subst mine
      simp
      omega
    · simp [mine,Ne.symm mine]

theorem begun_step (codec : Codec) (alpha : ℚ) (load : InFlight) (now : Instant) (s : Service) :
    Service.Step codec alpha s (.claimAndAssign load now) (begun load now s).service := rfl

theorem begun_distinct (load : InFlight) (now : Instant) (s : Service) :
    ((begun load now s).executions.map Execution.task).Nodup := by
  have tasks : (begun load now s).executions.map Execution.task = (assignments load s.db).map Assignment.task := by
    simp only [begun,claimAndAssign,List.map_map]
    rfl
  rw [tasks]
  exact assigned_distinct load s.db

theorem accounted_start (before : Progress s.db s.inFlight) (sized : Sized s.db) :
    Accounted codec attempts replies (begun load now s) load (begun load now s) := by
  have claim := begun_step codec 0 load now s
  have progress := step_progress before claim
  have idle : ∀ x ∈ (begun load now s).executions, x.stage = .created := by
    intro x member
    obtain ⟨a,_,rfl⟩ := List.mem_map.mp member
    rfl
  have early : ∀ x ∈ (begun load now s).executions, past x = false := by
    intro x member
    simp [past,idle x member]
  have none_ : ∀ f : Execution → Bool, (begun load now s).executions.countP (fun x => past x && f x) = 0 := by
    intro f
    apply List.countP_eq_zero.mpr
    intro x member
    simp [early x member]
  refine ⟨progress,step_sized sized claim,rfl,fun x member => ?_,fun name => ?_,fun k b first => ?_,
    fun user => ?_⟩
  · simp only [Good,idle x member]
    have flying : x.task ∈ (begun load now s).service.inFlight := by
      obtain ⟨a,listed,rfl⟩ := List.mem_map.mp member
      exact List.mem_append_right _ (List.mem_map_of_mem listed)
    obtain ⟨t,there,_⟩ := progress.flying x.task flying
    exact ⟨⟨flying,t,there,there⟩,rfl⟩
  · refine (occupied_slots _ load name).trans ?_
    simp only [begun,List.countP_map]
    rfl
  · refine ⟨b,first,rfl,?_,?_⟩
    · rw [none_]
      rfl
    · rw [none_]
      rfl
  · have zero : (begun load now s).executions.map
        (fun x => if past x then spent codec attempts replies (begun load now s) user x else 0) =
        (begun load now s).executions.map (fun _ => 0) :=
      List.map_congr_left fun x member => by simp [early x member]
    rw [zero]
    simp

theorem accounted_begun (start : Run (Service.Step codec alpha) {} operations s) :
    Accounted codec attempts replies (begun load now s) load (begun load now s) :=
  accounted_start (run_progress start) (run_sized start)

end Begin

end BatchGateway.PassSettlement
