import BatchGateway.SessionLocks

-- What each operation sends to the database, and where it holds _budget_lock.
namespace BatchGateway.LockOrder
open SessionLocks LabelledRuns

-- get_or_create_budget; a missing row is added and flushed.
def getOrCreateBudget (missing : Bool) : List Statement := .select :: if missing then [.change,.flush] else []

-- The block of grant, reserve, release and charge, to its end.
def ledgerCall (missing : Bool) : List Statement :=
  .enter :: getOrCreateBudget missing ++ [.change,.change,.commit,.select,.leave]

-- _maybe_finalize_batch where it is due; `failures` tells whether a task failed.
def maybeFinalizeBatch : Option Bool → List Statement
  | none => []
  | some failures => [.change,.select,.change,.flush,.change] ++ (if failures then [.change,.flush,.change] else []) ++
      [.change,.commit]

-- update_dispatch_stats, if the task gives a sample.
def updateDispatchStats (sampled newStat : Bool) : List Statement :=
  if sampled then .select :: (if newStat then [.change] else []) ++ [.change] else []

-- A release, or a plain commit where there is nothing to release.
def releaseOrCommit (held missing : Bool) : List Statement := if held then ledgerCall missing else [.commit]

inductive Operation where
  | completeTask (sampled newStat missing : Bool) (finalization : Option Bool)
  | failTask (held missing : Bool) (finalization : Option Bool)
  | grant (missing : Bool)
  | createBatch (lines : Nat) (missing : Bool)
  | cancelBatch (stopped : Nat) (held missing : Bool)
  -- for each overdue batch the tasks it stops
  | expireOverdueBatches (batches : List (Nat × Bool × Bool))

-- From the SELECT of the task to the SELECT of its user: the SELECT of the Batch
-- row comes after the change of the task, and so flushes it.
def settlement : List Statement := [.select,.change,.select,.change,.select]

def terminateBatch (stopped : Nat) (held missing : Bool) : List Statement :=
  .select :: List.replicate stopped .change ++ .change :: releaseOrCommit held missing ++ [.select]

-- The sessions of requests first load the key, the user and the row they work on.
def Operation.program : Operation → List Statement
  | .completeTask sampled newStat missing finalization =>
    settlement ++ updateDispatchStats sampled newStat ++ ledgerCall missing ++ maybeFinalizeBatch finalization ++ [.select,.close]
  | .failTask held missing finalization =>
    settlement ++ releaseOrCommit held missing ++ maybeFinalizeBatch finalization ++ [.select,.close]
  | .grant missing => .select :: ledgerCall missing ++ [.close]
  | .createBatch lines missing =>
    [.select,.select,.select] ++ .change :: List.replicate lines .change ++ ledgerCall missing ++ [.select,.close]
  | .cancelBatch stopped held missing => [.select,.select,.select] ++ terminateBatch stopped held missing ++ [.close]
  | .expireOverdueBatches batches =>
    .select :: batches.flatMap (fun b => .select :: terminateBatch b.1 b.2.1 b.2.2) ++ [.close]

theorem covered_more (inside : Bool) (n : Nat) (rest : List Statement) :
    covered inside true (List.replicate n .change ++ rest) = covered inside true rest := by
  induction n with
  | zero => rfl
  | succ n ih => exact ih

theorem covered_changes (inside changed : Bool) (n : Nat) (rest : List Statement) :
    covered inside changed (List.replicate n .change ++ .change :: rest) = covered inside true rest := by
  cases n with
  | zero => rfl
  | succ n => exact covered_more inside n (.change :: rest)

-- A ledger call and a plain commit both leave nothing behind that is not flushed.
theorem covered_release (changed held missing : Bool) (rest : List Statement) :
    covered false changed (releaseOrCommit held missing ++ rest) = covered false false rest := by
  cases held <;> cases missing <;> cases changed <;>
    simp [releaseOrCommit,ledgerCall,getOrCreateBudget,covered,block]

theorem covered_ledger (changed missing : Bool) (rest : List Statement) :
    covered false changed (ledgerCall missing ++ rest) = covered false false rest :=
  covered_release changed true missing rest

theorem covered_finalization (finalization : Option Bool) (rest : List Statement) :
    covered false false (maybeFinalizeBatch finalization ++ rest) = covered false false rest := by
  cases finalization with
  | none => rfl
  | some failures => cases failures <;> simp [maybeFinalizeBatch,covered]

theorem covered_terminate (stopped : Nat) (held missing : Bool) (rest : List Statement) :
    covered false false (terminateBatch stopped held missing ++ rest) = covered false false rest := by
  simp only [terminateBatch,List.cons_append,List.append_assoc,covered,Bool.false_and,Bool.not_false,Bool.true_or,
    Bool.true_and,covered_changes,covered_release,List.nil_append]

theorem covered_expiry (batches : List (Nat × Bool × Bool)) (rest : List Statement) :
    covered false false (batches.flatMap (fun b => .select :: terminateBatch b.1 b.2.1 b.2.2) ++ rest) =
      covered false false rest := by
  induction batches with
  | nil => rfl
  | cons b batches ih =>
    simp only [List.flatMap_cons,List.cons_append,List.append_assoc,covered,Bool.false_and,Bool.not_false,Bool.true_or,
      Bool.true_and,covered_terminate]
    exact ih

theorem covered_operation (op : Operation) : covered false false op.program = true := by
  cases op with
  | completeTask sampled newStat missing finalization =>
    have stats : ∀ rest, covered false false (updateDispatchStats sampled newStat ++ (ledgerCall missing ++ rest)) =
        covered false false rest := by
      intro rest
      cases sampled <;> cases newStat <;>
        simp [updateDispatchStats,covered,covered_ledger]
    simp [Operation.program,settlement,covered,stats,covered_finalization]
  | failTask held missing finalization =>
    simp [Operation.program,settlement,covered,covered_release,covered_finalization]
  | grant missing => simp [Operation.program,covered,covered_ledger]
  | createBatch lines missing => simp [Operation.program,covered,covered_more,covered_ledger]
  | cancelBatch stopped held missing => simp [Operation.program,covered,covered_terminate]
  | expireOverdueBatches batches => simp [Operation.program,covered,covered_expiry]

theorem operation_proper (op : Operation) : Proper op.program := by
  refine ⟨covered_operation op,?_⟩
  cases op <;> simp [Operation.program]

variable {τ : Type} [DecidableEq τ] {s : State τ}

-- Any number of threads running any operations one after another: no deadlock, if
-- no settlement flushes its task while another thread is in a ledger call ahead of
-- its commit, and none enters a ledger call while a settlement has yet to.
theorem operations_unlocked {actions : List (Action τ Operation)}
    (path : Run (Guarded Apart (Step Operation.program)) start actions s) : ¬ Deadlocked s :=
  run_unlocked operation_proper path

instance (s : State Bool) : (a : Action Bool Operation) → Decidable (Apart s a)
  | .proceed t => inferInstanceAs (Decidable ((_ → _ → ∀ u : Bool, u ≠ t → _ → _) ∧ (_ → ∀ u : Bool, u ≠ t → _ → _)))
  | .begin _ _ | .raised _ _ => .isTrue trivial

-- A settlement flushes its task, a grant waits outside the block, and both end.
theorem operations_unlocked_settled : ∃ s : State Bool, s.writer = none ∧ s.mutex = none ∧
    (s.thread true).rest = [] ∧ (s.thread false).rest = [] ∧ ¬ Deadlocked s := by
  have ran : (replay (checked Apart (advance Operation.program)) ([.begin true (.completeTask true false false (some true)),
      .begin false (.grant false),.proceed false] ++ List.replicate 26 (.proceed true) ++ List.replicate 8 (.proceed false))
      start).any (fun s => decide (s.writer = none ∧ s.mutex = none ∧ (s.thread true).rest = [] ∧ (s.thread false).rest = [])) =
      true := by decide +kernel
  obtain ⟨s,path,facts⟩ := checked_reaches ran
  obtain ⟨writer,mutex,first,second⟩ := of_decide_eq_true facts
  exact ⟨s,writer,mutex,first,second,operations_unlocked path⟩

-- complete_task has flushed its task and asks for _budget_lock; a grant holds it
-- and asks for the writer lock to commit.
theorem settlement_and_grant_deadlock : ∃ s : State Bool, Run (Step Operation.program) start
    ([.begin true (.completeTask true false false none),.begin false (.grant false)] ++ List.replicate 7 (.proceed true) ++
      List.replicate 5 (.proceed false)) s ∧ Deadlocked s := by
  have ran : (replay (advance Operation.program) ([.begin true (.completeTask true false false none),
      .begin false (.grant false)] ++ List.replicate 7 (.proceed true) ++ List.replicate 5 (.proceed false))
      (start : State Bool)).any (fun s => decide (s.writer = some true ∧ s.mutex = some false ∧
        (s.thread true).wantsMutex = true ∧ (s.thread false).wantsWriter = true)) = true := by decide +kernel
  obtain ⟨s,path,facts⟩ := replay_reaches ran
  obtain ⟨writes,enters,waits,stuck⟩ := of_decide_eq_true facts
  exact ⟨s,path,true,false,by simp,writes,enters,waits,stuck⟩

end BatchGateway.LockOrder
