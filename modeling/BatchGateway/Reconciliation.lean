import BatchGateway.LabelledRuns
import BatchGateway.Ledger
import Mathlib.Algebra.Group.Prod

-- One request to reconcile a user's budget while ledger calls go on. It takes no
-- lock: it replays the ledger, reads the row, and writes what it replayed.
namespace BatchGateway.Reconciliation
open Raising Ledger LabelledRuns

-- granted, reserved and used tokens
abbrev Columns := Int × Int × Int

-- `atRow` and `atWrite` keep what the ledger replayed to at the two later steps;
-- the request itself never looks at them.
inductive Stage where
  | idle
  | ledgerRead (replayed : Columns)
  | rowRead (replayed : Columns) (copy : Budget) (atRow : Columns)
  | finished (replayed atRow atWrite : Columns)
  | raised

structure State where
  db : Db
  stage : Stage

inductive Action where
  | call (request : Request)
  | readLedger
  | readRow
  | finish

-- An UPDATE of the columns that differ from the session's copy.
def overwrite (replayed : Columns) (copy row : Budget) : Budget where
  grantedTokens := if copy.grantedTokens = replayed.1 then row.grantedTokens else replayed.1
  reservedTokens := if copy.reservedTokens = replayed.2.1 then row.reservedTokens else replayed.2.1
  usedTokens := if copy.usedTokens = replayed.2.2 then row.usedTokens else replayed.2.2

def writeRow (user : UserId) (row : Budget) (db : Db) : Db := {db with budgets := Function.update db.budgets user (some row)}

def fitsColumns (c : Columns) : Bool := fitsInteger c.1 && fitsInteger c.2.1 && fitsInteger c.2.2

-- The comparison, and the commit if the row has drifted.
def reconcile (user : UserId) (replayed : Columns) (copy : Budget) (db : Db) : Except Raised Db :=
  if Budget.columns copy = replayed then .ok db
  else do
    require (fitsColumns replayed) .overflowError
    return writeRow user (overwrite replayed copy (db.getOrCreateBudget user)) db

-- A ledger call is one step, as _budget_lock makes it; one that raises is none.
def advance (user : UserId) : Action → State → Option State
  | .call request, s => (returned (perform (.ok ()) request.call s.db)).map (fun db => {s with db := db})
  | .readLedger, s => match s.stage with
    | .idle => some {s with stage := .ledgerRead (recomputeBudget s.db user)}
    | _ => none
  | .readRow, s => match s.stage with
    | .ledgerRead replayed =>
      some {s with stage := .rowRead replayed (s.db.getOrCreateBudget user) (recomputeBudget s.db user)}
    | _ => none
  | .finish, s => match s.stage with
    | .rowRead replayed copy atRow => match reconcile user replayed copy s.db with
      | .ok db => some ⟨db,.finished replayed atRow (recomputeBudget s.db user)⟩
      | .error _ => some {s with stage := .raised}
    | _ => none

def Step (user : UserId) (s : State) (a : Action) (t : State) : Prop := advance user a s = some t

def Matches (db : Db) (user : UserId) : Prop := Budget.columns (db.getOrCreateBudget user) = recomputeBudget db user

-- The calls between the two reads left the column alone, or those until the write
-- took back what they did.
def Undone (column : Columns → Int) (replayed atRow atWrite : Columns) : Prop :=
  column atRow = column replayed ∨ column atWrite = column replayed

def Harmless (replayed atRow atWrite : Columns) : Prop :=
  Undone Prod.fst replayed atRow atWrite ∧ Undone (fun c => c.2.1) replayed atRow atWrite ∧
  Undone (fun c => c.2.2) replayed atRow atWrite

-- How far the row is from the ledger.
def drift (db : Db) (user : UserId) : Columns := Budget.columns (db.getOrCreateBudget user) - recomputeBudget db user

variable {user : UserId} {db after : Db} {s t : State}

theorem matches_iff : Matches db user ↔ drift db user = 0 := by
  unfold Matches drift
  rw [sub_eq_zero]

-- A ledger call moves the row and the ledger alike.
theorem call_drift {request : Request} (done : perform (.ok ()) request.call db = .ok after) :
    drift after user = drift db user := by
  obtain ⟨_,_,row,entry,moved,_,_,rfl⟩ := perform_parts done
  obtain ⟨named,granted,reserved,used⟩ := move_balanced moved
  unfold drift
  rw [recompute_post]
  by_cases same : user = request.call.user
  · subst same
    rw [if_pos named,post_budget_self]
    ext
    · simp [Budget.columns,granted]
    · simp [Budget.columns,reserved]
    · simp [Budget.columns,used]
  · rw [if_neg (by rw [named]; exact Ne.symm same),post_budget_other same]

-- What is left of a column after the write, seen from the ledger at the write.
def shift (column : Columns → Int) (replayed atRow atWrite : Columns) : Int :=
  if column atRow = column replayed then 0 else column replayed - column atWrite

def shifts (replayed atRow atWrite : Columns) : Columns :=
  (shift Prod.fst replayed atRow atWrite,shift (fun c => c.2.1) replayed atRow atWrite,
    shift (fun c => c.2.2) replayed atRow atWrite)

theorem shift_undone {column : Columns → Int} {replayed atRow atWrite : Columns} :
    shift column replayed atRow atWrite = 0 ↔ Undone column replayed atRow atWrite := by
  unfold shift Undone
  split
  · rename_i same
    simp [same]
  · rename_i moved
    rw [sub_eq_zero]
    exact ⟨fun same => .inr same.symm,fun undone => (undone.resolve_left moved).symm⟩

theorem shifts_harmless {replayed atRow atWrite : Columns} :
    shifts replayed atRow atWrite = 0 ↔ Harmless replayed atRow atWrite := by
  simp only [shifts,Harmless,Prod.mk_eq_zero,shift_undone]

-- What is known of the tables at each stage.
def Traced (user : UserId) (s : State) : Prop :=
  match s.stage with
  | .rowRead _ copy atRow => drift s.db user = 0 ∧ Budget.columns copy = atRow
  | .finished replayed atRow atWrite => drift s.db user = shifts replayed atRow atWrite
  | _ => drift s.db user = 0

theorem overwritten (copy replayed row : Int) :
    (if copy = replayed then row else replayed) - row = if copy = replayed then 0 else replayed - row := by
  split
  · exact sub_self row
  · rfl

theorem reconcile_drift {replayed atRow : Columns} {copy : Budget} (valid : drift db user = 0)
    (read : Budget.columns copy = atRow) (done : reconcile user replayed copy db = .ok after) :
    drift after user = shifts replayed atRow (recomputeBudget db user) := by
  subst read
  have row := matches_iff.mpr valid
  unfold reconcile at done
  split at done
  · rename_i same
    cases done
    subst same
    rw [valid]
    exact (shifts_harmless.mpr ⟨.inl rfl,.inl rfl,.inl rfl⟩).symm
  · obtain ⟨_,_,done⟩ := bind_ok done
    rw [pure_ok done]
    have columns : recomputeBudget (writeRow user (overwrite replayed copy (db.getOrCreateBudget user)) db) user =
        recomputeBudget db user := rfl
    have written : (writeRow user (overwrite replayed copy (db.getOrCreateBudget user)) db).getOrCreateBudget user =
        overwrite replayed copy (db.getOrCreateBudget user) := by simp [writeRow,Db.getOrCreateBudget]
    unfold drift
    rw [columns,written,← row]
    ext
    · exact overwritten _ _ _
    · exact overwritten _ _ _
    · exact overwritten _ _ _

theorem traced_preserved {a : Action} (valid : Traced user s) (step : Step user s a t) : Traced user t := by
  cases a with
  | call request =>
    obtain ⟨after,done,rfl⟩ := Option.map_eq_some_iff.mp step
    have same : drift after user = drift _ user := call_drift (returned_some.mp done)
    simp only [Traced,same] at valid ⊢
    exact valid
  | readLedger =>
    simp only [Step,advance] at step
    split at step
    · rename_i idle
      cases step
      simpa only [Traced,idle] using valid
    · cases step
  | readRow =>
    simp only [Step,advance] at step
    split at step
    · rename_i replayed read
      cases step
      have before : drift s.db user = 0 := by simpa only [Traced,read] using valid
      exact ⟨before,matches_iff.mpr before⟩
    · cases step
  | finish =>
    simp only [Step,advance] at step
    split at step
    · rename_i replayed copy atRow read
      have before : drift s.db user = 0 ∧ Budget.columns copy = atRow := by simpa only [Traced,read] using valid
      split at step
      · rename_i after done
        cases step
        exact reconcile_drift before.1 before.2 done
      · cases step
        exact before.1
    · cases step

-- The row matches the ledger in the end exactly if what the calls committed
-- between the two reads did to a column is nothing, or undone before the write.
theorem reconciled_iff {actions : List Action} {replayed atRow atWrite : Columns} (valid : Matches db user)
    (path : Run (Step user) ⟨db,.idle⟩ actions ⟨after,.finished replayed atRow atWrite⟩) :
    Matches after user ↔ Harmless replayed atRow atWrite := by
  have traced : Traced user ⟨after,.finished replayed atRow atWrite⟩ :=
    path.preserves (I := Traced user) (matches_iff.mp valid) fun _ _ _ before step => traced_preserved before step
  have final : drift after user = shifts replayed atRow atWrite := traced
  rw [matches_iff,final,shifts_harmless]

-- A grant that commits after both reads.
theorem reconciled_iff_granted : ∃ after, (after.getOrCreateBudget 7).grantedTokens = 15 ∧ Matches after 7 := by
  have ran : (replay (advance 7) [.call (.grant 7 10 none),.readLedger,.readRow,.call (.grant 7 5 none),.finish]
      ⟨{},.idle⟩).any (fun s => (s.db.getOrCreateBudget 7).grantedTokens == 15 && (match s.stage with
        | .finished replayed atRow atWrite => replayed == (10,0,0) && atRow == (10,0,0) && atWrite == (15,0,0)
        | _ => false)) = true := by decide +kernel
  obtain ⟨⟨after,stage⟩,path,facts⟩ := replay_reaches ran
  obtain ⟨granted,facts⟩ := Bool.and_eq_true_iff.mp facts
  cases stage with
  | finished replayed atRow atWrite =>
    simp only [Bool.and_eq_true,beq_iff_eq] at facts
    obtain ⟨⟨rfl,rfl⟩,rfl⟩ := facts
    have start : Matches {} 7 := rfl
    exact ⟨after,eq_of_beq granted,(reconciled_iff start path).mpr ⟨.inl rfl,.inl rfl,.inl rfl⟩⟩
  | _ => cases facts

-- A reservation commits between the two reads and is written away.
def reserveBetweenReads : List Action :=
  [.call (.grant 7 10 none),.readLedger,.call (.reserve 7 4 none none),.readRow,.finish]

theorem reconcile_introduces_drift : Matches {} 7 ∧ ∃ s, Run (Step 7) ⟨{},.idle⟩ reserveBetweenReads s ∧
    (∃ replayed atRow atWrite, s.stage = .finished replayed atRow atWrite) ∧
    Budget.columns (s.db.getOrCreateBudget 7) = (10,0,0) ∧ recomputeBudget s.db 7 = (10,4,0) := by
  have ran : (replay (advance 7) reserveBetweenReads ⟨{},.idle⟩).any (fun s =>
      Budget.columns (s.db.getOrCreateBudget 7) == (10,0,0) && (recomputeBudget s.db 7 == (10,4,0) && (match s.stage with
        | .finished _ _ _ => true
        | _ => false))) = true := by decide +kernel
  obtain ⟨⟨after,stage⟩,path,facts⟩ := replay_reaches ran
  obtain ⟨row,facts⟩ := Bool.and_eq_true_iff.mp facts
  obtain ⟨ledger,facts⟩ := Bool.and_eq_true_iff.mp facts
  cases stage with
  | finished replayed atRow atWrite => exact ⟨rfl,_,path,⟨_,_,_,rfl⟩,eq_of_beq row,eq_of_beq ledger⟩
  | _ => cases facts

end BatchGateway.Reconciliation
