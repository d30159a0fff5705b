import BatchGateway.LabelledRuns
import BatchGateway.Ledger

-- Grants by the running server and by admin processes beside it. Each process has
-- its own _budget_lock; the database serialises commits only.
namespace BatchGateway.CliGrants
open PythonText Ledger LabelledRuns

inductive Actor where
  | server (thread : Nat)
  | cli (process : Nat)
  deriving DecidableEq

structure Grant where
  user : UserId
  tokens : Int
  note : Option Str

-- `held` is a Budget row the session inserted itself and still has in its identity
-- map; db.get then returns it without a SELECT.
inductive Stage where
  | idle
  | called (g : Grant) (held : Option Budget)
  | entered (g : Grant) (held : Option Budget)
  | loaded (g : Grant) (copy : Option Budget)

structure State where
  db : Db := {}
  stages : Actor → Stage := fun _ => .idle
  lock : Option Nat := none

inductive Action where
  | call (a : Actor) (g : Grant)
  -- cmd_create_user and a first login: the account and its empty Budget are committed first.
  | createUser (a : Actor) (g : Grant) (keeps : Bool)
  | enter (a : Actor)
  | load (a : Actor)
  | commit (a : Actor)
  -- A process that dies, or an exception on the way.
  | leave (a : Actor)

def emptyBudget : Budget := ⟨0,0,0⟩

def setStage (s : State) (a : Actor) (stage : Stage) : State := {s with stages := Function.update s.stages a stage}

-- Leaving the with block, or the process.
def unlock (s : State) : Actor → State
  | .server thread => if s.lock = some thread then {s with lock := none} else s
  | .cli _ => s

@[simp] theorem unlock_db (s : State) (a : Actor) : (unlock s a).db = s.db := by
  cases a with
  | cli => rfl
  | server thread =>
    simp only [unlock]
    split <;> rfl

@[simp] theorem unlock_stages (s : State) (a : Actor) : (unlock s a).stages = s.stages := by
  cases a with
  | cli => rfl
  | server thread =>
    simp only [unlock]
    split <;> rfl

-- grant raises before it takes the lock unless the amount is positive.
def calling (g : Grant) (held : Option Budget) : Stage := if 0 < g.tokens then .called g held else .idle

-- No row has the id of a user not yet created.
def unknown (db : Db) (user : UserId) : Bool := (db.budgets user).isNone && db.ledger.all (fun e => e.userId != user)

-- The row the UPDATE leaves behind, the copy's granted_tokens in place of its own. A
-- second INSERT of a row fails, and so does an UPDATE that finds none.
def written (copy row : Option Budget) : Option Budget :=
  match copy,row with
  | none,none => some emptyBudget
  | some copy,some row => some {row with grantedTokens := copy.grantedTokens}
  | _,_ => none

def grantRow (g : Grant) (row : Budget) : Budget := {row with grantedTokens := row.grantedTokens + g.tokens}

def grantEntry (g : Grant) : LedgerEntry := {userId := g.user,entryType := .grant,grantedDelta := g.tokens,note := g.note}

-- UPDATE budgets, INSERT INTO ledger_entries, COMMIT.
def commitGrant (g : Grant) (copy : Option Budget) (db : Db) : Option Db :=
  (written copy (db.budgets g.user)).bind (fun row =>
    if (grantRow g row).fits && (grantEntry g).fits then some (post db g.user (grantRow g row) (grantEntry g)) else none)

def advance : Action → State → Option State
  | .call a g, s => match s.stages a with
    | .idle => some (setStage s a (calling g none))
    | _ => none
  | .createUser a g keeps, s => match s.stages a with
    | .idle =>
      if unknown s.db g.user then
        some (setStage {s with db := {s.db with budgets := Function.update s.db.budgets g.user (some emptyBudget)}} a
          (calling g (if keeps then some emptyBudget else none)))
      else none
    | _ => none
  | .enter a, s => match s.stages a,a with
    | .called g held,.server thread =>
      if s.lock = none then some (setStage {s with lock := some thread} a (.entered g held)) else none
    -- The only thread of its process.
    | .called g held,.cli _ => some (setStage s a (.entered g held))
    | _,_ => none
  | .load a, s => match s.stages a with
    | .entered g (some row) => some (setStage s a (.loaded g (some row)))
    | .entered g none => some (setStage s a (.loaded g (s.db.budgets g.user)))
    | _ => none
  | .commit a, s => match s.stages a with
    | .loaded g copy => (commitGrant g copy s.db).map (fun db => unlock (setStage {s with db := db} a .idle) a)
    | _ => none
  | .leave a, s => some (unlock (setStage s a .idle) a)

def Step (s : State) (action : Action) (t : State) : Prop := advance action s = some t

-- At a commit the row still has the granted_tokens its copy has.
def fresh (s : State) : Action → Bool
  | .commit a => match s.stages a with
    | .loaded g copy => (s.db.budgets g.user).map Budget.grantedTokens == copy.map Budget.grantedTokens
    | _ => true
  | _ => true

def Fresh (s : State) (action : Action) : Prop := fresh s action = true

instance (s : State) (action : Action) : Decidable (Fresh s action) := inferInstanceAs (Decidable (fresh s action = true))

def Finished (s : State) : Prop := ∀ a, s.stages a = .idle

def granted (db : Db) (user : UserId) : Int := (db.getOrCreateBudget user).grantedTokens

-- What the ledger replays to.
def recorded (db : Db) (user : UserId) : Int := (recomputeBudget db user).1

-- The granted_tokens a session has read and not yet written.
def Stage.copied : Stage → Option (Grant × Int)
  | .called g (some row) | .entered g (some row) => some (g,row.grantedTokens)
  | .loaded g copy => some (g,(copy.getD emptyBudget).grantedTokens)
  | _ => none

def Stage.Positive : Stage → Prop
  | .idle => True
  | .called g _ | .entered g _ | .loaded g _ => 0 < g.tokens

-- The columns no grant writes.
def Beside (db : Db) (user : UserId) : Prop :=
  (db.getOrCreateBudget user).reservedTokens = (recomputeBudget db user).2.1 ∧
  (db.getOrCreateBudget user).usedTokens = (recomputeBudget db user).2.2

structure Valid (s : State) : Prop where
  positive : ∀ a, (s.stages a).Positive
  beside : ∀ user, Beside s.db user

-- A user none of whose grants was lost, and one who has lost some: no copy in any
-- session can make up for them.
structure Whole (s : State) (user : UserId) : Prop where
  row : granted s.db user = recorded s.db user
  copies : ∀ a g c, (s.stages a).copied = some (g,c) → g.user = user → c ≤ recorded s.db user

structure Short (s : State) (user : UserId) : Prop where
  row : granted s.db user < recorded s.db user
  copies : ∀ a g c, (s.stages a).copied = some (g,c) → g.user = user → c < recorded s.db user

-- A step that commits no grant.
structure Quiet (s t : State) : Prop where
  rows : ∀ user, t.db.getOrCreateBudget user = s.db.getOrCreateBudget user
  ledger : t.db.ledger = s.db.ledger
  copies : ∀ a g c, (t.stages a).copied = some (g,c) → (s.stages a).copied = some (g,c) ∨ c = granted s.db g.user
  positive : (∀ a, (s.stages a).Positive) → ∀ a, (t.stages a).Positive

variable {s t : State} {user : UserId} {a : Actor}

theorem Quiet.recomputed (quiet : Quiet s t) (user : UserId) : recomputeBudget t.db user = recomputeBudget s.db user := by
  unfold recomputeBudget
  rw [quiet.ledger]

theorem Quiet.valid (quiet : Quiet s t) (valid : Valid s) : Valid t := by
  refine ⟨quiet.positive valid.positive,fun user => ?_⟩
  unfold Beside
  rw [quiet.rows,quiet.recomputed]
  exact valid.beside user

theorem Quiet.whole (quiet : Quiet s t) (whole : Whole s user) : Whole t user := by
  have same : recorded t.db user = recorded s.db user := congrArg Prod.fst (quiet.recomputed user)
  refine ⟨?_,fun a g c copied mine => ?_⟩
  · rw [same,granted,quiet.rows]
    exact whole.row
  · rw [same]
    rcases quiet.copies a g c copied with before | read
    · exact whole.copies a g c before mine
    · subst mine read
      exact le_of_eq whole.row

theorem Quiet.short (quiet : Quiet s t) (short : Short s user) : Short t user := by
  have same : recorded t.db user = recorded s.db user := congrArg Prod.fst (quiet.recomputed user)
  refine ⟨?_,fun a g c copied mine => ?_⟩
  · rw [same,granted,quiet.rows]
    exact short.row
  · rw [same]
    rcases quiet.copies a g c copied with before | read
    · exact short.copies a g c before mine
    · subst mine read
      exact short.row

-- One actor moves on to a stage whose copy, if any, it had or has just read.
theorem quiet_moved {stage : Stage} {lock : Option Nat}
    (copies : ∀ g c, stage.copied = some (g,c) → (s.stages a).copied = some (g,c) ∨ c = granted s.db g.user)
    (positive : (s.stages a).Positive → stage.Positive) :
    Quiet s {s with stages := Function.update s.stages a stage,lock := lock} := by
  refine ⟨fun _ => rfl,rfl,fun b g c copied => ?_,fun valid b => ?_⟩
  · dsimp only at copied
    by_cases here : b = a
    · subst here
      rw [Function.update_self] at copied
      exact copies g c copied
    · rw [Function.update_of_ne here] at copied
      exact .inl copied
  · dsimp only
    by_cases here : b = a
    · subst here
      rw [Function.update_self]
      exact positive (valid b)
    · rw [Function.update_of_ne here]
      exact valid b

theorem calling_positive (g : Grant) (held : Option Budget) : (calling g held).Positive := by
  unfold calling
  split
  · assumption
  · trivial

theorem calling_copied {g h : Grant} {held : Option Budget} {c : Int}
    (copied : (calling g held).copied = some (h,c)) : ∃ row, held = some row ∧ h = g ∧ c = row.grantedTokens := by
  unfold calling at copied
  split at copied
  · cases held with
    | none => cases copied
    | some row =>
      cases copied
      exact ⟨row,rfl,rfl,rfl⟩
  · cases copied

theorem call_quiet {g : Grant} (step : Step s (.call a g) t) : Quiet s t := by
  simp only [Step,advance] at step
  split at step
  · cases step
    refine quiet_moved (fun h c copied => ?_) (fun _ => calling_positive g none)
    obtain ⟨row,none,_⟩ := calling_copied copied
    cases none
  · cases step

theorem enter_quiet (step : Step s (.enter a) t) : Quiet s t := by
  simp only [Step,advance] at step
  split at step
  · rename_i g held thread waiting
    split at step
    · cases step
      refine quiet_moved (fun h c copied => .inl ?_) (fun positive => ?_)
      · rw [waiting]
        cases held <;> exact copied
      · rw [waiting] at positive
        exact positive
    · cases step
  · rename_i g held process waiting
    cases step
    refine quiet_moved (fun h c copied => .inl ?_) (fun positive => ?_)
    · rw [waiting]
      cases held <;> exact copied
    · rw [waiting] at positive
      exact positive
  · cases step

theorem load_quiet (step : Step s (.load a) t) : Quiet s t := by
  simp only [Step,advance] at step
  split at step
  · rename_i g row inside
    cases step
    refine quiet_moved (fun h c copied => .inl ?_) (fun positive => ?_)
    · rw [inside]
      exact copied
    · rw [inside] at positive
      exact positive
  · rename_i g inside
    cases step
    refine quiet_moved (fun h c copied => .inr ?_) (fun positive => ?_)
    · cases copied
      rfl
    · rw [inside] at positive
      exact positive
  · cases step

theorem leave_quiet (step : Step s (.leave a) t) : Quiet s t := by
  have idle : ∀ lock, Quiet s {s with stages := Function.update s.stages a .idle,lock := lock} := by
    intro lock
    refine quiet_moved (fun h c copied => ?_) (fun _ => trivial)
    cases copied
  cases step
  cases a with
  | cli process => exact idle s.lock
  | server thread =>
    simp only [unlock]
    split
    · exact idle none
    · exact idle s.lock

theorem createUser_quiet {g : Grant} {keeps : Bool} (step : Step s (.createUser a g keeps) t) : Quiet s t := by
  simp only [Step,advance] at step
  split at step
  · rename_i waiting
    split at step
    · rename_i fresh
      cases step
      have none : s.db.budgets g.user = none := by
        simp only [unknown,Bool.and_eq_true,Option.isNone_iff_eq_none] at fresh
        exact fresh.1
      refine ⟨fun user => ?_,rfl,fun b h c copied => ?_,fun valid b => ?_⟩
      · by_cases mine : user = g.user
        · subst mine
          simp [Db.getOrCreateBudget,setStage,none,emptyBudget]
        · simp [Db.getOrCreateBudget,setStage,Function.update_of_ne mine]
      · simp only [setStage] at copied
        by_cases here : b = a
        · subst here
          rw [Function.update_self] at copied
          obtain ⟨row,held,rfl,rfl⟩ := calling_copied copied
          refine .inr ?_
          split at held
          · cases held
            simp [granted,Db.getOrCreateBudget,none,emptyBudget]
          · cases held
        · rw [Function.update_of_ne here] at copied
          exact .inl copied
      · simp only [setStage]
        by_cases here : b = a
        · subst here
          rw [Function.update_self]
          exact calling_positive _ _
        · rw [Function.update_of_ne here]
          exact valid b
    · cases step
  · cases step

-- What a commit writes: the copy's value and the tokens, whatever the row holds by now.
structure Committed (s t : State) (a : Actor) (g : Grant) (copy : Option Budget) : Prop where
  loaded : s.stages a = .loaded g copy
  stages : t.stages = Function.update s.stages a .idle
  row : granted t.db g.user = (copy.getD emptyBudget).grantedTokens + g.tokens
  ledger : recorded t.db g.user = recorded s.db g.user + g.tokens
  others : ∀ user, user ≠ g.user → granted t.db user = granted s.db user ∧ recorded t.db user = recorded s.db user
  beside : ∀ user, Beside s.db user → Beside t.db user
  fresh : Fresh s (.commit a) ↔ (copy.getD emptyBudget).grantedTokens = granted s.db g.user

theorem written_parts {copy row : Option Budget} {base : Budget} (done : written copy row = some base) :
    base.grantedTokens = (copy.getD emptyBudget).grantedTokens ∧
    base.reservedTokens = (row.getD emptyBudget).reservedTokens ∧
    base.usedTokens = (row.getD emptyBudget).usedTokens ∧
    (row.map Budget.grantedTokens = copy.map Budget.grantedTokens ↔
      (copy.getD emptyBudget).grantedTokens = (row.getD emptyBudget).grantedTokens) := by
  cases copy with
  | none =>
    cases row with
    | none => cases done; simp
    | some row => cases done
  | some copy =>
    cases row with
    | none => cases done
    | some row =>
      cases done
      simp [eq_comm]

theorem commit_parts (step : Step s (.commit a) t) : ∃ g copy, Committed s t a g copy := by
  simp only [Step,advance] at step
  split at step
  · rename_i g copy loaded
    obtain ⟨db,committed,rfl⟩ := Option.map_eq_some_iff.mp step
    obtain ⟨base,wrote,done⟩ := Option.bind_eq_some_iff.mp committed
    split at done
    · cases done
      obtain ⟨value,reserved,used,current⟩ := written_parts wrote
      refine ⟨g,copy,loaded,unlock_stages _ _,?_,?_,fun user other => ?_,fun user beside => ?_,?_⟩
      · rw [unlock_db]
        simp [setStage,granted,grantRow,value]
      · rw [unlock_db]
        simp [setStage,recorded,recompute_post,grantEntry]
      · rw [unlock_db]
        have named : ¬ (grantEntry g).userId = user := fun same => other same.symm
        simp [setStage,granted,recorded,recompute_post,post_budget_other other,named]
      · rw [unlock_db]
        unfold Beside at beside ⊢
        by_cases mine : user = g.user
        · subst mine
          have kept : (s.db.getOrCreateBudget g.user) = (s.db.budgets g.user).getD emptyBudget := rfl
          rw [kept] at beside
          simp [setStage,recompute_post,grantEntry,grantRow,reserved,used,beside.1,beside.2]
        · have named : ¬ (grantEntry g).userId = user := fun same => mine same.symm
          simpa [setStage,recompute_post,post_budget_other mine,named] using beside
      · have kept : granted s.db g.user = ((s.db.budgets g.user).getD emptyBudget).grantedTokens := rfl
        rw [kept,← current]
        simp [Fresh,fresh,loaded]
    · cases done
  · cases step

theorem Committed.copies {g : Grant} {copy : Option Budget} (done : Committed s t a g copy) {b : Actor} {h : Grant} {c : Int}
    (copied : (t.stages b).copied = some (h,c)) : (s.stages b).copied = some (h,c) := by
  rw [done.stages] at copied
  by_cases here : b = a
  · subst here
    rw [Function.update_self] at copied
    cases copied
  · rwa [Function.update_of_ne here] at copied

theorem Committed.valid {g : Grant} {copy : Option Budget} (done : Committed s t a g copy) (valid : Valid s) : Valid t := by
  refine ⟨fun b => ?_,fun user => done.beside user (valid.beside user)⟩
  rw [done.stages]
  by_cases here : b = a
  · subst here
    rw [Function.update_self]
    trivial
  · rw [Function.update_of_ne here]
    exact valid.positive b

theorem Committed.positive {g : Grant} {copy : Option Budget} (done : Committed s t a g copy) (valid : Valid s) :
    0 < g.tokens := by
  have held := valid.positive a
  rw [done.loaded] at held
  exact held

-- A commit from a current copy loses nothing.
theorem Committed.whole {g : Grant} {copy : Option Budget} (done : Committed s t a g copy) (valid : Valid s)
    (fresh : Fresh s (.commit a)) (whole : Whole s user) : Whole t user := by
  have positive := done.positive valid
  by_cases mine : user = g.user
  · subst mine
    have current := done.fresh.1 fresh
    refine ⟨?_,fun b h c copied there => ?_⟩
    · rw [done.row,done.ledger,current,whole.row]
    · rw [done.ledger]
      have bound := whole.copies b h c (done.copies copied) there
      omega
  · obtain ⟨row,ledger⟩ := done.others user mine
    refine ⟨by rw [row,ledger]; exact whole.row,fun b h c copied there => ?_⟩
    rw [ledger]
    exact whole.copies b h c (done.copies copied) there

-- One from an older copy loses what was granted since, for good.
theorem Committed.stale {g : Grant} {copy : Option Budget} (done : Committed s t a g copy) (valid : Valid s)
    (stale : ¬ Fresh s (.commit a)) (whole : Whole s g.user) : Short t g.user := by
  have positive := done.positive valid
  have different : (copy.getD emptyBudget).grantedTokens ≠ granted s.db g.user := fun same => stale (done.fresh.2 same)
  have bound := whole.copies a g _ (by rw [done.loaded]; rfl) rfl
  have row := whole.row
  refine ⟨?_,fun b h c copied there => ?_⟩
  · rw [done.row,done.ledger]
    omega
  · rw [done.ledger]
    have bound := whole.copies b h c (done.copies copied) there
    omega

theorem Committed.short {g : Grant} {copy : Option Budget} (done : Committed s t a g copy) (valid : Valid s)
    (short : Short s user) : Short t user := by
  have positive := done.positive valid
  by_cases mine : user = g.user
  · subst mine
    have bound := short.copies a g _ (by rw [done.loaded]; rfl) rfl
    refine ⟨?_,fun b h c copied there => ?_⟩
    · rw [done.row,done.ledger]
      omega
    · rw [done.ledger]
      have bound := short.copies b h c (done.copies copied) there
      omega
  · obtain ⟨row,ledger⟩ := done.others user mine
    refine ⟨by rw [row,ledger]; exact short.row,fun b h c copied there => ?_⟩
    rw [ledger]
    exact short.copies b h c (done.copies copied) there

theorem step_parts {action : Action} (step : Step s action t) :
    (Quiet s t ∧ Fresh s action) ∨ ∃ a g copy, action = .commit a ∧ Committed s t a g copy := by
  cases action with
  | call a g => exact .inl ⟨call_quiet step,rfl⟩
  | createUser a g keeps => exact .inl ⟨createUser_quiet step,rfl⟩
  | enter a => exact .inl ⟨enter_quiet step,rfl⟩
  | load a => exact .inl ⟨load_quiet step,rfl⟩
  | leave a => exact .inl ⟨leave_quiet step,rfl⟩
  | commit a =>
    obtain ⟨g,copy,done⟩ := commit_parts step
    exact .inr ⟨a,g,copy,rfl,done⟩

def begun (db : Db) : State := {db := db}

theorem step_functional (s : State) (action : Action) (t u : State) (first : Step s action t) (second : Step s action u) :
    t = u := Option.some.inj (first.symm.trans second)

-- Either nothing was lost and every commit was fresh, or some user is short and some commit was not.
theorem step_valid {action : Action} (valid : Valid s) (step : Step s action t) : Valid t := by
  rcases step_parts step with ⟨quiet,_⟩ | ⟨a,g,copy,_,done⟩
  · exact quiet.valid valid
  · exact done.valid valid

theorem step_whole {action : Action} (valid : Valid s) (whole : ∀ user, Whole s user) (step : Step s action t)
    (fresh : Fresh s action) (user : UserId) : Whole t user := by
  rcases step_parts step with ⟨quiet,_⟩ | ⟨a,g,copy,rfl,done⟩
  · exact quiet.whole (whole user)
  · exact done.whole valid fresh (whole user)

theorem step_stale {action : Action} (valid : Valid s) (whole : ∀ user, Whole s user) (step : Step s action t)
    (stale : ¬ Fresh s action) : ∃ user, Short t user := by
  rcases step_parts step with ⟨_,fresh⟩ | ⟨a,g,copy,rfl,done⟩
  · exact absurd fresh stale
  · exact ⟨g.user,done.stale valid stale (whole g.user)⟩

theorem step_short {action : Action} (valid : Valid s) (short : Short s user) (step : Step s action t) : Short t user := by
  rcases step_parts step with ⟨quiet,_⟩ | ⟨a,g,copy,_,done⟩
  · exact quiet.short short
  · exact done.short valid short

theorem begun_valid {db : Db} (start : Reconciled db) : Valid (begun db) := by
  refine ⟨fun _ => trivial,fun user => ?_⟩
  have same : Budget.columns (db.getOrCreateBudget user) = recomputeBudget db user := start user
  simp only [Budget.columns] at same
  exact ⟨congrArg (fun c => c.2.1) same,congrArg (fun c => c.2.2) same⟩

theorem begun_whole {db : Db} (start : Reconciled db) (user : UserId) : Whole (begun db) user := by
  have same : Budget.columns (db.getOrCreateBudget user) = recomputeBudget db user := start user
  refine ⟨congrArg Prod.fst same,fun a g c copied => ?_⟩
  cases copied

theorem fresh_divides : Divides Fresh Step Valid (fun s => ∀ user, Whole s user) (fun s => ∃ user, Short s user) where
  functional := step_functional
  valid := step_valid
  keeps := step_whole
  breaks := step_stale
  remains := by
    rintro _ _ _ valid ⟨user,short⟩ step
    exact ⟨user,step_short valid short step⟩

-- The rows replay, and so hold the sum of all grants, exactly if every commit was fresh.
theorem grants_kept_iff {db : Db} {actions : List Action} (start : Reconciled db) (path : Run Step (begun db) actions s) :
    Reconciled s.db ↔ Run (Guarded Fresh Step) (begun db) actions s := by
  obtain ⟨valid,⟨whole,guarded⟩ | ⟨⟨user,short⟩,unguarded⟩⟩ :=
    fresh_divides.run path (begun_valid start) (begun_whole start)
  · refine ⟨fun _ => guarded,fun _ user => ?_⟩
    obtain ⟨reserved,used⟩ := valid.beside user
    have row := (whole user).row
    exact Prod.ext row (Prod.ext reserved used)
  · refine ⟨fun reconciled => ?_,fun guarded => absurd guarded unguarded⟩
    have row : granted s.db user = recorded s.db user := congrArg Prod.fst (reconciled user)
    exact absurd row (Int.ne_of_lt short.row)

def serverGrant : Grant := ⟨7,10,none⟩
def cliGrant : Grant := ⟨7,5,none⟩

def otherGrant : Grant := ⟨8,20,none⟩

-- While the server grants, one CLI process grants to another user, and one to the same
-- user, but reads the row after the server's commit.
def inTurn : List Action :=
  [.createUser (.server 0) serverGrant false,.enter (.server 0),.createUser (.cli 1) otherGrant true,.load (.server 0),
    .call (.cli 0) cliGrant,.enter (.cli 1),.enter (.cli 0),.load (.cli 1),.commit (.server 0),.load (.cli 0),
    .commit (.cli 1),.commit (.cli 0)]

-- This one reads before it, and commits after it.
def crossed : List Action :=
  [.createUser (.server 0) serverGrant false,.enter (.server 0),.call (.cli 0) cliGrant,.enter (.cli 0),.load (.cli 0),
    .load (.server 0),.commit (.server 0),.commit (.cli 0)]

theorem grants_kept_in_turn : ∃ s : State, Reconciled s.db ∧ granted s.db 7 = 15 ∧ granted s.db 8 = 20 := by
  have ran : (replay (checked Fresh advance) inTurn (begun {})).any
      (fun s => decide (granted s.db 7 = 15 ∧ granted s.db 8 = 20)) = true := by decide +kernel
  obtain ⟨s,path,sums⟩ := checked_reaches ran
  exact ⟨s,(grants_kept_iff (fun _ => rfl) path.unguarded).2 path,of_decide_eq_true sums⟩

theorem crossed_run : ∃ s, Run Step (begun {}) crossed s ∧ Finished s ∧ granted s.db 7 = 5 ∧ recorded s.db 7 = 15 := by
  refine ⟨_,replay_run rfl,fun a => ?_,?_,?_⟩
  · by_cases server : a = .server 0
    · subst server
      rfl
    · by_cases cli : a = .cli 0
      · subst cli
        rfl
      · simp [unlock,setStage,begun,server,cli]
  · decide
  · decide

theorem cli_grant_lost : ¬ ∀ actions s, Run Step (begun {}) actions s → Finished s → Reconciled s.db := by
  intro always
  obtain ⟨s,path,finished,row,ledger⟩ := crossed_run
  have same : granted s.db 7 = recorded s.db 7 := congrArg Prod.fst (always crossed s path finished 7)
  rw [row,ledger] at same
  cases same

end BatchGateway.CliGrants
