import BatchGateway.Models
import BatchGateway.Raising
import Mathlib.Tactic.Linarith

namespace BatchGateway.Ledger
open PythonText Raising

-- One call into ledger.py: the test made before _budget_lock is taken, and what
-- is decided from the Budget row while it is held.
structure Call where
  user : UserId
  check : Except Raised Unit
  move : Budget → Except Raised (Budget × LedgerEntry)

def positive (message : String) (tokens : Int) : Except Raised Unit :=
  if tokens ≤ 0 then .error (.valueError message) else .ok ()

def grant (user : UserId) (tokens : Int) (note : Option Str) : Call where
  user := user
  check := positive "grant amount must be positive" tokens
  move budget := .ok ({budget with grantedTokens := budget.grantedTokens + tokens},
    {userId := user,entryType := .grant,grantedDelta := tokens,note := note})

def reserve (user : UserId) (tokens : Int) (batchId : Option BatchId) (note : Option Str) : Call where
  user := user
  check := positive "reserve amount must be positive" tokens
  move budget :=
    if tokens > budget.availableTokens then .error (.insufficientBudget tokens budget.availableTokens)
    else .ok ({budget with reservedTokens := budget.reservedTokens + tokens},
      {userId := user,entryType := .reserve,reservedDelta := tokens,batchId := batchId,note := note})

def release (user : UserId) (tokens : Int) (batchId : Option BatchId) (taskId : Option TaskId)
    (note : Option Str) : Call where
  user := user
  check := positive "release amount must be positive" tokens
  move budget :=
    let releaseAmount := min tokens budget.reservedTokens
    .ok ({budget with reservedTokens := budget.reservedTokens - releaseAmount},
      {userId := user,entryType := .release,reservedDelta := -releaseAmount,batchId := batchId,
       taskId := taskId,note := note})

-- The excess of actualTokens over the hold is charged too, so the available
-- tokens can become negative here.
def charge (user : UserId) (reservedTokens actualTokens : Int) (batchId : Option BatchId)
    (taskId : Option TaskId) (note : Option Str) : Call where
  user := user
  check := if reservedTokens < 0 ∨ actualTokens < 0 then .error (.valueError "token amounts must be non-negative")
    else .ok ()
  move budget :=
    let released := min reservedTokens budget.reservedTokens
    .ok ({budget with
        reservedTokens := budget.reservedTokens - released
        usedTokens := budget.usedTokens + actualTokens},
      {userId := user,entryType := .charge,reservedDelta := -released,usedDelta := actualTokens,
       batchId := batchId,taskId := taskId,note := note})

def adjust (user : UserId) (grantedDelta reservedDelta usedDelta : Int) (note : Str) : Call where
  user := user
  check := .ok ()
  move budget := .ok (
    {grantedTokens := budget.grantedTokens + grantedDelta
     reservedTokens := budget.reservedTokens + reservedDelta
     usedTokens := budget.usedTokens + usedDelta},
    {userId := user,entryType := .adjust,grantedDelta := grantedDelta,reservedDelta := reservedDelta,
     usedDelta := usedDelta,note := some note})

-- The row and its entry, written by one commit.
def post (db : Db) (user : UserId) (row : Budget) (entry : LedgerEntry) : Db :=
  {db with budgets := Function.update db.budgets user (some row),ledger := db.ledger ++ [entry]}

-- A call made by a session that holds unflushed rows. The SELECT of the Budget
-- row flushes them, the commit flushes the row and the entry; `flush` tells what the
-- flush of the waiting rows raises.
def perform (flush : Except Raised Unit) (call : Call) (db : Db) : Except Raised Db := do
  call.check
  flush
  let (row,entry) ← call.move (db.getOrCreateBudget call.user)
  require (row.fits && entry.fits) .overflowError
  return post db call.user row entry

-- The query orders the entries by time, which the sum does not see.
def recomputeBudget (db : Db) (user : UserId) : Int × Int × Int :=
  (db.ledger.filter (fun e => e.userId == user)).foldl
    (fun (granted,reserved,used) e => (granted + e.grantedDelta,reserved + e.reservedDelta,used + e.usedDelta))
    (0,0,0)

def Budget.columns (b : Budget) : Int × Int × Int := (b.grantedTokens,b.reservedTokens,b.usedTokens)

-- A call as data, for runs in which any caller may make any call.
inductive Request where
  | grant (user : UserId) (tokens : Int) (note : Option Str)
  | reserve (user : UserId) (tokens : Int) (batchId : Option BatchId) (note : Option Str)
  | release (user : UserId) (tokens : Int) (batchId : Option BatchId) (taskId : Option TaskId) (note : Option Str)
  | charge (user : UserId) (reservedTokens actualTokens : Int) (batchId : Option BatchId)
      (taskId : Option TaskId) (note : Option Str)
  | adjust (user : UserId) (grantedDelta reservedDelta usedDelta : Int) (note : Str)

def Request.call : Request → Call
  | .grant user tokens note => Ledger.grant user tokens note
  | .reserve user tokens batchId note => Ledger.reserve user tokens batchId note
  | .release user tokens batchId taskId note => Ledger.release user tokens batchId taskId note
  | .charge user reserved actual batchId taskId note => Ledger.charge user reserved actual batchId taskId note
  | .adjust user granted reserved used note => Ledger.adjust user granted reserved used note

@[simp] theorem post_budget_self (db : Db) (user : UserId) (row : Budget) (entry : LedgerEntry) :
    (post db user row entry).getOrCreateBudget user = row := by simp [post,Db.getOrCreateBudget]

@[simp] theorem post_budget_other {user other : UserId} (different : other ≠ user) (db : Db) (row : Budget)
    (entry : LedgerEntry) :
    (post db user row entry).getOrCreateBudget other = db.getOrCreateBudget other := by
  simp [post,Db.getOrCreateBudget,different]

@[simp] theorem post_ledger (db : Db) (user : UserId) (row : Budget) (entry : LedgerEntry) :
    (post db user row entry).ledger = db.ledger ++ [entry] := rfl
@[simp] theorem post_batches (db : Db) (user : UserId) (row : Budget) (entry : LedgerEntry) :
    (post db user row entry).batches = db.batches := rfl

-- What an entry records is what its call did to the row.
def Balanced (user : UserId) (before after : Budget) (entry : LedgerEntry) : Prop :=
  entry.userId = user ∧ after.grantedTokens = before.grantedTokens + entry.grantedDelta ∧
  after.reservedTokens = before.reservedTokens + entry.reservedDelta ∧
  after.usedTokens = before.usedTokens + entry.usedDelta

theorem move_balanced {request : Request} {before after : Budget} {entry : LedgerEntry}
    (moved : request.call.move before = .ok (after,entry)) :
    Balanced request.call.user before after entry := by
  cases request with
  | grant => cases moved; simp [Balanced,Request.call,grant]
  | reserve =>
    simp only [Request.call,reserve] at moved
    split at moved
    · cases moved
    · cases moved; simp [Balanced,Request.call,reserve]
  | release => cases moved; simp [Balanced,Request.call,release]; omega
  | charge => cases moved; simp [Balanced,Request.call,charge]; omega
  | adjust => cases moved; simp [Balanced,Request.call,adjust]

def Budget.Nonnegative (b : Budget) : Prop := 0 ≤ b.grantedTokens ∧ 0 ≤ b.reservedTokens ∧ 0 ≤ b.usedTokens

def NoAdjust (entries : List LedgerEntry) : Prop := ∀ e ∈ entries, e.entryType ≠ .adjust

-- No charge took more than the hold it gave back.
def ChargesCovered (entries : List LedgerEntry) : Prop :=
  ∀ e ∈ entries, e.entryType = .charge → e.usedDelta ≤ -e.reservedDelta

theorem check_positive {message : String} {tokens : Int} {u : Unit} (passed : positive message tokens = .ok u) :
    0 < tokens := by
  unfold positive at passed
  split at passed
  · cases passed
  · omega

theorem check_charge {user : UserId} {reserved actual : Int} {batchId : Option BatchId} {taskId : Option TaskId}
    {note : Option Str} {u : Unit} (passed : (charge user reserved actual batchId taskId note).check = .ok u) :
    0 ≤ reserved ∧ 0 ≤ actual := by
  simp only [charge] at passed
  split at passed
  · cases passed
  · omega

theorem move_nonnegative {request : Request} {before after : Budget} {entry : LedgerEntry}
    (passed : request.call.check = .ok ()) (moved : request.call.move before = .ok (after,entry))
    (manual : entry.entryType ≠ .adjust) (valid : Budget.Nonnegative before) : Budget.Nonnegative after := by
  obtain ⟨granted,reserved,used⟩ := valid
  cases request with
  | grant user tokens note =>
    have size : 0 < tokens := check_positive passed
    cases moved
    exact ⟨by simp only; omega,reserved,used⟩
  | reserve user tokens batchId note =>
    have size : 0 < tokens := check_positive passed
    simp only [Request.call,reserve] at moved
    split at moved
    · cases moved
    · cases moved; exact ⟨granted,by simp only; omega,used⟩
  | release user tokens batchId taskId note =>
    cases moved
    exact ⟨granted,by simp only; omega,used⟩
  | charge user hold actual batchId taskId note =>
    have size := check_charge passed
    cases moved
    exact ⟨granted,by simp only; omega,by simp only; omega⟩
  | adjust => cases moved; exact absurd rfl manual

theorem move_covered {request : Request} {before after : Budget} {entry : LedgerEntry}
    (passed : request.call.check = .ok ()) (moved : request.call.move before = .ok (after,entry))
    (manual : entry.entryType ≠ .adjust) (covered : entry.entryType = .charge → entry.usedDelta ≤ -entry.reservedDelta)
    (valid : Budget.Nonnegative before) (available : 0 ≤ before.availableTokens) : 0 ≤ after.availableTokens := by
  obtain ⟨granted,reserved,used⟩ := valid
  simp only [Budget.availableTokens] at available ⊢
  cases request with
  | grant user tokens note =>
    have size : 0 < tokens := check_positive passed
    cases moved
    simp only
    omega
  | reserve user tokens batchId note =>
    simp only [Request.call,reserve] at moved
    split at moved
    · cases moved
    · rename_i fits
      simp only [Budget.availableTokens] at fits
      cases moved
      simp only
      omega
  | release user tokens batchId taskId note =>
    have size : 0 < tokens := check_positive passed
    cases moved
    simp only
    omega
  | charge user hold actual batchId taskId note =>
    cases moved
    have bound := covered rfl
    simp only [neg_neg] at bound ⊢
    omega
  | adjust => cases moved; exact absurd rfl manual

-- The only call that can be refused once the lock is held is a reservation.
theorem move_refused {request : Request} {before : Budget} {e : Raised}
    (refused : request.call.move before = .error e) :
    ∃ user tokens batchId note, request = .reserve user tokens batchId note ∧
      tokens > before.availableTokens ∧ e = .insufficientBudget tokens before.availableTokens := by
  cases request with
  | grant => cases refused
  | reserve user tokens batchId note =>
    simp only [Request.call,reserve] at refused
    split at refused
    · rename_i short
      cases refused
      exact ⟨_,_,_,_,rfl,short,rfl⟩
    · cases refused
  | release => cases refused
  | charge => cases refused
  | adjust => cases refused

theorem check_refused {request : Request} {e : Raised} (refused : request.call.check = .error e) :
    ∃ message, e = .valueError message := by
  cases request <;> simp only [Request.call,grant,reserve,release,charge,adjust,positive] at refused
  all_goals first | (cases refused) | (split at refused <;> cases refused; exact ⟨_,rfl⟩)

theorem recompute_post (db : Db) (user : UserId) (row : Budget) (entry : LedgerEntry) (other : UserId) :
    recomputeBudget (post db user row entry) other =
      if entry.userId = other then
        ((recomputeBudget db other).1 + entry.grantedDelta,(recomputeBudget db other).2.1 + entry.reservedDelta,
         (recomputeBudget db other).2.2 + entry.usedDelta)
      else recomputeBudget db other := by
  by_cases same : entry.userId = other
  · simp [recomputeBudget,List.filter_append,same]
  · simp [recomputeBudget,List.filter_append,same]

-- The materialised rows are the replay of the ledger.
def Reconciled (db : Db) : Prop :=
  ∀ user, Budget.columns (db.getOrCreateBudget user) = recomputeBudget db user

theorem reconciled_post {db : Db} {user : UserId} {row : Budget} {entry : LedgerEntry} (valid : Reconciled db)
    (balanced : Balanced user (db.getOrCreateBudget user) row entry) : Reconciled (post db user row entry) := by
  obtain ⟨rfl,granted,reserved,used⟩ := balanced
  intro other
  rw [recompute_post]
  by_cases same : other = entry.userId
  · subst same
    rw [if_pos rfl,post_budget_self,← valid]
    simp [Budget.columns,granted,reserved,used]
  · rw [if_neg (Ne.symm same),post_budget_other same,valid]

theorem perform_parts {flush : Except Raised Unit} {call : Call} {db after : Db} (done : perform flush call db = .ok after) :
    call.check = .ok () ∧ flush = .ok () ∧ ∃ row entry, call.move (db.getOrCreateBudget call.user) = .ok (row,entry) ∧
      row.fits = true ∧ entry.fits = true ∧ after = post db call.user row entry := by
  unfold perform at done
  obtain ⟨_,checked,done⟩ := bind_ok done
  obtain ⟨_,flushed,done⟩ := bind_ok done
  obtain ⟨⟨row,entry⟩,moved,done⟩ := bind_ok done
  obtain ⟨_,fits,done⟩ := bind_ok done
  have both : row.fits = true ∧ entry.fits = true := by simpa using require_ok.mp fits
  exact ⟨checked,flushed,row,entry,moved,both.1,both.2,pure_ok done⟩

theorem perform_ok {call : Call} (db : Db) {row : Budget} {entry : LedgerEntry} (checked : call.check = .ok ())
    (moved : call.move (db.getOrCreateBudget call.user) = .ok (row,entry)) (fits : (row.fits && entry.fits) = true) :
    perform (.ok ()) call db = .ok (post db call.user row entry) := by
  simp only [perform,checked,moved,bind,Except.bind,require,fits,if_true]
  rfl

theorem perform_grant {user : UserId} {tokens : Int} {note : Option Str} {db after : Db}
    (done : perform (.ok ()) (grant user tokens note) db = .ok after) :
    0 < tokens ∧ after = post db user
      {db.getOrCreateBudget user with grantedTokens := (db.getOrCreateBudget user).grantedTokens + tokens}
      {userId := user,entryType := .grant,grantedDelta := tokens,note := note} := by
  obtain ⟨checked,_,row,entry,moved,_,_,rfl⟩ := perform_parts done
  cases moved
  exact ⟨check_positive checked,rfl⟩

theorem perform_reserve {flush : Except Raised Unit} {user : UserId} {tokens : Int} {batchId : Option BatchId}
    {note : Option Str} {db after : Db} (done : perform flush (reserve user tokens batchId note) db = .ok after) :
    0 < tokens ∧ tokens ≤ (db.getOrCreateBudget user).availableTokens ∧ flush = .ok () ∧ after = post db user
      {db.getOrCreateBudget user with reservedTokens := (db.getOrCreateBudget user).reservedTokens + tokens}
      {userId := user,entryType := .reserve,reservedDelta := tokens,batchId := batchId,note := note} := by
  obtain ⟨checked,flushed,row,entry,moved,_,_,rfl⟩ := perform_parts done
  simp only [reserve] at moved
  split at moved
  · cases moved
  · rename_i enough
    cases moved
    exact ⟨check_positive checked,by omega,flushed,rfl⟩

theorem perform_release {user : UserId} {tokens : Int} {batchId : Option BatchId} {taskId : Option TaskId}
    {note : Option Str} {db after : Db} (done : perform (.ok ()) (release user tokens batchId taskId note) db = .ok after) :
    0 < tokens ∧ ∃ amount, amount = min tokens (db.getOrCreateBudget user).reservedTokens ∧ after = post db user
      {db.getOrCreateBudget user with reservedTokens := (db.getOrCreateBudget user).reservedTokens - amount}
      {userId := user,entryType := .release,reservedDelta := -amount,batchId := batchId,taskId := taskId,
       note := note} := by
  obtain ⟨checked,_,row,entry,moved,_,_,rfl⟩ := perform_parts done
  cases moved
  exact ⟨check_positive checked,_,rfl,rfl⟩

theorem perform_charge {user : UserId} {hold actual : Int} {batchId : Option BatchId} {taskId : Option TaskId}
    {note : Option Str} {db after : Db} (done : perform (.ok ()) (charge user hold actual batchId taskId note) db = .ok after) :
    0 ≤ hold ∧ 0 ≤ actual ∧ ∃ amount, amount = min hold (db.getOrCreateBudget user).reservedTokens ∧
      after = post db user
        {db.getOrCreateBudget user with
          reservedTokens := (db.getOrCreateBudget user).reservedTokens - amount
          usedTokens := (db.getOrCreateBudget user).usedTokens + actual}
        {userId := user,entryType := .charge,reservedDelta := -amount,usedDelta := actual,batchId := batchId,
         taskId := taskId,note := note} := by
  obtain ⟨checked,_,row,entry,moved,_,_,rfl⟩ := perform_parts done
  have sizes := check_charge checked
  cases moved
  exact ⟨sizes.1,sizes.2,_,rfl,rfl⟩

end BatchGateway.Ledger
