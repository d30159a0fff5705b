import BatchGateway.LabelledRuns
import BatchGateway.PortalAccounts

-- First logins, one database access at a time.
namespace BatchGateway.Provisioning
open PythonText Raising LabelledRuns PortalAccounts

inductive Stage where
  | idle
  | missing (identity : LdapAuth.LdapIdentity)
  | found (row : User) (user : UserId) (identity : LdapAuth.LdapIdentity)
  | opened (user : UserId)

structure State where
  accounts : Accounts := {}
  stages : Nat → Stage := fun _ => .idle

inductive Action where
  | select (r : Nat) (identity : LdapAuth.LdapIdentity)
  | refresh (r : Nat)
  | openAccount (r : Nat)
  | grant (r : Nat)
  -- An exception anywhere in the request; a process that dies does this to all of its requests.
  | fail (r : Nat)

def setStage (s : State) (r : Nat) (stage : Stage) : State := {s with stages := Function.update s.stages r stage}

-- INSERT INTO users, INSERT INTO budgets, COMMIT.
def insertAccount (accounts : Accounts) (identity : LdapAuth.LdapIdentity) : Option Accounts :=
  (accounts.insertUser {username := identity.username,fullName := identity.displayName}).map (fun added =>
    added.withDb {added.db with budgets := Function.update added.db.budgets accounts.users.length (some ⟨0,0,0⟩)})

def firstGrant (config : PortalConfig) (user : UserId) (db : Db) : Except Raised Db :=
  Ledger.perform (.ok ()) (Ledger.grant user config.defaultGrantTokens (some firstLoginNote)) db

-- The rest of a login whose account exists: refused, or the display name kept fresh.
def refreshed (accounts : Accounts) (row : User) (user : UserId) (identity : LdapAuth.LdapIdentity) : Accounts :=
  if row.isActive && LdapAuth.given identity.displayName && decide (row.fullName ≠ identity.displayName) then
    accounts.setFullName user identity.displayName
  else accounts

variable (config : PortalConfig)

-- ledger.grant is one step, as _budget_lock makes it.
def advance : Action → State → Option State
  | .select r identity, s => match s.stages r with
    | .idle => match s.accounts.find identity.username with
      | none => some (setStage s r (if config.autoProvision then .missing identity else .idle))
      | some (row,user) => some (setStage s r (.found row user identity))
    | _ => none
  | .refresh r, s => match s.stages r with
    | .found row user identity => some (setStage {s with accounts := refreshed s.accounts row user identity} r .idle)
    | _ => none
  | .openAccount r, s => match s.stages r with
    | .missing identity => match insertAccount s.accounts identity with
      | none => some (setStage s r .idle)
      | some accounts =>
        some (setStage {s with accounts := accounts} r
          (if config.defaultGrantTokens > 0 then .opened s.accounts.users.length else .idle))
    | _ => none
  | .grant r, s => match s.stages r with
    | .opened user => match firstGrant config user s.accounts.db with
      | .ok db => some (setStage {s with accounts := s.accounts.withDb db} r .idle)
      | .error _ => some (setStage s r .idle)
    | _ => none
  | .fail r, s => some (setStage s r .idle)

def Step (s : State) (action : Action) (t : State) : Prop := advance config action s = some t

-- No request that has committed its account stops before its grant is committed.
def uncut (s : State) : Action → Bool
  | .fail r => match s.stages r with
    | .opened _ => false
    | _ => true
  | .grant _ => fitsInteger config.defaultGrantTokens
  | _ => true

def Uncut (s : State) (action : Action) : Prop := uncut config s action = true

instance (s : State) (action : Action) : Decidable (Uncut config s action) :=
  inferInstanceAs (Decidable (uncut config s action = true))

def Quiescent (s : State) : Prop := ∀ r, s.stages r = .idle

def automaticGrants (db : Db) (user : UserId) : List LedgerEntry :=
  db.ledger.filter (fun e => e.userId == user && automatic e)

def GrantedOnce (db : Db) (user : UserId) : Prop :=
  ∃ e, automaticGrants db user = [e] ∧ e.grantedDelta = config.defaultGrantTokens

-- The accounts the run created are those past the first `before`.
def EachGrantedOnce (before : Nat) (s : State) : Prop :=
  ∀ user, before ≤ user → user < s.accounts.users.length → GrantedOnce config s.accounts.db user

variable {config} {s t : State} {before : Nat} {r : Nat} {user : UserId}

theorem back (idle : s.stages r = .idle) (stage : Stage) :
    Function.update (Function.update s.stages r stage) r .idle = s.stages := by
  rw [Function.update_idem,← idle,Function.update_eq_self]

theorem select_step (idle : s.stages r = .idle) (identity : LdapAuth.LdapIdentity) :
    Step config s (.select r identity) (setStage s r (match s.accounts.find identity.username with
      | none => if config.autoProvision then .missing identity else .idle
      | some (row,user) => .found row user identity)) := by
  simp only [Step,advance,idle]
  split <;> rfl

theorem refreshed_resolves {accounts : Accounts} {row : User} {identity : LdapAuth.LdapIdentity}
    (found : accounts.find identity.username = some (row,user)) :
    (resolveUser accounts identity config).1 = refreshed accounts row user identity := by
  simp only [resolveUser,refreshed,found]
  cases row.isActive with
  | false => rfl
  | true =>
    simp only [Bool.not_true,Bool.true_and]
    cases LdapAuth.given identity.displayName && decide (row.fullName ≠ identity.displayName) <;> rfl

-- The two commits of a first login, as one.
theorem opened_resolves {accounts : Accounts} {identity : LdapAuth.LdapIdentity}
    (unknown : accounts.find identity.username = none) (allowed : config.autoProvision = true) :
    (resolveUser accounts identity config).1 = match insertAccount accounts identity with
      | none => accounts
      | some opened =>
        if config.defaultGrantTokens > 0 then match firstGrant config accounts.users.length opened.db with
          | .ok db => opened.withDb db
          | .error _ => opened
        else opened := by
  simp only [resolveUser,unknown,allowed,if_true,provision,insertAccount]
  cases accounts.insertUser {username := identity.username,fullName := identity.displayName} with
  | none => rfl
  | some added =>
    simp only [Option.map_some,firstGrant]
    split
    · split <;> simp_all
    · rfl

-- A login no other request gets in between of is resolve_user.
theorem undisturbed (idle : s.stages r = .idle) (identity : LdapAuth.LdapIdentity) : ∃ actions,
    Run (Step config) s actions {s with accounts := (resolveUser s.accounts identity config).1} := by
  have first : Step config s (.select r identity) _ := select_step idle identity
  cases found : s.accounts.find identity.username with
  | some pair =>
    obtain ⟨row,user⟩ := pair
    simp only [found] at first
    have second : Step config (setStage s r (.found row user identity)) (.refresh r)
        {s with accounts := (resolveUser s.accounts identity config).1} := by
      simp [Step,advance,setStage,refreshed_resolves found,back idle]
    exact ⟨_,.cons first (.single second)⟩
  | none =>
    by_cases allowed : config.autoProvision = true
    · simp only [found,allowed,if_true] at first
      rw [opened_resolves found allowed]
      cases inserted : insertAccount s.accounts identity with
      | none =>
        have second : Step config (setStage s r (.missing identity)) (.openAccount r) s := by
          simp [Step,advance,setStage,inserted,back idle]
        exact ⟨_,.cons first (.single second)⟩
      | some opened =>
        by_cases granted : config.defaultGrantTokens > 0
        · have second : Step config (setStage s r (.missing identity)) (.openAccount r)
              (setStage {s with accounts := opened} r (.opened s.accounts.users.length)) := by
            simp [Step,advance,setStage,inserted,granted]
          have third : Step config (setStage {s with accounts := opened} r (.opened s.accounts.users.length)) (.grant r)
              {s with accounts := match firstGrant config s.accounts.users.length opened.db with
                | .ok db => opened.withDb db
                | .error _ => opened} := by
            simp only [Step,advance,setStage,Function.update_self]
            split <;> simp_all [back idle]
          simp only [granted,if_true]
          exact ⟨_,.cons first (.cons second (.single third))⟩
        · have second : Step config (setStage s r (.missing identity)) (.openAccount r) {s with accounts := opened} := by
            simp [Step,advance,setStage,inserted,granted,back idle]
          simp only [granted,if_false]
          exact ⟨_,.cons first (.single second)⟩
    · simp only [found,allowed] at first
      have unchanged : (resolveUser s.accounts identity config).1 = s.accounts := by
        simp [resolveUser,found,allowed]
      have same : setStage s r .idle = s := by
        rw [setStage,← idle,Function.update_eq_self]
      rw [unchanged]
      exact ⟨_,.single (same ▸ first)⟩

def Stage.pending : Stage → Option UserId
  | .opened user => some user
  | _ => none

def firstEntry (config : PortalConfig) (user : UserId) : LedgerEntry :=
  {userId := user,entryType := .grant,grantedDelta := config.defaultGrantTokens,note := some firstLoginNote}

-- A fresh account's grant fails only on an amount no column holds.
theorem firstGrant_fits {db : Db} (positive : 0 < config.defaultGrantTokens) (empty : db.budgets user = some ⟨0,0,0⟩)
    (fits : fitsInteger config.defaultGrantTokens = true) : ∃ row,
    firstGrant config user db = .ok (Ledger.post db user row (firstEntry config user)) := by
  have checked : (Ledger.grant user config.defaultGrantTokens (some firstLoginNote)).check = .ok () :=
    if_neg (Int.not_le.mpr positive)
  refine ⟨⟨config.defaultGrantTokens,0,0⟩,Ledger.perform_ok db checked ?_ ?_⟩
  · simp [Ledger.grant,firstEntry,Db.getOrCreateBudget,empty]
  · have zero : fitsInteger 0 = true := rfl
    simp [Budget.fits,LedgerEntry.fits,firstEntry,fits,zero]

theorem firstGrant_overflows {db : Db} (fits : fitsInteger config.defaultGrantTokens = false) : ∃ e, firstGrant config user db = .error e := by
  cases done : firstGrant config user db with
  | error e => exact ⟨e,rfl⟩
  | ok after =>
    obtain ⟨_,_,row,entry,moved,_,entryFits,_⟩ := Ledger.perform_parts done
    cases moved
    simp [LedgerEntry.fits,fits] at entryFits

-- What a step can do: move a request that is not between the two commits, open an
-- account, or end a request that has opened one, with its grant or without.
structure Quiet (s t : State) : Prop where
  db : t.accounts.db = s.accounts.db
  size : t.accounts.users.length = s.accounts.users.length
  pending : ∀ r, (t.stages r).pending = (s.stages r).pending

structure Opens (s t : State) (r : Nat) : Prop where
  free : (s.stages r).pending = none
  stages : t.stages = Function.update s.stages r (.opened s.accounts.users.length)
  size : t.accounts.users.length = s.accounts.users.length + 1
  ledger : t.accounts.db.ledger = s.accounts.db.ledger
  budgets : t.accounts.db.budgets = Function.update s.accounts.db.budgets s.accounts.users.length (some ⟨0,0,0⟩)

structure Ends (s t : State) (r : Nat) (user : UserId) : Prop where
  opened : s.stages r = .opened user
  stages : t.stages = Function.update s.stages r .idle
  size : t.accounts.users.length = s.accounts.users.length

theorem quiet_stage {stage : Stage} {accounts : Accounts} (same : stage.pending = (s.stages r).pending)
    (db : accounts.db = s.accounts.db) (size : accounts.users.length = s.accounts.users.length) :
    Quiet s (setStage {s with accounts := accounts} r stage) := by
  refine ⟨db,size,fun other => ?_⟩
  simp only [setStage]
  by_cases here : other = r
  · subst here
    rw [Function.update_self,same]
  · rw [Function.update_of_ne here]

theorem refreshed_parts (accounts : Accounts) (row : User) (user : UserId) (identity : LdapAuth.LdapIdentity) :
    (refreshed accounts row user identity).db = accounts.db ∧
      (refreshed accounts row user identity).users.length = accounts.users.length := by
  unfold refreshed
  split
  · exact ⟨rfl,List.length_modify ..⟩
  · exact ⟨rfl,rfl⟩

theorem insertAccount_parts {accounts opened : Accounts} {identity : LdapAuth.LdapIdentity}
    (done : insertAccount accounts identity = some opened) :
    opened.users.length = accounts.users.length + 1 ∧ opened.db.ledger = accounts.db.ledger ∧
      opened.db.budgets = Function.update accounts.db.budgets accounts.users.length (some ⟨0,0,0⟩) := by
  obtain ⟨added,inserted,rfl⟩ := Option.map_eq_some_iff.mp done
  obtain ⟨names,db⟩ := Accounts.insertUser_some inserted
  have size := congrArg List.length names
  simp only [Accounts.names,List.length_map,List.length_append,List.length_singleton] at size
  refine ⟨size,?_,?_⟩
  · simp [Accounts.withDb,db]
  · simp [Accounts.withDb,db]

theorem step_parts {action : Action} (positive : 0 < config.defaultGrantTokens)
    (empty : ∀ r user, s.stages r = .opened user → s.accounts.db.budgets user = some ⟨0,0,0⟩)
    (step : Step config s action t) :
    (Quiet s t ∧ Uncut config s action) ∨ (∃ r, Opens s t r ∧ Uncut config s action) ∨
    ∃ r user, Ends s t r user ∧
      ((Uncut config s action ∧ ∃ row, t.accounts.db = Ledger.post s.accounts.db user row (firstEntry config user)) ∨
       (¬ Uncut config s action ∧ t.accounts = s.accounts)) := by
  cases action with
  | select r identity =>
    simp only [Step,advance] at step
    split at step
    · rename_i idle
      split at step
      · cases step
        refine .inl ⟨quiet_stage ?_ rfl rfl,rfl⟩
        rw [idle]
        split <;> rfl
      · cases step
        exact .inl ⟨quiet_stage (congrArg Stage.pending idle).symm rfl rfl,rfl⟩
    · cases step
  | refresh r =>
    simp only [Step,advance] at step
    split at step
    · rename_i row user identity found
      cases step
      obtain ⟨db,size⟩ := refreshed_parts s.accounts row user identity
      exact .inl ⟨quiet_stage (congrArg Stage.pending found).symm db size,rfl⟩
    · cases step
  | openAccount r =>
    simp only [Step,advance] at step
    split at step
    · rename_i identity missing
      split at step
      · cases step
        exact .inl ⟨quiet_stage (congrArg Stage.pending missing).symm rfl rfl,rfl⟩
      · rename_i accounts inserted
        cases step
        obtain ⟨size,ledger,budgets⟩ := insertAccount_parts inserted
        refine .inr (.inl ⟨r,⟨congrArg Stage.pending missing,?_,size,ledger,budgets⟩,rfl⟩)
        simp [setStage,positive]
    · cases step
  | grant r =>
    simp only [Step,advance] at step
    split at step
    · rename_i user opened
      refine .inr (.inr ⟨r,user,?_⟩)
      by_cases fits : fitsInteger config.defaultGrantTokens = true
      · obtain ⟨row,done⟩ := firstGrant_fits positive (empty r user opened) fits
        rw [done] at step
        cases step
        exact ⟨⟨opened,rfl,rfl⟩,.inl ⟨fits,row,rfl⟩⟩
      · obtain ⟨e,failed⟩ : ∃ e, firstGrant config user s.accounts.db = .error e :=
          firstGrant_overflows (Bool.eq_false_iff.mpr fits)
        rw [failed] at step
        cases step
        exact ⟨⟨opened,rfl,rfl⟩,.inr ⟨fits,rfl⟩⟩
    · cases step
  | fail r =>
    cases step
    cases stage : s.stages r with
    | opened user =>
      refine .inr (.inr ⟨r,user,⟨stage,rfl,rfl⟩,.inr ⟨?_,rfl⟩⟩)
      simp [Uncut,uncut,stage]
    | _ =>
      refine .inl ⟨quiet_stage (congrArg Stage.pending stage).symm rfl rfl,?_⟩
      simp [Uncut,uncut,stage]

structure Sound (before : Nat) (s : State) : Prop where
  grown : before ≤ s.accounts.users.length
  known : ∀ e ∈ s.accounts.db.ledger, e.userId < s.accounts.users.length
  held : ∀ r user, (s.stages r).pending = some user → before ≤ user ∧ user < s.accounts.users.length ∧
    s.accounts.db.budgets user = some ⟨0,0,0⟩ ∧ automaticGrants s.accounts.db user = []
  apart : ∀ r q user, (s.stages r).pending = some user → (s.stages q).pending = some user → r = q

def Waiting (s : State) (user : UserId) : Prop := ∃ r, (s.stages r).pending = some user

-- Every account the run created has its grant, or a request that will make it.
def Provided (config : PortalConfig) (before : Nat) (s : State) : Prop :=
  ∀ user, before ≤ user → user < s.accounts.users.length → GrantedOnce config s.accounts.db user ∨ Waiting s user

-- An account that no request will come back to.
structure Orphan (before : Nat) (s : State) (user : UserId) : Prop where
  created : before ≤ user ∧ user < s.accounts.users.length
  ungranted : automaticGrants s.accounts.db user = []
  left : ¬ Waiting s user

theorem pending_opened {stage : Stage} : stage.pending = some user ↔ stage = .opened user := by
  cases stage <;> simp [Stage.pending]

theorem unknown_ungranted {db : Db} {size : Nat} (known : ∀ e ∈ db.ledger, e.userId < size) :
    automaticGrants db size = [] := by
  refine List.filter_eq_nil_iff.mpr fun e member => ?_
  have different := Nat.ne_of_lt (known e member)
  simp [different]

theorem post_other {db : Db} {other : UserId} {row : Budget} (different : other ≠ user) :
    automaticGrants (Ledger.post db user row (firstEntry config user)) other = automaticGrants db other := by
  have named : (user == other) = false := beq_eq_false_iff_ne.mpr (Ne.symm different)
  simp [automaticGrants,List.filter_append,firstEntry,named]

theorem post_self {db : Db} {row : Budget} : automaticGrants (Ledger.post db user row (firstEntry config user)) user =
    automaticGrants db user ++ [firstEntry config user] := by
  simp [automaticGrants,List.filter_append,firstEntry,automatic]

theorem Quiet.waiting (quiet : Quiet s t) : Waiting t user ↔ Waiting s user := by
  unfold Waiting
  simp only [quiet.pending]

theorem Quiet.sound (quiet : Quiet s t) (sound : Sound before s) : Sound before t := by
  refine ⟨?_,?_,?_,?_⟩
  · rw [quiet.size]
    exact sound.grown
  · rw [quiet.size,quiet.db]
    exact sound.known
  · simp only [quiet.size,quiet.db,quiet.pending]
    exact sound.held
  · simp only [quiet.pending]
    exact sound.apart

theorem Opens.pending (opens : Opens s t r) {q : Nat} : (t.stages q).pending = some user ↔
    (q = r ∧ user = s.accounts.users.length) ∨ (s.stages q).pending = some user := by
  rw [opens.stages]
  by_cases here : q = r
  · subst here
    rw [Function.update_self,opens.free]
    simp [Stage.pending,eq_comm]
  · rw [Function.update_of_ne here]
    simp [here]

theorem Opens.sound (opens : Opens s t r) (sound : Sound before s) : Sound before t := by
  refine ⟨?_,fun e member => ?_,fun q user pending => ?_,fun p q user first second => ?_⟩
  · rw [opens.size]
    exact Nat.le_succ_of_le sound.grown
  · rw [opens.ledger] at member
    rw [opens.size]
    exact Nat.lt_succ_of_lt (sound.known e member)
  · have entries : automaticGrants t.accounts.db user = automaticGrants s.accounts.db user := by
      simp only [automaticGrants,opens.ledger]
    rw [opens.size,opens.budgets,entries]
    rcases opens.pending.1 pending with ⟨rfl,rfl⟩ | before_
    · exact ⟨sound.grown,Nat.lt_succ_self _,Function.update_self ..,unknown_ungranted sound.known⟩
    · obtain ⟨late,inside,row,none⟩ := sound.held q user before_
      exact ⟨late,Nat.lt_succ_of_lt inside,(Function.update_of_ne (Nat.ne_of_lt inside) _ _).trans row,none⟩
  · rcases opens.pending.1 first with ⟨rfl,rfl⟩ | first <;> rcases opens.pending.1 second with ⟨rfl,same⟩ | second
    · rfl
    · exact absurd (sound.held _ _ second).2.1 (Nat.lt_irrefl _)
    · subst same
      exact absurd (sound.held _ _ first).2.1 (Nat.lt_irrefl _)
    · exact sound.apart p q user first second

theorem Ends.pending {q : Nat} {other : UserId} (ends : Ends s t r user) :
    (t.stages q).pending = some other ↔ q ≠ r ∧ (s.stages q).pending = some other := by
  rw [ends.stages]
  by_cases here : q = r
  · subst here
    rw [Function.update_self]
    simp [Stage.pending]
  · rw [Function.update_of_ne here]
    simp [here]

theorem Ends.holds (ends : Ends s t r user) : (s.stages r).pending = some user := pending_opened.mpr ends.opened

-- The request that ends was the only one to come back to its account.
theorem Ends.waiting {other : UserId} (ends : Ends s t r user) (sound : Sound before s) :
    Waiting t other ↔ other ≠ user ∧ Waiting s other := by
  constructor
  · rintro ⟨q,pending⟩
    obtain ⟨elsewhere,pending⟩ := ends.pending.1 pending
    refine ⟨?_,q,pending⟩
    rintro rfl
    exact elsewhere (sound.apart q r _ pending ends.holds)
  · rintro ⟨different,q,pending⟩
    refine ⟨q,ends.pending.2 ⟨?_,pending⟩⟩
    rintro rfl
    rw [ends.holds] at pending
    exact different (Option.some.inj pending).symm

theorem Ends.sound (ends : Ends s t r user) (sound : Sound before s)
    (known : ∀ e ∈ t.accounts.db.ledger, e.userId < s.accounts.users.length)
    (others : ∀ other, other ≠ user → t.accounts.db.budgets other = s.accounts.db.budgets other ∧
      automaticGrants t.accounts.db other = automaticGrants s.accounts.db other) : Sound before t := by
  refine ⟨?_,?_,fun q other pending => ?_,fun p q other first second => ?_⟩
  · rw [ends.size]
    exact sound.grown
  · rw [ends.size]
    exact known
  · have apart := ((ends.waiting sound).1 ⟨q,pending⟩).1
    obtain ⟨late,inside,row,none⟩ := sound.held q other (ends.pending.1 pending).2
    rw [ends.size,(others other apart).1,(others other apart).2]
    exact ⟨late,inside,row,none⟩
  · exact sound.apart p q other (ends.pending.1 first).2 (ends.pending.1 second).2

theorem GrantedOnce.same {db after : Db} (same : automaticGrants after user = automaticGrants db user) :
    GrantedOnce config after user ↔ GrantedOnce config db user := by
  unfold GrantedOnce
  rw [same]

theorem Quiet.provided (quiet : Quiet s t) (provided : Provided config before s) : Provided config before t := by
  intro user late inside
  rw [quiet.size] at inside
  rw [quiet.waiting,quiet.db]
  exact provided user late inside

theorem Quiet.orphan (quiet : Quiet s t) (orphan : Orphan before s user) : Orphan before t user := by
  refine ⟨?_,?_,?_⟩
  · rw [quiet.size]
    exact orphan.created
  · rw [quiet.db]
    exact orphan.ungranted
  · rw [quiet.waiting]
    exact orphan.left

theorem Opens.entries (opens : Opens s t r) (user : UserId) :
    automaticGrants t.accounts.db user = automaticGrants s.accounts.db user := by
  simp only [automaticGrants,opens.ledger]

theorem Opens.provided (opens : Opens s t r) (provided : Provided config before s) : Provided config before t := by
  intro user late inside
  rw [opens.size] at inside
  rcases Nat.lt_succ_iff_lt_or_eq.mp inside with old | rfl
  · rcases provided user late old with granted | ⟨q,pending⟩
    · exact .inl ((GrantedOnce.same (opens.entries user)).2 granted)
    · exact .inr ⟨q,opens.pending.2 (.inr pending)⟩
  · exact .inr ⟨r,opens.pending.2 (.inl ⟨rfl,rfl⟩)⟩

theorem Opens.orphan (opens : Opens s t r) (orphan : Orphan before s user) : Orphan before t user := by
  refine ⟨⟨orphan.created.1,?_⟩,(opens.entries user).trans orphan.ungranted,?_⟩
  · rw [opens.size]
    exact Nat.lt_succ_of_lt orphan.created.2
  · rintro ⟨q,pending⟩
    rcases opens.pending.1 pending with ⟨_,rfl⟩ | pending
    · exact Nat.lt_irrefl _ orphan.created.2
    · exact orphan.left ⟨q,pending⟩

-- The grant is committed.
theorem Ends.provided {row : Budget} (ends : Ends s t r user) (sound : Sound before s)
    (posted : t.accounts.db = Ledger.post s.accounts.db user row (firstEntry config user))
    (provided : Provided config before s) : Provided config before t := by
  intro other late inside
  rw [ends.size] at inside
  by_cases mine : other = user
  · subst mine
    refine .inl ⟨firstEntry config other,?_,rfl⟩
    rw [posted,post_self,(sound.held r other ends.holds).2.2.2]
    rfl
  · rcases provided other late inside with granted | waiting
    · refine .inl ?_
      rw [posted]
      exact (GrantedOnce.same (post_other mine)).2 granted
    · exact .inr ((ends.waiting sound).2 ⟨mine,waiting⟩)

-- The request ends without it.
theorem Ends.orphaned (ends : Ends s t r user) (sound : Sound before s) (same : t.accounts = s.accounts) :
    Orphan before t user := by
  obtain ⟨late,inside,_,none⟩ := sound.held r user ends.holds
  rw [← same] at inside none
  exact ⟨⟨late,inside⟩,none,fun waiting => ((ends.waiting sound).1 waiting).1 rfl⟩

theorem Ends.orphan {other : UserId} (ends : Ends s t r user) (sound : Sound before s)
    (others : ∀ other, other ≠ user → automaticGrants t.accounts.db other = automaticGrants s.accounts.db other)
    (orphan : Orphan before s other) : Orphan before t other := by
  have apart : other ≠ user := by
    rintro rfl
    exact orphan.left ⟨r,ends.holds⟩
  refine ⟨?_,(others other apart).trans orphan.ungranted,fun waiting => ?_⟩
  · rw [ends.size]
    exact orphan.created
  · exact orphan.left ((ends.waiting sound).1 waiting).2

def begun (accounts : Accounts) : State := {accounts := accounts}

theorem step_functional (s : State) (action : Action) (t u : State) (first : Step config s action t)
    (second : Step config s action u) : t = u := Option.some.inj (first.symm.trans second)

theorem posted_others {row : Budget} (posted : t.accounts.db = Ledger.post s.accounts.db user row (firstEntry config user))
    (other : UserId) (different : other ≠ user) : t.accounts.db.budgets other = s.accounts.db.budgets other ∧
      automaticGrants t.accounts.db other = automaticGrants s.accounts.db other := by
  rw [posted]
  exact ⟨Function.update_of_ne different _ _,post_other different⟩

theorem Ends.granted_sound {row : Budget} (ends : Ends s t r user) (sound : Sound before s)
    (posted : t.accounts.db = Ledger.post s.accounts.db user row (firstEntry config user)) : Sound before t := by
  refine ends.sound sound (fun e member => ?_) (posted_others posted)
  rw [posted,Ledger.post_ledger] at member
  rcases List.mem_append.mp member with old | new
  · exact sound.known e old
  · cases List.mem_singleton.mp new
    exact (sound.held r user ends.holds).2.1

theorem Ends.dropped_sound (ends : Ends s t r user) (sound : Sound before s) (same : t.accounts = s.accounts) :
    Sound before t := by
  refine ends.sound sound ?_ fun other _ => ?_
  · rw [same]
    exact sound.known
  · rw [same]
    exact ⟨rfl,rfl⟩

section
variable {action : Action} (positive : 0 < config.defaultGrantTokens)
include positive

theorem sound_parts (sound : Sound before s) (step : Step config s action t) :
    (Quiet s t ∧ Uncut config s action) ∨ (∃ r, Opens s t r ∧ Uncut config s action) ∨
    ∃ r user, Ends s t r user ∧
      ((Uncut config s action ∧ ∃ row, t.accounts.db = Ledger.post s.accounts.db user row (firstEntry config user)) ∨
       (¬ Uncut config s action ∧ t.accounts = s.accounts)) :=
  step_parts positive (fun r user opened => (sound.held r user (pending_opened.mpr opened)).2.2.1) step

theorem step_sound (sound : Sound before s) (step : Step config s action t) : Sound before t := by
  rcases sound_parts positive sound step with ⟨quiet,_⟩ | ⟨r,opens,_⟩ | ⟨r,user,ends,⟨_,row,posted⟩ | ⟨_,same⟩⟩
  · exact quiet.sound sound
  · exact opens.sound sound
  · exact ends.granted_sound sound posted
  · exact ends.dropped_sound sound same

theorem step_provided (sound : Sound before s) (provided : Provided config before s) (step : Step config s action t)
    (uncut : Uncut config s action) : Provided config before t := by
  rcases sound_parts positive sound step with ⟨quiet,_⟩ | ⟨r,opens,_⟩ | ⟨r,user,ends,⟨_,row,posted⟩ | ⟨cut,_⟩⟩
  · exact quiet.provided provided
  · exact opens.provided provided
  · exact ends.provided sound posted provided
  · exact absurd uncut cut

theorem step_cut (sound : Sound before s) (step : Step config s action t) (cut : ¬ Uncut config s action) :
    ∃ user, Orphan before t user := by
  rcases sound_parts positive sound step with ⟨_,uncut⟩ | ⟨r,_,uncut⟩ | ⟨r,user,ends,⟨uncut,_⟩ | ⟨_,same⟩⟩
  · exact absurd uncut cut
  · exact absurd uncut cut
  · exact absurd uncut cut
  · exact ⟨user,ends.orphaned sound same⟩

theorem step_orphan (sound : Sound before s) (orphan : Orphan before s user) (step : Step config s action t) :
    Orphan before t user := by
  rcases sound_parts positive sound step with ⟨quiet,_⟩ | ⟨r,opens,_⟩ | ⟨r,mine,ends,⟨_,row,posted⟩ | ⟨_,same⟩⟩
  · exact quiet.orphan orphan
  · exact opens.orphan orphan
  · exact ends.orphan sound (fun other different => (posted_others posted other different).2) orphan
  · exact ends.orphan sound (fun other _ => by rw [same]) orphan

-- Either no request was cut short and every account is provided for, or one was and its account is left.
theorem uncut_divides : Divides (Uncut config) (Step config) (Sound before) (Provided config before)
    (fun s => ∃ user, Orphan before s user) where
  functional := step_functional
  valid := step_sound positive
  keeps := step_provided positive
  breaks sound _ := step_cut positive sound
  remains := by
    rintro _ _ _ sound ⟨user,orphan⟩ step
    exact ⟨user,step_orphan positive sound orphan step⟩

end

theorem begun_sound {accounts : Accounts} (named : ∀ e ∈ accounts.db.ledger, e.userId < accounts.users.length) :
    Sound accounts.users.length (begun accounts) := by
  refine ⟨le_refl _,named,fun r user pending => ?_,fun r q user pending => ?_⟩
  · cases pending
  · cases pending

theorem begun_provided {accounts : Accounts} : Provided config accounts.users.length (begun accounts) :=
  fun _ late inside => absurd inside (Nat.not_lt.mpr late)

-- When no login runs, every account the logins created has its one grant, exactly if
-- none of them was cut short between its two commits.
theorem granted_once_iff {accounts : Accounts} {actions : List Action} (positive : 0 < config.defaultGrantTokens)
    (named : ∀ e ∈ accounts.db.ledger, e.userId < accounts.users.length)
    (path : Run (Step config) (begun accounts) actions s) (quiescent : Quiescent s) :
    EachGrantedOnce config accounts.users.length s ↔
      Run (Guarded (Uncut config) (Step config)) (begun accounts) actions s := by
  obtain ⟨_,⟨provided,guarded⟩ | ⟨⟨user,orphan⟩,unguarded⟩⟩ :=
    (uncut_divides positive).run path (begun_sound named) begun_provided
  · refine ⟨fun _ => guarded,fun _ user late inside => ?_⟩
    rcases provided user late inside with granted | ⟨r,pending⟩
    · exact granted
    · rw [quiescent r] at pending
      cases pending
  · refine ⟨fun each => ?_,fun guarded => absurd guarded unguarded⟩
    obtain ⟨e,one,_⟩ := each user orphan.created.1 orphan.created.2
    rw [orphan.ungranted] at one
    cases one

def Action.request : Action → Nat
  | .select r _ | .refresh r | .openAccount r | .grant r | .fail r => r

-- A step moves its own request only.
theorem step_apart {action : Action} {q : Nat} (step : Step config s action t) (apart : q ≠ action.request) :
    t.stages q = s.stages q := by
  cases action
  all_goals
    simp only [Step,advance] at step
    repeat' split at step
    all_goals cases step
    all_goals exact Function.update_of_ne apart _ _

theorem run_apart {actions : List Action} {q : Nat} (path : Run (Step config) s actions t)
    (apart : ∀ action ∈ actions, q ≠ action.request) : t.stages q = s.stages q := by
  induction path with
  | nil => rfl
  | step _ last ih =>
    have same := step_apart last (apart _ (List.mem_append_right _ (List.mem_singleton.mpr rfl)))
    exact same.trans (ih fun action member => apart action (List.mem_append_left _ member))

def idle : Stage → Bool
  | .idle => true
  | _ => false

-- Checked at the requests that acted, it holds of all.
theorem quiescent_of {accounts : Accounts} {actions : List Action} (path : Run (Step config) (begun accounts) actions s)
    (checked : actions.all (fun action => idle (s.stages action.request)) = true) : Quiescent s := by
  intro r
  by_cases acted : ∃ action ∈ actions, r = action.request
  · obtain ⟨action,member,rfl⟩ := acted
    have here := List.all_eq_true.mp checked action member
    cases stage : s.stages action.request with
    | idle => rfl
    | _ =>
      rw [stage] at here
      cases here
  · exact run_apart path fun action member same => acted ⟨action,member,same⟩

def alice : LdapAuth.LdapIdentity := {username := text "alice"}

-- Two logins at once: the second INSERT is refused.
def together : List Action := [.select 0 alice,.select 1 alice,.openAccount 0,.openAccount 1,.grant 0]

-- The process dies after the first commit; the next login finds the account.
def diedBetween : List Action := [.select 0 alice,.openAccount 0,.fail 0,.select 1 alice,.refresh 1]

theorem granted_once_together : ∃ s, s.accounts.users.length = 1 ∧ EachGrantedOnce {} 0 s := by
  have ran : (replay (checked (Uncut {}) (advance {})) together (begun {})).any (fun s =>
      s.accounts.users.length == 1 && together.all (fun action => idle (s.stages action.request))) = true := by
    decide +kernel
  obtain ⟨s,path,facts⟩ := checked_reaches ran
  obtain ⟨one,idle⟩ := Bool.and_eq_true_iff.mp facts
  have quiescent := quiescent_of path.unguarded idle
  exact ⟨s,eq_of_beq one,(granted_once_iff (by decide) (fun _ none => by cases none) path.unguarded quiescent).2 path⟩

theorem account_without_grant : ¬ ∀ (config : PortalConfig) actions s, config.autoProvision = true →
    0 < config.defaultGrantTokens → Run (Step config) (begun {}) actions s → Quiescent s → EachGrantedOnce config 0 s := by
  intro always
  have ran : (replay (advance {}) diedBetween (begun {})).any (fun s => (s.accounts.users.length == 1 &&
      automaticGrants s.accounts.db 0 == []) && diedBetween.all (fun action => idle (s.stages action.request))) = true := by
    decide +kernel
  obtain ⟨s,path,facts⟩ := replay_reaches ran
  obtain ⟨tables,idle⟩ := Bool.and_eq_true_iff.mp facts
  obtain ⟨one,none⟩ := Bool.and_eq_true_iff.mp tables
  have inside : 0 < s.accounts.users.length := by
    rw [eq_of_beq one]
    exact Nat.one_pos
  obtain ⟨e,granted,_⟩ := always {} diedBetween s rfl (by decide) path (quiescent_of path idle) 0 (Nat.le_refl 0) inside
  rw [eq_of_beq none] at granted
  cases granted

end BatchGateway.Provisioning
