import BatchGateway.LdapAuth
import BatchGateway.Ledger
import Mathlib.Algebra.Order.BigOperators.Group.List

-- Portal logins: which account a directory identity is given.
namespace BatchGateway.PortalAccounts
open PythonText Raising

structure User where
  username : Str
  fullName : Option Str := none
  isActive : Bool := true
  deriving DecidableEq

-- The users table, username UNIQUE, beside the rest of the database; a user's id
-- is the row's position.
structure Accounts where
  users : List User := []
  db : Db := {}
  unique : (users.map User.username).Nodup := by decide

structure PortalConfig where
  autoProvision : Bool := true
  defaultGrantTokens : Int := 100000

inductive PortalError where
  | accessDenied (message : Str)
  | integrityError
  | ledger (raised : Raised)

namespace Accounts

def names (accounts : Accounts) : List Str := accounts.users.map User.username

def find (accounts : Accounts) (username : Str) : Option (User × UserId) :=
  accounts.users.zipIdx.find? (fun row => row.1.username == username)

-- INSERT INTO users; the UNIQUE constraint refuses a second row.
def insertUser (accounts : Accounts) (user : User) : Option Accounts :=
  if fresh : (accounts.users.map User.username).contains user.username then none
  else some ⟨accounts.users ++ [user],accounts.db,by
    rw [List.map_append,List.nodup_append]
    refine ⟨accounts.unique,by simp,fun a there b here => ?_⟩
    rw [List.map_singleton,List.mem_singleton] at here
    rintro rfl
    exact fresh (List.contains_iff_mem.mpr (here ▸ there))⟩

theorem usernames_modify (users : List User) (user : UserId) (fullName : Option Str) :
    (users.modify user (fun u => {u with fullName := fullName})).map User.username = users.map User.username := by
  apply List.ext_getElem?
  intro i
  rw [List.getElem?_map,List.getElem?_map,List.getElem?_modify]
  split <;> cases users[i]? <;> rfl

def setFullName (accounts : Accounts) (user : UserId) (fullName : Option Str) : Accounts :=
  ⟨accounts.users.modify user (fun u => {u with fullName := fullName}),accounts.db,by
    rw [usernames_modify]
    exact accounts.unique⟩

def withDb (accounts : Accounts) (db : Db) : Accounts := {accounts with db := db}

end Accounts

def firstLoginNote : Str := text "automatic grant on first portal login"

-- The row and an empty Budget are committed before the grant is made.
def provision (accounts : Accounts) (identity : LdapAuth.LdapIdentity) (config : PortalConfig) :
    Accounts × Except PortalError UserId :=
  match accounts.insertUser {username := identity.username,fullName := identity.displayName} with
  | none => (accounts,.error .integrityError)
  | some added =>
    let user := accounts.users.length
    let opened := added.withDb {added.db with budgets := Function.update added.db.budgets user (some ⟨0,0,0⟩)}
    if config.defaultGrantTokens > 0 then
      match Ledger.perform (.ok ()) (Ledger.grant user config.defaultGrantTokens (some firstLoginNote)) opened.db with
      | .ok db => (opened.withDb db,.ok user)
      | .error e => (opened,.error (.ledger e))
    else (opened,.ok user)

def resolveUser (accounts : Accounts) (identity : LdapAuth.LdapIdentity) (config : PortalConfig) :
    Accounts × Except PortalError UserId :=
  match accounts.find identity.username with
  | none =>
    if config.autoProvision then provision accounts identity config
    else (accounts,.error (.accessDenied (text "no account for '" ++ identity.username ++
      text "' and auto-provisioning is disabled")))
  | some (row,user) =>
    if !row.isActive then
      (accounts,.error (.accessDenied (text "account '" ++ identity.username ++ text "' is disabled")))
    else if LdapAuth.given identity.displayName && decide (row.fullName ≠ identity.displayName) then
      (accounts.setFullName user identity.displayName,.ok user)
    else (accounts,.ok user)

inductive LoginError where
  | auth (error : LdapAuth.AuthError)
  | portal (error : PortalError)

-- What is typed into the form, and how the directory behaves meanwhile.
structure Login where
  directory : LdapAuth.Directory
  username : Str
  password : Str

section
variable (texts : LdapAuth.Texts) (ldap : LdapAuth.LdapConfig) (portal : PortalConfig)

def Login.authenticate (login : Login) : LdapAuth.Call LdapAuth.LdapIdentity :=
  LdapAuth.authenticate texts ldap login.directory login.username login.password

def loginSubmit (accounts : Accounts) (login : Login) : Accounts × Except LoginError UserId :=
  match (login.authenticate texts ldap).result with
  | .error e => (accounts,.error (.auth e))
  | .ok identity =>
    match resolveUser accounts identity portal with
    | (after,.error e) => (after,.error (.portal e))
    | (after,.ok user) => (after,.ok user)

-- The DN the password was sent for.
def studentBind : LdapAuth.Event → Option Str
  | .bind .student user _ => user
  | .bind .service .. | .connect .. | .startTls .. | .search .. | .unbind .. => none

def boundDn (trace : List LdapAuth.Event) : Option Str := trace.findSome? studentBind

-- A login that succeeded: the spelling typed, the DN it bound as, the account it
-- was given and the entries its session added to the ledger.
structure Success where
  username : Str
  dn : Option Str
  user : UserId
  posted : List LedgerEntry

def automatic (e : LedgerEntry) : Bool := e.entryType == .grant && e.note == some firstLoginNote

def Success.grants (s : Success) : List LedgerEntry := s.posted.filter automatic

-- One attempt after another; the successful ones are recorded.
def logins : Accounts → List Login → List Success
  | _,[] => []
  | accounts,login :: rest =>
    let (after,outcome) := loginSubmit texts ldap portal accounts login
    match outcome with
    | .error _ => logins after rest
    | .ok user =>
      {username := login.username
       dn := boundDn (login.authenticate texts ldap).trace
       user := user
       posted := after.db.ledger.drop accounts.db.ledger.length} :: logins after rest

end

section
variable {E : Type} [DecidableEq E] (named : Str → E)

-- `named` tells which directory entry a DN is matched to.
def Success.entry (s : Success) : Option E := s.dn.map named

def OneAccount (successes : List Success) : Prop :=
  ∀ a ∈ successes, ∀ b ∈ successes, a.entry named = b.entry named → a.user = b.user

-- How many automatic grants the logins bound as one entry were given.
def received (entry : Option E) (successes : List Success) : Nat :=
  ((successes.filter (fun s => s.entry named = entry)).map (fun s => s.grants.length)).sum

def OneGrant (successes : List Success) : Prop := ∀ entry, received named entry successes ≤ 1

def OneSpelling (successes : List Success) : Prop :=
  ∀ a ∈ successes, ∀ b ∈ successes, a.entry named = b.entry named → a.username = b.username

end

namespace Accounts

theorem names_withDb (accounts : Accounts) (db : Db) : (accounts.withDb db).names = accounts.names := rfl

theorem names_setFullName (accounts : Accounts) (user : UserId) (fullName : Option Str) :
    (accounts.setFullName user fullName).names = accounts.names := usernames_modify _ _ _

theorem setFullName_grown (accounts : Accounts) (user : UserId) (fullName : Option Str) :
    accounts.names <+: (accounts.setFullName user fullName).names := by
  simp only [names_setFullName,List.prefix_rfl]

theorem find_some {accounts : Accounts} {username : Str} {row : User} {user : UserId}
    (found : accounts.find username = some (row,user)) : accounts.names[user]? = some username := by
  have present := List.mem_of_find?_eq_some found
  have same := List.find?_some found
  rw [List.mem_zipIdx_iff_getElem?] at present
  simp only [names,List.getElem?_map,present,Option.map_some,Option.some.injEq]
  exact eq_of_beq same

theorem find_none {accounts : Accounts} {username : Str} (found : accounts.find username = none) :
    username ∉ accounts.names := by
  intro member
  obtain ⟨row,there,same⟩ := List.mem_map.mp member
  obtain ⟨i,at_i⟩ := List.mem_iff_getElem?.mp there
  have absent := List.find?_eq_none.mp found (row,i) (List.mem_zipIdx_iff_getElem?.mpr at_i)
  exact absent (beq_iff_eq.mpr same)

theorem insertUser_some {accounts added : Accounts} {user : User} (done : accounts.insertUser user = some added) :
    added.names = accounts.names ++ [user.username] ∧ added.db = accounts.db := by
  unfold insertUser at done
  split at done
  · cases done
  · cases done
    exact ⟨List.map_append,rfl⟩

end Accounts

-- The automatic grants a name may still be given.
def grantsLeft (accounts : Accounts) (username : Str) : Nat := if accounts.names.contains username then 0 else 1

theorem grantsLeft_known {accounts : Accounts} {username : Str} (known : username ∈ accounts.names) :
    grantsLeft accounts username = 0 := if_pos (List.contains_iff_mem.mpr known)

theorem grantsLeft_unknown {accounts : Accounts} {username : Str} (unknown : username ∉ accounts.names) :
    grantsLeft accounts username = 1 := if_neg (fun known => unknown (List.contains_iff_mem.mp known))

theorem grantsLeft_le (accounts : Accounts) (username : Str) : grantsLeft accounts username ≤ 1 := by
  unfold grantsLeft
  split <;> omega

theorem grantsLeft_grown {accounts after : Accounts} (grown : accounts.names <+: after.names) (username : Str) :
    grantsLeft after username ≤ grantsLeft accounts username := by
  by_cases known : username ∈ accounts.names
  · rw [grantsLeft_known known,grantsLeft_known (grown.subset known)]
  · rw [grantsLeft_unknown known]
    exact grantsLeft_le after username

-- What a returned account says: it bears the identity's name, the table of names
-- only grew, and only a new name was given a grant.
structure Resolved (accounts after : Accounts) (username : Str) (user : UserId) : Prop where
  bears : after.names[user]? = some username
  grown : accounts.names <+: after.names
  granted : ((after.db.ledger.drop accounts.db.ledger.length).filter automatic).length ≤
    grantsLeft accounts username

theorem provision_grown (accounts : Accounts) (identity : LdapAuth.LdapIdentity) (config : PortalConfig) :
    accounts.names <+: (provision accounts identity config).1.names := by
  unfold provision
  split
  · exact List.prefix_rfl
  · rename_i added inserted
    have names := (Accounts.insertUser_some inserted).1
    dsimp only
    split
    · split <;> simp [Accounts.names_withDb,names]
    · simp [Accounts.names_withDb,names]

theorem resolveUser_grown (accounts : Accounts) (identity : LdapAuth.LdapIdentity) (config : PortalConfig) :
    accounts.names <+: (resolveUser accounts identity config).1.names := by
  unfold resolveUser
  split
  · split
    · exact provision_grown _ _ _
    · exact List.prefix_rfl
  · split
    · exact List.prefix_rfl
    · split
      · exact Accounts.setFullName_grown _ _ _
      · exact List.prefix_rfl

theorem provision_resolved {accounts after : Accounts} {identity : LdapAuth.LdapIdentity} {config : PortalConfig}
    {user : UserId} (unknown : identity.username ∉ accounts.names)
    (done : provision accounts identity config = (after,.ok user)) :
    Resolved accounts after identity.username user := by
  have grown : accounts.names <+: after.names := by
    have here := provision_grown accounts identity config
    rwa [done] at here
  unfold provision at done
  split at done
  · cases done
  · rename_i added inserted
    obtain ⟨names,same⟩ := Accounts.insertUser_some inserted
    have size : accounts.users.length = accounts.names.length := (List.length_map _).symm
    have last : added.names[accounts.users.length]? = some identity.username := by simp [names,size]
    dsimp only at done
    split at done
    · split at done
      · rename_i db granted
        cases done
        obtain ⟨_,posted⟩ := Ledger.perform_grant granted
        refine ⟨last,grown,?_⟩
        rw [grantsLeft_unknown unknown,posted,Accounts.withDb,Accounts.withDb,Ledger.post_ledger,same]
        simpa using List.length_filter_le automatic [_]
      · cases done
    · cases done
      refine ⟨last,grown,?_⟩
      simp [Accounts.withDb,same]

theorem resolveUser_resolved {accounts after : Accounts} {identity : LdapAuth.LdapIdentity} {config : PortalConfig}
    {user : UserId} (done : resolveUser accounts identity config = (after,.ok user)) :
    Resolved accounts after identity.username user := by
  unfold resolveUser at done
  split at done
  · rename_i found
    split at done
    · exact provision_resolved (Accounts.find_none found) done
    · cases done
  · rename_i row known found
    have bears := Accounts.find_some found
    split at done
    · cases done
    · split at done
      · cases done
        refine ⟨by rwa [Accounts.names_setFullName],Accounts.setFullName_grown _ _ _,?_⟩
        simp [Accounts.setFullName]
      · cases done
        exact ⟨bears,List.prefix_rfl,by simp⟩

section
variable {texts : LdapAuth.Texts} {ldap : LdapAuth.LdapConfig} {portal : PortalConfig}

variable (texts ldap portal) in
theorem loginSubmit_grown (accounts : Accounts) (login : Login) :
    accounts.names <+: (loginSubmit texts ldap portal accounts login).1.names := by
  unfold loginSubmit
  split
  · exact List.prefix_rfl
  · rename_i identity _
    have grown := resolveUser_grown accounts identity portal
    split
    all_goals
      rename_i resolved
      rwa [resolved] at grown

-- The identity carries the spelling that was typed.
theorem authenticate_username {login : Login} {identity : LdapAuth.LdapIdentity}
    (done : (login.authenticate texts ldap).result = .ok identity) : identity.username = login.username := by
  unfold Login.authenticate LdapAuth.authenticate at done
  split at done
  · cases done
  · split at done
    · cases done
    · obtain ⟨_,_,done⟩ := Traced.bind_result.mp done
      obtain ⟨_,_,done⟩ := Traced.bind_result.mp done
      obtain ⟨_,_,done⟩ := Traced.bind_result.mp done
      cases done
      rfl

-- A login that returned an identity bound as the DN its username leads to.
theorem authenticate_bound {login : Login} {identity : LdapAuth.LdapIdentity}
    (done : (login.authenticate texts ldap).result = .ok identity) : ∃ dn,
    LdapAuth.studentDn texts ldap login.directory login.username = some dn ∧
      boundDn (login.authenticate texts ldap).trace = some dn := by
  unfold Login.authenticate LdapAuth.authenticate at done ⊢
  split at done
  · cases done
  rename_i present
  split at done
  · cases done
  rename_i valid
  obtain ⟨⟨dn,found⟩,resolved,done⟩ := Traced.bind_result.mp done
  obtain ⟨conn,connected,done⟩ := Traced.bind_result.mp done
  refine ⟨dn,LdapAuth.resolveDn_result.mp ⟨found,resolved⟩,?_⟩
  rw [if_neg present,if_neg valid,Traced.bind_trace resolved,Traced.bind_trace connected]
  have before : ∀ e ∈ (LdapAuth.resolveDn texts ldap login.directory login.username).trace ++
      (LdapAuth.connect ldap login.directory .student (some dn) (some login.password)).trace, studentBind e = none := by
    intro e member
    rcases List.mem_append.mp member with service | opening
    · have account := LdapAuth.resolveDn_service login.username e service
      cases e <;> first | rfl | (cases account; rfl)
    · have quiet : Traced.Only (fun e => studentBind e = none)
          (LdapAuth.connect ldap login.directory .student (some dn) (some login.password)) :=
        LdapAuth.connect_only (fun _ => rfl) (fun _ => rfl) _ _
      exact quiet e opening
  rw [← List.append_assoc,boundDn,List.findSome?_append,List.findSome?_eq_none_iff.mpr before]
  obtain ⟨attributes,session,_⟩ := Traced.bind_result.mp done
  obtain ⟨bound,answered,_⟩ := Traced.bind_result.mp session
  rw [Traced.bind_trace session,Traced.tryFinally,Traced.bind_trace answered]
  rfl

theorem loginSubmit_resolved {accounts after : Accounts} {login : Login} {user : UserId}
    (done : loginSubmit texts ldap portal accounts login = (after,.ok user)) :
    Resolved accounts after login.username user := by
  unfold loginSubmit at done
  split at done
  · cases done
  · rename_i identity authenticated
    split at done
    · cases done
    · rename_i resolved
      cases done
      rw [← authenticate_username authenticated]
      exact resolveUser_resolved resolved

-- What a success records is an attempt's spelling and the DN it leads to.
theorem logins_bound {accounts : Accounts} {attempts : List Login} {s : Success}
    (member : s ∈ logins texts ldap portal accounts attempts) : ∃ login ∈ attempts, ∃ dn,
      s.username = login.username ∧ s.dn = some dn ∧
        LdapAuth.studentDn texts ldap login.directory login.username = some dn := by
  induction attempts generalizing accounts with
  | nil => cases member
  | cons login rest ih =>
    unfold logins at member
    cases same : loginSubmit texts ldap portal accounts login with
    | mk after outcome =>
      rw [same] at member
      cases outcome with
      | error e =>
        obtain ⟨other,there,bound⟩ := ih member
        exact ⟨other,List.mem_cons_of_mem _ there,bound⟩
      | ok user =>
        rcases List.mem_cons.mp member with rfl | later
        · unfold loginSubmit at same
          split at same
          · cases same
          · rename_i authenticated
            obtain ⟨dn,led,bound⟩ := authenticate_bound authenticated
            exact ⟨login,List.mem_cons_self,dn,rfl,bound,led⟩
        · obtain ⟨other,there,bound⟩ := ih later
          exact ⟨other,List.mem_cons_of_mem _ there,bound⟩

variable (texts ldap portal) in
-- Whatever the logins, some table of names without repetition explains every
-- account they were given.
theorem logins_named (accounts : Accounts) (attempts : List Login) : ∃ names : List Str, names.Nodup ∧
    accounts.names <+: names ∧ ∀ s ∈ logins texts ldap portal accounts attempts, names[s.user]? = some s.username := by
  induction attempts generalizing accounts with
  | nil => exact ⟨accounts.names,accounts.unique,List.prefix_rfl,by simp [logins]⟩
  | cons login rest ih =>
    unfold logins
    have grown := loginSubmit_grown texts ldap portal accounts login
    cases same : loginSubmit texts ldap portal accounts login with
    | mk after outcome =>
      rw [same] at grown
      obtain ⟨names,distinct,more,each⟩ := ih after
      refine ⟨names,distinct,grown.trans more,?_⟩
      cases outcome with
      | error e => exact each
      | ok user =>
        intro s member
        rcases List.mem_cons.mp member with rfl | later
        · have bears := (loginSubmit_resolved same).bears
          obtain ⟨inside,at_user⟩ := List.getElem?_eq_some_iff.mp bears
          exact (List.prefix_iff_getElem?.mp more user inside).trans (congrArg some at_user)
        · exact each s later

variable (texts ldap portal) in
-- One spelling is given at most one automatic grant, and none once it has an account.
theorem spelling_granted (accounts : Accounts) (attempts : List Login) (spelling : Str) :
    (((logins texts ldap portal accounts attempts).filter (fun s => s.username = spelling)).map
      (fun s => s.grants.length)).sum ≤ grantsLeft accounts spelling := by
  induction attempts generalizing accounts with
  | nil => simp [logins]
  | cons login rest ih =>
    unfold logins
    have grown := loginSubmit_grown texts ldap portal accounts login
    cases same : loginSubmit texts ldap portal accounts login with
    | mk after outcome =>
      rw [same] at grown
      have later := ih after
      have fewer := grantsLeft_grown grown spelling
      cases outcome with
      | error e =>
        exact later.trans fewer
      | ok user =>
        have resolved := loginSubmit_resolved same
        dsimp only
        rw [List.filter_cons]
        split
        · rename_i here
          have typed : login.username = spelling := by simpa using here
          rw [typed] at resolved
          rw [grantsLeft_known (List.mem_of_getElem? resolved.bears)] at later
          rw [List.map_cons,List.sum_cons]
          have first := resolved.granted
          simp only [Success.grants] at later ⊢
          omega
        · exact later.trans fewer

variable {E : Type} [DecidableEq E]

-- Two logins bound as one entry share the account, and the entry its grant, exactly
-- if they were typed in one spelling.
theorem one_account_iff (texts : LdapAuth.Texts) (ldap : LdapAuth.LdapConfig) (portal : PortalConfig)
    (accounts : Accounts) (attempts : List Login) (named : Str → E) :
    (OneAccount named (logins texts ldap portal accounts attempts) ∧
      OneGrant named (logins texts ldap portal accounts attempts)) ↔
    OneSpelling named (logins texts ldap portal accounts attempts) := by
  obtain ⟨names,distinct,_,bears⟩ := logins_named texts ldap portal accounts attempts
  constructor
  · rintro ⟨accountOf,_⟩ a inA b inB same
    have shared := bears a inA
    rw [accountOf a inA b inB same,bears b inB] at shared
    exact (Option.some.inj shared).symm
  · intro spelled
    constructor
    · intro a inA b inB same
      have first := bears a inA
      rw [spelled a inA b inB same,← bears b inB] at first
      exact (List.getElem?_inj (List.getElem?_eq_some_iff.mp (first.trans (bears b inB))).1 distinct).mp first
    · intro entry
      cases found : (logins texts ldap portal accounts attempts).filter (fun s => s.entry named = entry) with
      | nil => simp [received,found]
      | cons a others =>
        have bound : ∀ s, s ∈ a :: others → s ∈ logins texts ldap portal accounts attempts ∧ s.entry named = entry := by
          intro s member
          rw [← found,List.mem_filter] at member
          exact ⟨member.1,of_decide_eq_true member.2⟩
        have first := bound a List.mem_cons_self
        have every : ∀ s ∈ a :: others, s.username = a.username := by
          intro s member
          exact spelled s (bound s member).1 a first.1 ((bound s member).2.trans first.2.symm)
        have narrower : (a :: others).Sublist
            ((logins texts ldap portal accounts attempts).filter (fun s => s.username = a.username)) := by
          have kept := (List.filter_sublist (p := fun s => decide (s.entry named = entry))
            (l := logins texts ldap portal accounts attempts)).filter (fun s => decide (s.username = a.username))
          rwa [found,List.filter_eq_self.mpr (by simpa using every)] at kept
        have bounded := spelling_granted texts ldap portal accounts attempts a.username
        unfold received
        rw [found]
        exact ((narrower.map _).sum_le_sum (by simp)).trans (bounded.trans (grantsLeft_le accounts a.username))

end

-- A directory that knows one student and takes DNs without regard to case.
def aliceDirectory : LdapAuth.Directory := fun _ request =>
  {bind := .ok (request.user.map LdapAuth.plainTexts.lower == some (text "uid=alice,ou=people") &&
    request.password == some (text "secret"))}

-- The student types the name with a capital once: two accounts, two grants.
theorem second_spelling_granted_again : ∃ (texts : LdapAuth.Texts) (ldap : LdapAuth.LdapConfig)
    (portal : PortalConfig) (attempts : List Login) (named : Str → Str), portal.autoProvision = true ∧
    (∀ first second, texts.lower first = texts.lower second → named first = named second) ∧
    ¬ (OneAccount named (logins texts ldap portal {} attempts) ∧ OneGrant named (logins texts ldap portal {} attempts)) := by
  refine ⟨LdapAuth.plainTexts,LdapAuth.exampleConfig,{},
    [⟨aliceDirectory,text "alice",text "secret"⟩,⟨aliceDirectory,text "Alice",text "secret"⟩],
    LdapAuth.plainTexts.lower,rfl,fun _ _ same => same,?_⟩
  rintro ⟨accountOf,_⟩
  have same := accountOf ⟨text "alice",some (text "uid=alice,ou=people"),0,_⟩ (List.mem_cons_self)
    ⟨text "Alice",some (text "uid=Alice,ou=people"),1,_⟩ (List.mem_cons_of_mem _ List.mem_cons_self) (by decide)
  cases same

end BatchGateway.PortalAccounts
