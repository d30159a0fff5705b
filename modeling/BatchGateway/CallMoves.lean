import BatchGateway.Gateway
import BatchGateway.Noninterference

-- Whose rows one call to the server can touch, and on what grounds.
namespace BatchGateway.CallMoves
open PythonText PythonJson Raising BatchOps LabelledRuns PortalAccounts ApiKeys Gateway Footprints Noninterference

variable {H : Type} [DecidableEq H] (config : Config H)

-- Whose account or keys an operation is about.
def about (s : Credentials H) : Operation → List UserId
  | .createUser _ _ => [s.accounts.users.length]
  | .createApiKey user _ _ | .regenerateApiKey user _ _ | .initialKey user _ | .disableUser user | .enableUser user => [user]
  | .revokeApiKey key _ => (s.keys[key]?.map ApiKey.userId).toList
  | .cmdCreateKey username _ _ => ((s.accounts.find username).map Prod.snd).toList

def administered (s : Server H) : AdminRequest → List UserId
  | .createUser _ _ => [s.credentials.accounts.users.length]
  | .disableUser user | .enableUser user | .createApiKey user _ _ | .grantBudget user _ _ | .reconcileBudget user => [user]
  | .revokeApiKey key _ => (s.credentials.keys[key]?.map ApiKey.userId).toList
  | .listUsers | .getUser _ | .listApiKeys _ | .getBudget _ | .getLedger _ _ => []

-- The account an identity of the directory has, or is given.
def identified (accounts : Accounts) (identity : LdapAuth.LdapIdentity) : UserId :=
  match accounts.find identity.username with
  | some (_,user) => user
  | none => accounts.users.length

def signedInto (s : Server H) (attempt : PortalSessions.Attempt) : List UserId :=
  match config.portal.ldap with
  | none => []
  | some ldap =>
    match (attempt.login.authenticate config.texts ldap).result with
    | .ok identity => [identified s.credentials.accounts identity]
    | .error _ => []

-- The user whose session the cookie is, if the form carries its token.
def rotating (s : Server H) (cookie : Option Str) (csrfToken : Str) (now : Int) : List UserId :=
  match PortalSessions.currentUser config.idOf config.portal config.serializer cookie now s.credentials with
  | some (session,user) => if PortalSessions.csrfOk session csrfToken = some true then [user] else []
  | none => []

-- Who has proved to be whom, or for whom the server works by itself.
def concernedBy (s : Server H) : Call → List UserId
  | .student credentials _ _ =>
    match getCurrentUser config.hash s.credentials credentials with
    | .ok user => [user]
    | .error _ => []
  | .admin credentials request =>
    match requireAdmin config.adminToken credentials with
    | .ok _ => administered s request
    | .error _ => []
  | .portal (.loginSubmit attempt) => signedInto config s attempt
  | .portal (.rotateApiKey cookie csrfToken now _ _) => rotating config s cookie csrfToken now
  | .portal _ => []
  | .background op => concerned s.service op

def Apart (user : UserId) (s : Server H) (label : Call × Reply) : Prop := user ∉ concernedBy config s label.1

instance (user : UserId) (s : Server H) (label : Call × Reply) : Decidable (Apart config user s label) :=
  inferInstanceAs (Decidable (user ∉ concernedBy config s label.1))

-- What a key lets in and what an account is are read off these.
structure LoginKept (user : UserId) (s t : Credentials H) : Prop where
  keys : ∀ k, k ∈ Unrevoked t user ↔ k ∈ Unrevoked s user
  account : t.accounts.users[user]? = s.accounts.users[user]?

-- Only the books change, and only those of the users named; nothing is charged.
def Booked (users : List UserId) (db after : Db) : Prop :=
  ∃ budgets ledger, after = {db with budgets := budgets,ledger := ledger} ∧ Consumption.charges after = Consumption.charges db ∧
    ∀ user ∉ users, budgets user = db.budgets user ∧ ledger.filter (fun e => e.userId == user) = db.ledger.filter (fun e => e.userId == user)

-- What one call does to the tables.
inductive Moves (users : List UserId) (s t : Server H) : Prop where
  | routed {action : Routes.Action} : Routes.Step config.codec config.alpha config.defaultMaxTokens s.service action t.service →
    (∀ user ∈ Noninterference.concernedBy s.service action, user ∈ users) → t.credentials.keys = s.credentials.keys →
    t.credentials.accounts.users = s.credentials.accounts.users → Moves users s t
  | booked : Booked users s.db t.db → t.blobs = s.blobs → t.inFlight = s.inFlight →
    (∀ user ∉ users, LoginKept user s.credentials t.credentials) → Moves users s t

variable {config} {s t : Server H} {users : List UserId} {user : UserId} {reply : Reply}

omit [DecidableEq H] in
theorem LoginKept.refl (user : UserId) (s : Credentials H) : LoginKept user s s := ⟨fun _ => Iff.rfl,rfl⟩

omit [DecidableEq H] in
theorem LoginKept.trans {c d e : Credentials H} (first : LoginKept user c d) (second : LoginKept user d e) : LoginKept user c e :=
  ⟨fun k => (second.keys k).trans (first.keys k),second.account.trans first.account⟩

theorem LoginKept.admits {c d : Credentials H} {hash : Str → H} (kept : LoginKept user c d) (credentials : Option Str) :
    getCurrentUser hash d credentials = .ok user ↔ getCurrentUser hash c credentials = .ok user := by
  cases credentials with
  | none => exact Iff.rfl
  | some raw =>
    constructor
    · intro accepted
      obtain ⟨present,⟨k,member,hashed⟩,active⟩ := accepted_admits accepted
      exact admits_accepted ⟨present,⟨k,(kept.keys k).1 member,hashed⟩,kept.account ▸ active⟩
    · intro accepted
      obtain ⟨present,⟨k,member,hashed⟩,active⟩ := accepted_admits accepted
      exact admits_accepted ⟨present,⟨k,(kept.keys k).2 member,hashed⟩,kept.account ▸ active⟩

theorem Booked.refl (users : List UserId) (db : Db) : Booked users db db := ⟨_,_,rfl,rfl,fun _ _ => ⟨rfl,rfl⟩⟩

theorem Booked.trans {a b c : Db} (first : Booked users a b) (second : Booked users b c) : Booked users a c := by
  obtain ⟨_,_,rfl,charged,kept⟩ := first
  obtain ⟨budgets,ledger,rfl,charges,same⟩ := second
  refine ⟨budgets,ledger,rfl,charges.trans charged,fun user other => ?_⟩
  exact ⟨(same user other).1.trans (kept user other).1,(same user other).2.trans (kept user other).2⟩

omit [DecidableEq H] in
theorem Moves.still : Moves config users s s := .booked (.refl users s.db) rfl rfl fun user _ => .refl user _

theorem opened_booked (user : UserId) (db : Db) : Booked [user] db (openBudget user db) := by
  refine ⟨_,_,rfl,rfl,fun other apart => ⟨Function.update_of_ne (fun same => ?_) _ _,rfl⟩⟩
  exact apart (List.mem_singleton.mpr same)

theorem posted_booked {db : Db} {row : Budget} {entry : LedgerEntry} (mine : entry.userId = user) (free : entry.entryType ≠ .charge) :
    Booked [user] db (Ledger.post db user row entry) := by
  refine ⟨_,_,rfl,?_,fun other apart => ?_⟩
  · change (db.ledger ++ [entry]).filter _ = _
    rw [List.filter_append,List.filter_singleton,beq_eq_false_iff_ne.mpr free]
    exact List.append_nil _
  have differs : other ≠ user := fun same => apart (List.mem_singleton.mpr same)
  refine ⟨Function.update_of_ne differs _ _,?_⟩
  rw [List.filter_append,List.append_right_eq_self,List.filter_singleton,mine,beq_eq_false_iff_ne.mpr differs.symm]
  rfl

theorem granted_booked {tokens : Int} {note : Option Str} {db after : Db}
    (done : Ledger.perform (.ok ()) (Ledger.grant user tokens note) db = .ok after) : Booked [user] db after := by
  obtain ⟨_,rfl⟩ := Ledger.perform_grant done
  exact posted_booked rfl LedgerEntryType.noConfusion

theorem reconciled_booked {replayed : Reconciliation.Columns} {copy : Budget} {db after : Db}
    (done : Reconciliation.reconcile user replayed copy db = .ok after) : Booked [user] db after := by
  unfold Reconciliation.reconcile at done
  split at done
  · cases done
    exact .refl _ _
  · obtain ⟨_,_,done⟩ := bind_ok done
    cases done
    refine ⟨_,_,rfl,rfl,fun other apart => ⟨Function.update_of_ne (fun same => ?_) _ _,rfl⟩⟩
    exact apart (List.mem_singleton.mpr same)

-- A row behind the last of the table is not another user's.
theorem appended_account {rows later : List User} {row : User} (users : later = rows ++ [row]) (apart : user ≠ rows.length) :
    later[user]? = rows[user]? := by
  rw [users,List.getElem?_append]
  split
  · rfl
  · rename_i outside
    have beyond := Nat.lt_of_le_of_ne (Nat.le_of_not_lt outside) (Ne.symm apart)
    rw [List.getElem?_eq_none (Nat.le_of_lt beyond)]
    exact List.getElem?_eq_none (Nat.sub_pos_of_lt beyond)

section Credentials
variable {c d : Credentials H} {op : Operation} {e : Event} {hash : Str → H}

theorem perform_about (performed : perform hash c op = .ok (d,e)) (concerns : Concerns c user e) : user ∈ about c op := by
  have issues : ∀ {other : UserId} {label : Option Str} {secret : Str}, issue hash c other label secret = .ok (d,e) →
      user = other := by
    intro other label secret issued
    obtain ⟨_,_,same⟩ := bind_ok issued
    cases same
    exact concerns.symm
  cases op with
  | createUser username fullName =>
    simp only [perform] at performed
    split at performed
    · cases performed
      exact List.mem_singleton.mpr concerns.symm
    · cases performed
  | createApiKey other label secret =>
    obtain ⟨_,_,issued⟩ := bind_ok performed
    exact List.mem_singleton.mpr (issues issued)
  | initialKey other secret =>
    obtain ⟨_,_,issued⟩ := bind_ok performed
    exact List.mem_singleton.mpr (issues issued)
  | cmdCreateKey username label secret =>
    simp only [perform] at performed
    split at performed
    · rename_i row other found
      simp [about,found,issues performed]
    · cases performed
  | revokeApiKey key now =>
    simp only [perform] at performed
    split at performed
    · cases performed
      obtain ⟨row,found,mine⟩ := concerns
      simp [about,found,mine]
    · cases performed
  | regenerateApiKey other secret now =>
    obtain ⟨_,_,performed⟩ := bind_ok performed
    obtain ⟨_,_,same⟩ := bind_ok performed
    cases same
    exact List.mem_singleton.mpr concerns.symm
  | disableUser other =>
    obtain ⟨_,_,same⟩ := bind_ok performed
    cases same
    exact List.mem_singleton.mpr concerns.symm
  | enableUser other =>
    obtain ⟨_,_,same⟩ := bind_ok performed
    cases same
    exact List.mem_singleton.mpr concerns.symm

theorem perform_kept (performed : perform hash c op = .ok (d,e)) (apart : user ∉ about c op) : LoginKept user c d := by
  have effect : Effect hash c d e := step_effect (a := (op,e)) performed
  obtain ⟨keys,account⟩ := effect.apart fun concerns => apart (perform_about performed concerns)
  exact ⟨keys,account⟩

-- Users and keys are all an operation on them writes.
theorem perform_db (performed : perform hash c op = .ok (d,e)) : d.accounts.db = c.accounts.db := by
  have inserted : ∀ {k : ApiKey H} {base : Credentials H}, insertKey base k = .ok d → d.accounts.db = base.accounts.db := by
    intro k base done
    rw [(insertKey_ok done).1]
  have issues : ∀ {other : UserId} {label : Option Str} {secret : Str}, issue hash c other label secret = .ok (d,e) →
      d.accounts.db = c.accounts.db := by
    intro other label secret issued
    obtain ⟨_,done,same⟩ := bind_ok issued
    cases same
    exact inserted done
  cases op with
  | createUser username fullName =>
    simp only [perform] at performed
    split at performed
    · rename_i accounts added
      cases performed
      exact (Accounts.insertUser_some added).2
    · cases performed
  | createApiKey other label secret =>
    obtain ⟨_,_,issued⟩ := bind_ok performed
    exact issues issued
  | initialKey other secret =>
    obtain ⟨_,_,issued⟩ := bind_ok performed
    exact issues issued
  | cmdCreateKey username label secret =>
    simp only [perform] at performed
    split at performed
    · exact issues performed
    · cases performed
  | revokeApiKey key now =>
    simp only [perform] at performed
    split at performed
    · cases performed
      split <;> rfl
    · cases performed
  | regenerateApiKey other secret now =>
    obtain ⟨_,_,performed⟩ := bind_ok performed
    obtain ⟨_,done,same⟩ := bind_ok performed
    cases same
    have kept := inserted done
    exact kept
  | disableUser other =>
    obtain ⟨_,_,same⟩ := bind_ok performed
    cases same
    rfl
  | enableUser other =>
    obtain ⟨_,_,same⟩ := bind_ok performed
    cases same
    rfl

theorem performed_moves (performed : perform hash s.credentials op = .ok (d,e)) :
    Moves config (about s.credentials op) s (s.withCredentials d) := by
  refine .booked ?_ rfl rfl fun user apart => perform_kept performed apart
  change Booked _ s.db d.accounts.db
  rw [perform_db performed]
  exact .refl _ _

end Credentials

section Accounts
variable {accounts after : Accounts} {identity : LdapAuth.LdapIdentity} {portal : PortalConfig}
  {result : Except PortalError UserId}

theorem provision_parts (absent : accounts.find identity.username = none) (done : provision accounts identity portal = (after,result)) :
    Booked [identified accounts identity] accounts.db after.db ∧
    ∀ user ∉ [identified accounts identity], after.users[user]? = accounts.users[user]? := by
  have mine : identified accounts identity = accounts.users.length := by simp [identified,absent]
  rw [mine]
  unfold provision at done
  split at done
  · cases done
    exact ⟨.refl _ _,fun _ _ => rfl⟩
  · rename_i added inserted
    have users : added.users = accounts.users ++ [{username := identity.username,fullName := identity.displayName}] := by
      unfold Accounts.insertUser at inserted
      split at inserted
      · cases inserted
      · cases inserted
        rfl
    have rows : ∀ user ∉ [accounts.users.length], added.users[user]? = accounts.users[user]? := fun user apart =>
      appended_account users fun same => apart (List.mem_singleton.mpr same)
    have opened : Booked [accounts.users.length] accounts.db (openBudget accounts.users.length added.db) := by
      rw [(Accounts.insertUser_some inserted).2]
      exact opened_booked _ _
    dsimp only at done
    split at done
    · split at done
      · rename_i db granted
        cases done
        exact ⟨opened.trans (granted_booked granted),rows⟩
      · cases done
        exact ⟨opened,rows⟩
    · cases done
      exact ⟨opened,rows⟩

theorem resolveUser_parts (done : resolveUser accounts identity portal = (after,result)) :
    Booked [identified accounts identity] accounts.db after.db ∧
    ∀ user ∉ [identified accounts identity], after.users[user]? = accounts.users[user]? := by
  unfold resolveUser at done
  split at done
  · rename_i absent
    split at done
    · exact provision_parts absent done
    · cases done
      exact ⟨.refl _ _,fun _ _ => rfl⟩
  · rename_i row user found
    have mine : identified accounts identity = user := by simp [identified,found]
    split at done
    · cases done
      exact ⟨.refl _ _,fun _ _ => rfl⟩
    · split at done
      · cases done
        refine ⟨.refl _ _,fun other apart => Rows.getElem?_modify_other (fun same => ?_) _⟩
        exact apart (List.mem_singleton.mpr (same.symm.trans mine.symm))
      · cases done
        exact ⟨.refl _ _,fun _ _ => rfl⟩

end Accounts

theorem operate_moves {op : Operation} {show_ : Credentials H → Reply} (done : operate config op show_ s = (reply,t)) :
    Moves config (about s.credentials op) s t := by
  unfold operate at done
  split at done
  · rename_i credentials e performed
    cases done
    exact performed_moves performed
  · cases done
    exact .still

theorem createUser_moves {username : Str} {fullName : Option Str} (done : Gateway.createUser config username fullName s = (reply,t)) :
    Moves config [s.credentials.accounts.users.length] s t := by
  unfold Gateway.createUser at done
  split at done
  · cases done
    exact .still
  · dsimp only at done
    split at done
    · rename_i credentials e performed
      cases done
      refine .booked (opened_booked _ _) rfl rfl fun user apart => ?_
      have kept : LoginKept user s.credentials credentials := perform_kept performed apart
      exact ⟨kept.keys,kept.account⟩
    · cases done
      exact .still

omit [DecidableEq H] in
theorem withUser_moves {user : UserId} {answer : User → Reply × Server H} (done : withUser user s answer = (reply,t))
    (serves : ∀ row, answer row = (reply,t) → Moves config users s t) : Moves config users s t := by
  unfold withUser at done
  split at done
  · exact serves _ done
  · cases done
    exact .still

omit [DecidableEq H] in
theorem written_moves {show_ : Db → Reply} {x : Except Raised Db} (booked : ∀ db, x = .ok db → Booked users s.db db)
    (done : written s show_ x = (reply,t)) : Moves config users s t := by
  unfold written at done
  split at done
  · cases done
    exact .booked (booked _ rfl) rfl rfl fun user _ => ⟨fun _ => Iff.rfl,rfl⟩
  · cases done
    exact .still

theorem administer_moves {request : AdminRequest} (done : administer config request s = (reply,t)) :
    Moves config (administered s request) s t := by
  have reads : ∀ {r : Reply}, (r,s) = (reply,t) → Moves config (administered s request) s t := by
    intro r same
    cases same
    exact .still
  cases request with
  | createUser username fullName => exact createUser_moves done
  | listUsers => exact reads done
  | getUser user => exact withUser_moves done fun _ => reads
  | disableUser user => exact operate_moves done
  | enableUser user => exact operate_moves done
  | createApiKey user label secret => exact operate_moves done
  | listApiKeys user => exact withUser_moves done fun _ => reads
  | revokeApiKey key now => exact operate_moves done
  | getBudget user => exact withUser_moves done fun _ => reads
  | grantBudget user tokens note =>
    simp only [administer] at done
    split at done
    · exact reads done
    · exact withUser_moves done fun _ => written_moves fun _ => granted_booked
  | getLedger user limit => exact withUser_moves done fun _ => reads
  | reconcileBudget user => exact withUser_moves done fun _ => written_moves fun _ => reconciled_booked

theorem student_moves {credentials : Option Str} {request : StudentRequest} {now : Instant}
    (done : student config credentials request now s = (reply,t)) :
    Moves config (concernedBy config s (.student credentials request now)) s t := by
  unfold student at done
  split at done
  · cases done
    exact .still
  · rename_i user admitted
    cases request with
    | myBudget =>
      cases done
      exact .still
    | route request clock =>
      rcases route_served done with ⟨rfl,_⟩ | ⟨after,response,handled,rfl,_⟩
      · exact .still
      · have step : Routes.Step config.codec config.alpha config.defaultMaxTokens s.service (.request user request now) after := by
          simp only [Routes.Step,Routes.advance,handled]
        refine .routed step (fun other mine => ?_) rfl rfl
        simp only [concernedBy,admitted]
        exact mine

omit [DecidableEq H] in
theorem loginSubmit_moves {attempt : PortalSessions.Attempt} {response : PortalSessions.Response} {after : PortalSessions.Portal H}
    (done : PortalSessions.loginSubmit config.idOf config.texts config.portal config.serializer attempt s.portal = (response,after)) :
    Moves config (signedInto config s attempt) s {s with portal := after} := by
  have limited : ∀ limiter, Moves config (signedInto config s attempt) s {s with portal := {s.portal with limiter := limiter}} :=
    fun _ => .booked (.refl _ _) rfl rfl fun user _ => .refl user _
  unfold PortalSessions.loginSubmit at done
  split at done
  · cases done
    exact .still
  · split at done
    · cases done
      exact .still
    · rename_i ldap configured
      dsimp only at done
      split at done
      · cases done
        exact limited _
      · split at done
        · cases done
          exact limited _
        · cases done
          exact limited _
        · cases done
          exact limited _
        · rename_i identity verified
          have who : signedInto config s attempt = [identified s.credentials.accounts identity] := by
            simp only [signedInto,configured,verified]
          rw [who]
          have resolves : ∀ {accounts result}, resolveUser s.credentials.accounts identity config.portal.portal = (accounts,result) →
              ∀ limiter, Moves config [identified s.credentials.accounts identity] s
                {s with portal := ⟨{s.credentials with accounts := accounts},limiter⟩} := by
            intro accounts result resolved limiter
            obtain ⟨booked,rows⟩ := resolveUser_parts resolved
            exact .booked booked rfl rfl fun user apart => ⟨fun _ => Iff.rfl,rows user apart⟩
          unfold PortalSessions.loginResolved at done
          split at done
          · rename_i resolved
            cases done
            exact resolves resolved _
          · rename_i resolved
            cases done
            exact resolves resolved _
          · rename_i resolved
            split at done
            · cases done
              exact resolves resolved _
            · cases done
              exact resolves resolved _

theorem rotate_moves {cookie : Option Str} {csrfToken secret : Str} {now : Int} {revokedAt : Instant}
    {response : PortalSessions.Response} {after : PortalSessions.Portal H}
    (done : PortalSessions.rotateApiKey config.idOf config.hash config.portal config.serializer cookie csrfToken now secret revokedAt
      s.portal = (response,after)) : Moves config (rotating config s cookie csrfToken now) s {s with portal := after} := by
  unfold PortalSessions.rotateApiKey at done
  split at done
  · cases done
    exact .still
  · split at done
    · cases done
      exact .still
    · rename_i session user current
      split at done
      · cases done
        exact .still
      · cases done
        exact .still
      · rename_i passed
        have who : rotating config s cookie csrfToken now = [user] := by
          have current : PortalSessions.currentUser config.idOf config.portal config.serializer cookie now s.credentials =
              some (session,user) := current
          simp only [rotating,current,passed,if_true]
        rw [who]
        split at done
        · cases done
          exact .still
        · rename_i credentials event performed
          cases done
          exact performed_moves performed

theorem portal_moves {request : PortalSessions.Request} (own : routed (.portal request) = true)
    (done : portal config request s = (reply,t)) : Moves config (concernedBy config s (.portal request)) s t := by
  unfold portal at done
  cases request with
  | loginForm cookie now =>
    cases done
    exact .still
  | dashboard cookie now =>
    cases done
    exact .still
  | logout cookie csrfToken now =>
    cases done
    exact .still
  | loginSubmit attempt =>
    cases done
    exact loginSubmit_moves rfl
  | rotateApiKey cookie csrfToken now secret revokedAt =>
    cases done
    exact rotate_moves rfl
  | admin op => cases own
  | elsewhere db => cases own

theorem serve_moves {call : Call} (served : serve config call s = some (reply,t)) : Moves config (concernedBy config s call) s t := by
  unfold serve at served
  split at served
  · rename_i own
    cases call with
    | student credentials request now => exact student_moves (Option.some.inj served)
    | admin credentials request =>
      have done := Option.some.inj served
      unfold Gateway.admin at done
      split at done
      · cases done
        exact .still
      · rename_i admitted
        simp only [concernedBy,admitted]
        exact administer_moves done
    | portal request => exact portal_moves own (Option.some.inj served)
    | background op =>
      obtain ⟨after,advanced,same⟩ := Option.map_eq_some_iff.mp served
      cases same
      have allowed : Routes.background op = true := by
        cases op with
        | grant => cases own
        | _ => exact own
      have step : Routes.Step config.codec config.alpha config.defaultMaxTokens s.service (.background op) after := by
        simp only [Routes.Step,Routes.advance,allowed,if_true,advanced]
      exact .routed step (fun _ mine => mine) rfl rfl
  · cases served

end BatchGateway.CallMoves
