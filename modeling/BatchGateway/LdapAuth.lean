import BatchGateway.EventTraces
import BatchGateway.PythonText
import BatchGateway.Raising

-- Login against a directory: which connections authenticate opens, and what it
-- sends over them.
namespace BatchGateway.LdapAuth
open PythonText Traced Raising

-- The text functions from outside this package: str.format with `username`,
-- repr and str.lower, and ldap3's two escapes.
structure Texts where
  format : Str → Str → Except Str Str
  repr : Str → Str
  lower : Str → Str
  escapeRdn : Str → Str
  escapeFilterChars : Str → Str

structure LdapConfig where
  serverUri : Str
  bindMode : Str := text "direct"
  userDnTemplate : Str := text "uid={username},ou=people"
  serviceAccountDn : Option Str := none
  serviceAccountPassword : Option Str := none
  searchBase : Option Str := none
  searchFilter : Str := text "(uid={username})"
  useSsl : Bool := false
  startTls : Bool := true
  caCertsFile : Option Str := none
  attrDisplayName : Str := text "cn"
  attrEmail : Str := text "mail"
  attrMemberOf : Str := text "memberOf"
  requiredGroupDn : Option Str := none

structure LdapIdentity where
  username : Str
  displayName : Option Str := none
  email : Option Str := none
  deriving DecidableEq

-- str.format raises its own errors on a template it cannot fill.
inductive AuthError where
  | ldapError (message : Str)
  | ldapAuthFailed (message : Str)
  | formatError (message : Str)
  deriving DecidableEq

-- An LDAPException, by its text.
abbrev LdapException := Str

inductive AttributeValue where
  | null
  | many (values : List Str)
  | single (value : Str)

abbrev Attributes := List (Str × AttributeValue)

structure Entry where
  dn : Str
  attributes : Attributes

inductive Scope where
  | base | subtree
  deriving DecidableEq

structure Search where
  searchBase : Str
  searchFilter : Str
  searchScope : Scope := .subtree
  attributes : List Str
  deriving DecidableEq

-- What ldap3's Connection is built from; auto_bind and raise_exceptions are off.
structure Request where
  serverUri : Str
  useSsl : Bool
  tls : Option (Option Str)
  user : Option Str
  password : Option Str
  simple : Bool
  deriving DecidableEq

-- How one connection to the directory behaves.
structure Connection where
  opened : Except LdapException Unit := .ok ()
  startTls : Except LdapException Bool := .ok true
  bind : Except LdapException Bool := .ok true
  search : Search → Except LdapException (Bool × List Entry) := fun _ => .ok (false,[])

-- authenticate opens at most one connection for each.
inductive Account where
  | service | student
  deriving DecidableEq, Repr

-- A directory answers each connection request as it likes.
abbrev Directory := Account → Request → Connection

inductive Event where
  | connect (account : Account) (request : Request)
  | startTls (account : Account) (reply : Except LdapException Bool)
  | bind (account : Account) (user password : Option Str)
  | search (account : Account) (search : Search)
  | unbind (account : Account)

abbrev Call := Traced Event AuthError

def given : Option Str → Bool
  | none => false
  | some value => !value.isEmpty

-- `^[A-Za-z0-9._@-]{1,64}$`, where `$` also matches before a final newline.
def usernameChar (c : CodePoint) : Bool :=
  (65 ≤ c.val && c.val ≤ 90) || (97 ≤ c.val && c.val ≤ 122) || (48 ≤ c.val && c.val ≤ 57) ||
  c.val == 46 || c.val == 95 || c.val == 64 || c.val == 45

def usernameRe (username : Str) : Bool :=
  let name := if username.getLast? = some newline then username.dropLast else username
  decide (1 ≤ name.length ∧ name.length ≤ 64) && name.all usernameChar

def firstValue (attributes : Attributes) (attr : Str) : Option Str :=
  match attributes.lookup attr with
  | none | some .null => none
  | some (.many values) => values.head?
  | some (.single value) => some value

def asList (attributes : Attributes) (attr : Str) : List Str :=
  match attributes.lookup attr with
  | none | some .null => []
  | some (.many values) => values
  | some (.single value) => [value]

def defaultConnectionFactory (config : LdapConfig) (user password : Option Str) : Request where
  serverUri := config.serverUri
  useSsl := config.useSsl
  tls := if config.useSsl || config.startTls then some config.caCertsFile else none
  user := user
  password := password
  simple := given user

section
variable (texts : Texts) (config : LdapConfig) (directory : Directory)

def connection (account : Account) (user password : Option Str) : Connection :=
  directory account (defaultConnectionFactory config user password)

def ldapFailure {α : Type} (what : String) : Except LdapException α → Except AuthError α
  | .ok a => .ok a
  | .error e => .error (.ldapError (text what ++ text ": " ++ e))

-- `_connect`: neither a False from start_tls nor an LDAPException ends the call.
def connect (account : Account) (user password : Option Str) : Call Connection := do
  let conn := connection config directory account user password
  perform (.connect account (defaultConnectionFactory config user password))
    (ldapFailure "could not open a connection to the directory" conn.opened)
  if config.startTls && !config.useSsl then
    perform (.startTls account conn.startTls) (.ok ())
  return conn

def bind (account : Account) (user password : Option Str) (conn : Connection) : Call Bool :=
  perform (.bind account user password) (ldapFailure "bind failed" conn.bind)

def identityAttributes : List Str := [config.attrDisplayName,config.attrEmail,config.attrMemberOf]

def userSearch (searchBase searchFilter : Str) : Search where
  searchBase := searchBase
  searchFilter := searchFilter
  attributes := identityAttributes config

def ownSearch (userDn : Str) : Search where
  searchBase := userDn
  searchFilter := text "(objectClass=*)"
  searchScope := .base
  attributes := identityAttributes config

def memberSearch (required userDn : Str) : Search where
  searchBase := required
  searchFilter := text "(|(member=" ++ texts.escapeFilterChars userDn ++
    text ")(uniqueMember=" ++ texts.escapeFilterChars userDn ++ text "))"
  searchScope := .base
  attributes := [text "cn"]

def formatted (template username : Str) : Except AuthError Str :=
  match texts.format template username with
  | .ok value => .ok value
  | .error e => .error (.formatError e)

-- `entries = list(conn.entries) if ok else []`
def matched (reply : Bool × List Entry) : List Entry := if reply.1 then reply.2 else []

def onlyEntry : List Entry → Except AuthError (Str × Attributes)
  | [entry] => .ok (entry.dn,entry.attributes)
  | entries => .error (.ldapAuthFailed (text s!"user search matched {entries.length} entries"))

-- What the service account does once it is bound.
def serviceSearch (searchBase username : Str) (conn : Connection) (bound : Bool) : Call (Str × Attributes) :=
  if !bound then raised (.ldapError (text "service account bind failed"))
  else do
    let searchFilter ← silent (formatted texts config.searchFilter (texts.escapeFilterChars username))
    let search := userSearch config searchBase searchFilter
    let reply ← perform (.search .service search) (ldapFailure "user search failed" (conn.search search))
    silent (onlyEntry (matched reply))

def findUserDn (username : Str) : Call (Str × Attributes) := do
  let searchBase := config.searchBase.getD []
  if searchBase.isEmpty then
    raised (.ldapError (text "ldap bind_mode='search' requires search_base"))
  else do
    let conn ← connect config directory .service config.serviceAccountDn config.serviceAccountPassword
    tryFinally (do
      let bound ← bind .service config.serviceAccountDn config.serviceAccountPassword conn
      serviceSearch texts config searchBase username conn bound)
      [.unbind .service]

-- An LDAPException here only costs the display name and the address.
def readOwnEntry (conn : Connection) (userDn : Str) : Call (Option Attributes) :=
  let search := ownSearch config userDn
  perform (.search .student search) (.ok (match conn.search search with
    | .ok reply => (matched reply).head?.map Entry.attributes
    | .error _ => none))

def checkGroupMembership (conn : Connection) (userDn : Str) (attributes : Option Attributes) : Call Unit :=
  match config.requiredGroupDn with
  | none => return ()
  | some required =>
    if required.isEmpty then return ()
    else
      let memberOf := asList (attributes.getD []) config.attrMemberOf
      if memberOf.any (fun g => texts.lower g == texts.lower required) then return ()
      else
        let search := memberSearch texts required userDn
        perform (.search .student search) (match conn.search search with
          | .ok reply => if (matched reply).isEmpty
              then .error (.ldapAuthFailed (text "not a member of the required group"))
              else .ok ()
          | .error _ => .error (.ldapAuthFailed (text "not a member of the required group")))

-- The DN to bind as and, in search mode, the attributes already read.
def resolveDn (username : Str) : Call (Str × Option Attributes) :=
  if config.bindMode = text "search" then do
    let (userDn,attributes) ← findUserDn texts config directory username
    return (userDn,some attributes)
  else if config.bindMode = text "direct" then do
    let userDn ← silent (formatted texts config.userDnTemplate (texts.escapeRdn username))
    return (userDn,none)
  else raised (.ldapError (text "unknown ldap bind_mode " ++ texts.repr config.bindMode))

def identityOf (username : Str) (attributes : Option Attributes) : LdapIdentity where
  username := username
  displayName := attributes.bind (fun a => firstValue a config.attrDisplayName)
  email := attributes.bind (fun a => firstValue a config.attrEmail)

def attributesFor (userDn : Str) (found : Option Attributes) (conn : Connection) : Call (Option Attributes) :=
  match found with
  | some attributes => return some attributes
  | none => readOwnEntry config conn userDn

-- What the student's connection is used for once it is bound.
def studentSession (userDn : Str) (found : Option Attributes) (conn : Connection) (bound : Bool) :
    Call (Option Attributes) :=
  if !bound then raised (.ldapAuthFailed (text "bind rejected"))
  else do
    let attributes ← attributesFor config userDn found conn
    checkGroupMembership texts config conn userDn attributes
    return attributes

def authenticate (username password : Str) : Call LdapIdentity :=
  if password.isEmpty then raised (.ldapAuthFailed (text "empty password"))
  else if !usernameRe username then raised (.ldapAuthFailed (text "invalid username"))
  else do
    let (userDn,found) ← resolveDn texts config directory username
    let conn ← connect config directory .student (some userDn) (some password)
    let attributes ← tryFinally (do
      let bound ← bind .student (some userDn) (some password) conn
      studentSession texts config userDn found conn bound)
      [.unbind .student]
    return identityOf config username attributes

-- A bind needs a StartTLS that succeeded on its own connection.
def needsTls : Event → Event → Prop
  | .bind account _ _,n => n = .startTls account (.ok true)
  | .connect .. ,_ | .startTls .. ,_ | .search .. ,_ | .unbind .. ,_ => False

-- A call that binds nowhere.
abbrev Quiet {α : Type} (x : Call α) : Prop := Only (fun e => ∀ n, ¬ needsTls e n) x

def BindsProtected (trace : List Event) : Prop :=
  ∀ earlier account user password later, trace = earlier ++ .bind account user password :: later →
    .startTls account (.ok true) ∈ earlier

theorem protected_iff (trace : List Event) : BindsProtected trace ↔ Ordered needsTls [] trace := by
  rw [ordered_iff]
  constructor
  · intro guarded earlier e later split n needed
    cases e with
    | bind account user password =>
      subst needed
      exact guarded earlier account user password later split
    | connect | startTls | search | unbind => exact needed.elim
  · intro ordered earlier account user password later split
    exact ordered earlier _ later split _ rfl

-- What the service account's connection answers for a username.
def serviceEntry (username : Str) : Option (Str × Attributes) :=
  let conn := connection config directory .service config.serviceAccountDn config.serviceAccountPassword
  match conn.opened,conn.bind,texts.format config.searchFilter (texts.escapeFilterChars username) with
  | .ok (),.ok true,.ok searchFilter =>
    match conn.search (userSearch config (config.searchBase.getD []) searchFilter) with
    | .ok reply => returned (onlyEntry (matched reply))
    | .error _ => none
  | _,_,_ => none

-- The DN a username leads to.
def studentDn (username : Str) : Option Str :=
  if config.bindMode = text "search" then
    if given config.searchBase then (serviceEntry texts config directory username).map Prod.fst else none
  else if config.bindMode = text "direct" then
    returned (texts.format config.userDnTemplate (texts.escapeRdn username))
  else none

-- Either the connection is not opened or StartTLS succeeds on it.
def Upgraded (conn : Connection) : Prop := conn.opened = .ok () → conn.startTls = .ok true

-- StartTLS succeeds on the service account's connection, if one is opened, and on
-- the student's, if the username leads to a DN.
def StartTlsSucceeds (username password : Str) : Prop :=
  (config.bindMode = text "search" → given config.searchBase = true →
    Upgraded (connection config directory .service config.serviceAccountDn config.serviceAccountPassword)) ∧
  ∀ dn, studentDn texts config directory username = some dn →
    Upgraded (connection config directory .student (some dn) (some password))

end

variable {texts : Texts} {config : LdapConfig} {directory : Directory}

theorem ldapFailure_ok {α : Type} {what : String} {x : Except LdapException α} {a : α} :
    ldapFailure what x = .ok a ↔ x = .ok a := by
  cases x <;> simp [ldapFailure]

theorem formatted_ok {template username value : Str} :
    formatted texts template username = .ok value ↔ texts.format template username = .ok value := by
  unfold formatted
  split <;> simp_all

theorem connect_opened (tls : config.startTls = true ∧ config.useSsl = false) {account : Account}
    {user password : Option Str} (opened : (connection config directory account user password).opened = .ok ()) :
    connect config directory account user password =
      ⟨[.connect account (defaultConnectionFactory config user password),
        .startTls account (connection config directory account user password).startTls],
       .ok (connection config directory account user password)⟩ := by
  simp only [connect,opened,tls.1,tls.2,ldapFailure]
  rfl

theorem connect_result {account : Account} {user password : Option Str} {conn : Connection} :
    (connect config directory account user password).result = .ok conn ↔
      (connection config directory account user password).opened = .ok () ∧
        conn = connection config directory account user password := by
  have last : ∀ conn' : Connection, (do
      if config.startTls && !config.useSsl then
        perform (.startTls account conn'.startTls) (.ok ())
      return conn' : Call Connection).result = .ok conn' := by
    intro conn'
    cases config.startTls && !config.useSsl <;> rfl
  unfold connect
  rw [bind_result]
  simp only [last,perform_result,ldapFailure_ok]
  constructor
  · rintro ⟨_,opened,same⟩
    exact ⟨opened,(Except.ok.inj same).symm⟩
  · rintro ⟨opened,rfl⟩
    exact ⟨(),opened,rfl⟩

theorem connect_only {kind : Event → Prop} {account : Account}
    (asked : ∀ request, kind (.connect account request)) (upgraded : ∀ reply, kind (.startTls account reply))
    (user password : Option Str) : Only kind (connect config directory account user password) := by
  unfold connect
  refine only_bind (only_perform (asked _) _) (fun _ => ?_)
  split
  · exact only_bind (only_perform (upgraded _) _) (fun _ => only_pure _)
  · exact only_pure _

-- What follows an opened connection and needs its StartTLS is in order exactly if
-- that StartTLS succeeds.
theorem connect_ordered (tls : config.startTls = true ∧ config.useSsl = false) {α : Type} {seen : List Event}
    {account : Account} (fresh : .startTls account (.ok true) ∉ seen) (user password : Option Str)
    {rest : Connection → Call α}
    (needed : ∀ conn seen, Ordered needsTls seen (rest conn).trace ↔ .startTls account (.ok true) ∈ seen) :
    Ordered needsTls seen (connect config directory account user password >>= rest).trace ↔
      Upgraded (connection config directory account user password) := by
  rw [ordered_bind,and_iff_right (ordered_quiet _ (connect_only (fun _ _ => id) (fun _ _ => id) _ _))]
  constructor
  · intro each opened
    rw [connect_opened tls opened] at each
    have present := (needed _ _).mp (each _ rfl)
    have reply : Except.ok true = (connection config directory account user password).startTls := by
      simpa [fresh] using present
    exact reply.symm
  · intro upgraded conn done
    obtain ⟨opened,rfl⟩ := connect_result.mp done
    rw [connect_opened tls opened,upgraded opened,needed]
    simp

-- A session binds first; nothing it does afterwards needs anything.
theorem session_ordered {α : Type} (seen : List Event) (account : Account) (user password : Option Str)
    (conn : Connection) {body : Bool → Call α} (quiet : ∀ bound, Quiet (body bound)) :
    Ordered needsTls seen (tryFinally (bind account user password conn >>= body) [.unbind account]).trace ↔
      .startTls account (.ok true) ∈ seen := by
  rw [ordered_finally _ _ (by simp [needsTls]),ordered_bind,
    and_iff_left (fun bound _ => ordered_quiet _ (quiet bound))]
  simp [bind,Ordered,needsTls]

theorem checkGroupMembership_only {kind : Event → Prop} (searched : ∀ search, kind (.search .student search))
    (conn : Connection) (userDn : Str) (attributes : Option Attributes) :
    Only kind (checkGroupMembership texts config conn userDn attributes) := by
  unfold checkGroupMembership
  split
  · exact only_pure _
  · split
    · exact only_pure _
    · dsimp only
      split
      · exact only_pure _
      · exact only_perform (searched _) _

theorem serviceSearch_only {kind : Event → Prop} (searched : ∀ search, kind (.search .service search))
    (searchBase username : Str) (conn : Connection) (bound : Bool) :
    Only kind (serviceSearch texts config searchBase username conn bound) := by
  unfold serviceSearch
  split
  · exact only_raised _
  · refine only_bind (only_silent _) (fun searchFilter => ?_)
    exact only_bind (only_perform (searched _) _) (fun reply => only_silent _)

theorem findUserDn_ordered (tls : config.startTls = true ∧ config.useSsl = false) (username : Str) :
    Ordered needsTls [] (findUserDn texts config directory username).trace ↔
      (given config.searchBase = true →
        Upgraded (connection config directory .service config.serviceAccountDn config.serviceAccountPassword)) := by
  unfold findUserDn
  cases base : config.searchBase with
  | none => simp [given,Ordered]
  | some searchBase =>
    cases searchBase with
    | nil => simp [given,Ordered]
    | cons first rest =>
      simp only [given,Option.getD_some,List.isEmpty_cons,Bool.not_false,forall_const,Bool.false_eq_true,if_false]
      refine connect_ordered tls (by simp) _ _ (fun conn seen => session_ordered _ _ _ _ _ (fun bound => ?_))
      exact serviceSearch_only (fun _ _ => id) _ _ _ _

-- The service account finds an entry exactly if its connection answers one.
theorem findUserDn_result {username dn : Str} {attributes : Attributes} :
    (findUserDn texts config directory username).result = .ok (dn,attributes) ↔
      given config.searchBase = true ∧ serviceEntry texts config directory username = some (dn,attributes) := by
  unfold findUserDn serviceEntry
  cases base : config.searchBase with
  | none => simp [given]
  | some searchBase =>
    cases searchBase with
    | nil => simp [given]
    | cons first rest =>
      simp only [given,Option.getD_some,List.isEmpty_cons,Bool.not_false,Bool.false_eq_true,if_false,true_and,
        bind_result,connect_result,tryFinally_result]
      generalize connection config directory .service config.serviceAccountDn config.serviceAccountPassword = conn
      cases opened : conn.opened with
      | error e => simp
      | ok u =>
        cases bound : conn.bind with
        | error e => simp [bind,bound,ldapFailure]
        | ok answer =>
          cases answer with
          | false => simp [bind,bound,ldapFailure,serviceSearch]
          | true =>
            cases filled : texts.format config.searchFilter (texts.escapeFilterChars username) with
            | error e => simp [bind,bound,ldapFailure,serviceSearch,bind_result,formatted,filled]
            | ok searchFilter =>
              cases answered : conn.search (userSearch config (first :: rest) searchFilter) with
              | error e => simp [bind,bound,ldapFailure,serviceSearch,bind_result,formatted,filled,answered]
              | ok reply =>
                simp [-Prod.exists,bind,bound,ldapFailure,serviceSearch,bind_result,formatted,filled,answered]

theorem modes_differ : text "direct" ≠ text "search" := by decide

theorem formatted_returned {template username value : Str} :
    (formatted texts template username) = .ok value ↔ returned (texts.format template username) = some value := by
  rw [formatted_ok,returned_some]

theorem resolveDn_result {username dn : Str} :
    (∃ found, (resolveDn texts config directory username).result = .ok (dn,found)) ↔
      studentDn texts config directory username = some dn := by
  unfold resolveDn studentDn
  by_cases search : config.bindMode = text "search"
  · simp only [search,if_true,bind_result,Prod.exists,findUserDn_result,pure_result,Except.ok.injEq,Prod.mk.injEq]
    constructor
    · rintro ⟨found,userDn,attributes,⟨base,served⟩,rfl,rfl⟩
      rw [if_pos base,served]
      rfl
    · intro led
      split at led
      · rename_i base
        obtain ⟨⟨userDn,attributes⟩,served,rfl⟩ := Option.map_eq_some_iff.mp led
        exact ⟨_,_,_,⟨base,served⟩,rfl,rfl⟩
      · cases led
  · rw [if_neg search,if_neg search]
    by_cases direct : config.bindMode = text "direct"
    · simp only [direct,if_true,bind_result,silent_result,formatted_returned,pure_result,Except.ok.injEq,Prod.mk.injEq]
      constructor
      · rintro ⟨_,_,led,rfl,_⟩
        exact led
      · intro led
        exact ⟨none,dn,led,rfl,rfl⟩
    · simp [direct]

theorem resolveDn_ordered (tls : config.startTls = true ∧ config.useSsl = false) (username : Str) :
    Ordered needsTls [] (resolveDn texts config directory username).trace ↔
      (config.bindMode = text "search" → given config.searchBase = true →
        Upgraded (connection config directory .service config.serviceAccountDn config.serviceAccountPassword)) := by
  unfold resolveDn
  by_cases search : config.bindMode = text "search"
  · rw [if_pos search,ordered_bind,findUserDn_ordered tls]
    simp [search,Ordered]
  · rw [if_neg search]
    split
    · simp [ordered_bind,Ordered,search]
    · simp [Ordered,search]

def Event.account : Event → Account
  | .connect account _ | .startTls account _ | .bind account _ _ | .search account _ | .unbind account => account

-- Before the DN is known only the service account's connection is used.
theorem resolveDn_service (username : Str) :
    Only (fun e => e.account = .service) (resolveDn texts config directory username) := by
  unfold resolveDn
  split
  · refine only_bind ?_ (fun _ => only_pure _)
    unfold findUserDn
    dsimp only
    split
    · exact only_raised _
    · refine only_bind (connect_only (fun _ => rfl) (fun _ => rfl) _ _) (fun conn => ?_)
      refine only_finally ?_ (by simp [Event.account])
      refine only_bind (only_perform ?_ _) (fun bound => ?_)
      · rfl
      exact serviceSearch_only (fun _ => rfl) _ _ _ _
  · split
    · exact only_bind (only_silent _) (fun _ => only_pure _)
    · exact only_raised _

theorem studentSession_only {kind : Event → Prop} (searched : ∀ search, kind (.search .student search))
    (userDn : Str) (found : Option Attributes) (conn : Connection) (bound : Bool) :
    Only kind (studentSession texts config userDn found conn bound) := by
  unfold studentSession
  split
  · exact only_raised _
  · refine only_bind ?_ (fun attributes => ?_)
    · cases found with
      | some attributes => exact only_pure _
      | none => exact only_perform (searched _) _
    · exact only_bind (checkGroupMembership_only searched _ _ _) (fun _ => only_pure _)

-- No password is sent in clear exactly if StartTLS succeeds wherever it is asked for.
theorem passwords_protected_iff (tls : config.startTls = true ∧ config.useSsl = false) (username password : Str) :
    BindsProtected (authenticate texts config directory username password).trace ↔
      (password ≠ [] → usernameRe username = true → StartTlsSucceeds texts config directory username password) := by
  rw [protected_iff]
  unfold authenticate StartTlsSucceeds
  by_cases empty : password = []
  · simp [empty,Ordered]
  by_cases valid : usernameRe username = true
  · rw [if_neg (by simpa using empty),if_neg (by simp [valid]),ordered_bind,resolveDn_ordered tls]
    simp only [valid,empty,ne_eq,not_false_eq_true,forall_const,List.nil_append,Prod.forall]
    refine and_congr_right (fun _ => ?_)
    have fresh : .startTls .student (.ok true) ∉ (resolveDn texts config directory username).trace :=
      fun member => Account.noConfusion (resolveDn_service username _ member)
    have session : ∀ (dn : Str) (found : Option Attributes),
        Ordered needsTls (resolveDn texts config directory username).trace (do
          let conn ← connect config directory .student (some dn) (some password)
          let attributes ← tryFinally (do
            let bound ← bind .student (some dn) (some password) conn
            studentSession texts config dn found conn bound)
            [.unbind .student]
          return identityOf config username attributes).trace ↔
        Upgraded (connection config directory .student (some dn) (some password)) := by
      intro dn found
      refine connect_ordered tls fresh _ _ (fun conn seen => ?_)
      rw [ordered_bind]
      simp only [pure_trace,Ordered,implies_true,and_true]
      exact session_ordered _ _ _ _ _ (fun bound => studentSession_only (fun _ _ => id) _ _ _ _)
    simp only [session,← resolveDn_result]
    constructor
    · intro each dn leads
      obtain ⟨found,led⟩ := leads
      exact each dn found led
    · intro each dn found led
      exact each dn ⟨found,led⟩
  · simp [empty,valid,Ordered]

-- str.format on a template whose only fields are {username}; `skip` characters of
-- a field just filled are left to drop.
def fill (value : Str) (skip : Nat) : Str → Str
  | [] => []
  | c :: rest => match skip with
    | skip + 1 => fill value skip rest
    | 0 => if (text "{username}").isPrefixOf (c :: rest) then value ++ fill value 9 rest else c :: fill value 0 rest

-- The text functions as they act on plain names, which need no escaping.
def plainTexts : Texts where
  format template username := .ok (fill username 0 template)
  repr value := text "'" ++ value ++ text "'"
  lower value := value.map (fun c => if 65 ≤ c.val ∧ c.val ≤ 90 then c + 32 else c)
  escapeRdn value := value
  escapeFilterChars value := value

def exampleConfig : LdapConfig := {serverUri := text "ldap://ldap.example"}

theorem passwords_protected_started : BindsProtected
    (authenticate plainTexts exampleConfig (fun _ _ => {}) (text "alice") (text "secret")).trace :=
  (passwords_protected_iff ⟨rfl,rfl⟩ _ _).mpr (fun _ _ => ⟨fun search => absurd search modes_differ,fun _ _ _ => rfl⟩)

-- start_tls returns False and the bind still sends the password.
theorem password_sent_in_clear : ∃ (texts : Texts) (config : LdapConfig) (directory : Directory) (username password : Str),
    config.startTls = true ∧ config.useSsl = false ∧
    ¬ BindsProtected (authenticate texts config directory username password).trace := by
  refine ⟨plainTexts,exampleConfig,fun _ _ => {startTls := .ok false},text "alice",text "secret",rfl,rfl,?_⟩
  intro guarded
  have exposed := guarded [_,.startTls .student (.ok false)] .student (some (text "uid=alice,ou=people")) _ [_,_] rfl
  simp at exposed

end BatchGateway.LdapAuth
