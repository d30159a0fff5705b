import BatchGateway.LdapAuth

-- What a directory login proves, and how each reply of the directory ends it.
namespace BatchGateway.DirectoryLogin
open PythonText Traced LdapAuth

-- Which connections a call asked the directory for.
def Asked (directory : Directory) (trace : List Event) (account : Account) (conn : Connection) : Prop :=
  ∃ request, .connect account request ∈ trace ∧ directory account request = conn

def Rejected {α : Type} (x : Call α) : Prop := ∃ message, x.result = .error (.ldapAuthFailed message)
def Unavailable {α : Type} (x : Call α) : Prop := ∃ message, x.result = .error (.ldapError message)

section
variable (texts : Texts) (config : LdapConfig) (directory : Directory)

-- What the student's own entry says over the student's connection.
def ownAttributes (conn : Connection) (dn : Str) : Option Attributes :=
  match conn.search (ownSearch config dn) with
  | .ok reply => (matched reply).head?.map Entry.attributes
  | .error _ => none

-- The attributes a DN is known by: those of the entry found, or its own.
def knownAttributes (conn : Connection) (username dn : Str) : Option Attributes :=
  if config.bindMode = text "search" then (serviceEntry texts config directory username).map Prod.snd
  else ownAttributes config conn dn

-- The DN's memberOf lists the required group, or the group's own entry lists the DN.
def Member (conn : Connection) (dn : Str) (attributes : Option Attributes) : Prop :=
  ∀ required, config.requiredGroupDn = some required → required ≠ [] →
    (∃ g ∈ asList (attributes.getD []) config.attrMemberOf, texts.lower g = texts.lower required) ∨
    ∃ reply, conn.search (memberSearch texts required dn) = .ok reply ∧ matched reply ≠ []

-- Both connections are used alike: connect, bind, and whatever happens unbind.
def session {α : Type} (account : Account) (user password : Option Str) (body : Connection → Bool → Call α) : Call α := do
  let conn ← connect config directory account user password
  tryFinally (do
    let bound ← bind account user password conn
    body conn bound)
    [.unbind account]

def greeting (account : Account) (user password : Option Str) : List Event :=
  .connect account (defaultConnectionFactory config user password) ::
    if config.startTls && !config.useSsl
    then [.startTls account (connection config directory account user password).startTls] else []

-- The three ways a session goes.
inductive Went {α : Type} (account : Account) (user password : Option Str) (body : Connection → Bool → Call α) :
    Call α → Prop where
  | unopened {e message} (failed : (connection config directory account user password).opened = .error e) :
      Went account user password body
        ⟨[.connect account (defaultConnectionFactory config user password)],.error (.ldapError message)⟩
  | unbound {e message} (opened : (connection config directory account user password).opened = .ok ())
      (failed : (connection config directory account user password).bind = .error e) :
      Went account user password body ⟨greeting config directory account user password ++
        ([.bind account user password] ++ [.unbind account]),.error (.ldapError message)⟩
  | bound (answer : Bool) (opened : (connection config directory account user password).opened = .ok ())
      (answered : (connection config directory account user password).bind = .ok answer) :
      Went account user password body ⟨greeting config directory account user password ++
        (.bind account user password :: (body (connection config directory account user password) answer).trace ++
          [.unbind account]),(body (connection config directory account user password) answer).result⟩

end

section
variable {texts : Texts} {config : LdapConfig} {directory : Directory} {username password : Str} {α : Type}
variable {account : Account} {user secret : Option Str} {body : Connection → Bool → Call α}

theorem connect_ok (opened : (connection config directory account user secret).opened = .ok ()) :
    connect config directory account user secret =
      ⟨greeting config directory account user secret,.ok (connection config directory account user secret)⟩ := by
  simp only [connect,opened,greeting,ldapFailure]
  cases config.startTls && !config.useSsl <;> rfl

theorem session_went (config : LdapConfig) (directory : Directory) (account : Account) (user secret : Option Str)
    (body : Connection → Bool → Call α) :
    Went config directory account user secret body (session config directory account user secret body) := by
  cases opened : (connection config directory account user secret).opened with
  | error e =>
    have failed : session config directory account user secret body =
        ⟨[.connect account (defaultConnectionFactory config user secret)],
          .error (.ldapError (text "could not open a connection to the directory" ++ text ": " ++ e))⟩ := by
      simp only [session,connect,opened,ldapFailure]
      rfl
    rw [failed]
    exact .unopened opened
  | ok =>
    rw [session,connect_ok opened,bind_ok rfl]
    cases answered : (connection config directory account user secret).bind with
    | error e =>
      have failed : LdapAuth.bind account user secret (connection config directory account user secret) =
          ⟨[.bind account user secret],.error (.ldapError (text "bind failed" ++ text ": " ++ e))⟩ := by
        simp only [LdapAuth.bind,answered,ldapFailure]
        rfl
      rw [failed,bind_error rfl]
      exact .unbound opened answered
    | ok answer =>
      have done : LdapAuth.bind account user secret (connection config directory account user secret) =
          ⟨[.bind account user secret],.ok answer⟩ := by
        simp only [LdapAuth.bind,answered,ldapFailure]
        rfl
      rw [done,bind_ok rfl]
      exact .bound answer opened answered

theorem findUserDn_session (based : given config.searchBase = true) :
    findUserDn texts config directory username =
      session config directory .service config.serviceAccountDn config.serviceAccountPassword
        (serviceSearch texts config (config.searchBase.getD []) username) := by
  unfold findUserDn session
  cases base : config.searchBase with
  | none => rw [base] at based; cases based
  | some searchBase => cases searchBase with
    | nil => rw [base] at based; cases based
    | cons c rest => rfl

theorem authenticate_session (typed : password ≠ []) (valid : usernameRe username = true) :
    authenticate texts config directory username password =
      resolveDn texts config directory username >>= fun led =>
        session config directory .student (some led.1) (some password) (studentSession texts config led.1 led.2) >>=
          fun attributes => pure (identityOf config username attributes) := by
  unfold authenticate
  rw [if_neg (by simpa using typed),if_neg (by simp [valid])]
  simp only [session,bind_assoc]

variable {x : Call α} {conn : Connection}

def Searches (account : Account) (e : Event) : Prop := ∃ search, e = .search account search

theorem greeting_connect {e : Event} (member : e ∈ greeting config directory account user secret) :
    e = .connect account (defaultConnectionFactory config user secret) ∨ ∃ reply, e = .startTls account reply := by
  unfold greeting at member
  rcases List.mem_cons.mp member with here | upgrade
  · exact .inl here
  · split at upgrade
    · exact .inr ⟨_,List.mem_singleton.mp upgrade⟩
    · cases upgrade

-- The events of a session, and what each tells of its outcome.
theorem Went.connect (went : Went config directory account user secret body x)
    (quiet : ∀ conn bound, Only (Searches account) (body conn bound)) {other : Account} {request : Request}
    (member : .connect other request ∈ x.trace) :
    other = account ∧ request = defaultConnectionFactory config user secret := by
  have greeted : Event.connect other request ∈ greeting config directory account user secret := by
    cases went with
    | unopened => exact List.mem_cons.mpr (.inl (List.mem_singleton.mp member))
    | unbound => simpa using member
    | bound answer =>
      have listed : Event.connect other request ∈ greeting config directory account user secret ∨
          Event.connect other request ∈ (body (connection config directory account user secret) answer).trace := by
        simpa using member
      refine listed.resolve_right fun inside => ?_
      obtain ⟨search,same⟩ := quiet _ _ _ inside
      cases same
  rcases greeting_connect greeted with same | ⟨reply,same⟩
  · cases same
    exact ⟨rfl,rfl⟩
  · cases same

theorem Went.unavailable (went : Went config directory account user secret body x) {e : LdapException}
    (failed : (connection config directory account user secret).opened = .error e) : Unavailable x := by
  cases went with
  | unopened => exact ⟨_,rfl⟩
  | unbound opened => rw [failed] at opened; cases opened
  | bound _ opened => rw [failed] at opened; cases opened

theorem Went.bind (went : Went config directory account user secret body x)
    (quiet : ∀ conn bound, Only (Searches account) (body conn bound)) {other : Account} {name word : Option Str}
    (member : .bind other name word ∈ x.trace) : name = user ∧ word = secret ∧
      ((∃ e, (connection config directory account user secret).bind = .error e ∧ Unavailable x) ∨
        ∃ answer, (connection config directory account user secret).bind = .ok answer ∧
          x.result = (body (connection config directory account user secret) answer).result) := by
  have apart : Event.bind other name word ∉ greeting config directory account user secret := by
    intro greeted
    rcases greeting_connect greeted with same | ⟨reply,same⟩ <;> cases same
  cases went with
  | unopened => cases List.mem_singleton.mp member
  | unbound opened failed =>
    have same : Event.bind other name word = .bind account user secret := by simpa [apart] using member
    cases same
    exact ⟨rfl,rfl,.inl ⟨_,failed,_,rfl⟩⟩
  | bound answer opened answered =>
    have listed : Event.bind other name word = .bind account user secret ∨
        Event.bind other name word ∈ (body (connection config directory account user secret) answer).trace := by
      simpa [apart] using member
    rcases listed with same | inside
    · cases same
      exact ⟨rfl,rfl,.inr ⟨answer,answered,rfl⟩⟩
    · obtain ⟨search,same⟩ := quiet _ _ _ inside
      cases same

theorem Went.search (went : Went config directory account user secret body x) {other : Account} {search : Search}
    (member : .search other search ∈ x.trace) : ∃ answer,
      .search other search ∈ (body (connection config directory account user secret) answer).trace ∧
        x.result = (body (connection config directory account user secret) answer).result := by
  have apart : Event.search other search ∉ greeting config directory account user secret := by
    intro greeted
    rcases greeting_connect greeted with same | ⟨reply,same⟩ <;> cases same
  cases went with
  | unopened => cases List.mem_singleton.mp member
  | unbound => simp [apart] at member
  | bound answer => exact ⟨answer,by simpa [apart] using member,rfl⟩

theorem session_only (quiet : ∀ conn bound, Only (Searches account) (body conn bound)) :
    Only (fun e => e.account = account) (session config directory account user secret body) := by
  unfold session
  refine only_bind (connect_only (fun _ => rfl) (fun _ => rfl) _ _) fun conn => ?_
  refine only_finally (only_bind (only_perform ?_ _) fun bound e member => ?_) fun e member => ?_
  · rfl
  · obtain ⟨search,rfl⟩ := quiet conn bound e member
    rfl
  · rw [List.mem_singleton.mp member]
    rfl

-- What the service account's search says of the outcome.
theorem serviceSearch_quiet (searchBase username : Str) (conn : Connection) (bound : Bool) :
    Only (Searches .service) (serviceSearch texts config searchBase username conn bound) :=
  serviceSearch_only (fun search => ⟨search,rfl⟩) _ _ _ _

theorem onlyEntry_rejected {entries : List Entry} (several : entries.length ≠ 1) :
    ∃ message, onlyEntry entries = .error (.ldapAuthFailed message) := by
  unfold onlyEntry
  split
  · exact absurd rfl several
  · exact ⟨_,rfl⟩

theorem serviceSearch_filled {searchBase searchFilter : Str}
    (filled : texts.format config.searchFilter (texts.escapeFilterChars username) = .ok searchFilter) :
    serviceSearch texts config searchBase username conn true =
      ⟨[.search .service (userSearch config searchBase searchFilter)],
        ldapFailure "user search failed" (conn.search (userSearch config searchBase searchFilter)) >>=
          fun reply => onlyEntry (matched reply)⟩ := by
  simp only [serviceSearch,formatted,filled]
  change silent (.ok searchFilter) >>= _ = _
  rw [bind_ok rfl]
  dsimp only [silent]
  cases conn.search (userSearch config searchBase searchFilter) <;> rfl

theorem serviceSearch_outcome {searchBase : Str} {bound : Bool} {search : Search}
    (member : .search .service search ∈ (serviceSearch texts config searchBase username conn bound).trace) :
    (∀ e, conn.search search = .error e → Unavailable (serviceSearch texts config searchBase username conn bound)) ∧
    ∀ reply, conn.search search = .ok reply → (matched reply).length ≠ 1 →
      Rejected (serviceSearch texts config searchBase username conn bound) := by
  cases bound with
  | false => cases member
  | true =>
    cases filled : texts.format config.searchFilter (texts.escapeFilterChars username) with
    | error e =>
      simp only [serviceSearch,formatted,filled] at member
      cases member
    | ok searchFilter =>
      rw [serviceSearch_filled filled] at member
      cases List.mem_singleton.mp member
      refine ⟨fun e failed => ⟨text "user search failed" ++ text ": " ++ e,?_⟩,fun reply answered several => ?_⟩
      · rw [serviceSearch_filled filled,failed]
        rfl
      · obtain ⟨message,same⟩ := onlyEntry_rejected several
        refine ⟨message,?_⟩
        rw [serviceSearch_filled filled,answered]
        exact same

theorem studentSession_quiet (dn : Str) (found : Option Attributes) (conn : Connection) (bound : Bool) :
    Only (Searches .student) (studentSession texts config dn found conn bound) :=
  studentSession_only (fun search => ⟨search,rfl⟩) _ _ _ _

theorem membership_outcome (texts : Texts) (config : LdapConfig) (conn : Connection) (dn : Str) (attributes : Option Attributes) :
    ((checkGroupMembership texts config conn dn attributes).result = .ok () ∧ Member texts config conn dn attributes) ∨
      (Rejected (checkGroupMembership texts config conn dn attributes) ∧ ¬ Member texts config conn dn attributes) := by
  unfold checkGroupMembership Member
  cases asked : config.requiredGroupDn with
  | none => exact .inl ⟨rfl,fun required same => by cases same⟩
  | some group =>
    by_cases unset : group = []
    · subst unset
      exact .inl ⟨rfl,fun required same set => absurd (Option.some.inj same).symm set⟩
    · dsimp only
      rw [if_neg (by simpa using unset)]
      by_cases listed : (asList (attributes.getD []) config.attrMemberOf).any (fun g => texts.lower g == texts.lower group) = true
      · rw [if_pos listed]
        refine .inl ⟨rfl,fun required same _ => .inl ?_⟩
        cases same
        obtain ⟨g,member,equal⟩ := List.any_eq_true.mp listed
        exact ⟨g,member,eq_of_beq equal⟩
      · rw [if_neg listed]
        have unlisted : ¬ ∃ g ∈ asList (attributes.getD []) config.attrMemberOf, texts.lower g = texts.lower group := by
          rintro ⟨g,member,equal⟩
          exact listed (List.any_eq_true.mpr ⟨g,member,beq_iff_eq.mpr equal⟩)
        cases answered : conn.search (memberSearch texts group dn) with
        | error e =>
          refine .inr ⟨⟨_,rfl⟩,fun every => ?_⟩
          rcases every group rfl unset with listed | ⟨reply,same,_⟩
          · exact unlisted listed
          · rw [answered] at same; cases same
        | ok reply =>
          by_cases empty : matched reply = []
          · refine .inr ⟨⟨text "not a member of the required group",?_⟩,fun every => ?_⟩
            · simp [empty]
            · rcases every group rfl unset with listed | ⟨reply,same,full⟩
              · exact unlisted listed
              · rw [answered] at same
                cases same
                exact full empty
          · refine .inl ⟨by simp [empty],fun required same _ => .inr ?_⟩
            cases same
            exact ⟨reply,answered,empty⟩

def settledAttributes (config : LdapConfig) (conn : Connection) (dn : Str) : Option Attributes → Option Attributes
  | some attributes => some attributes
  | none => ownAttributes config conn dn

-- What the student's session returns.
theorem studentSession_outcome (dn : Str) (found : Option Attributes) :
    ((studentSession texts config dn found conn true).result = .ok (settledAttributes config conn dn found) ∧
      Member texts config conn dn (settledAttributes config conn dn found)) ∨
    (Rejected (studentSession texts config dn found conn true) ∧
      ¬ Member texts config conn dn (settledAttributes config conn dn found)) := by
  have read : (attributesFor config dn found conn).result = .ok (settledAttributes config conn dn found) := by
    cases found <;> rfl
  have same : studentSession texts config dn found conn true = attributesFor config dn found conn >>= fun attributes =>
      checkGroupMembership texts config conn dn attributes >>= fun _ => pure attributes := rfl
  rw [same,bind_ok read]
  rcases membership_outcome texts config conn dn (settledAttributes config conn dn found) with
    ⟨passed,member⟩ | ⟨⟨message,refused⟩,outside⟩
  · rw [bind_ok passed]
    exact .inl ⟨rfl,member⟩
  · rw [bind_error refused]
    exact .inr ⟨⟨message,rfl⟩,outside⟩

theorem resolveDn_session (mode : config.bindMode = text "search") (based : given config.searchBase = true) :
    resolveDn texts config directory username =
      session config directory .service config.serviceAccountDn config.serviceAccountPassword
        (serviceSearch texts config (config.searchBase.getD []) username) >>= fun led => pure (led.1,some led.2) := by
  unfold resolveDn
  rw [if_pos mode,findUserDn_session based]

-- Without a search base, or in direct mode, the service account is never used.
theorem resolveDn_trace (unused : ¬ (config.bindMode = text "search" ∧ given config.searchBase = true)) :
    (resolveDn texts config directory username).trace = [] := by
  unfold resolveDn
  by_cases mode : config.bindMode = text "search"
  · rw [if_pos mode]
    have failed : findUserDn texts config directory username =
        raised (.ldapError (text "ldap bind_mode='search' requires search_base")) := by
      unfold findUserDn
      cases base : config.searchBase with
      | none => rfl
      | some searchBase => cases searchBase with
        | nil => rfl
        | cons c rest => exact absurd ⟨mode,by rw [base]; rfl⟩ unused
    rw [failed]
    rfl
  · rw [if_neg mode]
    split
    · cases filled : formatted texts config.userDnTemplate (texts.escapeRdn username) <;> rfl
    · rfl

-- The attributes the membership check is given.
theorem resolved_attributes {dn : Str} {found : Option Attributes}
    (resolved : (resolveDn texts config directory username).result = .ok (dn,found)) (conn : Connection) :
    settledAttributes config conn dn found = knownAttributes texts config directory conn username dn := by
  unfold resolveDn at resolved
  unfold knownAttributes
  by_cases mode : config.bindMode = text "search"
  · rw [if_pos mode] at resolved ⊢
    obtain ⟨⟨userDn,attributes⟩,entry,done⟩ := bind_result.mp resolved
    cases done
    rw [(findUserDn_result.mp entry).2]
    rfl
  · rw [if_neg mode] at resolved ⊢
    split at resolved
    · obtain ⟨userDn,_,done⟩ := bind_result.mp resolved
      cases done
      rfl
    · cases resolved

end

-- One account's share of a login: all its events, and every failure of it.
structure Part {α : Type} (config : LdapConfig) (directory : Directory) (account : Account) (user secret : Option Str)
    (body : Connection → Bool → Call α) (x : Call LdapIdentity) : Prop where
  events : ∀ e ∈ x.trace, e.account = account → e ∈ (session config directory account user secret body).trace
  fails : ∀ error, (session config directory account user secret body).result = .error error → x.result = .error error

section
variable {texts : Texts} {config : LdapConfig} {directory : Directory} {username password : Str} {e : Event}

theorem refused_trace (refused : password = [] ∨ usernameRe username = false) :
    (authenticate texts config directory username password).trace = [] := by
  unfold authenticate
  split
  · rfl
  · rename_i typed
    rcases refused with empty | invalid
    · exact absurd (List.isEmpty_iff.mpr empty) typed
    · rw [if_pos (by rw [invalid]; rfl)]
      rfl

theorem admitted (member : e ∈ (authenticate texts config directory username password).trace) :
    password ≠ [] ∧ usernameRe username = true := by
  by_cases refused : password = [] ∨ usernameRe username = false
  · rw [refused_trace refused] at member
    cases member
  · exact ⟨fun empty => refused (.inl empty),Bool.not_eq_false _ ▸ fun invalid => refused (.inr invalid)⟩

theorem authenticate_events (member : e ∈ (authenticate texts config directory username password).trace) :
    (e.account = .service → e ∈ (resolveDn texts config directory username).trace) ∧
    (e.account = .student → ∃ dn found, (resolveDn texts config directory username).result = .ok (dn,found) ∧
      e ∈ (session config directory .student (some dn) (some password) (studentSession texts config dn found)).trace) := by
  obtain ⟨typed,valid⟩ := admitted member
  rw [authenticate_session typed valid] at member
  rcases mem_bind.mp member with first | ⟨⟨dn,found⟩,resolved,later⟩
  · have service := resolveDn_service username e first
    refine ⟨fun _ => first,fun student => ?_⟩
    rw [service] at student
    cases student
  · rcases mem_bind.mp later with here | ⟨_,_,none⟩
    · have student := session_only (studentSession_quiet dn found) e here
      refine ⟨fun service => ?_,fun _ => ⟨dn,found,resolved,here⟩⟩
      rw [student] at service
      cases service
    · cases none

theorem service_part (member : e ∈ (authenticate texts config directory username password).trace)
    (service : e.account = .service) :
    Part config directory .service config.serviceAccountDn config.serviceAccountPassword
      (serviceSearch texts config (config.searchBase.getD []) username)
      (authenticate texts config directory username password) := by
  have first := (authenticate_events member).1 service
  by_cases used : config.bindMode = text "search" ∧ given config.searchBase = true
  · have same : resolveDn texts config directory username = _ := resolveDn_session used.1 used.2
    constructor
    · intro other there account
      have inside := (authenticate_events there).1 account
      rw [same] at inside
      rcases mem_bind.mp inside with here | ⟨_,_,none⟩
      · exact here
      · cases none
    · intro error failed
      obtain ⟨typed,valid⟩ := admitted member
      rw [authenticate_session typed valid,same,bind_error failed,bind_error rfl]
  · rw [resolveDn_trace used] at first
    cases first

theorem student_part (member : e ∈ (authenticate texts config directory username password).trace)
    (student : e.account = .student) : ∃ dn found, (resolveDn texts config directory username).result = .ok (dn,found) ∧
      Part config directory .student (some dn) (some password) (studentSession texts config dn found)
        (authenticate texts config directory username password) := by
  obtain ⟨dn,found,resolved,_⟩ := (authenticate_events member).2 student
  refine ⟨dn,found,resolved,fun other there account => ?_,fun error failed => ?_⟩
  · obtain ⟨dn',found',same,here⟩ := (authenticate_events there).2 account
    rw [resolved] at same
    cases same
    exact here
  · obtain ⟨typed,valid⟩ := admitted member
    rw [authenticate_session typed valid,bind_ok resolved]
    dsimp only
    rw [bind_error failed]

end

section
variable {α : Type} {config : LdapConfig} {directory : Directory} {account : Account} {user secret name word : Option Str}
variable {body : Connection → Bool → Call α} {x : Call LdapIdentity} {conn : Connection} {error : LdapException}

theorem Part.failed_unavailable (part : Part config directory account user secret body x)
    (failed : Unavailable (session config directory account user secret body)) : Unavailable x := by
  obtain ⟨message,result⟩ := failed
  exact ⟨message,part.fails _ result⟩

theorem Part.failed_rejected (part : Part config directory account user secret body x)
    (failed : Rejected (session config directory account user secret body)) : Rejected x := by
  obtain ⟨message,result⟩ := failed
  exact ⟨message,part.fails _ result⟩

theorem Part.asked (part : Part config directory account user secret body x)
    (quiet : ∀ conn bound, Only (Searches account) (body conn bound)) (asked : Asked directory x.trace account conn) :
    conn = connection config directory account user secret := by
  obtain ⟨request,member,rfl⟩ := asked
  obtain ⟨_,rfl⟩ := (session_went config directory account user secret body).connect quiet (part.events _ member rfl)
  rfl

theorem Part.connect_raised (part : Part config directory account user secret body x)
    (quiet : ∀ conn bound, Only (Searches account) (body conn bound)) (asked : Asked directory x.trace account conn)
    (raised : conn.opened = .error error) : Unavailable x := by
  cases part.asked quiet asked
  exact part.failed_unavailable ((session_went config directory account user secret body).unavailable raised)

theorem Part.bind_raised (part : Part config directory account user secret body x)
    (quiet : ∀ conn bound, Only (Searches account) (body conn bound)) (asked : Asked directory x.trace account conn)
    (member : .bind account name word ∈ x.trace) (raised : conn.bind = .error error) : Unavailable x := by
  cases part.asked quiet asked
  obtain ⟨_,_,⟨_,_,failed⟩ | ⟨answer,answered,_⟩⟩ :=
    (session_went config directory account user secret body).bind quiet (part.events _ member rfl)
  · exact part.failed_unavailable failed
  · rw [raised] at answered
    cases answered

theorem Part.answered (part : Part config directory account user secret body x)
    (quiet : ∀ conn bound, Only (Searches account) (body conn bound)) (asked : Asked directory x.trace account conn)
    (member : .bind account name word ∈ x.trace) {answer : Bool} (answered : conn.bind = .ok answer) :
    name = user ∧ (session config directory account user secret body).result = (body conn answer).result := by
  cases part.asked quiet asked
  obtain ⟨named,_,⟨_,failed,_⟩ | ⟨other,same,result⟩⟩ :=
    (session_went config directory account user secret body).bind quiet (part.events _ member rfl)
  · rw [answered] at failed
    cases failed
  · rw [answered] at same
    cases same
    exact ⟨named,result⟩

end

-- A login that succeeded: the bind the directory accepted, and whom it was for.
structure Accepted (texts : Texts) (config : LdapConfig) (directory : Directory) (username password : Str)
    (trace : List Event) (dn : Str) : Prop where
  derived : studentDn texts config directory username = some dn
  asked : .connect .student (defaultConnectionFactory config (some dn) (some password)) ∈ trace
  opened : (connection config directory .student (some dn) (some password)).opened = .ok ()
  sent : .bind .student (some dn) (some password) ∈ trace
  bound : (connection config directory .student (some dn) (some password)).bind = .ok true
  member : Member texts config (connection config directory .student (some dn) (some password)) dn
    (knownAttributes texts config directory (connection config directory .student (some dn) (some password)) username dn)

-- How the directory's replies end a login.
structure Mapped (texts : Texts) (config : LdapConfig) (directory : Directory) (username : Str)
    (x : Call LdapIdentity) : Prop where
  userRefused : ∀ conn name word, Asked directory x.trace .student conn → .bind .student name word ∈ x.trace →
    conn.bind = .ok false → Rejected x
  notOneEntry : ∀ conn search reply, Asked directory x.trace .service conn → .search .service search ∈ x.trace →
    conn.search search = .ok reply → (matched reply).length ≠ 1 → Rejected x
  notMember : ∀ conn dn word, Asked directory x.trace .student conn → .bind .student (some dn) word ∈ x.trace →
    conn.bind = .ok true →
    ¬ Member texts config conn dn (knownAttributes texts config directory conn username dn) → Rejected x
  connectRaised : ∀ account conn error, Asked directory x.trace account conn → conn.opened = .error error → Unavailable x
  bindRaised : ∀ account conn name word error, Asked directory x.trace account conn →
    .bind account name word ∈ x.trace → conn.bind = .error error → Unavailable x
  searchRaised : ∀ conn search error, Asked directory x.trace .service conn → .search .service search ∈ x.trace →
    conn.search search = .error error → Unavailable x
  serviceRefused : ∀ conn name word, Asked directory x.trace .service conn → .bind .service name word ∈ x.trace →
    conn.bind = .ok false → Unavailable x

-- An account has one connection, and once opened it is unbound.
def Unbound (directory : Directory) (trace : List Event) : Prop :=
  ∀ earlier account request later, trace = earlier ++ .connect account request :: later →
    (∀ again, .connect account again ∉ later) ∧
    ((directory account request).opened = .ok () → .unbind account ∈ later)

section
variable {texts : Texts} {config : LdapConfig} {directory : Directory} {username password : Str}

theorem authenticate_mapped :
    Mapped texts config directory username (authenticate texts config directory username password) where
  userRefused conn name word asked member refused := by
    obtain ⟨dn,found,_,part⟩ := student_part member rfl
    refine part.failed_rejected ⟨_,(part.answered (studentSession_quiet dn found) asked member refused).2.trans rfl⟩
  notOneEntry conn search reply asked member answered several := by
    have part := service_part member rfl
    cases part.asked (serviceSearch_quiet _ _) asked
    obtain ⟨answer,inside,result⟩ := (session_went _ _ _ _ _ _).search (part.events _ member rfl)
    obtain ⟨message,rejected⟩ := (serviceSearch_outcome inside).2 reply answered several
    exact part.failed_rejected ⟨message,result.trans rejected⟩
  notMember conn dn word asked member accepted outside := by
    obtain ⟨dn',found,resolved,part⟩ := student_part member rfl
    obtain ⟨same,result⟩ := part.answered (studentSession_quiet dn' found) asked member accepted
    cases same
    rw [← resolved_attributes resolved] at outside
    rcases studentSession_outcome dn found with ⟨_,inside⟩ | ⟨⟨message,rejected⟩,_⟩
    · exact absurd inside outside
    · exact part.failed_rejected ⟨message,result.trans rejected⟩
  connectRaised account conn error asked raised := by
    obtain ⟨request,member,rfl⟩ := asked
    cases account with
    | service => exact (service_part member rfl).connect_raised (serviceSearch_quiet _ _) ⟨request,member,rfl⟩ raised
    | student =>
      obtain ⟨dn,found,_,part⟩ := student_part member rfl
      exact part.connect_raised (studentSession_quiet dn found) ⟨request,member,rfl⟩ raised
  bindRaised account conn name word error asked member raised := by
    cases account with
    | service => exact (service_part member rfl).bind_raised (serviceSearch_quiet _ _) asked member raised
    | student =>
      obtain ⟨dn,found,_,part⟩ := student_part member rfl
      exact part.bind_raised (studentSession_quiet dn found) asked member raised
  searchRaised conn search error asked member raised := by
    have part := service_part member rfl
    cases part.asked (serviceSearch_quiet _ _) asked
    obtain ⟨answer,inside,result⟩ := (session_went _ _ _ _ _ _).search (part.events _ member rfl)
    obtain ⟨message,unavailable⟩ := (serviceSearch_outcome inside).1 error raised
    exact part.failed_unavailable ⟨message,result.trans unavailable⟩
  serviceRefused conn name word asked member refused := by
    have part := service_part member rfl
    exact part.failed_unavailable ⟨_,(part.answered (serviceSearch_quiet _ _) asked member refused).2.trans rfl⟩

-- A student's session returns only over a bind that was accepted.
theorem session_accepted {dn : Str} {found attributes : Option Attributes}
    (passed : (session config directory .student (some dn) (some password)
      (studentSession texts config dn found)).result = .ok attributes) :
    (connection config directory .student (some dn) (some password)).opened = .ok () ∧
    (connection config directory .student (some dn) (some password)).bind = .ok true ∧
    Member texts config (connection config directory .student (some dn) (some password)) dn
      (settledAttributes config (connection config directory .student (some dn) (some password)) dn found) ∧
    ∀ e, e = .connect .student (defaultConnectionFactory config (some dn) (some password)) ∨
        e = .bind .student (some dn) (some password) →
      e ∈ (session config directory .student (some dn) (some password) (studentSession texts config dn found)).trace := by
  have went := session_went config directory .student (some dn) (some password) (studentSession texts config dn found)
  generalize session config directory .student (some dn) (some password) (studentSession texts config dn found) = x
    at went passed
  cases went with
  | unopened => cases passed
  | unbound => cases passed
  | bound answer opened answered =>
    cases answer with
    | false => cases passed
    | true =>
      refine ⟨opened,answered,?_,?_⟩
      · rcases studentSession_outcome dn found with ⟨_,member⟩ | ⟨⟨message,rejected⟩,_⟩
        · exact member
        · change (studentSession texts config dn found _ true).result = _ at passed
          rw [rejected] at passed
          cases passed
      · rintro e (rfl | rfl)
        · exact List.mem_append_left _ List.mem_cons_self
        · exact List.mem_append_right _ List.mem_cons_self

theorem authenticate_accepted {identity : LdapIdentity}
    (done : (authenticate texts config directory username password).result = .ok identity) :
    password ≠ [] ∧ ∃ dn, Accepted texts config directory username password
      (authenticate texts config directory username password).trace dn := by
  have typed : password ≠ [] := by
    rintro rfl
    cases done
  have valid : usernameRe username = true := by
    by_contra invalid
    unfold authenticate at done
    rw [if_neg (by simpa using typed),if_pos (by simpa using invalid)] at done
    cases done
  refine ⟨typed,?_⟩
  have same : authenticate texts config directory username password = _ := authenticate_session typed valid
  rw [same] at done
  obtain ⟨⟨dn,found⟩,resolved,done⟩ := bind_result.mp done
  obtain ⟨attributes,passed,_⟩ := bind_result.mp done
  obtain ⟨opened,bound,member,events⟩ := session_accepted passed
  have within : ∀ e ∈ (session config directory .student (some dn) (some password) (studentSession texts config dn found)).trace,
      e ∈ (authenticate texts config directory username password).trace := by
    intro e inside
    rw [same]
    exact mem_bind.mpr (.inr ⟨(dn,found),resolved,mem_bind.mpr (.inl inside)⟩)
  refine ⟨dn,resolveDn_result.mp ⟨found,resolved⟩,within _ (events _ (.inl rfl)),opened,within _ (events _ (.inr rfl)),bound,?_⟩
  rw [← resolved_attributes resolved]
  exact member

-- An opened connection owes its unbinding.
def Owes (directory : Directory) (e c : Event) : Prop :=
  ∃ account request, e = .connect account request ∧ (directory account request).opened = .ok () ∧ c = .unbind account

def Apart (e later : Event) : Prop := ∀ account request again, e = .connect account request → later ≠ .connect account again

section
variable {α : Type} {account : Account} {user secret : Option Str} {body : Connection → Bool → Call α}

theorem Owes.same {e c : Event} (owes : Owes directory e c) : c = .unbind e.account := by
  obtain ⟨account,request,rfl,_,rfl⟩ := owes
  rfl

theorem session_settled (quiet : ∀ conn bound, Only (Searches account) (body conn bound)) :
    Settled (Owes directory) (session config directory account user secret body).trace := by
  have only : Only (fun e => e.account = account) (session config directory account user secret body) := session_only quiet
  have free : ∀ c, ¬ Owes directory (.unbind account) c := by
    rintro c ⟨other,request,same,_⟩
    cases same
  have went := session_went config directory account user secret body
  generalize session config directory account user secret body = x at went only
  cases went with
  | @unopened e message failed =>
    refine ⟨fun c owed => ?_,trivial⟩
    obtain ⟨other,request,same,opened,_⟩ := owed
    cases same
    have raised : (directory account (defaultConnectionFactory config user secret)).opened = .error e := failed
    rw [raised] at opened
    cases opened
  | unbound =>
    dsimp only
    rw [← List.append_assoc]
    refine settled_last (fun e member c owes => ?_) free
    rw [owes.same,only e (by rw [← List.append_assoc]; exact List.mem_append_left _ member)]
  | bound =>
    dsimp only
    rw [← List.append_assoc]
    refine settled_last (fun e member c owes => ?_) free
    rw [owes.same,only e (by rw [← List.append_assoc]; exact List.mem_append_left _ member)]

-- Nothing after the first event of a session opens a connection.
theorem session_opens (quiet : ∀ conn bound, Only (Searches account) (body conn bound)) : ∃ rest,
    (session config directory account user secret body).trace =
        .connect account (defaultConnectionFactory config user secret) :: rest ∧
      ∀ other again, .connect other again ∉ rest := by
  have opening : ∀ events : List Event, (∀ other again, .connect other again ∉ events) → ∃ rest,
      greeting config directory account user secret ++ events =
          .connect account (defaultConnectionFactory config user secret) :: rest ∧
        ∀ other again, .connect other again ∉ rest := by
    intro events none
    refine ⟨_,rfl,fun other again member => ?_⟩
    rcases List.mem_append.mp member with upgrade | later
    · split at upgrade
      · cases List.mem_singleton.mp upgrade
      · cases upgrade
    · exact none other again later
  have went := session_went config directory account user secret body
  generalize session config directory account user secret body = x at went
  cases went with
  | unopened => exact ⟨[],rfl,fun other again member => by cases member⟩
  | unbound => exact opening _ (by simp)
  | bound answer =>
    refine opening _ fun other again member => ?_
    have inside : Event.connect other again ∈ (body (connection config directory account user secret) answer).trace := by
      simpa using member
    obtain ⟨search,same⟩ := quiet _ _ _ inside
    cases same

theorem session_apart (quiet : ∀ conn bound, Only (Searches account) (body conn bound)) :
    (session config directory account user secret body).trace.Pairwise Apart := by
  obtain ⟨rest,listed,none⟩ : ∃ rest, (session config directory account user secret body).trace = _ :: rest ∧ _ :=
    session_opens quiet
  rw [listed,List.pairwise_cons]
  constructor
  · intro later member account request again _ same
    exact none account again (same ▸ member)
  · refine List.Pairwise.imp_of_mem ?_ (List.pairwise_of_forall (R := fun _ _ => True) fun _ _ => trivial)
    intro e later here _ _ account request again same
    exact absurd (same ▸ here) (none account request)

end

theorem resolveDn_events : (resolveDn texts config directory username).trace = [] ∨
    (resolveDn texts config directory username).trace =
      (session config directory .service config.serviceAccountDn config.serviceAccountPassword
        (serviceSearch texts config (config.searchBase.getD []) username)).trace := by
  by_cases used : config.bindMode = text "search" ∧ given config.searchBase = true
  · right
    rw [resolveDn_session used.1 used.2]
    exact bind_pure_trace _ _
  · exact .inl (resolveDn_trace used)

theorem resolveDn_closed : Settled (Owes directory) (resolveDn texts config directory username).trace ∧
    (resolveDn texts config directory username).trace.Pairwise Apart := by
  have listed : (resolveDn texts config directory username).trace = [] ∨ _ := resolveDn_events
  rcases listed with none | service
  · rw [none]
    exact ⟨trivial,.nil⟩
  · rw [service]
    exact ⟨session_settled (serviceSearch_quiet _ _),session_apart (serviceSearch_quiet _ _)⟩

theorem authenticate_closed : Settled (Owes directory) (authenticate texts config directory username password).trace ∧
    (authenticate texts config directory username password).trace.Pairwise Apart := by
  by_cases refused : password = [] ∨ usernameRe username = false
  · rw [refused_trace refused]
    exact ⟨trivial,.nil⟩
  have typed : password ≠ [] := fun empty => refused (.inl empty)
  have valid : usernameRe username = true := Bool.not_eq_false _ ▸ fun invalid => refused (.inr invalid)
  obtain ⟨settled,apart⟩ : Settled (Owes directory) (resolveDn texts config directory username).trace ∧ _ := resolveDn_closed
  rw [authenticate_session typed valid]
  cases resolved : (resolveDn texts config directory username).result with
  | error e =>
    rw [bind_error resolved]
    exact ⟨settled,apart⟩
  | ok led =>
    rw [bind_ok resolved]
    dsimp only
    rw [bind_pure_trace]
    refine ⟨settled_append settled (session_settled (studentSession_quiet _ _)),?_⟩
    rw [List.pairwise_append]
    refine ⟨apart,session_apart (studentSession_quiet _ _),fun e before later after account request again first second => ?_⟩
    have service := resolveDn_service username e before
    have student := session_only (studentSession_quiet led.1 led.2) later after
    rw [first] at service
    rw [second] at student
    exact Account.noConfusion (service.symm.trans student)

theorem authenticate_unbound : Unbound directory (authenticate texts config directory username password).trace := by
  obtain ⟨settled,apart⟩ : Settled (Owes directory) (authenticate texts config directory username password).trace ∧ _ :=
    authenticate_closed
  intro earlier account request later listed
  refine ⟨fun again member => ?_,fun opened => settled.event listed _ ⟨account,request,rfl,opened,rfl⟩⟩
  rw [listed,List.pairwise_append,List.pairwise_cons] at apart
  exact apart.2.1.1 _ member account request again rfl rfl

end

-- A login that succeeds has proved the password for the DN its username leads to and
-- the membership; each refusal and each failure of the directory has its own error.
theorem directory_login (texts : Texts) (config : LdapConfig) (directory : Directory) (username password : Str) :
    (∀ identity, (authenticate texts config directory username password).result = .ok identity →
      password ≠ [] ∧ ∃ dn, Accepted texts config directory username password
        (authenticate texts config directory username password).trace dn) ∧
    Mapped texts config directory username (authenticate texts config directory username password) ∧
    Unbound directory (authenticate texts config directory username password).trace :=
  ⟨fun _ done => authenticate_accepted done,authenticate_mapped,authenticate_unbound⟩

end BatchGateway.DirectoryLogin
