import BatchGateway.ApiKeys
import BatchGateway.Consumption
import BatchGateway.LoginLimits
import BatchGateway.TimedTokens

-- The portal behind its session cookies: portal/session.py and portal/routes.py.
namespace BatchGateway.PortalSessions
open PythonText PythonJson LabelledRuns PortalAccounts ApiKeys TimedTokens

structure Settings where
  ldap : Option LdapAuth.LdapConfig := none
  portal : PortalConfig := {}
  enabled : Bool := true
  sessionSecret : Str := []
  sessionLifetimeMinutes : Int := 480
  cookieSecure : Bool := true

structure PortalSession where
  userId : Str
  username : Str
  csrfToken : Str
  deriving DecidableEq

def PortalSession.data (session : PortalSession) : Json :=
  .obj [(text "user_id",.str session.userId),(text "username",.str session.username),(text "csrf",.str session.csrfToken)]

def ofData : Json → Option PortalSession
  | .obj data =>
    match get data "user_id",get data "username",get data "csrf" with
    | some (.str userId),some (.str username),some (.str csrf) => some ⟨userId,username,csrf⟩
    | _,_,_ => none
  | _ => none

-- app.state.portal_sessions is None exactly where this is false.
def Settings.portalEnabled (settings : Settings) : Bool := settings.enabled && !settings.sessionSecret.isEmpty

def Settings.maxAge (settings : Settings) : Int := settings.sessionLifetimeMinutes * 60

-- A str comparison by hmac.compare_digest; none is its TypeError.
def compareDigest (a b : Str) : Option Bool :=
  if a.all (fun c => decide (c.val < 0x80)) && b.all (fun c => decide (c.val < 0x80)) then some (a == b) else none

def csrfOk (session : PortalSession) (submitted : Str) : Option Bool :=
  if submitted.isEmpty then some false else compareDigest session.csrfToken submitted

-- One submission of the login form, with what is read and drawn meanwhile.
structure Attempt where
  clientIp : Str
  login : Login
  csrfToken : Str
  monotonic : ℚ
  now : Int

inductive Request where
  | loginForm (cookie : Option Str) (now : Int)
  | loginSubmit (attempt : Attempt)
  | dashboard (cookie : Option Str) (now : Int)
  | rotateApiKey (cookie : Option Str) (csrfToken : Str) (now : Int) (secret : Str) (revokedAt : Instant)
  | logout (cookie : Option Str) (csrfToken : Str) (now : Int)
  -- Beside the portal: the admin and the CLI, and every other table of the database.
  | admin (op : Operation)
  | elsewhere (db : Db)

-- What the dashboard shows beside the figures of `load_dashboard` that the tables
-- of the service hold: whose it is, and the last key of theirs that stands.
structure PortalPage where
  user : UserId
  data : Consumption.DashboardData
  apiKey : Option (Option Str × Str)

inductive Page where
  | unavailable (message : Str)
  | loginPage (error : Option Str) (status : Nat)
  | redirect (url : String)
  | dashboard (page : PortalPage) (csrfToken : Str) (newKey : Option Str)
  | badRequest (message : Str)
  | serverError
  | done

inductive Cookie where
  | keep
  | set (raw : Str) (maxAge : Int) (secure : Bool)
  | delete

structure Response where
  page : Page
  cookie : Cookie := .keep

def Response.cookieSet (response : Response) : Option Str :=
  match response.cookie with
  | .set raw _ _ => some raw
  | .keep | .delete => none

def Response.shows (response : Response) : Bool :=
  match response.page with
  | .dashboard .. => true
  | _ => false

structure Portal (H : Type) where
  credentials : Credentials H := {}
  limiter : LoginLimits.LoginRateLimiter

def portalOff : Str := text "The student portal is not enabled on this server."
def noDirectory : Str := text "No directory is configured, so logging in isn't possible on this server."
def tooMany : Str := text "Too many sign-in attempts. Please wait a minute and try again."
def genericLoginError : Str := text "Sorry, we couldn't sign you in with those details."
def unreachable : Str := text "The directory is unreachable right now. Please try again shortly."
def notSetUp : Str := text "Your directory account isn't set up for this service. Ask your instructor."
def invalidFormToken : Str := text "Invalid form token. Please reload and try again."

-- Rotations are the portal's own.
def administers : Operation → Bool
  | .regenerateApiKey _ _ _ => false
  | _ => true

section
variable {H : Type} [DecidableEq H] (idOf : UserId → Str) (hash : Str → H) (texts : LdapAuth.Texts) (settings : Settings)
variable (z : Serializer Json Str)

def loads (raw : Option Str) (now : Int) : Option PortalSession :=
  match raw with
  | none | some [] => none
  | some raw =>
    match z.loads raw settings.maxAge now with
    | .error _ => none
    | .ok data => ofData data

def currentSession (cookie : Option Str) (now : Int) : Option PortalSession :=
  if settings.portalEnabled then loads settings z cookie now else none

-- db.get(User, session.user_id)
def getUser (s : Credentials H) (id : Str) : Option (User × UserId) :=
  s.accounts.users.zipIdx.find? (fun row => idOf row.2 == id)

def currentUser (cookie : Option Str) (now : Int) (s : Credentials H) : Option (PortalSession × UserId) :=
  match currentSession settings z cookie now with
  | none => none
  | some session =>
    match getUser idOf s session.userId with
    | some (row,user) => if row.isActive then some (session,user) else none
    | none => none

-- The keys are in the order of their created_at.
def standingKey (s : Credentials H) (user : UserId) : Option (ApiKey H) := (Unrevoked s user).getLast?

def pageOf (s : Credentials H) (user : UserId) : PortalPage where
  user := user
  data := Consumption.loadDashboard s.accounts.db user
  apiKey := (standingKey s user).map (fun k => (k.label,k.keyPrefix))

def withAccounts (s : Portal H) (accounts : Accounts) : Portal H :=
  {s with credentials := {s.credentials with accounts := accounts}}

def newSession (user : UserId) (row : User) (csrfToken : Str) : PortalSession := ⟨idOf user,row.username,csrfToken⟩

def signIn (attempt : Attempt) (user : UserId) (row : User) : Response where
  page := .redirect "/portal/"
  cookie := .set (z.dumps (newSession idOf user row attempt.csrfToken).data attempt.now) settings.maxAge settings.cookieSecure

def loginForm (cookie : Option Str) (now : Int) : Response :=
  if !settings.portalEnabled then ⟨.unavailable portalOff,.keep⟩
  else if (currentSession settings z cookie now).isSome then ⟨.redirect "/portal/",.keep⟩
  else ⟨.loginPage none 200,.keep⟩

-- What resolve_user has committed stays, also where it raises.
def loginResolved (attempt : Attempt) (identity : LdapAuth.LdapIdentity) (s : Portal H) : Response × Portal H :=
  match resolveUser s.credentials.accounts identity settings.portal with
  | (accounts,.error (.accessDenied _)) => (⟨.loginPage (some notSetUp) 403,.keep⟩,withAccounts s accounts)
  | (accounts,.error _) => (⟨.serverError,.keep⟩,withAccounts s accounts)
  | (accounts,.ok user) =>
    match accounts.users[user]? with
    | none => (⟨.serverError,.keep⟩,withAccounts s accounts)
    | some row => (signIn idOf settings z attempt user row,withAccounts s accounts)

def loginSubmit (attempt : Attempt) (s : Portal H) : Response × Portal H :=
  if !settings.portalEnabled then (⟨.unavailable portalOff,.keep⟩,s)
  else match settings.ldap with
  | none => (⟨.unavailable noDirectory,.keep⟩,s)
  | some config =>
    let (allowed,limiter) := LoginLimits.allow attempt.monotonic attempt.clientIp s.limiter
    let s := {s with limiter := limiter}
    if !allowed then (⟨.loginPage (some tooMany) 429,.keep⟩,s)
    else match (attempt.login.authenticate texts config).result with
    | .error (.ldapAuthFailed _) => (⟨.loginPage (some genericLoginError) 401,.keep⟩,s)
    | .error (.ldapError _) => (⟨.loginPage (some unreachable) 503,.keep⟩,s)
    | .error (.formatError _) => (⟨.serverError,.keep⟩,s)
    | .ok identity => loginResolved idOf settings z attempt identity s

def dashboard (cookie : Option Str) (now : Int) (s : Portal H) : Response :=
  if !settings.portalEnabled then ⟨.unavailable portalOff,.keep⟩
  else match currentUser idOf settings z cookie now s.credentials with
  | none => ⟨.redirect "/portal/login",.keep⟩
  | some (session,user) => ⟨.dashboard (pageOf s.credentials user) session.csrfToken none,.keep⟩

def rotateApiKey (cookie : Option Str) (csrfToken : Str) (now : Int) (secret : Str) (revokedAt : Instant) (s : Portal H) :
    Response × Portal H :=
  if !settings.portalEnabled then (⟨.unavailable portalOff,.keep⟩,s)
  else match currentUser idOf settings z cookie now s.credentials with
  | none => (⟨.redirect "/portal/login",.keep⟩,s)
  | some (session,user) =>
    match csrfOk session csrfToken with
    | none => (⟨.serverError,.keep⟩,s)
    | some false => (⟨.badRequest invalidFormToken,.keep⟩,s)
    | some true =>
      match perform hash s.credentials (.regenerateApiKey user secret revokedAt) with
      | .error _ => (⟨.serverError,.keep⟩,s)
      | .ok (credentials,_) =>
        (⟨.dashboard (pageOf credentials user) session.csrfToken (some (rawKey secret)),.keep⟩,
          {s with credentials := credentials})

def logout (cookie : Option Str) (csrfToken : Str) (now : Int) (s : Portal H) : Response :=
  match currentUser idOf settings z cookie now s.credentials with
  | none => ⟨.redirect "/portal/login",.keep⟩
  | some (session,_) =>
    match csrfOk session csrfToken with
    | none => ⟨.serverError,.keep⟩
    | some false => ⟨.redirect "/portal/login",.keep⟩
    | some true => ⟨.redirect "/portal/login",.delete⟩

def administer (op : Operation) (s : Portal H) : Portal H :=
  if administers op then
    match perform hash s.credentials op with
    | .ok (credentials,_) => {s with credentials := credentials}
    | .error _ => s
  else s

def handle : Request → Portal H → Response × Portal H
  | .loginForm cookie now,s => (loginForm settings z cookie now,s)
  | .loginSubmit attempt,s => loginSubmit idOf texts settings z attempt s
  | .dashboard cookie now,s => (dashboard idOf settings z cookie now s,s)
  | .rotateApiKey cookie csrfToken now secret revokedAt,s =>
    rotateApiKey idOf hash settings z cookie csrfToken now secret revokedAt s
  | .logout cookie csrfToken now,s => (logout idOf settings z cookie csrfToken now s,s)
  | .admin op,s => (⟨.done,.keep⟩,administer hash op s)
  | .elsewhere db,s => (⟨.done,.keep⟩,withAccounts s (s.credentials.accounts.withDb db))

-- A request with its response.
def Step (s : Portal H) (label : Request × Response) (t : Portal H) : Prop :=
  handle idOf hash texts settings z label.1 s = (label.2,t)

end

def cookieOf : Request → Option Str
  | .loginForm cookie _ | .dashboard cookie _ | .rotateApiKey cookie _ _ _ _ | .logout cookie _ _ => cookie
  | .loginSubmit _ | .admin _ | .elsewhere _ => none

def timeOf : Request → Int
  | .loginForm _ now | .dashboard _ now | .rotateApiKey _ _ now _ _ | .logout _ _ now => now
  | .loginSubmit attempt => attempt.now
  | .admin _ | .elsewhere _ => 0

-- The cookies of a history.
def WasSet (labels : List (Request × Response)) (raw : Str) : Prop :=
  ∃ label ∈ labels, label.2.cookieSet = some raw

section
variable {H : Type} [DecidableEq H] {idOf : UserId → Str} {hash : Str → H} {texts : LdapAuth.Texts} {settings : Settings}
variable {z : Serializer Json Str} {s t : Portal H} {labels : List (Request × Response)} {request : Request} {response : Response}
variable {cookie : Option Str} {now : Int} {session : PortalSession} {user : UserId} {raw : Str}

def Portal.names (s : Portal H) : List Str := s.credentials.accounts.names

variable (idOf texts settings z) in
-- The sign-in a cookie goes back to, and what the directory said to it.
structure SignedIn (labels : List (Request × Response)) (names : List Str) (raw : Str) (user : UserId)
    (session : PortalSession) (attempt : Attempt) : Prop where
  asked : ∃ response, (Request.loginSubmit attempt,response) ∈ labels ∧
    response.cookie = .set raw settings.maxAge settings.cookieSecure
  signed : raw = z.dumps session.data attempt.now
  named : session.userId = idOf user ∧ session.csrfToken = attempt.csrfToken ∧ names[user]? = some session.username
  verified : ∃ config identity, settings.ldap = some config ∧
    (attempt.login.authenticate texts config).result = .ok identity ∧ identity.username = session.username
  enabled : settings.portalEnabled = true

theorem ofData_data (session : PortalSession) : ofData session.data = some session := rfl

omit [DecidableEq H] in
-- Who is signed in has shown a cookie that is read, and has an active account.
theorem currentUser_parts {credentials : Credentials H} (current : currentUser idOf settings z cookie now credentials = some (session,user)) :
    (∃ raw data, cookie = some raw ∧ z.loads raw settings.maxAge now = .ok data ∧ ofData data = some session) ∧
    ∃ row, credentials.accounts.users[user]? = some row ∧ row.isActive = true ∧ idOf user = session.userId := by
  unfold currentUser at current
  split at current
  · cases current
  · rename_i found loaded
    split at current
    · rename_i row other there
      split at current
      · rename_i active
        cases current
        refine ⟨?_,row,List.mk_mem_zipIdx_iff_getElem?.mp (List.mem_of_find?_eq_some there),active,?_⟩
        · unfold currentSession at loaded
          split at loaded
          · unfold loads at loaded
            split at loaded
            · cases loaded
            · cases loaded
            · rename_i text_ _
              split at loaded
              · cases loaded
              · rename_i data read
                exact ⟨text_,data,rfl,read,loaded⟩
          · cases loaded
        · have named := List.find?_some there
          exact eq_of_beq named
      · cases current
    · cases current

theorem csrf_same {submitted : Str} (passed : csrfOk session submitted = some true) : submitted = session.csrfToken := by
  unfold csrfOk compareDigest at passed
  split at passed
  · cases passed
  · split at passed
    · exact (eq_of_beq (Option.some.inj passed)).symm
    · cases passed

theorem SignedIn.grown {names later : List Str} {attempt : Attempt} {label : Request × Response}
    (signed : SignedIn idOf texts settings z labels names raw user session attempt) (grown : names <+: later) :
    SignedIn idOf texts settings z (labels ++ [label]) later raw user session attempt := by
  obtain ⟨response,asked,set⟩ := signed.asked
  refine ⟨⟨response,List.mem_append_left _ asked,set⟩,signed.signed,?_,signed.verified,signed.enabled⟩
  obtain ⟨id,token,bears⟩ := signed.named
  obtain ⟨rest,rfl⟩ := grown
  exact ⟨id,token,(List.getElem?_append_left (List.getElem?_eq_some_iff.mp bears).choose).trans bears⟩

omit [DecidableEq H] in
theorem effect_names {c d : Credentials H} {e : Event} (effect : Effect hash c d e) : c.accounts.names <+: d.accounts.names := by
  have kept (same : d.accounts.names = c.accounts.names) : c.accounts.names <+: d.accounts.names :=
    ⟨[],by rw [List.append_nil,same]⟩
  cases effect with
  | created row users => exact ⟨[row.username],by simp [Accounts.names,users]⟩
  | issued _ _ _ _ users => exact kept (congrArg (List.map User.username) users)
  | rotated _ _ _ _ _ users => exact kept (congrArg (List.map User.username) users)
  | revoked _ users => exact kept (congrArg (List.map User.username) users)
  | switched user active _ users => exact kept ((congrArg (List.map User.username) users).trans (names_modify _ _ _))

omit [DecidableEq H] in
-- What a submission of the login form changes, and the cookie it may set.
theorem loginResolved_parts {attempt : Attempt} {identity : LdapAuth.LdapIdentity}
    (done : loginResolved idOf settings z attempt identity s = (response,t)) :
    s.names <+: t.names ∧ t.credentials.keys = s.credentials.keys ∧ response.shows = false ∧
    ∀ raw, response.cookieSet = some raw → ∃ user row, t.credentials.accounts.users[user]? = some row ∧
      row.username = identity.username ∧ response = signIn idOf settings z attempt user row := by
  have grown := resolveUser_grown s.credentials.accounts identity settings.portal
  unfold loginResolved at done
  split at done
  · rename_i accounts message resolved
    rw [resolved] at grown
    cases done
    exact ⟨grown,rfl,rfl,fun _ set => by cases set⟩
  · rename_i accounts e _ resolved
    rw [resolved] at grown
    cases done
    exact ⟨grown,rfl,rfl,fun _ set => by cases set⟩
  · rename_i accounts user resolved
    have bears := (resolveUser_resolved resolved).bears
    rw [resolved] at grown
    split at done
    · cases done
      exact ⟨grown,rfl,rfl,fun _ set => by cases set⟩
    · rename_i row there
      cases done
      refine ⟨grown,rfl,rfl,fun _ _ => ⟨user,row,there,?_,rfl⟩⟩
      rw [Accounts.names,List.getElem?_map,there] at bears
      exact Option.some.inj bears

omit [DecidableEq H] in
theorem loginSubmit_parts {attempt : Attempt} (done : loginSubmit idOf texts settings z attempt s = (response,t)) :
    s.names <+: t.names ∧ t.credentials.keys = s.credentials.keys ∧ response.shows = false ∧
    ∀ raw, response.cookieSet = some raw → ∃ user row config identity,
      t.credentials.accounts.users[user]? = some row ∧ row.username = identity.username ∧
      response = signIn idOf settings z attempt user row ∧ settings.ldap = some config ∧
      (attempt.login.authenticate texts config).result = .ok identity ∧ settings.portalEnabled = true := by
  unfold loginSubmit at done
  split at done
  · cases done
    exact ⟨List.prefix_rfl,rfl,rfl,fun _ set => by cases set⟩
  · rename_i enabled
    split at done
    · cases done
      exact ⟨List.prefix_rfl,rfl,rfl,fun _ set => by cases set⟩
    · rename_i config configured
      dsimp only at done
      split at done
      · cases done
        exact ⟨List.prefix_rfl,rfl,rfl,fun _ set => by cases set⟩
      · split at done
        · cases done
          exact ⟨List.prefix_rfl,rfl,rfl,fun _ set => by cases set⟩
        · cases done
          exact ⟨List.prefix_rfl,rfl,rfl,fun _ set => by cases set⟩
        · cases done
          exact ⟨List.prefix_rfl,rfl,rfl,fun _ set => by cases set⟩
        · rename_i identity verified
          obtain ⟨grown,keys,plain,sets⟩ := loginResolved_parts done
          refine ⟨grown,keys,plain,fun raw set => ?_⟩
          obtain ⟨user,row,there,named,same⟩ := sets raw set
          exact ⟨user,row,config,identity,there,named,same,configured,verified,by simpa using enabled⟩

variable (idOf hash texts settings z) in
-- What one request does: whom it signs in, to whom it shows a page, and whose keys
-- it may touch.
structure Served (s t : Portal H) (request : Request) (response : Response) : Prop where
  grown : s.names <+: t.names
  set : ∀ raw, response.cookieSet = some raw → ∃ attempt user row config identity,
    request = .loginSubmit attempt ∧ t.credentials.accounts.users[user]? = some row ∧ row.username = identity.username ∧
    response = signIn idOf settings z attempt user row ∧ settings.ldap = some config ∧
    (attempt.login.authenticate texts config).result = .ok identity ∧ settings.portalEnabled = true
  shown : ∀ page csrf key, response.page = .dashboard page csrf key → ∃ session,
    currentUser idOf settings z (cookieOf request) (timeOf request) s.credentials = some (session,page.user) ∧
    csrf = session.csrfToken ∧ page = pageOf t.credentials page.user ∧ ∀ raw, key = some raw → ∃ secret revokedAt,
      request = .rotateApiKey (cookieOf request) csrf (timeOf request) secret revokedAt ∧ raw = rawKey secret ∧
      Effect hash s.credentials t.credentials (.rotated page.user raw s.credentials.keys.length)
  keys : ∀ user, (∀ k, k ∈ Unrevoked t.credentials user ↔ k ∈ Unrevoked s.credentials user) ∨ (∃ op, request = .admin op) ∨
    ∃ page csrf key, page.user = user ∧ response.page = .dashboard page csrf (some key)

omit [DecidableEq H] in
-- The same keys, and nothing shown or set.
theorem Served.silent (grown : s.names <+: t.names) (keys : t.credentials.keys = s.credentials.keys)
    (unset : response.cookieSet = none) (unshown : response.shows = false) :
    Served idOf hash texts settings z s t request response := by
  refine ⟨grown,fun raw set => ?_,fun page csrf key shown => ?_,fun user => .inl fun k => ?_⟩
  · rw [unset] at set
    cases set
  · rw [Response.shows,shown] at unshown
    cases unshown
  · rw [mem_unrevoked,mem_unrevoked,keys]

theorem regenerated {c d : Credentials H} {secret : Str} {revokedAt : Instant} {event : Event}
    (performed : perform hash c (.regenerateApiKey user secret revokedAt) = .ok (d,event)) :
    Effect hash c d (.rotated user (rawKey secret) c.keys.length) := by
  have effect : Effect hash c d event := step_effect (a := (.regenerateApiKey user secret revokedAt,event)) performed
  obtain ⟨row,found,performed⟩ := Raising.bind_ok performed
  obtain ⟨after,inserted,performed⟩ := Raising.bind_ok performed
  cases performed
  exact effect

theorem rotateApiKey_served {csrfToken secret : Str} {revokedAt : Instant}
    (done : rotateApiKey idOf hash settings z cookie csrfToken now secret revokedAt s = (response,t)) :
    Served idOf hash texts settings z s t (.rotateApiKey cookie csrfToken now secret revokedAt) response := by
  unfold rotateApiKey at done
  split at done
  · cases done
    exact .silent List.prefix_rfl rfl rfl rfl
  · split at done
    · cases done
      exact .silent List.prefix_rfl rfl rfl rfl
    · rename_i session user current
      split at done
      · cases done
        exact .silent List.prefix_rfl rfl rfl rfl
      · cases done
        exact .silent List.prefix_rfl rfl rfl rfl
      · rename_i passed
        have carried := csrf_same passed
        split at done
        · cases done
          exact .silent List.prefix_rfl rfl rfl rfl
        · rename_i credentials event performed
          cases done
          have effect := regenerated performed
          refine ⟨effect_names effect,fun _ set => (by cases set),?_,fun other => ?_⟩
          · intro page csrf key shown
            cases shown
            refine ⟨session,current,rfl,rfl,fun raw same => ?_⟩
            cases same
            exact ⟨secret,revokedAt,by rw [carried]; rfl,rfl,effect⟩
          · by_cases own : user = other
            · exact .inr (.inr ⟨pageOf credentials user,session.csrfToken,rawKey secret,own,rfl⟩)
            · exact .inl (effect.apart own).1

theorem handle_served (step : Step idOf hash texts settings z s (request,response) t) :
    Served idOf hash texts settings z s t request response := by
  unfold Step at step
  cases request with
  | loginForm cookie now =>
    simp only [handle,loginForm] at step
    split at step
    · cases step
      exact .silent List.prefix_rfl rfl rfl rfl
    · split at step
      · cases step
        exact .silent List.prefix_rfl rfl rfl rfl
      · cases step
        exact .silent List.prefix_rfl rfl rfl rfl
  | loginSubmit attempt =>
    obtain ⟨grown,keys,unshown,sets⟩ := loginSubmit_parts step
    refine ⟨grown,fun raw set => ?_,fun page csrf key shown => ?_,fun user => .inl fun k => ?_⟩
    · obtain ⟨user,row,config,identity,rest⟩ := sets raw set
      exact ⟨attempt,user,row,config,identity,rfl,rest⟩
    · rw [Response.shows,shown] at unshown
      cases unshown
    · rw [mem_unrevoked,mem_unrevoked,keys]
  | dashboard cookie now =>
    simp only [handle,dashboard] at step
    split at step
    · cases step
      exact .silent List.prefix_rfl rfl rfl rfl
    · split at step
      · cases step
        exact .silent List.prefix_rfl rfl rfl rfl
      · rename_i session user current
        cases step
        refine ⟨List.prefix_rfl,fun _ set => (by cases set),fun page csrf key shown => ?_,fun _ => .inl fun _ => Iff.rfl⟩
        cases shown
        exact ⟨session,current,rfl,rfl,fun _ given => by cases given⟩
  | rotateApiKey cookie csrfToken now secret revokedAt => exact rotateApiKey_served step
  | logout cookie csrfToken now =>
    simp only [handle,logout] at step
    split at step
    · cases step
      exact .silent List.prefix_rfl rfl rfl rfl
    · split at step
      all_goals
        cases step
        exact .silent List.prefix_rfl rfl rfl rfl
  | admin op =>
    cases step
    refine ⟨?_,fun _ set => (by cases set),fun _ _ _ shown => (by cases shown),fun _ => .inr (.inl ⟨op,rfl⟩)⟩
    unfold administer
    split
    · split
      · rename_i credentials event performed
        have effect : Effect hash s.credentials credentials event := step_effect (a := (op,event)) performed
        exact effect_names effect
      · exact List.prefix_rfl
    · exact List.prefix_rfl
  | elsewhere db =>
    cases step
    exact .silent List.prefix_rfl rfl rfl rfl

-- Every cookie of a run goes back to a sign-in of the run.
theorem run_signed {start : Portal H} (path : Run (Step idOf hash texts settings z) start labels s) (wasSet : WasSet labels raw) :
    ∃ user session attempt, SignedIn idOf texts settings z labels s.names raw user session attempt := by
  induction path with
  | nil =>
    obtain ⟨label,member,_⟩ := wasSet
    cases member
  | @step labels m label t before last ih =>
    obtain ⟨request,response⟩ := label
    have served := handle_served last
    obtain ⟨label,member,set⟩ := wasSet
    rcases List.mem_append.mp member with old | new
    · obtain ⟨user,session,attempt,signed⟩ := ih ⟨label,old,set⟩
      exact ⟨user,session,attempt,signed.grown served.grown⟩
    · cases List.mem_singleton.mp new
      obtain ⟨attempt,user,row,config,identity,rfl,there,named,rfl,configured,verified,enabled⟩ := served.set raw set
      cases set
      refine ⟨user,newSession idOf user row attempt.csrfToken,attempt,⟨_,List.mem_append_right _ (List.mem_singleton.mpr rfl),rfl⟩,rfl,
        ⟨rfl,rfl,?_⟩,⟨config,identity,configured,verified,named.symm⟩,enabled⟩
      rw [Portal.names,Accounts.names,List.getElem?_map,there]
      rfl

-- The payload of a cookie is a session.
def Written (v : Json) : Prop := ∃ session : PortalSession, v = session.data

omit [DecidableEq H] in
-- A cookie that is let in is read as the session it was set with.
theorem SignedIn.current {names : List Str} {attempt : Attempt} {shown : PortalSession} {other : UserId}
    (documented : Documented z Written) (distinct : Function.Injective idOf)
    (signed : SignedIn idOf texts settings z labels names raw user session attempt)
    (current : currentUser idOf settings z (some raw) now s.credentials = some (shown,other)) :
    shown = session ∧ other = user ∧ now - attempt.now ≤ settings.maxAge := by
  obtain ⟨⟨_,data,given,read,parsed⟩,row,_,_,named⟩ := currentUser_parts current
  cases given
  rw [signed.signed] at read
  obtain ⟨rfl,young⟩ := documented.read ⟨session,rfl⟩ read
  rw [ofData_data] at parsed
  cases parsed
  exact ⟨rfl,distinct (named.trans signed.named.1),young⟩

-- A serializer that writes the time beside the value.
def writeStamped (v : Json) (made : Int) : Str := JsonText.print (.arr [v,.int made])

def readStamped (raw : Str) : Option (Json × Int) :=
  match JsonText.parse raw with
  | .ok (.arr [v,.int made]) => some (v,made)
  | _ => none

def stamped : Serializer Json Str := plain writeStamped readStamped

theorem stamped_documented : Documented stamped Written := by
  have any := plain_documented writeStamped readStamped fun v made => by
    simp only [readStamped,writeStamped,JsonText.parse_print]
  exact ⟨fun v made maxAge now _ => any.fresh v made maxAge now trivial,fun v made maxAge now _ => any.stale v made maxAge now trivial,
    fun v made maxAge now w _ => any.early v made maxAge now w trivial⟩

def numbered (user : UserId) : Str := List.replicate (user + 1) 97

theorem numbered_injective : Function.Injective numbered := by
  intro a b same
  have lengths := congrArg List.length same
  simpa [numbered] using lengths

def demoSettings : Settings := {ldap := some LdapAuth.exampleConfig,sessionSecret := text "secret"}

def aliceSignsIn : Request := .loginSubmit
  {clientIp := text "10.0.0.1",login := ⟨aliceDirectory,text "alice",text "secret"⟩,csrfToken := text "token",monotonic := 0,now := 100}

def demoStart : Portal Str := {limiter := {attemptsPerMinute := 5}}

def demo : Request → Portal Str → Response × Portal Str := handle numbered id LdapAuth.plainTexts demoSettings stamped

theorem demo_step (request : Request) (s : Portal Str) : Step numbered id LdapAuth.plainTexts demoSettings stamped s
    (request,(demo request s).1) (demo request s).2 := rfl

def signedInDemo : Response × Portal Str := demo aliceSignsIn demoStart

def Response.newKey (response : Response) : Option Str :=
  match response.page with
  | .dashboard _ _ key => key
  | _ => none

theorem cookieSet_wasSet (set : response.cookieSet = some raw) : WasSet [(request,response)] raw := by
  exact ⟨_,List.mem_singleton.mpr rfl,set⟩

variable (idOf hash texts settings z) in
-- On what grounds a request is shown a page or a key, and keys change.
structure Grounded (labels : List (Request × Response)) (s t : Portal H) (request : Request) (response : Response) : Prop where
  shown : ∀ page csrf key, response.page = .dashboard page csrf key → page = pageOf t.credentials page.user ∧
    (∃ row, s.credentials.accounts.users[page.user]? = some row ∧ row.isActive = true) ∧
    ∃ raw session attempt, cookieOf request = some raw ∧ csrf = session.csrfToken ∧
      SignedIn idOf texts settings z labels s.names raw page.user session attempt ∧ timeOf request - attempt.now ≤ settings.maxAge
  -- A new key is shown for the session's own token alone, and is then the only one.
  fresh : ∀ page csrf key, response.page = .dashboard page csrf (some key) →
    (∃ secret revokedAt, request = .rotateApiKey (cookieOf request) csrf (timeOf request) secret revokedAt ∧ key = rawKey secret) ∧
    ∃ k, Unrevoked t.credentials page.user = [k] ∧ k.keyHash = hash key
  keys : ∀ user, (∀ k, k ∈ Unrevoked t.credentials user ↔ k ∈ Unrevoked s.credentials user) ∨ (∃ op, request = .admin op) ∨
    ∃ page csrf key, page.user = user ∧ response.page = .dashboard page csrf (some key)

-- Whatever is asked in whatever order: pages and new keys are for whom the directory
-- has verified, for the lifetime of the session and while the account is active.
theorem portal_access {start : Portal H} (documented : Documented z Written) (distinct : Function.Injective idOf)
    (path : Run (Step idOf hash texts settings z) start labels s) (step : Step idOf hash texts settings z s (request,response) t)
    (genuine : ∀ raw, cookieOf request = some raw → Genuine z (WasSet labels) settings.maxAge (timeOf request) raw) :
    Grounded idOf hash texts settings z labels s t request response := by
  have served := handle_served step
  refine ⟨fun page csrf key shown => ?_,fun page csrf key shown => ?_,served.keys⟩
  · obtain ⟨session,current,rfl,data,_⟩ := served.shown page csrf key shown
    obtain ⟨⟨raw,_,given,read,_⟩,row,there,active,_⟩ := currentUser_parts current
    obtain ⟨user,session,attempt,signed⟩ := run_signed path ((genuine raw given).issued read)
    rw [given] at current
    obtain ⟨rfl,same,young⟩ := signed.current documented distinct current
    rw [← same] at signed
    exact ⟨data,⟨row,there,active⟩,raw,_,attempt,given,rfl,signed,young⟩
  · obtain ⟨session,current,rfl,data,rotated⟩ := served.shown page csrf _ shown
    obtain ⟨secret,revokedAt,asked,drawn,effect⟩ := rotated key rfl
    exact ⟨⟨secret,revokedAt,asked,drawn⟩,effect.rotated_one⟩

def aliceRotates : Request := .rotateApiKey signedInDemo.1.cookieSet (text "token") 200 (text "new") 0

theorem portal_access_rotated : (demo aliceRotates signedInDemo.2).1.newKey = some (text "sk-new") ∧
    Grounded numbered id LdapAuth.plainTexts demoSettings stamped [(aliceSignsIn,signedInDemo.1)]
      signedInDemo.2 (demo aliceRotates signedInDemo.2).2 aliceRotates (demo aliceRotates signedInDemo.2).1 := by
  refine ⟨by decide +kernel,?_⟩
  exact portal_access stamped_documented numbered_injective (Run.single (demo_step aliceSignsIn demoStart))
    (demo_step aliceRotates signedInDemo.2) fun raw given => .inl (cookieSet_wasSet given)


section
variable {names : List Str} {attempt : Attempt}

omit [DecidableEq H] in
theorem SignedIn.reads (signed : SignedIn idOf texts settings z labels names raw user session attempt)
    (documented : Documented z Written) (present : raw ≠ []) (after : attempt.now ≤ now) :
    currentSession settings z (some raw) now = if settings.maxAge < now - attempt.now then none else some session := by
  have nonempty : loads settings z (some raw) now = match z.loads raw settings.maxAge now with
      | .error _ => none
      | .ok data => ofData data := by
    cases raw with
    | nil => exact absurd rfl present
    | cons c rest => rfl
  rw [currentSession,if_pos signed.enabled,nonempty,signed.signed]
  by_cases old : settings.maxAge < now - attempt.now
  · rw [documented.stale _ _ _ _ ⟨session,rfl⟩ old,if_pos old]
  · rw [documented.fresh _ _ _ _ ⟨session,rfl⟩ after (Int.not_lt.mp old),if_neg old]
    exact ofData_data session

omit [DecidableEq H] in
theorem getUser_known {c : Credentials H} {row : User} (distinct : Function.Injective idOf)
    (there : c.accounts.users[user]? = some row) : getUser idOf c (idOf user) = some (row,user) := by
  unfold getUser
  have listed : (row,user) ∈ c.accounts.users.zipIdx := List.mk_mem_zipIdx_iff_getElem?.mpr there
  cases found : c.accounts.users.zipIdx.find? (fun row => idOf row.2 == idOf user) with
  | none => exact absurd (beq_self_eq_true (idOf user)) (List.find?_eq_none.mp found _ listed)
  | some other =>
    obtain ⟨other_row,other⟩ := other
    have named := List.find?_some found
    cases distinct (eq_of_beq named)
    have also := List.mk_mem_zipIdx_iff_getElem?.mp (List.mem_of_find?_eq_some found)
    rw [there] at also
    cases also
    rfl

end

variable (idOf hash texts settings z) in
-- What a cookie of a sign-in is worth: the dashboard while the account is active, the
-- login form once it is too old.
structure Honoured (s : Portal H) (raw : Str) (user : UserId) (session : PortalSession) (made : Int) (row : User) : Prop where
  opens : ∀ now, made ≤ now → now - made ≤ settings.maxAge → row.isActive = true →
    dashboard idOf settings z (some raw) now s = ⟨.dashboard (pageOf s.credentials user) session.csrfToken none,.keep⟩ ∧
    loginForm settings z (some raw) now = ⟨.redirect "/portal/",.keep⟩
  -- The two pages of a disabled account lead to each other, and no request but a new
  -- sign-in ends that before the lifetime does.
  disabled : ∀ now, made ≤ now → now - made ≤ settings.maxAge → row.isActive = false →
    dashboard idOf settings z (some raw) now s = ⟨.redirect "/portal/login",.keep⟩ ∧
    loginForm settings z (some raw) now = ⟨.redirect "/portal/",.keep⟩ ∧
    ∀ csrfToken secret revokedAt, logout idOf settings z (some raw) csrfToken now s = ⟨.redirect "/portal/login",.keep⟩ ∧
      rotateApiKey idOf hash settings z (some raw) csrfToken now secret revokedAt s = (⟨.redirect "/portal/login",.keep⟩,s)
  expired : ∀ now, made ≤ now → settings.maxAge < now - made →
    dashboard idOf settings z (some raw) now s = ⟨.redirect "/portal/login",.keep⟩ ∧
    loginForm settings z (some raw) now = ⟨.loginPage none 200,.keep⟩

-- The cookie decides in every later state of the run, also after a logout.
theorem cookie_honoured {start : Portal H} (documented : Documented z Written) (present : ∀ v made, z.dumps v made ≠ [])
    (distinct : Function.Injective idOf) (path : Run (Step idOf hash texts settings z) start labels s)
    (wasSet : WasSet labels raw) : ∃ user session attempt row, SignedIn idOf texts settings z labels s.names raw user session attempt ∧
    s.credentials.accounts.users[user]? = some row ∧ Honoured idOf hash settings z s raw user session attempt.now row := by
  obtain ⟨user,session,attempt,signed⟩ := run_signed path wasSet
  obtain ⟨id,_,bears⟩ := signed.named
  rw [Portal.names,Accounts.names,List.getElem?_map] at bears
  obtain ⟨row,there,_⟩ := Option.map_eq_some_iff.mp bears
  have nonempty : raw ≠ [] := signed.signed ▸ present _ _
  have looked := getUser_known distinct there
  rw [← id] at looked
  have enabled := signed.enabled
  refine ⟨user,session,attempt,row,signed,there,fun now after young active => ?_,fun now after young disabled => ?_,
    fun now after old => ?_⟩
  · have current := signed.reads documented nonempty after
    rw [if_neg (Int.not_lt.mpr young)] at current
    simp [dashboard,loginForm,currentUser,current,looked,active,enabled]
  · have current := signed.reads documented nonempty after
    rw [if_neg (Int.not_lt.mpr young)] at current
    simp [dashboard,loginForm,logout,rotateApiKey,currentUser,current,looked,disabled,enabled]
  · have current := signed.reads documented nonempty after
    rw [if_pos old] at current
    simp [dashboard,loginForm,currentUser,current,enabled]

def aliceDisabled : Portal Str := (demo (.admin (.disableUser 0)) signedInDemo.2).2

theorem cookie_honoured_disabled : ∃ raw, signedInDemo.1.cookieSet = some raw ∧
    ∃ user session made row, aliceDisabled.credentials.accounts.users[user]? = some row ∧
      row.isActive = false ∧ Honoured numbered id demoSettings stamped aliceDisabled raw user session made row := by
  have path := (Run.single (demo_step aliceSignsIn demoStart)).step (demo_step (.admin (.disableUser 0)) signedInDemo.2)
  have set : signedInDemo.1.cookieSet.isSome = true := by decide +kernel
  obtain ⟨raw,given⟩ := Option.isSome_iff_exists.mp set
  have wasSet : WasSet [(aliceSignsIn,signedInDemo.1)] raw := cookieSet_wasSet given
  obtain ⟨label,member,cookie⟩ := wasSet
  obtain ⟨user,session,attempt,row,_,there,honoured⟩ := cookie_honoured stamped_documented
    (fun v made => JsonText.codec.dumps_present (.arr [v,.int made])) numbered_injective path ⟨label,List.mem_append_left _ member,cookie⟩
  have disabled : aliceDisabled.credentials.accounts.users.all (fun u => !u.isActive) = true := by decide +kernel
  have inactive := List.all_eq_true.mp disabled row (List.mem_of_getElem? there)
  exact ⟨raw,given,user,session,attempt.now,row,there,by simpa using inactive,honoured⟩

end

end BatchGateway.PortalSessions
