import BatchGateway.BatchAnswers
import BatchGateway.PortalSessions
import BatchGateway.Reconciliation
import BatchGateway.TenantIsolation

-- The server as one process: the routers behind deps.py, the portal, the dispatcher and the retention job.
namespace BatchGateway.Gateway
open PythonText PythonJson PythonTime Raising BatchOps BatchAnswers LabelledRuns PortalAccounts ApiKeys

-- What errors.py and the handlers of main.py put into {"error": {..}}.
structure ApiError where
  statusCode : Nat
  message : Str
  errorType : String
  code : String
  param : Option String := none
  deriving DecidableEq

def invalidRequestError (message : Str) (param : String) : ApiError :=
  ⟨400,message,"invalid_request_error","invalid_request",some param⟩
def authenticationError (message : Str) : ApiError := ⟨401,message,"authentication_error","invalid_api_key",none⟩
def permissionDeniedError (message : Str) : ApiError := ⟨403,message,"permission_error","permission_denied",none⟩
def notFoundError (message : Str) : ApiError := ⟨404,message,"invalid_request_error","not_found",none⟩
def conflictError (message : Str) : ApiError := ⟨409,message,"invalid_request_error","conflict",none⟩
def insufficientBudget (requested available : Int) : ApiError :=
  ⟨429,text "This request needs " ++ text (toString requested) ++ text " tokens but only " ++ text (toString available) ++
    text " remain in your budget.","insufficient_quota_error","insufficient_quota",none⟩

structure BudgetOut where
  userId : UserId
  grantedTokens : Int
  reservedTokens : Int
  usedTokens : Int
  availableTokens : Int
  deriving DecidableEq

def budgetOut (user : UserId) (row : Budget) : BudgetOut :=
  ⟨user,row.grantedTokens,row.reservedTokens,row.usedTokens,row.availableTokens⟩

structure ApiKeyCreated where
  id : KeyId
  key : Str
  keyPrefix : Str
  label : Option Str

structure ApiKeyOut where
  id : KeyId
  keyPrefix : Str
  label : Option Str
  revokedAt : Option Instant

inductive Body where
  | route (answer : Answer)
  | budget (row : BudgetOut)
  | user (id : UserId) (row : User)
  | users (rows : List (User × UserId))
  | apiKeyCreated (key : ApiKeyCreated)
  | apiKeys (keys : List ApiKeyOut)
  | ledger (entries : List LedgerEntry)
  | noContent

inductive Reply where
  | ok (status : Nat) (body : Body)
  | failed (error : ApiError)
  -- A body that its schema refuses, and an exception that no handler takes.
  | unprocessable
  | serverError
  -- That exception out of estimate_batch_eta, when the request itself has been carried out.
  | unestimated
  | page (response : PortalSessions.Response)
  | done

def Reply.refuses : Reply → Bool
  | .failed _ | .unprocessable | .serverError => true
  | .ok _ _ | .unestimated | .page _ | .done => false

inductive StudentRequest where
  | route (request : Routes.Request) (clock : BatchId → Instant)
  | myBudget

inductive AdminRequest where
  | createUser (username : Str) (fullName : Option Str)
  | listUsers
  | getUser (user : UserId)
  | disableUser (user : UserId)
  | enableUser (user : UserId)
  | createApiKey (user : UserId) (label : Option Str) (secret : Str)
  | listApiKeys (user : UserId)
  | revokeApiKey (key : KeyId) (now : Instant)
  | getBudget (user : UserId)
  | grantBudget (user : UserId) (tokens : Int) (note : Option Str)
  | getLedger (user : UserId) (limit : Int)
  | reconcileBudget (user : UserId)

inductive Call where
  | student (credentials : Option Str) (request : StudentRequest) (now : Instant)
  | admin (credentials : Option Str) (request : AdminRequest)
  | portal (request : PortalSessions.Request)
  | background (op : Service.Operation)

structure Config (H : Type) where
  idOf : UserId → Str
  hash : Str → H
  texts : LdapAuth.Texts
  portal : PortalSessions.Settings
  serializer : TimedTokens.Serializer Json Str
  adminToken : Str
  codec : Codec
  alpha : ℚ
  defaultMaxTokens : Int
  zone : Zone
  eta : QueueEta.Settings

structure Server (H : Type) where
  portal : PortalSessions.Portal H
  blobs : Blobs := fun _ => none
  inFlight : List TaskId := []

variable {H : Type}

def Server.credentials (s : Server H) : Credentials H := s.portal.credentials
def Server.db (s : Server H) : Db := s.credentials.accounts.db
def Server.service (s : Server H) : Service := ⟨s.db,s.blobs,s.inFlight⟩

def Server.withCredentials (s : Server H) (credentials : Credentials H) : Server H :=
  {s with portal := {s.portal with credentials := credentials}}

def Server.withDb (s : Server H) (db : Db) : Server H :=
  s.withCredentials {s.credentials with accounts := s.credentials.accounts.withDb db}

def Server.withService (s : Server H) (t : Service) : Server H := {s.withDb t.db with blobs := t.blobs,inFlight := t.inFlight}

-- The ids in the messages of get_owned_file_or_404 and get_owned_batch_or_404.
def missing : Routes.Request → Str
  | .getFile f | .getFileContent f | .createBatch f _ _ => text "No such file '" ++ text (toString f) ++ text "'."
  | .getBatch i | .cancelBatch i => text "No such batch '" ++ text (toString i) ++ text "'."
  | .createFile _ _ _ | .listBatches _ => text "Resource not found."

def notCancellable (status : String) : Routes.Request → Str
  | .cancelBatch i => text "Batch '" ++ text (toString i) ++ text "' cannot be cancelled from status '" ++ text status ++ text "'."
  | _ => []

def routeStatus : Routes.Request → Nat
  | .createFile _ _ _ | .createBatch _ _ _ => 201
  | .getFile _ | .getFileContent _ | .getBatch _ | .listBatches _ | .cancelBatch _ => 200

def routeAnswered (request : Routes.Request) : Except QueueEta.EtaError Answer → Reply
  | .ok answer => .ok (routeStatus request) (.route answer)
  | .error _ => .unestimated

def routeFailed (request : Routes.Request) : Routes.Failure → Reply
  | .raised (.invalidRequest message param) => .failed (invalidRequestError message param)
  | .raised (.notFound _) => .failed (notFoundError (missing request))
  | .raised (.conflict status) => .failed (conflictError (notCancellable status request))
  | .raised (.insufficientBudget requested available) => .failed (insufficientBudget requested available)
  | .raised (.valueError _) | .raised .typeError | .raised .attributeError | .raised .overflowError | .raised .recursionError
  | .raised .unicodeEncodeError | .raised .statementError => .serverError
  | .fileNotFoundError => .serverError

def adminFailed : ApiKeys.Failure → Reply
  | .notFound message => .failed (notFoundError message)
  | .conflict message => .failed (conflictError message)
  | .integrityError | .systemExit _ | .notSignedIn => .serverError

def requireAdmin (adminToken : Str) (credentials : Option Str) : Except ApiError Unit :=
  match credentials with
  | none | some [] => .error (authenticationError (text "Missing admin token."))
  | some raw =>
    require (!adminToken.isEmpty && raw == adminToken) (permissionDeniedError (text "Invalid admin token."))

def withUser (user : UserId) (s : Server H) (serve : User → Reply × Server H) : Reply × Server H :=
  match getUserOr404 s.credentials user with
  | .ok row => serve row
  | .error e => (adminFailed e,s)

def showBudget (user : UserId) (db : Db) : Reply := .ok 200 (.budget (budgetOut user (db.getOrCreateBudget user)))

def showUser (status : Nat) (user : UserId) (s : Credentials H) : Reply :=
  match s.accounts.users[user]? with
  | some row => .ok status (.user user row)
  | none => .serverError

def openBudget (user : UserId) (db : Db) : Db := {db with budgets := Function.update db.budgets user (some ⟨0,0,0⟩)}

-- What a write to the database leaves, if it is committed.
def written (s : Server H) (reply : Db → Reply) (x : Except Raised Db) : Reply × Server H :=
  match x with
  | .ok db => (reply db,s.withDb db)
  | .error _ => (.serverError,s)

-- The rows are in the order of their created_at; SQLite takes a negative LIMIT for none.
def userLedger (user : UserId) (limit : Int) (db : Db) : List LedgerEntry :=
  let entries := (db.ledger.filter (fun e => e.userId == user)).reverse
  if limit < 0 then entries else entries.take limit.toNat

-- sqlite3 refuses to bind a larger LIMIT.
def showLedger (user : UserId) (limit : Int) (db : Db) : Reply :=
  if fitsInteger limit then .ok 200 (.ledger (userLedger user limit db)) else .serverError

def apiKeyOut (row : ApiKey H × KeyId) : ApiKeyOut := ⟨row.2,row.1.keyPrefix,row.1.label,row.1.revokedAt⟩

variable [DecidableEq H] (config : Config H)

-- An operation on users and api_keys, and what is shown of the tables after it.
def operate (op : Operation) (reply : Credentials H → Reply) (s : Server H) : Reply × Server H :=
  match perform config.hash s.credentials op with
  | .ok (credentials,_) => (reply credentials,s.withCredentials credentials)
  | .error e => (adminFailed e,s)

-- The row and its Budget are one commit.
def createUser (username : Str) (fullName : Option Str) (s : Server H) : Reply × Server H :=
  if username.isEmpty || decide (128 < username.length) then (.unprocessable,s)
  else
    let user := s.credentials.accounts.users.length
    match perform config.hash s.credentials (.createUser username fullName) with
    | .ok (credentials,_) =>
      (showUser 201 user credentials,(s.withCredentials credentials).withDb (openBudget user s.db))
    | .error e => (adminFailed e,s)

def administer : AdminRequest → Server H → Reply × Server H
  | .createUser username fullName,s => createUser config username fullName s
  | .listUsers,s => (.ok 200 (.users s.credentials.accounts.users.zipIdx),s)
  | .getUser user,s => withUser user s fun row => (.ok 200 (.user user row),s)
  | .disableUser user,s => operate config (.disableUser user) (showUser 200 user) s
  | .enableUser user,s => operate config (.enableUser user) (showUser 200 user) s
  | .createApiKey user label secret,s => operate config (.createApiKey user label secret)
    (fun _ => .ok 201 (.apiKeyCreated ⟨s.credentials.keys.length,rawKey secret,displayPrefix (rawKey secret),label⟩)) s
  | .listApiKeys user,s => withUser user s fun _ =>
    (.ok 200 (.apiKeys ((s.credentials.keys.zipIdx.filter (fun row => row.1.userId == user)).map apiKeyOut)),s)
  | .revokeApiKey key now,s => operate config (.revokeApiKey key now) (fun _ => .ok 204 .noContent) s
  | .getBudget user,s => withUser user s fun _ => (showBudget user s.db,s)
  | .grantBudget user tokens note,s =>
    if tokens ≤ 0 then (.unprocessable,s)
    else withUser user s fun _ => written s (showBudget user) (Ledger.perform (.ok ()) (Ledger.grant user tokens note) s.db)
  | .getLedger user limit,s => withUser user s fun _ => (showLedger user limit s.db,s)
  | .reconcileBudget user,s => withUser user s fun _ => written s (showBudget user)
    (Reconciliation.reconcile user (Ledger.recomputeBudget s.db user) (s.db.getOrCreateBudget user) s.db)

-- The dependency comes before the body.
def admin (credentials : Option Str) (request : AdminRequest) (s : Server H) : Reply × Server H :=
  match requireAdmin config.adminToken credentials with
  | .error e => (.failed e,s)
  | .ok _ => administer config request s

def serveStudent (user : UserId) (request : StudentRequest) (now : Instant) (s : Server H) : Reply × Server H :=
  match request with
  | .myBudget => (showBudget user s.db,s)
  | .route request clock =>
    match answered config.codec config.defaultMaxTokens config.zone config.eta clock user now request s.service with
    | .ok (t,answer) => (routeAnswered request answer,s.withService t)
    | .error e => (routeFailed request e,s)

def student (credentials : Option Str) (request : StudentRequest) (now : Instant) (s : Server H) : Reply × Server H :=
  match getCurrentUser config.hash s.credentials credentials with
  | .error message => (.failed (authenticationError message),s)
  | .ok user => serveStudent config user request now s

def portal (request : PortalSessions.Request) (s : Server H) : Reply × Server H :=
  let (response,after) := PortalSessions.handle config.idOf config.hash config.texts config.portal config.serializer request s.portal
  (.page response,{s with portal := after})

-- The portal's own requests, and the operations of the dispatcher, the retention job and a restart.
def routed : Call → Bool
  | .student _ _ _ | .admin _ _ => true
  | .portal (.admin _) | .portal (.elsewhere _) => false
  | .portal _ => true
  | .background (.grant _ _ _) => false
  | .background op => Routes.background op

def serve (call : Call) (s : Server H) : Option (Reply × Server H) :=
  if routed call then
    match call with
    | .student credentials request now => some (student config credentials request now s)
    | .admin credentials request => some (admin config credentials request s)
    | .portal request => some (portal config request s)
    | .background op => (Service.advance config.codec config.alpha op s.service).map (fun t => (.done,s.withService t))
  else none

def Step (s : Server H) (label : Call × Reply) (t : Server H) : Prop := serve config label.1 s = some (label.2,t)

omit [DecidableEq H] in
-- A request to the routes is refused, or its route has been carried out.
theorem route_served {config : Config H} {user : UserId} {request : Routes.Request} {clock : BatchId → Instant} {now : Instant}
    {s t : Server H} {reply : Reply} (done : serveStudent config user (.route request clock) now s = (reply,t)) :
    (t = s ∧ ∃ e, reply = routeFailed request e) ∨
    ∃ after response, Routes.handle config.codec config.defaultMaxTokens user now request s.service = .ok (after,response) ∧
      t = s.withService after ∧ reply = routeAnswered request (render config.zone config.eta clock after.db response) := by
  unfold serveStudent at done
  dsimp only at done
  split at done
  · rename_i after answer sent
    obtain ⟨response,handled,rfl⟩ := answered_ok sent
    cases done
    exact .inr ⟨after,response,handled,rfl,rfl⟩
  · rename_i e _
    cases done
    exact .inl ⟨rfl,e,rfl⟩

end BatchGateway.Gateway
