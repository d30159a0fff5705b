import BatchGateway.CallMoves

-- What it takes to change what a user has, or what they are answered.
namespace BatchGateway.AccessControl
open PythonText PythonJson PythonTime Raising BatchOps BatchAnswers LabelledRuns PortalAccounts ApiKeys Gateway Footprints
  Noninterference CallMoves

variable {H : Type} [DecidableEq H] {config : Config H} {s t : Server H} {users : List UserId} {user : UserId} {reply : Reply}

-- The books of another user, changed beside everything else.
theorem booked_isolated {codec : Codec} {actions : List Routes.Action} {a b : Service} (valid : TenantIsolation.Isolated codec actions a)
    (booked : Booked users a.db b.db) (blobs : b.blobs = a.blobs) (flights : b.inFlight = a.inFlight) :
    TenantIsolation.Isolated codec actions b := by
  obtain ⟨db,_,_⟩ := b
  obtain ⟨budgets,ledger,rfl,_,_⟩ := booked
  subst blobs flights
  obtain ⟨progress,filed,tidy,uploads,submissions⟩ := valid
  refine ⟨⟨progress.owned,progress.once,progress.flying,fun i b found => ?_,progress.uncancelled⟩,
    ⟨fun i b found => ?_,fun i b found done unpurged => ?_⟩,⟨tidy.owned,tidy.results⟩,uploads,submissions⟩
  · obtain ⟨total,completed,failed,some_⟩ := progress.counted i b found
    exact ⟨total,completed,failed,some_⟩
  · obtain ⟨output,errors⟩ := filed.named i b found
    exact ⟨output,errors⟩
  · obtain ⟨settled,output,clean,errors⟩ := filed.published i b found done unpurged
    exact ⟨settled,output,clean,errors⟩

theorem booked_untouched {a b : Service} (apart : user ∉ users) (booked : Booked users a.db b.db) (blobs : b.blobs = a.blobs) :
    Untouched user a b := by
  obtain ⟨db,_,flights⟩ := b
  obtain ⟨budgets,ledger,rfl,charges,kept⟩ := booked
  subst blobs
  obtain ⟨row,entries⟩ := kept user apart
  refine ⟨?_,entries,fun _ _ _ => Iff.rfl,fun i _ _ _ => ?_,fun _ _ => Iff.rfl,fun _ _ _ => Iff.rfl,fun _ _ _ _ => rfl⟩
  · simp only [Db.getOrCreateBudget,row]
  · rw [Consumption.tokensConsumed_charges,Consumption.tokensConsumed_charges,charges]

def Tenanted (codec : Codec) (s : Server H) : Prop := ∃ actions, TenantIsolation.Isolated codec actions s.service

omit [DecidableEq H] in
theorem moves_tenanted (moves : Moves config users s t) (valid : Tenanted config.codec s) : Tenanted config.codec t := by
  obtain ⟨actions,valid⟩ := valid
  cases moves with
  | routed step => exact ⟨_,TenantIsolation.isolated_step valid step⟩
  | booked booked blobs flights => exact ⟨actions,booked_isolated valid booked blobs flights⟩

-- What a user has, with what they can show for being that user.
structure Kept (user : UserId) (s t : Server H) : Prop where
  rows : Untouched user s.service t.service
  login : LoginKept user s.credentials t.credentials

omit [DecidableEq H] in
theorem moves_kept (moves : Moves config users s t) (valid : Tenanted config.codec s) (apart : user ∉ users) : Kept user s t := by
  obtain ⟨actions,valid⟩ := valid
  cases moves with
  | routed step who keys accounts =>
    refine ⟨step_untouched valid step fun mine => apart (who user mine),fun k => ?_,by rw [accounts]⟩
    rw [mem_unrevoked,mem_unrevoked,keys]
  | booked booked blobs _ logins => exact ⟨booked_untouched apart booked blobs,logins user apart⟩

omit [DecidableEq H] in
theorem Kept.refl (user : UserId) (s : Server H) : Kept user s s := ⟨.refl user s.service,.refl user s.credentials⟩

omit [DecidableEq H] in
theorem Kept.trans {r : Server H} (first : Kept user r s) (second : Kept user s t) : Kept user r t :=
  ⟨first.rows.trans second.rows,first.login.trans second.login⟩

variable {labels others : List (Call × Reply)}

theorem run_tenanted {first : Server H} (path : Run (Gateway.Step config) first labels s) (valid : Tenanted config.codec first) :
    Tenanted config.codec s :=
  path.preserves valid fun _ _ _ valid step => moves_tenanted (serve_moves step) valid

theorem run_kept (valid : Tenanted config.codec s) (path : Run (Guarded (Apart config user) (Gateway.Step config)) s others t) :
    Kept user s t := by
  induction path with
  | nil => exact .refl user _
  | step path last ih =>
    obtain ⟨apart,step⟩ := last
    exact ih.trans (moves_kept (serve_moves step) (run_tenanted path.unguarded valid) apart)

-- A student's request that names its row, and one's own budget.
def Addressed : StudentRequest → Prop
  | .route request _ => Noninterference.Addressed request
  | .myBudget => True

-- The error a call was answered with instead of being carried out.
def refusalOf (reply : Reply) : Option Reply := if reply.refuses then some reply else none

def withoutEta : Reply → Reply
  | .ok status (.route answer) => .ok status (.route answer.withoutEta)
  | reply => reply

-- The same refusal, or the same answer but for its estimates, where both have them.
structure SameReply (x y : Reply) : Prop where
  refusal : refusalOf x = refusalOf y
  shown : x ≠ .unestimated → y ≠ .unestimated → withoutEta x = withoutEta y

theorem SameReply.refl (x : Reply) : SameReply x x := ⟨rfl,fun _ _ => rfl⟩

def rendered (request : Routes.Request) : Except Routes.Failure (Except QueueEta.EtaError Answer) → Reply
  | .ok answer => routeAnswered request answer
  | .error e => routeFailed request e

theorem routeFailed_refuses (request : Routes.Request) (e : Routes.Failure) : (routeFailed request e).refuses = true := by
  cases e with
  | fileNotFoundError => rfl
  | raised e => cases e <;> rfl

theorem routeAnswered_refuses (request : Routes.Request) (x : Except QueueEta.EtaError Answer) :
    (routeAnswered request x).refuses = false := by
  cases x <;> rfl

theorem refusalOf_rendered (request : Routes.Request) (x : Except Routes.Failure (Except QueueEta.EtaError Answer)) :
    refusalOf (rendered request x) = (refusal x).map (routeFailed request) := by
  cases x with
  | ok answer => exact if_neg (by simp [rendered,routeAnswered_refuses])
  | error e => exact if_pos (routeFailed_refuses request e)

theorem same_rendered {request : Routes.Request} {x y : Except Routes.Failure (Except QueueEta.EtaError Answer)}
    (same : SameAnswer x y) : SameReply (rendered request x) (rendered request y) := by
  refine ⟨?_,fun first second => ?_⟩
  · rw [refusalOf_rendered,refusalOf_rendered,same.refusal]
  · have refused := same.refusal
    cases x with
    | error e =>
      cases y with
      | error other =>
        cases refused
        rfl
      | ok answer => cases refused
    | ok left =>
      cases y with
      | error other => cases refused
      | ok right =>
        cases left with
        | error e => exact absurd rfl first
        | ok a =>
          cases right with
          | error e => exact absurd rfl second
          | ok b =>
            have answers := same.shown a b rfl rfl
            simp only [rendered,routeAnswered,withoutEta,answers]

omit [DecidableEq H] in
theorem route_reply (config : Config H) (user : UserId) (request : Routes.Request) (clock : BatchId → Instant) (now : Instant)
    (s : Server H) : (serveStudent config user (.route request clock) now s).1 =
      rendered request (sent config.codec config.defaultMaxTokens config.zone config.eta clock user request now s.service) := by
  simp only [serveStudent,sent]
  cases answered config.codec config.defaultMaxTokens config.zone config.eta clock user now request s.service <;> rfl

omit [DecidableEq H] in
theorem student_answers (rows : Untouched user s.service t.service) (request : StudentRequest) (now : Instant)
    (addressed : Addressed request) : SameReply (serveStudent config user request now t).1 (serveStudent config user request now s).1 := by
  cases request with
  | route request clock =>
    rw [route_reply,route_reply]
    exact same_rendered (sent_same rows config.zone config.eta clock request now addressed)
  | myBudget =>
    have same : t.db.getOrCreateBudget user = s.db.getOrCreateBudget user := rows.budget
    simp only [serveStudent,showBudget,same]
    exact .refl _

omit [DecidableEq H] in
theorem student_refusals (rows : Untouched user s.service t.service) (request : StudentRequest) (now : Instant) :
    refusalOf (serveStudent config user request now t).1 = refusalOf (serveStudent config user request now s).1 := by
  cases request with
  | route request clock =>
    rw [route_reply,route_reply,refusalOf_rendered,refusalOf_rendered,sent_refusal,sent_refusal,refusals_same rows request now]
  | myBudget => rfl

theorem admitted_student {credentials : Option Str} (admitted : getCurrentUser config.hash s.credentials credentials = .ok user)
    (request : StudentRequest) (now : Instant) : student config credentials request now s = serveStudent config user request now s := by
  unfold student
  rw [admitted]

-- What calls that do not concern a user leave that user: the rows and the account, the
-- keys that let them in, and every answer but for its estimates.
structure Undisturbed (config : Config H) (user : UserId) (s t : Server H) : Prop where
  kept : Kept user s t
  admits : ∀ credentials, getCurrentUser config.hash t.credentials credentials = .ok user ↔
    getCurrentUser config.hash s.credentials credentials = .ok user
  answers : ∀ credentials request now, getCurrentUser config.hash s.credentials credentials = .ok user → Addressed request →
    SameReply (student config credentials request now t).1 (student config credentials request now s).1
  refusals : ∀ credentials request now, getCurrentUser config.hash s.credentials credentials = .ok user →
    refusalOf (student config credentials request now t).1 = refusalOf (student config credentials request now s).1

theorem Kept.undisturbed (kept : Kept user s t) : Undisturbed config user s t := by
  refine ⟨kept,kept.login.admits,fun credentials request now admitted addressed => ?_,fun credentials request now admitted => ?_⟩
  · rw [admitted_student admitted,admitted_student ((kept.login.admits credentials).2 admitted)]
    exact student_answers kept.rows request now addressed
  · rw [admitted_student admitted,admitted_student ((kept.login.admits credentials).2 admitted)]
    exact student_refusals kept.rows request now

section Refused
variable {c d : Credentials H}

omit [DecidableEq H] in
theorem shown_passes {status : Nat} (known : user < d.accounts.users.length) : (showUser status user d).refuses = false := by
  unfold showUser
  rw [List.getElem?_eq_getElem known]
  rfl

theorem created_known {username : Str} {fullName : Option Str} {e : Event} {hash : Str → H}
    (performed : perform hash c (.createUser username fullName) = .ok (d,e)) : c.accounts.users.length < d.accounts.users.length := by
  simp only [perform] at performed
  split at performed
  · rename_i accounts inserted
    cases performed
    have names := congrArg List.length (Accounts.insertUser_some inserted).1
    simp only [Accounts.names,List.length_map,List.length_append,List.length_singleton] at names
    change _ < accounts.users.length
    omega
  · cases performed

theorem switched_known (active : Bool) {e : Event} {hash : Str → H}
    (performed : perform hash c (if active then .enableUser user else .disableUser user) = .ok (d,e)) :
    user < d.accounts.users.length := by
  have kept : ∀ (u : UserId), u < c.accounts.users.length → u < (setActive c user active).accounts.users.length := by
    intro u known
    change u < (c.accounts.users.modify user _).length
    rwa [List.length_modify]
  cases active with
  | true =>
    obtain ⟨row,found,same⟩ := bind_ok performed
    cases same
    exact kept user (user_known found)
  | false =>
    obtain ⟨row,found,same⟩ := bind_ok performed
    cases same
    exact kept user (user_known found)

theorem operate_refused {op : Operation} {show_ : Credentials H → Reply} (done : operate config op show_ s = (reply,t))
    (refused : reply.refuses = true)
    (shown : ∀ credentials e, perform config.hash s.credentials op = .ok (credentials,e) → (show_ credentials).refuses = false) :
    t = s := by
  unfold operate at done
  split at done
  · rename_i credentials e performed
    cases done
    rw [shown credentials e performed] at refused
    cases refused
  · cases done
    rfl

omit [DecidableEq H] in
theorem withUser_refused {user : UserId} {answer : User → Reply × Server H} (done : withUser user s answer = (reply,t))
    (serves : ∀ row, answer row = (reply,t) → t = s) : t = s := by
  unfold withUser at done
  split at done
  · exact serves _ done
  · cases done
    rfl

omit [DecidableEq H] in
theorem written_refused {x : Except Raised Db} (done : written s (showBudget user) x = (reply,t)) (refused : reply.refuses = true) :
    t = s := by
  unfold written at done
  split at done
  · cases done
    cases refused
  · cases done
    rfl

theorem administer_refused {request : AdminRequest} (done : administer config request s = (reply,t)) (refused : reply.refuses = true) :
    t = s := by
  have reads : ∀ {r : Reply}, (r,s) = (reply,t) → t = s := by
    intro r same
    cases same
    rfl
  cases request with
  | createUser username fullName =>
    simp only [administer,Gateway.createUser] at done
    split at done
    · exact reads done
    · split at done
      · rename_i credentials e performed
        cases done
        rw [shown_passes (created_known performed)] at refused
        cases refused
      · exact reads done
  | listUsers => exact reads done
  | getUser user => exact withUser_refused done fun _ => reads
  | disableUser user =>
    refine operate_refused done refused fun credentials e performed => shown_passes ?_
    exact switched_known false performed
  | enableUser user =>
    refine operate_refused done refused fun credentials e performed => shown_passes ?_
    exact switched_known true performed
  | createApiKey user label secret => exact operate_refused done refused fun _ _ _ => rfl
  | listApiKeys user => exact withUser_refused done fun _ => reads
  | revokeApiKey key now => exact operate_refused done refused fun _ _ _ => rfl
  | getBudget user => exact withUser_refused done fun _ => reads
  | grantBudget user tokens note =>
    simp only [administer] at done
    split at done
    · exact reads done
    · exact withUser_refused done fun _ granted => written_refused granted refused
  | getLedger user limit => exact withUser_refused done fun _ => reads
  | reconcileBudget user => exact withUser_refused done fun _ reconciled => written_refused reconciled refused

theorem student_refused {credentials : Option Str} {request : StudentRequest} {now : Instant}
    (done : student config credentials request now s = (reply,t)) (refused : reply.refuses = true) : t = s := by
  unfold student at done
  split at done
  · cases done
    rfl
  · cases request with
    | myBudget =>
      cases done
      rfl
    | route request clock =>
      rcases route_served done with ⟨rfl,_⟩ | ⟨after,response,_,rfl,rfl⟩
      · rfl
      · rw [routeAnswered_refuses] at refused
        cases refused

-- An error in the answer to a request means that nothing was done.
theorem refused_still {call : Call} (served : serve config call s = some (reply,t)) (refused : reply.refuses = true) : t = s := by
  unfold serve at served
  split at served
  · cases call with
    | student credentials request now => exact student_refused (Option.some.inj served) refused
    | admin credentials request =>
      have done := Option.some.inj served
      unfold Gateway.admin at done
      split at done
      · cases done
        rfl
      · exact administer_refused done refused
    | portal request =>
      cases served
      cases refused
    | background op =>
      obtain ⟨after,_,same⟩ := Option.map_eq_some_iff.mp served
      cases same
      cases refused
  · cases served

end Refused

section Estimated

theorem adminFailed_estimated (e : ApiKeys.Failure) : adminFailed e ≠ .unestimated := by
  cases e <;> exact Reply.noConfusion

omit [DecidableEq H] in
theorem showUser_estimated (status : Nat) (user : UserId) (c : Credentials H) : showUser status user c ≠ .unestimated := by
  unfold showUser
  split <;> exact Reply.noConfusion

theorem operate_estimated (op : Operation) {show_ : Credentials H → Reply} (shown : ∀ c, show_ c ≠ .unestimated) :
    (operate config op show_ s).1 ≠ .unestimated := by
  unfold operate
  split
  · exact shown _
  · exact adminFailed_estimated _

omit [DecidableEq H] in
theorem withUser_estimated (user : UserId) {serves : User → Reply × Server H} (shown : ∀ row, (serves row).1 ≠ .unestimated) :
    (withUser user s serves).1 ≠ .unestimated := by
  unfold withUser
  split
  · exact shown _
  · exact adminFailed_estimated _

omit [DecidableEq H] in
theorem written_estimated (user : UserId) (x : Except Raised Db) : (written s (showBudget user) x).1 ≠ .unestimated := by
  cases x <;> exact Reply.noConfusion

-- The admin is shown no estimates.
theorem administer_estimated (request : AdminRequest) : (administer config request s).1 ≠ .unestimated := by
  cases request with
  | createUser username fullName =>
    simp only [administer,Gateway.createUser]
    split
    · exact Reply.noConfusion
    · split
      · exact showUser_estimated _ _ _
      · exact adminFailed_estimated _
  | listUsers => exact Reply.noConfusion
  | getUser user => exact withUser_estimated user fun _ => Reply.noConfusion
  | disableUser user => exact operate_estimated _ (showUser_estimated 200 user)
  | enableUser user => exact operate_estimated _ (showUser_estimated 200 user)
  | createApiKey user label secret => exact operate_estimated _ fun _ => Reply.noConfusion
  | listApiKeys user => exact withUser_estimated user fun _ => Reply.noConfusion
  | revokeApiKey key now => exact operate_estimated _ fun _ => Reply.noConfusion
  | getBudget user => exact withUser_estimated user fun _ => Reply.noConfusion
  | grantBudget user tokens note =>
    simp only [administer]
    split
    · exact Reply.noConfusion
    · exact withUser_estimated user fun _ => written_estimated user _
  | getLedger user limit =>
    refine withUser_estimated user fun _ => ?_
    simp only [showLedger]
    split <;> exact Reply.noConfusion
  | reconcileBudget user => exact withUser_estimated user fun _ => written_estimated user _

-- A student's request, carried out for the user its key lets in.
structure CarriedOut (config : Config H) (s : Server H) (call : Call) (t : Server H) (user : UserId) (request : Routes.Request)
    (clock : BatchId → Instant) (now : Instant) (response : Routes.Response) : Prop where
  call : ∃ credentials, call = .student credentials (.route request clock) now ∧
    getCurrentUser config.hash s.credentials credentials = .ok user
  effect : ∃ after, Routes.handle config.codec config.defaultMaxTokens user now request s.service = .ok (after,response) ∧
    t = s.withService after ∧ ∃ e, render config.zone config.eta clock after.db response = .error e

theorem unestimated_carried {call : Call} (served : serve config call s = some (.unestimated,t)) :
    ∃ user request clock now response, CarriedOut config s call t user request clock now response := by
  unfold serve at served
  split at served
  · cases call with
    | student credentials request now =>
      have done := Option.some.inj served
      unfold student at done
      split at done
      · cases done
      · rename_i user admitted
        cases request with
        | myBudget => cases done
        | route request clock =>
          rcases route_served done with ⟨_,e,failed⟩ | ⟨after,response,handled,same,answer⟩
          · have refuses := routeFailed_refuses request e
            rw [← failed] at refuses
            cases refuses
          · refine ⟨user,request,clock,now,response,⟨credentials,rfl,admitted⟩,after,handled,same,?_⟩
            cases raised : render config.zone config.eta clock after.db response with
            | error e => exact ⟨e,rfl⟩
            | ok shown =>
              rw [raised] at answer
              cases answer
    | admin credentials request =>
      have done := congrArg Prod.fst (Option.some.inj served)
      unfold Gateway.admin at done
      split at done
      · cases done
      · exact absurd done (administer_estimated request)
    | portal request => cases served
    | background op =>
      obtain ⟨after,_,same⟩ := Option.map_eq_some_iff.mp served
      cases same
  · cases served

end Estimated

theorem none_named : (([] : List User).map User.username).Nodup := List.nodup_nil

omit [DecidableEq H] in
theorem none_hashed : (([] : List (ApiKey H)).map ApiKey.keyHash).Nodup := List.nodup_nil

-- A server that starts with an empty database.
def fresh (limiter : LoginLimits.LoginRateLimiter) : Server H := {portal := ⟨⟨⟨[],{},none_named⟩,[],none_hashed⟩,limiter⟩}

omit [DecidableEq H] in
theorem fresh_tenanted (codec : Codec) (limiter : LoginLimits.LoginRateLimiter) : Tenanted codec (fresh limiter : Server H) :=
  ⟨[],TenantIsolation.initial_isolated⟩

-- From any state the server gets into: calls without a key, a session or a password of
-- the user's, without the admin's token for the user, and background work for others,
-- leave the user undisturbed; whoever is answered with an error has changed nothing, unless
-- it is the 500 of an estimate, behind which the request has been carried out.
theorem access_controlled {limiter : LoginLimits.LoginRateLimiter} (path : Run (Gateway.Step config) (fresh limiter) labels s) :
    (∀ user others t, Run (Guarded (Apart config user) (Gateway.Step config)) s others t → Undisturbed config user s t) ∧
    (∀ call reply t, Gateway.Step config s (call,reply) t → reply.refuses = true → t = s) ∧
    ∀ call t, Gateway.Step config s (call,.unestimated) t →
      ∃ user request clock now response, CarriedOut config s call t user request clock now response := by
  have valid := run_tenanted path (fresh_tenanted config.codec limiter)
  refine ⟨fun user others t later => ?_,fun call reply t step refused => refused_still step refused,
    fun call t step => unestimated_carried step⟩
  exact (run_kept valid later).undisturbed

-- Calls one after the other, each of which must meet a condition.
def serveAll (config : Config H) (ok : Server H → Call → Bool) : List Call → Server H → Option (Server H)
  | [],s => some s
  | call :: calls,s => if ok s call then (serve config call s).bind (fun answered => serveAll config ok calls answered.2) else none

theorem serveAll_run {ok : Server H → Call → Bool} {calls : List Call} (done : serveAll config ok calls s = some t) :
    ∃ labels, Run (Guarded (fun s (label : Call × Reply) => ok s label.1 = true) (Gateway.Step config)) s labels t := by
  induction calls generalizing s with
  | nil =>
    cases done
    exact ⟨[],.nil⟩
  | cons call calls ih =>
    unfold serveAll at done
    split at done
    · rename_i meets
      obtain ⟨⟨reply,next⟩,answered,rest⟩ := Option.bind_eq_some_iff.mp done
      obtain ⟨labels,path⟩ := ih rest
      exact ⟨(call,reply) :: labels,.cons ⟨meets,answered⟩ path⟩
    · cases done

def demoConfig : Config Str where
  idOf := PortalSessions.numbered
  hash := id
  texts := LdapAuth.plainTexts
  portal := PortalSessions.demoSettings
  serializer := PortalSessions.stamped
  adminToken := text "root"
  codec := JsonText.codec
  alpha := 3/10
  defaultMaxTokens := 16
  zone := utcZone
  eta := QueueEta.bootstrapped 5

def byAdmin (request : AdminRequest) : Call := .admin (some (text "root")) request
def byAlice (request : Routes.Request) : Call := .student (some (text "sk-a")) (.route request fun _ => 0) 0
def byBob (request : Routes.Request) : Call := .student (some (text "sk-b")) (.route request fun _ => 5) 5

-- Two accounts, and one's results.
def opening : List Call :=
  [.background (Service.nodeWith 2),byAdmin (.createUser (text "alice") none),byAdmin (.createUser (text "bob") none),
    byAdmin (.createApiKey 0 none (text "a")),byAdmin (.createApiKey 1 none (text "b")),
    byAdmin (.grantBudget 0 1000 none),byAdmin (.grantBudget 1 1000 none),
    byAlice (.createFile none (text "batch") (Service.inputFile [Service.requestLine "a" "",Service.requestLine "b" ""])),
    byAlice (.createBatch 0 supportedEndpoint (text "24h")),.background Service.claimPass,
    .background (.completeTask 0 (.obj []) 3 2 0),.background (.failTask 1 [] 0)]

-- The other's own batch, attempts on the first one's rows and account, and an end to the account.
def meddling : List Call :=
  [byBob (.createFile none (text "batch") (Service.inputFile [Service.requestLine "c" ""])),
    byBob (.createBatch 3 supportedEndpoint (text "24h")),.background Service.claimPass,byBob (.getFileContent 1),
    byBob (.cancelBatch 0),.student (some (text "sk-x")) .myBudget 6,.admin none (.grantBudget 1 5 none),
    .admin (some (text "sk-b")) (.disableUser 0),.portal (.dashboard none 7),byAdmin (.disableUser 1),
    byBob (.getBatch 0),.background (.completeTask 2 (.obj []) 3 2 8)]

def statuses (s : Server H) : List BatchStatus := s.db.batches.map Batch.status

theorem access_controlled_meddling : ∃ s t : Server Str, Undisturbed demoConfig 0 s t ∧
    statuses s = [.completed] ∧ statuses t = [.completed,.completed] := by
  have ran : (serveAll demoConfig (fun _ _ => true) opening (fresh {attemptsPerMinute := 5})).any (fun s =>
      decide (statuses s = [.completed]) && (serveAll demoConfig (fun s call => decide (0 ∉ concernedBy demoConfig s call)) meddling s).any
        (fun t => decide (statuses t = [.completed,.completed]))) = true := by decide +kernel
  obtain ⟨s,opened,facts⟩ := (Option.any_eq_true _ _).mp ran
  obtain ⟨single,ran⟩ := Bool.and_eq_true_iff.mp facts
  obtain ⟨t,meddled,both⟩ := (Option.any_eq_true _ _).mp ran
  obtain ⟨labels,path⟩ := serveAll_run opened
  obtain ⟨others,later⟩ := serveAll_run meddled
  have apart : Run (Guarded (Apart demoConfig 0) (Gateway.Step demoConfig)) s others t :=
    later.weaken fun _ _ _ step => ⟨of_decide_eq_true step.1,step.2⟩
  exact ⟨s,t,(access_controlled path.unguarded).1 0 others t apart,of_decide_eq_true single,of_decide_eq_true both⟩

end BatchGateway.AccessControl
