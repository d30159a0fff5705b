import BatchGateway.AccessControl
import BatchGateway.EmptyRows

-- The whole server as a run of the service: accounts, sessions and tokens decide which
-- operations happen, and the tables see nothing else of them.
namespace BatchGateway.ServerRefinement
open PythonText PythonJson Raising BatchOps LabelledRuns PortalAccounts ApiKeys Gateway Footprints Noninterference CallMoves AccessControl EmptyRows

section Books
variable {s t : Service}

theorem same_reconciled (same : Same s t) (valid : Ledger.Reconciled s.db) : Ledger.Reconciled t.db := by
  intro user
  rw [← same.budget user,valid user]
  simp only [Ledger.recomputeBudget,same.ledger]

theorem same_untouched {user : UserId} (same : Same s t) : Untouched user s t := by
  obtain ⟨db,_,_⟩ := t
  have whole : filledService s = filledService ⟨db,_,_⟩ := same
  have batches : s.db.batches = db.batches := congrArg (fun q => q.db.batches) whole
  have tasks : s.db.tasks = db.tasks := congrArg (fun q => q.db.tasks) whole
  have files : s.db.files = db.files := congrArg (fun q => q.db.files) whole
  have blobs := congrArg Service.blobs whole
  refine ⟨(same.budget user).symm,by rw [same.ledger],fun i b _ => by rw [batches],fun i b _ _ => ?_,fun i row => ?_,
    fun f row _ => by rw [files],fun f row _ _ => ?_⟩
  · simp only [Consumption.tokensConsumed,same.ledger]
  · simp only [tasks,Db.owner,batches]
  · exact (congrFun blobs f).symm

end Books

variable {H : Type} [DecidableEq H] (config : Config H)

def accounts (s : Server H) : Nat := s.credentials.accounts.users.length

structure Sound (s : Server H) : Prop where
  tenanted : Tenanted config.codec s
  books : Ledger.Reconciled s.db
  -- Nothing is kept for anyone without an account.
  nobody : ∀ user, accounts s ≤ user → Untouched user {} s.service

-- What a call is to the tables: nothing, or one operation for people with an account.
inductive Simulated (s t : Server H) : Prop where
  | still : Same s.service t.service → Simulated s t
  | stepped {action : Routes.Action} {after : Service} :
    Routes.Step config.codec config.alpha config.defaultMaxTokens s.service action after → Same after t.service →
    (∀ user ∈ Noninterference.concernedBy s.service action, user < accounts t) → Simulated s t

variable {config} {s t : Server H} {user : UserId} {reply : Reply}

omit [DecidableEq H] in
theorem grant_routed {r : Service} {db : Db} {tokens : Int} {note : Option Str}
    (granted : Ledger.perform (.ok ()) (Ledger.grant user tokens note) r.db = .ok db) :
    Routes.Step config.codec config.alpha config.defaultMaxTokens r (.background (.grant user tokens note)) {r with db := db} := by
  simp only [Routes.Step,Routes.advance,Routes.background,Service.advance,granted,returned,if_true,Option.map_some]

omit [DecidableEq H] in
theorem opened_same (sound : Sound config s) {db : Db} (rows : db = s.db) {blobs : Blobs} {flights : List TaskId} :
    Same ⟨openBudget (accounts s) db,blobs,flights⟩ ⟨s.db,blobs,flights⟩ := by
  subst rows
  have zero : s.db.getOrCreateBudget (accounts s) = ⟨0,0,0⟩ := (sound.nobody _ (Nat.le_refl _)).budget
  have budgets : (filled (openBudget (accounts s) s.db)).budgets = (filled s.db).budgets := by
    funext other
    by_cases same : other = accounts s
    · subst same
      simp [openBudget,filled,Db.getOrCreateBudget] at zero ⊢
      exact zero.symm
    · simp [openBudget,filled,Db.getOrCreateBudget,Function.update_of_ne same]
  exact congrArg (fun rows => (⟨{filled s.db with budgets := rows},blobs,flights⟩ : Service)) budgets

section Accounts
variable {c d : Credentials H} {op : Operation} {e : Event}

theorem performed_simulated (performed : perform config.hash s.credentials op = .ok (d,e)) :
    Simulated config s (s.withCredentials d) := by
  refine .still ?_
  have db : (s.withCredentials d).db = s.db := perform_db performed
  simp only [Same,Server.service,db]
  rfl

theorem performed_grown (performed : perform config.hash s.credentials op = .ok (d,e)) : accounts s ≤ accounts (s.withCredentials d) := by
  have effect : Effect config.hash s.credentials d e := step_effect (a := (op,e)) performed
  exact effect.size

theorem operate_simulated {show_ : Credentials H → Reply} (done : operate config op show_ s = (reply,t)) :
    Simulated config s t ∧ accounts s ≤ accounts t := by
  unfold operate at done
  split at done
  · rename_i credentials e performed
    cases done
    exact ⟨performed_simulated performed,performed_grown performed⟩
  · cases done
    exact ⟨.still rfl,Nat.le_refl _⟩

theorem createUser_simulated {username : Str} {fullName : Option Str} (sound : Sound config s)
    (done : Gateway.createUser config username fullName s = (reply,t)) : Simulated config s t ∧ accounts s ≤ accounts t := by
  unfold Gateway.createUser at done
  split at done
  · cases done
    exact ⟨.still rfl,Nat.le_refl _⟩
  · dsimp only at done
    split at done
    · rename_i credentials e performed
      cases done
      have grown : accounts s ≤ accounts (s.withCredentials credentials) := performed_grown performed
      exact ⟨.still (opened_same sound rfl).symm,grown⟩
    · cases done
      exact ⟨.still rfl,Nat.le_refl _⟩

omit [DecidableEq H] in
theorem withUser_simulated {answer : User → Reply × Server H} (done : withUser user s answer = (reply,t))
    (serves : ∀ row, user < accounts s → answer row = (reply,t) → Simulated config s t ∧ accounts s ≤ accounts t) :
    Simulated config s t ∧ accounts s ≤ accounts t := by
  unfold withUser at done
  split at done
  · rename_i row found
    exact serves row (user_known found) done
  · cases done
    exact ⟨.still rfl,Nat.le_refl _⟩

theorem administer_simulated {request : AdminRequest} (sound : Sound config s) (done : administer config request s = (reply,t)) :
    Simulated config s t ∧ accounts s ≤ accounts t := by
  have reads : ∀ {r : Reply}, (r,s) = (reply,t) → Simulated config s t ∧ accounts s ≤ accounts t := by
    intro r same
    cases same
    exact ⟨.still rfl,Nat.le_refl _⟩
  cases request with
  | createUser username fullName => exact createUser_simulated sound done
  | listUsers => exact reads done
  | getUser user => exact withUser_simulated done fun _ _ => reads
  | disableUser user => exact operate_simulated done
  | enableUser user => exact operate_simulated done
  | createApiKey user label secret => exact operate_simulated done
  | listApiKeys user => exact withUser_simulated done fun _ _ => reads
  | revokeApiKey key now => exact operate_simulated done
  | getBudget user => exact withUser_simulated done fun _ _ => reads
  | getLedger user limit => exact withUser_simulated done fun _ _ => reads
  | grantBudget user tokens note =>
    simp only [administer] at done
    split at done
    · exact reads done
    · refine withUser_simulated done fun _ known granted => ?_
      unfold written at granted
      split at granted
      · rename_i db posted
        cases granted
        refine ⟨.stepped (grant_routed posted) rfl fun other mine => ?_,Nat.le_refl _⟩
        rw [List.mem_singleton.mp mine]
        exact known
      · exact reads granted
  | reconcileBudget user =>
    refine withUser_simulated done fun _ _ reconciled => ?_
    rw [Reconciliation.reconcile,if_pos (sound.books user)] at reconciled
    cases reconciled
    exact ⟨.still rfl,Nat.le_refl _⟩

end Accounts

section Portal
variable {identity : LdapAuth.LdapIdentity} {portal : PortalConfig} {after : Accounts} {result : Except PortalError UserId}

def withAccounts (s : Server H) (after : Accounts) (limiter : LoginLimits.LoginRateLimiter) : Server H :=
  {s with portal := ⟨{s.credentials with accounts := after},limiter⟩}

omit [DecidableEq H] in
-- A first login gives the account an empty row, and then the grant.
theorem provision_simulated (sound : Sound config s) (done : provision s.credentials.accounts identity portal = (after,result))
    (limiter : LoginLimits.LoginRateLimiter) : Simulated config s (withAccounts s after limiter) := by
  unfold provision at done
  split at done
  · cases done
    exact .still rfl
  · rename_i added inserted
    obtain ⟨names,rows⟩ := Accounts.insertUser_some inserted
    have size := congrArg List.length names
    simp only [Accounts.names,List.length_map,List.length_append,List.length_singleton] at size
    have opened : Same ⟨openBudget (accounts s) added.db,s.blobs,s.inFlight⟩ s.service := opened_same sound rows
    dsimp only at done
    split at done
    · split at done
      · rename_i db granted
        cases done
        have step : Routes.Step config.codec config.alpha config.defaultMaxTokens ⟨openBudget (accounts s) added.db,s.blobs,s.inFlight⟩
            (.background (.grant (accounts s) portal.defaultGrantTokens (some firstLoginNote))) ⟨db,s.blobs,s.inFlight⟩ :=
          grant_routed granted
        obtain ⟨next,step,same⟩ := step_same opened step
        refine .stepped step same.symm fun other mine => ?_
        rw [List.mem_singleton.mp mine]
        change _ < added.users.length
        rw [size]
        exact Nat.lt_succ_self _
      · cases done
        exact .still opened.symm
    · cases done
      exact .still opened.symm

omit [DecidableEq H] in
theorem resolve_simulated (sound : Sound config s) (done : resolveUser s.credentials.accounts identity portal = (after,result))
    (limiter : LoginLimits.LoginRateLimiter) : Simulated config s (withAccounts s after limiter) := by
  unfold resolveUser at done
  split at done
  · split at done
    · exact provision_simulated sound done limiter
    · cases done
      exact .still rfl
  · split at done
    · cases done
      exact .still rfl
    · split at done
      · cases done
        exact .still rfl
      · cases done
        exact .still rfl

omit [DecidableEq H] in
theorem loginSubmit_simulated {attempt : PortalSessions.Attempt} {response : PortalSessions.Response}
    {next : PortalSessions.Portal H} (sound : Sound config s)
    (done : PortalSessions.loginSubmit config.idOf config.texts config.portal config.serializer attempt s.portal = (response,next)) :
    Simulated config s {s with portal := next} := by
  unfold PortalSessions.loginSubmit at done
  split at done
  · cases done
    exact .still rfl
  · split at done
    · cases done
      exact .still rfl
    · dsimp only at done
      split at done
      · cases done
        exact .still rfl
      · split at done
        · cases done
          exact .still rfl
        · cases done
          exact .still rfl
        · cases done
          exact .still rfl
        · unfold PortalSessions.loginResolved at done
          split at done
          · rename_i resolved
            cases done
            exact resolve_simulated sound resolved _
          · rename_i resolved
            cases done
            exact resolve_simulated sound resolved _
          · rename_i resolved
            split at done
            · cases done
              exact resolve_simulated sound resolved _
            · cases done
              exact resolve_simulated sound resolved _

theorem rotate_simulated {cookie : Option Str} {csrfToken secret : Str} {now : Int} {revokedAt : Instant}
    {response : PortalSessions.Response} {next : PortalSessions.Portal H}
    (done : PortalSessions.rotateApiKey config.idOf config.hash config.portal config.serializer cookie csrfToken now secret revokedAt
      s.portal = (response,next)) : Simulated config s {s with portal := next} := by
  unfold PortalSessions.rotateApiKey at done
  split at done
  · cases done
    exact .still rfl
  · split at done
    · cases done
      exact .still rfl
    · split at done
      · cases done
        exact .still rfl
      · cases done
        exact .still rfl
      · split at done
        · cases done
          exact .still rfl
        · rename_i performed
          cases done
          exact performed_simulated performed

theorem portal_simulated {request : PortalSessions.Request} (sound : Sound config s) (own : routed (.portal request) = true)
    (done : Gateway.portal config request s = (reply,t)) : Simulated config s t ∧ accounts s ≤ accounts t := by
  unfold Gateway.portal at done
  have step : PortalSessions.Step config.idOf config.hash config.texts config.portal config.serializer s.portal
      (request,(PortalSessions.handle config.idOf config.hash config.texts config.portal config.serializer request s.portal).1)
      (PortalSessions.handle config.idOf config.hash config.texts config.portal config.serializer request s.portal).2 := rfl
  have grown := (PortalSessions.handle_served step).grown.length_le
  simp only [PortalSessions.Portal.names,Accounts.names,List.length_map] at grown
  cases done
  refine ⟨?_,grown⟩
  cases request with
  | loginForm cookie now => exact .still rfl
  | dashboard cookie now => exact .still rfl
  | logout cookie csrfToken now => exact .still rfl
  | loginSubmit attempt => exact loginSubmit_simulated sound rfl
  | rotateApiKey cookie csrfToken now secret revokedAt => exact rotate_simulated rfl
  | admin op => cases own
  | elsewhere db => cases own

end Portal

-- What the server works on by itself belongs to somebody's batch.
theorem concerned_owner {r : Service} {op : Service.Operation} (own : routed (.background op) = true) (listed : user ∈ concerned r op) :
    ∃ (i : BatchId) (b : Batch), r.db.batches[i]? = some b ∧ b.userId = user := by
  have owner : ∀ {row : Task}, r.db.owner row = some user → ∃ (i : BatchId) (b : Batch), r.db.batches[i]? = some b ∧ b.userId = user :=
    fun owned => ⟨_,Option.map_eq_some_iff.mp owned⟩
  cases op with
  | expireBatch batch now => exact ⟨batch,Option.map_eq_some_iff.mp (Option.mem_toList.mp listed)⟩
  | completeTask task responseBody promptTokens completionTokens now =>
    obtain ⟨row,_,owned⟩ := Option.bind_eq_some_iff.mp (Option.mem_toList.mp listed)
    exact owner owned
  | failTask task error now =>
    obtain ⟨row,_,owned⟩ := Option.bind_eq_some_iff.mp (Option.mem_toList.mp listed)
    exact owner owned
  | claimAndAssign load now =>
    obtain ⟨a,_,found⟩ := List.mem_filterMap.mp listed
    obtain ⟨row,_,owned⟩ := Option.bind_eq_some_iff.mp found
    exact owner owned
  | startup nodes =>
    obtain ⟨row,_,owned⟩ := List.mem_filterMap.mp listed
    exact owner owned
  | purgeExpiredResults retentionDays now =>
    obtain ⟨b,member,mine⟩ := List.mem_map.mp listed
    obtain ⟨i,there⟩ := List.mem_iff_getElem?.mp (List.mem_filter.mp member).1
    exact ⟨i,b,there,mine⟩
  | applyHealthResults => cases listed
  | grant => cases own
  | uploadFile => cases own
  | createBatch => cases own
  | cancelBatch => cases own

theorem admitted_known {credentials : Option Str} {c : Credentials H} (admitted : getCurrentUser config.hash c credentials = .ok user) :
    user < c.accounts.users.length := by
  cases credentials with
  | none => cases admitted
  | some raw =>
    obtain ⟨_,_,row,there,_⟩ := accepted_admits admitted
    exact (List.getElem?_eq_some_iff.mp there).choose

theorem serve_simulated {call : Call} (sound : Sound config s) (served : serve config call s = some (reply,t)) :
    Simulated config s t ∧ accounts s ≤ accounts t := by
  unfold serve at served
  split at served
  · rename_i own
    cases call with
    | student credentials request now =>
      have done := Option.some.inj served
      unfold student at done
      split at done
      · cases done
        exact ⟨.still rfl,Nat.le_refl _⟩
      · rename_i user admitted
        cases request with
        | myBudget =>
          cases done
          exact ⟨.still rfl,Nat.le_refl _⟩
        | route request clock =>
          rcases route_served done with ⟨rfl,_⟩ | ⟨after,response,handled,rfl,_⟩
          · exact ⟨.still rfl,Nat.le_refl _⟩
          · have step : Routes.Step config.codec config.alpha config.defaultMaxTokens s.service (.request user request now) after := by
              simp only [Routes.Step,Routes.advance,handled]
            refine ⟨.stepped step rfl fun other mine => ?_,Nat.le_refl _⟩
            rw [List.mem_singleton.mp mine]
            exact admitted_known admitted
    | admin credentials request =>
      have done := Option.some.inj served
      unfold Gateway.admin at done
      split at done
      · cases done
        exact ⟨.still rfl,Nat.le_refl _⟩
      · exact administer_simulated sound done
    | portal request => exact portal_simulated sound own (Option.some.inj served)
    | background op =>
      obtain ⟨after,advanced,same⟩ := Option.map_eq_some_iff.mp served
      cases same
      have allowed : Routes.background op = true := by
        cases op with
        | grant => cases own
        | _ => exact own
      have step : Routes.Step config.codec config.alpha config.defaultMaxTokens s.service (.background op) after := by
        simp only [Routes.Step,Routes.advance,allowed,if_true,advanced]
      refine ⟨.stepped step rfl fun other mine => ?_,Nat.le_refl _⟩
      obtain ⟨i,b,there,owner⟩ := concerned_owner own mine
      refine Nat.lt_of_not_le fun unknown => ?_
      cases ((sound.nobody other unknown).batches i b owner).mp there
  · cases served

omit [DecidableEq H] in
theorem simulated_reconciled (simulated : Simulated config s t) (valid : Ledger.Reconciled s.db) : Ledger.Reconciled t.db := by
  cases simulated with
  | still same => exact same_reconciled same valid
  | stepped step same =>
    rcases Routes.step_performs step with still | ⟨op,performed,_⟩
    · rw [still] at same
      exact same_reconciled same valid
    · exact same_reconciled same (BudgetRows.step_reconciled valid performed)

omit [DecidableEq H] in
theorem simulated_untouched (sound : Sound config s) (simulated : Simulated config s t) (unknown : accounts t ≤ user) :
    Untouched user s.service t.service := by
  cases simulated with
  | still same => exact same_untouched same
  | stepped step same who =>
    obtain ⟨actions,valid⟩ := sound.tenanted
    exact (step_untouched valid step fun mine => Nat.not_lt.mpr unknown (who user mine)).trans (same_untouched same)

theorem sound_step {label : Call × Reply} (sound : Sound config s) (step : Gateway.Step config s label t) : Sound config t := by
  obtain ⟨simulated,grown⟩ := serve_simulated sound step
  refine ⟨moves_tenanted (serve_moves step) sound.tenanted,simulated_reconciled simulated sound.books,fun user unknown => ?_⟩
  exact (sound.nobody user (grown.trans unknown)).trans (simulated_untouched sound simulated unknown)

omit [DecidableEq H] in
theorem fresh_sound (limiter : LoginLimits.LoginRateLimiter) : Sound config (fresh limiter) :=
  ⟨fresh_tenanted config.codec limiter,fun _ => rfl,fun user _ => .refl user {}⟩

variable (config) in
-- What any history of calls leaves to the service and to the admin.
structure Refines (s : Server H) : Prop where
  run : ∃ actions r, Run (Routes.Step config.codec config.alpha config.defaultMaxTokens) {} actions r ∧ Same s.service r
  books : ∀ user, Ledger.Budget.columns (s.db.getOrCreateBudget user) = Ledger.recomputeBudget s.db user
  nobody : ∀ user, accounts s ≤ user → Untouched user {} s.service
  reconcile : ∀ user, user < accounts s → administer config (.reconcileBudget user) s = (showBudget user s.db,s)

theorem reconcile_idle (sound : Sound config s) (known : user < accounts s) :
    administer config (.reconcileBudget user) s = (showBudget user s.db,s) := by
  have found : getUserOr404 s.credentials user = .ok s.credentials.accounts.users[user] := by
    simp [getUserOr404,List.getElem?_eq_getElem known]
  simp only [administer,withUser,found,Reconciliation.reconcile,if_pos (sound.books user),written]
  rfl

variable {labels : List (Call × Reply)}

theorem run_refined {limiter : LoginLimits.LoginRateLimiter} (path : Run (Gateway.Step config) (fresh limiter) labels s) :
    Sound config s ∧ ∃ actions r, Run (Routes.Step config.codec config.alpha config.defaultMaxTokens) {} actions r ∧ Same s.service r := by
  induction path with
  | nil => exact ⟨fresh_sound limiter,[],{},.nil,rfl⟩
  | step _ last ih =>
    obtain ⟨sound,actions,r,prior,same⟩ := ih
    refine ⟨sound_step sound last,?_⟩
    cases (serve_simulated sound last).1 with
    | still kept => exact ⟨actions,r,prior,kept.symm.trans same⟩
    | stepped step ended =>
      obtain ⟨next,step,alike⟩ := step_same same step
      exact ⟨_,next,prior.step step,ended.symm.trans alike⟩

-- Students, admins, the portal and the background together do to the tables what a run of
-- the service does; Budget rows are the sums of their entries, so a reconciliation changes nothing.
theorem server_refines {limiter : LoginLimits.LoginRateLimiter} (path : Run (Gateway.Step config) (fresh limiter) labels s) :
    Refines config s := by
  obtain ⟨sound,run⟩ := run_refined path
  exact ⟨run,sound.books,sound.nobody,fun user known => reconcile_idle sound known⟩

theorem server_refines_opening : ∃ s : Server Str, Refines demoConfig s ∧ accounts s = 2 ∧
    (s.db.getOrCreateBudget 0).usedTokens = 5 := by
  have ran : (serveAll demoConfig (fun _ _ => true) opening (fresh {attemptsPerMinute := 5})).any (fun s =>
      decide (accounts s = 2) && decide ((s.db.getOrCreateBudget 0).usedTokens = 5)) = true := by decide +kernel
  obtain ⟨s,opened,facts⟩ := (Option.any_eq_true _ _).mp ran
  obtain ⟨both,used⟩ := Bool.and_eq_true_iff.mp facts
  obtain ⟨labels,path⟩ := serveAll_run opened
  exact ⟨s,server_refines path.unguarded,of_decide_eq_true both,of_decide_eq_true used⟩

end BatchGateway.ServerRefinement
