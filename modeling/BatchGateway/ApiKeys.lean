import BatchGateway.Histories
import BatchGateway.LabelledRuns
import BatchGateway.PortalAccounts

-- API keys from their creation to their revocation.
namespace BatchGateway.ApiKeys
open PythonText LabelledRuns Histories PortalAccounts

-- A row's id is its position.
abbrev KeyId := Nat

structure ApiKey (H : Type) where
  userId : UserId
  keyPrefix : Str
  keyHash : H
  label : Option Str := none
  revokedAt : Option Instant := none

def ApiKey.isRevoked {H : Type} (k : ApiKey H) : Bool := k.revokedAt.isSome

-- The tables users and api_keys; key_hash is UNIQUE.
structure Credentials (H : Type) where
  accounts : Accounts := {}
  keys : List (ApiKey H) := []
  unique : (keys.map ApiKey.keyHash).Nodup := by exact List.nodup_nil

inductive Failure where
  | notFound (message : Str)
  | conflict (message : Str)
  | integrityError
  | systemExit (message : Str)
  -- The portal sends a session without an active account back to its login page.
  | notSignedIn

def keyPrefixText : Str := text "sk-"
def prefixDisplayChars : Nat := 8

-- generate_api_key from the random part.
def rawKey (secret : Str) : Str := keyPrefixText ++ secret
def displayPrefix (raw : Str) : Str := raw.take (keyPrefixText.length + prefixDisplayChars)

section
variable {H : Type}

theorem hashes_map (keys : List (ApiKey H)) (now : Instant) (p : ApiKey H → Bool) :
    (keys.map (fun k => if p k then {k with revokedAt := some now} else k)).map ApiKey.keyHash =
      keys.map ApiKey.keyHash := by
  rw [List.map_map]
  apply List.map_congr_left
  intro k _
  simp only [Function.comp_apply]
  split <;> rfl

theorem hashes_modify (keys : List (ApiKey H)) (key : KeyId) (now : Instant) :
    (keys.modify key (fun k => {k with revokedAt := some now})).map ApiKey.keyHash = keys.map ApiKey.keyHash :=
  Rows.map_modify_same fun _ => rfl

theorem names_modify (users : List User) (user : UserId) (active : Bool) :
    (users.modify user (fun u => {u with isActive := active})).map User.username = users.map User.username :=
  Rows.map_modify_same fun _ => rfl

-- The user's unrevoked keys, or one key.
def revokeAll (s : Credentials H) (user : UserId) (now : Instant) : Credentials H :=
  ⟨s.accounts,s.keys.map (fun k => if k.userId == user && !k.isRevoked then {k with revokedAt := some now} else k),by
    rw [hashes_map]
    exact s.unique⟩

def revokeOne (s : Credentials H) (key : KeyId) (now : Instant) : Credentials H :=
  ⟨s.accounts,s.keys.modify key (fun k => {k with revokedAt := some now}),by
    rw [hashes_modify]
    exact s.unique⟩

def setActive (s : Credentials H) (user : UserId) (active : Bool) : Credentials H :=
  {s with accounts := ⟨s.accounts.users.modify user (fun u => {u with isActive := active}),s.accounts.db,by
    rw [names_modify]
    exact s.accounts.unique⟩}

end

variable {H : Type} [DecidableEq H] (hash : Str → H)

-- INSERT INTO api_keys; the UNIQUE constraint refuses a second row with the hash.
def insertKey (s : Credentials H) (key : ApiKey H) : Except Failure (Credentials H) :=
  if taken : (s.keys.map ApiKey.keyHash).contains key.keyHash then .error .integrityError
  else .ok ⟨s.accounts,s.keys ++ [key],by
    rw [List.map_append,List.nodup_append]
    refine ⟨s.unique,by simp,fun a there b here => ?_⟩
    rw [List.map_singleton,List.mem_singleton] at here
    rintro rfl
    exact taken (List.contains_iff_mem.mpr (here ▸ there))⟩

def newKey (user : UserId) (label : Option Str) (raw : Str) : ApiKey H :=
  {userId := user,keyPrefix := displayPrefix raw,keyHash := hash raw,label := label}

def getUserOr404 (s : Credentials H) (user : UserId) : Except Failure User :=
  match s.accounts.users[user]? with
  | some row => .ok row
  | none => .error (.notFound (text "No user with id '" ++ text (toString user) ++ text "'."))

-- No such key lasts: a session with a user who is gone or disabled is none.
def signedIn (s : Credentials H) (user : UserId) : Except Failure User :=
  match s.accounts.users[user]? with
  | some row => if row.isActive then .ok row else .error .notSignedIn
  | none => .error .notSignedIn

inductive Operation where
  -- An admin's, the CLI's, or a first login.
  | createUser (username : Str) (fullName : Option Str)
  | createApiKey (user : UserId) (label : Option Str) (secret : Str)
  | revokeApiKey (key : KeyId) (now : Instant)
  | regenerateApiKey (user : UserId) (secret : Str) (now : Instant)
  | cmdCreateKey (username : Str) (label : Option Str) (secret : Str)
  -- cmd_create_user --with-key, after its first commit.
  | initialKey (user : UserId) (secret : Str)
  | disableUser (user : UserId)
  | enableUser (user : UserId)

-- What an operation that returns has done.
inductive Event where
  | created (user : UserId)
  | issued (user : UserId) (raw : Str) (key : KeyId)
  | rotated (user : UserId) (raw : Str) (key : KeyId)
  | revoked (key : KeyId)
  | disabled (user : UserId)
  | enabled (user : UserId)
  deriving DecidableEq

def issue (s : Credentials H) (user : UserId) (label : Option Str) (secret : Str) :
    Except Failure (Credentials H × Event) := do
  let t ← insertKey s (newKey hash user label (rawKey secret))
  return (t,.issued user (rawKey secret) s.keys.length)

-- One that raises is rolled back.
def perform (s : Credentials H) : Operation → Except Failure (Credentials H × Event)
  | .createUser username fullName =>
    match s.accounts.insertUser {username := username,fullName := fullName} with
    | some accounts => .ok ({s with accounts := accounts},.created s.accounts.users.length)
    | none => .error (.conflict (text "Username '" ++ username ++ text "' is already taken."))
  | .createApiKey user label secret => do
    let _ ← getUserOr404 s user
    issue hash s user label secret
  | .revokeApiKey key now =>
    match s.keys[key]? with
    | some row => .ok (if row.isRevoked then s else revokeOne s key now,.revoked key)
    | none => .error (.notFound (text "No API key with id '" ++ text (toString key) ++ text "'."))
  | .regenerateApiKey user secret now => do
    let _ ← signedIn s user
    let t ← insertKey (revokeAll s user now) (newKey hash user (some (text "portal")) (rawKey secret))
    return (t,.rotated user (rawKey secret) s.keys.length)
  | .cmdCreateKey username label secret =>
    match s.accounts.find username with
    | some (_,user) => issue hash s user label secret
    | none => .error (.systemExit (text "error: no such user '" ++ username ++ text "'"))
  | .initialKey user secret => do
    let _ ← getUserOr404 s user
    issue hash s user (some (text "initial")) secret
  | .disableUser user => do
    let _ ← getUserOr404 s user
    return (setActive s user false,.disabled user)
  | .enableUser user => do
    let _ ← getUserOr404 s user
    return (setActive s user true,.enabled user)

def Step (s : Credentials H) (a : Operation × Event) (t : Credentials H) : Prop := perform hash s a.1 = .ok (t,a.2)

def missingKey : Str := text "Missing API key. Pass it as 'Authorization: Bearer sk-...'."
def invalidKey : Str := text "Invalid API key."
def disabledAccount : Str := text "This account is disabled."

-- one_or_none: key_hash is UNIQUE, so at most one row is found.
def getCurrentUser (s : Credentials H) (credentials : Option Str) : Except Str UserId :=
  match credentials with
  | none | some [] => .error missingKey
  | some raw =>
    match s.keys.find? (fun k => k.keyHash == hash raw) with
    | none => .error invalidKey
    | some k =>
      if k.isRevoked then .error invalidKey
      else match s.accounts.users[k.userId]? with
      | none => .error disabledAccount
      | some user => if user.isActive then .ok k.userId else .error disabledAccount

def history (labels : List (Operation × Event)) : List Event := labels.map Prod.snd

-- The key was issued to the user, and neither has an admin revoked it since nor the
-- user rotated keys.
def Issues (user : UserId) (raw : Str) (key : KeyId) (e : Event) : Prop :=
  e = .issued user raw key ∨ e = .rotated user raw key

def Ends (user : UserId) (key : KeyId) (e : Event) : Prop :=
  e = .revoked key ∨ ∃ raw other, e = .rotated user raw other

def Stands (events : List Event) (user : UserId) (raw : Str) (key : KeyId) : Prop :=
  Since (Issues user raw key) (Ends user key) events

def Active (events : List Event) (user : UserId) : Prop :=
  ¬ Since (fun e => e = .disabled user) (fun e => e = .enabled user) events

def Unrevoked (s : Credentials H) (user : UserId) : List (ApiKey H) :=
  s.keys.filter (fun k => k.userId == user && !k.isRevoked)

variable {hash} {s t : Credentials H} {events : List Event} {user : UserId} {raw : Str} {key : KeyId}

-- What each event says of the tables.
inductive Effect (hash : Str → H) (s t : Credentials H) : Event → Prop where
  | created (row : User) (users : t.accounts.users = s.accounts.users ++ [row]) (active : row.isActive = true)
      (keys : t.keys = s.keys) : Effect hash s t (.created s.accounts.users.length)
  | issued (user : UserId) (label : Option Str) (secret : Str) (known : user < s.accounts.users.length)
      (users : t.accounts.users = s.accounts.users) (keys : t.keys = s.keys ++ [newKey hash user label (rawKey secret)]) :
      Effect hash s t (.issued user (rawKey secret) s.keys.length)
  | rotated (user : UserId) (label : Option Str) (secret : Str) (now : Instant) (known : user < s.accounts.users.length)
      (users : t.accounts.users = s.accounts.users)
      (keys : t.keys = (revokeAll s user now).keys ++ [newKey hash user label (rawKey secret)]) :
      Effect hash s t (.rotated user (rawKey secret) s.keys.length)
  | revoked (key : KeyId) (users : t.accounts.users = s.accounts.users) (size : t.keys.length = s.keys.length)
      (others : ∀ i, i ≠ key → t.keys[i]? = s.keys[i]?)
      (self : ∀ row, t.keys[key]? = some row → row.isRevoked = true ∧
        ∃ old, s.keys[key]? = some old ∧ row.userId = old.userId ∧ row.keyHash = old.keyHash) :
      Effect hash s t (.revoked key)
  | switched (user : UserId) (active : Bool) (known : user < s.accounts.users.length)
      (users : t.accounts.users = s.accounts.users.modify user (fun u => {u with isActive := active}))
      (keys : t.keys = s.keys) : Effect hash s t (if active then .enabled user else .disabled user)

theorem insertKey_ok {k : ApiKey H} (done : insertKey s k = .ok t) :
    t.accounts = s.accounts ∧ t.keys = s.keys ++ [k] := by
  unfold insertKey at done
  split at done
  · cases done
  · cases done
    exact ⟨rfl,rfl⟩

theorem issue_effect {label : Option Str} {secret : Str} {e : Event} (known : user < s.accounts.users.length)
    (done : issue hash s user label secret = .ok (t,e)) : Effect hash s t e := by
  obtain ⟨after,inserted,done⟩ := Raising.bind_ok done
  cases done
  obtain ⟨accounts,keys⟩ := insertKey_ok inserted
  exact .issued user label secret known (congrArg Accounts.users accounts) keys

omit [DecidableEq H] in
theorem user_known {row : User} (found : getUserOr404 s user = .ok row) : user < s.accounts.users.length := by
  unfold getUserOr404 at found
  split at found
  · rename_i there
    exact (List.getElem?_eq_some_iff.mp there).choose
  · cases found

omit [DecidableEq H] in
theorem signedIn_known {row : User} (found : signedIn s user = .ok row) : user < s.accounts.users.length := by
  unfold signedIn at found
  split at found
  · rename_i there
    exact (List.getElem?_eq_some_iff.mp there).choose
  · cases found

omit [DecidableEq H] in
-- Revoking leaves a revoked key as it is and marks any other.
theorem revoke_effect {row : ApiKey H} (now : Instant) (found : s.keys[key]? = some row) :
    Effect hash s (if row.isRevoked then s else revokeOne s key now) (.revoked key) := by
  by_cases already : row.isRevoked = true
  · rw [if_pos already]
    refine .revoked key rfl rfl (fun _ _ => rfl) fun there same => ?_
    rw [found] at same
    cases same
    exact ⟨already,row,found,rfl,rfl⟩
  · rw [if_neg already]
    refine .revoked key rfl (List.length_modify ..) (fun i other => Rows.getElem?_modify_other (Ne.symm other) _)
      fun there same => ?_
    change (s.keys.modify key _)[key]? = some there at same
    rw [Rows.getElem?_modify_self found] at same
    cases same
    exact ⟨rfl,row,found,rfl,rfl⟩

theorem step_effect {a : Operation × Event} (step : Step hash s a t) : Effect hash s t a.2 := by
  obtain ⟨op,e⟩ := a
  unfold Step at step
  cases op with
  | createUser username fullName =>
    simp only [perform] at step
    split at step
    · rename_i accounts inserted
      cases step
      unfold Accounts.insertUser at inserted
      split at inserted
      · cases inserted
      · cases inserted
        exact .created _ rfl rfl rfl
    · cases step
  | createApiKey user label secret =>
    obtain ⟨row,found,step⟩ := Raising.bind_ok step
    exact issue_effect (user_known found) step
  | revokeApiKey key now =>
    simp only [perform] at step
    split at step
    · rename_i row found
      cases step
      exact revoke_effect now found
    · cases step
  | regenerateApiKey user secret now =>
    obtain ⟨row,found,step⟩ := Raising.bind_ok step
    obtain ⟨after,inserted,step⟩ := Raising.bind_ok step
    cases step
    obtain ⟨accounts,keys⟩ := insertKey_ok inserted
    exact .rotated user _ secret now (signedIn_known found) (congrArg Accounts.users accounts) keys
  | cmdCreateKey username label secret =>
    simp only [perform] at step
    split at step
    · rename_i row user found
      have bears := Accounts.find_some found
      have known := (List.getElem?_eq_some_iff.mp bears).choose
      simp only [Accounts.names,List.length_map] at known
      exact issue_effect known step
    · cases step
  | initialKey user secret =>
    obtain ⟨row,found,step⟩ := Raising.bind_ok step
    exact issue_effect (user_known found) step
  | disableUser user =>
    obtain ⟨row,found,step⟩ := Raising.bind_ok step
    cases step
    exact .switched user false (user_known found) rfl rfl
  | enableUser user =>
    obtain ⟨row,found,step⟩ := Raising.bind_ok step
    cases step
    exact .switched user true (user_known found) rfl rfl

theorem stands_append {e : Event} : Stands (events ++ [e]) user raw key ↔
    Issues user raw key e ∨ (Stands events user raw key ∧ ¬ Ends user key e) := since_append

theorem active_append {e : Event} : Active (events ++ [e]) user ↔
    e ≠ .disabled user ∧ (Active events user ∨ e = .enabled user) := by
  unfold Active
  rw [since_append]
  tauto

-- The key rows say which keys stand.
structure KeysAgree (hash : Str → H) (events : List Event) (keys : List (ApiKey H)) : Prop where
  standing : ∀ user raw (key : KeyId), Stands events user raw key →
    ∃ row, keys[key]? = some row ∧ row.userId = user ∧ row.keyHash = hash raw ∧ row.isRevoked = false
  rows : ∀ (key : KeyId) row, keys[key]? = some row → row.isRevoked = false →
    ∃ raw, row.keyHash = hash raw ∧ Stands events row.userId raw key

-- The user rows say who is active.
structure UsersAgree (events : List Event) (users : List User) : Prop where
  active : ∀ (user : UserId) row, users[user]? = some row → (row.isActive = true ↔ Active events user)
  known : ∀ user, .disabled user ∈ events → user < users.length

structure Faithful (hash : Str → H) (events : List Event) (s : Credentials H) : Prop where
  keys : KeysAgree hash events s.keys
  users : UsersAgree events s.accounts.users
  owners : ∀ row ∈ s.keys, row.userId < s.accounts.users.length

variable {keys later : List (ApiKey H)} {users : List User}

omit [DecidableEq H] in
-- An event that neither issues a key nor ends one.
theorem KeysAgree.kept {e : Event} (valid : KeysAgree hash events keys) (no_issue : ∀ user raw key, ¬ Issues user raw key e)
    (no_end : ∀ user key, ¬ Ends user key e) : KeysAgree hash (events ++ [e]) keys := by
  have same : ∀ user raw key, Stands (events ++ [e]) user raw key ↔ Stands events user raw key := by
    intro user raw key
    rw [stands_append]
    exact ⟨fun either => (either.resolve_left (no_issue user raw key)).1,fun stands => .inr ⟨stands,no_end user key⟩⟩
  refine ⟨fun user raw key stands => valid.standing user raw key ((same user raw key).1 stands),fun key row found live => ?_⟩
  obtain ⟨raw,hashed,stands⟩ := valid.rows key row found live
  exact ⟨raw,hashed,(same row.userId raw key).2 stands⟩

omit [DecidableEq H] in
theorem KeysAgree.revoked (valid : KeysAgree hash events keys) (others : ∀ i, i ≠ key → later[i]? = keys[i]?)
    (self : ∀ row, later[key]? = some row → row.isRevoked = true) : KeysAgree hash (events ++ [.revoked key]) later := by
  constructor
  · intro user raw other stands
    rcases stands_append.1 stands with (issued | issued) | ⟨before,kept⟩
    · cases issued
    · cases issued
    · have different : other ≠ key := fun same => kept (.inl (by rw [same]))
      rw [others other different]
      exact valid.standing user raw other before
  · intro other row found live
    have different : other ≠ key := by
      rintro rfl
      rw [self row found] at live
      cases live
    rw [others other different] at found
    obtain ⟨raw,hashed,stands⟩ := valid.rows other row found live
    refine ⟨raw,hashed,stands_append.2 (.inr ⟨stands,?_⟩)⟩
    rintro (same | ⟨raw,other,rotation⟩)
    · cases same
      exact different rfl
    · cases rotation

omit [DecidableEq H] in
-- A new key at the end of the table, whatever the event ends among the old ones.
theorem KeysAgree.issued {e : Event} {label : Option Str} (valid : KeysAgree hash events keys)
    (issues : ∀ owner text key, Issues owner text key e ↔ owner = user ∧ text = raw ∧ key = keys.length)
    (size : later.length = keys.length)
    (old : ∀ (i : KeyId) row, keys[i]? = some row → ∃ row', later[i]? = some row' ∧ row'.userId = row.userId ∧
      row'.keyHash = row.keyHash ∧ (row'.isRevoked = false ↔ row.isRevoked = false ∧ ¬ Ends row.userId i e)) :
    KeysAgree hash (events ++ [e]) (later ++ [newKey hash user label raw]) := by
  have last : (later ++ [newKey hash user label raw])[keys.length]? = some (newKey hash user label raw) := by
    rw [← size,List.getElem?_append_right (le_refl _),Nat.sub_self]
    rfl
  constructor
  · intro owner text key stands
    rcases stands_append.1 stands with issued | ⟨before,kept⟩
    · obtain ⟨rfl,rfl,rfl⟩ := (issues owner text key).1 issued
      exact ⟨_,last,rfl,rfl,rfl⟩
    · obtain ⟨row,found,rfl,hashed,live⟩ := valid.standing owner text key before
      obtain ⟨row',there,owner,same,revoked⟩ := old key row found
      have inside : key < later.length := (List.getElem?_eq_some_iff.mp there).choose
      exact ⟨row',by rw [List.getElem?_append_left inside]; exact there,owner,same.trans hashed,revoked.2 ⟨live,kept⟩⟩
  · intro key row found live
    rcases Nat.lt_or_ge key later.length with inside | outside
    · rw [List.getElem?_append_left inside] at found
      obtain ⟨row',there,owner,same,revoked⟩ := old key keys[key] (List.getElem?_eq_getElem (size ▸ inside))
      rw [found] at there
      cases there
      obtain ⟨unrevoked,kept⟩ := revoked.1 live
      obtain ⟨text,hashed,stands⟩ := valid.rows key _ (List.getElem?_eq_getElem (size ▸ inside)) unrevoked
      rw [owner]
      exact ⟨text,same.trans hashed,stands_append.2 (.inr ⟨stands,kept⟩)⟩
    · have place : key = keys.length := by
        have bound := (List.getElem?_eq_some_iff.mp found).choose
        rw [List.length_append,List.length_singleton] at bound
        exact Nat.le_antisymm (size ▸ Nat.lt_succ_iff.mp bound) (size ▸ outside)
      subst place
      rw [last] at found
      cases found
      exact ⟨raw,rfl,stands_append.2 (.inl ((issues user raw keys.length).2 ⟨rfl,rfl,rfl⟩))⟩

theorem UsersAgree.kept {e : Event} (valid : UsersAgree events users) (no_disable : ∀ user, e ≠ .disabled user)
    (no_enable : ∀ user, e ≠ .enabled user) : UsersAgree (events ++ [e]) users := by
  refine ⟨fun user row found => ?_,fun user disabled => ?_⟩
  · rw [active_append,valid.active user row found]
    simp [no_disable user,no_enable user]
  · rcases List.mem_append.mp disabled with old | new
    · exact valid.known user old
    · exact absurd (List.mem_singleton.mp new).symm (no_disable user)

theorem UsersAgree.created {row : User} {other : UserId} (valid : UsersAgree events users) (active : row.isActive = true) :
    UsersAgree (events ++ [.created other]) (users ++ [row]) := by
  have kept : UsersAgree (events ++ [.created other]) users :=
    valid.kept (fun user same => by cases same) (fun user same => by cases same)
  refine ⟨fun user found_row found => ?_,fun user disabled => ?_⟩
  · rcases Nat.lt_or_ge user users.length with inside | outside
    · rw [List.getElem?_append_left inside] at found
      exact kept.active user found_row found
    · rw [List.getElem?_append_right outside] at found
      cases List.mem_singleton.mp (List.mem_of_getElem? found)
      refine ⟨fun _ held => ?_,fun _ => active⟩
      -- No one has been disabled before being created.
      obtain ⟨e,member,rfl⟩ := held.started
      exact absurd (kept.known user member) (Nat.not_lt.mpr outside)
  · rw [List.length_append]
    exact Nat.lt_add_right _ (kept.known user disabled)

theorem UsersAgree.switched (valid : UsersAgree events users) (known : user < users.length) (active : Bool) :
    UsersAgree (events ++ [if active then .enabled user else .disabled user])
      (users.modify user (fun u => {u with isActive := active})) := by
  refine ⟨fun other row found => ?_,fun other disabled => ?_⟩
  · rw [active_append]
    rw [List.getElem?_modify] at found
    obtain ⟨old,was,rfl⟩ := Option.map_eq_some_iff.mp found
    have before := valid.active other old was
    by_cases mine : user = other
    · subst mine
      cases active <;> simp
    · cases active <;> simp [mine,before]
  · rw [List.length_modify]
    rcases List.mem_append.mp disabled with old | new
    · exact valid.known other old
    · cases active
      · cases List.mem_singleton.mp new
        exact known
      · cases List.mem_singleton.mp new

omit [DecidableEq H] in
theorem revoked_row (s : Credentials H) (user : UserId) (now : Instant) {i : KeyId} {row : ApiKey H}
    (found : s.keys[i]? = some row) : ∃ row', (revokeAll s user now).keys[i]? = some row' ∧ row'.userId = row.userId ∧
      row'.keyHash = row.keyHash ∧ (row'.isRevoked = false ↔ row.isRevoked = false ∧ row.userId ≠ user) := by
  simp only [revokeAll,List.getElem?_map,found,Option.map_some]
  refine ⟨_,rfl,?_⟩
  by_cases mine : row.userId = user
  · cases revoked : row.isRevoked with
    | false => simp [mine,ApiKey.isRevoked]
    | true => simp [mine,revoked]
  · simp [mine]

omit [DecidableEq H] in
theorem Effect.size {e : Event} (effect : Effect hash s t e) : s.accounts.users.length ≤ t.accounts.users.length := by
  cases effect with
  | created row users => rw [users,List.length_append]; exact Nat.le_add_right _ _
  | issued _ _ _ _ users => rw [users]
  | rotated _ _ _ _ _ users => rw [users]
  | revoked _ users => rw [users]
  | switched _ _ _ users => rw [users,List.length_modify]

omit [DecidableEq H] in
theorem Effect.owners {e : Event} (effect : Effect hash s t e)
    (valid : ∀ row ∈ s.keys, row.userId < s.accounts.users.length) :
    ∀ row ∈ t.keys, row.userId < t.accounts.users.length := by
  intro row member
  refine Nat.lt_of_lt_of_le ?_ effect.size
  cases effect with
  | created _ _ _ keys => exact valid row (keys ▸ member)
  | switched _ _ _ _ keys => exact valid row (keys ▸ member)
  | issued user label secret known _ keys =>
    rw [keys] at member
    rcases List.mem_append.mp member with old | new
    · exact valid row old
    · cases List.mem_singleton.mp new
      exact known
  | rotated user label secret now known _ keys =>
    rw [keys] at member
    rcases List.mem_append.mp member with old | new
    · obtain ⟨was,listed,rfl⟩ := List.mem_map.mp old
      have owner := valid was listed
      split <;> exact owner
    · cases List.mem_singleton.mp new
      exact known
  | revoked key _ _ others self =>
    obtain ⟨i,found⟩ := List.mem_iff_getElem?.mp member
    by_cases here : i = key
    · subst here
      obtain ⟨_,old,was,owner,_⟩ := self row found
      rw [owner]
      exact valid old (List.mem_of_getElem? was)
    · rw [others i here] at found
      exact valid row (List.mem_of_getElem? found)

omit [DecidableEq H] in
theorem Effect.keys_agree {e : Event} (effect : Effect hash s t e) (valid : KeysAgree hash events s.keys) :
    KeysAgree hash (events ++ [e]) t.keys := by
  cases effect with
  | created _ _ _ keys =>
    rw [keys]
    exact valid.kept (fun _ _ _ issued => by rcases issued with same | same <;> cases same)
      (fun _ _ ended => by rcases ended with same | ⟨_,_,same⟩ <;> cases same)
  | switched _ active _ _ keys =>
    rw [keys]
    exact valid.kept (fun _ _ _ issued => by cases active <;> rcases issued with same | same <;> cases same)
      (fun _ _ ended => by cases active <;> rcases ended with same | ⟨_,_,same⟩ <;> cases same)
  | revoked key _ _ others self => exact valid.revoked others fun row found => (self row found).1
  | issued user label secret _ _ keys =>
    rw [keys]
    refine valid.issued (fun owner text key => ?_) rfl fun i row found => ⟨row,found,rfl,rfl,?_⟩
    · simp [Issues,eq_comm]
    · simp [Ends]
  | rotated user label secret now _ _ keys =>
    rw [keys]
    refine valid.issued (fun owner text key => ?_) (List.length_map _) fun i row found => ?_
    · simp [Issues,eq_comm]
    · obtain ⟨row',there,owner,hashed,live⟩ := revoked_row s user now found
      refine ⟨row',there,owner,hashed,live.trans (and_congr_right fun _ => not_congr ?_)⟩
      simp [Ends,eq_comm]

omit [DecidableEq H] in
theorem Effect.users_agree {e : Event} (effect : Effect hash s t e) (valid : UsersAgree events s.accounts.users) :
    UsersAgree (events ++ [e]) t.accounts.users := by
  cases effect with
  | created row users active _ =>
    rw [users]
    exact valid.created active
  | switched user active known users _ =>
    rw [users]
    exact valid.switched known active
  | revoked key users =>
    rw [users]
    exact valid.kept (fun _ same => by cases same) (fun _ same => by cases same)
  | issued _ _ _ _ users =>
    rw [users]
    exact valid.kept (fun _ same => by cases same) (fun _ same => by cases same)
  | rotated _ _ _ _ _ users =>
    rw [users]
    exact valid.kept (fun _ same => by cases same) (fun _ same => by cases same)

omit [DecidableEq H] in
theorem Effect.faithful {e : Event} (effect : Effect hash s t e) (valid : Faithful hash events s) :
    Faithful hash (events ++ [e]) t :=
  ⟨effect.keys_agree valid.keys,effect.users_agree valid.users,effect.owners valid.owners⟩

omit [DecidableEq H] in
theorem initial_faithful : Faithful hash [] ({} : Credentials H) := by
  refine ⟨⟨fun user raw key stands => absurd stands since_nil,fun key row found => ?_⟩,⟨fun user row found => ?_,
    fun user disabled => ?_⟩,fun row member => ?_⟩
  · cases found
  · cases found
  · cases disabled
  · cases member

theorem run_faithful {labels : List (Operation × Event)} (path : Run (Step hash) {} labels s) :
    Faithful hash (history labels) s := by
  induction path with
  | nil => exact initial_faithful
  | step _ last ih =>
    rw [history,List.map_append]
    exact (step_effect last).faithful ih

theorem issued_text {labels : List (Operation × Event)} {e : Event} (path : Run (Step hash) {} labels s)
    (member : e ∈ history labels) (issues : Issues user raw key e) : ∃ secret, raw = rawKey secret := by
  induction path with
  | nil => cases member
  | step _ last ih =>
    rw [history,List.map_append] at member
    rcases List.mem_append.mp member with old | new
    · exact ih old
    · rw [List.mem_singleton.mp new] at issues
      generalize happened : Prod.snd _ = occurred at issues
      have effect := step_effect last
      rw [happened] at effect
      cases effect with
      | created => rcases issues with same | same <;> cases same
      | revoked => rcases issues with same | same <;> cases same
      | switched _ active => cases active <;> rcases issues with same | same <;> cases same
      | issued _ _ secret =>
        rcases issues with same | same <;> cases same
        exact ⟨secret,rfl⟩
      | rotated _ _ secret =>
        rcases issues with same | same <;> cases same
        exact ⟨secret,rfl⟩

-- Whose keys or account an event is about.
def Concerns (s : Credentials H) (user : UserId) : Event → Prop
  | .created u | .issued u _ _ | .rotated u _ _ | .disabled u | .enabled u => u = user
  | .revoked key => ∃ row, s.keys[key]? = some row ∧ row.userId = user

omit [DecidableEq H] in
theorem mem_unrevoked {k : ApiKey H} : k ∈ Unrevoked s user ↔ k ∈ s.keys ∧ k.userId = user ∧ k.isRevoked = false := by
  simp [Unrevoked]

-- What lets a key in: an unrevoked row with its hash, of a user who is active.
structure Admits (hash : Str → H) (s : Credentials H) (raw : Str) (user : UserId) : Prop where
  present : raw ≠ []
  key : ∃ k ∈ Unrevoked s user, k.keyHash = hash raw
  active : ∃ row, s.accounts.users[user]? = some row ∧ row.isActive = true

theorem accepted_admits (accepted : getCurrentUser hash s (some raw) = .ok user) : Admits hash s raw user := by
  unfold getCurrentUser at accepted
  split at accepted
  · cases accepted
  · cases accepted
  · rename_i typed nonempty given
    cases given
    split at accepted
    · cases accepted
    · rename_i k found
      have hashed := List.find?_some found
      split at accepted
      · cases accepted
      · rename_i live
        split at accepted
        · cases accepted
        · rename_i row there
          split at accepted
          · rename_i active
            cases accepted
            have unrevoked := mem_unrevoked.2 ⟨List.mem_of_find?_eq_some found,rfl,Bool.eq_false_iff.mpr live⟩
            exact ⟨fun empty => nonempty (by rw [empty]),⟨k,unrevoked,eq_of_beq hashed⟩,row,there,active⟩
          · cases accepted

theorem admits_accepted (admits : Admits hash s raw user) : getCurrentUser hash s (some raw) = .ok user := by
  obtain ⟨nonempty,⟨k,member,hashed⟩,row,there,active⟩ := admits
  obtain ⟨listed,rfl,live⟩ := mem_unrevoked.1 member
  have found : s.keys.find? (fun k => k.keyHash == hash raw) = some k := by
    rw [← hashed]
    exact Rows.find?_unique s.unique listed
  cases raw with
  | nil => exact absurd rfl nonempty
  | cons c rest => simp [getCurrentUser,found,live,there,active]

omit [DecidableEq H] in
-- A user's rows do not notice a key added for another.
theorem unrevoked_added {old : List (ApiKey H)} {other : UserId} {label : Option Str} {k : ApiKey H} (apart : other ≠ user)
    (keys : t.keys = old ++ [newKey hash other label raw]) :
    k ∈ Unrevoked t user ↔ k ∈ old ∧ k.userId = user ∧ k.isRevoked = false := by
  rw [mem_unrevoked,keys,List.mem_append,List.mem_singleton]
  constructor
  · rintro ⟨listed | rfl,owner,live⟩
    · exact ⟨listed,owner,live⟩
    · exact absurd owner apart
  · exact fun ⟨listed,rest⟩ => ⟨.inl listed,rest⟩

omit [DecidableEq H] in
theorem revokeAll_apart {other : UserId} {k : ApiKey H} (apart : other ≠ user) (now : Instant) (mine : k.userId = user) :
    k ∈ (revokeAll s other now).keys ↔ k ∈ s.keys := by
  have untouched : ∀ was : ApiKey H, was.userId = user → (was.userId == other) = false := fun was owner =>
    beq_eq_false_iff_ne.mpr fun same => apart (same.symm.trans owner)
  constructor
  · intro listed
    obtain ⟨was,there,rfl⟩ := List.mem_map.mp listed
    have owner : was.userId = user := by
      rw [← mine]
      split <;> rfl
    rw [untouched was owner]
    exact there
  · intro listed
    refine List.mem_map.mpr ⟨k,listed,?_⟩
    rw [untouched k mine]
    rfl

omit [DecidableEq H] in
-- What authenticates as a user is read off that user's rows alone.
theorem Effect.apart {e : Event} (effect : Effect hash s t e) (other : ¬ Concerns s user e) :
    (∀ k, k ∈ Unrevoked t user ↔ k ∈ Unrevoked s user) ∧ t.accounts.users[user]? = s.accounts.users[user]? := by
  cases effect with
  | created row users _ keys =>
    refine ⟨fun k => by rw [mem_unrevoked,mem_unrevoked,keys],?_⟩
    have apart : user ≠ s.accounts.users.length := fun same => other same.symm
    rw [users,List.getElem?_append]
    split
    · rfl
    · rename_i outside
      have beyond := Nat.lt_of_le_of_ne (Nat.le_of_not_lt outside) (Ne.symm apart)
      rw [List.getElem?_eq_none (Nat.le_of_lt beyond)]
      exact List.getElem?_eq_none (Nat.sub_pos_of_lt beyond)
  | switched concerned active _ users keys =>
    refine ⟨fun k => by rw [mem_unrevoked,mem_unrevoked,keys],?_⟩
    have apart : concerned ≠ user := by cases active <;> exact other
    rw [users]
    exact Rows.getElem?_modify_other apart _
  | issued concerned label secret _ users keys =>
    refine ⟨fun k => ?_,by rw [users]⟩
    rw [unrevoked_added other keys,mem_unrevoked]
  | rotated concerned label secret now _ users keys =>
    refine ⟨fun k => ?_,by rw [users]⟩
    rw [unrevoked_added other keys,mem_unrevoked]
    exact and_congr_left fun owned => revokeAll_apart other now owned.1
  | revoked key users _ others self =>
    refine ⟨fun k => ?_,by rw [users]⟩
    rw [mem_unrevoked,mem_unrevoked]
    refine and_congr_left fun owned => ?_
    obtain ⟨owner,live⟩ := owned
    rw [List.mem_iff_getElem?,List.mem_iff_getElem?]
    refine exists_congr fun i => ?_
    by_cases here : i = key
    · subst here
      constructor
      · intro found
        obtain ⟨_,old,was,same,_⟩ := self k found
        exact absurd ⟨old,was,same.symm.trans owner⟩ other
      · exact fun found => absurd ⟨k,found,owner⟩ other
    · rw [others i here]

omit [DecidableEq H] in
theorem Effect.rotated_one (effect : Effect hash s t (.rotated user raw key)) :
    ∃ k, Unrevoked t user = [k] ∧ k.keyHash = hash raw := by
  generalize happened : Event.rotated user raw key = e at effect
  cases effect with
  | created => cases happened
  | issued => cases happened
  | revoked => cases happened
  | switched _ active => cases active <;> cases happened
  | rotated _ label secret now _ _ keys =>
    cases happened
    refine ⟨newKey hash user label (rawKey secret),?_,rfl⟩
    have none_left : ((revokeAll s user now).keys.filter fun k => k.userId == user && !k.isRevoked) = [] := by
      rw [List.filter_eq_nil_iff]
      intro k member kept
      obtain ⟨was,_,rfl⟩ := List.mem_map.mp member
      by_cases mine : (was.userId == user && !was.isRevoked) = true
      · rw [if_pos mine] at kept
        simp [ApiKey.isRevoked] at kept
      · rw [if_neg mine] at kept
        exact mine kept
    rw [Unrevoked,keys,List.filter_append,none_left]
    simp [newKey,ApiKey.isRevoked]

-- No other key handed out so far has this one's hash.
def Injective (hash : Str → H) (events : List Event) (raw : Str) : Prop :=
  ∀ user other key e, e ∈ events → Issues user other key e → hash other = hash raw → other = raw

theorem accepted_history {labels : List (Operation × Event)} (path : Run (Step hash) {} labels s)
    (injective : Injective hash (history labels) raw) : getCurrentUser hash s (some raw) = .ok user ↔
      (∃ key, Stands (history labels) user raw key) ∧ Active (history labels) user := by
  have valid := run_faithful path
  constructor
  · intro accepted
    obtain ⟨_,⟨k,member,hashed⟩,row,there,active⟩ := accepted_admits accepted
    obtain ⟨listed,rfl,live⟩ := mem_unrevoked.1 member
    obtain ⟨key,found⟩ := List.mem_iff_getElem?.mp listed
    obtain ⟨issued,same,stands⟩ := valid.keys.rows key k found live
    obtain ⟨e,happened,issues⟩ := stands.started
    cases injective _ _ _ e happened issues (same.symm.trans hashed)
    exact ⟨⟨key,stands⟩,(valid.users.active _ row there).1 active⟩
  · rintro ⟨⟨key,stands⟩,active⟩
    obtain ⟨k,found,rfl,hashed,live⟩ := valid.keys.standing user raw key stands
    have listed := List.mem_of_getElem? found
    obtain ⟨e,happened,issues⟩ := stands.started
    obtain ⟨secret,rfl⟩ := issued_text path happened issues
    refine admits_accepted ⟨?_,⟨k,mem_unrevoked.2 ⟨listed,rfl,live⟩,hashed⟩,?_⟩
    · exact List.append_ne_nil_of_left_ne_nil (by decide) secret
    · have there := List.getElem?_eq_getElem (valid.owners k listed)
      exact ⟨_,there,(valid.users.active _ _ there).2 active⟩

theorem step_apart {a : Operation × Event} (step : Step hash s a t) (other : ¬ Concerns s user a.2)
    (credentials : Option Str) :
    getCurrentUser hash t credentials = .ok user ↔ getCurrentUser hash s credentials = .ok user := by
  obtain ⟨rows,users⟩ := (step_effect step).apart other
  cases credentials with
  | none => exact Iff.rfl
  | some raw =>
    constructor
    · intro accepted
      obtain ⟨present,⟨k,member,hashed⟩,active⟩ := accepted_admits accepted
      exact admits_accepted ⟨present,⟨k,(rows k).1 member,hashed⟩,users ▸ active⟩
    · intro accepted
      obtain ⟨present,⟨k,member,hashed⟩,active⟩ := accepted_admits accepted
      exact admits_accepted ⟨present,⟨k,(rows k).2 member,hashed⟩,users ▸ active⟩

theorem key_lifecycle {labels : List (Operation × Event)} (path : Run (Step hash) {} labels s) :
    (∀ user raw, Injective hash (history labels) raw → (getCurrentUser hash s (some raw) = .ok user ↔
      (∃ key, Stands (history labels) user raw key) ∧ Active (history labels) user)) ∧
    ∀ a t, Step hash s a t →
      (∀ user raw key, a.2 = .rotated user raw key → ∃ k, Unrevoked t user = [k] ∧ k.keyHash = hash raw) ∧
      ∀ user, ¬ Concerns s user a.2 → ∀ credentials,
        getCurrentUser hash t credentials = .ok user ↔ getCurrentUser hash s credentials = .ok user := by
  refine ⟨fun user raw injective => accepted_history path injective,fun a t step => ⟨?_,?_⟩⟩
  · intro user raw key rotation
    have effect := step_effect step
    rw [rotation] at effect
    exact effect.rotated_one
  · exact fun user other credentials => step_apart step other credentials

def firstSecret : Str := text "AAECAwQFBgcICQoLDA0ODxAREhMUFRYXGBkaGxwdHh8"
def secondSecret : Str := text "ZGVmZ2hpamtsbW5vcHFyc3R1dnd4eXp7fH1-f4CBgoM"

-- sha256 of these two keys.
def digest (raw : Str) : Str :=
  if raw == rawKey firstSecret then text "273614b9aa3b16a6310e8e0fb259d431e1ca231ee1f6584f01c893af2d1c3abc"
  else if raw == rawKey secondSecret then text "f7016886536b4e6c2a23c3137bff99b38795587db84f7b30e8f72389235ebcf0"
  else []

def advance (hash : Str → H) (a : Operation × Event) (s : Credentials H) : Option (Credentials H) :=
  match perform hash s a.1 with
  | .ok (t,e) => if e = a.2 then some t else none
  | .error _ => none

theorem advance_step {hash : Str → H} {a : Operation × Event} (moved : advance hash a s = some t) : Step hash s a t := by
  unfold advance at moved
  split at moved
  · rename_i after e performed
    split at moved
    · rename_i same
      cases moved
      cases same
      exact performed
    · cases moved
  · cases moved

def twoKeys : List (Operation × Event) :=
  [(.createUser (text "alice") none,.created 0),(.createUser (text "bob") none,.created 1),
   (.createApiKey 0 none firstSecret,.issued 0 (rawKey firstSecret) 0)]

def rotation : Event := .rotated 0 (rawKey secondSecret) 1
def rotated : List (Operation × Event) := twoKeys ++ [(.regenerateApiKey 0 secondSecret 7,rotation)]

theorem key_lifecycle_rotated : ∃ s, Run (Step digest) {} rotated s ∧
    getCurrentUser digest s (some (rawKey secondSecret)) = .ok 0 ∧
    getCurrentUser digest s (some (rawKey firstSecret)) ≠ .ok 0 := by
  have ran : (replay (advance digest) rotated {}).any (fun _ => true) = true := by decide +kernel
  obtain ⟨s,moves,_⟩ := replay_reaches ran
  have path : Run (Step digest) {} rotated s := moves.weaken fun _ _ _ moved => advance_step moved
  have apart : digest (rawKey firstSecret) ≠ digest (rawKey secondSecret) := by decide +kernel
  have listed : history rotated = history twoKeys ++ [rotation] := rfl
  have happened : history rotated = [.created 0,.created 1,.issued 0 (rawKey firstSecret) 0,
    .rotated 0 (rawKey secondSecret) 1] := rfl
  have texts : ∀ user other key e, e ∈ history rotated → Issues user other key e →
      other = rawKey firstSecret ∨ other = rawKey secondSecret := by
    intro user other key e member issues
    simp only [happened,List.mem_cons,List.not_mem_nil,or_false] at member
    rcases member with rfl | rfl | rfl | rfl <;> rcases issues with same | same <;> cases same
    · exact .inl rfl
    · exact .inr rfl
  have injective : ∀ raw, raw = rawKey firstSecret ∨ raw = rawKey secondSecret → Injective digest (history rotated) raw := by
    intro raw known user other key e member issues same
    rcases texts user other key e member issues with rfl | rfl <;> rcases known with rfl | rfl
    · rfl
    · exact absurd same apart
    · exact absurd same.symm apart
    · rfl
  have accepts := (key_lifecycle path).1 0
  refine ⟨s,path,(accepts _ (injective _ (.inr rfl))).2 ⟨⟨1,?_⟩,?_⟩,fun accepted => ?_⟩
  · rw [listed]
    exact stands_append.2 (.inl (.inr rfl))
  · intro disabled
    obtain ⟨e,member,rfl⟩ := disabled.started
    exact absurd member (by decide +kernel)
  · obtain ⟨⟨key,stands⟩,_⟩ := (accepts _ (injective _ (.inl rfl))).1 accepted
    rw [listed] at stands
    rcases stands_append.1 stands with (same | same) | ⟨_,kept⟩
    · cases same
    · exact apart (congrArg digest (Event.rotated.inj same).2.1.symm)
    · exact kept (.inr ⟨_,_,rfl⟩)

end BatchGateway.ApiKeys
