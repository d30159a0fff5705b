import BatchGateway.DirectoryLogin

-- What a username may look like once it reaches the directory.
namespace BatchGateway.UsernameGate
open PythonText Traced Raising LdapAuth DirectoryLogin

def Allowed (username : Str) : Prop :=
  1 ≤ username.length ∧ username.length ≤ 64 ∧ ∀ c ∈ username, usernameChar c = true

-- What `$` lets through beside an allowed name.
def Trailing (username : Str) : Prop := ∃ name, Allowed name ∧ username = name ++ [newline]

-- The characters with a meaning in a DN or in a filter.
def special : Str := text ",+\"\\<>;=#*()&|!~"

def isControl (c : CodePoint) : Bool := c.val < 32 || (127 ≤ c.val && c.val < 160)

def Harmless (c : CodePoint) : Prop := c ∉ special ∧ isspace c = false ∧ isControl c = false

-- Some connection to the directory is opened.
def Opens (directory : Directory) (trace : List Event) : Prop :=
  ∃ account request, .connect account request ∈ trace ∧ (directory account request).opened = .ok ()

section
variable (texts : Texts) (config : LdapConfig) (directory : Directory) (username password : Str)

structure Gated : Prop where
  allowed : Allowed username
  harmless : ∀ c ∈ username, Harmless c
  bound : config.bindMode = text "direct" →
    ∀ user word, .bind .student user word ∈ (authenticate texts config directory username password).trace →
      ∃ dn, user = some dn ∧ texts.format config.userDnTemplate username = .ok dn
  filtered : config.bindMode = text "search" →
    ∀ search, .search .service search ∈ (authenticate texts config directory username password).trace →
      texts.format config.searchFilter username = .ok search.searchFilter

-- The first connection a username that passes leads to can be opened.
def Reaches : Prop :=
  (config.bindMode = text "search" ∧ given config.searchBase = true ∧
    (connection config directory .service config.serviceAccountDn config.serviceAccountPassword).opened = .ok ()) ∨
  (config.bindMode = text "direct" ∧ ∃ dn, texts.format config.userDnTemplate (texts.escapeRdn username) = .ok dn ∧
    (connection config directory .student (some dn) (some password)).opened = .ok ())

-- Neither escape changes an allowed name.
def EscapesKeep : Prop := ∀ name, Allowed name → texts.escapeRdn name = name ∧ texts.escapeFilterChars name = name

end

variable {texts : Texts} {config : LdapConfig} {directory : Directory} {username password : Str}

theorem concat_refused (name : Str) : ¬ Allowed (name ++ [newline]) := by
  rintro ⟨_,_,every⟩
  have clash := every newline (List.mem_append_right _ List.mem_cons_self)
  revert clash
  decide

theorem usernameRe_iff : usernameRe username = true ↔ Allowed username ∨ Trailing username := by
  unfold usernameRe
  by_cases last : username.getLast? = some newline
  · obtain ⟨name,rfl⟩ := List.getLast?_eq_some_iff.mp last
    rw [if_pos last,List.dropLast_concat]
    simp only [Bool.and_eq_true,decide_eq_true_eq,List.all_eq_true]
    constructor
    · rintro ⟨⟨low,high⟩,every⟩
      exact .inr ⟨name,⟨low,high,every⟩,rfl⟩
    · rintro (allowed | ⟨other,⟨low,high,every⟩,same⟩)
      · exact absurd allowed (concat_refused name)
      · obtain rfl := List.append_cancel_right same
        exact ⟨⟨low,high⟩,every⟩
  · rw [if_neg last]
    simp only [Bool.and_eq_true,decide_eq_true_eq,List.all_eq_true]
    constructor
    · rintro ⟨⟨low,high⟩,every⟩
      exact .inl ⟨low,high,every⟩
    · rintro (⟨low,high,every⟩ | ⟨name,_,rfl⟩)
      · exact ⟨⟨low,high⟩,every⟩
      · exact absurd List.getLast?_concat last

theorem special_refused : special.any usernameChar = false := by decide

theorem usernameChar_harmless {c : CodePoint} (admitted : usernameChar c = true) : Harmless c := by
  have plain : c ∉ special := by
    intro member
    have refused := List.any_eq_false.mp special_refused c member
    exact refused admitted
  simp only [usernameChar,Bool.or_eq_true,Bool.and_eq_true,decide_eq_true_eq,beq_iff_eq] at admitted
  refine ⟨plain,?_,?_⟩
  · simp only [isspace,Bool.or_eq_false_iff,Bool.and_eq_false_iff,decide_eq_false_iff_not,beq_eq_false_iff_ne]
    omega
  · simp only [isControl,Bool.or_eq_false_iff,Bool.and_eq_false_iff,decide_eq_false_iff_not]
    omega

theorem service_used {e : Event} (member : e ∈ (authenticate texts config directory username password).trace)
    (service : e.account = .service) : config.bindMode = text "search" ∧ given config.searchBase = true := by
  by_contra unused
  have first := (authenticate_events member).1 service
  rw [resolveDn_trace unused] at first
  cases first

-- A DN comes from the template or from the entry found over an opened connection.
theorem studentDn_cases {dn : Str} (led : studentDn texts config directory username = some dn) :
    (config.bindMode = text "search" ∧ given config.searchBase = true ∧
      (connection config directory .service config.serviceAccountDn config.serviceAccountPassword).opened = .ok ()) ∨
    (config.bindMode = text "direct" ∧ texts.format config.userDnTemplate (texts.escapeRdn username) = .ok dn) := by
  unfold studentDn at led
  by_cases search : config.bindMode = text "search"
  · rw [if_pos search] at led
    by_cases based : given config.searchBase = true
    · rw [if_pos based,serviceEntry] at led
      cases opened : (connection config directory .service config.serviceAccountDn config.serviceAccountPassword).opened with
      | ok => exact .inl ⟨search,based,rfl⟩
      | error e =>
        simp only [opened] at led
        cases led
    · rw [if_neg based] at led
      cases led
  · rw [if_neg search] at led
    by_cases direct : config.bindMode = text "direct"
    · rw [if_pos direct] at led
      exact .inr ⟨direct,returned_some.mp led⟩
    · rw [if_neg direct] at led
      cases led

theorem opens_reaches (opens : Opens directory (authenticate texts config directory username password).trace) :
    Reaches texts config directory username password := by
  obtain ⟨account,request,member,opened⟩ := opens
  cases account with
  | service =>
    obtain ⟨search,based⟩ := service_used member rfl
    have inside := (service_part member rfl).events _ member rfl
    obtain ⟨_,rfl⟩ := (session_went _ _ _ _ _ _).connect (serviceSearch_quiet _ _) inside
    exact .inl ⟨search,based,opened⟩
  | student =>
    obtain ⟨dn,found,resolved,part⟩ := student_part member rfl
    obtain ⟨_,rfl⟩ := (session_went _ _ _ _ _ _).connect (studentSession_quiet dn found) (part.events _ member rfl)
    rcases studentDn_cases (resolveDn_result.mp ⟨found,resolved⟩) with service | ⟨direct,filled⟩
    · exact .inl service
    · exact .inr ⟨direct,dn,filled,opened⟩

theorem session_connects {α : Type} {account : Account} {user secret : Option Str} {body : Connection → Bool → Call α}
    (quiet : ∀ conn bound, Only (Searches account) (body conn bound)) :
    .connect account (defaultConnectionFactory config user secret) ∈ (session config directory account user secret body).trace := by
  obtain ⟨rest,listed,_⟩ : ∃ rest, (session config directory account user secret body).trace = _ :: rest ∧ _ :=
    session_opens quiet
  rw [listed]
  exact List.mem_cons_self

theorem reaches_opens (typed : password ≠ []) (valid : usernameRe username = true)
    (reaches : Reaches texts config directory username password) :
    Opens directory (authenticate texts config directory username password).trace := by
  rw [authenticate_session typed valid]
  rcases reaches with ⟨search,based,opened⟩ | ⟨direct,dn,filled,opened⟩
  · refine ⟨.service,_,mem_bind.mpr (.inl ?_),opened⟩
    rw [resolveDn_session search based]
    exact mem_bind.mpr (.inl (session_connects (serviceSearch_quiet _ _)))
  · have led : studentDn texts config directory username = some dn := by
      unfold studentDn
      rw [if_neg (direct ▸ modes_differ),if_pos direct,filled]
      rfl
    obtain ⟨found,resolved⟩ := resolveDn_result.mpr led
    exact ⟨.student,_,mem_bind.mpr (.inr ⟨(dn,found),resolved,
      mem_bind.mpr (.inl (session_connects (studentSession_quiet dn found)))⟩),opened⟩

theorem bound_dn {user word : Option Str} (direct : config.bindMode = text "direct")
    (member : .bind .student user word ∈ (authenticate texts config directory username password).trace) :
    ∃ dn, user = some dn ∧ texts.format config.userDnTemplate (texts.escapeRdn username) = .ok dn := by
  obtain ⟨dn,found,resolved,part⟩ := student_part member rfl
  obtain ⟨rfl,_,_⟩ := (session_went _ _ _ _ _ _).bind (studentSession_quiet dn found) (part.events _ member rfl)
  refine ⟨dn,rfl,?_⟩
  rcases studentDn_cases (resolveDn_result.mp ⟨found,resolved⟩) with ⟨search,_⟩ | ⟨_,filled⟩
  · rw [direct] at search
    exact absurd search modes_differ
  · exact filled

theorem sent_filter {search : Search}
    (member : .search .service search ∈ (authenticate texts config directory username password).trace) :
    texts.format config.searchFilter (texts.escapeFilterChars username) = .ok search.searchFilter := by
  obtain ⟨answer,inside,_⟩ := (session_went _ _ _ _ _ _).search ((service_part member rfl).events _ member rfl)
  cases answer with
  | false => cases inside
  | true =>
    cases filled : texts.format config.searchFilter (texts.escapeFilterChars username) with
    | error e =>
      simp only [serviceSearch,formatted,filled] at inside
      cases inside
    | ok searchFilter =>
      rw [serviceSearch_filled filled] at inside
      cases List.mem_singleton.mp inside
      rfl

theorem allowed_gated (keep : EscapesKeep texts) (allowed : Allowed username) :
    Gated texts config directory username password where
  allowed := allowed
  harmless c member := usernameChar_harmless (allowed.2.2 c member)
  bound direct user word member := by
    obtain ⟨dn,same,filled⟩ := bound_dn direct member
    rw [(keep username allowed).1] at filled
    exact ⟨dn,same,filled⟩
  filtered _ search member := by
    have filled := sent_filter member
    rwa [(keep username allowed).2] at filled

-- The gate holds but for a newline at the end of a name that would pass.
theorem username_gate_iff (keep : EscapesKeep texts) :
    (Opens directory (authenticate texts config directory username password).trace →
        Gated texts config directory username password) ↔
      ¬ (Trailing username ∧ password ≠ [] ∧ Reaches texts config directory username password) := by
  constructor
  · rintro gated ⟨⟨name,allowed,rfl⟩,typed,reaches⟩
    have valid := usernameRe_iff.mpr (.inr ⟨name,allowed,rfl⟩)
    exact concat_refused name (gated (reaches_opens typed valid reaches)).allowed
  · intro escaped opens
    obtain ⟨account,request,member,opened⟩ := id opens
    obtain ⟨typed,valid⟩ := admitted member
    rcases usernameRe_iff.mp valid with allowed | trailing
    · exact allowed_gated keep allowed
    · exact absurd ⟨trailing,typed,opens_reaches opens⟩ escaped

theorem plain_keeps : EscapesKeep plainTexts := fun _ _ => ⟨rfl,rfl⟩

theorem username_gate_alice : Opens (fun _ _ => {})
      (authenticate plainTexts exampleConfig (fun _ _ => {}) (text "alice") (text "secret")).trace ∧
    Gated plainTexts exampleConfig (fun _ _ => {}) (text "alice") (text "secret") := by
  have opens : Opens (fun _ _ => {}) (authenticate plainTexts exampleConfig (fun _ _ => {}) (text "alice") (text "secret")).trace :=
    ⟨.student,_,List.mem_cons_self,rfl⟩
  refine ⟨opens,(username_gate_iff plain_keeps).mpr ?_ opens⟩
  rintro ⟨⟨name,_,same⟩,_⟩
  have last := congrArg List.getLast? same
  rw [List.getLast?_concat] at last
  revert last
  decide

-- The newline goes into the DN that is bound.
theorem newline_reaches_directory : ∃ (texts : Texts) (config : LdapConfig) (directory : Directory) (username password : Str),
    EscapesKeep texts ∧ Opens directory (authenticate texts config directory username password).trace ∧
      ¬ Gated texts config directory username password :=
  ⟨plainTexts,exampleConfig,fun _ _ => {},text "alice\n",text "secret",plain_keeps,
    ⟨.student,_,List.mem_cons_self,rfl⟩,fun gated => concat_refused (text "alice") gated.allowed⟩

end BatchGateway.UsernameGate
