import BatchGateway.Histories
import BatchGateway.Rows
import Mathlib.Data.List.Induction

-- Queues served one item each per round, until a limit is reached. A served item
-- is listed with the key of its queue.
namespace RoundRobin
variable {κ α : Type}

abbrev Queues (κ α : Type) := List (κ × List α)

def oneRound : Nat → Queues κ α → List (κ × α) × Queues κ α
  | 0, queues => ([],queues)
  | _+1, [] => ([],[])
  | n+1, (k,[]) :: rest =>
    let (out,left) := oneRound (n+1) rest
    (out,(k,[]) :: left)
  | n+1, (k,a :: waiting) :: rest =>
    let (out,left) := oneRound n rest
    ((k,a) :: out,(k,waiting) :: left)

def allEmpty (queues : Queues κ α) : Bool := queues.all (fun q => q.2.isEmpty)

def rounds : Nat → Nat → Queues κ α → List (κ × α)
  | 0, _, _ => []
  | fuel+1, limit, queues =>
    if limit = 0 || allEmpty queues then []
    else
      let (out,left) := oneRound limit queues
      out ++ rounds fuel (limit - out.length) left

-- A round that starts serves somebody, so as many rounds as the limit suffice.
def serve (limit : Nat) (queues : Queues κ α) : List (κ × α) := rounds limit limit queues

-- The loop without the count of rounds: what a run that leaves it has served.
inductive Ends : Nat → Queues κ α → List (κ × α) → Prop where
  | stop {limit queues} (stopped : limit = 0 ∨ allEmpty queues = true) : Ends limit queues []
  | round {limit queues rest} (open_ : limit ≠ 0) (waits : allEmpty queues = false)
      (later : Ends (limit - (oneRound limit queues).1.length) (oneRound limit queues).2 rest) :
      Ends limit queues ((oneRound limit queues).1 ++ rest)

def heads (queues : Queues κ α) : List (κ × α) := queues.filterMap (fun q => q.2.head?.map (fun a => (q.1,a)))

def tails (queues : Queues κ α) : Queues κ α := queues.map (fun q => (q.1,q.2.tail))

@[simp] theorem heads_idle (k : κ) (rest : Queues κ α) : heads ((k,[]) :: rest) = heads rest := by
  simp [heads,List.filterMap_cons]

@[simp] theorem heads_waiting (k : κ) (a : α) (waiting : List α) (rest : Queues κ α) :
    heads ((k,a :: waiting) :: rest) = (k,a) :: heads rest := by
  simp [heads]

@[simp] theorem tails_cons (k : κ) (waiting : List α) (rest : Queues κ α) :
    tails ((k,waiting) :: rest) = (k,waiting.tail) :: tails rest := rfl

@[simp] theorem tails_keys (queues : Queues κ α) : (tails queues).map Prod.fst = queues.map Prod.fst := by
  simp [tails]

theorem oneRound_heads (n : Nat) (queues : Queues κ α) : (oneRound n queues).1 = (heads queues).take n := by
  induction queues generalizing n with
  | nil => cases n <;> rfl
  | cons q rest ih =>
    obtain ⟨k,waiting⟩ := q
    cases n with
    | zero => rfl
    | succ n => cases waiting <;> simp [oneRound,ih]

theorem oneRound_tails {n : Nat} {queues : Queues κ α} (room : (heads queues).length ≤ n) :
    (oneRound n queues).2 = tails queues := by
  induction queues generalizing n with
  | nil => cases n <;> rfl
  | cons q rest ih =>
    obtain ⟨k,waiting⟩ := q
    cases waiting with
    | nil =>
      cases n with
      | zero =>
        have fits := ih (n := 0) (by simpa using room)
        simp only [oneRound] at fits ⊢
        rw [tails_cons,← fits]
        rfl
      | succ n => simpa [oneRound] using ih (n := n+1) (by simpa using room)
    | cons a waiting =>
      cases n with
      | zero => simp at room
      | succ n => simpa [oneRound] using ih (n := n) (by simpa using room)

theorem heads_present {queues : Queues κ α} (waits : allEmpty queues = false) : 0 < (heads queues).length := by
  induction queues with
  | nil => simp [allEmpty] at waits
  | cons q rest ih =>
    obtain ⟨other,waiting⟩ := q
    cases waiting with
    | nil =>
      rw [heads_idle]
      exact ih (by simpa [allEmpty] using waits)
    | cons a waiting => simp

theorem oneRound_keys (n : Nat) (queues : Queues κ α) : (oneRound (n+1) queues).2.map Prod.fst = queues.map Prod.fst := by
  induction queues generalizing n with
  | nil => rfl
  | cons q rest ih =>
    obtain ⟨k,waiting⟩ := q
    cases waiting with
    | nil => simp [oneRound,ih]
    | cons a waiting =>
      cases n with
      | zero => cases rest <;> simp [oneRound]
      | succ n => simp [oneRound,ih]

-- A round that starts serves at least one item.
theorem oneRound_serves {limit : Nat} {queues : Queues κ α} (open_ : limit ≠ 0) (waits : allEmpty queues = false) :
    0 < (oneRound limit queues).1.length := by
  have some_wait := heads_present waits
  rw [oneRound_heads,List.length_take]
  omega

theorem rounds_ends {fuel limit : Nat} (queues : Queues κ α) (enough : limit ≤ fuel) :
    Ends limit queues (rounds fuel limit queues) := by
  induction fuel generalizing limit queues with
  | zero => exact .stop (.inl (Nat.le_zero.mp enough))
  | succ fuel ih =>
    simp only [rounds]
    split
    · rename_i stopped
      exact .stop (by simpa using stopped)
    · rename_i going
      simp only [Bool.or_eq_true,decide_eq_true_eq,not_or,Bool.not_eq_true] at going
      have some_served := oneRound_serves going.1 going.2
      exact .round going.1 going.2 (ih _ (by omega))

variable [DecidableEq κ]

def enqueue (row : κ × α) : Queues κ α → Queues κ α
  | [] => [(row.1,[row.2])]
  | (k,waiting) :: rest =>
    if k = row.1 then (k,waiting ++ [row.2]) :: rest else (k,waiting) :: enqueue row rest

-- Queues stand in the order in which their keys first occur.
def group (rows : List (κ × α)) : Queues κ α := rows.foldl (fun queues row => enqueue row queues) []

def waitingOf (k : κ) (queues : Queues κ α) : List α := (queues.lookup k).getD []

def served (k : κ) (out : List (κ × α)) : Nat := out.countP (fun row => row.1 = k)

-- The queues before k's that still wait after `round` full rounds.
def earlier (round : Nat) (k : κ) : Queues κ α → Nat
  | [] => 0
  | (other,waiting) :: rest =>
    if other = k then 0 else (if round < waiting.length then 1 else 0) + earlier round k rest

-- How many items are served before k's turn in the round numbered `round` from 0.
def ahead (round : Nat) (k : κ) (queues : Queues κ α) : Nat :=
  (queues.map (fun q => min q.2.length round)).sum + earlier round k queues

@[simp] theorem waitingOf_here (k : κ) (waiting : List α) (rest : Queues κ α) :
    waitingOf k ((k,waiting) :: rest) = waiting := by
  simp [waitingOf]

theorem waitingOf_skip {other k : κ} (different : other ≠ k) (waiting : List α) (rest : Queues κ α) :
    waitingOf k ((other,waiting) :: rest) = waitingOf k rest := by
  have skipped : (k == other) = false := by simpa using Ne.symm different
  simp [waitingOf,List.lookup_cons,skipped]

theorem waitingOf_empty {queues : Queues κ α} (empty : allEmpty queues = true) (k : κ) : waitingOf k queues = [] := by
  induction queues with
  | nil => rfl
  | cons q rest ih =>
    obtain ⟨other,waiting⟩ := q
    simp only [allEmpty,List.all_cons,Bool.and_eq_true,List.isEmpty_iff] at empty
    have later := ih (by simpa [allEmpty] using empty.2)
    by_cases same : other = k
    · rw [same,waitingOf_here,empty.1]
    · rwa [waitingOf_skip same]

def items (queues : Queues κ α) : List (κ × α) := queues.flatMap (fun q => q.2.map (fun a => (q.1,a)))

omit [DecidableEq κ] in
-- A round moves items from the queues to its output.
theorem oneRound_items (n : Nat) (queues : Queues κ α) :
    ((oneRound n queues).1 ++ items (oneRound n queues).2).Perm (items queues) := by
  induction queues generalizing n with
  | nil => cases n <;> exact .refl _
  | cons q rest ih =>
    obtain ⟨k,waiting⟩ := q
    cases n with
    | zero => exact .refl _
    | succ n =>
      cases waiting with
      | nil => simpa [oneRound,items] using ih (n+1)
      | cons a waiting =>
        have later := ih n
        simp only [oneRound,items,List.flatMap_cons,List.map_cons,List.cons_append] at later ⊢
        refine .cons _ ?_
        refine (List.perm_append_comm_assoc _ _ _).trans ?_
        exact List.Perm.append_left _ later

omit [DecidableEq κ] in
theorem items_empty {queues : Queues κ α} (empty : allEmpty queues = true) : items queues = [] := by
  apply List.flatMap_eq_nil_iff.mpr
  intro q listed
  have none_waits : q.2 = [] := by simpa using List.all_eq_true.mp empty q listed
  rw [none_waits]
  rfl

omit [DecidableEq κ] in
-- The limit is used up, or nothing waits any more.
theorem Ends.count {limit : Nat} {queues : Queues κ α} {out : List (κ × α)} (ends : Ends limit queues out) :
    out.length = min limit (items queues).length := by
  induction ends with
  | @stop limit queues stopped =>
    rcases stopped with rfl | empty
    · simp
    · simp [items_empty empty]
  | @round limit queues rest open_ waits later ih =>
    have moved := (oneRound_items limit queues).length_eq
    have bound : (oneRound limit queues).1.length ≤ limit := by
      rw [oneRound_heads,List.length_take]
      exact Nat.min_le_left _ _
    rw [List.length_append] at moved ⊢
    omega

omit [DecidableEq κ] in
theorem rounds_items (fuel limit : Nat) (queues : Queues κ α) : (rounds fuel limit queues).Subperm (items queues) := by
  induction fuel generalizing limit queues with
  | zero => exact List.nil_subperm
  | succ fuel ih =>
    simp only [rounds]
    split
    · exact List.nil_subperm
    · exact ((List.subperm_append_left _).mpr (ih _ _)).trans (oneRound_items limit queues).subperm

theorem enqueue_items (row : κ × α) (queues : Queues κ α) : (items (enqueue row queues)).Perm (row :: items queues) := by
  induction queues with
  | nil => simp [enqueue,items]
  | cons q rest ih =>
    obtain ⟨other,waiting⟩ := q
    by_cases same : other = row.1
    · subst same
      simp only [enqueue,if_true,items,List.flatMap_cons,List.map_append,List.append_assoc]
      exact List.perm_middle
    · simp only [enqueue,same,if_false,items,List.flatMap_cons] at ih ⊢
      exact (List.Perm.append_left _ ih).trans List.perm_middle

theorem group_items (rows : List (κ × α)) : (items (group rows)).Perm rows := by
  unfold group
  induction rows using List.reverseRec with
  | nil => exact .refl _
  | append_singleton rows row ih =>
    rw [List.foldl_append]
    exact (enqueue_items row _).trans ((ih.cons row).trans (List.perm_append_singleton row rows).symm)

-- Nothing is served that was not waiting, and nothing twice.
theorem serve_subperm (limit : Nat) (rows : List (κ × α)) : (serve limit (group rows)).Subperm rows :=
  (rounds_items limit limit _).trans (group_items rows).subperm

theorem waitingOf_tails (k : κ) (queues : Queues κ α) : waitingOf k (tails queues) = (waitingOf k queues).tail := by
  induction queues with
  | nil => rfl
  | cons q rest ih =>
    obtain ⟨other,waiting⟩ := q
    by_cases same : other = k
    · rw [same,tails_cons,waitingOf_here,waitingOf_here]
    · rw [tails_cons,waitingOf_skip same,waitingOf_skip same,ih]

theorem earlier_tails (round : Nat) (k : κ) (queues : Queues κ α) :
    earlier round k (tails queues) = earlier (round+1) k queues := by
  induction queues with
  | nil => rfl
  | cons q rest ih =>
    obtain ⟨other,waiting⟩ := q
    have shorter : round < waiting.length - 1 ↔ round + 1 < waiting.length := by omega
    simp only [tails_cons,earlier,List.length_tail,shorter,ih]

theorem ahead_tails (round : Nat) (k : κ) (queues : Queues κ α) :
    ahead (round+1) k queues = (heads queues).length + ahead round k (tails queues) := by
  rw [ahead,ahead,earlier_tails]
  suffices (queues.map (fun q => min q.2.length (round+1))).sum =
      (heads queues).length + ((tails queues).map (fun q => min q.2.length round)).sum by omega
  induction queues with
  | nil => rfl
  | cons q rest ih =>
    obtain ⟨other,waiting⟩ := q
    cases waiting with
    | nil => simpa using ih
    | cons a waiting =>
      simp only [heads_waiting,tails_cons,List.map_cons,List.sum_cons,List.length_cons,List.tail_cons]
      omega

theorem ahead_zero (k : κ) (queues : Queues κ α) : ahead 0 k queues = earlier 0 k queues := by
  simp [ahead]

theorem served_absent {k : κ} {queues : Queues κ α} (absent : k ∉ queues.map Prod.fst) (n : Nat) :
    served k ((heads queues).take n) = 0 := by
  apply List.countP_eq_zero.mpr
  intro row taken same
  have member : row ∈ heads queues := List.mem_of_mem_take taken
  obtain ⟨q,listed,first⟩ := List.mem_filterMap.mp member
  obtain ⟨a,_,rfl⟩ := Option.map_eq_some_iff.mp first
  have named : q.1 = k := by simpa using same
  exact absent (named ▸ List.mem_map_of_mem listed)

-- In one round k is served at most once, in its turn.
theorem served_round {queues : Queues κ α} (distinct : (queues.map Prod.fst).Nodup) (k : κ) (n : Nat) :
    served k ((heads queues).take n) ≤ 1 ∧
    (0 < served k ((heads queues).take n) ↔ 0 < (waitingOf k queues).length ∧ earlier 0 k queues < n) := by
  induction queues generalizing n with
  | nil => simp [heads,served,waitingOf]
  | cons q rest ih =>
    obtain ⟨other,waiting⟩ := q
    simp only [List.map_cons,List.nodup_cons] at distinct
    by_cases same : other = k
    · subst same
      have later := served_absent distinct.1
      cases waiting with
      | nil => simp [later n]
      | cons a waiting =>
        cases n with
        | zero => simp [served]
        | succ n =>
          have only : served other (List.take (n+1) (heads ((other,a :: waiting) :: rest))) = 1 := by
            simpa [served] using later n
          rw [only]
          simp [earlier]
    · rw [waitingOf_skip same]
      cases waiting with
      | nil => simpa [earlier,same] using ih distinct.2 n
      | cons a waiting =>
        cases n with
        | zero => simp [served]
        | succ n =>
          have next := ih distinct.2 n
          have others : served k (List.take (n+1) (heads ((other,a :: waiting) :: rest))) =
              served k ((heads rest).take n) := by simp [served,same]
          rw [others]
          simp only [earlier,same,if_false,List.length_cons,Nat.zero_lt_succ,if_true]
          omega

theorem earlier_bound {k : κ} {queues : Queues κ α} (waits : 0 < (waitingOf k queues).length) :
    earlier 0 k queues < (heads queues).length := by
  induction queues with
  | nil => simp [waitingOf] at waits
  | cons q rest ih =>
    obtain ⟨other,waiting⟩ := q
    by_cases same : other = k
    · subst same
      rw [waitingOf_here] at waits
      cases waiting with
      | nil => simp at waits
      | cons a waiting => simp [earlier]
    · rw [waitingOf_skip same] at waits
      have later := ih waits
      cases waiting with
      | nil => simpa [earlier,same] using later
      | cons a waiting =>
        simp only [earlier,same,heads_waiting,List.length_cons,if_false,Nat.zero_lt_succ,if_true]
        omega

-- Who is served how often: k gets its item of a round exactly when the limit
-- reaches beyond the items served before it.
theorem served_rounds {fuel limit : Nat} {queues : Queues κ α} (distinct : (queues.map Prod.fst).Nodup)
    (enough : limit ≤ fuel) (k : κ) (round : Nat) :
    round < served k (rounds fuel limit queues) ↔
      round < (waitingOf k queues).length ∧ ahead round k queues < limit := by
  induction fuel generalizing limit queues round with
  | zero =>
    have none_left : limit = 0 := by omega
    simp [rounds,served,none_left]
  | succ fuel ih =>
    simp only [rounds]
    split
    · rename_i stopped
      simp only [Bool.or_eq_true,decide_eq_true_eq] at stopped
      rcases stopped with rfl | empty
      · simp [served]
      · simp [served,waitingOf_empty empty]
    · rename_i going
      simp only [Bool.or_eq_true,decide_eq_true_eq,not_or,Bool.not_eq_true] at going
      have some_wait := heads_present going.2
      have split_count : ∀ first second : List (κ × α), served k (first ++ second) = served k first + served k second :=
        fun _ _ => List.countP_append
      rw [split_count,oneRound_heads]
      obtain ⟨once,turn⟩ := served_round distinct k limit
      by_cases full : (heads queues).length ≤ limit
      · -- a full round: every waiting queue loses its first item
        rw [oneRound_tails full]
        rw [List.take_of_length_le full] at once turn ⊢
        have keys : ((tails queues).map Prod.fst).Nodup := by rwa [tails_keys]
        have next := ih keys (show limit - (heads queues).length ≤ fuel by omega)
        rw [waitingOf_tails,List.length_tail] at next
        by_cases waits : 0 < (waitingOf k queues).length
        · have bound := earlier_bound waits
          cases round with
          | zero =>
            rw [ahead_zero]
            omega
          | succ round =>
            have later := next round
            rw [ahead_tails]
            omega
        · have never := next 0
          omega
      · -- the limit is reached within this round
        have short : ((heads queues).take limit).length = limit := by
          rw [List.length_take]
          omega
        have done : ∀ left : Queues κ α, rounds fuel 0 left = [] := by
          intro left
          cases fuel <;> simp [rounds]
        rw [short,Nat.sub_self,done]
        have nothing : served k ([] : List (κ × α)) = 0 := rfl
        rw [nothing]
        cases round with
        | zero =>
          rw [ahead_zero]
          omega
        | succ round =>
          rw [ahead_tails]
          omega

theorem served_serve {limit : Nat} {queues : Queues κ α} (distinct : (queues.map Prod.fst).Nodup)
    (k : κ) (round : Nat) :
    round < served k (serve limit queues) ↔
      round < (waitingOf k queues).length ∧ ahead round k queues < limit :=
  served_rounds distinct le_rfl k round

theorem enqueue_keys (row : κ × α) (queues : Queues κ α) :
    (enqueue row queues).map Prod.fst =
      if row.1 ∈ queues.map Prod.fst then queues.map Prod.fst else queues.map Prod.fst ++ [row.1] := by
  induction queues with
  | nil => simp [enqueue]
  | cons q rest ih =>
    obtain ⟨other,waiting⟩ := q
    by_cases same : other = row.1
    · simp [enqueue,same]
    · simp only [enqueue,same,if_false,List.map_cons,ih,List.mem_cons,Ne.symm same,false_or]
      split <;> simp

theorem waitingOf_enqueue (row : κ × α) (queues : Queues κ α) (k : κ) :
    waitingOf k (enqueue row queues) = if row.1 = k then waitingOf k queues ++ [row.2] else waitingOf k queues := by
  induction queues with
  | nil =>
    by_cases same : row.1 = k
    · simp [enqueue,waitingOf,same]
    · rw [if_neg same,enqueue,waitingOf_skip same]
  | cons q rest ih =>
    obtain ⟨other,waiting⟩ := q
    by_cases here : other = k
    · subst here
      by_cases same : other = row.1
      · simp [enqueue,same]
      · simp [enqueue,same,Ne.symm same]
    · by_cases same : other = row.1
      · have different : row.1 ≠ k := fun e => here (same.trans e)
        rw [enqueue,if_pos same,if_neg different,waitingOf_skip here,waitingOf_skip here]
      · rw [enqueue,if_neg same,waitingOf_skip here,waitingOf_skip here,ih]

theorem group_keys (rows : List (κ × α)) : ((group rows).map Prod.fst).Nodup := by
  unfold group
  induction rows using List.reverseRec with
  | nil => simp
  | append_singleton rows row ih =>
    rw [List.foldl_append]
    simp only [List.foldl_cons,List.foldl_nil,enqueue_keys]
    split
    · exact ih
    · rename_i absent
      refine List.nodup_append.mpr ⟨ih,by simp,?_⟩
      intro a member b last same
      rw [List.mem_singleton.mp last] at same
      exact absent (same ▸ member)

theorem waitingOf_group (rows : List (κ × α)) (k : κ) :
    waitingOf k (group rows) = (rows.filter (fun row => row.1 = k)).map Prod.snd := by
  unfold group
  induction rows using List.reverseRec with
  | nil => rfl
  | append_singleton rows row ih =>
    rw [List.foldl_append]
    simp only [List.foldl_cons,List.foldl_nil,waitingOf_enqueue,ih,List.filter_append,List.map_append]
    by_cases same : row.1 = k <;> simp [same]

omit [DecidableEq κ] in
theorem rounds_length (fuel limit : Nat) (queues : Queues κ α) : (rounds fuel limit queues).length ≤ limit := by
  induction fuel generalizing limit queues with
  | zero => exact Nat.zero_le _
  | succ fuel ih =>
    simp only [rounds]
    split
    · exact Nat.zero_le _
    · have round : (oneRound limit queues).1.length ≤ limit := by
        rw [oneRound_heads,List.length_take]
        exact Nat.min_le_left _ _
      have rest := ih (limit - (oneRound limit queues).1.length) (oneRound limit queues).2
      rw [List.length_append]
      omega

def turnsOf (k : κ) (out : List (κ × α)) : List α := (out.filter (fun row => row.1 = k)).map Prod.snd

theorem turnsOf_length (k : κ) (out : List (κ × α)) : (turnsOf k out).length = served k out := by
  rw [turnsOf,List.length_map,served,List.countP_eq_length_filter]

theorem turnsOf_append (k : κ) (first second : List (κ × α)) :
    turnsOf k (first ++ second) = turnsOf k first ++ turnsOf k second := by
  simp [turnsOf]

theorem turnsOf_absent {k : κ} {queues : Queues κ α} (absent : k ∉ queues.map Prod.fst) (n : Nat) :
    turnsOf k (oneRound n queues).1 = [] := by
  apply List.eq_nil_of_length_eq_zero
  rw [turnsOf_length,oneRound_heads,served_absent absent]

-- A round takes from the front of k's queue.
theorem oneRound_turn {queues : Queues κ α} (distinct : (queues.map Prod.fst).Nodup) (k : κ) (n : Nat) :
    turnsOf k (oneRound n queues).1 ++ waitingOf k (oneRound n queues).2 = waitingOf k queues := by
  induction queues generalizing n with
  | nil => cases n <;> rfl
  | cons q rest ih =>
    obtain ⟨other,waiting⟩ := q
    simp only [List.map_cons,List.nodup_cons] at distinct
    cases n with
    | zero => rfl
    | succ n =>
      by_cases same : other = k
      · subst same
        cases waiting with
        | nil => simp [oneRound,turnsOf_absent distinct.1]
        | cons a waiting =>
          have later := turnsOf_absent distinct.1 n
          simp only [turnsOf] at later
          simp [oneRound,turnsOf,later]
      · cases waiting with
        | nil => simpa [oneRound,waitingOf_skip same] using ih distinct.2 (n+1)
        | cons a waiting =>
          have later := ih distinct.2 n
          simp only [turnsOf] at later
          simp [oneRound,waitingOf_skip same,turnsOf,same,later]

-- Each queue is served from its front on.
theorem Ends.initial {limit : Nat} {queues : Queues κ α} {out : List (κ × α)} (ends : Ends limit queues out)
    (distinct : (queues.map Prod.fst).Nodup) (k : κ) : turnsOf k out <+: waitingOf k queues := by
  induction ends with
  | stop => exact List.nil_prefix
  | @round limit queues rest open_ waits later ih =>
    rw [turnsOf_append,← oneRound_turn distinct k limit]
    refine (List.prefix_append_right_inj _).mpr (ih ?_)
    cases limit with
    | zero => exact absurd rfl open_
    | succ n => rwa [oneRound_keys]

-- A round later, whoever comes last is not before anyone's turn of this round.
theorem ahead_round (round : Nat) (k other : κ) (queues : Queues κ α) :
    ahead round k queues ≤ ahead (round+1) other queues := by
  suffices bound : (queues.map (fun q => min q.2.length round)).sum + earlier round k queues ≤
      (queues.map (fun q => min q.2.length (round+1))).sum from bound.trans (Nat.le_add_right _ _)
  induction queues with
  | nil => rfl
  | cons q rest ih =>
    obtain ⟨name,waiting⟩ := q
    have grown : (rest.map (fun q => min q.2.length round)).sum ≤ (rest.map (fun q => min q.2.length (round+1))).sum :=
      (Nat.le_add_right _ _).trans ih
    simp only [List.map_cons,List.sum_cons,earlier]
    split
    · omega
    · split <;> omega

-- Who still waits is at most one item behind anyone.
theorem served_near {limit : Nat} {queues : Queues κ α} (distinct : (queues.map Prod.fst).Nodup) {left right : κ}
    (waits : served right (serve limit queues) < (waitingOf right queues).length) :
    served left (serve limit queues) ≤ served right (serve limit queues) + 1 := by
  by_contra behind
  have taken := (served_serve distinct left (served right (serve limit queues) + 1)).mp (Nat.not_le.mp behind)
  have missed := mt (served_serve distinct right (served right (serve limit queues))).mpr (lt_irrefl _)
  have later := ahead_round (served right (serve limit queues)) right left queues
  exact missed ⟨waits,Nat.lt_of_le_of_lt later taken.2⟩

-- u comes before v: it stands in the list with no v before it.
def Precedes (u v : κ) (keys : List κ) : Prop := ∃ before after, keys = before ++ u :: after ∧ v ∉ before

omit [DecidableEq κ] in
theorem Precedes.append {u v : κ} {keys : List κ} (precedes : Precedes u v keys) (more : List κ) :
    Precedes u v (keys ++ more) := by
  obtain ⟨before,after,rfl,absent⟩ := precedes
  exact ⟨before,after ++ more,by simp,absent⟩

theorem earlier_precedes {u v : κ} {queues : Queues κ α} (precedes : Precedes u v (queues.map Prod.fst)) (round : Nat) :
    earlier round u queues ≤ earlier round v queues := by
  obtain ⟨before,after,listed,absent⟩ := precedes
  induction queues generalizing before with
  | nil => simp at listed
  | cons q rest ih =>
    obtain ⟨name,waiting⟩ := q
    cases before with
    | nil =>
      obtain ⟨rfl,_⟩ := List.cons.inj listed
      simp [earlier]
    | cons first before =>
      obtain ⟨rfl,same⟩ := List.cons.inj listed
      have different : name ≠ v := fun e => absent (e ▸ List.mem_cons_self)
      have later := ih before same fun member => absent (List.mem_cons_of_mem _ member)
      simp only [earlier,different,if_false]
      split
      · exact Nat.zero_le _
      · exact Nat.add_le_add_left later _

-- Nobody behind it in the order is ahead of who still waits.
theorem served_first {limit : Nat} {queues : Queues κ α} (distinct : (queues.map Prod.fst).Nodup) {u v : κ}
    (precedes : Precedes u v (queues.map Prod.fst))
    (waits : served u (serve limit queues) < (waitingOf u queues).length) :
    served v (serve limit queues) ≤ served u (serve limit queues) := by
  by_contra behind
  have taken := (served_serve distinct v (served u (serve limit queues))).mp (Nat.not_le.mp behind)
  have missed := mt (served_serve distinct u (served u (serve limit queues))).mpr (lt_irrefl _)
  have turn := earlier_precedes precedes (served u (serve limit queues))
  exact missed ⟨waits,Nat.lt_of_le_of_lt (Nat.add_le_add_left turn _) taken.2⟩

theorem group_snoc (rows : List (κ × α)) (row : κ × α) :
    (group (rows ++ [row])).map Prod.fst = if row.1 ∈ (group rows).map Prod.fst then (group rows).map Prod.fst
      else (group rows).map Prod.fst ++ [row.1] := by
  unfold group
  rw [List.foldl_append]
  exact enqueue_keys row _

theorem mem_group {rows : List (κ × α)} {k : κ} : k ∈ (group rows).map Prod.fst ↔ k ∈ rows.map Prod.fst := by
  induction rows using List.reverseRec with
  | nil => rfl
  | append_singleton rows row ih =>
    rw [group_snoc,List.map_append,List.mem_append,← ih]
    split
    · rename_i known
      refine ⟨.inl,fun either => either.elim id fun here => ?_⟩
      rw [List.mem_singleton.mp here]
      exact known
    · exact List.mem_append

-- The keys come in the order of their first rows.
theorem group_precedes {u v : κ} {rows : List (κ × α)} (precedes : Precedes u v (rows.map Prod.fst)) :
    Precedes u v ((group rows).map Prod.fst) := by
  induction rows using List.reverseRec with
  | nil =>
    obtain ⟨before,after,listed,_⟩ := precedes
    simp at listed
  | append_singleton rows row ih =>
    obtain ⟨before,after,listed,absent⟩ := precedes
    rw [List.map_append] at listed
    rw [group_snoc]
    rcases Histories.split_append.mp listed with ⟨first,named,_⟩ | ⟨rest,_,first⟩
    · have unseen : v ∉ (group rows).map Prod.fst := by
        rw [mem_group,← first]
        exact absent
      rw [← named]
      split
      · rename_i known
        obtain ⟨b,a,split⟩ := List.append_of_mem known
        exact ⟨b,a,split,fun member => unseen (split ▸ List.mem_append_left _ member)⟩
      · exact ⟨_,[],rfl,unseen⟩
    · have inner := ih ⟨before,rest,first,absent⟩
      split
      · exact inner
      · exact inner.append _

-- The limit ends between left's turn and right's turn of one round.
def Splits (limit : Nat) (left right : κ) (queues : Queues κ α) : Prop :=
  ∃ round < (waitingOf right queues).length, round < (waitingOf left queues).length ∧
    ahead round left queues < limit ∧ limit ≤ ahead round right queues

instance (limit : Nat) (left right : κ) (queues : Queues κ α) : Decidable (Splits limit left right queues) :=
  inferInstanceAs (Decidable (∃ round < _, _))

-- Whoever still waits is not behind, unless the limit ended before its turn.
theorem served_level {limit : Nat} {left right : κ} {queues : Queues κ α} (distinct : (queues.map Prod.fst).Nodup)
    (even : ¬ Splits limit left right queues)
    (waits : served right (serve limit queues) < (waitingOf right queues).length) :
    served left (serve limit queues) ≤ served right (serve limit queues) := by
  by_contra behind
  have taken := (served_serve distinct left (served right (serve limit queues))).mp (Nat.not_le.mp behind)
  have missed := mt (served_serve distinct right (served right (serve limit queues))).mpr (lt_irrefl _)
  exact even ⟨_,waits,taken.1,taken.2,Nat.not_lt.mp fun before => missed ⟨waits,before⟩⟩

end RoundRobin
