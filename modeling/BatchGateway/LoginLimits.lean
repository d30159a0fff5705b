import BatchGateway.LabelledRuns
import BatchGateway.PythonText
import BatchGateway.SlidingWindow
import Mathlib.Algebra.Order.Ring.Rat

-- The portal's cap on login attempts, by client address.
namespace BatchGateway.LoginLimits
open PythonText LabelledRuns SlidingWindow

-- time.monotonic(), in seconds and exact.
abbrev Seconds := ℚ

-- The dict is a defaultdict: an address it has not seen has an empty deque.
structure LoginRateLimiter where
  attemptsPerMinute : Int
  hits : Str → List Seconds := fun _ => []

def allow (now : Seconds) (clientIp : Str) (limiter : LoginRateLimiter) : Bool × LoginRateLimiter :=
  if limiter.attemptsPerMinute ≤ 0 then (true,limiter)
  else
    let hits := prune 60 now (limiter.hits clientIp)
    if limiter.attemptsPerMinute ≤ hits.length then
      (false,{limiter with hits := Function.update limiter.hits clientIp hits})
    else (true,{limiter with hits := Function.update limiter.hits clientIp (hits ++ [now])})

-- A call of allow with its answer.
structure Call where
  clientIp : Str
  now : Seconds
  allowed : Bool

def Step (s : LoginRateLimiter) (c : Call) (t : LoginRateLimiter) : Prop := allow c.now c.clientIp s = (c.allowed,t)

def Ordered (calls : List Call) : Prop := calls.Pairwise (fun c d => c.now ≤ d.now)

def allowedTimes (clientIp : Str) (calls : List Call) : List Seconds :=
  (calls.filter (fun c => c.allowed && c.clientIp == clientIp)).map Call.now

-- The calls of an address that were allowed from one time to another.
def allowedWithin (clientIp : Str) (low high : Seconds) (calls : List Call) : Nat :=
  (within low high (allowedTimes clientIp calls)).length

structure RateLimited (attemptsPerMinute : Int) (calls : List Call) : Prop where
  refused : ∀ before c after, calls = before ++ c :: after →
    (c.allowed = false ↔ allowedWithin c.clientIp (c.now - 60) c.now before = attemptsPerMinute)
  window : ∀ clientIp low, allowedWithin clientIp low (low + 60) calls ≤ attemptsPerMinute
  -- The other calls get the same answers without a refused one, and an address gets
  -- them without all others.
  unextended : ∀ before c after, calls = before ++ c :: after → c.allowed = false →
    ∃ s, Run Step ⟨attemptsPerMinute,fun _ => []⟩ (before ++ after) s
  apart : ∀ clientIp, ∃ s, Run Step ⟨attemptsPerMinute,fun _ => []⟩ (calls.filter (fun c => c.clientIp == clientIp)) s

-- Some calls left out, of the addresses kept only refused ones.
inductive Thinned (keeps : Str → Prop) : List Call → List Call → Prop where
  | nil : Thinned keeps [] []
  | keep : Thinned keeps calls kept → keeps c.clientIp → Thinned keeps (calls ++ [c]) (kept ++ [c])
  | drop : Thinned keeps calls kept → (keeps c.clientIp → c.allowed = false) → Thinned keeps (calls ++ [c]) kept

variable {n : Int} {s t : LoginRateLimiter} {c : Call} {calls kept : List Call} {clientIp : Str}

theorem allowedTimes_append (clientIp : Str) (calls : List Call) (c : Call) :
    allowedTimes clientIp (calls ++ [c]) =
      allowedTimes clientIp calls ++ if c.allowed = true ∧ c.clientIp = clientIp then [c.now] else [] := by
  unfold allowedTimes
  rw [List.filter_append,List.map_append]
  by_cases counts : c.allowed = true ∧ c.clientIp = clientIp
  · simp [counts]
  · have skipped : (c.allowed && c.clientIp == clientIp) = false := by
      simpa [Bool.and_eq_false_iff] using counts
    simp [counts,skipped]

-- Every deque tracks its address's allowed calls.
structure Tracked (n : Int) (calls : List Call) (s : LoginRateLimiter) : Prop where
  limit : s.attemptsPerMinute = n
  hits : ∀ clientIp now, (∀ c ∈ calls, c.now ≤ now) → Tracks 60 (s.hits clientIp) (allowedTimes clientIp calls) now

theorem step_tracked (positive : 1 ≤ n) (valid : Tracked n calls s) (latest : ∀ d ∈ calls, d.now ≤ c.now)
    (step : Step s c t) : Tracked n (calls ++ [c]) t ∧
      (c.allowed = false ↔ n ≤ allowedWithin c.clientIp (c.now - 60) c.now calls) := by
  have here := valid.hits c.clientIp c.now latest
  have bounded : ¬ n ≤ 0 := Int.not_le.mpr positive
  have size : (prune 60 c.now (s.hits c.clientIp)).length = allowedWithin c.clientIp (c.now - 60) c.now calls :=
    congrArg List.length here.pruned
  have others : ∀ clientIp now, (∀ d ∈ calls ++ [c], d.now ≤ now) → c.now ≤ now ∧
      Tracks 60 (s.hits clientIp) (allowedTimes clientIp calls) now := by
    intro clientIp now after
    exact ⟨after c (List.mem_append_right _ (List.mem_singleton.mpr rfl)),
      valid.hits clientIp now fun d member => after d (List.mem_append_left _ member)⟩
  simp only [Step,allow,valid.limit,if_neg bounded,size] at step
  split at step
  · rename_i full
    obtain ⟨answer,rfl⟩ := Prod.mk.inj step
    refine ⟨⟨rfl,fun clientIp now after => ?_⟩,iff_of_true answer.symm full⟩
    obtain ⟨order,there⟩ := others clientIp now after
    rw [allowedTimes_append,← answer]
    simp only [Bool.false_eq_true,false_and,if_false,List.append_nil]
    by_cases mine : clientIp = c.clientIp
    · subst mine
      rw [Function.update_self]
      exact here.refused.wait order
    · rw [Function.update_of_ne mine]
      exact there
  · rename_i room
    obtain ⟨answer,rfl⟩ := Prod.mk.inj step
    refine ⟨⟨rfl,fun clientIp now after => ?_⟩,iff_of_false (by rw [← answer]; simp) room⟩
    obtain ⟨order,there⟩ := others clientIp now after
    rw [allowedTimes_append,← answer]
    by_cases mine : clientIp = c.clientIp
    · subst mine
      simp only [Function.update_self,and_self,if_true]
      exact here.admitted.wait order
    · simp only [Function.update_of_ne mine,Ne.symm mine,and_false,if_false,List.append_nil]
      exact there

-- The answer each call should get, by the calls before it.
def Lawful (n : Int) (calls : List Call) : Prop :=
  ∀ before c after, calls = before ++ c :: after →
    (c.allowed = false ↔ n ≤ allowedWithin c.clientIp (c.now - 60) c.now before)

theorem lawful_append : Lawful n (calls ++ [c]) ↔
    Lawful n calls ∧ (c.allowed = false ↔ n ≤ allowedWithin c.clientIp (c.now - 60) c.now calls) :=
  Histories.each_append

theorem ordered_append : Ordered (calls ++ [c]) ↔ Ordered calls ∧ ∀ d ∈ calls, d.now ≤ c.now := by
  simp [Ordered,List.pairwise_append]

theorem fresh_tracked : Tracked n [] ⟨n,fun _ => []⟩ := ⟨rfl,fun _ _ _ => tracks_nil⟩

theorem run_tracked (positive : 1 ≤ n) (path : Run Step ⟨n,fun _ => []⟩ calls s) (ordered : Ordered calls) :
    Tracked n calls s ∧ Lawful n calls := by
  induction path with
  | nil => exact ⟨fresh_tracked,fun before c after same => by simp at same⟩
  | step _ last ih =>
    obtain ⟨ordered,latest⟩ := ordered_append.mp ordered
    obtain ⟨valid,lawful⟩ := ih ordered
    obtain ⟨next,answer⟩ := step_tracked positive valid latest last
    exact ⟨next,lawful_append.mpr ⟨lawful,answer⟩⟩

-- Calls with the answers they should get are a run: allow always answers.
theorem lawful_run (positive : 1 ≤ n) (ordered : Ordered calls) (lawful : Lawful n calls) :
    ∃ s, Run Step ⟨n,fun _ => []⟩ calls s := by
  induction calls using List.reverseRecOn with
  | nil => exact ⟨_,.nil⟩
  | append_singleton calls c ih =>
    obtain ⟨earlier,latest⟩ := ordered_append.mp ordered
    obtain ⟨lawful,answer⟩ := lawful_append.mp lawful
    obtain ⟨s,path⟩ := ih earlier lawful
    have tracked := (run_tracked positive path earlier).1
    have given := (@step_tracked _ _ _ ⟨c.clientIp,c.now,(allow c.now c.clientIp s).1⟩ _ positive tracked latest rfl).2
    have same : (allow c.now c.clientIp s).1 = c.allowed := by
      have agree := given.trans answer.symm
      cases first : (allow c.now c.clientIp s).1 with
      | false => exact (agree.mp first).symm
      | true =>
        cases second : c.allowed with
        | true => rfl
        | false =>
          have none := agree.mpr second
          rw [first] at none
          cases none
    exact ⟨_,path.step (show Step s c _ from Prod.ext same rfl)⟩

theorem Thinned.times {keeps : Str → Prop} (thin : Thinned keeps calls kept) (known : keeps clientIp) :
    allowedTimes clientIp kept = allowedTimes clientIp calls := by
  induction thin with
  | nil => rfl
  | keep _ _ ih => rw [allowedTimes_append,allowedTimes_append,ih]
  | @drop calls kept c _ left ih =>
    have skipped : ¬ (c.allowed = true ∧ c.clientIp = clientIp) := by
      rintro ⟨allowed,rfl⟩
      rw [left known] at allowed
      cases allowed
    rw [allowedTimes_append,if_neg skipped,List.append_nil,ih]

theorem Thinned.sublist {keeps : Str → Prop} (thin : Thinned keeps calls kept) : kept.Sublist calls := by
  induction thin with
  | nil => exact .slnil
  | keep _ _ ih => exact ih.append (.refl _)
  | drop _ _ ih => exact ih.trans (List.sublist_append_left _ _)

theorem Thinned.lawful {keeps : Str → Prop} (thin : Thinned keeps calls kept) (lawful : Lawful n calls) :
    Lawful n kept := by
  induction thin with
  | nil => exact lawful
  | keep thin known ih =>
    obtain ⟨lawful,answer⟩ := lawful_append.mp lawful
    refine lawful_append.mpr ⟨ih lawful,?_⟩
    unfold allowedWithin at answer ⊢
    rw [thin.times known]
    exact answer
  | drop _ _ ih => exact ih (lawful_append.mp lawful).1

-- So the calls kept get the answers they got.
theorem Thinned.run {keeps : Str → Prop} (thin : Thinned keeps calls kept) (positive : 1 ≤ n) (ordered : Ordered calls)
    (lawful : Lawful n calls) : ∃ s, Run Step ⟨n,fun _ => []⟩ kept s :=
  lawful_run positive (ordered.sublist thin.sublist) (thin.lawful lawful)

theorem thinned_self (calls : List Call) : Thinned (fun _ => True) calls calls := by
  induction calls using List.reverseRecOn with
  | nil => exact .nil
  | append_singleton calls c ih => exact ih.keep trivial

theorem thinned_refused (before after : List Call) (refused : c.allowed = false) :
    Thinned (fun _ => True) (before ++ c :: after) (before ++ after) := by
  induction after using List.reverseRecOn with
  | nil =>
    rw [List.append_nil]
    exact (thinned_self before).drop fun _ => refused
  | append_singleton after d ih =>
    rw [← List.cons_append,← List.append_assoc,← List.append_assoc]
    exact ih.keep trivial

theorem thinned_address (clientIp : Str) (calls : List Call) :
    Thinned (fun other => other = clientIp) calls (calls.filter (fun c => c.clientIp == clientIp)) := by
  induction calls using List.reverseRecOn with
  | nil => exact .nil
  | append_singleton calls c ih =>
    rw [List.filter_append]
    by_cases mine : c.clientIp = clientIp
    · rw [List.filter_cons_of_pos (by simpa using mine),List.filter_nil]
      exact ih.keep mine
    · rw [List.filter_cons_of_neg (by simpa using mine),List.filter_nil,List.append_nil]
      exact ih.drop fun same => absurd same mine

-- The allowed calls of an address, in order and with room before each.
theorem allowed_spaced (ordered : Ordered calls) (lawful : Lawful n calls) (clientIp : Str) :
    (allowedTimes clientIp calls).Pairwise (· ≤ ·) ∧ Spaced 60 n.toNat (allowedTimes clientIp calls) := by
  induction calls using List.reverseRecOn with
  | nil => exact ⟨.nil,fun before t after same => by simp [allowedTimes] at same⟩
  | append_singleton calls c ih =>
    obtain ⟨earlier,latest⟩ := ordered_append.mp ordered
    obtain ⟨lawful,answer⟩ := lawful_append.mp lawful
    obtain ⟨sorted,spaced⟩ := ih earlier lawful
    rw [allowedTimes_append]
    by_cases counts : c.allowed = true ∧ c.clientIp = clientIp
    · obtain ⟨allowed,rfl⟩ := counts
      have room : ¬ n ≤ allowedWithin c.clientIp (c.now - 60) c.now calls := by
        rw [← answer,allowed]
        simp
      rw [if_pos ⟨allowed,rfl⟩]
      refine ⟨List.pairwise_append.mpr ⟨sorted,List.pairwise_singleton _ _,fun t member last single => ?_⟩,
        spaced_append.mpr ⟨spaced,?_⟩⟩
      · rw [List.mem_singleton.mp single]
        obtain ⟨d,inside,rfl⟩ := List.mem_map.mp member
        exact latest d (List.mem_filter.mp inside).1
      · unfold allowedWithin at room
        omega
    · rw [if_neg counts,List.append_nil]
      exact ⟨sorted,spaced⟩

theorem allowed_bound (positive : 1 ≤ n) (ordered : Ordered calls) (lawful : Lawful n calls) (clientIp : Str)
    (low : Seconds) : allowedWithin clientIp low (low + 60) calls ≤ n := by
  obtain ⟨sorted,spaced⟩ := allowed_spaced ordered lawful clientIp
  have bound : allowedWithin clientIp low (low + 60) calls ≤ n.toNat := window_bound sorted spaced low
  omega

-- Every sequence of calls at times that do not go back is limited.
theorem login_rate_limited (positive : 1 ≤ n) (path : Run Step ⟨n,fun _ => []⟩ calls s) (ordered : Ordered calls) :
    RateLimited n calls := by
  have lawful := (run_tracked positive path ordered).2
  refine ⟨fun before c after same => ?_,allowed_bound positive ordered lawful,fun before c after same refused => ?_,
    fun clientIp => ?_⟩
  · subst same
    have law : Lawful n before := fun x d y same => lawful x d (y ++ c :: after) (by rw [same,List.append_assoc]; rfl)
    have bound := allowed_bound positive (ordered.sublist (List.sublist_append_left _ _)) law c.clientIp (c.now - 60)
    rw [sub_add_cancel] at bound
    rw [lawful before c after rfl]
    omega
  · subst same
    exact (thinned_refused before after refused).run positive ordered lawful
  · exact (thinned_address clientIp calls).run positive ordered lawful

-- One attempt a minute: still refused after sixty seconds, not a moment later, whatever
-- another address is answered in between.
def minuteCalls : List Call :=
  [⟨text "10.0.0.1",0,true⟩,⟨text "10.0.0.2",30,true⟩,⟨text "10.0.0.1",60,false⟩,⟨text "10.0.0.1",121/2,true⟩,
    ⟨text "10.0.0.2",61,false⟩]

theorem asked (given : (allow c.now c.clientIp s).1 = c.allowed) : Step s c (allow c.now c.clientIp s).2 :=
  Prod.ext given rfl

theorem login_rate_limited_minute : RateLimited 1 minuteCalls := by
  have path : Run Step ⟨1,fun _ => []⟩ minuteCalls _ :=
    ((((Run.nil.step (asked (by decide +kernel))).step (asked (by decide +kernel))).step (asked (by decide +kernel))).step
      (asked (by decide +kernel))).step (asked (by decide +kernel))
  exact login_rate_limited (le_refl 1) path (by unfold Ordered; decide +kernel)

end BatchGateway.LoginLimits
