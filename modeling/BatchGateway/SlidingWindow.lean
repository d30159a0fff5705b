import BatchGateway.Histories
import Mathlib.Algebra.Order.Group.Defs
import Mathlib.Data.List.Induction

-- A queue of times, pruned from its front, and the times of the last while.
namespace SlidingWindow
variable {τ : Type} [AddCommGroup τ] [LinearOrder τ]

def expired (width now hit : τ) : Bool := decide (width < now - hit)

-- `while hits and now - hits[0] > width: hits.popleft()`
def prune (width now : τ) (hits : List τ) : List τ := hits.dropWhile (expired width now)

def within (low high : τ) (times : List τ) : List τ := times.filter (fun t => decide (low ≤ t ∧ t ≤ high))

-- At any later look the queue and the times agree on the last width.
structure Tracks (width : τ) (hits times : List τ) (now : τ) : Prop where
  sorted : hits.Pairwise (· ≤ ·)
  queued : ∀ hit ∈ hits, hit ≤ now
  past : ∀ t ∈ times, t ≤ now
  agree : ∀ later, now ≤ later →
    hits.filter (fun hit => !expired width later hit) = times.filter (fun t => !expired width later t)

-- Fewer than the limit of earlier times stand in the window that ends at each time.
def Spaced (width : τ) (limit : Nat) (times : List τ) : Prop :=
  ∀ before t after, times = before ++ t :: after → (within (t - width) t before).length < limit

variable {width now later : τ} {hits times : List τ} {limit : Nat}

theorem tracks_nil : Tracks width ([] : List τ) [] now where
  sorted := .nil
  queued _ member := by cases member
  past _ member := by cases member
  agree _ _ := rfl

theorem Tracks.wait (tracks : Tracks width hits times now) (order : now ≤ later) : Tracks width hits times later where
  sorted := tracks.sorted
  queued hit member := (tracks.queued hit member).trans order
  past t member := (tracks.past t member).trans order
  agree last after := tracks.agree last (order.trans after)

omit [AddCommGroup τ] in
theorem within_le {low high low' high' : τ} (subset : ∀ t ∈ times, low ≤ t → t ≤ high → low' ≤ t ∧ t ≤ high') :
    (within low high times).length ≤ (within low' high' times).length := by
  unfold within
  rw [← List.countP_eq_length_filter,← List.countP_eq_length_filter]
  refine List.countP_mono_left fun t member inside => ?_
  simp only [decide_eq_true_eq] at inside ⊢
  exact subset t member inside.1 inside.2

omit [AddCommGroup τ] in
theorem within_append {low high t : τ} : (within low high (times ++ [t])).length =
    (within low high times).length + if low ≤ t ∧ t ≤ high then 1 else 0 := by
  unfold within
  rw [List.filter_append,List.length_append]
  by_cases inside : low ≤ t ∧ t ≤ high
  · simp [inside]
  · simp [inside]

theorem spaced_append {t : τ} :
    Spaced width limit (times ++ [t]) ↔ Spaced width limit times ∧ (within (t - width) t times).length < limit :=
  Histories.each_append (P := fun before t => (within (t - width) t before).length < limit)

variable [IsOrderedAddMonoid τ]

theorem expired_mono {first second : τ} (older : first ≤ second) (gone : expired width now second = true) :
    expired width now first = true := by
  simp only [expired,decide_eq_true_eq] at gone ⊢
  exact lt_of_lt_of_le gone (sub_le_sub_left older now)

theorem expired_later {hit : τ} (order : now ≤ later) (gone : expired width now hit = true) :
    expired width later hit = true := by
  simp only [expired,decide_eq_true_eq] at gone ⊢
  exact lt_of_lt_of_le gone (sub_le_sub_right order hit)

-- In a sorted queue the front holds all that has expired.
theorem prune_filter (sorted : hits.Pairwise (· ≤ ·)) :
    prune width now hits = hits.filter (fun hit => !expired width now hit) := by
  induction hits with
  | nil => rfl
  | cons hit rest ih =>
    obtain ⟨first,sorted⟩ := List.pairwise_cons.mp sorted
    cases gone : expired width now hit with
    | true =>
      simp only [prune,List.dropWhile_cons,gone,if_true] at ih ⊢
      simpa [gone] using ih sorted
    | false =>
      have stays : ∀ other ∈ hit :: rest, (!expired width now other) = true := by
        intro other member
        cases old : expired width now other with
        | false => rfl
        | true =>
          rcases List.mem_cons.mp member with rfl | inside
          · rw [gone] at old
            cases old
          · have earlier := expired_mono (first other inside) old
            rw [gone] at earlier
            cases earlier
      rw [List.filter_eq_self.mpr stays]
      simp [prune,gone]

-- What has not expired now stands in the window that ends now.
theorem within_now (past : ∀ t ∈ times, t ≤ now) :
    within (now - width) now times = times.filter (fun t => !expired width now t) := by
  refine List.filter_congr fun t member => ?_
  simp only [expired,past t member,and_true,← decide_not,not_lt]
  exact decide_eq_decide.mpr sub_le_comm

theorem filter_later (order : now ≤ later) (times : List τ) :
    (times.filter (fun t => !expired width now t)).filter (fun t => !expired width later t) =
      times.filter (fun t => !expired width later t) := by
  rw [List.filter_filter]
  refine List.filter_congr fun t _ => ?_
  cases gone : expired width now t with
  | false => simp
  | true => simp [expired_later order gone]

theorem Tracks.pruned (tracks : Tracks width hits times now) :
    prune width now hits = within (now - width) now times := by
  rw [prune_filter tracks.sorted,within_now tracks.past,tracks.agree now le_rfl]

theorem Tracks.refused (tracks : Tracks width hits times now) : Tracks width (prune width now hits) times now where
  sorted := by
    rw [prune_filter tracks.sorted]
    exact tracks.sorted.filter _
  queued hit member := by
    rw [prune_filter tracks.sorted] at member
    exact tracks.queued hit (List.mem_filter.mp member).1
  past := tracks.past
  agree later order := by
    rw [prune_filter tracks.sorted,filter_later order]
    exact tracks.agree later order

theorem Tracks.admitted (tracks : Tracks width hits times now) :
    Tracks width (prune width now hits ++ [now]) (times ++ [now]) now where
  sorted := by
    refine List.pairwise_append.mpr ⟨tracks.refused.sorted,List.pairwise_singleton _ _,fun hit member last single => ?_⟩
    rw [List.mem_singleton.mp single]
    exact tracks.refused.queued hit member
  queued hit member := by
    rcases List.mem_append.mp member with old | new
    · exact tracks.refused.queued hit old
    · exact (List.mem_singleton.mp new).le
  past t member := by
    rcases List.mem_append.mp member with old | new
    · exact tracks.past t old
    · exact (List.mem_singleton.mp new).le
  agree later order := by
    rw [List.filter_append,List.filter_append,tracks.refused.agree later order]

-- The last time of a window has all its others before it.
theorem window_bound (sorted : times.Pairwise (· ≤ ·)) (spaced : Spaced width limit times) (low : τ) :
    (within low (low + width) times).length ≤ limit := by
  induction times using List.reverseRecOn with
  | nil => exact Nat.zero_le _
  | append_singleton times t ih =>
    obtain ⟨earlier,_,before⟩ := List.pairwise_append.mp sorted
    obtain ⟨spaced,last⟩ := spaced_append.mp spaced
    have rest := ih earlier spaced
    rw [within_append]
    by_cases inside : low ≤ t ∧ t ≤ low + width
    · have fewer : (within low (low + width) times).length ≤ (within (t - width) t times).length := by
        refine within_le fun u member above _ => ⟨?_,before u member t (List.mem_singleton.mpr rfl)⟩
        exact (sub_le_iff_le_add.mpr inside.2).trans above
      rw [if_pos inside]
      exact Nat.succ_le_of_lt (lt_of_le_of_lt fewer last)
    · rw [if_neg inside]
      exact rest

end SlidingWindow
