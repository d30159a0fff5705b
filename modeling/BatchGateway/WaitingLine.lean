import Mathlib.Algebra.Order.BigOperators.Group.List
import Mathlib.Data.List.Basic

-- Work that waits in order of arrival.
namespace WaitingLine

section
variable {ι τ : Type} [LinearOrder τ]

def before (arrival : ι → τ) (line : List ι) (t : τ) : List ι := line.filter (fun i => decide (arrival i < t))

variable {arrival : ι → τ} {line : List ι} {s t : τ} {i : ι}

theorem before_perm (arrival : ι → τ) (line : List ι) (earlier : s ≤ t) :
    (before arrival line s ++ line.filter (fun i => decide (s ≤ arrival i ∧ arrival i < t))).Perm (before arrival line t) := by
  have parts := List.filter_append_perm (fun i => decide (arrival i < s)) (before arrival line t)
  unfold before at parts ⊢
  rw [List.filter_filter,List.filter_filter] at parts
  have first : line.filter (fun i => decide (arrival i < s) && decide (arrival i < t)) =
      line.filter (fun i => decide (arrival i < s)) := by
    refine List.filter_congr fun i _ => ?_
    by_cases sooner : arrival i < s
    · simp [sooner,sooner.trans_le earlier]
    · simp [sooner]
  have second : line.filter (fun i => !decide (arrival i < s) && decide (arrival i < t)) =
      line.filter (fun i => decide (s ≤ arrival i ∧ arrival i < t)) := by
    refine List.filter_congr fun i _ => ?_
    simp [← not_lt]
  rwa [first,second] at parts

-- Who arrives later has more before it.
theorem length_later (arrival : ι → τ) (listed : i ∈ line) (earlier : arrival i < t) :
    (before arrival line (arrival i)).length < (before arrival line t).length := by
  rw [← (before_perm arrival line earlier.le).length_eq,List.length_append]
  have waits : i ∈ line.filter (fun j => decide (arrival i ≤ arrival j ∧ arrival j < t)) :=
    List.mem_filter.mpr ⟨listed,by simpa using earlier⟩
  have present := List.length_pos_of_mem waits
  omega

end

section
variable {ι M : Type} [AddCommMonoid M] [PartialOrder M] [IsOrderedAddMonoid M]

def load (work : ι → M) (line : List ι) : M := (line.map work).sum

variable {work : ι → M} {line : List ι} {i : ι}

theorem load_nonnegative (size : ∀ i ∈ line, 0 ≤ work i) : 0 ≤ load work line := by
  refine List.sum_nonneg fun x listed => ?_
  obtain ⟨i,member,rfl⟩ := List.mem_map.mp listed
  exact size i member

theorem load_lighter {lighter : ι → M} (less : ∀ i ∈ line, lighter i ≤ work i) : load lighter line ≤ load work line :=
  List.sum_le_sum less

-- A later line whose places were in the line before, and no heavier.
theorem load_covered {first later : List ι} {lighter : ι → M} (size : ∀ i ∈ first, 0 ≤ work i)
    (covered : ∀ (n : Nat) i, later[n]? = some i → lighter i ≤ (first[n]?.map work).getD 0) : load lighter later ≤ load work first := by
  induction later generalizing first with
  | nil => exact load_nonnegative size
  | cons i later ih =>
    cases first with
    | nil =>
      have rest := @ih [] size fun n j there => covered (n+1) j there
      exact add_nonpos (covered 0 i rfl) rest
    | cons j first =>
      have rest := @ih first (fun k member => size k (List.mem_cons_of_mem j member)) fun n k there => covered (n+1) k there
      exact add_le_add (covered 0 i rfl) rest

variable {τ : Type} [LinearOrder τ] {arrival : ι → τ} {t : τ}

-- The work before a later arrival includes what was before an earlier one, and its own.
theorem load_later (work : ι → M) (arrival : ι → τ) (size : ∀ j ∈ line, 0 ≤ work j) (listed : i ∈ line) (earlier : arrival i < t) :
    load work (before arrival line (arrival i)) + work i ≤ load work (before arrival line t) := by
  have whole := ((before_perm arrival line earlier.le).map work).sum_eq
  rw [List.map_append,List.sum_append] at whole
  rw [load,load,← whole]
  refine add_le_add_right ?_ _
  have waits : i ∈ line.filter (fun j => decide (arrival i ≤ arrival j ∧ arrival j < t)) :=
    List.mem_filter.mpr ⟨listed,by simpa using earlier⟩
  refine List.single_le_sum (fun x share => ?_) _ (List.mem_map_of_mem waits)
  obtain ⟨j,member,rfl⟩ := List.mem_map.mp share
  exact size j (List.mem_filter.mp member).1

end

end WaitingLine
