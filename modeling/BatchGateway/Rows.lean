import Mathlib.Algebra.BigOperators.Group.List.Basic
import Mathlib.Data.List.Basic
import Mathlib.Data.List.Induction
import Mathlib.Data.List.Nodup
import Mathlib.Tactic.Abel

-- Tables as lists: a row's position is its primary key, so keys are unique and
-- an insert appends. An update by key is `List.modify`.
namespace Rows
variable {ρ κ : Type} {M : Type} [AddCommMonoid M]

theorem modify_cons_zero (row : ρ) (rows : List ρ) (f : ρ → ρ) :
    (row :: rows).modify 0 f = f row :: rows := rfl

theorem modify_cons_succ (row : ρ) (rows : List ρ) (i : Nat) (f : ρ → ρ) :
    (row :: rows).modify (i+1) f = row :: rows.modify i f := rfl

-- A total over the table moves by the new row's share minus the old row's,
-- stated without subtraction.
theorem sum_modify {rows : List ρ} {i : Nat} {row : ρ} (found : rows[i]? = some row)
    (f : ρ → ρ) (g : ρ → M) :
    ((rows.modify i f).map g).sum + g row = (rows.map g).sum + g (f row) := by
  induction rows generalizing i with
  | nil => simp at found
  | cons head tail ih =>
    cases i with
    | zero =>
      simp only [List.getElem?_cons_zero,Option.some.injEq] at found
      subst found
      simp only [modify_cons_zero,List.map_cons,List.sum_cons]
      abel
    | succ i =>
      have inner := ih (by simpa using found)
      simp only [modify_cons_succ,List.map_cons,List.sum_cons]
      rw [add_assoc,inner,add_assoc]

theorem sum_modify_same {rows : List ρ} {i : Nat} (f : ρ → ρ) (g : ρ → M)
    (same : ∀ row, rows[i]? = some row → g (f row) = g row) :
    ((rows.modify i f).map g).sum = (rows.map g).sum := by
  induction rows generalizing i with
  | nil => simp
  | cons head tail ih =>
    cases i with
    | zero => simp [same head (by simp)]
    | succ i =>
      simp only [modify_cons_succ,List.map_cons,List.sum_cons]
      rw [ih (fun row found => same row (by simpa using found))]

theorem countP_modify {rows : List ρ} {i : Nat} {row : ρ} (found : rows[i]? = some row)
    (f : ρ → ρ) (p : ρ → Bool) :
    (rows.modify i f).countP p + (if p row then 1 else 0) = rows.countP p + (if p (f row) then 1 else 0) := by
  have counted : ∀ rows : List ρ, rows.countP p = (rows.map (fun row => if p row then 1 else 0)).sum := by
    intro rows
    induction rows with
    | nil => rfl
    | cons head tail ih => rw [List.countP_cons,List.map_cons,List.sum_cons,ih,Nat.add_comm]
  rw [counted,counted]
  exact sum_modify found f (fun row => if p row then 1 else 0)

theorem mem_modify {rows : List ρ} {i : Nat} {f : ρ → ρ} {row : ρ} (member : row ∈ rows.modify i f) :
    row ∈ rows ∨ ∃ old, rows[i]? = some old ∧ row = f old := by
  obtain ⟨j,found⟩ := List.mem_iff_getElem?.mp member
  rw [List.getElem?_modify] at found
  cases old : rows[j]? with
  | none => simp [old] at found
  | some before =>
    simp only [old,Option.map_eq_map,Option.map_some,Option.some.injEq] at found
    split at found
    · rename_i same
      exact .inr ⟨before,by rw [same]; exact old,found.symm⟩
    · exact .inl (List.mem_of_getElem? (found ▸ old))

theorem getElem?_modify_self {rows : List ρ} {i : Nat} {row : ρ} (found : rows[i]? = some row) (f : ρ → ρ) :
    (rows.modify i f)[i]? = some (f row) := by simp [found]

theorem getElem?_modify_other {rows : List ρ} {i j : Nat} (different : i ≠ j) (f : ρ → ρ) :
    (rows.modify i f)[j]? = rows[j]? := by
  rw [List.getElem?_modify]
  cases rows[j]? <;> simp [different]

theorem modify_congr {rows : List ρ} {i : Nat} {row : ρ} (found : rows[i]? = some row) {f g : ρ → ρ}
    (same : f row = g row) : rows.modify i f = rows.modify i g := by
  apply List.ext_getElem?
  intro j
  rw [List.getElem?_modify,List.getElem?_modify]
  by_cases here : i = j
  · subst here
    simp [found,same]
  · simp [here]

-- A column no update touches.
theorem map_modify_same {rows : List ρ} {i : Nat} {f : ρ → ρ} {g : ρ → κ} (same : ∀ row, g (f row) = g row) :
    (rows.modify i f).map g = rows.map g := by
  induction rows generalizing i with
  | nil => simp
  | cons head tail ih =>
    cases i with
    | zero => simp [same]
    | succ i => simp [ih]

theorem sum_filter (rows : List ρ) (p : ρ → Bool) (g : ρ → M) :
    ((rows.filter p).map g).sum = (rows.map (fun row => if p row then g row else 0)).sum := by
  induction rows with
  | nil => simp
  | cons head tail ih => cases chosen : p head <;> simp [chosen,ih]

-- A column no update by position touches.
theorem map_mapIdx_same {rows : List ρ} {f : Nat → ρ → ρ} {g : ρ → κ}
    (same : ∀ i row, rows[i]? = some row → g (f i row) = g row) : (rows.mapIdx f).map g = rows.map g := by
  apply List.ext_getElem?
  intro i
  simp only [List.getElem?_map,List.getElem?_mapIdx,Option.map_map]
  cases found : rows[i]? with
  | none => rfl
  | some row => simpa using same i row found

theorem map_eq_mapIdx (f : ρ → κ) (rows : List ρ) : rows.map f = rows.mapIdx (fun _ => f) := by
  apply List.ext_getElem?
  simp

-- A counter that goes up by one in the chosen rows.
theorem sum_mapIdx_chosen {rows : List ρ} {f : Nat → ρ → ρ} {g : ρ → Nat} (chosen : Nat → ρ → Bool)
    (moved : ∀ i row, rows[i]? = some row → g (f i row) = g row + if chosen i row then 1 else 0) :
    ((rows.mapIdx f).map g).sum = (rows.map g).sum + (rows.zipIdx.filter (fun r => chosen r.2 r.1)).length := by
  induction rows using List.reverseRec with
  | nil => rfl
  | append_singleton rows row ih =>
    have last := moved rows.length row (by simp)
    have prior := ih fun i old found => moved i old (by
      rw [List.getElem?_append_left (List.getElem?_eq_some_iff.mp found).choose]
      exact found)
    rw [List.mapIdx_append,List.map_append,List.sum_append,List.map_append,List.sum_append,prior,List.zipIdx_append,
      List.filter_append,List.length_append]
    cases picked : chosen rows.length row <;> simp [picked] at last ⊢ <;> omega

-- Rows selected together with their positions.
-- A unique column leads to its row.
theorem find?_unique [BEq κ] [LawfulBEq κ] {rows : List ρ} {column : ρ → κ} (distinct : (rows.map column).Nodup)
    {row : ρ} (member : row ∈ rows) : rows.find? (fun r => column r == column row) = some row := by
  cases found : rows.find? (fun r => column r == column row) with
  | none =>
    have missed := List.find?_eq_none.mp found row member
    exact absurd (beq_self_eq_true (column row)) missed
  | some other =>
    have same : column other = column row := by simpa using List.find?_some found
    exact congrArg some (List.inj_on_of_nodup_map distinct (List.mem_of_find?_eq_some found) member same)

theorem mem_selected {rows : List ρ} {p : ρ → Bool} {i : Nat} :
    i ∈ (rows.zipIdx.filter (fun row => p row.1)).map Prod.snd ↔ ∃ row, rows[i]? = some row ∧ p row = true := by
  simp only [List.mem_map,List.mem_filter,Prod.exists,exists_eq_right,List.mk_mem_zipIdx_iff_getElem?]

-- Each selected row has a place of its own.
theorem selected_distinct (rows : List ρ) (p : ρ × Nat → Bool) : ((rows.zipIdx.filter p).map Prod.snd).Nodup := by
  refine (List.filter_sublist.map Prod.snd).nodup ?_
  rw [List.zipIdx_map_snd]
  exact List.nodup_range'

theorem map_selected (rows : List ρ) (p : ρ → Bool) (g : ρ → κ) :
    (rows.zipIdx.filter (fun row => p row.1)).map (fun row => g row.1) = (rows.filter p).map g := by
  have positions : ∀ start, ((rows.zipIdx start).filter (fun row => p row.1)).map (fun row => g row.1) =
      (rows.filter p).map g := by
    induction rows with
    | nil => intro start; rfl
    | cons head tail ih =>
      intro start
      cases chosen : p head <;> simp [chosen,ih]
  exact positions 0

-- A selection that no change between two tables touches.
theorem selected_same {rows later : List ρ} {p : ρ → Bool}
    (kept : ∀ (i : Nat) row, rows[i]? = some row → ∃ next, later[i]? = some next ∧
      (p row = true ∨ p next = true → next = row))
    (added : ∀ (i : Nat) next, rows.length ≤ i → later[i]? = some next → p next = false) :
    later.zipIdx.filter (fun row => p row.1) = rows.zipIdx.filter (fun row => p row.1) := by
  have positions : ∀ start, (later.zipIdx start).filter (fun row => p row.1) =
      (rows.zipIdx start).filter (fun row => p row.1) := by
    induction rows generalizing later with
    | nil =>
      intro start
      refine List.filter_eq_nil_iff.mpr fun row member => ?_
      obtain ⟨i,there⟩ := List.mem_iff_getElem?.mp (List.fst_mem_of_mem_zipIdx member)
      simp [added i row.1 (Nat.zero_le _) there]
    | cons head tail ih =>
      intro start
      obtain ⟨next,first,same⟩ := kept 0 head rfl
      cases later with
      | nil => cases first
      | cons other rest =>
        cases first
        have inner := @ih rest (fun i row found => kept (i+1) row found)
          (fun i row far found => added (i+1) row (Nat.succ_le_succ far) found) (start + 1)
        simp only [List.zipIdx_cons,List.filter_cons,inner]
        cases before : p head with
        | true => rw [same (.inl before),before]
        | false =>
          cases after : p next with
          | true => rw [same (.inr after),before] at after; cases after
          | false => rfl
  exact positions 0

-- Two tables that have the same rows of a kind, in the same places.
theorem selected_iff {rows later : List ρ} {p : ρ → Bool}
    (same : ∀ (i : Nat) row, p row = true → (later[i]? = some row ↔ rows[i]? = some row)) :
    later.zipIdx.filter (fun row => p row.1) = rows.zipIdx.filter (fun row => p row.1) := by
  have empty : ∀ {table : List ρ}, (∀ (i : Nat) row, p row = true → table[i]? ≠ some row) → ∀ start,
      (table.zipIdx start).filter (fun row => p row.1) = [] := by
    intro table nowhere start
    refine List.filter_eq_nil_iff.mpr fun row member chosen => ?_
    obtain ⟨i,there⟩ := List.mem_iff_getElem?.mp (List.fst_mem_of_mem_zipIdx member)
    exact nowhere i row.1 chosen there
  have positions : ∀ start, (later.zipIdx start).filter (fun row => p row.1) =
      (rows.zipIdx start).filter (fun row => p row.1) := by
    induction rows generalizing later with
    | nil =>
      intro start
      refine empty (fun i row chosen found => ?_) start
      cases (same i row chosen).mp found
    | cons head tail ih =>
      intro start
      cases later with
      | nil =>
        refine (empty (fun i row chosen found => ?_) start).symm
        cases (same i row chosen).mpr found
      | cons other rest =>
        have inner := @ih rest (fun i row chosen => same (i+1) row chosen) (start + 1)
        have heads : p head = true ∨ p other = true → other = head := by
          intro chosen
          rcases chosen with before | after
          · exact Option.some.inj ((same 0 head before).mpr rfl)
          · exact (Option.some.inj ((same 0 other after).mp rfl)).symm
        simp only [List.zipIdx_cons,List.filter_cons,inner]
        by_cases chosen : p head = true ∨ p other = true
        · rw [heads chosen]
        · obtain ⟨before,after⟩ := not_or.mp chosen
          rw [if_neg before,if_neg after]
  exact positions 0

section Grouping
variable [DecidableEq κ]

-- SELECT key, coalesce(sum(value), 0) .. GROUP BY key, as a dict.
def groupSum (rows : List (κ × M)) : List (κ × M) :=
  (rows.map Prod.fst).eraseDups.map (fun key => (key,((rows.filter (fun r => r.1 == key)).map Prod.snd).sum))

def getOrZero (dict : List (κ × M)) (key : κ) : M := ((dict.find? (fun r => r.1 == key)).map Prod.snd).getD 0

theorem getOrZero_groupSum (rows : List (κ × M)) (key : κ) :
    getOrZero (groupSum rows) key = ((rows.filter (fun r => r.1 == key)).map Prod.snd).sum := by
  unfold getOrZero groupSum
  rw [List.find?_map]
  by_cases present : key ∈ rows.map Prod.fst
  · have found : (rows.map Prod.fst).eraseDups.find? (fun k => k == key) = some key := by
      cases first : (rows.map Prod.fst).eraseDups.find? (fun k => k == key) with
      | none =>
        have absent := List.find?_eq_none.mp first key (List.mem_eraseDups.mpr present)
        simp at absent
      | some other =>
        have same : (other == key) = true := List.find?_some (p := fun k => k == key) first
        rw [eq_of_beq same]
    simp only [Function.comp_def,found,Option.map_some,Option.getD_some]
  · have missing : (rows.map Prod.fst).eraseDups.find? (fun k => k == key) = none := by
      refine List.find?_eq_none.mpr fun k member same => present ?_
      rw [← eq_of_beq same]
      exact List.mem_eraseDups.mp member
    have empty : rows.filter (fun r => r.1 == key) = [] := by
      refine List.filter_eq_nil_iff.mpr fun r member same => present ?_
      rw [← eq_of_beq same]
      exact List.mem_map_of_mem member
    simp only [Function.comp_def,missing,empty,Option.map_none,Option.getD_none,List.map_nil,List.sum_nil]

theorem sum_single {keys : List κ} (distinct : keys.Nodup) (key : κ) (value : M) :
    (keys.map (fun k => if key = k then value else 0)).sum = if key ∈ keys then value else 0 := by
  induction keys with
  | nil => simp
  | cons k rest ih =>
    have fresh := List.nodup_cons.mp distinct
    rw [List.map_cons,List.sum_cons,ih fresh.2]
    by_cases here : key = k
    · subst here
      simp [fresh.1]
    · simp [here]

-- A total over the table, group by group.
theorem sum_groups {rows : List ρ} {keys : List κ} (key : ρ → κ) (g : ρ → M) (distinct : keys.Nodup)
    (listed : ∀ row ∈ rows, key row ∈ keys) :
    (keys.map (fun k => ((rows.filter (fun row => key row == k)).map g).sum)).sum = (rows.map g).sum := by
  induction rows with
  | nil => simp
  | cons head tail ih =>
    have rest := ih (fun row member => listed row (List.mem_cons_of_mem _ member))
    have split : ∀ k, (((head :: tail).filter (fun row => key row == k)).map g).sum =
        (if key head = k then g head else 0) + ((tail.filter (fun row => key row == k)).map g).sum := by
      intro k
      by_cases same : key head = k <;> simp [same]
    simp only [split]
    rw [List.sum_map_add,rest,sum_single distinct,if_pos (listed head List.mem_cons_self),List.map_cons,List.sum_cons]

end Grouping

end Rows
