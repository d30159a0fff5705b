import Mathlib.Algebra.Order.Field.Basic
import Mathlib.Tactic.Linarith

-- An exponentially weighted average, and the range of what it has averaged.
namespace RunningAverages
variable {k : Type} [Field k] [LinearOrder k]

-- The first sample is the average.
def next (alpha sample : k) : Option k → k
  | none => sample
  | some average => alpha * sample + (1 - alpha) * average

-- From the least of the samples to the greatest.
def Within (samples : List k) (average : k) : Prop := (∃ x ∈ samples, x ≤ average) ∧ ∃ y ∈ samples, average ≤ y

structure Averages (samples : List k) (average : Option k) : Prop where
  unset : average = none ↔ samples = []
  within : ∀ a, average = some a → Within samples a

variable {alpha sample average : k} {samples : List k} {held : Option k}

omit [Field k] in
theorem averages_nil : Averages ([] : List k) none := ⟨iff_of_true rfl rfl,fun _ set => by cases set⟩

omit [Field k] in
theorem within_last : Within (samples ++ [sample]) sample := by
  have last : sample ∈ samples ++ [sample] := List.mem_append_right _ (List.mem_singleton.mpr rfl)
  exact ⟨⟨sample,last,le_rfl⟩,sample,last,le_rfl⟩

theorem Within.positive (between : Within samples average) (positive : ∀ x ∈ samples, 0 < x) : 0 < average := by
  obtain ⟨⟨x,inside,below⟩,_⟩ := between
  exact (positive x inside).trans_le below

variable [IsStrictOrderedRing k]

theorem Within.blend (low : 0 ≤ alpha) (high : alpha ≤ 1) (between : Within samples average) :
    Within (samples ++ [sample]) (alpha * sample + (1 - alpha) * average) := by
  obtain ⟨⟨x,least,below⟩,y,greatest,above⟩ := between
  have kept : ∀ {z}, z ∈ samples → z ∈ samples ++ [sample] := fun inside => List.mem_append_left _ inside
  have last : sample ∈ samples ++ [sample] := List.mem_append_right _ (List.mem_singleton.mpr rfl)
  have rest : 0 ≤ 1 - alpha := sub_nonneg.mpr high
  rcases le_total sample average with less | more
  · -- The blend lies between the new sample and the old average.
    have gap : 0 ≤ average - sample := sub_nonneg.mpr less
    have down := mul_nonneg low gap
    have up := mul_nonneg rest gap
    exact ⟨⟨sample,last,by linarith⟩,y,kept greatest,by linarith⟩
  · have gap : 0 ≤ sample - average := sub_nonneg.mpr more
    have down := mul_nonneg rest gap
    have up := mul_nonneg low gap
    exact ⟨⟨x,kept least,by linarith⟩,sample,last,by linarith⟩

theorem Averages.sampled (low : 0 ≤ alpha) (high : alpha ≤ 1) (valid : Averages samples held) :
    Averages (samples ++ [sample]) (some (next alpha sample held)) := by
  refine ⟨iff_of_false (by simp) (by simp),fun a set => ?_⟩
  cases set
  cases held with
  | none => exact within_last
  | some average => exact (valid.within average rfl).blend low high

end RunningAverages
