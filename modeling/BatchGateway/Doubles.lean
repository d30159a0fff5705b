import Mathlib.Data.Int.Log
import Mathlib.Data.Rat.Floor
import Mathlib.Tactic.Linarith
import Mathlib.Tactic.FieldSimp
import Mathlib.Tactic.Positivity
import Mathlib.Tactic.Ring

-- Binary numbers of a fixed precision, as rationals: rounding, how far off it is, and
-- when it reaches the next whole number.
namespace Doubles

-- round(): to the nearest integer, a half to the even one.
def roundHalfEven (x : ℚ) : Int :=
  if x - ⌊x⌋ < 1 / 2 ∨ (x - ⌊x⌋ = 1 / 2 ∧ ⌊x⌋ % 2 = 0) then ⌊x⌋ else ⌊x⌋ + 1

-- The distance of the numbers with so many significant bits, around x.
def spacing (precision : Nat) (x : ℚ) : ℚ := 2 ^ (Int.log 2 |x| + 1 - precision)

-- x to so many significant bits, a tie to the even ones. The exponent has no bounds.
def nearest (precision : Nat) (x : ℚ) : ℚ := roundHalfEven (x / spacing precision x) * spacing precision x

theorem roundHalfEven_range (x : ℚ) : ⌊x⌋ ≤ roundHalfEven x ∧ roundHalfEven x ≤ ⌊x⌋ + 1 := by
  unfold roundHalfEven
  split <;> omega

theorem roundHalfEven_mono {x y : ℚ} (le : x ≤ y) : roundHalfEven x ≤ roundHalfEven y := by
  rcases (Int.floor_le_floor le).lt_or_eq with less | same
  · have below := (roundHalfEven_range x).2
    have above := (roundHalfEven_range y).1
    omega
  · -- On one floor the two are compared by what is left over it.
    unfold roundHalfEven
    rw [← same]
    split
    · split <;> omega
    · rename_i up
      rw [if_neg]
      rintro (less | ⟨half,even⟩)
      · exact up (.inl (by linarith))
      · rcases le.lt_or_eq with strict | equal
        · exact up (.inl (by linarith))
        · exact up (.inr ⟨by linarith,even⟩)

theorem roundHalfEven_nonnegative {x : ℚ} (sign : 0 ≤ x) : 0 ≤ roundHalfEven x :=
  (Int.floor_nonneg.mpr sign).trans (roundHalfEven_range x).1

theorem roundHalfEven_int (n : Int) : roundHalfEven n = n := by
  unfold roundHalfEven
  rw [if_pos]
  · exact Int.floor_intCast n
  · left
    rw [Int.floor_intCast,sub_self]
    norm_num

theorem roundHalfEven_near (x : ℚ) : |roundHalfEven x - x| ≤ 1 / 2 := by
  have low := Int.floor_le x
  have high := Int.lt_floor_add_one x
  unfold roundHalfEven
  rw [abs_le]
  split
  · rename_i down
    have rest : x - ⌊x⌋ ≤ 1 / 2 := by
      rcases down with less | ⟨half,_⟩
      · exact less.le
      · exact half.le
    constructor <;> linarith
  · rename_i up
    have rest : 1 / 2 ≤ x - ⌊x⌋ := not_lt.mp fun less => up (.inl less)
    push_cast
    constructor <;> linarith

theorem roundHalfEven_neg (x : ℚ) : roundHalfEven (-x) = -roundHalfEven x := by
  have low := Int.floor_le x
  have high := Int.lt_floor_add_one x
  rcases low.eq_or_lt with whole | fraction
  · rw [← whole,← Int.cast_neg,roundHalfEven_int,roundHalfEven_int]
  · have below : ⌊-x⌋ = -⌊x⌋ - 1 := by
      rw [Int.floor_eq_iff]
      push_cast
      constructor <;> linarith
    have rest : -x - ⌊-x⌋ = 1 - (x - ⌊x⌋) := by
      rw [below]
      push_cast
      ring
    rcases lt_trichotomy (x - ⌊x⌋) (1 / 2) with less | half | more
    · have down : roundHalfEven x = ⌊x⌋ := if_pos (.inl less)
      have up : roundHalfEven (-x) = ⌊-x⌋ + 1 := by
        apply if_neg
        rw [rest]
        rintro (other | ⟨same,_⟩) <;> linarith
      omega
    · have tie : -x - ⌊-x⌋ = 1 / 2 := by linarith
      by_cases even : ⌊x⌋ % 2 = 0
      · have down : roundHalfEven x = ⌊x⌋ := if_pos (.inr ⟨half,even⟩)
        have up : roundHalfEven (-x) = ⌊-x⌋ + 1 := by
          apply if_neg
          rintro (other | ⟨_,odd⟩)
          · linarith
          · omega
        omega
      · have up : roundHalfEven x = ⌊x⌋ + 1 := by
          apply if_neg
          rintro (other | ⟨_,same⟩)
          · linarith
          · exact even same
        have down : roundHalfEven (-x) = ⌊-x⌋ := if_pos (.inr ⟨tie,by omega⟩)
        omega
    · have up : roundHalfEven x = ⌊x⌋ + 1 := by
        apply if_neg
        rintro (other | ⟨same,_⟩) <;> linarith
      have down : roundHalfEven (-x) = ⌊-x⌋ := if_pos (.inl (by linarith))
      omega

-- An even number is reached from a half below it on.
theorem even_le_roundHalfEven {n : Int} (even : n % 2 = 0) (x : ℚ) : n ≤ roundHalfEven x ↔ (n : ℚ) - 1 / 2 ≤ x := by
  have near := abs_le.mp (roundHalfEven_near x)
  constructor
  · intro le
    have le : (n : ℚ) ≤ roundHalfEven x := by exact_mod_cast le
    linarith [near.2]
  · intro le
    by_contra less
    have less : roundHalfEven x ≤ n - 1 := by omega
    have lower : (roundHalfEven x : ℚ) ≤ n - 1 := by exact_mod_cast less
    -- A tie with the odd number below goes up.
    have tie : x = n - 1 / 2 := le_antisymm (by linarith [near.1]) le
    have floor : ⌊x⌋ = n - 1 := by
      rw [Int.floor_eq_iff,tie]
      push_cast
      constructor <;> linarith
    have down := less
    unfold roundHalfEven at down
    rw [if_neg] at down
    · omega
    · rw [floor]
      rintro (other | ⟨_,odd⟩)
      · push_cast at other
        linarith
      · omega

variable {p : Nat} {x : ℚ}

theorem spacing_positive (p : Nat) (x : ℚ) : 0 < spacing p x := by
  exact zpow_pos (by norm_num) _

theorem nearest_neg (p : Nat) (x : ℚ) : nearest p (-x) = -nearest p x := by
  have same : spacing p (-x) = spacing p x := by rw [spacing,abs_neg,spacing]
  rw [nearest,nearest,same,neg_div,roundHalfEven_neg]
  push_cast
  ring

theorem nearest_nonnegative (sign : 0 ≤ x) : 0 ≤ nearest p x := by
  have positive := spacing_positive p x
  have count : (0 : ℚ) ≤ roundHalfEven (x / spacing p x) := by
    exact_mod_cast roundHalfEven_nonnegative (div_nonneg sign positive.le)
  exact mul_nonneg count positive.le

-- Half a unit in the last place.
theorem nearest_error (p : Nat) (x : ℚ) : |nearest p x - x| ≤ |x| / 2 ^ p := by
  rcases eq_or_ne x 0 with rfl | other
  · have zero : roundHalfEven 0 = 0 := roundHalfEven_int 0
    simp [nearest,zero]
  · have positive := spacing_positive p x
    have near := roundHalfEven_near (x / spacing p x)
    have scaled : nearest p x - x = (roundHalfEven (x / spacing p x) - x / spacing p x) * spacing p x := by
      rw [nearest,sub_mul,div_mul_cancel₀ _ positive.ne']
    have size : spacing p x ≤ |x| * 2 / 2 ^ p := by
      have power : (2 : ℚ) ^ Int.log 2 |x| ≤ |x| := by
        exact_mod_cast Int.zpow_log_le_self (by decide : 1 < 2) (abs_pos.mpr other)
      rw [spacing,zpow_sub₀ (by norm_num),zpow_add_one₀ (by norm_num),zpow_natCast]
      gcongr
    rw [scaled,abs_mul,abs_of_pos positive]
    calc _ ≤ 1 / 2 * (|x| * 2 / 2 ^ p) := mul_le_mul near size positive.le (by norm_num)
      _ = |x| / 2 ^ p := by ring

-- A whole number of no more bits is exact.
theorem nearest_nat {n : Nat} (bits : Nat.log 2 n < p) : nearest p n = n := by
  have cells : (n : ℚ) / spacing p n = ((n * 2 ^ (p - 1 - Nat.log 2 n) : Nat) : Int) := by
    have exponent : Int.log 2 |(n : ℚ)| + 1 - p = -((p - 1 - Nat.log 2 n : Nat) : Int) := by
      rw [Nat.abs_cast,Int.log_natCast]
      omega
    rw [spacing,exponent,zpow_neg,zpow_natCast,div_inv_eq_mul]
    push_cast
    ring
  rw [nearest,cells,roundHalfEven_int,← cells,div_mul_cancel₀ _ (spacing_positive p n).ne']

-- Between two whole numbers the upper one is reached from half a cell below it on.
theorem floor_nearest {n : Nat} {f : ℚ} (positive : 0 < n) (bits : Nat.log 2 n + 1 < p) (low : 0 ≤ f) (high : f ≤ 1) :
    ⌊nearest p (n + f)⌋ = n + if 1 - 2 ^ Nat.log 2 n / 2 ^ p ≤ f then 1 else 0 := by
  rcases high.eq_or_lt with rfl | inside
  · have whole : Nat.log 2 (n + 1) < p := by
      have power := Nat.lt_pow_succ_log_self (by decide : 1 < 2) n
      have next : Nat.log 2 (n + 1) ≤ Nat.log 2 (2 ^ (Nat.log 2 n + 1)) := Nat.log_mono_right power
      rw [Nat.log_pow (by decide)] at next
      omega
    have exact_ : nearest p ((n : ℚ) + 1) = ((n + 1 : Nat) : ℚ) := by
      rw [← nearest_nat whole]
      push_cast
      rfl
    have share : (0 : ℚ) ≤ 2 ^ Nat.log 2 n / 2 ^ p := by positivity
    rw [exact_,Int.floor_natCast,if_pos (by linarith)]
    push_cast
    rfl
  · generalize logs : Nat.log 2 n = k at bits ⊢
    obtain ⟨d,rfl⟩ : ∃ d, p = k + 2 + d := ⟨p - k - 2,by omega⟩
    have one : (1 : ℚ) ≤ n := by exact_mod_cast positive
    have binade : Int.log 2 |(n : ℚ) + f| = k := by
      rw [abs_of_nonneg (by linarith),Int.log_of_one_le_right _ (by linarith)]
      have floor : ⌊(n : ℚ) + f⌋₊ = n := by
        rw [Nat.floor_eq_iff (by linarith)]
        constructor <;> linarith
      rw [floor,logs]
    -- The cells are a cth of a whole number.
    obtain ⟨c,power⟩ : ∃ c : Nat, c = 2 ^ (d + 1) := ⟨_,rfl⟩
    have size : (0 : ℚ) < c := by
      rw [power]
      positivity
    have cast : (2 : ℚ) ^ (d + 1) = c := by
      rw [power]
      push_cast
      rfl
    have cell : spacing (k + 2 + d) ((n : ℚ) + f) = 1 / c := by
      have exponent : (k : Int) + 1 - ((k + 2 + d : Nat) : Int) = -((d + 1 : Nat) : Int) := by
        push_cast
        ring
      rw [spacing,binade,exponent,zpow_neg,zpow_natCast,cast,one_div]
    have share : (2 : ℚ) ^ k / 2 ^ (k + 2 + d) = 1 / 2 / c := by
      rw [← cast,show k + 2 + d = k + (1 + (d + 1)) by ring,pow_add,pow_add]
      field_simp
    have cells : nearest (k + 2 + d) ((n : ℚ) + f) = roundHalfEven (((n : ℚ) + f) * c) / c := by
      rw [nearest,cell,div_div_eq_mul_div,div_one,mul_one_div]
    have at_least : (n * c : Int) ≤ roundHalfEven (((n : ℚ) + f) * c) := by
      rw [← roundHalfEven_int (n * c : Int)]
      apply roundHalfEven_mono
      push_cast
      exact mul_le_mul_of_nonneg_right (by linarith) size.le
    have at_most : roundHalfEven (((n : ℚ) + f) * c) ≤ ((n + 1) * c : Int) := by
      rw [← roundHalfEven_int ((n + 1) * c : Int)]
      apply roundHalfEven_mono
      push_cast
      exact mul_le_mul_of_nonneg_right (by linarith) size.le
    have even : ((n + 1) * c : Int) % 2 = 0 := by
      rw [power,pow_succ]
      push_cast
      rw [← mul_assoc,Int.mul_emod_left]
    have reaches := even_le_roundHalfEven even (((n : ℚ) + f) * c)
    generalize roundHalfEven (((n : ℚ) + f) * c) = m at cells at_least at_most reaches
    have threshold : ((((n + 1) * c : Int) : ℚ) - 1 / 2 ≤ ((n : ℚ) + f) * c) ↔ 1 - 2 ^ k / 2 ^ (k + 2 + d) ≤ f := by
      rw [share,sub_le_comm (a := (1 : ℚ)),le_div_iff₀ size]
      push_cast
      constructor <;> intro le <;> linarith
    rw [threshold] at reaches
    rw [cells]
    by_cases reached : 1 - 2 ^ k / 2 ^ (k + 2 + d) ≤ f
    · have upper : m = (n + 1) * c := le_antisymm at_most (reaches.mpr reached)
      have whole : (m : ℚ) / c = ((n + 1 : Nat) : ℚ) := by
        rw [upper]
        push_cast
        exact mul_div_cancel_right₀ _ size.ne'
      rw [if_pos reached,whole,Int.floor_natCast]
      push_cast
      rfl
    · have inner : m < (n + 1) * c := lt_of_not_ge fun le => reached (reaches.mp le)
      rw [if_neg reached,Int.floor_eq_iff,le_div_iff₀ size,div_lt_iff₀ size]
      constructor
      · exact_mod_cast at_least
      · exact_mod_cast inner

-- Below the first whole number of all.
theorem floor_nearest_fraction {f : ℚ} (low : 0 ≤ f) (high : f + f / 2 ^ p < 1) : ⌊nearest p f⌋ = 0 := by
  have error := abs_le.mp (nearest_error p f)
  rw [abs_of_nonneg low] at error
  rw [Int.floor_eq_zero_iff,Set.mem_Ico]
  exact ⟨nearest_nonnegative low,by linarith [error.2]⟩

end Doubles
