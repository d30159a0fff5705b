import BatchGateway.Doubles
import Mathlib.Tactic.IntervalCases

namespace PythonTime
open Doubles

-- What a host adds to a second of UTC to show local time, second by second: less than a day.
structure Zone where
  offset : Int → Int
  bounded : ∀ u, |offset u| < 86400

instance : CoeFun Zone (fun _ => Int → Int) := ⟨Zone.offset⟩

def fixedZone (offset : Int) (bounded : |offset| < 86400) : Zone := ⟨fun _ => offset,fun _ => bounded⟩

def utcZone : Zone := fixedZone 0 (by decide)

-- wall counts microseconds of the displayed date and time; offset is tzinfo, in seconds east of UTC.
structure Datetime where
  wall : Int
  offset : Option Int
  deriving DecidableEq

def seconds (t : Int) : Int := t / 1000000
def micros (t : Int) : Int := t % 1000000

-- datetime.now(tz) at the instant t, for a zone that is at this offset then.
def nowAt (offset t : Int) : Datetime := ⟨t + offset * 1000000,some offset⟩

def Datetime.add (d : Datetime) (delta : Int) : Datetime := {d with wall := d.wall + delta}
def Datetime.withoutZone (d : Datetime) : Datetime := {d with offset := none}
def Datetime.replaceUtc (d : Datetime) : Datetime := {d with offset := some 0}

-- The instant an aware value denotes; a naive one denotes none by itself.
def Datetime.instant (d : Datetime) : Option Int := d.offset.map (fun offset => d.wall - offset * 1000000)

def localSecond (zone : Zone) (u : Int) : Int := u + zone u

-- The longest fold the library looks for, a day.
def maxFoldSeconds : Int := 86400

-- The interpreter's search for the second u with localSecond u = t, for a value with fold = 0.
def localToSeconds (zone : Zone) (t : Int) : Int :=
  let a := localSecond zone t - t
  let u1 := t - a
  let t1 := localSecond zone u1
  if t1 = t then
    let b := localSecond zone (u1 - maxFoldSeconds) - (u1 - maxFoldSeconds)
    if a = b then u1
    else if localSecond zone (t - b) = t then t - b else u1
  else
    let b := t1 - u1
    -- t - b when it is a solution; else t is in a gap.
    if localSecond zone (t - b) = t then t - b else max u1 (t - b)

-- A float of the interpreter. What stands here is far from the bounds of its exponent.
def float (x : ℚ) : ℚ := nearest 53 x

-- datetime.timestamp(). A naive value is a sum of two floats, the whole seconds and the
-- microseconds / 1e6; the whole seconds are exact.
def Datetime.timestamp (zone : Zone) (d : Datetime) : ℚ :=
  match d.offset with
  | some offset => float ((d.wall - offset * 1000000 : Int) / 1000000)
  | none => float (localToSeconds zone (seconds d.wall) + float (micros d.wall / 1000000))

-- int() of a float drops the fraction, toward zero.
def intSeconds (timestamp : ℚ) : Int := if 0 ≤ timestamp then ⌊timestamp⌋ else ⌈timestamp⌉

def dayMicros : Int := 86400000000

-- timedelta(seconds=x), in microseconds; none is OverflowError, past 999999999 days.
def timedelta (x : ℚ) : Option Int :=
  let us := roundHalfEven (x * 1000000)
  if -999999999 ≤ us / dayMicros ∧ us / dayMicros ≤ 999999999 then some us else none

-- datetime.min and datetime.max, from the epoch.
def minWall : Int := -62135596800000000
def maxWall : Int := 253402300799999999

-- datetime + timedelta; none is OverflowError, outside the years 1 to 9999.
def Datetime.plus (d : Datetime) (delta : Int) : Option Datetime :=
  if minWall ≤ d.wall + delta ∧ d.wall + delta ≤ maxWall then some (d.add delta) else none

-- A later date in range leaves a timedelta far inside its own.
theorem plus_timedelta {d : Datetime} {x : ℚ} (low : minWall ≤ d.wall) (sign : 0 ≤ x) :
    (timedelta x).bind d.plus =
      if d.wall + roundHalfEven (x * 1000000) ≤ maxWall then some (d.add (roundHalfEven (x * 1000000))) else none := by
  have forward := roundHalfEven_nonnegative (mul_nonneg sign (by norm_num : (0 : ℚ) ≤ 1000000))
  unfold timedelta
  generalize roundHalfEven (x * 1000000) = us at forward ⊢
  unfold minWall at low
  unfold dayMicros maxWall
  by_cases within : d.wall + us ≤ 253402300799999999
  · rw [if_pos within,if_pos (by omega)]
    exact if_pos (by unfold minWall maxWall; omega)
  · rw [if_neg within]
    dsimp only
    split
    · exact if_neg (by unfold maxWall; omega)
    · rfl

theorem micros_range (t : Int) : 0 ≤ micros t ∧ micros t < 1000000 := by
  unfold micros
  omega

@[simp] theorem nowAt_add (offset t delta : Int) : (nowAt offset t).add delta = nowAt offset (t + delta) := by
  simp only [nowAt,Datetime.add,Datetime.mk.injEq,and_true]
  omega

-- So many microseconds are at most half of what two floats are apart from s seconds on.
def Unseen (n s : Int) : Prop := n * 2 ^ 53 ≤ 1000000 * 2 ^ Nat.log 2 s.toNat

-- int() of the float of s seconds and us microseconds is the next second: rounded up to it, from
-- 2^34 seconds on, or before the epoch, where dropping the fraction goes up.
def Carries (s us : Int) : Prop := if 0 ≤ s then Unseen (1000000 - us) s else ¬ Unseen us (-s - 1)

instance (n s : Int) : Decidable (Unseen n s) := inferInstanceAs (Decidable (n * 2 ^ 53 ≤ 1000000 * 2 ^ Nat.log 2 s.toNat))

instance (s us : Int) : Decidable (Carries s us) := inferInstanceAs (Decidable (if 0 ≤ s then Unseen (1000000 - us) s else ¬ Unseen us (-s - 1)))

section Float
variable {k : Nat} {n us s : Int} {e f : ℚ}

-- No count of microseconds is so close to the half that the rounding of its own float decides.
theorem half_apart (small : k ≤ 38) (low : 0 ≤ n) (high : n ≤ 1000000) :
    (n * 2 ^ 53 ≤ 1000000 * 2 ^ k → n * 2 ^ 53 + 1000000 ≤ 1000000 * 2 ^ k) ∧
    (1000000 * 2 ^ k < n * 2 ^ 53 → 1000000 * 2 ^ k + 1000000 < n * 2 ^ 53) := by
  interval_cases k <;> omega

theorem unseen_float (small : k ≤ 38) (low : 0 ≤ n) (high : n ≤ 1000000) (near : |e| ≤ 1 / 2 ^ 53) :
    (n : ℚ) / 1000000 + e ≤ 2 ^ k / 2 ^ 53 ↔ n * 2 ^ 53 ≤ 1000000 * 2 ^ k := by
  obtain ⟨below,above⟩ := half_apart small low high
  obtain ⟨least,most⟩ := abs_le.mp near
  constructor
  · intro le
    by_contra more
    have apart := above (not_le.mp more)
    have apart : (1000000 * 2 ^ k + 1000000 : ℚ) < n * 2 ^ 53 := by exact_mod_cast apart
    have share : (2 : ℚ) ^ k / 2 ^ 53 + 1 / 2 ^ 53 < n / 1000000 := by
      rw [← add_div,div_lt_div_iff₀ (by positivity) (by positivity)]
      linarith
    linarith
  · intro le
    have apart := below le
    have apart : (n * 2 ^ 53 + 1000000 : ℚ) ≤ 1000000 * 2 ^ k := by exact_mod_cast apart
    have share : (n : ℚ) / 1000000 + 1 / 2 ^ 53 ≤ 2 ^ k / 2 ^ 53 := by
      rw [div_add_div _ _ (by positivity) (by positivity),div_le_div_iff₀ (by positivity) (by positivity)]
      linarith
    linarith

theorem intSeconds_neg (x : ℚ) : intSeconds (-x) = -intSeconds x := by
  unfold intSeconds
  rcases lt_trichotomy x 0 with less | rfl | more
  · rw [if_pos (by linarith),if_neg (by linarith),Int.floor_neg]
  · rfl
  · rw [if_neg (by linarith),if_pos more.le,Int.ceil_neg]

theorem intSeconds_float (sign : 0 ≤ f) : intSeconds (float f) = ⌊nearest 53 f⌋ := if_pos (nearest_nonnegative sign)

-- The microseconds as a float.
structure Fraction (us : Int) (f : ℚ) : Prop where
  zero : us = 0 → f = 0
  low : 0 ≤ f
  high : f ≤ 1
  near : |f - us / 1000000| ≤ 1 / 2 ^ 53

theorem fraction_micros (low : 0 ≤ us) (high : us < 1000000) : Fraction us (float (us / 1000000)) := by
  have sign : (0 : ℚ) ≤ us := by exact_mod_cast low
  have bound : (us : ℚ) ≤ 999999 := by exact_mod_cast (by omega : us ≤ 999999)
  have part : (0 : ℚ) ≤ us / 1000000 := div_nonneg sign (by norm_num)
  have size : (us : ℚ) / 1000000 / 2 ^ 53 ≤ 1 / 2 ^ 53 := div_le_div_of_nonneg_right (by linarith) (by positivity)
  have error : |float (us / 1000000) - us / 1000000| ≤ 1 / 2 ^ 53 := by
    have within := nearest_error 53 ((us : ℚ) / 1000000)
    rw [abs_of_nonneg part] at within
    exact within.trans size
  refine ⟨fun none_ => ?_,nearest_nonnegative part,?_,error⟩
  · rw [none_,Int.cast_zero,zero_div]
    exact nearest_nat (n := 0) (by decide)
  · have most := (abs_le.mp error).2
    norm_num at most
    linarith

theorem floor_small (fraction : Fraction us f) (low : 0 ≤ us) (high : us < 1000000) : ⌊nearest 53 f⌋ = 0 := by
  have bound : (us : ℚ) ≤ 999999 := by exact_mod_cast (by omega : us ≤ 999999)
  have most := (abs_le.mp fraction.near).2
  apply floor_nearest_fraction fraction.low
  have high := fraction.high
  norm_num at most ⊢
  linarith

theorem floor_after {n : Nat} (positive : 0 < n) (small : Nat.log 2 n ≤ 38) (fraction : Fraction us f)
    (low : 0 ≤ us) (high : us < 1000000) : ⌊nearest 53 (n + f)⌋ = n + if Unseen (1000000 - us) n then 1 else 0 := by
  rw [floor_nearest positive (by omega) fraction.low fraction.high]
  have near : |-(f - us / 1000000)| ≤ 1 / 2 ^ 53 := by rw [abs_neg]; exact fraction.near
  have same := unseen_float (n := 1000000 - us) small (by omega) (by omega) near
  have reached : 1 - 2 ^ Nat.log 2 n / 2 ^ 53 ≤ f ↔ Unseen (1000000 - us) n := by
    rw [Unseen,Int.toNat_natCast,← same]
    push_cast
    constructor <;> intro le <;> linarith
  simp only [reached]

theorem floor_before_first (fraction : Fraction us f) (low : 0 ≤ us) :
    ⌊nearest 53 (1 - f)⌋ = if Unseen us 0 then 1 else 0 := by
  rcases low.eq_or_lt with rfl | positive
  · have one : nearest 53 ((1 : Nat) : ℚ) = (1 : Nat) := nearest_nat (by decide)
    rw [fraction.zero rfl,sub_zero,if_pos (by decide),← Nat.cast_one,one]
    exact Int.floor_natCast 1
  · have seen : ¬ Unseen us 0 := by
      simp only [Unseen,Int.toNat_zero,Nat.log_zero_right]
      omega
    have bound : (1 : ℚ) ≤ us := by exact_mod_cast positive
    have least := (abs_le.mp fraction.near).1
    rw [if_neg seen]
    apply floor_nearest_fraction
    · linarith [fraction.high]
    · have sign := fraction.low
      norm_num at least ⊢
      linarith

theorem floor_before {n : Nat} (small : Nat.log 2 n ≤ 38) (fraction : Fraction us f) (low : 0 ≤ us) (high : us < 1000000) :
    ⌊nearest 53 (n + (1 - f))⌋ = n + if Unseen us n then 1 else 0 := by
  rcases Nat.eq_zero_or_pos n with rfl | positive
  · rw [Nat.cast_zero,zero_add,floor_before_first fraction low]
    exact (Int.zero_add _).symm
  · rw [floor_nearest positive (by omega) (by linarith [fraction.high]) (by linarith [fraction.low])]
    have same := unseen_float small low high.le fraction.near
    have reached : 1 - 2 ^ Nat.log 2 n / 2 ^ 53 ≤ 1 - f ↔ Unseen us n := by
      rw [Unseen,Int.toNat_natCast,← same]
      constructor <;> intro le <;> linarith
    simp only [reached]

theorem log_small {n : Nat} (small : n ≤ 2 ^ 38) : Nat.log 2 n ≤ 38 := by
  have bound : Nat.log 2 n ≤ Nat.log 2 (2 ^ 38) := Nat.log_mono_right small
  rwa [Nat.log_pow (by decide)] at bound

-- Whole seconds and microseconds, added up as floats and cut off again.
theorem intSeconds_sum (small : |s| ≤ 2 ^ 38) (low : 0 ≤ us) (high : us < 1000000) :
    intSeconds (float (s + float (us / 1000000))) = s + if Carries s us then 1 else 0 := by
  have fraction := fraction_micros low high
  obtain ⟨least,most⟩ := abs_le.mp small
  generalize float ((us : ℚ) / 1000000) = f at fraction
  by_cases later : 0 ≤ s
  · obtain ⟨n,rfl⟩ := Int.eq_ofNat_of_zero_le later
    have sign : (0 : ℚ) ≤ (n : ℚ) + f := add_nonneg (Nat.cast_nonneg n) fraction.low
    simp only [Carries,if_pos later,Int.cast_natCast]
    rw [intSeconds_float sign]
    rcases Nat.eq_zero_or_pos n with rfl | positive
    · have seen : ¬ Unseen (1000000 - us) ((0 : Nat) : Int) := by
        simp only [Unseen,Int.toNat_natCast,Nat.log_zero_right]
        omega
      rw [if_neg seen,Nat.cast_zero,zero_add,floor_small fraction low high]
      rfl
    · exact floor_after positive (log_small (by omega)) fraction low high
  · obtain ⟨n,shift⟩ : ∃ n : Nat, s = -(n + 1) := ⟨(-s - 1).toNat,by omega⟩
    subst shift
    have mirrored : ((-(n + 1) : Int) : ℚ) + f = -(n + (1 - f)) := by
      push_cast
      ring
    have sign : (0 : ℚ) ≤ (n : ℚ) + (1 - f) := add_nonneg (Nat.cast_nonneg n) (by linarith [fraction.high])
    have before : (-(-((n : Int) + 1)) - 1) = n := by ring
    have floor := floor_before (n := n) (log_small (by omega)) fraction low high
    simp only [Carries,if_neg later,before]
    rw [mirrored,float,nearest_neg,intSeconds_neg]
    change -intSeconds (float _) = _
    rw [intSeconds_float sign,floor]
    by_cases unseen : Unseen us n
    · simp only [unseen,if_true,not_true,if_false]
      ring
    · simp only [unseen,if_true,not_false_iff,if_false]
      ring

end Float

-- A wall second that a backward change makes the zone show twice: first at an offset of b.
def RepeatedBy (zone : Zone) (u b : Int) : Prop := b ≠ 0 ∧ zone (u - maxFoldSeconds) = b ∧ zone (u - b) = b

def Repeated (zone : Zone) (u : Int) : Prop := ∃ b, RepeatedBy zone u b

theorem RepeatedBy.unique {zone : Zone} {u b c : Int} (left : RepeatedBy zone u b) (right : RepeatedBy zone u c) :
    b = c := left.2.1.symm.trans right.2.1

-- The search again, by offsets.
theorem localToSeconds_offsets (zone : Zone) (t : Int) : localToSeconds zone t =
    if zone (t - zone t) = zone t then
      if zone t = zone (t - zone t - maxFoldSeconds) then t - zone t
      else if zone (t - zone (t - zone t - maxFoldSeconds)) = zone (t - zone t - maxFoldSeconds) then
        t - zone (t - zone t - maxFoldSeconds)
      else t - zone t
    else if zone (t - zone (t - zone t)) = zone (t - zone t) then t - zone (t - zone t)
    else max (t - zone t) (t - zone (t - zone t)) := by
  have offset : ∀ u, u + zone u - u = zone u := by
    intro u
    omega
  have solves : ∀ b, t - b + zone (t - b) = t ↔ zone (t - b) = b := by
    intro b
    omega
  simp only [localToSeconds,localSecond,offset,solves]

theorem localToSeconds_repeated {zone : Zone} {u b : Int} (here : zone u = 0) (twice : RepeatedBy zone u b) :
    localToSeconds zone u = u - b := by
  obtain ⟨moved,before,first⟩ := twice
  rw [localToSeconds_offsets]
  simp [here,before,first,moved.symm]

theorem localToSeconds_once {zone : Zone} {u : Int} (here : zone u = 0) (once : ¬ Repeated zone u) :
    localToSeconds zone u = u := by
  rw [localToSeconds_offsets]
  simp only [here,Int.sub_zero,if_true]
  split
  · rfl
  · rename_i moved
    split
    · rename_i first
      exact absurd ⟨_,fun zero => moved zero.symm,rfl,first⟩ once
    · rfl

theorem localToSeconds_near (zone : Zone) (t : Int) : |localToSeconds zone t - t| < 86400 := by
  have near : ∀ u, |t - zone u - t| < 86400 := by
    intro u
    rw [show t - zone u - t = -zone u by ring,abs_neg]
    exact zone.bounded u
  rw [localToSeconds_offsets]
  split
  · split
    · exact near _
    · split
      · exact near _
      · exact near _
  · split
    · exact near _
    · rcases max_choice (t - zone t) (t - zone (t - zone t)) with same | same
      · rw [same]
        exact near _
      · rw [same]
        exact near _

end PythonTime
