import BatchGateway.Models
import BatchGateway.PythonTime

namespace BatchGateway.Timestamps
open PythonTime

-- models._now and the _now of batch_ops, dispatcher and retention; revoke_api_key's datetime.now(UTC).
def utcNow (t : Instant) : Datetime := nowAt 0 t

-- regenerate_api_key's datetime.now(tz=None).astimezone(): local time with the host's offset attached.
def localNow (zone : Zone) (t : Instant) : Datetime := nowAt (zone (seconds t)) t

-- create_batch's now_ts + timedelta(hours=24).
def expiresAt (now : Instant) : Datetime := (utcNow now).add (hours 24)

-- Every DateTime value the service writes, with the instant it stands for.
inductive Written (zone : Zone) : Instant → Datetime → Prop where
  | now (t : Instant) : Written zone t (utcNow t)
  | expiry (now : Instant) : Written zone (now + hours 24) (expiresAt now)
  | rotation (t : Instant) : Written zone t (localNow zone t)

-- SQLite keeps the displayed date and time; a later query reads it without tzinfo.
def stored (d : Datetime) : Datetime := d.withoutZone

def ts (zone : Zone) (dt : Option Datetime) : Option Int := dt.map (fun dt => intSeconds (dt.timestamp zone))

-- created_at of _file_out.
def fileOutCreatedAt (zone : Zone) (createdAt : Datetime) : Int := intSeconds (createdAt.timestamp zone)

def asUtc (dt : Datetime) : Datetime := if dt.offset.isSome then dt else dt.replaceUtc

def etaAsUtc : Datetime → Datetime := asUtc
def retentionAsUtc : Datetime → Datetime := asUtc

-- A value read denotes t for every reader.
structure Denotes (zone : Zone) (t : Instant) (d : Datetime) : Prop where
  batches : ts zone (some d) = some (seconds t)
  files : fileOutCreatedAt zone d = seconds t
  eta : (etaAsUtc d).instant = some t
  retention : (retentionAsUtc d).instant = some t

def RoundTrips (zone : Zone) (t : Instant) : Prop := ∀ d, Written zone t d → Denotes zone t (stored d)

-- Datetimes end with the years 1 and 9999, and timestamp() looks a day or two around its value.
def InYears (t : Int) : Prop := minWall + 2 * dayMicros ≤ t ∧ t ≤ maxWall - 2 * dayMicros

instance (t : Int) : Decidable (InYears t) :=
  inferInstanceAs (Decidable (minWall + 2 * dayMicros ≤ t ∧ t ≤ maxWall - 2 * dayMicros))

-- The host is at offset zero at t and shows that second once, and int() stays in it. The last
-- line is the one repeated second that a carry happens to undo.
def PlainUtc (zone : Zone) (t : Instant) : Prop :=
  zone (seconds t) = 0 ∧
    ((¬ Repeated zone (seconds t) ∧ ¬ Carries (seconds t) (micros t)) ∨
      (RepeatedBy zone (seconds t) 1 ∧ Carries (seconds t - 1) (micros t)))

@[simp] theorem expiresAt_utc (now : Instant) : expiresAt now = utcNow (now + hours 24) := nowAt_add _ _ _

theorem asUtc_stored (offset t : Int) :
    (asUtc (stored (nowAt offset t))).instant = some (t + offset * 1000000) := by
  simp [asUtc,stored,nowAt,Datetime.withoutZone,Datetime.replaceUtc,Datetime.instant]

-- What retention and the estimator compare: on any host, UTC values come back as the instants written.
theorem asUtc_utcNow (t : Instant) : (asUtc (stored (utcNow t))).instant = some t := by
  rw [utcNow,asUtc_stored,Int.zero_mul]
  exact congrArg some (Int.add_zero t)

theorem asUtc_localNow (zone : Zone) (t : Instant) :
    (asUtc (stored (localNow zone t))).instant = some t ↔ zone (seconds t) = 0 := by
  have shift : ∀ s offset : Int, s + offset * 1000000 = s ↔ offset = 0 := by
    intro s offset
    omega
  rw [localNow,asUtc_stored,Option.some.injEq]
  exact shift _ _

theorem timestamp_stored (zone : Zone) {t : Instant} (years : InYears t) :
    intSeconds ((stored (utcNow t)).timestamp zone) = localToSeconds zone (seconds t) +
      if Carries (localToSeconds zone (seconds t)) (micros t) then 1 else 0 := by
  have range := micros_range t
  have naive : (stored (utcNow t)).timestamp zone =
      float (localToSeconds zone (seconds t) + float (micros t / 1000000)) := by
    simp [stored,utcNow,nowAt,Datetime.withoutZone,Datetime.timestamp]
  have small : |localToSeconds zone (seconds t)| ≤ 2 ^ 38 := by
    have near := abs_lt.mp (localToSeconds_near zone (seconds t))
    have whole : seconds t = t / 1000000 := rfl
    simp only [InYears,minWall,maxWall,dayMicros] at years
    rw [abs_le]
    omega
  rw [naive,intSeconds_sum small range.1 range.2]

theorem timestamp_plain (zone : Zone) {t : Instant} (years : InYears t) (here : zone (seconds t) = 0) :
    intSeconds ((stored (utcNow t)).timestamp zone) = seconds t ↔ PlainUtc zone t := by
  rw [timestamp_stored zone years]
  unfold PlainUtc
  by_cases twice : Repeated zone (seconds t)
  · obtain ⟨b,repeated⟩ := twice
    have moved := repeated.1
    have once : ¬ ¬ Repeated zone (seconds t) := fun once => once ⟨b,repeated⟩
    rw [localToSeconds_repeated here repeated]
    constructor
    · intro same
      refine ⟨here,.inr ?_⟩
      split at same
      · rename_i carries
        have one : b = 1 := by omega
        subst one
        exact ⟨repeated,carries⟩
      · omega
    · rintro ⟨_,⟨shown,_⟩ | ⟨one,carries⟩⟩
      · exact absurd shown once
      · obtain rfl := repeated.unique one
        rw [if_pos carries]
        omega
  · have none : ¬ RepeatedBy zone (seconds t) 1 := fun one => twice ⟨1,one⟩
    rw [localToSeconds_once here twice]
    simp only [here,twice,none,not_false_iff,true_and,false_and,or_false]
    split
    · rename_i carries
      exact iff_of_false (by omega) (fun stays => stays carries)
    · rename_i stays
      exact iff_of_true (by omega) stays

theorem plainUtc_reads {zone : Zone} {t : Instant} (years : InYears t) (plain : PlainUtc zone t) : RoundTrips zone t := by
  intro d written
  have here := plain.1
  have same : d = utcNow t := by
    cases written with
    | now => rfl
    | expiry now => exact expiresAt_utc now
    | rotation => simp [localNow,here,utcNow]
  subst same
  have reads := (timestamp_plain zone years here).2 plain
  refine ⟨?_,reads,asUtc_utcNow t,asUtc_utcNow t⟩
  simp [ts,reads]

theorem roundTrips_plainUtc (zone : Zone) (t : Instant) (years : InYears t) : RoundTrips zone t ↔ PlainUtc zone t := by
  refine ⟨fun back => ?_,plainUtc_reads years⟩
  have here := (asUtc_localNow zone t).1 (back _ (.rotation t)).eta
  exact (timestamp_plain zone years here).1 (back _ (.now t)).files

theorem utc_once (u : Int) : ¬ Repeated utcZone u := by
  rintro ⟨b,moved,before,_⟩
  exact moved before.symm

-- A host that stays at UTC, in 2023, and a microsecond before the next second in 2514.
theorem roundTrips_utc : RoundTrips utcZone 1700000000999999 ∧ ¬ RoundTrips utcZone 17180078400999999 := by
  constructor
  · rw [roundTrips_plainUtc utcZone _ (by decide)]
    exact ⟨rfl,.inl ⟨utc_once _,by decide⟩⟩
  · rw [roundTrips_plainUtc utcZone _ (by decide)]
    rintro ⟨_,⟨_,stays⟩ | ⟨⟨moved,before,_⟩,_⟩⟩
    · exact stays (by decide)
    · exact moved before.symm

-- 2023-11-14T22:13:20Z on a host one hour east of UTC.
theorem east_loses_an_hour : ¬ ∀ zone t, InYears t → RoundTrips zone t := by
  intro always
  have read := (always (fixedZone 3600 (by decide)) 1700000000000000 (by decide) _ (.now _)).files
  have seen : intSeconds ((stored (utcNow 1700000000000000)).timestamp (fixedZone 3600 (by decide))) = seconds 1700000000000000 :=
    read
  rw [timestamp_stored _ (by decide)] at seen
  exact absurd seen (by decide)

-- A host that stays at UTC reads back everything written from the epoch to the year 2514.
theorem utc_host (t : Int) (later : 0 ≤ t) (soon : t < 2 ^ 34 * 1000000) : RoundTrips utcZone t := by
  have range := micros_range t
  have whole : seconds t = t / 1000000 := rfl
  refine plainUtc_reads ⟨?_,?_⟩ ⟨rfl,.inl ⟨utc_once _,?_⟩⟩
  · simp only [minWall,dayMicros]
    omega
  · simp only [maxWall,dayMicros]
    omega
  · have binade : Nat.log 2 (seconds t).toNat ≤ 33 := by
      have bound : Nat.log 2 (seconds t).toNat ≤ Nat.log 2 (2 ^ 34 - 1) := Nat.log_mono_right (by omega)
      exact bound.trans (by decide)
    have power : (2 : Int) ^ Nat.log 2 (seconds t).toNat ≤ 2 ^ 33 := by
      exact_mod_cast Nat.pow_le_pow_right (by decide) binade
    simp only [Carries,Unseen,if_pos (show 0 ≤ seconds t by omega)]
    omega

end BatchGateway.Timestamps
