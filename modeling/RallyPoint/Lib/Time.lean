/-
# RallyPoint.Lib.Time — durations, instants and millisecond stamps.

A duration is a number of nanoseconds that 64-bit seconds can hold, an instant is a number of nanoseconds on some
clock whose type ends somewhere, and a stamp is the whole milliseconds since the epoch as 64 bits. Rounding is
always down, saturation is always towards zero or towards the largest word: a stamp is therefore monotone, and the
difference of two stamps exceeds the difference of the instants by less than a millisecond.
-/
import Mathlib.Tactic

namespace RallyPoint.Lib

def nanosPerMilli : Nat := 1000000

def nanosPerSec : Nat := 1000000000

/-- A span of time: 64 bits of seconds and the nanoseconds below a second, counted in nanoseconds. -/
structure Duration where
  nanos : Nat
  inRange : nanos < 2 ^ 64 * nanosPerSec

namespace Duration

def fromSecs (secs : UInt64) : Duration where
  nanos := secs.toNat * nanosPerSec
  inRange := Nat.mul_lt_mul_of_pos_right secs.toNat_lt (by decide)

def fromMillis (millis : UInt64) : Duration where
  nanos := millis.toNat * nanosPerMilli
  inRange := by
    have := millis.toNat_lt
    unfold nanosPerMilli nanosPerSec
    omega

def min (a b : Duration) : Duration := if a.nanos ≤ b.nanos then a else b

def saturatingSub (a b : Duration) : Duration where
  nanos := a.nanos - b.nanos
  inRange := lt_of_le_of_lt (Nat.sub_le _ _) a.inRange

def saturatingMul (d : Duration) (n : Nat) : Duration where
  nanos := Nat.min (d.nanos * n) (2 ^ 64 * nanosPerSec - 1)
  inRange := lt_of_le_of_lt (Nat.min_le_right _ _) (by decide)

def isZero (d : Duration) : Bool := d.nanos == 0

def max (a b : Duration) : Duration := if a.nanos ≤ b.nanos then b else a

/-- `Ord::clamp`, for bounds in order. -/
def clamp (d low high : Duration) : Duration :=
  if d.nanos < low.nanos then low else if high.nanos < d.nanos then high else d

def fromNanos (nanos : UInt64) : Duration where
  nanos := nanos.toNat
  inRange := nanos.toNat_lt.trans (by unfold nanosPerSec; omega)

/-- `d / n`: the seconds and the nanoseconds are divided by themselves, and what is left of both once more. -/
def divNanos (n : Nat) (d : Duration) : Nat :=
  let secs := d.nanos / nanosPerSec
  let sub := d.nanos % nanosPerSec
  secs / n * nanosPerSec + (sub / n + (secs % n * nanosPerSec + sub % n) / n)

/-- The two divisions together round down once. -/
theorem divNanos_eq (n : Nat) (hn : 0 < n) (d : Duration) : divNanos n d = d.nanos / n := by
  have hsplit : d.nanos = n * (d.nanos / nanosPerSec / n * nanosPerSec + d.nanos % nanosPerSec / n) +
      (d.nanos / nanosPerSec % n * nanosPerSec + d.nanos % nanosPerSec % n) := by
    have hall := Nat.div_add_mod d.nanos nanosPerSec
    have hsecs := Nat.div_add_mod (d.nanos / nanosPerSec) n
    have hsub := Nat.div_add_mod (d.nanos % nanosPerSec) n
    calc d.nanos = nanosPerSec * (d.nanos / nanosPerSec) + d.nanos % nanosPerSec := hall.symm
      _ = nanosPerSec * (n * (d.nanos / nanosPerSec / n) + d.nanos / nanosPerSec % n) +
          (n * (d.nanos % nanosPerSec / n) + d.nanos % nanosPerSec % n) := by rw [hsecs, hsub]
      _ = _ := by ring
  rw [divNanos]
  conv_rhs => rw [hsplit, Nat.mul_add_div hn]
  omega

/-- `Duration / u32`. -/
def div (d : Duration) (n : Nat) (hn : 0 < n) : Duration where
  nanos := divNanos n d
  inRange := by
    rw [divNanos_eq n hn]
    exact lt_of_le_of_lt (Nat.div_le_self _ _) d.inRange

/-- `checked_add`: the sum, where the type holds it. -/
def checkedAdd (a b : Duration) : Option Duration :=
  if h : a.nanos + b.nanos < 2 ^ 64 * nanosPerSec then some ⟨a.nanos + b.nanos, h⟩ else none

/-- The whole milliseconds, which 128 bits hold. -/
def asMillis (d : Duration) : Nat := d.nanos / nanosPerMilli

variable (a b : Duration)

@[simp] theorem nanos_fromSecs (secs : UInt64) : (fromSecs secs).nanos = secs.toNat * nanosPerSec := rfl

@[simp] theorem nanos_fromMillis (millis : UInt64) : (fromMillis millis).nanos = millis.toNat * nanosPerMilli := rfl

@[simp] theorem nanos_saturatingSub : (a.saturatingSub b).nanos = a.nanos - b.nanos := rfl

@[simp] theorem nanos_min : (a.min b).nanos = Min.min a.nanos b.nanos := by
  unfold min
  split_ifs with h
  · exact (Nat.min_eq_left h).symm
  · exact (Nat.min_eq_right (by omega)).symm

@[simp] theorem nanos_fromNanos (nanos : UInt64) : (fromNanos nanos).nanos = nanos.toNat := rfl

@[simp] theorem nanos_max : (a.max b).nanos = Max.max a.nanos b.nanos := by
  unfold max
  split_ifs with h
  · exact (Nat.max_eq_right h).symm
  · exact (Nat.max_eq_left (by omega)).symm

@[simp] theorem nanos_div (n : Nat) (hn : 0 < n) : (a.div n hn).nanos = a.nanos / n := divNanos_eq n hn a

variable {a b} in
theorem exists_checkedAdd (h : a.nanos + b.nanos < 2 ^ 64 * nanosPerSec) :
    ∃ sum, a.checkedAdd b = some sum ∧ sum.nanos = a.nanos + b.nanos := ⟨⟨_, h⟩, dif_pos h, rfl⟩

variable {a b} in
theorem clamp_le (d : Duration) (h : a.nanos ≤ b.nanos) : (d.clamp a b).nanos ≤ b.nanos := by
  unfold clamp
  split_ifs with hlow hhigh
  · exact h
  · exact le_rfl
  · omega

variable {a b} in
theorem le_clamp (d : Duration) (h : a.nanos ≤ b.nanos) : a.nanos ≤ (d.clamp a b).nanos := by
  unfold clamp
  split_ifs with hlow hhigh
  · exact le_rfl
  · exact h
  · omega

theorem isZero_iff : a.isZero = true ↔ a.nanos = 0 := by simp [isZero]

theorem asMillis_lt : a.asMillis < 2 ^ 128 := by
  have hrange := a.inRange
  unfold asMillis nanosPerMilli
  unfold nanosPerSec at hrange
  omega

theorem ext_nanos {a b : Duration} (h : a.nanos = b.nanos) : a = b := by
  cases a
  cases b
  congr

end Duration

/-! ## Words -/

/-- `n.min(u64::MAX) as u64` of a 128-bit count. -/
def clampU64 (n : Nat) : UInt64 := .ofNat (min n (2 ^ 64 - 1))

@[simp] theorem toNat_clampU64 (n : Nat) : (clampU64 n).toNat = min n (2 ^ 64 - 1) := by
  have hle : min n (2 ^ 64 - 1) ≤ 2 ^ 64 - 1 := Nat.min_le_right _ _
  unfold clampU64
  rw [UInt64.toNat_ofNat']
  exact Nat.mod_eq_of_lt (by omega)

/-- `u64::saturating_add`. -/
def saturatingAddU64 (a b : UInt64) : UInt64 := clampU64 (a.toNat + b.toNat)

/-- `u64::saturating_mul`. -/
def saturatingMulU64 (a b : UInt64) : UInt64 := clampU64 (a.toNat * b.toNat)

/-- `u64::saturating_sub`. -/
def saturatingSubU64 (a b : UInt64) : UInt64 := if a ≤ b then 0 else a - b

@[simp] theorem toNat_saturatingSubU64 (a b : UInt64) : (saturatingSubU64 a b).toNat = a.toNat - b.toNat := by
  unfold saturatingSubU64
  split_ifs with h
  · have hle : a.toNat ≤ b.toNat := UInt64.le_iff_toNat_le.mp h
    show 0 = _
    omega
  · have hlt : b.toNat < a.toNat := by
      rw [UInt64.le_iff_toNat_le] at h
      omega
    exact UInt64.toNat_sub_of_le _ _ (UInt64.le_iff_toNat_le.mpr hlt.le)

/-! ## Instants -/

/-- How far the instants of a clock reach on this platform. -/
structure Horizon where
  last : Int

/-- `checked_add`: nothing behind the last instant. -/
def Horizon.checkedAdd (h : Horizon) (t : Int) (d : Duration) : Option Int :=
  if t + d.nanos ≤ h.last then some (t + d.nanos) else none

theorem Horizon.checkedAdd_eq_some_iff {h : Horizon} {t u : Int} {d : Duration} :
    h.checkedAdd t d = some u ↔ u = t + d.nanos ∧ u ≤ h.last := by
  unfold checkedAdd
  split_ifs with hle
  · rw [Option.some.injEq]
    constructor
    · rintro rfl
      exact ⟨rfl, hle⟩
    · rintro ⟨rfl, -⟩
      rfl
  · constructor
    · intro hnone
      cases hnone
    · rintro ⟨rfl, hu⟩
      exact absurd hu hle

/-- `saturating_duration_since`: nothing before the earlier instant. -/
def durationSince (later earlier : Int) : Duration where
  nanos := min (later - earlier).toNat (2 ^ 64 * nanosPerSec - 1)
  inRange := by
    unfold nanosPerSec
    omega

/-- No more than what lies between the two. -/
theorem durationSince_le {later earlier : Int} (h : earlier ≤ later) :
    earlier + (durationSince later earlier).nanos ≤ later := by
  have hmin : (durationSince later earlier).nanos ≤ (later - earlier).toNat := Nat.min_le_left _ _
  omega

/-- What lies between the two is lost only where no duration holds it. -/
theorem le_durationSince (later earlier : Int) :
    later ≤ earlier + (durationSince later earlier).nanos ∨
      (durationSince later earlier).nanos = 2 ^ 64 * nanosPerSec - 1 := by
  have hmin : (durationSince later earlier).nanos = min (later - earlier).toNat (2 ^ 64 * nanosPerSec - 1) := rfl
  omega

/-! ## Stamps -/

/-- The whole milliseconds of a wall-clock instant since the epoch, zero before it. -/
def unixMs (t : Int) : UInt64 := if t < 0 then 0 else clampU64 (t.toNat / nanosPerMilli)

theorem toNat_unixMs (t : Int) : (unixMs t).toNat = min (t.toNat / nanosPerMilli) (2 ^ 64 - 1) := by
  unfold unixMs
  split_ifs with h
  · have hzero : t.toNat = 0 := by omega
    rw [hzero]
    rfl
  · exact toNat_clampU64 _

/-- A later instant has no smaller stamp. -/
theorem unixMs_le {t u : Int} (h : t ≤ u) : (unixMs t).toNat ≤ (unixMs u).toNat := by
  rw [toNat_unixMs, toNat_unixMs]
  have hdiv : t.toNat / nanosPerMilli ≤ u.toNat / nanosPerMilli := Nat.div_le_div_right (by omega)
  exact min_le_min_right _ hdiv

/-- **Two stamps** are less than a millisecond farther apart than their instants. -/
theorem unixMs_sub_lt {now deadline : Int} (h : (unixMs now).toNat < (unixMs deadline).toNat) :
    (((unixMs deadline).toNat - (unixMs now).toNat) * nanosPerMilli : Nat) < deadline - now + nanosPerMilli := by
  rw [toNat_unixMs, toNat_unixMs] at h ⊢
  unfold nanosPerMilli at h ⊢
  -- The earlier stamp is not saturated, so only its rounding counts.
  have hnow : min (now.toNat / 1000000) (2 ^ 64 - 1) = now.toNat / 1000000 := by
    refine Nat.min_eq_left ?_
    by_contra hlt
    have hmin : min (now.toNat / 1000000) (2 ^ 64 - 1) = 2 ^ 64 - 1 := Nat.min_eq_right (by omega)
    have hle : min (deadline.toNat / 1000000) (2 ^ 64 - 1) ≤ 2 ^ 64 - 1 := Nat.min_le_right _ _
    omega
  have hdeadline : min (deadline.toNat / 1000000) (2 ^ 64 - 1) ≤ deadline.toNat / 1000000 := Nat.min_le_left _ _
  rw [hnow] at h ⊢
  omega

end RallyPoint.Lib
