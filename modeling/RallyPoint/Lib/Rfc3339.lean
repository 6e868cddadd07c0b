/-
# RallyPoint.Lib.Rfc3339 — RFC 3339 texts and the instants they name.

A text is a date, one separating character, a time, an optional fraction and a zone. Every number in it has a fixed
width, so dates order as texts exactly as they order as days (`CivilDate.text_lt_iff`). What comes after the date
does not: a blank between date and time sorts before every `T`, a small `t` after it. `Stamp.text_le_iff` and
`Stamp.le_text_iff` say what is left of the order of texts when the local times are in order.
-/
import Mathlib.Data.String.Basic
import Mathlib.Tactic.Common
import Mathlib.Tactic.Ring

namespace RallyPoint.Lib

/-! ## Numbers of fixed width -/

/-- The last `w` decimal digits of `n`. -/
def pad : Nat → Nat → List Char
  | 0, _ => []
  | w + 1, n => pad w (n / 10) ++ [Nat.digitChar (n % 10)]

@[simp] theorem length_pad (w n : Nat) : (pad w n).length = w := by
  induction w generalizing n with
  | zero => rfl
  | succ w ih => simp [pad, ih]

theorem digitChar_lt_iff {a b : Nat} (ha : a < 10) (hb : b < 10) :
    Nat.digitChar a < Nat.digitChar b ↔ a < b := by
  have hall : ∀ a < 10, ∀ b < 10, Nat.digitChar a < Nat.digitChar b ↔ a < b := by decide
  exact hall a ha b hb

theorem isDigit_digitChar {a : Nat} (ha : a < 10) : (Nat.digitChar a).isDigit = true := by
  have hall : ∀ a < 10, (Nat.digitChar a).isDigit = true := by decide
  exact hall a ha

/-- Behind prefixes of one length, the prefixes decide first. -/
theorem append_lt_append_iff {α : Type*} [LinearOrder α] {l l' r r' : List α} (h : l.length = l'.length) :
    l ++ r < l' ++ r' ↔ l < l' ∨ l = l' ∧ r < r' := by
  induction l generalizing l' with
  | nil =>
    obtain rfl := List.length_eq_zero_iff.mp h.symm
    simp
  | cons a l ih =>
    cases l' with
    | nil => cases h
    | cons b l' =>
      have hlen : l.length = l'.length := by simpa using h
      rw [List.cons_append, List.cons_append, List.cons_lt_cons_iff, List.cons_lt_cons_iff, ih hlen,
        List.cons.injEq]
      tauto

/-- Padded numbers order as the numbers. -/
theorem pad_lt_pad_iff {w a b : Nat} (ha : a < 10 ^ w) (hb : b < 10 ^ w) : pad w a < pad w b ↔ a < b := by
  induction w generalizing a b with
  | zero =>
    have ha' : a = 0 := by simpa using ha
    have hb' : b = 0 := by simpa using hb
    simp [pad, ha', hb']
  | succ w ih =>
    have hten : 10 ^ (w + 1) = 10 ^ w * 10 := pow_succ 10 w
    have hdiv : ∀ n, n < 10 ^ (w + 1) → n / 10 < 10 ^ w := fun n hn => by omega
    have hmod : ∀ n, n % 10 < 10 := fun n => Nat.mod_lt n (by decide)
    have heq : pad w (a / 10) = pad w (b / 10) ↔ a / 10 = b / 10 := by
      constructor
      · intro hpad
        have hle := (ih (hdiv a ha) (hdiv b hb)).not.mp (by rw [hpad]; exact lt_irrefl _)
        have hge := (ih (hdiv b hb) (hdiv a ha)).not.mp (by rw [hpad]; exact lt_irrefl _)
        omega
      · intro hnum
        rw [hnum]
    rw [pad, pad, append_lt_append_iff (by simp), ih (hdiv a ha) (hdiv b hb), heq]
    have hlast : [Nat.digitChar (a % 10)] < [Nat.digitChar (b % 10)] ↔ a % 10 < b % 10 := by
      rw [List.cons_lt_cons_iff, digitChar_lt_iff (hmod a) (hmod b)]
      simp
    rw [hlast]
    omega

theorem pad_inj {w a b : Nat} (ha : a < 10 ^ w) (hb : b < 10 ^ w) : pad w a = pad w b ↔ a = b := by
  constructor
  · intro h
    have hle := (pad_lt_pad_iff ha hb).not.mp (by rw [h]; exact lt_irrefl _)
    have hge := (pad_lt_pad_iff hb ha).not.mp (by rw [h]; exact lt_irrefl _)
    omega
  · intro h
    rw [h]

/-- Two padded numbers behind one another, compared. -/
theorem pad_append_lt_iff {w a b : Nat} {r r' : List Char} (ha : a < 10 ^ w) (hb : b < 10 ^ w) :
    pad w a ++ r < pad w b ++ r' ↔ a < b ∨ a = b ∧ r < r' := by
  rw [append_lt_append_iff (by simp), pad_lt_pad_iff ha hb, pad_inj ha hb]

/-! ## Dates -/

structure CivilDate where
  year : Nat
  month : Nat
  day : Nat
  deriving DecidableEq, Repr

namespace CivilDate

def isLeap (year : Nat) : Bool := year % 4 = 0 && (year % 100 != 0 || year % 400 = 0)

def daysInMonth (year : Nat) : Nat → Nat
  | 2 => if isLeap year then 29 else 28
  | 4 | 6 | 9 | 11 => 30
  | _ => 31

structure Valid (d : CivilDate) : Prop where
  year : d.year ≤ 9999
  month : 1 ≤ d.month ∧ d.month ≤ 12
  day : 1 ≤ d.day ∧ d.day ≤ daysInMonth d.year d.month

instance : DecidablePred Valid := fun d =>
  decidable_of_iff (d.year ≤ 9999 ∧ (1 ≤ d.month ∧ d.month ≤ 12) ∧ 1 ≤ d.day ∧ d.day ≤ daysInMonth d.year d.month)
    ⟨fun ⟨hyear, hmonth, hday⟩ => ⟨hyear, hmonth, hday⟩, fun ⟨hyear, hmonth, hday⟩ => ⟨hyear, hmonth, hday⟩⟩

/-- Days before the first of January of a year, from year 0 on. -/
def yearStart (year : Nat) : Nat := 365 * year + (year + 3) / 4 + (year + 399) / 400 - (year + 99) / 100

/-- Days of a year before the first of a month. -/
def monthStart (year : Nat) : Nat → Nat
  | 0 | 1 => 0
  | month + 1 => monthStart year month + daysInMonth year month

/-- Days since 1970-01-01. -/
def dayNumber (d : CivilDate) : Int := (yearStart d.year + monthStart d.year d.month + d.day : Nat) - 719529

def text (d : CivilDate) : List Char := pad 4 d.year ++ '-' :: (pad 2 d.month ++ '-' :: pad 2 d.day)

/-- Year, month and day decide in this order. -/
def Before (d e : CivilDate) : Prop :=
  d.year < e.year ∨ d.year = e.year ∧ (d.month < e.month ∨ d.month = e.month ∧ d.day < e.day)

section Order

variable {d e : CivilDate}

theorem daysInMonth_le (year month : Nat) : daysInMonth year month ≤ 31 := by
  unfold daysInMonth
  split <;> first | decide | (split <;> decide)

@[simp] theorem length_text (d : CivilDate) : d.text.length = 10 := by simp [text]

theorem eq_or_before (d e : CivilDate) : d = e ∨ d.Before e ∨ e.Before d := by
  obtain ⟨y, m, n⟩ := d
  obtain ⟨y', m', n'⟩ := e
  simp only [Before, mk.injEq]
  omega

/-- Dates order as texts by year, month and day. -/
theorem text_lt_iff_before (hd : d.Valid) (he : e.Valid) : d.text < e.text ↔ d.Before e := by
  have hbound : ∀ {d : CivilDate}, d.Valid → d.year < 10 ^ 4 ∧ d.month < 10 ^ 2 ∧ d.day < 10 ^ 2 := by
    intro d hd
    have hday := hd.day.2.trans (daysInMonth_le d.year d.month)
    exact ⟨Nat.lt_of_le_of_lt hd.year (by decide), Nat.lt_of_le_of_lt hd.month.2 (by decide),
      Nat.lt_of_le_of_lt hday (by decide)⟩
  obtain ⟨hy, hm, hn⟩ := hbound hd
  obtain ⟨hy', hm', hn'⟩ := hbound he
  simp only [text, Before, pad_append_lt_iff hy hy', List.cons_lt_cons_iff, pad_append_lt_iff hm hm',
    pad_lt_pad_iff hn hn', lt_irrefl, false_or, true_and]

theorem monthStart_succ_le {year m m' : Nat} (hm : 1 ≤ m) (h : m < m') :
    monthStart year m + daysInMonth year m ≤ monthStart year m' := by
  induction m', h using Nat.le_induction with
  | base =>
    obtain ⟨k, rfl⟩ := Nat.exists_eq_add_of_le' hm
    rfl
  | succ m' hle ih =>
    obtain ⟨k, rfl⟩ := Nat.exists_eq_add_of_le' (hm.trans (Nat.le_of_succ_le hle))
    exact ih.trans (Nat.le_add_right _ _)

/-- A year is as long as its twelve months. -/
theorem yearStart_succ (year : Nat) : yearStart (year + 1) = yearStart year + monthStart year 13 := by
  have hmonths : monthStart year 13 = if isLeap year then 366 else 365 := by
    simp only [monthStart, daysInMonth]
    split <;> rfl
  -- each of the three cycles gains a day after its leap year
  have h4 : (year + 1 + 3) / 4 = (year + 3) / 4 + if year % 4 = 0 then 1 else 0 := by split <;> omega
  have h100 : (year + 1 + 99) / 100 = (year + 99) / 100 + if year % 100 = 0 then 1 else 0 := by
    split <;> omega
  have h400 : (year + 1 + 399) / 400 = (year + 399) / 400 + if year % 400 = 0 then 1 else 0 := by
    split <;> omega
  have hleap : isLeap year = true ↔ year % 4 = 0 ∧ (year % 100 ≠ 0 ∨ year % 400 = 0) := by simp [isLeap]
  have hfewer : (year + 99) / 100 ≤ 365 * year + (year + 3) / 4 + (year + 399) / 400 := by omega
  have h100of400 : year % 400 = 0 → year % 100 = 0 := by omega
  have h4of100 : year % 100 = 0 → year % 4 = 0 := by omega
  rw [hmonths]
  unfold yearStart
  rw [h4, h100, h400]
  simp only [hleap]
  generalize (year + 3) / 4 = a, (year + 99) / 100 = b, (year + 399) / 400 = c at hfewer ⊢
  by_cases h₁ : year % 4 = 0
  · by_cases h₂ : year % 100 = 0
    · by_cases h₃ : year % 400 = 0
      · simp only [h₁, h₂, h₃, ne_eq, not_true_eq_false, or_true, and_self, if_true]
        omega
      · simp only [h₁, h₂, h₃, ne_eq, not_true_eq_false, or_false, and_false, if_true, if_false]
        omega
    · have h₃ : year % 400 ≠ 0 := fun h => h₂ (h100of400 h)
      simp only [h₁, h₂, h₃, ne_eq, not_false_eq_true, true_or, and_self, if_true, if_false]
      omega
  · have h₂ : year % 100 ≠ 0 := fun h => h₁ (h4of100 h)
    have h₃ : year % 400 ≠ 0 := fun h => h₂ (h100of400 h)
    simp only [h₁, h₂, h₃, false_and, if_false]
    omega

theorem yearStart_mono {y y' : Nat} (h : y ≤ y') : yearStart y ≤ yearStart y' := by
  induction y', h using Nat.le_induction with
  | base => exact le_rfl
  | succ y' _ ih => exact ih.trans (by rw [yearStart_succ]; exact Nat.le_add_right _ _)

theorem dayNumber_lt_of_before (hd : d.Valid) (he : e.Valid) (h : d.Before e) : d.dayNumber < e.dayNumber := by
  obtain ⟨-, ⟨hm, hm12⟩, ⟨hn, hn31⟩⟩ := hd
  obtain ⟨-, ⟨hm', -⟩, ⟨hn', -⟩⟩ := he
  unfold dayNumber
  rcases h with hyear | ⟨hyear, hmonth | ⟨hmonth, hday⟩⟩
  · have hlen : monthStart d.year d.month + daysInMonth d.year d.month ≤ monthStart d.year 13 :=
      monthStart_succ_le hm (by omega)
    have hnext : yearStart (d.year + 1) ≤ yearStart e.year := yearStart_mono hyear
    rw [yearStart_succ] at hnext
    omega
  · have hlen : monthStart d.year d.month + daysInMonth d.year d.month ≤ monthStart d.year e.month :=
      monthStart_succ_le hm hmonth
    rw [← hyear]
    omega
  · rw [← hyear, ← hmonth]
    omega

/-- **Dates order as texts as they order as days.** -/
theorem text_lt_iff (hd : d.Valid) (he : e.Valid) : d.text < e.text ↔ d.dayNumber < e.dayNumber := by
  rw [text_lt_iff_before hd he]
  refine ⟨dayNumber_lt_of_before hd he, fun h => ?_⟩
  rcases eq_or_before d e with rfl | hbefore | hafter
  · exact absurd h (lt_irrefl _)
  · exact hbefore
  · exact absurd (h.trans (dayNumber_lt_of_before he hd hafter)) (lt_irrefl _)

theorem dayNumber_inj (hd : d.Valid) (he : e.Valid) : d.dayNumber = e.dayNumber ↔ d = e := by
  refine ⟨fun h => ?_, fun h => by rw [h]⟩
  rcases eq_or_before d e with heq | hbefore | hafter
  · exact heq
  · exact absurd (dayNumber_lt_of_before hd he hbefore) (h ▸ lt_irrefl _)
  · exact absurd (dayNumber_lt_of_before he hd hafter) (h ▸ lt_irrefl _)

theorem text_inj (hd : d.Valid) (he : e.Valid) : d.text = e.text ↔ d = e := by
  refine ⟨fun h => ?_, fun h => by rw [h]⟩
  rw [← dayNumber_inj hd he]
  have hle := (text_lt_iff hd he).not.mp (by rw [h]; exact lt_irrefl _)
  have hge := (text_lt_iff he hd).not.mp (by rw [h]; exact lt_irrefl _)
  omega

end Order

end CivilDate

/-! ## Times and zones -/

structure CivilTime where
  hour : Nat
  minute : Nat
  second : Nat
  deriving DecidableEq, Repr

namespace CivilTime

/-- A minute may end in a leap second. -/
structure Valid (t : CivilTime) : Prop where
  hour : t.hour ≤ 23
  minute : t.minute ≤ 59
  second : t.second ≤ 60

instance : DecidablePred Valid := fun t =>
  decidable_of_iff (t.hour ≤ 23 ∧ t.minute ≤ 59 ∧ t.second ≤ 60)
    ⟨fun ⟨hh, hm, hs⟩ => ⟨hh, hm, hs⟩, fun ⟨hh, hm, hs⟩ => ⟨hh, hm, hs⟩⟩

/-- Seconds since midnight; a leap second counts as the second before it. -/
def ofDay (t : CivilTime) : Nat := t.hour * 3600 + t.minute * 60 + min t.second 59

def text (t : CivilTime) : List Char := pad 2 t.hour ++ ':' :: (pad 2 t.minute ++ ':' :: pad 2 t.second)

variable {t u : CivilTime}

theorem ofDay_lt (h : t.Valid) : t.ofDay < 86400 := by
  obtain ⟨hh, hm, -⟩ := h
  unfold ofDay
  omega

@[simp] theorem length_text (t : CivilTime) : t.text.length = 8 := by simp [text]

/-- An earlier time is an earlier text. -/
theorem text_lt_of_ofDay_lt (ht : t.Valid) (hu : u.Valid) (h : t.ofDay < u.ofDay) : t.text < u.text := by
  obtain ⟨hh, hm, hs⟩ := ht
  obtain ⟨hh', hm', hs'⟩ := hu
  have hbound : ∀ {n : Nat}, n ≤ 60 → n < 10 ^ 2 := fun h => Nat.lt_of_le_of_lt h (by decide)
  simp only [text, pad_append_lt_iff (hbound (hh.trans (by decide))) (hbound (hh'.trans (by decide))),
    List.cons_lt_cons_iff, pad_append_lt_iff (hbound (hm.trans (by decide))) (hbound (hm'.trans (by decide))),
    pad_lt_pad_iff (hbound hs) (hbound hs'), lt_irrefl, false_or, true_and]
  unfold ofDay at h
  omega

end CivilTime

/-- A zone as it is written: a letter for UTC, or the sign, hours and minutes of an offset. -/
inductive Zone
  | utc (letter : Char)
  | offset (sign : Char) (hours minutes : Nat)
  deriving DecidableEq, Repr

namespace Zone

/-- An offset stays below a day; the true minus sign is taken for a minus. -/
def Valid : Zone → Prop
  | .utc letter => letter = 'Z' ∨ letter = 'z'
  | .offset sign hours minutes => (sign = '+' ∨ sign = '-' ∨ sign = '−') ∧ hours ≤ 23 ∧ minutes ≤ 59

instance : DecidablePred Valid
  | .utc _ => inferInstanceAs (Decidable (_ ∨ _))
  | .offset _ _ _ => inferInstanceAs (Decidable (_ ∧ _))

/-- Seconds ahead of UTC. -/
def seconds : Zone → Int
  | .utc _ => 0
  | .offset sign hours minutes =>
    if sign = '+' then ((hours * 3600 + minutes * 60 : Nat) : Int) else -((hours * 3600 + minutes * 60 : Nat) : Int)

def text : Zone → List Char
  | .utc letter => [letter]
  | .offset sign hours minutes => sign :: (pad 2 hours ++ ':' :: pad 2 minutes)

/-- An offset is a minute short of a day at most. -/
theorem seconds_bounds {z : Zone} (h : z.Valid) : -86340 ≤ z.seconds ∧ z.seconds ≤ 86340 := by
  cases z with
  | utc letter => simp [seconds]
  | offset sign hours minutes =>
    obtain ⟨-, hh, hm⟩ := h
    simp only [seconds]
    split <;> omega

end Zone

/-! ## Stamps -/

/-- An RFC 3339 text, taken apart. -/
structure Stamp where
  date : CivilDate
  sep : Char
  time : CivilTime
  /-- The digits behind the point, none without a point. -/
  fraction : List Char
  zone : Zone
  deriving DecidableEq, Repr

namespace Stamp

/-- The separators a reader takes. -/
def separators : List Char := ['T', 't', ' ']

structure Valid (s : Stamp) : Prop where
  date : s.date.Valid
  sep : s.sep ∈ separators
  time : s.time.Valid
  fraction : s.fraction.all Char.isDigit = true
  zone : s.zone.Valid

instance : DecidablePred Valid := fun s =>
  decidable_of_iff (s.date.Valid ∧ s.sep ∈ separators ∧ s.time.Valid ∧ s.fraction.all Char.isDigit = true ∧
    s.zone.Valid)
    ⟨fun ⟨hd, hsep, ht, hf, hz⟩ => ⟨hd, hsep, ht, hf, hz⟩, fun ⟨hd, hsep, ht, hf, hz⟩ => ⟨hd, hsep, ht, hf, hz⟩⟩

def fractionText (s : Stamp) : List Char := if s.fraction = [] then [] else '.' :: s.fraction

def chars (s : Stamp) : List Char :=
  s.date.text ++ s.sep :: (s.time.text ++ (s.fractionText ++ s.zone.text))

def text (s : Stamp) : String := String.ofList s.chars

/-- Seconds on the stamp's own clock. -/
def localSecs (s : Stamp) : Int := s.date.dayNumber * 86400 + s.time.ofDay

/-- Nanoseconds behind the whole second: nine digits of the fraction, and a second for a leap second. -/
def nanos (s : Stamp) : Nat :=
  (s.fraction.take 9).foldl (fun n c => n * 10 + (c.toNat - 48)) 0 * 10 ^ (9 - (s.fraction.take 9).length) +
    if s.time.second = 60 then 10 ^ 9 else 0

/-- Nanoseconds since the epoch. -/
def instant (s : Stamp) : Int := (s.localSecs - s.zone.seconds) * 10 ^ 9 + s.nanos

section Order

variable {s bound : Stamp}

theorem foldl_digits_lt {l : List Char} (h : l.all Char.isDigit = true) (n : Nat) :
    l.foldl (fun n c => n * 10 + (c.toNat - 48)) n < (n + 1) * 10 ^ l.length := by
  induction l generalizing n with
  | nil => simp
  | cons c l ih =>
    simp only [List.all_cons, Bool.and_eq_true] at h
    have hdigit : c.toNat - 48 < 10 := by
      have hc := h.1
      simp only [Char.isDigit, Bool.and_eq_true, decide_eq_true_eq, ge_iff_le, UInt32.le_iff_toNat_le] at hc
      have hnine : c.toNat ≤ 57 := hc.2
      omega
    rw [List.foldl_cons, List.length_cons, pow_succ]
    refine (ih h.2 _).trans_le ?_
    rw [mul_comm (10 ^ l.length) 10, ← mul_assoc]
    exact Nat.mul_le_mul_right _ (by omega)

theorem nanos_lt (h : s.Valid) : s.nanos < 2 * 10 ^ 9 := by
  have hdigits : (s.fraction.take 9).all Char.isDigit = true := by
    refine List.all_eq_true.mpr fun c hc => ?_
    exact List.all_eq_true.mp h.fraction c (List.mem_of_mem_take hc)
  have hlen : (s.fraction.take 9).length ≤ 9 := List.length_take_le 9 s.fraction
  have hfold := foldl_digits_lt hdigits 0
  rw [zero_add, one_mul] at hfold
  have hnine : (s.fraction.take 9).foldl (fun n c => n * 10 + (c.toNat - 48)) 0 *
      10 ^ (9 - (s.fraction.take 9).length) < 10 ^ 9 := by
    calc _ < 10 ^ (s.fraction.take 9).length * 10 ^ (9 - (s.fraction.take 9).length) :=
          Nat.mul_lt_mul_of_pos_right hfold (Nat.pow_pos (by decide))
      _ = 10 ^ 9 := by rw [← pow_add, Nat.add_sub_cancel' hlen]
  unfold nanos
  split <;> omega

/-- The date is the text's first ten characters, and the separator follows. -/
theorem take_chars (s : Stamp) : s.chars.take 10 = s.date.text := by
  rw [chars, List.take_append_of_le_length (by simp), List.take_of_length_le (by simp)]

theorem getElem?_chars (s : Stamp) : s.chars[10]? = some s.sep := by
  rw [chars, List.getElem?_append_right (by simp)]
  simp

/-- Local times in order are dates in order, or times in order on one date. -/
theorem date_or_time_lt {s s' : Stamp} (hs : s.Valid) (hs' : s'.Valid) (h : s.localSecs < s'.localSecs) :
    s.date.text < s'.date.text ∨ s.date = s'.date ∧ s.time.text < s'.time.text := by
  have hday := CivilTime.ofDay_lt hs.time
  have hday' := CivilTime.ofDay_lt hs'.time
  unfold localSecs at h
  rcases lt_trichotomy s.date.dayNumber s'.date.dayNumber with hlt | heq | hgt
  · exact .inl ((CivilDate.text_lt_iff hs.date hs'.date).mpr hlt)
  · refine .inr ⟨(CivilDate.dayNumber_inj hs.date hs'.date).mp heq, ?_⟩
    exact CivilTime.text_lt_of_ofDay_lt hs.time hs'.time (by omega)
  · omega

/-- Texts of stamps, compared part by part. -/
theorem text_lt_text_iff {s s' : Stamp} :
    s.text < s'.text ↔ s.date.text < s'.date.text ∨ s.date.text = s'.date.text ∧
      (s.sep < s'.sep ∨ s.sep = s'.sep ∧ s.time.text ++ (s.fractionText ++ s.zone.text) <
        s'.time.text ++ (s'.fractionText ++ s'.zone.text)) := by
  rw [String.lt_iff_toList_lt, text, text, String.toList_ofList, String.toList_ofList, chars, chars,
    append_lt_append_iff (by simp), List.cons_lt_cons_iff]

/-- **A stamp after a bound** is a text after it, but for one with a blank on the bound's own date. -/
theorem le_text_iff (hs : s.Valid) (hb : bound.Valid) (hT : bound.sep = 'T')
    (h : bound.localSecs < s.localSecs) :
    bound.text ≤ s.text ↔ ¬(s.sep = ' ' ∧ s.date.text = bound.date.text) := by
  rw [← not_lt, text_lt_text_iff, hT]
  refine not_congr ?_
  rcases date_or_time_lt hb hs h with hdate | ⟨hdate, htime⟩
  · have hne : s.date.text ≠ bound.date.text := hdate.ne'
    simp [hne, hdate.not_gt]
  · have hrest : ¬(s.time.text ++ (s.fractionText ++ s.zone.text) <
        bound.time.text ++ (bound.fractionText ++ bound.zone.text)) := by
      rw [append_lt_append_iff (by simp)]
      rintro (hlt | ⟨heq, -⟩)
      · exact absurd (hlt.trans htime) (lt_irrefl _)
      · exact absurd htime (heq ▸ lt_irrefl _)
    have hsep : s.sep < 'T' ↔ s.sep = ' ' := by
      have hall : ∀ c ∈ separators, c < 'T' ↔ c = ' ' := by simp [separators]
      exact hall s.sep hs.sep
    simp [hdate, hrest, hsep]

/-- **A stamp before a bound** is a text before it, but for one with a small `t` on the bound's own date. -/
theorem text_le_iff (hs : s.Valid) (hb : bound.Valid) (hT : bound.sep = 'T')
    (h : s.localSecs < bound.localSecs) :
    s.text ≤ bound.text ↔ ¬(s.sep = 't' ∧ s.date.text = bound.date.text) := by
  rw [← not_lt, text_lt_text_iff, hT]
  refine not_congr ?_
  rcases date_or_time_lt hs hb h with hdate | ⟨hdate, htime⟩
  · simp [hdate.ne, hdate.ne', hdate.not_gt]
  · have hrest : ¬(bound.time.text ++ (bound.fractionText ++ bound.zone.text) <
        s.time.text ++ (s.fractionText ++ s.zone.text)) := by
      rw [append_lt_append_iff (by simp)]
      rintro (hlt | ⟨heq, -⟩)
      · exact absurd (hlt.trans htime) (lt_irrefl _)
      · exact absurd htime (heq ▸ lt_irrefl _)
    have hsep : 'T' < s.sep ↔ s.sep = 't' := by
      have hall : ∀ c ∈ separators, 'T' < c ↔ c = 't' := by simp [separators]
      exact hall s.sep hs.sep
    simp [hdate, hrest, hsep]

/-- A stamp begins with a digit. -/
theorem head_isDigit (s : Stamp) : ∃ c rest, s.chars = c :: rest ∧ '0' ≤ c := by
  have hall : ∀ n < 10, '0' ≤ Nat.digitChar n := by decide
  exact ⟨_, _, rfl, hall (s.date.year / 10 / 10 / 10 % 10) (Nat.mod_lt _ (by decide))⟩

end Order

end Stamp

end RallyPoint.Lib
