/-
# RallyPoint.RetryBudget — retry budgets derived from the watchdog (`retry_budget.rs`).

A mutation opens the pool and then appends on it. Each of the two is a loop that stops STARTING attempts at its own
deadline, and an attempt begun just inside that deadline still waits for a pool checkout and for one full busy
timeout. The parts are rounded down separately, to nanoseconds or to milliseconds, so it is their sum that has to stay
under the watchdog (`retry_budgets_compose`). The clock is read by the caller: a reading is an argument.
-/
import RallyPoint.Lib.Time

namespace RallyPoint.Retry

open Lib

/-! ## The two budgets -/

def retryBudgetNumer : Nat := 1

def retryBudgetDenom : Nat := 3

def busyTimeoutDivisor : Nat := 8

def maxRetrySleep : Duration := .fromMillis 50

def minRetrySleep : Duration := .fromMillis 5

def unarmedRetryBlocks : Nat := 4

/-- `DEFAULT_BUSY_TIMEOUT` of the vendored pool. -/
def defaultBusyTimeout : Duration := .fromSecs 5

/-- `ACQUIRE_TIMEOUT_DIVISOR` of the vendored pool. -/
def acquireTimeoutDivisor : Nat := 4

/-- `acquire_timeout_for` of the vendored pool, which is never zero. -/
def acquireTimeoutFor (busyTimeout : Duration) : Duration :=
  (busyTimeout.div acquireTimeoutDivisor (by decide)).max (.fromNanos 1)

/-- The two coupled budgets for one command. -/
structure Budgets where
  busyTimeout : Duration
  retry : Duration

/-- `spend_fraction`, in whole milliseconds: 128 bits before the division, 64 bits behind it. -/
def spendFraction (remaining : Duration) : Duration :=
  .fromMillis (clampU64 (min (remaining.asMillis * retryBudgetNumer) (2 ^ 128 - 1) / retryBudgetDenom))

/-- `budgets_for`; without a watchdog there is no deadline to derive from. -/
def budgetsFor (remaining : Option Duration) : Budgets :=
  match remaining with
  | some remaining =>
    { busyTimeout := (remaining.div busyTimeoutDivisor (by decide)).min defaultBusyTimeout
      retry := spendFraction remaining }
  | none =>
    { busyTimeout := defaultBusyTimeout
      retry := defaultBusyTimeout.saturatingMul unarmedRetryBlocks }

/-- `composed_worst_case`: both loops, with what the last attempt of each can overshoot; nothing where a sum is out
of range. -/
def composedWorstCase (watchdog : Duration) : Option Duration := do
  let b := budgetsFor (some watchdog)
  let openLoop := b.retry
  let blockingOvershoot ← (acquireTimeoutFor b.busyTimeout).checkedAdd b.busyTimeout
  let afterOpen := watchdog.saturatingSub (← openLoop.checkedAdd blockingOvershoot)
  let append := spendFraction afterOpen
  (← (← openLoop.checkedAdd blockingOvershoot).checkedAdd append).checkedAdd blockingOvershoot

/-! ## The loop -/

/-- A deadline and the sleep schedule that respects it. -/
structure RetryBudget where
  deadline : Int
  attempt : UInt32
  jitterMs : UInt64

namespace RetryBudget

/-- `RetryBudget::new` at one reading of the clock, nothing where the deadline is behind the last instant. -/
def new (times : Horizon) (now : Int) (budget : Duration) (jitterMs : UInt64) : Option RetryBudget :=
  (times.checkedAdd now budget).map fun deadline => { deadline, attempt := 0, jitterMs }

/-- `u32::saturating_add(1)`. -/
def nextAttempt (attempt : UInt32) : UInt32 := .ofNat (min (attempt.toNat + 1) (2 ^ 32 - 1))

/-- The linear ramp, before it is clamped. -/
def step (attempt : UInt32) (jitterMs : UInt64) : Duration :=
  .fromMillis (saturatingAddU64 (saturatingMulU64 attempt.toUInt64 10) jitterMs)

/-- `next_backoff` at one reading of the clock. -/
def nextBackoff (b : RetryBudget) (now : Int) : RetryBudget × Option Duration :=
  if b.deadline ≤ now then (b, none)
  else
    let remaining := durationSince b.deadline now
    let b := { b with attempt := nextAttempt b.attempt }
    (b, some (((step b.attempt b.jitterMs).clamp minRetrySleep maxRetrySleep).min remaining))

end RetryBudget

/-- The sleeps of a loop that is driven by `next_backoff`, each with the reading it begins at. The readings are those
the loop makes behind its failed attempts, as many as it makes. -/
def backoffs (b : RetryBudget) : List Int → List (Int × Duration)
  | [] => []
  | now :: readings =>
    match b.nextBackoff now with
    | (_, none) => []
    | (b', some sleep) => (now, sleep) :: backoffs b' readings

/-- No reading is made before the sleep in front of it is over. -/
def Paced (b : RetryBudget) : List Int → Prop
  | [] => True
  | now :: readings =>
    (∀ sleep, (b.nextBackoff now).2 = some sleep → ∀ next ∈ readings.head?, now + sleep.nanos ≤ next) ∧
      Paced (b.nextBackoff now).1 readings

/-! ## The parts -/

@[simp] theorem nanos_minRetrySleep : minRetrySleep.nanos = 5000000 := rfl

@[simp] theorem nanos_maxRetrySleep : maxRetrySleep.nanos = 50000000 := rfl

/-- A third at most: the milliseconds are rounded down, and so is their third. -/
theorem spendFraction_le (remaining : Duration) : 3 * (spendFraction remaining).nanos ≤ remaining.nanos := by
  have hms : remaining.asMillis * nanosPerMilli ≤ remaining.nanos := Nat.div_mul_le_self _ _
  rw [spendFraction, Duration.nanos_fromMillis, toNat_clampU64, retryBudgetNumer, retryBudgetDenom, Nat.mul_one]
  unfold nanosPerMilli at hms ⊢
  omega

theorem nanos_busyTimeout (watchdog : Duration) :
    (budgetsFor (some watchdog)).busyTimeout.nanos = min (watchdog.nanos / 8) 5000000000 := by
  show ((watchdog.div busyTimeoutDivisor _).min defaultBusyTimeout).nanos = _
  rw [Duration.nanos_min, Duration.nanos_div]
  rfl

/-- The blocking budget is bounded in absolute terms, whether a watchdog is armed or not. -/
theorem busyTimeout_le (remaining : Option Duration) :
    (budgetsFor remaining).busyTimeout.nanos ≤ defaultBusyTimeout.nanos := by
  cases remaining with
  | none => exact le_rfl
  | some watchdog =>
    rw [nanos_busyTimeout]
    exact Nat.min_le_right _ _

theorem nanos_acquireTimeoutFor (busyTimeout : Duration) :
    (acquireTimeoutFor busyTimeout).nanos = max (busyTimeout.nanos / 4) 1 := by
  rw [acquireTimeoutFor, Duration.nanos_max, Duration.nanos_div]
  rfl

/-- From a millisecond on, the pool's floor of one nanosecond is not reached. -/
theorem acquireTimeout_eq {watchdog : Duration} (hmilli : nanosPerMilli ≤ watchdog.nanos) :
    (acquireTimeoutFor (budgetsFor (some watchdog)).busyTimeout).nanos =
      (budgetsFor (some watchdog)).busyTimeout.nanos / 4 := by
  have hbusy := nanos_busyTimeout watchdog
  unfold nanosPerMilli at hmilli
  rw [nanos_acquireTimeoutFor]
  omega

theorem overshoot_le {watchdog : Duration} (hmilli : nanosPerMilli ≤ watchdog.nanos) :
    32 * ((acquireTimeoutFor (budgetsFor (some watchdog)).busyTimeout).nanos +
      (budgetsFor (some watchdog)).busyTimeout.nanos) ≤ 5 * watchdog.nanos := by
  have hbusy := nanos_busyTimeout watchdog
  rw [acquireTimeout_eq hmilli]
  omega

/-! ## The sum -/

/-- What the budgets of one watchdog owe to it. -/
structure ComposesUnder (watchdog : Duration) : Prop where
  acquire : (acquireTimeoutFor (budgetsFor (some watchdog)).busyTimeout).nanos =
    (budgetsFor (some watchdog)).busyTimeout.nanos / 4
  busy : (budgetsFor (some watchdog)).busyTimeout.nanos ≤ defaultBusyTimeout.nanos
  worst : ∃ worst, composedWorstCase watchdog = some worst ∧ worst.nanos < watchdog.nanos ∧
    watchdog.nanos ≤ 8 * (watchdog.nanos - worst.nanos)

/-- Two thirds of the first loop, five thirds of an overshoot and a third of the whole are 235 of 288 parts. -/
theorem worst_le {watchdog openLoop overshoot append : Nat} (hopen : 3 * openLoop ≤ watchdog)
    (hovershoot : 32 * overshoot ≤ 5 * watchdog) (happend : 3 * append ≤ watchdog - (openLoop + overshoot)) :
    288 * (openLoop + overshoot + append + overshoot) ≤ 235 * watchdog := by
  have hfirst : openLoop + overshoot ≤ watchdog := by omega
  have hrest : 3 * append + openLoop + overshoot ≤ watchdog := by omega
  linarith

theorem composesUnder {watchdog : Duration} (hmilli : nanosPerMilli ≤ watchdog.nanos) : ComposesUnder watchdog where
  acquire := acquireTimeout_eq hmilli
  busy := busyTimeout_le _
  worst := by
    have hpos : 0 < watchdog.nanos := lt_of_lt_of_le (by decide) hmilli
    have hrange := watchdog.inRange
    have hopen : 3 * (budgetsFor (some watchdog)).retry.nanos ≤ watchdog.nanos := spendFraction_le watchdog
    -- thirty-seconds of the watchdog: an eighth to block, a quarter of that to wait for the pool
    have hovershoot := overshoot_le hmilli
    obtain ⟨overshoot, hadd₁, hnanos₁⟩ := Duration.exists_checkedAdd
      (a := acquireTimeoutFor (budgetsFor (some watchdog)).busyTimeout) (b := (budgetsFor (some watchdog)).busyTimeout)
      (by omega)
    rw [← hnanos₁] at hovershoot
    obtain ⟨first, hadd₂, hnanos₂⟩ :=
      Duration.exists_checkedAdd (a := (budgetsFor (some watchdog)).retry) (b := overshoot) (by omega)
    have happend := spendFraction_le (watchdog.saturatingSub first)
    rw [Duration.nanos_saturatingSub, hnanos₂] at happend
    have hworst := worst_le hopen hovershoot happend
    obtain ⟨second, hadd₃, hnanos₃⟩ :=
      Duration.exists_checkedAdd (a := first) (b := spendFraction (watchdog.saturatingSub first)) (by omega)
    obtain ⟨worst, hadd₄, hnanos₄⟩ := Duration.exists_checkedAdd (a := second) (b := overshoot) (by omega)
    rw [← hnanos₂, ← hnanos₃, ← hnanos₄] at hworst
    refine ⟨worst, ?_, by omega, by omega⟩
    calc composedWorstCase watchdog
        = ((acquireTimeoutFor (budgetsFor (some watchdog)).busyTimeout).checkedAdd
            (budgetsFor (some watchdog)).busyTimeout).bind fun overshoot =>
          ((budgetsFor (some watchdog)).retry.checkedAdd overshoot).bind fun first =>
            ((budgetsFor (some watchdog)).retry.checkedAdd overshoot).bind fun again =>
              (again.checkedAdd (spendFraction (watchdog.saturatingSub first))).bind fun second =>
                second.checkedAdd overshoot := rfl
      _ = some worst := by
        rw [hadd₁, Option.bind_some, hadd₂, Option.bind_some, Option.bind_some, hadd₃, Option.bind_some, hadd₄]

/-! ## The sleeps -/

/-- **No sleep ends past the deadline**, and each is as long as the shortest sleep or ends at the deadline. -/
theorem nextBackoff_spec {b b' : RetryBudget} {now : Int} {sleep : Duration}
    (h : b.nextBackoff now = (b', some sleep)) :
    b'.deadline = b.deadline ∧ now < b.deadline ∧ now + sleep.nanos ≤ b.deadline ∧
      (minRetrySleep.nanos ≤ sleep.nanos ∨ b.deadline ≤ now + sleep.nanos) := by
  rw [RetryBudget.nextBackoff] at h
  split at h
  case isTrue => cases h
  case isFalse hspent =>
    obtain ⟨rfl, hsleep⟩ := Prod.mk.inj h
    obtain rfl := Option.some.inj hsleep
    have hle := durationSince_le (show now ≤ b.deadline by omega)
    have hge := le_durationSince b.deadline now
    have hclamp := Duration.le_clamp (a := minRetrySleep) (b := maxRetrySleep)
      (RetryBudget.step (RetryBudget.nextAttempt b.attempt) b.jitterMs) (by simp)
    rw [nanos_minRetrySleep] at hclamp ⊢
    unfold nanosPerSec at hge
    rw [Duration.nanos_min]
    dsimp only
    exact ⟨rfl, by omega, by omega, by omega⟩

/-- **A loop never sleeps past its deadline**, whatever the readings and the jitter. -/
theorem backoffs_le_deadline {b : RetryBudget} {readings : List Int} :
    ∀ sleep ∈ backoffs b readings, sleep.1 + sleep.2.nanos ≤ b.deadline := by
  induction readings generalizing b with
  | nil =>
    intro sleep hmem
    cases hmem
  | cons now readings ih =>
    intro sleep hmem
    rw [backoffs] at hmem
    split at hmem
    case h_1 => cases hmem
    case h_2 b' d hnext =>
      obtain ⟨hdeadline, -, hle, -⟩ := nextBackoff_spec hnext
      rcases List.mem_cons.mp hmem with rfl | hrest
      · exact hle
      · exact hdeadline ▸ ih sleep hrest

/-- **A paced loop ends**: it sleeps no more often than the shortest sleep fits into what was left at its first
reading, once more for a part of it. -/
theorem length_backoffs_le {b : RetryBudget} {now : Int} {readings : List Int} (hpaced : Paced b (now :: readings)) :
    minRetrySleep.nanos * (backoffs b (now :: readings)).length <
      (b.deadline - now).toNat + minRetrySleep.nanos := by
  rw [nanos_minRetrySleep]
  induction readings generalizing b now with
  | nil =>
    rw [backoffs]
    split
    case h_1 => simp
    case h_2 b' d hnext =>
      obtain ⟨-, hlt, -, -⟩ := nextBackoff_spec hnext
      rw [backoffs, List.length_singleton]
      omega
  | cons next readings ih =>
    obtain ⟨hwait, hrest⟩ := hpaced
    rw [backoffs]
    split
    case h_1 => simp
    case h_2 b' d hnext =>
      obtain ⟨hdeadline, hlt, hle, hlong⟩ := nextBackoff_spec hnext
      rw [hnext] at hwait hrest
      have hbegins := hwait d rfl next rfl
      have hfewer := ih (b := b') hrest
      rw [nanos_minRetrySleep] at hlong
      rw [hdeadline] at hfewer
      rw [List.length_cons]
      omega

/-! ## Both together -/

/-- **Retry budgets compose under every watchdog**: both loops with everything their last attempts can wait stay
strictly under it and leave an eighth of it, no single call blocks for more than five seconds, and no loop sleeps past
the deadline its budget gave it. -/
theorem retry_budgets_compose (watchdog : Duration) (hmilli : nanosPerMilli ≤ watchdog.nanos) :
    ComposesUnder watchdog ∧
      ∀ (times : Horizon) (start : Int) (budget : Duration) (jitterMs : UInt64) (b : RetryBudget)
        (readings : List Int), RetryBudget.new times start budget jitterMs = some b →
        ∀ sleep ∈ backoffs b readings, sleep.1 + sleep.2.nanos ≤ start + budget.nanos := by
  refine ⟨composesUnder hmilli, ?_⟩
  intro times start budget jitterMs b readings hnew sleep hmem
  obtain ⟨deadline, hadd, rfl⟩ := Option.map_eq_some_iff.mp hnew
  have hdeadline := (Horizon.checkedAdd_eq_some_iff.mp hadd).1
  rw [← hdeadline]
  exact backoffs_le_deadline sleep hmem

/-- The default watchdog of three seconds leaves 552.5 milliseconds, and a loop with twelve of them left and a large
jitter sleeps once, for twelve. -/
theorem retry_budgets_compose_default :
    ComposesUnder (.fromSecs 3) ∧
      (∃ worst, composedWorstCase (.fromSecs 3) = some worst ∧ worst.nanos = 2447500000) ∧
      ∃ b, RetryBudget.new ⟨10 ^ 18⟩ 0 (.fromMillis 12) 22 = some b ∧
        (backoffs b [0, 12000000]).map (fun sleep => (sleep.1, sleep.2.nanos)) = [(0, 12000000)] ∧
        ∀ sleep ∈ backoffs b [0, 12000000], sleep.1 + sleep.2.nanos ≤ 0 + 12000000 := by
  obtain ⟨hunder, hloop⟩ := retry_budgets_compose (.fromSecs 3) (by decide)
  refine ⟨hunder, ⟨_, rfl, rfl⟩, _, rfl, rfl, ?_⟩
  exact hloop ⟨10 ^ 18⟩ 0 (.fromMillis 12) 22 _ [0, 12000000] rfl

end RallyPoint.Retry
