/-
# RallyPoint.Watch — the `--on-activity` loop of `rally watch` (`command_watch` in `lib.rs`).

Each tick re-reads the largest sequence number. An advance is printed and, unless the adapter ran within the
minimum period, handed to the adapter as the range `(last_seq, new_seq]`. The cursor moves on a throttled tick
as well, so the range of that tick is in no delivery: deliveries are contiguous exactly in the runs where no
delivery comes after a throttled tick.
-/
import RallyPoint.Lib.Ranges

namespace RallyPoint

open Lib

/-- `WATCH_ON_ACTIVITY_MIN_PERIOD`, in milliseconds. -/
def watchOnActivityMinPeriod : Nat := 750

/-- The loop's own variables; clock readings are milliseconds. -/
structure WatchState where
  last_seq : Int
  last_fired : Option Nat
deriving DecidableEq, Repr

/-- What one turn of the loop sees: the largest sequence number, the clock when the throttle is tested and the
clock when the adapter has returned. -/
structure WatchTick where
  new_seq : Int
  now : Nat
  fired_at : Nat
deriving DecidableEq, Repr

inductive WatchEvent
  | activity (from_seq to_seq : Int)
  | delivery (from_seq to_seq : Int)
  | deliveryThrottled (from_seq to_seq : Int)
  | heartbeat (seq : Int)
deriving DecidableEq, Repr

/-- The two arguments the loop's events depend on. -/
structure WatchArgs where
  json : Bool
  on_activity : Option String

namespace WatchState

/-- Before the first tick: the cursor is the largest sequence number there is. -/
def start (max_seq : Int) : WatchState := ⟨max_seq, none⟩

/-- The adapter has never run, or not within the minimum period; `Instant::elapsed` is zero for an instant that
lies ahead. -/
def due (s : WatchState) (now : Nat) : Bool :=
  s.last_fired.all fun t => watchOnActivityMinPeriod ≤ now - t

/-- One turn of the loop. -/
def tick (args : WatchArgs) (s : WatchState) (t : WatchTick) : WatchState × List WatchEvent :=
  if s.last_seq < t.new_seq then
    let activity := WatchEvent.activity s.last_seq t.new_seq
    match args.on_activity with
    | none => ({ s with last_seq := t.new_seq }, [activity])
    | some _ =>
      if s.due t.now then
        (⟨t.new_seq, some t.fired_at⟩, [activity, .delivery s.last_seq t.new_seq])
      else
        ({ s with last_seq := t.new_seq },
          if args.json then [activity, .deliveryThrottled s.last_seq t.new_seq] else [activity])
  else (s, if args.json then [.heartbeat s.last_seq] else [])

/-- The state behind a list of ticks. -/
def after (args : WatchArgs) (s : WatchState) (ticks : List WatchTick) : WatchState :=
  ticks.foldl (fun s t => (s.tick args t).1) s

/-- Everything a run prints. -/
def events (args : WatchArgs) : WatchState → List WatchTick → List WatchEvent
  | _, [] => []
  | s, t :: rest => (s.tick args t).2 ++ events args (s.tick args t).1 rest

end WatchState

/-- The range an event hands to the adapter. -/
def WatchEvent.delivered? : WatchEvent → Option (Int × Int)
  | .delivery lo hi => some (lo, hi)
  | _ => none

/-- The ranges a run hands to the adapter, in order. -/
def watchDeliveries (args : WatchArgs) (s : WatchState) (ticks : List WatchTick) : List (Int × Int) :=
  (s.events args ticks).filterMap WatchEvent.delivered?

/-- **Every sequence number is delivered:** the ranges are contiguous from the start cursor, and each number up
to the last one delivered lies in a range. -/
structure DeliveriesCover (start : Int) (deliveries : List (Int × Int)) : Prop where
  contiguous : Contiguous start deliveries
  covered : ∀ n, start < n → (∃ r ∈ deliveries, n ≤ r.2) → ∃ r ∈ deliveries, r.1 < n ∧ n ≤ r.2

/-! ## When a tick delivers -/

namespace WatchState

variable (args : WatchArgs) (s : WatchState)

/-- The tick advances the cursor and runs the adapter. -/
def Delivers (t : WatchTick) : Prop := s.last_seq < t.new_seq ∧ s.due t.now

/-- The tick advances the cursor within the minimum period. -/
def Throttled (t : WatchTick) : Prop := s.last_seq < t.new_seq ∧ ¬ s.due t.now

/-- No tick delivers after a throttled one. -/
def NothingDropped (ticks : List WatchTick) : Prop :=
  ∀ pre t mid u post, ticks = pre ++ t :: (mid ++ u :: post) →
    (s.after args pre).Throttled t → ¬ (s.after args (pre ++ t :: mid)).Delivers u

/-- No tick of the list delivers. -/
def NothingDelivered (ticks : List WatchTick) : Prop :=
  ∀ mid u post, ticks = mid ++ u :: post → ¬ (s.after args mid).Delivers u

variable {s} {t : WatchTick} {rest : List WatchTick}

theorem nothingDelivered_cons :
    s.NothingDelivered args (t :: rest) ↔ ¬ s.Delivers t ∧ (s.tick args t).1.NothingDelivered args rest := by
  constructor
  · intro h
    exact ⟨h [] t rest rfl, fun mid u post hrest => h (t :: mid) u post (by rw [hrest]; rfl)⟩
  · rintro ⟨ht, hrest⟩ mid u post hsplit
    cases mid with
    | nil =>
      obtain ⟨rfl, -⟩ := List.cons.inj hsplit
      exact ht
    | cons a mid =>
      obtain ⟨rfl, htail⟩ := List.cons.inj hsplit
      exact hrest mid u post htail

theorem nothingDropped_cons :
    s.NothingDropped args (t :: rest) ↔
      (s.Throttled t → (s.tick args t).1.NothingDelivered args rest) ∧
        (s.tick args t).1.NothingDropped args rest := by
  constructor
  · intro h
    constructor
    · intro ht mid u post hrest
      exact h [] t mid u post (by rw [hrest]; rfl) ht
    · intro pre a mid u post hrest
      exact h (t :: pre) a mid u post (by rw [hrest]; rfl)
  · rintro ⟨hhead, hrest⟩ pre a mid u post hsplit ha
    cases pre with
    | nil =>
      obtain ⟨rfl, htail⟩ := List.cons.inj hsplit
      exact hhead ha mid u post htail
    | cons b pre =>
      obtain ⟨rfl, htail⟩ := List.cons.inj hsplit
      exact hrest pre a mid u post htail ha

/-! ## One turn of the loop -/

/-- The cursor follows the largest number seen, also on a throttled tick. -/
theorem last_seq_tick : (s.tick args t).1.last_seq = max s.last_seq t.new_seq := by
  unfold tick
  split
  · rename_i hlt
    rw [max_eq_right hlt.le]
    cases args.on_activity with
    | none => rfl
    | some cmd => dsimp only; split <;> rfl
  · rename_i hle
    rw [max_eq_left (not_lt.mp hle)]

end WatchState

section Deliveries

open WatchState

variable {json : Bool} {cmd : String} {s : WatchState} {t : WatchTick} {rest ticks : List WatchTick} {start : Int}

theorem watchDeliveries_cons_of_delivers (h : s.Delivers t) :
    watchDeliveries ⟨json, some cmd⟩ s (t :: rest) =
      (s.last_seq, t.new_seq) :: watchDeliveries ⟨json, some cmd⟩ (s.tick ⟨json, some cmd⟩ t).1 rest := by
  obtain ⟨hlt, hdue⟩ := h
  have hevents : (s.tick ⟨json, some cmd⟩ t).2 =
      [.activity s.last_seq t.new_seq, .delivery s.last_seq t.new_seq] := by
    simp [tick, hlt, hdue]
  simp only [watchDeliveries, events, hevents, List.filterMap_append]
  rfl

theorem watchDeliveries_cons_of_not (h : ¬ s.Delivers t) :
    watchDeliveries ⟨json, some cmd⟩ s (t :: rest) =
      watchDeliveries ⟨json, some cmd⟩ (s.tick ⟨json, some cmd⟩ t).1 rest := by
  have hevents : (s.tick ⟨json, some cmd⟩ t).2.filterMap WatchEvent.delivered? = [] := by
    unfold tick
    split
    · rename_i hlt
      have hdue : ¬ s.due t.now := fun hdue => h ⟨hlt, hdue⟩
      dsimp only
      rw [if_neg hdue]
      split <;> rfl
    · dsimp only
      split <;> rfl
  simp only [watchDeliveries, events, List.filterMap_append, hevents, List.nil_append]

/-- A delivered range is not empty and lies above the cursor. -/
theorem bounds_of_mem_watchDeliveries {r : Int × Int} (h : r ∈ watchDeliveries ⟨json, some cmd⟩ s ticks) :
    s.last_seq ≤ r.1 ∧ r.1 < r.2 := by
  induction ticks generalizing s with
  | nil => cases h
  | cons t rest ih =>
    have hcursor : s.last_seq ≤ (s.tick ⟨json, some cmd⟩ t).1.last_seq := by
      rw [last_seq_tick]
      exact le_max_left _ _
    by_cases ht : s.Delivers t
    · rw [watchDeliveries_cons_of_delivers ht] at h
      rcases List.mem_cons.mp h with rfl | h
      · exact ⟨le_rfl, ht.1⟩
      · exact ⟨hcursor.trans (ih h).1, (ih h).2⟩
    · rw [watchDeliveries_cons_of_not ht] at h
      exact ⟨hcursor.trans (ih h).1, (ih h).2⟩

theorem watchDeliveries_eq_nil_iff :
    watchDeliveries ⟨json, some cmd⟩ s ticks = [] ↔ s.NothingDelivered ⟨json, some cmd⟩ ticks := by
  induction ticks generalizing s with
  | nil => simp [watchDeliveries, events, NothingDelivered]
  | cons t rest ih =>
    rw [nothingDelivered_cons, ← ih]
    by_cases ht : s.Delivers t
    · simp [watchDeliveries_cons_of_delivers ht, ht]
    · simp [watchDeliveries_cons_of_not ht, ht]

/-- Behind the cursor nothing is delivered any more: a range that is missing stays missing. -/
theorem contiguous_of_behind (hlt : start < s.last_seq) :
    Contiguous start (watchDeliveries ⟨json, some cmd⟩ s ticks) ↔ s.NothingDelivered ⟨json, some cmd⟩ ticks := by
  rw [← watchDeliveries_eq_nil_iff]
  constructor
  · intro h
    cases hds : watchDeliveries ⟨json, some cmd⟩ s ticks with
    | nil => rfl
    | cons r rest =>
      rw [hds] at h
      have hr := (bounds_of_mem_watchDeliveries (hds ▸ List.mem_cons_self)).1
      obtain ⟨rfl, -⟩ := contiguous_cons.mp h
      omega
  · intro h
    rw [h]
    exact contiguous_nil

theorem contiguous_watchDeliveries_iff :
    Contiguous s.last_seq (watchDeliveries ⟨json, some cmd⟩ s ticks) ↔
      s.NothingDropped ⟨json, some cmd⟩ ticks := by
  induction ticks generalizing s with
  | nil => simp [watchDeliveries, events, NothingDropped]
  | cons t rest ih =>
    rw [nothingDropped_cons]
    have hcursor := last_seq_tick ⟨json, some cmd⟩ (s := s) (t := t)
    by_cases ht : s.Delivers t
    · have hnot : ¬ s.Throttled t := fun h => h.2 ht.2
      rw [max_eq_right ht.1.le] at hcursor
      rw [watchDeliveries_cons_of_delivers ht, contiguous_cons, ← hcursor, ih]
      simp [hnot]
    · rw [watchDeliveries_cons_of_not ht]
      by_cases hlt : s.last_seq < t.new_seq
      · -- the tick is throttled: the cursor leaves its range behind
        have hthrottled : s.Throttled t := ⟨hlt, fun hdue => ht ⟨hlt, hdue⟩⟩
        rw [max_eq_right hlt.le] at hcursor
        rw [contiguous_of_behind (by omega)]
        constructor
        · intro h
          refine ⟨fun _ => h, fun pre a mid u post hsplit _ => ?_⟩
          exact h (pre ++ a :: mid) u post (by rw [hsplit]; simp)
        · exact fun h => h.1 hthrottled
      · have hnot : ¬ s.Throttled t := fun h => hlt h.1
        rw [max_eq_left (not_lt.mp hlt)] at hcursor
        rw [← hcursor, ih]
        simp [hnot]

/-- **A run's deliveries cover every sequence number exactly when nothing is delivered after a throttled
tick.** -/
theorem watch_deliveries_cover_iff (json : Bool) (cmd : String) (max_seq : Int) (ticks : List WatchTick) :
    DeliveriesCover max_seq (watchDeliveries ⟨json, some cmd⟩ (.start max_seq) ticks) ↔
      (WatchState.start max_seq).NothingDropped ⟨json, some cmd⟩ ticks := by
  rw [← contiguous_watchDeliveries_iff]
  constructor
  · exact fun h => h.contiguous
  · intro h
    refine ⟨h, fun n hn hlast => ?_⟩
    have hlt : ∀ r ∈ watchDeliveries ⟨json, some cmd⟩ (.start max_seq) ticks, r.1 < r.2 :=
      fun r hr => (bounds_of_mem_watchDeliveries hr).2
    exact (exists_range_iff hlt h).mpr ⟨hn, hlast.elim fun r hr => hr.2.trans (snd_le_rangesEnd hlt h hr.1)⟩

/-- An advance 100 ms after the adapter ran is throttled, the next one a second later is delivered: number 2 is
in no delivery. -/
theorem watch_drops_throttled_range :
    ¬ DeliveriesCover 0 (watchDeliveries ⟨true, some "doorbell"⟩ (.start 0)
      [⟨1, 1000, 1000⟩, ⟨2, 1100, 1100⟩, ⟨3, 2100, 2100⟩]) := by
  intro h
  obtain ⟨r, hr, hlo, hhi⟩ := h.covered 2 (by decide) ⟨(2, 3), by decide, by decide⟩
  have hmem : r = (0, 1) ∨ r = (2, 3) := by simpa using (show r ∈ [(0, 1), (2, 3)] from hr)
  rcases hmem with rfl | rfl <;> revert hlo hhi <;> decide

end Deliveries

end RallyPoint
