/-
# RallyPoint.Cockpit.SessionStatus — the stored status of a session, its live entry, its pump and a kill.

`kill_session` and the pump's last lock section both set the stored status without looking at it, and a
channel that closes ends the pump without any. Leaving the live map is for good whatever the order
(`live` is empty exactly when the stored status is terminal), but the terminal status itself stands only
while the pump's last event does not come behind a kill, and a closed channel only behind one.
-/
import RallyPoint.Lib.Steps

namespace RallyPoint.Cockpit

open Lib

inductive SessionStatus
  | active
  | awaitingInput
  | paused
  | stale
  | completed
  | failed
  | killed
  | disconnected
  | unknown
  deriving DecidableEq, Repr

/-- "True when no further transitions are possible." -/
def SessionStatus.isTerminal : SessionStatus → Bool
  | .completed | .failed | .killed | .disconnected => true
  | _ => false

/-- What the adapter's reader sends. Of an event the pump's lifecycle reads whether it waits for an approval
and whether it asks for input. -/
inductive AdapterEvent
  | event (gated requiresUserInput : Bool)
  | completed
  | failed (msg : String)
  deriving DecidableEq, Repr

/-- The reader returns behind its terminal event. -/
def AdapterEvent.isLast : AdapterEvent → Bool
  | .event .. => false
  | .completed | .failed _ => true

inductive PumpStage
  | reading
  /-- Its approval is registered, the status not set yet. -/
  | asking
  | parked
  /-- Resolved, the status not set back yet. -/
  | woken
  /-- The event asks for input, the status is not set yet. -/
  | noticing
  /-- The adapter ended; the last lock section is ahead. -/
  | ending (status : SessionStatus)
  | exited
  deriving DecidableEq, Repr

/-- A session, its adapter's channel and its pump. -/
structure Supervised where
  stored : SessionStatus
  live : Option SessionStatus
  channel : List AdapterEvent
  readerDone : Bool
  pump : PumpStage
  deriving DecidableEq, Repr

namespace Supervised

/-- `launch_session_async`, with the pump spawned. -/
def launch : Supervised where
  stored := .active
  live := some .active
  channel := []
  readerDone := false
  pump := .reading

/-- `set_status`: the live entry only, if there is one. -/
def setStatus (d : Supervised) (status : SessionStatus) : Supervised :=
  { d with live := d.live.map fun _ => status }

/-- `Supervisor::status`: the live entry, else the stored one. -/
def status (d : Supervised) : SessionStatus := d.live.getD d.stored

inductive Action
  | emit (e : AdapterEvent)
  /-- The reader ends without a terminal event. -/
  | closeReader
  | killSession
  /-- The pump takes the next event; it drops one it cannot persist. -/
  | receive (persisted : Bool)
  | channelClosed
  | setAwaiting
  | resolved
  | setActive
  | finish
  deriving DecidableEq, Repr

/-- One lock section, where it is enabled. -/
def step (d : Supervised) : Action → Option Supervised
  | .emit e => if d.readerDone then none else some { d with channel := d.channel ++ [e], readerDone := e.isLast }
  | .closeReader => if d.readerDone then none else some { d with readerDone := true }
  | .killSession =>
    match d.live with
    -- "session not found"
    | none => some d
    | some _ => some { d with stored := .killed, live := none }
  | .receive persisted =>
    match d.pump, d.channel with
    | .reading, .event gated requiresUserInput :: rest =>
      some { d with
        channel := rest
        pump := if !persisted then .reading else if gated then .asking
          else if requiresUserInput then .noticing else .reading }
    | .reading, .completed :: rest => some { d with channel := rest, pump := .ending .completed }
    | .reading, .failed _ :: rest => some { d with channel := rest, pump := .ending .failed }
    | _, _ => none
  | .channelClosed =>
    if d.pump = .reading ∧ d.channel = [] ∧ d.readerDone = true then some { d with pump := .exited } else none
  | .setAwaiting =>
    match d.pump with
    | .asking => some { d.setStatus .awaitingInput with pump := .parked }
    | .noticing => some { d.setStatus .awaitingInput with pump := .reading }
    | _ => none
  | .resolved =>
    match d.pump with
    | .parked => some { d with pump := .woken }
    | _ => none
  | .setActive =>
    match d.pump with
    | .woken => some { d.setStatus .active with pump := .reading }
    | _ => none
  | .finish =>
    match d.pump with
    | .ending s => some { d with stored := s, live := none, pump := .exited }
    | _ => none

/-! ## What every state satisfies -/

/-- Off the live map exactly when terminal, and only a terminal status is ahead. -/
structure Sound (d : Supervised) : Prop where
  live_iff : d.live = none ↔ d.stored.isTerminal = true
  ending : ∀ s, d.pump = .ending s → s.isTerminal = true

/-- What a step does to status, live entry and pump. -/
inductive Effect (d : Supervised) : Action → Supervised → Prop
  /-- The stored status, the membership in the live map and the pump's exit stay. -/
  | neither {a d'} (ha : a ≠ .finish ∧ a ≠ .channelClosed) (hstored : d'.stored = d.stored)
      (hlive : d'.live = none ↔ d.live = none) (hending : ∀ s, d'.pump = .ending s → s.isTerminal = true)
      (hexit : d'.pump = .exited → d.pump = .exited) : Effect d a d'
  | killed {status} (hlive : d.live = some status) :
      Effect d .killSession { d with stored := .killed, live := none }
  | closed (hpump : d.pump = .reading) : Effect d .channelClosed { d with pump := .exited }
  | ended {s} (hpump : d.pump = .ending s) : Effect d .finish { d with stored := s, live := none, pump := .exited }

theorem setStatus_live {d : Supervised} {status : SessionStatus} :
    (d.setStatus status).live = none ↔ d.live = none := by
  cases h : d.live <;> simp [setStatus, h]

theorem step_effect {d d' : Supervised} {a : Action} (hs : Sound d) (h : step d a = some d') : Effect d a d' := by
  cases a with
  | emit e =>
    simp only [step] at h
    split at h
    · cases h
    · obtain rfl := Option.some.inj h
      exact .neither (by simp) rfl Iff.rfl hs.ending fun h => h
  | closeReader =>
    simp only [step] at h
    split at h
    · cases h
    · obtain rfl := Option.some.inj h
      exact .neither (by simp) rfl Iff.rfl hs.ending fun h => h
  | killSession =>
    simp only [step] at h
    split at h
    · obtain rfl := Option.some.inj h
      exact .neither (by simp) rfl Iff.rfl hs.ending fun h => h
    · obtain rfl := Option.some.inj h
      exact .killed ‹_›
  | receive persisted =>
    simp only [step] at h
    split at h
    · obtain rfl := Option.some.inj h
      refine .neither (by simp) rfl Iff.rfl (fun s hp => ?_) fun hp => ?_
      · split_ifs at hp
      · split_ifs at hp
    · obtain rfl := Option.some.inj h
      refine .neither (by simp) rfl Iff.rfl (fun s hp => ?_) fun hp => by cases hp
      obtain rfl := PumpStage.ending.inj hp
      rfl
    · obtain rfl := Option.some.inj h
      refine .neither (by simp) rfl Iff.rfl (fun s hp => ?_) fun hp => by cases hp
      obtain rfl := PumpStage.ending.inj hp
      rfl
    · cases h
  | channelClosed =>
    simp only [step] at h
    split at h
    · rename_i hready
      obtain rfl := Option.some.inj h
      exact .closed hready.1
    · cases h
  | setAwaiting =>
    simp only [step] at h
    split at h
    · obtain rfl := Option.some.inj h
      exact .neither (by simp) rfl setStatus_live (by simp) (by simp)
    · obtain rfl := Option.some.inj h
      exact .neither (by simp) rfl setStatus_live (by simp) (by simp)
    · cases h
  | resolved =>
    simp only [step] at h
    split at h
    · obtain rfl := Option.some.inj h
      exact .neither (by simp) rfl Iff.rfl (by simp) (by simp)
    · cases h
  | setActive =>
    simp only [step] at h
    split at h
    · obtain rfl := Option.some.inj h
      exact .neither (by simp) rfl setStatus_live (by simp) (by simp)
    · cases h
  | finish =>
    simp only [step] at h
    split at h
    · obtain rfl := Option.some.inj h
      exact .ended ‹_›
    · cases h

section Runs

variable {d d' : Supervised} {a : Action}

theorem sound_launch : Sound launch := ⟨by simp [launch, SessionStatus.isTerminal], by simp [launch]⟩

theorem Effect.sound (h : Effect d a d') (hs : Sound d) : Sound d' := by
  cases h with
  | neither _ hstored hlive hending _ => exact ⟨by rw [hlive, hstored]; exact hs.live_iff, hending⟩
  | killed => exact ⟨iff_of_true rfl rfl, hs.ending⟩
  | closed => exact ⟨hs.live_iff, by simp⟩
  | ended hpump => exact ⟨iff_of_true rfl (hs.ending _ hpump), by simp⟩

theorem sound_of_reaches {may : Supervised → Action → Prop} (hs : Sound d) (hrun : Reaches step may d d') :
    Sound d' :=
  hrun.invariant hs fun _ _ _ hs _ hnext => (step_effect hs hnext).sound hs

/-- Whoever left the live map does not come back. -/
theorem Effect.live (h : Effect d a d') (hlive : d.live = none) : d'.live = none := by
  cases h with
  | neither _ _ hlive' => exact hlive'.mpr hlive
  | killed | ended => rfl
  | closed => exact hlive

/-! ## Final statuses -/

/-- A terminal status stands, and a pump that exits leaves a terminal one. -/
def KeepsFinal (d d' : Supervised) : Prop :=
  (d.stored.isTerminal = true → d'.stored = d.stored) ∧
    (d.pump ≠ .exited → d'.pump = .exited → d'.stored.isTerminal = true)

/-- The pump's last status does not come over another terminal one, and the channel does not close before
there is one. -/
def KeepsTerminal (d : Supervised) : Action → Prop
  | .finish => d.stored.isTerminal = true → d.pump = .ending d.stored
  | .channelClosed => d.stored.isTerminal = true
  | _ => True

instance (d : Supervised) (a : Action) : Decidable (KeepsTerminal d a) :=
  match a with
  | .finish => inferInstanceAs (Decidable (d.stored.isTerminal = true → d.pump = .ending d.stored))
  | .channelClosed => inferInstanceAs (Decidable (d.stored.isTerminal = true))
  | .emit _ | .closeReader | .killSession | .receive _ | .setAwaiting | .resolved | .setActive => .isTrue trivial

/-- **One action.** -/
theorem Effect.keepsFinal_iff (h : Effect d a d') (hs : Sound d) : KeepsFinal d d' ↔ KeepsTerminal d a := by
  cases h with
  | neither ha hstored _ _ hexit =>
    refine iff_of_true ⟨fun _ => hstored, fun hne he => absurd (hexit he) hne⟩ ?_
    cases a with
    | finish => exact absurd rfl ha.1
    | channelClosed => exact absurd rfl ha.2
    | _ => trivial
  | killed hlive =>
    -- a live session is not terminal yet
    refine iff_of_true ⟨fun hterm => ?_, fun _ _ => rfl⟩ trivial
    simp [hs.live_iff.mpr hterm] at hlive
  | closed hpump =>
    constructor
    · exact fun h => h.2 (by simp [hpump]) rfl
    · exact fun hterm => ⟨fun _ => rfl, fun _ _ => hterm⟩
  | @ended s hpump =>
    constructor
    · intro h hterm
      rw [hpump, ← h.1 hterm]
    · intro hkeeps
      refine ⟨fun hterm => ?_, fun _ _ => hs.ending s hpump⟩
      exact PumpStage.ending.inj (hpump.symm.trans (hkeeps hterm))

theorem stored_of_reaches (hs : Sound d) (hterm : d.stored.isTerminal = true)
    (hrun : Reaches step KeepsTerminal d d') : d'.stored = d.stored := by
  refine (hrun.invariant (P := fun t => Sound t ∧ t.stored = d.stored) ⟨hs, rfl⟩ ?_).2
  rintro t a u ⟨ht, hsame⟩ hkeeps hnext
  have heff := step_effect ht hnext
  exact ⟨heff.sound ht, (((heff.keepsFinal_iff ht).mpr hkeeps).1 (hsame ▸ hterm)).trans hsame⟩

theorem exited_of_reaches (hrun : Reaches step KeepsTerminal launch d) (hexit : d.pump = .exited) :
    d.stored.isTerminal = true := by
  refine (hrun.invariant (P := fun t => Sound t ∧ (t.pump = .exited → t.stored.isTerminal = true))
    ⟨sound_launch, by simp [launch]⟩ ?_).2 hexit
  rintro t a u ⟨ht, hexited⟩ hkeeps hnext
  have heff := step_effect ht hnext
  have hfinal := (heff.keepsFinal_iff ht).mpr hkeeps
  refine ⟨heff.sound ht, fun hu => ?_⟩
  by_cases hp : t.pump = .exited
  · exact (hfinal.1 (hexited hp)).symm ▸ hexited hp
  · exact hfinal.2 hp hu

end Runs

/-- **Terminal statuses are final** along every run in which the pump's last status does not come over a
killed one and no channel closes before one: a terminal status never changes, and an exited pump leaves one.
Whatever the run, a session that left the live map stays off it with a terminal status, and an action keeps
what is final exactly when it meets the condition. -/
theorem terminal_status_final (d : Supervised) :
    (Reaches step KeepsTerminal launch d →
      (d.pump = .exited → d.stored.isTerminal = true) ∧
        ∀ d', Reaches step KeepsTerminal d d' → d.stored.isTerminal = true → d'.stored = d.stored) ∧
    (Reaches step (fun _ _ => True) launch d →
      (d.live = none → ∀ d', Reaches step (fun _ _ => True) d d' → d'.live = none ∧ d'.status.isTerminal = true) ∧
        ∀ a d', step d a = some d' → (KeepsFinal d d' ↔ KeepsTerminal d a)) := by
  refine ⟨fun hrun => ⟨exited_of_reaches hrun, fun d' hrun' hterm => ?_⟩, fun hrun => ⟨fun hlive d' hrun' => ?_,
    fun a d' hnext => ?_⟩⟩
  · exact stored_of_reaches (sound_of_reaches sound_launch hrun) hterm hrun'
  · have hs := sound_of_reaches sound_launch hrun
    obtain ⟨hs', hlive'⟩ := hrun'.invariant (P := fun t => Sound t ∧ t.live = none) ⟨hs, hlive⟩
      fun t b u ht _ hnext => ⟨(step_effect ht.1 hnext).sound ht.1, (step_effect ht.1 hnext).live ht.2⟩
    refine ⟨hlive', ?_⟩
    rw [Supervised.status, hlive']
    exact hs'.live_iff.mp hlive'
  · have hs := sound_of_reaches sound_launch hrun
    exact (step_effect hs hnext).keepsFinal_iff hs

/-- A session asks for approval, goes on and completes. -/
def completes : List Action :=
  [.emit (.event true false), .emit .completed, .receive true, .setAwaiting, .resolved, .setActive, .receive true,
    .finish]

/-- The reader's end of stream. -/
def ends : List Action := [.emit .completed, .receive true, .finish]

/-- The adapter drops its sender without a terminal event. -/
def closes : List Action := [.closeReader, .channelClosed]

/-- A completed session is completed for good. -/
theorem terminal_status_final_completed :
    ∃ d, Reaches step KeepsTerminal launch d ∧ d.stored = .completed ∧
      ∀ d', Reaches step KeepsTerminal d d' → d'.stored = .completed := by
  have hrun : ((runActions step KeepsTerminal launch completes).map fun d => d.stored) = some .completed := by
    decide
  obtain ⟨d, hd, hstored⟩ := Option.map_eq_some_iff.mp hrun
  have hreach := reaches_of_run hd
  exact ⟨d, hreach, hstored, fun d' hrun' =>
    (((terminal_status_final d).1 hreach).2 d' hrun' (by rw [hstored]; rfl)).trans hstored⟩

/-- The end of stream turns a killed session into a completed one, and a closed channel ends the pump of a
session that stays active. -/
theorem terminal_status_changes :
    (∃ d d', Reaches step (fun _ _ => True) launch d ∧ d.stored = .killed ∧
      Reaches step (fun _ _ => True) d d' ∧ d'.stored = .completed) ∧
    ∃ d, Reaches step (fun _ _ => True) launch d ∧ d.pump = .exited ∧ d.stored = .active := by
  constructor
  · have hkill : runActions step (fun _ _ => True) launch [.killSession] = some _ := rfl
    have hend : runActions step (fun _ _ => True) { launch with stored := .killed, live := none } ends = some _ :=
      rfl
    exact ⟨_, _, reaches_of_run hkill, rfl, reaches_of_run hend, rfl⟩
  · have hclose : runActions step (fun _ _ => True) launch closes = some _ := rfl
    exact ⟨_, reaches_of_run hclose, rfl, rfl⟩

end Supervised

end RallyPoint.Cockpit
