/-
# RallyPoint.Cockpit.EventStream — replay and live delivery of one session to one connection.

The pump appends an event in one step and broadcasts it in a later one, or withholds it behind an approval.
The connection's receiver exists from the start, but it reads nothing while a command runs; `open_session`
reads the store, sends the snapshot and subscribes. What the client has got and what is on its way to it form
one list, `delivery`. It carries every forwarded event above the cursor once and in order, and no denied
tool call, when nothing is between the log and the client at the store read, and no withheld tool call above
the cursor is let through behind it (`KeepsDelivery`).
-/
import RallyPoint.Lib.Steps
import Mathlib.Data.List.Nodup

namespace RallyPoint.Cockpit

open Lib

inductive EventKind
  | toolCall
  | approvalRequest
  | toolBlocked
  | other (kind : String)
  deriving DecidableEq, Repr

/-- A persisted event, by its number and kind. -/
structure Event where
  seq : Nat
  kind : EventKind
  deriving DecidableEq, Repr

/-- Where the session's pump stands. -/
inductive Pump
  | reading
  /-- Persisted, not sent. Behind it the pump parks when there is a gate, on a tool call or on none. -/
  | holding (e : Event) (gate : Option (Option Event))
  /-- The tool call is persisted, its approval request is not. -/
  | gating (call : Event)
  | parked (call : Option Event)
  /-- Denied, and the `tool_blocked` event not persisted. -/
  | denied
  deriving DecidableEq, Repr

/-- What the pump has persisted and not sent. -/
def Pump.unsent : Pump → List Event
  | .reading | .denied => []
  | .holding e gate => e :: (gate.getD none).toList
  | .gating call => [call]
  | .parked call => call.toList

/-- The tool call whose approval is open. -/
def Pump.withheld : Pump → Option Event
  | .reading | .denied => none
  | .holding _ gate => gate.getD none
  | .gating call => some call
  | .parked call => call

inductive Client
  | idle
  /-- `open_session` has read these, and sends them next. -/
  | replayed (events : List Event)
  | snapshotSent
  | subscribed
  deriving DecidableEq, Repr

/-- A session's log and pump, and a connection to it. `forwarded` and `denied` record what the pump has sent
and which tool calls it has denied. -/
structure EventStream where
  fromSeq : Nat
  log : List Event
  pump : Pump
  connected : Bool
  queue : List Event
  client : Client
  pending : List Event
  frames : List Event
  forwarded : List Event
  denied : List Nat
  deriving DecidableEq, Repr

namespace EventStream

/-- A launched session, and a client that will open it behind `fromSeq`. -/
def launch (fromSeq : Nat) : EventStream where
  fromSeq := fromSeq
  log := []
  pump := .reading
  connected := false
  queue := []
  client := .idle
  pending := []
  frames := []
  forwarded := []
  denied := []

/-- The event `append_event` makes. -/
def next (d : EventStream) (kind : EventKind) : Event := ⟨d.log.length + 1, kind⟩

def appendEvent (d : EventStream) (kind : EventKind) : EventStream := { d with log := d.log ++ [d.next kind] }

def replayFrom (d : EventStream) (fromSeq : Nat) : List Event := d.log.filter fun e => decide (fromSeq < e.seq)

/-- `event_tx.send`: into the receiver of the connection, once there is one. -/
def send (d : EventStream) (e : Event) : EventStream :=
  { d with queue := if d.connected then d.queue ++ [e] else d.queue, forwarded := d.forwarded ++ [e] }

def setPump (d : EventStream) (pump : Pump) : EventStream := { d with pump := pump }

inductive Action
  /-- The pump persists the adapter's next event; `requireApproval` is what `authz::decide` says of a tool
  call. -/
  | receive (kind : EventKind) (requireApproval : Bool)
  /-- The approval row of a tool call cannot be inserted. -/
  | dropCall
  | appendRequest
  | broadcast
  | resolve (allow : Bool)
  | appendBlocked
  | connect
  | openSession
  | sendSnapshot
  | subscribe
  | recv
  | flush
  deriving DecidableEq, Repr

/-- One step of the pump or of the connection, where it is enabled. -/
def step (d : EventStream) : Action → Option EventStream
  | .receive kind requireApproval =>
    match d.pump with
    | .reading =>
      let e := d.next kind
      some ((d.appendEvent kind).setPump
        (match kind with
          | .toolCall => if requireApproval then .gating e else .holding e none
          -- a native request parks the pump
          | .approvalRequest => .holding e (some none)
          | _ => .holding e none))
    | _ => none
  | .dropCall =>
    match d.pump with
    | .gating _ => some (d.setPump .reading)
    | _ => none
  | .appendRequest =>
    match d.pump with
    | .gating call =>
      some ((d.appendEvent .approvalRequest).setPump (.holding (d.next .approvalRequest) (some (some call))))
    | _ => none
  | .broadcast =>
    match d.pump with
    | .holding e none => some ((d.send e).setPump .reading)
    | .holding e (some call) => some ((d.send e).setPump (.parked call))
    | _ => none
  | .resolve allow =>
    match d.pump with
    | .parked none => some (d.setPump (if allow then .reading else .denied))
    | .parked (some call) =>
      some (if allow then d.setPump (.holding call none)
        else { d with pump := .denied, denied := d.denied ++ [call.seq] })
    | _ => none
  | .appendBlocked =>
    match d.pump with
    | .denied => some ((d.appendEvent .toolBlocked).setPump (.holding (d.next .toolBlocked) none))
    | _ => none
  | .connect => if d.connected then none else some { d with connected := true }
  | .openSession =>
    if d.connected = true ∧ d.client = .idle then some { d with client := .replayed (d.replayFrom d.fromSeq) }
    else none
  | .sendSnapshot =>
    match d.client with
    | .replayed events => some { d with client := .snapshotSent, frames := d.frames ++ events }
    | _ => none
  | .subscribe =>
    match d.client with
    | .snapshotSent => some { d with client := .subscribed }
    | _ => none
  | .recv =>
    -- the connection's loop does not turn while a command runs
    match d.queue, d.client with
    | e :: rest, .subscribed => some { d with queue := rest, pending := d.pending ++ [e] }
    | _ :: rest, .idle => some { d with queue := rest }
    | _, _ => none
  | .flush =>
    match d.client with
    | .subscribed => some { d with frames := d.frames ++ d.pending, pending := [] }
    | _ => none

/-! ## Delivery -/

/-- What the client has got since its `open_session`, and behind it what is on its way. -/
def delivery (d : EventStream) : List Event :=
  match d.client with
  | .idle => []
  | .replayed events => events ++ d.queue
  | .snapshotSent | .subscribed => d.frames ++ d.pending ++ d.queue

/-- Every forwarded event above the cursor once and in order, and no denied tool call. -/
structure Delivers (d : EventStream) : Prop where
  ordered : (d.delivery.filter fun e => decide (d.fromSeq < e.seq)).Pairwise fun a b => a.seq < b.seq
  complete : ∀ e ∈ d.forwarded, d.fromSeq < e.seq → e ∈ d.delivery
  clean : ∀ e ∈ d.delivery, e.seq ∉ d.denied

/-- At the store read nothing above the cursor is queued, held by the pump or denied; behind it no withheld
tool call above the cursor is allowed. -/
def KeepsDelivery (d : EventStream) : Action → Prop
  | .openSession => (∀ e ∈ d.queue, e.seq ≤ d.fromSeq) ∧ (∀ e ∈ d.pump.unsent, e.seq ≤ d.fromSeq) ∧
      ∀ e ∈ d.log, e.seq ∈ d.denied → e.seq ≤ d.fromSeq
  | .resolve true => d.client = .idle ∨ ∀ call ∈ d.pump.withheld, call.seq ≤ d.fromSeq
  | _ => True

instance (d : EventStream) (a : Action) : Decidable (KeepsDelivery d a) :=
  match a with
  | .openSession => inferInstanceAs (Decidable ((∀ e ∈ d.queue, e.seq ≤ d.fromSeq) ∧
      (∀ e ∈ d.pump.unsent, e.seq ≤ d.fromSeq) ∧ ∀ e ∈ d.log, e.seq ∈ d.denied → e.seq ≤ d.fromSeq))
  | .resolve true =>
    inferInstanceAs (Decidable (d.client = .idle ∨ ∀ call ∈ d.pump.withheld, call.seq ≤ d.fromSeq))
  | .resolve false | .receive .. | .dropCall | .appendRequest | .broadcast | .appendBlocked | .connect
  | .sendSnapshot | .subscribe | .recv | .flush => .isTrue trivial

/-! ## What one step does -/

/-- Before the snapshot is sent the client has no frame and nothing is pending; only a connection opens. -/
structure Quiet (d : EventStream) : Prop where
  idle : d.client = .idle → d.frames = [] ∧ d.pending = []
  replayed : ∀ events, d.client = .replayed events → d.frames = [] ∧ d.pending = []
  connected : d.client ≠ .idle → d.connected = true

inductive Effect (d : EventStream) : Action → EventStream → Prop
  /-- The pump persists an event and holds it, or the call it is about. -/
  | appended {a kind pump'} (ha : a ≠ .openSession) (hunsent : pump'.unsent = d.next kind :: d.pump.unsent)
      (hheld : ∀ e gate, pump' = .holding e gate → e = d.next kind)
      (hwithheld : ∀ call ∈ pump'.withheld, call = d.next kind ∨ call ∈ d.pump.withheld) :
      Effect d a ((d.appendEvent kind).setPump pump')
  | sent {e gate pump'} (hpump : d.pump = .holding e gate) (hunsent : pump'.unsent = (gate.getD none).toList)
      (hheld : ∀ e gate, pump' ≠ .holding e gate) (hwithheld : pump'.withheld = gate.getD none) :
      Effect d .broadcast ((d.send e).setPump pump')
  /-- The pump goes on without an event; only an approval makes it hold one. -/
  | moved {a pump'} (ha : a ≠ .openSession) (hunsent : pump'.unsent.Sublist d.pump.unsent)
      (hheld : ∀ e gate, pump' = .holding e gate → a = .resolve true ∧ d.pump.withheld = some e)
      (hwithheld : ∀ call ∈ pump'.withheld, call ∈ d.pump.withheld) : Effect d a (d.setPump pump')
  | denied {call} (hpump : d.pump = .parked (some call)) :
      Effect d (.resolve false) { d with pump := .denied, denied := d.denied ++ [call.seq] }
  | opened (hidle : d.client = .idle) (hconnected : d.connected = true) :
      Effect d .openSession { d with client := .replayed (d.replayFrom d.fromSeq) }
  /-- The connection passes events on. -/
  | passed {a d'} (ha : a ≠ .openSession) (hfrom : d'.fromSeq = d.fromSeq) (hlog : d'.log = d.log)
      (hpump : d'.pump = d.pump) (hforwarded : d'.forwarded = d.forwarded) (hdenied : d'.denied = d.denied)
      (hqueue : ∀ e ∈ d'.queue, e ∈ d.queue) (hidle : d'.client = .idle ↔ d.client = .idle)
      (hdelivery : d.client ≠ .idle → d'.delivery = d.delivery) (hquiet : Quiet d') : Effect d a d'

theorem step_effect {d d' : EventStream} {a : Action} (hu : Quiet d) (h : step d a = some d') : Effect d a d' := by
  cases a with
  | receive kind requireApproval =>
    simp only [step] at h
    split at h
    · rename_i hpump
      obtain rfl := Option.some.inj h
      refine .appended (by simp) ?_ (fun e gate he => ?_) fun call hcall => ?_
      · cases kind with
        | toolCall => cases requireApproval <;> simp [Pump.unsent, hpump]
        | _ => simp [Pump.unsent, hpump]
      · cases kind with
        | toolCall => cases requireApproval <;> simp_all
        | _ => simp_all
      · cases kind with
        | toolCall => cases requireApproval <;> simp_all [Pump.withheld]
        | _ => simp_all [Pump.withheld]
    · cases h
  | dropCall =>
    simp only [step] at h
    split at h
    · obtain rfl := Option.some.inj h
      exact .moved (by simp) (by simp [Pump.unsent]) (by simp) (by simp [Pump.withheld])
    · cases h
  | appendRequest =>
    simp only [step] at h
    split at h
    · rename_i call hpump
      obtain rfl := Option.some.inj h
      exact .appended (by simp) (by simp [Pump.unsent, hpump]) (by simp) (by simp [Pump.withheld, hpump])
    · cases h
  | broadcast =>
    simp only [step] at h
    split at h
    · rename_i e hpump
      obtain rfl := Option.some.inj h
      exact .sent hpump rfl (by simp) rfl
    · rename_i e call hpump
      obtain rfl := Option.some.inj h
      exact .sent hpump rfl (by simp) rfl
    · cases h
  | resolve allow =>
    simp only [step] at h
    split at h
    · rename_i hpump
      obtain rfl := Option.some.inj h
      cases allow with
      | true => exact .moved (by simp) (by simp [Pump.unsent]) (by simp) (by simp [Pump.withheld])
      | false => exact .moved (by simp) (by simp [Pump.unsent]) (by simp) (by simp [Pump.withheld])
    · rename_i call hpump
      obtain rfl := Option.some.inj h
      cases allow with
      | true =>
        refine .moved (by simp) (by simp [Pump.unsent, hpump]) (fun e gate he => ?_) (by simp [Pump.withheld])
        obtain ⟨rfl, -⟩ := Pump.holding.inj he
        exact ⟨rfl, by rw [hpump]; rfl⟩
      | false => exact .denied hpump
    · cases h
  | appendBlocked =>
    simp only [step] at h
    split at h
    · rename_i hpump
      obtain rfl := Option.some.inj h
      exact .appended (by simp) (by simp [Pump.unsent, hpump]) (by simp) (by simp [Pump.withheld])
    · cases h
  | connect =>
    simp only [step] at h
    split at h
    · cases h
    · obtain rfl := Option.some.inj h
      exact .passed (by simp) rfl rfl rfl rfl rfl (fun _ he => he) Iff.rfl (fun _ => rfl)
        ⟨hu.idle, hu.replayed, fun _ => rfl⟩
  | openSession =>
    simp only [step] at h
    split at h
    · obtain rfl := Option.some.inj h
      exact .opened (And.right ‹_›) (And.left ‹_›)
    · cases h
  | sendSnapshot =>
    simp only [step] at h
    split at h
    · rename_i events hclient
      obtain rfl := Option.some.inj h
      obtain ⟨hframes, hpending⟩ := hu.replayed events hclient
      exact .passed (by simp) rfl rfl rfl rfl rfl (fun _ he => he) (by simp [hclient])
        (fun _ => by simp [delivery, hclient, hframes, hpending])
        ⟨by simp, by simp, fun _ => hu.connected (by simp [hclient])⟩
    · cases h
  | subscribe =>
    simp only [step] at h
    split at h
    · rename_i hclient
      obtain rfl := Option.some.inj h
      exact .passed (by simp) rfl rfl rfl rfl rfl (fun _ he => he) (by simp [hclient])
        (fun _ => by simp [delivery, hclient]) ⟨by simp, by simp, fun _ => hu.connected (by simp [hclient])⟩
    · cases h
  | recv =>
    simp only [step] at h
    split at h
    · rename_i e rest hqueue hclient
      obtain rfl := Option.some.inj h
      exact .passed (by simp) rfl rfl rfl rfl rfl (fun _ he => hqueue ▸ List.mem_cons_of_mem e he) (by simp [hclient])
        (fun _ => by simp [delivery, hclient, hqueue])
        ⟨by simp [hclient], by simp [hclient], fun _ => hu.connected (by simp [hclient])⟩
    · rename_i e rest hqueue hclient
      obtain rfl := Option.some.inj h
      exact .passed (by simp) rfl rfl rfl rfl rfl (fun _ he => hqueue ▸ List.mem_cons_of_mem e he)
        Iff.rfl (fun hne => absurd hclient hne) ⟨hu.idle, hu.replayed, hu.connected⟩
    · cases h
  | flush =>
    simp only [step] at h
    split at h
    · rename_i hclient
      obtain rfl := Option.some.inj h
      exact .passed (by simp) rfl rfl rfl rfl rfl (fun _ he => he) (by simp [hclient])
        (fun _ => by simp [delivery, hclient])
        ⟨by simp [hclient], by simp [hclient], fun _ => hu.connected (by simp [hclient])⟩
    · cases h

/-! ## What every state satisfies -/

structure Sound (d : EventStream) : Prop where
  quiet : Quiet d
  ordered : d.log.Pairwise fun a b => a.seq < b.seq
  numbered : ∀ e ∈ d.log, e.seq ≤ d.log.length
  sent : ∀ e ∈ d.forwarded, e ∈ d.log ∧ e.seq ∉ d.denied
  queued : ∀ e ∈ d.queue, e ∈ d.forwarded
  unsent : ∀ e ∈ d.pump.unsent, e ∈ d.log ∧ e ∉ d.forwarded ∧ e.seq ∉ d.denied
  distinct : d.pump.unsent.Nodup
  denied : ∀ n ∈ d.denied, n ≤ d.log.length

section Sound

variable {d d' : EventStream} {a : Action} {kind : EventKind}

theorem sound_launch {fromSeq : Nat} : Sound (launch fromSeq) := by
  refine ⟨⟨?_, ?_, ?_⟩, ?_, ?_, ?_, ?_, ?_, ?_, ?_⟩ <;> simp [launch, Pump.unsent]

/-- Numbers identify events. -/
theorem Sound.seq_inj (hs : Sound d) {e f : Event} (he : e ∈ d.log) (hf : f ∈ d.log) (h : e.seq = f.seq) :
    e = f := by
  have hnodup : (d.log.map (·.seq)).Nodup := List.pairwise_map.mpr (hs.ordered.imp Nat.ne_of_lt)
  exact List.inj_on_of_nodup_map hnodup he hf h

theorem Sound.next_notMem (hs : Sound d) : d.next kind ∉ d.log := by
  intro h
  have := hs.numbered _ h
  simp only [next] at this
  omega

theorem Sound.ordered_append (hs : Sound d) :
    (d.log ++ [d.next kind]).Pairwise fun a b => a.seq < b.seq := by
  refine List.pairwise_append.mpr ⟨hs.ordered, List.pairwise_singleton _ _, fun e he f hf => ?_⟩
  obtain rfl := List.mem_singleton.mp hf
  exact Nat.lt_succ_of_le (hs.numbered e he)

theorem mem_send_queue {e x : Event} (h : x ∈ (d.send e).queue) : x ∈ d.queue ∨ x = e := by
  simp only [send] at h
  split at h
  · exact (List.mem_append.mp h).imp_right List.mem_singleton.mp
  · exact .inl h

/-- The pump persists an event and has it in hand. -/
theorem Sound.appendEvent {pump' : Pump} (hs : Sound d)
    (hunsent : pump'.unsent = d.next kind :: d.pump.unsent) : Sound ((d.appendEvent kind).setPump pump') where
  quiet := ⟨hs.quiet.idle, hs.quiet.replayed, hs.quiet.connected⟩
  ordered := hs.ordered_append
  numbered := by
    intro e he
    simp only [setPump, EventStream.appendEvent, List.length_append, List.length_singleton]
    obtain he | he := List.mem_append.mp he
    · exact Nat.le_succ_of_le (hs.numbered e he)
    · rw [List.mem_singleton.mp he]
      exact Nat.le_refl _
  sent := by
    intro e he
    obtain ⟨hin, hclean⟩ := hs.sent e he
    exact ⟨List.mem_append_left _ hin, hclean⟩
  queued := hs.queued
  unsent := by
    intro e he
    obtain rfl | he := List.mem_cons.mp (hunsent ▸ he)
    · refine ⟨List.mem_append_right _ (List.mem_singleton_self _), fun hf => hs.next_notMem (hs.sent _ hf).1, ?_⟩
      exact fun hden => Nat.not_succ_le_self _ (hs.denied _ hden)
    · obtain ⟨hin, hnew⟩ := hs.unsent e he
      exact ⟨List.mem_append_left _ hin, hnew⟩
  distinct := by
    show pump'.unsent.Nodup
    rw [hunsent]
    exact List.nodup_cons.mpr ⟨fun hin => hs.next_notMem (hs.unsent _ hin).1, hs.distinct⟩
  denied := by
    intro n hn
    simp only [setPump, EventStream.appendEvent, List.length_append, List.length_singleton]
    exact Nat.le_succ_of_le (hs.denied n hn)

/-- The pump broadcasts what it holds. -/
theorem Sound.send {e : Event} {gate : Option (Option Event)} {pump' : Pump} (hs : Sound d)
    (hpump : d.pump = .holding e gate) (hunsent : pump'.unsent = (gate.getD none).toList) :
    Sound ((d.send e).setPump pump') := by
  have hnodup := hs.distinct
  rw [hpump, Pump.unsent, List.nodup_cons] at hnodup
  have hrest : ∀ x ∈ pump'.unsent, x ∈ d.pump.unsent ∧ x ≠ e := by
    intro x hx
    rw [hunsent] at hx
    exact ⟨by rw [hpump]; exact List.mem_cons_of_mem _ hx, fun heq => hnodup.1 (heq ▸ hx)⟩
  obtain ⟨hlog, -, hclean⟩ := hs.unsent e (by simp [hpump, Pump.unsent])
  constructor
  case quiet => exact ⟨hs.quiet.idle, hs.quiet.replayed, hs.quiet.connected⟩
  case ordered => exact hs.ordered
  case numbered => exact hs.numbered
  case sent =>
    intro x hx
    obtain hx | hx := List.mem_append.mp hx
    · exact hs.sent x hx
    · obtain rfl := List.mem_singleton.mp hx
      exact ⟨hlog, hclean⟩
  case queued =>
    intro x hx
    exact List.mem_append.mpr ((mem_send_queue hx).imp (hs.queued x) fun h => List.mem_singleton.mpr h)
  case unsent =>
    intro x hx
    obtain ⟨hold, hne⟩ := hrest x hx
    obtain ⟨hin, hnew, hden⟩ := hs.unsent x hold
    refine ⟨hin, fun hf => ?_, hden⟩
    exact (List.mem_append.mp hf).elim hnew fun h => hne (List.mem_singleton.mp h)
  case distinct => exact hunsent ▸ hnodup.2
  case denied => exact hs.denied

/-- The pump drops a denied call. -/
theorem Sound.deny {call : Event} (hs : Sound d) (hpump : d.pump = .parked (some call)) :
    Sound { d with pump := .denied, denied := d.denied ++ [call.seq] } where
  quiet := ⟨hs.quiet.idle, hs.quiet.replayed, hs.quiet.connected⟩
  ordered := hs.ordered
  numbered := hs.numbered
  sent := by
    intro e he
    obtain ⟨hlog, hnew, -⟩ := hs.unsent call (by simp [hpump, Pump.unsent])
    obtain ⟨hin, hclean⟩ := hs.sent e he
    refine ⟨hin, fun hden => ?_⟩
    obtain hden | hden := List.mem_append.mp hden
    · exact hclean hden
    · exact hnew (hs.seq_inj hin hlog (List.mem_singleton.mp hden) ▸ he)
  queued := hs.queued
  unsent := by simp [Pump.unsent]
  distinct := by simp [Pump.unsent]
  denied := by
    intro n hn
    obtain ⟨hlog, -⟩ := hs.unsent call (by simp [hpump, Pump.unsent])
    obtain hn | hn := List.mem_append.mp hn
    · exact hs.denied n hn
    · exact (List.mem_singleton.mp hn) ▸ hs.numbered call hlog

theorem Effect.sound (h : Effect d a d') (hs : Sound d) : Sound d' := by
  cases h with
  | appended ha hunsent hheld hwithheld => exact hs.appendEvent hunsent
  | sent hpump hunsent hheld hwithheld => exact hs.send hpump hunsent
  | moved ha hunsent hheld hwithheld =>
    exact { hs with
      quiet := ⟨hs.quiet.idle, hs.quiet.replayed, hs.quiet.connected⟩
      unsent := fun e he => hs.unsent e (hunsent.subset he)
      distinct := hunsent.nodup hs.distinct }
  | denied hpump => exact hs.deny hpump
  | opened hidle hconnected =>
    exact { hs with quiet := ⟨by simp, fun _ _ => hs.quiet.idle hidle, fun _ => hconnected⟩ }
  | passed ha hfrom hlog hpump hforwarded hdenied hqueue hidle hdelivery hquiet =>
    constructor
    case quiet => exact hquiet
    case ordered => exact hlog ▸ hs.ordered
    case numbered => exact hlog ▸ hs.numbered
    case sent =>
      rw [hforwarded, hlog, hdenied]
      exact hs.sent
    case queued =>
      rw [hforwarded]
      exact fun e he => hs.queued e (hqueue e he)
    case unsent =>
      rw [hpump, hlog, hforwarded, hdenied]
      exact hs.unsent
    case distinct => exact hpump ▸ hs.distinct
    case denied =>
      rw [hdenied, hlog]
      exact hs.denied

end Sound

/-! ## Behind the store read -/

/-- An opened stream delivers, and what the pump has in hand is ahead of it. -/
structure Opened (d : EventStream) : Prop where
  delivers : Delivers d
  inLog : ∀ e ∈ d.delivery, e ∈ d.log
  ahead : ∀ e gate, d.pump = .holding e gate → d.fromSeq < e.seq → ∀ x ∈ d.delivery, x.seq < e.seq
  withheld : ∀ call ∈ d.pump.withheld, call ∉ d.delivery

section Opened

variable {d d' : EventStream} {a : Action}

/-- What the cursor lets through. -/
def above (d : EventStream) (events : List Event) : List Event := events.filter fun e => decide (d.fromSeq < e.seq)

theorem mem_above {e : Event} {events : List Event} : e ∈ d.above events ↔ e ∈ events ∧ d.fromSeq < e.seq := by
  simp [above]

theorem withheld_unsent {pump : Pump} {call : Event} (h : call ∈ pump.withheld) : call ∈ pump.unsent := by
  cases pump with
  | reading | denied => cases h
  | holding e gate => exact List.mem_cons_of_mem _ (Option.mem_toList.mpr h)
  | gating c =>
    obtain rfl := Option.some.inj h
    exact List.mem_singleton_self _
  | parked c => exact Option.mem_toList.mpr h

/-- The gate a pump has in hand stands behind the event it holds. -/
theorem Sound.withheld_ne (hs : Sound d) {e call : Event} {gate : Option (Option Event)}
    (hpump : d.pump = .holding e gate) (h : gate.getD none = some call) : call ≠ e := by
  have hnodup := hs.distinct
  rw [hpump, Pump.unsent, List.nodup_cons] at hnodup
  rintro rfl
  exact hnodup.1 (by simp [h])

/-- The store read. -/
theorem opened_openSession (hs : Sound d) (hkeeps : KeepsDelivery d .openSession) :
    Opened { d with client := .replayed (d.replayFrom d.fromSeq) } := by
  obtain ⟨hqueue, hunsent, hdenied⟩ := hkeeps
  have hsent : ∀ e ∈ d.queue, e ∈ d.log ∧ e.seq ∉ d.denied := fun e he => hs.sent e (hs.queued e he)
  have hmem : ∀ e, e ∈ d.replayFrom d.fromSeq ++ d.queue → (e ∈ d.log ∧ d.fromSeq < e.seq) ∨ e ∈ d.queue :=
    fun e he => (List.mem_append.mp he).imp_left fun h => mem_above.mp h
  refine ⟨⟨?_, fun e he habove => ?_, fun e he => ?_⟩, fun e he => ?_, fun e gate hp habove => ?_,
    fun call hc hin => ?_⟩
  · -- nothing above the cursor is queued, so the log's own order is the order
    have hnone : d.above d.queue = [] := List.filter_eq_nil_iff.mpr fun e he => by
      simpa using hqueue e he
    show (d.above (d.above d.log ++ d.queue)).Pairwise _
    rw [above, List.filter_append, ← above, ← above, hnone, List.append_nil]
    exact List.Pairwise.filter _ (List.Pairwise.filter _ hs.ordered)
  · exact List.mem_append_left _ (mem_above.mpr ⟨(hs.sent e he).1, habove⟩)
  · obtain ⟨hin, habove⟩ | hq := hmem e he
    · exact fun hden => Nat.not_lt_of_le (hdenied e hin hden) habove
    · exact (hsent e hq).2
  · exact (hmem e he).elim And.left fun hq => (hsent e hq).1
  · refine absurd habove (Nat.not_lt_of_le (hunsent e ?_))
    rw [show d.pump = .holding e gate from hp]
    exact List.mem_cons_self
  · have hin' := withheld_unsent hc
    obtain ⟨-, habove⟩ | hq := hmem call hin
    · exact Nat.not_lt_of_le (hunsent call hin') habove
    · exact (hs.unsent call hin').2.1 (hs.queued call hq)

theorem delivery_send {e : Event} {pump : Pump} (hne : d.client ≠ .idle) (hconnected : d.connected = true) :
    ((d.send e).setPump pump).delivery = d.delivery ++ [e] := by
  cases hclient : d.client with
  | idle => exact absurd hclient hne
  | _ => simp [delivery, send, setPump, hclient, hconnected]

/-- Sending what the pump holds puts it at the end. -/
theorem Opened.send (ho : Opened d) (hs : Sound d) (hne : d.client ≠ .idle) {e : Event}
    {gate : Option (Option Event)} {pump : Pump} (hpump : d.pump = .holding e gate)
    (hheld : ∀ e gate, pump ≠ .holding e gate) (hwithheld : pump.withheld = gate.getD none) :
    Opened ((d.send e).setPump pump) := by
  obtain ⟨⟨hordered, hcomplete, hclean⟩, hinLog, hahead, hwith⟩ := ho
  obtain ⟨hlog, -, hden⟩ := hs.unsent e (by simp [hpump, Pump.unsent])
  have hdel : ((d.send e).setPump pump).delivery = d.delivery ++ [e] :=
    delivery_send hne (hs.quiet.connected hne)
  have hmem : ∀ x ∈ ((d.send e).setPump pump).delivery, x ∈ d.delivery ∨ x = e := fun x hx =>
    (List.mem_append.mp (hdel ▸ hx)).imp_right List.mem_singleton.mp
  refine ⟨⟨?_, fun x hx habove => ?_, fun x hx => ?_⟩, fun x hx => ?_, fun x g hp => absurd hp (hheld x g),
    fun call hc hin => ?_⟩
  · rw [hdel, List.filter_append]
    refine List.pairwise_append.mpr ⟨hordered, List.Pairwise.filter _ (List.pairwise_singleton _ _), ?_⟩
    intro x hx y hy
    obtain ⟨hy, habove⟩ := List.mem_filter.mp hy
    obtain rfl := List.mem_singleton.mp hy
    exact hahead y gate hpump (of_decide_eq_true habove) x (List.mem_filter.mp hx).1
  · rw [hdel]
    obtain hx | hx := List.mem_append.mp hx
    · exact List.mem_append_left _ (hcomplete x hx habove)
    · exact List.mem_append_right _ hx
  · obtain hx | rfl := hmem x hx
    · exact hclean x hx
    · exact hden
  · obtain hx | rfl := hmem x hx
    · exact hinLog x hx
    · exact hlog
  · have hgate : gate.getD none = some call := hwithheld ▸ hc
    obtain hin | rfl := hmem call hin
    · exact hwith call (by rw [hpump]; exact hgate) hin
    · exact hs.withheld_ne hpump hgate rfl

theorem Effect.staysOpened (h : Effect d a d') (hs : Sound d) (hkeeps : KeepsDelivery d a)
    (ho : d.client ≠ .idle → Opened d) : d'.client ≠ .idle → Opened d' := by
  intro hne
  cases h with
  | opened => exact opened_openSession hs hkeeps
  | @appended a kind pump' ha hunsent hheld hwithheld =>
    obtain ⟨⟨hordered, hcomplete, hclean⟩, hinLog, -, hwith⟩ := ho hne
    refine ⟨⟨hordered, hcomplete, hclean⟩, fun e he => List.mem_append_left _ (hinLog e he),
      fun e gate hp _ x hx => ?_, fun call hc hin => ?_⟩
    · rw [hheld e gate hp]
      exact Nat.lt_succ_of_le (hs.numbered x (hinLog x hx))
    · obtain rfl | hc := hwithheld call hc
      · exact hs.next_notMem (hinLog _ hin)
      · exact hwith call hc hin
  | sent hpump _ hheld hwithheld => exact (ho hne).send hs hne hpump hheld hwithheld
  | moved _ _ hheld hwithheld =>
    obtain ⟨⟨hordered, hcomplete, hclean⟩, hinLog, -, hwith⟩ := ho hne
    refine ⟨⟨hordered, hcomplete, hclean⟩, hinLog, fun e gate hp habove => ?_, fun call hc =>
      hwith call (hwithheld call hc)⟩
    -- only an approval makes the pump hold an old event, and here none above the cursor
    obtain ⟨rfl, hcall⟩ := hheld e gate hp
    have hle := hkeeps.resolve_left hne e hcall
    exact absurd habove (Nat.not_lt_of_le hle)
  | @denied call hpump =>
    obtain ⟨⟨hordered, hcomplete, hclean⟩, hinLog, -, hwith⟩ := ho hne
    have hcall := (hs.unsent call (by simp [hpump, Pump.unsent])).1
    refine ⟨⟨hordered, hcomplete, fun e he hden => ?_⟩, hinLog, fun e gate hp => ?_, fun c hc => ?_⟩
    · obtain hden | hden := List.mem_append.mp hden
      · exact hclean e he hden
      · obtain rfl := hs.seq_inj (hinLog e he) hcall (List.mem_singleton.mp hden)
        exact hwith e (by rw [hpump]; rfl) he
    · cases hp
    · cases hc
  | passed _ hfrom hlog hpump hforwarded hdenied _ hidle hdelivery _ =>
    have hne' : d.client ≠ .idle := fun hi => hne (hidle.mpr hi)
    obtain ⟨⟨hordered, hcomplete, hclean⟩, hinLog, hahead, hwith⟩ := ho hne'
    have hsame := hdelivery hne'
    refine ⟨⟨?_, ?_, ?_⟩, ?_, ?_, ?_⟩
    · rw [hsame, hfrom]
      exact hordered
    · rw [hsame, hfrom, hforwarded]
      exact hcomplete
    · rw [hsame, hdenied]
      exact hclean
    · rw [hsame, hlog]
      exact hinLog
    · rw [hsame, hfrom, hpump]
      exact hahead
    · rw [hsame, hpump]
      exact hwith

end Opened

theorem opened_of_reaches {fromSeq : Nat} {d : EventStream} (hrun : Reaches step KeepsDelivery (launch fromSeq) d) :
    d.client ≠ .idle → Opened d := by
  refine (hrun.invariant (P := fun t => Sound t ∧ (t.client ≠ .idle → Opened t))
    ⟨sound_launch, fun h => absurd rfl h⟩ ?_).2
  rintro t a u ⟨hs, ho⟩ hkeeps hnext
  have heff := step_effect hs.quiet hnext
  exact ⟨heff.sound hs, heff.staysOpened hs hkeeps ho⟩

/-- **Replay and live delivery** have no gap and no duplicate along every run that keeps the condition: what
the client has got since its `open_session`, with what is on its way, carries every forwarded event above the
cursor once and in order, and no denied tool call. Once nothing is on its way, the client has it all. -/
theorem replay_and_live_once {fromSeq : Nat} {d : EventStream}
    (hrun : Reaches step KeepsDelivery (launch fromSeq) d) (hopen : d.client ≠ .idle) :
    Delivers d ∧ (d.client = .subscribed → d.queue = [] → d.pending = [] → d.delivery = d.frames) :=
  ⟨(opened_of_reaches hrun hopen).delivers, fun hclient hqueue hpending => by
    simp [delivery, hclient, hqueue, hpending]⟩

/-- The client opens the session and reads all there is. -/
def opens : List Action := [.openSession, .sendSnapshot, .subscribe]

/-- A message that the pump has not sent yet when the store is read. -/
def doubled : List Action := [.connect, .receive (.other "message") false] ++ opens ++ [.broadcast, .recv, .flush]

/-- A tool call and its approval request, the call let through or denied. -/
def gated (allow : Bool) : List Action :=
  [.receive .toolCall true, .appendRequest, .broadcast, .resolve allow]

/-- A message before the snapshot and one behind it, each once. -/
theorem replay_and_live_once_messages :
    ∃ d, Reaches step KeepsDelivery (launch 0) d ∧ d.frames = [⟨1, .other "message"⟩, ⟨2, .other "message"⟩] ∧
      Delivers d := by
  have hrun : ((runActions step KeepsDelivery (launch 0)
      ([.receive (.other "message") false, .broadcast, .connect] ++ opens ++
        [.receive (.other "message") false, .broadcast, .recv, .flush])).map fun d => (d.frames, d.client)) =
      some ([⟨1, .other "message"⟩, ⟨2, .other "message"⟩], .subscribed) := by decide
  obtain ⟨d, hd, hread⟩ := Option.map_eq_some_iff.mp hrun
  obtain ⟨hframes, hclient⟩ := Prod.mk.inj hread
  have hreach := reaches_of_run hd
  exact ⟨d, hreach, hframes, (replay_and_live_once hreach (by simp [hclient])).1⟩

/-- The message sent behind the store read comes twice; a tool call let through comes behind its approval
request; a denied one is in the snapshot. -/
theorem replay_and_live_fail :
    (∃ d, Reaches step (fun _ _ => True) (launch 0) d ∧
      d.frames = [⟨1, .other "message"⟩, ⟨1, .other "message"⟩] ∧ ¬Delivers d) ∧
    (∃ d, Reaches step (fun _ _ => True) (launch 0) d ∧
      d.frames = [⟨2, .approvalRequest⟩, ⟨1, .toolCall⟩] ∧ ¬Delivers d) ∧
    ∃ d, Reaches step (fun _ _ => True) (launch 0) d ∧ ⟨1, .toolCall⟩ ∈ d.frames ∧ 1 ∈ d.denied ∧ ¬Delivers d := by
  refine ⟨?_, ?_, ?_⟩
  · have hrun : runActions step (fun _ _ => True) (launch 0) doubled = some _ := rfl
    refine ⟨_, reaches_of_run hrun, rfl, fun h => ?_⟩
    exact absurd h.ordered (by decide)
  · have hrun : runActions step (fun _ _ => True) (launch 0)
        ([.connect] ++ opens ++ gated true ++ [.broadcast, .recv, .recv, .flush]) = some _ := rfl
    refine ⟨_, reaches_of_run hrun, rfl, fun h => ?_⟩
    exact absurd h.ordered (by decide)
  · have hrun : runActions step (fun _ _ => True) (launch 0) (gated false ++ [.connect] ++ opens) = some _ := rfl
    refine ⟨_, reaches_of_run hrun, by decide, by decide, fun h => ?_⟩
    exact absurd h.clean (by decide)

end EventStream

end RallyPoint.Cockpit
