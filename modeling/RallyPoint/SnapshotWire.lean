/-
# RallyPoint.SnapshotWire — a room snapshot across the daemon wire (`store.rs`, `snapshot_to_wire_value`).

Two shapes of one record. The public JSON of the room leaves some projections out, and leaves others out when they
are empty; the daemon wire carries what the public JSON always leaves out in a second object beside the first, under
a key that no field has. Crossing one of the wire bounds is an error and truncates nothing.

`Wire.RoomSnapshot` is the whole record; `RallyPoint.RoomSnapshot` is the part of it that the gates consult, and
`gateView` says which.
-/
import RallyPoint.Wire
import RallyPoint.Lib.Codec

namespace RallyPoint.Wire

open Lib Lib.Codec

/-! ## The record -/

structure ReadReceipt where
  tool : String
  lastReadSeq : Int
  behindBy : Int
  status : String
  deriving DecidableEq, Repr

/-- True bucket counts as projected. -/
structure RoomTotals where
  activeClaims : Nat := 0
  activeBlockers : Nat := 0
  openHandoffs : Nat := 0
  resolvedUnverified : Nat := 0
  currentDecisions : Nat := 0
  currentRisks : Nat := 0
  systemHealth : Nat := 0
  recentArtifacts : Nat := 0
  unconsumedArtifacts : Nat := 0
  staleFacts : Nat := 0
  squads : Nat := 0
  deriving DecidableEq, Repr

/-- What one bucket contributed, and what it left out. -/
structure BucketComposition where
  total : Nat := 0
  emitted : Nat := 0
  omitted : Nat := 0
  omittedIds : List String := []
  omittedIdsTruncated : Bool := false
  reason : String := ""
  deriving DecidableEq, Repr

/-- Present when the room omitted something; the buckets are in key order. -/
structure RoomComposition where
  budgetBytes : Option Nat
  emittedBytes : Nat
  buckets : List (String × BucketComposition)
  drillIn : List String
  overBudget : Bool
  overBudgetCauses : List String
  deriving DecidableEq, Repr

/-- Ledger-derived signals about the open queue; maps and sets in key order. -/
structure OpenQueueSignals where
  pickupSample : Nat := 0
  roomPickupP95Secs : Option Int := none
  laterDone : List (String × List String) := []
  rejectedNamed : List String := []
  deriving DecidableEq, Repr

/-- The projections that the public JSON always leaves out. -/
structure SnapshotInternals where
  contentMaxSeq : I64 := ⟨0, by decide⟩
  lastActivityTs : Option String := none
  pendingWakes : List Fact := []
  openObligations : List Fact := []
  openObligationsTarget : Option String := none
  openObligationsTotal : Usize := ⟨0, by decide⟩
  openObligationsHandoffs : Usize := ⟨0, by decide⟩
  openObligationsArtifacts : Usize := ⟨0, by decide⟩
  openObligationsOmitted : Usize := ⟨0, by decide⟩
  openObligationsAcceptedOpen : Option Usize := none
  /-- In order, without repeats. -/
  staleAuthors : List String := []
  /-- In key order. -/
  authorLastSeen : List (String × String) := []
  openQueueSignals : OpenQueueSignals := {}

/-- The whole snapshot. -/
structure RoomSnapshot where
  maxSeq : I64
  contentMaxSeq : I64
  lastActivityTs : Option String
  activeClaims : List Fact
  activeBlockers : List Fact
  openHandoffs : List Fact
  resolvedUnverified : List Fact
  pendingWakes : List Fact
  openObligations : List Fact
  openObligationsTarget : Option String
  openObligationsTotal : Usize
  openObligationsHandoffs : Usize
  openObligationsArtifacts : Usize
  openObligationsOmitted : Usize
  openObligationsAcceptedOpen : Option Usize
  currentDecisions : List Fact
  currentRisks : List Fact
  systemHealth : List Fact
  recentArtifacts : List Fact
  unconsumedArtifacts : List Fact
  staleFacts : List Fact
  squads : List Squad
  lead : Option String
  leadEpoch : Option I64
  roomFreezeId : Option String
  readers : List ReadReceipt
  mission : Option String
  totals : RoomTotals
  composition : Option RoomComposition
  staleAuthors : List String
  authorLastSeen : List (String × String)
  openQueueSignals : OpenQueueSignals

namespace RoomSnapshot

/-- The room the gates consult. -/
def gateView (s : RoomSnapshot) : RallyPoint.RoomSnapshot where
  maxSeq := s.maxSeq.val
  contentMaxSeq := s.contentMaxSeq.val
  lastActivityTs := s.lastActivityTs
  activeClaims := s.activeClaims
  activeBlockers := s.activeBlockers
  openHandoffs := s.openHandoffs
  openObligations := s.openObligations
  currentRisks := s.currentRisks
  systemHealth := s.systemHealth
  recentArtifacts := s.recentArtifacts
  unconsumedArtifacts := s.unconsumedArtifacts
  squads := s.squads
  lead := s.lead
  leadEpoch := s.leadEpoch.map (·.val)
  roomFreezeId := s.roomFreezeId
  mission := s.mission
  authorLastSeen tool := (s.authorLastSeen.find? fun entry => entry.1 == tool).map (·.2)

/-- Lift the skipped projections out for the wire. -/
def internals (s : RoomSnapshot) : SnapshotInternals where
  contentMaxSeq := s.contentMaxSeq
  lastActivityTs := s.lastActivityTs
  pendingWakes := s.pendingWakes
  openObligations := s.openObligations
  openObligationsTarget := s.openObligationsTarget
  openObligationsTotal := s.openObligationsTotal
  openObligationsHandoffs := s.openObligationsHandoffs
  openObligationsArtifacts := s.openObligationsArtifacts
  openObligationsOmitted := s.openObligationsOmitted
  openObligationsAcceptedOpen := s.openObligationsAcceptedOpen
  staleAuthors := s.staleAuthors
  authorLastSeen := s.authorLastSeen
  openQueueSignals := s.openQueueSignals

/-- Restore the skipped projections after the wire. -/
def restoreInternals (s : RoomSnapshot) (internals : SnapshotInternals) : RoomSnapshot :=
  { s with
    contentMaxSeq := internals.contentMaxSeq
    lastActivityTs := internals.lastActivityTs
    pendingWakes := internals.pendingWakes
    openObligations := internals.openObligations
    openObligationsTarget := internals.openObligationsTarget
    openObligationsTotal := internals.openObligationsTotal
    openObligationsHandoffs := internals.openObligationsHandoffs
    openObligationsArtifacts := internals.openObligationsArtifacts
    openObligationsOmitted := internals.openObligationsOmitted
    openObligationsAcceptedOpen := internals.openObligationsAcceptedOpen
    staleAuthors := internals.staleAuthors
    authorLastSeen := internals.authorLastSeen
    openQueueSignals := internals.openQueueSignals }

end RoomSnapshot

/-! ## The derived encodings of the field types -/

/-- How serde encodes the types of the fields. -/
structure FieldCodecs where
  fact : Codec Fact
  squad : Codec Squad
  receipt : Codec ReadReceipt
  totals : Codec RoomTotals
  composition : Codec RoomComposition
  /-- `BTreeSet<String>`. -/
  textSet : Codec (List String)
  /-- `BTreeMap<String, String>`. -/
  textMap : Codec (List (String × String))
  signals : Codec OpenQueueSignals

/-- Every value a snapshot holds comes back from its encoding, and a struct is never encoded as `null`. -/
structure FieldCodecs.RoundTrip (codecs : FieldCodecs) (s : RoomSnapshot) : Prop where
  activeClaims : ∀ f ∈ s.activeClaims, codecs.fact.RoundTrips f
  activeBlockers : ∀ f ∈ s.activeBlockers, codecs.fact.RoundTrips f
  openHandoffs : ∀ f ∈ s.openHandoffs, codecs.fact.RoundTrips f
  resolvedUnverified : ∀ f ∈ s.resolvedUnverified, codecs.fact.RoundTrips f
  pendingWakes : ∀ f ∈ s.pendingWakes, codecs.fact.RoundTrips f
  openObligations : ∀ f ∈ s.openObligations, codecs.fact.RoundTrips f
  currentDecisions : ∀ f ∈ s.currentDecisions, codecs.fact.RoundTrips f
  currentRisks : ∀ f ∈ s.currentRisks, codecs.fact.RoundTrips f
  systemHealth : ∀ f ∈ s.systemHealth, codecs.fact.RoundTrips f
  recentArtifacts : ∀ f ∈ s.recentArtifacts, codecs.fact.RoundTrips f
  unconsumedArtifacts : ∀ f ∈ s.unconsumedArtifacts, codecs.fact.RoundTrips f
  staleFacts : ∀ f ∈ s.staleFacts, codecs.fact.RoundTrips f
  squads : ∀ q ∈ s.squads, codecs.squad.RoundTrips q
  readers : ∀ r ∈ s.readers, codecs.receipt.RoundTrips r
  totals : codecs.totals.RoundTrips s.totals
  composition : ∀ c ∈ s.composition, codecs.composition.RoundTrips c ∧ codecs.composition.toWire c ≠ .null
  staleAuthors : codecs.textSet.RoundTrips s.staleAuthors
  authorLastSeen : codecs.textMap.RoundTrips s.authorLastSeen
  openQueueSignals : codecs.signals.RoundTrips s.openQueueSignals

/-! ## The two shapes -/

def maxWirePendingWakes : Nat := 1024
def maxWireOpenObligations : Nat := 1024
def maxWireStaleAuthors : Nat := 4096
def maxWireSnapshotInternalsBytes : Nat := 512 * 1024

/-- The key the internals ride under; no field has it. -/
def wireInternalsKey : String := "__internals"

section Encode

variable (codecs : FieldCodecs)

/-- A sequence that is left out when it is empty. -/
def skipEmpty {α : Type} (c : Codec α) (items : List α) : Option Json :=
  if items.isEmpty then none else some ((list c).toWire items)

/-- The public members, in key order. -/
def publicFields (s : RoomSnapshot) : List (String × Json) :=
  ("active_blockers", (list codecs.fact).toWire s.activeBlockers) ::
  ("active_claims", (list codecs.fact).toWire s.activeClaims) ::
  (skipNone "composition" (s.composition.map codecs.composition.toWire) ++
  ("current_decisions", (list codecs.fact).toWire s.currentDecisions) ::
  ("current_risks", (list codecs.fact).toWire s.currentRisks) :: ("lead", (option text).toWire s.lead) ::
  (skipNone "lead_epoch" (s.leadEpoch.map i64.toWire) ++
  ("max_seq", i64.toWire s.maxSeq) ::
  (skipNone "mission" (s.mission.map text.toWire) ++
  ("open_handoffs", (list codecs.fact).toWire s.openHandoffs) ::
  (skipNone "readers" (skipEmpty codecs.receipt s.readers) ++
  ("recent_artifacts", (list codecs.fact).toWire s.recentArtifacts) ::
  (skipNone "resolved_unverified" (skipEmpty codecs.fact s.resolvedUnverified) ++
  (skipNone "room_freeze_id" (s.roomFreezeId.map text.toWire) ++
  ("squads", (list codecs.squad).toWire s.squads) ::
  ("stale_facts", (list codecs.fact).toWire s.staleFacts) ::
  (skipNone "system_health" (skipEmpty codecs.fact s.systemHealth) ++
  [("totals", codecs.totals.toWire s.totals),
    ("unconsumed_artifacts", (list codecs.fact).toWire s.unconsumedArtifacts)])))))))

/-- `serde_json::to_value` of a snapshot. -/
def snapshotToValue (s : RoomSnapshot) : Json := .object (publicFields codecs s)

/-- The members of the internals, in key order. -/
def internalFields (i : SnapshotInternals) : List (String × Json) :=
  [("author_last_seen", codecs.textMap.toWire i.authorLastSeen),
    ("content_max_seq", i64.toWire i.contentMaxSeq),
    ("last_activity_ts", (option text).toWire i.lastActivityTs),
    ("open_obligations", (list codecs.fact).toWire i.openObligations),
    ("open_obligations_accepted_open", (option usize).toWire i.openObligationsAcceptedOpen),
    ("open_obligations_artifacts", usize.toWire i.openObligationsArtifacts),
    ("open_obligations_handoffs", usize.toWire i.openObligationsHandoffs),
    ("open_obligations_omitted", usize.toWire i.openObligationsOmitted),
    ("open_obligations_target", (option text).toWire i.openObligationsTarget),
    ("open_obligations_total", usize.toWire i.openObligationsTotal),
    ("open_queue_signals", codecs.signals.toWire i.openQueueSignals),
    ("pending_wakes", (list codecs.fact).toWire i.pendingWakes),
    ("stale_authors", codecs.textSet.toWire i.staleAuthors)]

def internalsToValue (i : SnapshotInternals) : Json := .object (internalFields codecs i)

/-- The snapshot for the wire; a bound that is crossed is an error. -/
def snapshotToWireValue (s : RoomSnapshot) : Except String Json :=
  let internals := s.internals
  let wakes := internals.pendingWakes.length
  let obligations := internals.openObligations.length
  let authors := internals.staleAuthors.length
  let internalsBytes := (internalsToValue codecs internals).bytes
  if wakes > maxWirePendingWakes then
    .error s!"snapshot internals exceed pending-wake bound: {wakes} > {maxWirePendingWakes}"
  else if obligations > maxWireOpenObligations then
    .error s!"snapshot internals exceed open-obligation bound: {obligations} > {maxWireOpenObligations}"
  else if authors > maxWireStaleAuthors then
    .error s!"snapshot internals exceed stale-author bound: {authors} > {maxWireStaleAuthors}"
  else if internalsBytes > maxWireSnapshotInternalsBytes then
    .error s!"snapshot internals exceed byte bound: {internalsBytes} > {maxWireSnapshotInternalsBytes}"
  else
    match snapshotToValue codecs s with
    -- the key sorts before every field name
    | .object fields => .ok (.object ((wireInternalsKey, internalsToValue codecs internals) :: fields))
    | value => .ok value

/-- `serde_json::from_value::<SnapshotInternals>`: a missing member has its default. -/
def internalsFromValue : Json → Except String SnapshotInternals
  | .object fields => do
    let contentMaxSeq ← i64.readDefault fields "content_max_seq" ⟨0, by decide⟩
    let lastActivityTs ← (option text).readDefault fields "last_activity_ts" none
    let pendingWakes ← (list codecs.fact).readDefault fields "pending_wakes" []
    let openObligations ← (list codecs.fact).readDefault fields "open_obligations" []
    let openObligationsTarget ← (option text).readDefault fields "open_obligations_target" none
    let openObligationsTotal ← usize.readDefault fields "open_obligations_total" ⟨0, by decide⟩
    let openObligationsHandoffs ← usize.readDefault fields "open_obligations_handoffs" ⟨0, by decide⟩
    let openObligationsArtifacts ← usize.readDefault fields "open_obligations_artifacts" ⟨0, by decide⟩
    let openObligationsOmitted ← usize.readDefault fields "open_obligations_omitted" ⟨0, by decide⟩
    let openObligationsAcceptedOpen ← (option usize).readDefault fields "open_obligations_accepted_open" none
    let staleAuthors ← codecs.textSet.readDefault fields "stale_authors" []
    let authorLastSeen ← codecs.textMap.readDefault fields "author_last_seen" []
    let openQueueSignals ← codecs.signals.readDefault fields "open_queue_signals" {}
    .ok { contentMaxSeq, lastActivityTs, pendingWakes, openObligations, openObligationsTarget,
          openObligationsTotal, openObligationsHandoffs, openObligationsArtifacts, openObligationsOmitted,
          openObligationsAcceptedOpen, staleAuthors, authorLastSeen, openQueueSignals }
  | _ => .error "invalid type: expected struct SnapshotInternals"

/-- `serde_json::from_value::<RoomSnapshot>`: the skipped projections have their defaults. -/
def snapshotFromValue : Json → Except String RoomSnapshot
  | .object fields => do
    let maxSeq ← i64.readRequired fields "max_seq"
    let activeClaims ← (list codecs.fact).readRequired fields "active_claims"
    let activeBlockers ← (list codecs.fact).readRequired fields "active_blockers"
    let openHandoffs ← (list codecs.fact).readRequired fields "open_handoffs"
    let resolvedUnverified ← (list codecs.fact).readDefault fields "resolved_unverified" []
    let currentDecisions ← (list codecs.fact).readRequired fields "current_decisions"
    let currentRisks ← (list codecs.fact).readRequired fields "current_risks"
    let systemHealth ← (list codecs.fact).readDefault fields "system_health" []
    let recentArtifacts ← (list codecs.fact).readRequired fields "recent_artifacts"
    let unconsumedArtifacts ← (list codecs.fact).readRequired fields "unconsumed_artifacts"
    let staleFacts ← (list codecs.fact).readRequired fields "stale_facts"
    let squads ← (list codecs.squad).readRequired fields "squads"
    let lead ← (option text).readDefault fields "lead" none
    let leadEpoch ← (option i64).readDefault fields "lead_epoch" none
    let roomFreezeId ← (option text).readDefault fields "room_freeze_id" none
    let readers ← (list codecs.receipt).readDefault fields "readers" []
    let mission ← (option text).readDefault fields "mission" none
    let totals ← codecs.totals.readDefault fields "totals" {}
    let composition ← (option codecs.composition).readDefault fields "composition" none
    .ok { maxSeq, activeClaims, activeBlockers, openHandoffs, resolvedUnverified, currentDecisions, currentRisks,
          systemHealth, recentArtifacts, unconsumedArtifacts, staleFacts, squads, lead, leadEpoch, roomFreezeId,
          readers, mission, totals, composition
          contentMaxSeq := ⟨0, by decide⟩, lastActivityTs := none, pendingWakes := [], openObligations := []
          openObligationsTarget := none, openObligationsTotal := ⟨0, by decide⟩
          openObligationsHandoffs := ⟨0, by decide⟩, openObligationsArtifacts := ⟨0, by decide⟩
          openObligationsOmitted := ⟨0, by decide⟩, openObligationsAcceptedOpen := none, staleAuthors := []
          authorLastSeen := [], openQueueSignals := {} }
  | _ => .error "invalid type: expected struct RoomSnapshot"

/-- Decode a wire snapshot, restoring the internals if they are there. -/
def snapshotFromWireValue (value : Json) : Except String RoomSnapshot := do
  let (internals, rest) ← match value with
    | .object fields =>
      match getField fields wireInternalsKey with
      | some v => do
        let internals ← internalsFromValue codecs v
        pure (some internals, .object (fields.filter fun member => member.1 != wireInternalsKey))
      | none => pure (none, .object fields)
    | value => pure (none, value)
  let snapshot ← snapshotFromValue codecs rest
  pure (internals.elim snapshot snapshot.restoreInternals)

end Encode

/-! ## The round trip -/

section RoundTrip

variable {codecs : FieldCodecs} {s : RoomSnapshot} {fields : List (String × Json)}

theorem optText_roundTrips (t : Option String) : (option text).RoundTrips t :=
  option_roundTrips fun _ _ => ⟨rfl, fun h => by cases h⟩

theorem optI64_roundTrips (n : Option I64) : (option i64).RoundTrips n :=
  option_roundTrips fun m _ => ⟨i64_roundTrips m, fun h => by cases h⟩

theorem optUsize_roundTrips (n : Option Usize) : (option usize).RoundTrips n :=
  option_roundTrips fun m _ => ⟨usize_roundTrips m, fun h => by cases h⟩

/-- A member that is left out when it is none. -/
theorem readOption_of_skip {α : Type} {c : Codec α} {key : String} {a : Option α}
    (hr : (option c).RoundTrips a) (h : getField fields key = a.map c.toWire) :
    (option c).readDefault fields key none = .ok a := by
  have hskip : getField fields key = if a.isNone then none else some ((option c).toWire a) := by
    rw [h]
    cases a <;> rfl
  exact readDefault_of_skip hr (fun hnone => Option.isNone_iff_eq_none.mp hnone) hskip

/-- A member that is left out when it is empty. -/
theorem readList_of_skip {α : Type} {c : Codec α} {key : String} {items : List α}
    (hr : (list c).RoundTrips items) (h : getField fields key = skipEmpty c items) :
    (list c).readDefault fields key [] = .ok items :=
  readDefault_of_skip hr (fun hempty => List.isEmpty_iff.mp hempty) h

/-- **The internals come back**, every projection the public JSON leaves out among them. -/
theorem internalsFromValue_internalsToValue (h : codecs.RoundTrip s) :
    internalsFromValue codecs (internalsToValue codecs s.internals) = .ok s.internals := by
  obtain ⟨fields, hfields⟩ : ∃ fields, fields = internalFields codecs s.internals := ⟨_, rfl⟩
  have hContent : i64.readDefault fields "content_max_seq" ⟨0, by decide⟩ = .ok s.contentMaxSeq :=
    readDefault_of (i64_roundTrips _) (by simp [hfields, internalFields, RoomSnapshot.internals])
  have hActivity : (option text).readDefault fields "last_activity_ts" none = .ok s.lastActivityTs :=
    readDefault_of (optText_roundTrips _) (by simp [hfields, internalFields, RoomSnapshot.internals])
  have hWakes : (list codecs.fact).readDefault fields "pending_wakes" [] = .ok s.pendingWakes :=
    readDefault_of (list_roundTrips h.pendingWakes) (by simp [hfields, internalFields, RoomSnapshot.internals])
  have hObligations : (list codecs.fact).readDefault fields "open_obligations" [] = .ok s.openObligations :=
    readDefault_of (list_roundTrips h.openObligations)
      (by simp [hfields, internalFields, RoomSnapshot.internals])
  have hTarget : (option text).readDefault fields "open_obligations_target" none = .ok s.openObligationsTarget :=
    readDefault_of (optText_roundTrips _) (by simp [hfields, internalFields, RoomSnapshot.internals])
  have hTotal : usize.readDefault fields "open_obligations_total" ⟨0, by decide⟩ = .ok s.openObligationsTotal :=
    readDefault_of (usize_roundTrips _) (by simp [hfields, internalFields, RoomSnapshot.internals])
  have hHandoffs :
      usize.readDefault fields "open_obligations_handoffs" ⟨0, by decide⟩ = .ok s.openObligationsHandoffs :=
    readDefault_of (usize_roundTrips _) (by simp [hfields, internalFields, RoomSnapshot.internals])
  have hArtifacts :
      usize.readDefault fields "open_obligations_artifacts" ⟨0, by decide⟩ = .ok s.openObligationsArtifacts :=
    readDefault_of (usize_roundTrips _) (by simp [hfields, internalFields, RoomSnapshot.internals])
  have hOmitted :
      usize.readDefault fields "open_obligations_omitted" ⟨0, by decide⟩ = .ok s.openObligationsOmitted :=
    readDefault_of (usize_roundTrips _) (by simp [hfields, internalFields, RoomSnapshot.internals])
  have hAccepted : (option usize).readDefault fields "open_obligations_accepted_open" none =
      .ok s.openObligationsAcceptedOpen :=
    readDefault_of (optUsize_roundTrips _) (by simp [hfields, internalFields, RoomSnapshot.internals])
  have hAuthors : codecs.textSet.readDefault fields "stale_authors" [] = .ok s.staleAuthors :=
    readDefault_of h.staleAuthors (by simp [hfields, internalFields, RoomSnapshot.internals])
  have hSeen : codecs.textMap.readDefault fields "author_last_seen" [] = .ok s.authorLastSeen :=
    readDefault_of h.authorLastSeen (by simp [hfields, internalFields, RoomSnapshot.internals])
  have hSignals : codecs.signals.readDefault fields "open_queue_signals" {} = .ok s.openQueueSignals :=
    readDefault_of h.openQueueSignals (by simp [hfields, internalFields, RoomSnapshot.internals])
  rw [internalsToValue, ← hfields, internalsFromValue]
  simp only [hContent, hActivity, hWakes, hObligations, hTarget, hTotal, hHandoffs, hArtifacts, hOmitted,
    hAccepted, hAuthors, hSeen, hSignals, bind, Except.bind]
  rfl

/-- **The public members come back**; what they leave out is filled in from the internals. -/
theorem snapshotFromValue_snapshotToValue (h : codecs.RoundTrip s) :
    (snapshotFromValue codecs (snapshotToValue codecs s)).map (·.restoreInternals s.internals) = .ok s := by
  obtain ⟨fields, hfields⟩ : ∃ fields, fields = publicFields codecs s := ⟨_, rfl⟩
  have hMaxSeq : i64.readRequired fields "max_seq" = .ok s.maxSeq :=
    readRequired_of (i64_roundTrips _) (by simp [hfields, publicFields])
  have hClaims : (list codecs.fact).readRequired fields "active_claims" = .ok s.activeClaims :=
    readRequired_of (list_roundTrips h.activeClaims) (by simp [hfields, publicFields])
  have hBlockers : (list codecs.fact).readRequired fields "active_blockers" = .ok s.activeBlockers :=
    readRequired_of (list_roundTrips h.activeBlockers) (by simp [hfields, publicFields])
  have hHandoffs : (list codecs.fact).readRequired fields "open_handoffs" = .ok s.openHandoffs :=
    readRequired_of (list_roundTrips h.openHandoffs) (by simp [hfields, publicFields])
  have hUnverified : (list codecs.fact).readDefault fields "resolved_unverified" [] = .ok s.resolvedUnverified :=
    readList_of_skip (list_roundTrips h.resolvedUnverified) (by simp [hfields, publicFields])
  have hDecisions : (list codecs.fact).readRequired fields "current_decisions" = .ok s.currentDecisions :=
    readRequired_of (list_roundTrips h.currentDecisions) (by simp [hfields, publicFields])
  have hRisks : (list codecs.fact).readRequired fields "current_risks" = .ok s.currentRisks :=
    readRequired_of (list_roundTrips h.currentRisks) (by simp [hfields, publicFields])
  have hHealth : (list codecs.fact).readDefault fields "system_health" [] = .ok s.systemHealth :=
    readList_of_skip (list_roundTrips h.systemHealth) (by simp [hfields, publicFields])
  have hArtifacts : (list codecs.fact).readRequired fields "recent_artifacts" = .ok s.recentArtifacts :=
    readRequired_of (list_roundTrips h.recentArtifacts) (by simp [hfields, publicFields])
  have hUnconsumed : (list codecs.fact).readRequired fields "unconsumed_artifacts" = .ok s.unconsumedArtifacts :=
    readRequired_of (list_roundTrips h.unconsumedArtifacts) (by simp [hfields, publicFields])
  have hStale : (list codecs.fact).readRequired fields "stale_facts" = .ok s.staleFacts :=
    readRequired_of (list_roundTrips h.staleFacts) (by simp [hfields, publicFields])
  have hSquads : (list codecs.squad).readRequired fields "squads" = .ok s.squads :=
    readRequired_of (list_roundTrips h.squads) (by simp [hfields, publicFields])
  have hLead : (option text).readDefault fields "lead" none = .ok s.lead :=
    readDefault_of (optText_roundTrips _) (by simp [hfields, publicFields])
  have hEpoch : (option i64).readDefault fields "lead_epoch" none = .ok s.leadEpoch :=
    readOption_of_skip (optI64_roundTrips _) (by simp [hfields, publicFields])
  have hFreeze : (option text).readDefault fields "room_freeze_id" none = .ok s.roomFreezeId :=
    readOption_of_skip (optText_roundTrips _) (by simp [hfields, publicFields])
  have hReaders : (list codecs.receipt).readDefault fields "readers" [] = .ok s.readers :=
    readList_of_skip (list_roundTrips h.readers) (by simp [hfields, publicFields])
  have hMission : (option text).readDefault fields "mission" none = .ok s.mission :=
    readOption_of_skip (optText_roundTrips _) (by simp [hfields, publicFields])
  have hTotals : codecs.totals.readDefault fields "totals" {} = .ok s.totals :=
    readDefault_of h.totals (by simp [hfields, publicFields])
  have hComposition : (option codecs.composition).readDefault fields "composition" none = .ok s.composition :=
    readOption_of_skip (option_roundTrips h.composition) (by simp [hfields, publicFields])
  rw [snapshotToValue, ← hfields, snapshotFromValue]
  simp only [hMaxSeq, hClaims, hBlockers, hHandoffs, hUnverified, hDecisions, hRisks, hHealth, hArtifacts,
    hUnconsumed, hStale, hSquads, hLead, hEpoch, hFreeze, hReaders, hMission, hTotals, hComposition, bind,
    Except.bind]
  rfl

theorem all_skipNone {key key' : String} {o : Option Json} :
    (skipNone key o).all (fun member => member.1 != key') = (o.isNone || key != key') := by
  cases o <;> simp [skipNone]

/-- No public member takes the key of the internals. -/
theorem publicFields_without_internals :
    (publicFields codecs s).filter (fun member => member.1 != wireInternalsKey) = publicFields codecs s := by
  have hall : (publicFields codecs s).all (fun member => member.1 != wireInternalsKey) = true := by
    simp [publicFields, wireInternalsKey, List.all_append, all_skipNone, -List.all_eq_true]
  exact List.filter_eq_self.mpr (List.all_eq_true.mp hall)

/-- The bounds under which a snapshot may cross the wire. -/
structure WithinWireBounds (codecs : FieldCodecs) (s : RoomSnapshot) : Prop where
  pendingWakes : s.pendingWakes.length ≤ maxWirePendingWakes
  openObligations : s.openObligations.length ≤ maxWireOpenObligations
  staleAuthors : s.staleAuthors.length ≤ maxWireStaleAuthors
  internalsBytes : (internalsToValue codecs s.internals).bytes ≤ maxWireSnapshotInternalsBytes

theorem snapshotToWireValue_of_within (h : WithinWireBounds codecs s) :
    snapshotToWireValue codecs s =
      .ok (.object ((wireInternalsKey, internalsToValue codecs s.internals) :: publicFields codecs s)) := by
  have hwakes : ¬s.internals.pendingWakes.length > maxWirePendingWakes := Nat.not_lt.mpr h.pendingWakes
  have hobligations : ¬s.internals.openObligations.length > maxWireOpenObligations :=
    Nat.not_lt.mpr h.openObligations
  have hauthors : ¬s.internals.staleAuthors.length > maxWireStaleAuthors := Nat.not_lt.mpr h.staleAuthors
  have hbytes : ¬(internalsToValue codecs s.internals).bytes > maxWireSnapshotInternalsBytes :=
    Nat.not_lt.mpr h.internalsBytes
  unfold snapshotToWireValue snapshotToValue
  dsimp only
  rw [if_neg hwakes, if_neg hobligations, if_neg hauthors, if_neg hbytes]

/-- **A snapshot crosses the wire whole.** Within the bounds it is encoded, and decoding gives back the snapshot,
the projections that the public JSON leaves out included: whatever reads it, reads the same. -/
theorem snapshot_wire_round_trip (hfields : codecs.RoundTrip s) (hbounds : WithinWireBounds codecs s) :
    ∃ value, snapshotToWireValue codecs s = .ok value ∧ snapshotFromWireValue codecs value = .ok s ∧
      (snapshotFromWireValue codecs value).map RoomSnapshot.gateView = .ok s.gateView := by
  refine ⟨_, snapshotToWireValue_of_within hbounds, ?_⟩
  have hdecode : snapshotFromWireValue codecs
      (.object ((wireInternalsKey, internalsToValue codecs s.internals) :: publicFields codecs s)) = .ok s := by
    have hpublic := snapshotFromValue_snapshotToValue hfields
    simp only [snapshotToValue] at hpublic
    simp only [snapshotFromWireValue, getField_cons, if_true, List.filter_cons, bne_self_eq_false,
      Bool.false_eq_true, if_false, publicFields_without_internals,
      internalsFromValue_internalsToValue hfields]
    exact hpublic
  exact ⟨hdecode, by rw [hdecode]; rfl⟩

end RoundTrip

/-! ## One crossing -/

namespace WireSample

/-- For a type of which the sample holds no value. -/
def absent (α : Type) : Codec α where
  toWire _ := .null
  fromWire _ := .error "no value"

def fact : Codec Fact := ⟨factToWire .sample, factFromWire .sample⟩

def totals : Codec RoomTotals where
  toWire t := .object [("active_blockers", .int t.activeBlockers), ("active_claims", .int t.activeClaims),
    ("current_decisions", .int t.currentDecisions), ("current_risks", .int t.currentRisks),
    ("open_handoffs", .int t.openHandoffs), ("recent_artifacts", .int t.recentArtifacts),
    ("resolved_unverified", .int t.resolvedUnverified), ("squads", .int t.squads),
    ("stale_facts", .int t.staleFacts), ("system_health", .int t.systemHealth),
    ("unconsumed_artifacts", .int t.unconsumedArtifacts)]
  fromWire
    | .object [(_, .int activeBlockers), (_, .int activeClaims), (_, .int currentDecisions),
        (_, .int currentRisks), (_, .int openHandoffs), (_, .int recentArtifacts), (_, .int resolvedUnverified),
        (_, .int squads), (_, .int staleFacts), (_, .int systemHealth), (_, .int unconsumedArtifacts)] =>
      .ok ⟨activeClaims.toNat, activeBlockers.toNat, openHandoffs.toNat, resolvedUnverified.toNat,
        currentDecisions.toNat, currentRisks.toNat, systemHealth.toNat, recentArtifacts.toNat,
        unconsumedArtifacts.toNat, staleFacts.toNat, squads.toNat⟩
    | _ => .error "invalid type: expected struct RoomTotals"

def textMap : Codec (List (String × String)) where
  toWire entries := .object (entries.map fun entry => (entry.1, .string entry.2))
  fromWire
    | .object fields => fields.mapM fun member => (text.fromWire member.2).map fun value => (member.1, value)
    | _ => .error "invalid type: expected a map"

/-- The signals of a room in which nothing was picked up. -/
def signals : Codec OpenQueueSignals where
  toWire s := .object [("later_done", .object []), ("pickup_sample", .int s.pickupSample),
    ("room_pickup_p95_secs", .null)]
  fromWire
    | .object [(_, .object []), (_, .int pickupSample), (_, .null)] => .ok { pickupSample := pickupSample.toNat }
    | _ => .error "invalid type: expected struct OpenQueueSignals"

def codecs : FieldCodecs where
  fact := fact
  squad := absent Squad
  receipt := absent ReadReceipt
  totals := totals
  composition := absent RoomComposition
  textSet := list text
  textMap := textMap
  signals := signals

def request : Fact :=
  { eventId := "h1", seq := 1, kind := .handoff, tool := some "alice", target := some "bob"
    subject := "please review", createdAt := "2026-01-01T00:00:00Z" }

theorem one_inRange : (-9223372036854775808 : Int) ≤ 1 ∧ (1 : Int) ≤ 9223372036854775807 := by decide

/-- A room of one open handoff, whose author has fallen silent. -/
def snapshot : RoomSnapshot where
  maxSeq := ⟨1, one_inRange⟩
  contentMaxSeq := ⟨1, one_inRange⟩
  lastActivityTs := some "2026-01-01T00:00:00Z"
  activeClaims := []
  activeBlockers := []
  openHandoffs := [request]
  resolvedUnverified := []
  pendingWakes := []
  openObligations := [request]
  openObligationsTarget := some "bob"
  openObligationsTotal := ⟨1, by decide⟩
  openObligationsHandoffs := ⟨1, by decide⟩
  openObligationsArtifacts := ⟨0, by decide⟩
  openObligationsOmitted := ⟨0, by decide⟩
  openObligationsAcceptedOpen := some ⟨0, by decide⟩
  currentDecisions := []
  currentRisks := []
  systemHealth := []
  recentArtifacts := []
  unconsumedArtifacts := []
  staleFacts := []
  squads := []
  lead := none
  leadEpoch := none
  roomFreezeId := none
  readers := []
  mission := some "ship the parser"
  totals := { openHandoffs := 1 }
  composition := none
  staleAuthors := ["alice"]
  authorLastSeen := [("alice", "2026-01-01T00:00:00Z")]
  openQueueSignals := {}

theorem roundTrips_request : codecs.fact.RoundTrips request :=
  factFromWire_factToWire .sample (by decide)

theorem codecs_roundTrip : codecs.RoundTrip snapshot where
  activeClaims := by simp [snapshot]
  activeBlockers := by simp [snapshot]
  openHandoffs := by simpa [snapshot] using roundTrips_request
  resolvedUnverified := by simp [snapshot]
  pendingWakes := by simp [snapshot]
  openObligations := by simpa [snapshot] using roundTrips_request
  currentDecisions := by simp [snapshot]
  currentRisks := by simp [snapshot]
  systemHealth := by simp [snapshot]
  recentArtifacts := by simp [snapshot]
  unconsumedArtifacts := by simp [snapshot]
  staleFacts := by simp [snapshot]
  squads := by simp [snapshot]
  readers := by simp [snapshot]
  totals := rfl
  composition := by simp [snapshot]
  staleAuthors := rfl
  authorLastSeen := rfl
  openQueueSignals := rfl

end WireSample

open WireSample in
/-- The obligation addressed to bob and the silence of alice arrive with the handoff. -/
theorem snapshot_wire_round_trip_sample :
    ∃ value, snapshotToWireValue codecs snapshot = .ok value ∧
      snapshotFromWireValue codecs value = .ok snapshot ∧
      (snapshotFromWireValue codecs value).map RoomSnapshot.gateView = .ok snapshot.gateView :=
  snapshot_wire_round_trip codecs_roundTrip
    ⟨by decide, by decide, by decide, by decide +kernel⟩

end RallyPoint.Wire
