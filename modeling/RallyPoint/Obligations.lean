/-
# RallyPoint.Obligations — handoffs and what an agent still owes an answer to (`store.rs`).

Two projections read the same facts and must not be confused. `open_handoffs` asks which handoffs are
still live in the room; its closers include the reaper's typed expiry and, for rows older than session
binding, any author at all. `open_obligations` asks what one named agent still owes: only that agent,
writing after the request, from the session the request strictly names if it names one, and never the
system, can answer. Age, read cursors and reaper expiry close nothing here.
-/
import RallyPoint.Retraction
import Mathlib.Data.List.Sort

namespace RallyPoint

open Lib

/-! ## Closing a handoff -/

/-- The value of a `reaper:<key>=` evidence marker, trimmed; an empty value is no value. -/
def reaperMarker (fact : Fact) (key : String) : Option String :=
  ((fact.evidence.findSome? (stripPrefix ("reaper:" ++ key ++ "="))).map trim).filter
    fun value => !value.toList.isEmpty

/-- The reaper's typed expiry of exactly this handoff. -/
def isReaperHandoffExpiry (handoff closer : Fact) : Bool :=
  if closer.kind != .resolve || !isSystemAuthored closer then false
  else
    -- the markers decide, not the closer's own `ref`
    reaperMarker closer "ref_id" == some handoff.eventId &&
    reaperMarker closer "reason" == some "handoff-expired"

def handoffCloserMatchesTarget (handoff closer : Fact) : Bool :=
  if isReaperHandoffExpiry handoff closer then true
  else
    match strictHandoffTargetSession handoff with
    | some expectedSession =>
      handoff.target == closer.tool && closer.fromSessionId == some expectedSession
    | none =>
      -- legacy rows predate the session binding and close anything they reference
      if closer.fromSessionId.isNone then true
      else
        match handoff.target with
        | none => true
        | some target => target == "all" || closer.tool == some target

/-- The kinds that can complete a handoff. -/
def isCompletionKind (kind : FactKind) : Bool :=
  match kind with
  | .resolve | .receipt | .artifact => true
  | _ => false

def factClosesHandoff (handoff closer : Fact) : Bool :=
  isCompletionKind closer.kind && decide (closer.seq > handoff.seq) &&
    closer.refId == some handoff.eventId && handoffCloserMatchesTarget handoff closer

/-- Completion candidates bucketed by the id they reference. -/
structure HandoffClosers where
  byRef : String → List Fact

namespace HandoffClosers

def new (facts : List Fact) : HandoffClosers where
  byRef refId := facts.filter fun fact => isCompletionKind fact.kind && fact.refId == some refId

def isClosed (closers : HandoffClosers) (handoff : Fact) : Bool :=
  (closers.byRef handoff.eventId).any fun closer => factClosesHandoff handoff closer

end HandoffClosers

/-! ## Addressed obligations -/

mutual

/-- A truthy `requires_ack`, here or under nested `payload` objects. -/
def jsonRequiresAck : Value → Bool
  | .object fields =>
    (match (Value.object fields).get "requires_ack" with
      | some (.bool b) => b
      | _ => false) || payloadRequiresAck fields
  | _ => false

def payloadRequiresAck : List (String × Value) → Bool
  | [] => false
  | (key, value) :: rest => if key = "payload" then jsonRequiresAck value else payloadRequiresAck rest

end

section Obligations

variable (ext : Externals)

def evidenceRequiresAck (evidence : String) : Bool :=
  let trimmed := trim evidence
  if eqIgnoreAsciiCase trimmed "requires_ack" || eqIgnoreAsciiCase trimmed "requires_ack:true" ||
      eqIgnoreAsciiCase trimmed "ack_required" || eqIgnoreAsciiCase trimmed "ack_required:true" then
    true
  else
    match ext.jsonFromStr trimmed with
    | some value => jsonRequiresAck value
    | none => false

def factRequiresAck (fact : Fact) : Bool := fact.evidence.any (evidenceRequiresAck ext)

/-- An obligation addressed to one named agent; a broadcast is nobody's debt. -/
def factIsAddressedObligation (fact : Fact) : Bool :=
  match fact.target with
  | none => false
  | some target =>
    if target == "all" then false
    else if fact.scope.any (· == "external-intake") then false
    else
      match fact.kind with
      | .handoff => handoffIsProtocolRequest fact
      | .artifact => factRequiresAck ext fact
      | _ => false

/-- A completion kind or a typed handoff response. -/
def isAnswerKind (fact : Fact) : Bool := isCompletionKind fact.kind || handoffIsProtocolResponse fact

def closersByRef (facts : List Fact) (refId : String) : List Fact :=
  facts.filter fun fact => isAnswerKind fact && fact.refId == some refId

/-- Whether `closer` is an answer written by the receiver itself. -/
def receiverAckClosesObligation (obligation closer : Fact) : Bool :=
  if !isAnswerKind closer then false
  else if closer.seq ≤ obligation.seq then false
  else if closer.refId != some obligation.eventId then false
  else if closer.tool != obligation.target then false
  else if isSystemAuthored closer then false
  else
    match strictHandoffTargetSession obligation with
    | some expectedSession => closer.fromSessionId == some expectedSession
    | none => true

def obligationIsAcked (obligation : Fact) (facts : List Fact) : Bool :=
  (closersByRef facts obligation.eventId).any fun closer =>
    receiverAckClosesObligation obligation closer

/-- Open addressed obligations, oldest first. -/
def projectOpenObligations (facts : List Fact) : List Fact :=
  (facts.filter fun fact => factIsAddressedObligation ext fact && !obligationIsAcked fact facts).insertionSort
    fun a b => a.seq ≤ b.seq

end Obligations

/-! ## What removes an obligation -/

/-- The receiver's answer, spelled out. -/
theorem receiverAckClosesObligation_iff {obligation closer : Fact} :
    receiverAckClosesObligation obligation closer = true ↔
      isAnswerKind closer = true ∧ obligation.seq < closer.seq ∧
        closer.refId = some obligation.eventId ∧ closer.tool = obligation.target ∧
        isSystemAuthored closer = false ∧
        ∀ session, strictHandoffTargetSession obligation = some session →
          closer.fromSessionId = some session := by
  unfold receiverAckClosesObligation
  simp only [← Int.not_lt]
  by_cases h1 : isAnswerKind closer = true
  · by_cases h2 : obligation.seq < closer.seq
    · by_cases h3 : closer.refId = some obligation.eventId
      · by_cases h4 : closer.tool = obligation.target
        · by_cases h5 : isSystemAuthored closer = true
          · simp [h5]
          · cases hs : strictHandoffTargetSession obligation <;> simp [h1, h2, h3, h4, h5]
        · simp [h4]
      · simp [h3]
    · simp [h2]
  · simp [h1]

/-- Bucketing by `ref` loses no answer. -/
theorem obligationIsAcked_iff {obligation : Fact} {facts : List Fact} :
    obligationIsAcked obligation facts = true ↔
      ∃ closer ∈ facts, receiverAckClosesObligation obligation closer = true := by
  simp only [obligationIsAcked, closersByRef, List.any_eq_true, List.mem_filter, Bool.and_eq_true,
    beq_iff_eq]
  constructor
  · rintro ⟨c, ⟨hc, -⟩, hack⟩
    exact ⟨c, hc, hack⟩
  · rintro ⟨c, hc, hack⟩
    have h := receiverAckClosesObligation_iff.mp hack
    exact ⟨c, ⟨hc, h.1, h.2.2.1⟩, hack⟩

theorem mem_projectOpenObligations {ext : Externals} {facts : List Fact} {o : Fact} :
    o ∈ projectOpenObligations ext facts ↔
      o ∈ facts ∧ factIsAddressedObligation ext o = true ∧
        ∀ closer ∈ facts, receiverAckClosesObligation o closer = false := by
  have hack : obligationIsAcked o facts = false ↔
      ∀ closer ∈ facts, receiverAckClosesObligation o closer = false := by
    rw [← Bool.not_eq_true, obligationIsAcked_iff]
    simp
  simp only [projectOpenObligations, List.mem_insertionSort, List.mem_filter, Bool.and_eq_true,
    Bool.not_eq_true', hack]

end RallyPoint
