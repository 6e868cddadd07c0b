/-
# RallyPoint.ReceiverAck — whether an inject finds its handoff received (`lib.rs`).

Before `rally inject` sends a handoff again it looks for a receipt of it: a later answer of the addressee among the
facts that refer to the handoff. The room keeps the handoff in the addressee's inbox by a rule of its own. Both ask
for the same author, the same kinds and the same session. The inject alone refuses an answer that is a retraction
record of another fact, so a handoff answered by nothing else has left the inbox and is sent again.
-/
import RallyPoint.ReplyState

namespace RallyPoint.ReceiverAck

open Lib

/-! ## The receipt -/

def receiverResponseMatches (original response : Fact) (expectedTool : String) : Bool :=
  original.target == some expectedTool && decide (original.seq < response.seq) &&
    response.refId == some original.eventId && response.tool == some expectedTool && !isRetraction response &&
    !isSystemAuthored response &&
    (match strictHandoffTargetSession original with
    | some session => response.fromSessionId == some session
    | none => true)

/-- The receipt that an inject reports. -/
structure PriorReceipt where
  received : Bool := true
  resolved : Bool
  handoffClosed : Bool
  blocked : Bool := false
  decision : Bool := false
  eventId : String
  tool : Option String
  expectedTool : String
  kind : String
  subject : String
  deriving DecidableEq, Repr

def receiptOf (expectedTool : String) (response : Fact) : PriorReceipt :=
  { resolved := isCompletionKind response.kind
    handoffClosed := isCompletionKind response.kind
    eventId := response.eventId
    tool := response.tool
    expectedTool := expectedTool
    kind := response.kind.asStr
    subject := response.subject }

def priorReceiverAck (facts : List Fact) (handoff expectedTool : String) : Option PriorReceipt :=
  let retracted := retractedIds facts
  (facts.find? fun f => f.eventId == handoff && !retracted.contains f.eventId).bind fun original =>
    (facts.find? fun f => !retracted.contains f.eventId && receiverResponseMatches original f expectedTool &&
      (isCompletionKind f.kind || handoffIsProtocolResponse f)).map (receiptOf expectedTool)

/-! ## The two rules -/

/-- The inject accepts an answer that settles the handoff in the room, unless it is a retraction record. -/
theorem receiverResponseMatches_iff {original response : Fact} {expectedTool : String}
    (htarget : original.target = some expectedTool) :
    (receiverResponseMatches original response expectedTool && isAnswerKind response) = true ↔
      receiverAckClosesObligation original response = true ∧ isRetraction response = false := by
  have hsession : (match strictHandoffTargetSession original with
      | some session => response.fromSessionId == some session
      | none => true) = true ↔
      ∀ session, strictHandoffTargetSession original = some session → response.fromSessionId = some session := by
    cases strictHandoffTargetSession original <;> simp
  rw [receiverAckClosesObligation_iff, receiverResponseMatches]
  simp only [Bool.and_eq_true, beq_iff_eq, decide_eq_true_iff, Bool.not_eq_true', hsession, htarget, true_and]
  constructor
  · rintro ⟨⟨⟨⟨⟨⟨hlater, href⟩, htool⟩, hrecord⟩, hsystem⟩, hfrom⟩, hkind⟩
    exact ⟨⟨hkind, hlater, href, htool, hsystem, hfrom⟩, hrecord⟩
  · rintro ⟨⟨hkind, hlater, href, htool, hsystem, hfrom⟩, hrecord⟩
    exact ⟨⟨⟨⟨⟨⟨hlater, href⟩, htool⟩, hrecord⟩, hsystem⟩, hfrom⟩, hkind⟩

section Selection

variable {F : List Fact} {h : Fact} {t : String}

/-- The facts of the selection that refer to the item are those of the ledger. -/
theorem mem_select_of_wanted (hids : (F.map (·.eventId)).Nodup) {x : Fact}
    (hwanted : x.eventId = h.eventId ∨ x.refId = some h.eventId) : x ∈ selectReplyFacts F h.eventId ↔ x ∈ F := by
  rw [(selectReplyFacts_perm hids h.eventId).mem_iff, List.mem_filter]
  constructor
  · exact fun hx => hx.1
  · intro hx
    refine ⟨hx, ?_⟩
    rw [isReplyInput, List.contains_eq_mem, decide_eq_true (mem_wantedReplyIds hx hwanted), Bool.true_or]

/-- In the selection the handoff is found under its id. -/
theorem find_original (hids : (F.map (·.eventId)).Nodup) (hmem : h ∈ F) (hstanding : h.eventId ∉ retractedIds F) :
    ((selectReplyFacts F h.eventId).find? fun f => f.eventId == h.eventId &&
      !(retractedIds (selectReplyFacts F h.eventId)).contains f.eventId) = some h := by
  have hself : h ∈ selectReplyFacts F h.eventId := (mem_select_of_wanted hids (.inl rfl)).mpr hmem
  have hkept : h.eventId ∉ retractedIds (selectReplyFacts F h.eventId) := by
    rwa [mem_retractedIds_select hids (mem_wantedReplyIds hmem (.inl rfl))]
  have hfound : ((selectReplyFacts F h.eventId).find? fun f => f.eventId == h.eventId &&
      !(retractedIds (selectReplyFacts F h.eventId)).contains f.eventId).isSome = true := by
    rw [List.find?_isSome]
    exact ⟨h, hself, by simp [hkept]⟩
  obtain ⟨original, horiginal⟩ := Option.isSome_iff_exists.mp hfound
  have hid : original.eventId = h.eventId := by
    have hpred := List.find?_some horiginal
    rw [Bool.and_eq_true, beq_iff_eq] at hpred
    exact hpred.1
  have horigin : original ∈ F := (mem_select_of_wanted hids (.inl hid)).mp (List.mem_of_find?_eq_some horiginal)
  rw [horiginal, List.inj_on_of_nodup_map hids horigin hmem hid]

/-- **An inject has a receipt** exactly when a standing answer that is no retraction record settles the handoff. -/
theorem priorReceiverAck_isSome_iff (hids : (F.map (·.eventId)).Nodup) (hmem : h ∈ F)
    (hstanding : h.eventId ∉ retractedIds F) (htarget : h.target = some t) :
    (priorReceiverAck (selectReplyFacts F h.eventId) h.eventId t).isSome = true ↔
      ∃ r ∈ resolvedFacts F, receiverAckClosesObligation h r = true ∧ isRetraction r = false := by
  rw [priorReceiverAck, find_original hids hmem hstanding, Option.bind_some, Option.isSome_map, List.find?_isSome]
  refine exists_congr fun r => ?_
  rw [Bool.and_assoc, Bool.and_eq_true, ← isAnswerKind, receiverResponseMatches_iff htarget, mem_resolvedFacts]
  rw [Bool.not_eq_true', List.contains_eq_mem, decide_eq_false_iff_not]
  constructor
  · rintro ⟨hr, hkept, hcloses, hrecord⟩
    have href : r.refId = some h.eventId := (receiverAckClosesObligation_iff.mp hcloses).2.2.1
    have hrF := (mem_select_of_wanted hids (.inr href)).mp hr
    rw [mem_retractedIds_select hids (mem_wantedReplyIds hrF (.inr href))] at hkept
    exact ⟨⟨hrF, hkept⟩, hcloses, hrecord⟩
  · rintro ⟨⟨hrF, hkept⟩, hcloses, hrecord⟩
    have href : r.refId = some h.eventId := (receiverAckClosesObligation_iff.mp hcloses).2.2.1
    rw [← mem_retractedIds_select hids (mem_wantedReplyIds hrF (.inr href))] at hkept
    exact ⟨(mem_select_of_wanted hids (.inr href)).mpr hrF, hkept, hcloses, hrecord⟩

/-- **The room has let go** of the handoff exactly when a standing answer settles it. -/
theorem notMem_openObligations_iff (ext : Externals) (hmem : h ∈ F) (hstanding : h.eventId ∉ retractedIds F)
    (haddressed : factIsAddressedObligation ext h = true) :
    h ∉ projectOpenObligations ext (resolvedFacts F) ↔
      ∃ r ∈ resolvedFacts F, receiverAckClosesObligation h r = true := by
  have hresolved : h ∈ resolvedFacts F := mem_resolvedFacts.mpr ⟨hmem, hstanding⟩
  simp [mem_projectOpenObligations, hresolved, haddressed, and_assoc]

end Selection

/-- A handoff request that stands in the ledger, addressed to a tool. -/
structure StandingHandoff (ext : Externals) (F : List Fact) (h : Fact) (t : String) : Prop where
  mem : h ∈ F
  kind : h.kind = .handoff
  addressed : factIsAddressedObligation ext h = true
  target : h.target = some t
  standing : h.eventId ∉ retractedIds F

/-- **A repeated inject agrees with the inbox** exactly when the addressee, having answered, has answered with
something else than a retraction record of another fact. -/
theorem priorReceiverAck_agrees_iff (ext : Externals) {F : List Fact} {h : Fact} {t : String}
    (coord : CoordinationConfig) (includeArchived : Bool) (now : Int) (hids : (F.map (·.eventId)).Nodup)
    (hh : StandingHandoff ext F h t) :
    ((priorReceiverAck (selectReplyFacts F h.eventId) h.eventId t).isSome = true ↔
        h ∉ (snapshotFromFactsWithPolicy ext F coord includeArchived now).openObligations) ↔
      ((∃ r ∈ resolvedFacts F, receiverAckClosesObligation h r = true) →
        ∃ r ∈ resolvedFacts F, receiverAckClosesObligation h r = true ∧ isRetraction r = false) := by
  have hroom : h ∉ (snapshotFromFactsWithPolicy ext F coord includeArchived now).openObligations ↔
      ∃ r ∈ resolvedFacts F, receiverAckClosesObligation h r = true :=
    notMem_openObligations_iff ext hh.mem hh.standing hh.addressed
  rw [priorReceiverAck_isSome_iff hids hh.mem hh.standing hh.target, hroom]
  constructor
  · exact fun hagree => hagree.mpr
  · intro hplain
    constructor
    · rintro ⟨r, hr, hcloses, -⟩
      exact ⟨r, hr, hcloses⟩
    · exact hplain

namespace AckSample

/-- Bob answers Alice's request plainly. -/
def answered : List Fact := [Answering.request, { Answering.answer with seq := 2 }]

/-- Bob's only answer is the withdrawal of a note of his. -/
def withdrawing : List Fact :=
  [Answering.request,
    { eventId := "n1", seq := 2, kind := .artifact, tool := some "bob", subject := "a note"
      createdAt := "2026-01-01T00:30:00Z" },
    { eventId := "x1", seq := 3, kind := .artifact, tool := some "bob", refId := some "h1", subject := "retract: n1"
      createdAt := "2026-01-01T01:00:00Z" }]

/-- A plain answer counts for both. -/
theorem answered_agrees :
    (priorReceiverAck (selectReplyFacts answered "h1") "h1" "bob").isSome = true ↔
      Answering.request ∉ (AppendEnv.sample.snapshot answered).openObligations :=
  (@priorReceiverAck_agrees_iff .sample answered Answering.request "bob" {} false AppendEnv.sample.now (by decide)
    ⟨by simp [answered], rfl, by decide, rfl, by decide⟩).mpr
    fun _ => ⟨{ Answering.answer with seq := 2 }, by decide, by decide, by decide⟩

/-- The request has left Bob's inbox, and the inject finds no receipt and sends it again. -/
theorem withdrawing_resends :
    (withdrawing.map (·.eventId)).Nodup ∧ (withdrawing.map (·.seq)).Nodup ∧ RefsEarlier withdrawing ∧
      StandingHandoff .sample withdrawing Answering.request "bob" ∧
      Answering.request ∉ (AppendEnv.sample.snapshot withdrawing).openObligations ∧
      priorReceiverAck (selectReplyFacts withdrawing "h1") "h1" "bob" = none :=
  ⟨by decide, by decide, by unfold RefsEarlier; decide, ⟨by simp [withdrawing], rfl, by decide, rfl, by decide⟩,
    by decide +kernel, by decide +kernel⟩

end AckSample

end RallyPoint.ReceiverAck
