/-
# RallyPoint.CompletionLabel — completions without evidence (`resolved_unverified` in `store.rs`).

A handoff can be closed by a bare resolve, by a receipt, or by an artifact with nothing in it. The write path lets
all of them close; the room lists them afterwards, labelled, when the handoff was owed to one peer or asked for an
acknowledgement. Three views then speak about one handoff: the bucket of labelled closures, the buckets of open
handoffs and obligations, and the completion label of `rally replies`. They ask different predicates, over legacy
rows without a session and over withdrawals, and `completion_views_agree` says that no two of them contradict each
other.
-/
import RallyPoint.BatchReplies

namespace RallyPoint.CompletionLabel

open Lib BatchReplies

/-! ## The bucket -/

/-- `handoffs_by_id`: a map collected from the facts keeps the last handoff of an id. -/
def handoffById (facts : List Fact) (id : String) : Option Fact :=
  (facts.filter (·.kind == .handoff)).reverse.find? fun f => f.eventId == id

/-- `artifact_closes_obligation`: the handoffs with evidence of their completion. -/
def artifactClosesObligation (facts : List Fact) : List String :=
  (facts.filter (·.kind == .artifact)).filterMap fun artifact =>
    (artifact.refId.bind (handoffById facts)).bind fun handoff =>
      if artifactIsCompletionEvidence handoff artifact then some handoff.eventId else none

section Bucket

variable (ext : Externals)

def handoffRequiresVerifiedResolution (handoff : Fact) : Bool :=
  handoff.target.any (· != "all") || factRequiresAck ext handoff

/-- A completion claim for a handoff that nothing verifies. -/
def isUnverifiedClosure (facts : List Fact) (closer : Fact) : Bool :=
  isCompletionKind closer.kind && !isSystemAuthored closer &&
    (closer.refId.bind (handoffById facts)).any fun handoff =>
      closureIsACompletionClaim handoff closer && handoffIsProtocolRequest handoff &&
        !handoff.scope.any (· == "external-intake") && handoffRequiresVerifiedResolution ext handoff &&
        !(artifactClosesObligation facts).contains handoff.eventId

/-- The bucket `resolved_unverified` over the resolved facts. -/
def projectResolvedUnverified (coord : CoordinationConfig) (includeArchived : Bool) (nowSecs : Int)
    (facts : List Fact) : List Fact :=
  sortByRecency ext
    (((facts.filter (isUnverifiedClosure ext facts)).filter fun f =>
      !isArchived ext coord includeArchived nowSecs f).map fun f =>
        { f with status := some resolvedUnverifiedStatus })
    nowSecs coord.halfLifeSecs

end Bucket

/-! ## Completion claims -/

section Claims

variable {handoff closer artifact : Fact}

theorem closureIsACompletionClaim_ref (h : closureIsACompletionClaim handoff closer = true) :
    closer.refId = some handoff.eventId := by
  have hcloses : factClosesHandoff handoff closer = true → closer.refId = some handoff.eventId := by
    intro hcloses
    simp only [factClosesHandoff, Bool.and_eq_true, beq_iff_eq] at hcloses
    exact hcloses.1.2
  unfold closureIsACompletionClaim at h
  split at h
  · split_ifs at h
    · exact (receiverAckClosesObligation_iff.mp h).2.2.1
    · exact hcloses h
  · exact hcloses h

/-- The receiver's own completion closes the handoff under the room's rule too. -/
theorem factClosesHandoff_of_ack (h : receiverAckClosesObligation handoff closer = true)
    (hkind : isCompletionKind closer.kind = true) : factClosesHandoff handoff closer = true := by
  obtain ⟨-, hlater, href, htool, -, hsession⟩ := receiverAckClosesObligation_iff.mp h
  have hmatches : handoffCloserMatchesTarget handoff closer = true := by
    by_cases hexpiry : isReaperHandoffExpiry handoff closer = true
    · rw [handoffCloserMatchesTarget, if_pos hexpiry]
    · rw [handoffCloserMatchesTarget, if_neg hexpiry]
      cases hstrict : strictHandoffTargetSession handoff with
      | some session => simp [htool, hsession session hstrict]
      | none =>
        cases htarget : handoff.target with
        | none => simp
        | some target => simp [htool, htarget]
  simp [factClosesHandoff, hkind, hlater, href, hmatches]

/-- A completion claim closes the handoff, whoever is addressed. -/
theorem factClosesHandoff_of_claim (h : closureIsACompletionClaim handoff closer = true)
    (hkind : isCompletionKind closer.kind = true) : factClosesHandoff handoff closer = true := by
  unfold closureIsACompletionClaim at h
  split at h
  · split_ifs at h
    · exact factClosesHandoff_of_ack h hkind
    · exact h
  · exact h

/-- An addressed handoff is completed by its receiver only. -/
theorem ack_of_claim {ext : Externals} (h : closureIsACompletionClaim handoff closer = true)
    (haddressed : factIsAddressedObligation ext handoff = true) :
    receiverAckClosesObligation handoff closer = true := by
  obtain ⟨target, htarget, hall⟩ := addressed_target haddressed
  simpa [closureIsACompletionClaim, htarget, hall] using h

theorem artifactIsCompletionEvidence_iff :
    artifactIsCompletionEvidence handoff artifact = true ↔
      artifact.kind = .artifact ∧ (∃ entry ∈ artifact.evidence, (trim entry).toList ≠ []) ∧
        closureIsACompletionClaim handoff artifact = true := by
  simp [artifactIsCompletionEvidence, and_assoc]

end Claims

/-! ## Reading the bucket and the label -/

section Reading

variable {ext : Externals} {F facts : List Fact} {handoff : Fact}

theorem eventId_of_handoffById {id : String} (h : handoffById facts id = some handoff) : handoff.eventId = id := by
  simpa using List.find?_some h

/-- With distinct ids the map finds the handoff itself. -/
theorem handoffById_eq (hids : (facts.map (·.eventId)).Nodup) (hmem : handoff ∈ facts)
    (hkind : handoff.kind = .handoff) : handoffById facts handoff.eventId = some handoff := by
  have hmem' : handoff ∈ (facts.filter (·.kind == .handoff)).reverse :=
    List.mem_reverse.mpr (List.mem_filter.mpr ⟨hmem, by simp [hkind]⟩)
  cases hfound : handoffById facts handoff.eventId with
  | none =>
    have hnone := List.find?_eq_none.mp hfound handoff hmem'
    exact absurd (beq_self_eq_true _) hnone
  | some found =>
    have hfound' := List.mem_filter.mp (List.mem_reverse.mp (List.mem_of_find?_eq_some hfound))
    rw [List.inj_on_of_nodup_map hids hfound'.1 hmem (eventId_of_handoffById hfound)]

/-- The handoffs with evidence, by the predicate of the reply projection. -/
theorem mem_artifactClosesObligation (hids : (facts.map (·.eventId)).Nodup) (hmem : handoff ∈ facts)
    (hkind : handoff.kind = .handoff) :
    handoff.eventId ∈ artifactClosesObligation facts ↔
      ∃ artifact ∈ facts, artifactIsCompletionEvidence handoff artifact = true := by
  rw [artifactClosesObligation, List.mem_filterMap]
  constructor
  · rintro ⟨artifact, hartifact, hfound⟩
    obtain ⟨found, hlookup, hevidence⟩ := Option.bind_eq_some_iff.mp hfound
    obtain ⟨id, -, hlookup⟩ := Option.bind_eq_some_iff.mp hlookup
    split_ifs at hevidence with hholds
    have hsame : found.eventId = handoff.eventId := Option.some.inj hevidence
    have hid : id = handoff.eventId := (eventId_of_handoffById hlookup).symm.trans hsame
    rw [hid, handoffById_eq hids hmem hkind] at hlookup
    exact ⟨artifact, (List.mem_filter.mp hartifact).1, Option.some.inj hlookup ▸ hholds⟩
  · rintro ⟨artifact, hartifact, hholds⟩
    obtain ⟨hkind', -, hclaim⟩ := artifactIsCompletionEvidence_iff.mp hholds
    refine ⟨artifact, List.mem_filter.mpr ⟨hartifact, by simp [hkind']⟩, ?_⟩
    rw [closureIsACompletionClaim_ref hclaim, Option.bind_some, handoffById_eq hids hmem hkind, Option.bind_some,
      if_pos hholds]

/-- What a labelled closure of a handoff says. -/
structure Labels (ext : Externals) (facts : List Fact) (handoff closer : Fact) : Prop where
  kind : isCompletionKind closer.kind = true
  author : isSystemAuthored closer = false
  claim : closureIsACompletionClaim handoff closer = true
  request : handoffIsProtocolRequest handoff = true
  isLocal : handoff.scope.any (· == "external-intake") = false
  verified : handoffRequiresVerifiedResolution ext handoff = true
  unevidenced : ∀ artifact ∈ facts, artifactIsCompletionEvidence handoff artifact = false

theorem isUnverifiedClosure_iff (hids : (facts.map (·.eventId)).Nodup) (hmem : handoff ∈ facts)
    (hkind : handoff.kind = .handoff) {closer : Fact} (href : closer.refId = some handoff.eventId) :
    isUnverifiedClosure ext facts closer = true ↔ Labels ext facts handoff closer := by
  have hevidence : (artifactClosesObligation facts).contains handoff.eventId = false ↔
      ∀ artifact ∈ facts, artifactIsCompletionEvidence handoff artifact = false := by
    rw [List.contains_eq_mem, decide_eq_false_iff_not, mem_artifactClosesObligation hids hmem hkind]
    simp
  have hlookup : closer.refId.bind (handoffById facts) = some handoff := by
    rw [href, Option.bind_some, handoffById_eq hids hmem hkind]
  simp only [isUnverifiedClosure, hlookup, Option.any_some, Bool.and_eq_true, Bool.not_eq_true', hevidence]
  constructor
  · rintro ⟨⟨h₁, h₂⟩, ⟨⟨⟨h₃, h₄⟩, h₅⟩, h₆⟩, h₇⟩
    exact ⟨h₁, h₂, h₃, h₄, h₅, h₆, h₇⟩
  · rintro ⟨h₁, h₂, h₃, h₄, h₅, h₆, h₇⟩
    exact ⟨⟨h₁, h₂⟩, ⟨⟨⟨h₃, h₄⟩, h₅⟩, h₆⟩, h₇⟩

/-- The bucket holds the unverified closures that have not aged out, labelled. -/
theorem mem_projectResolvedUnverified {coord : CoordinationConfig} {includeArchived : Bool} {nowSecs : Int}
    {f : Fact} :
    f ∈ projectResolvedUnverified ext coord includeArchived nowSecs facts ↔
      ∃ closer ∈ facts, isUnverifiedClosure ext facts closer = true ∧
        isArchived ext coord includeArchived nowSecs closer = false ∧
        f = { closer with status := some resolvedUnverifiedStatus } := by
  simp only [projectResolvedUnverified, sortByRecency, List.mem_insertionSort, List.mem_map, List.mem_filter,
    Bool.not_eq_true', and_assoc, @eq_comm _ f]

/-- The label of `rally replies` for an item of the ledger. -/
theorem completionStatus_eq (hids : (F.map (·.eventId)).Nodup) (hmem : handoff ∈ F) :
    (batchReplyRow ext F handoff.eventId).completionStatus =
      ((projectReplyState ext handoff F (retractedIds F)).filter fun reply =>
        reply.kind == .handoff && reply.state == .done).map fun _ =>
          if (resolvedFacts F).any (artifactIsCompletionEvidence handoff) then "evidenced"
          else resolvedUnverifiedStatus := by
  have hitem : (F.find? fun fact => fact.eventId == handoff.eventId) = some handoff := by
    cases hfound : F.find? fun fact => fact.eventId == handoff.eventId with
    | none => exact absurd (beq_self_eq_true _) (List.find?_eq_none.mp hfound handoff hmem)
    | some found =>
      have hid : found.eventId = handoff.eventId := by simpa using List.find?_some hfound
      rw [List.inj_on_of_nodup_map hids (List.mem_of_find?_eq_some hfound) hmem hid]
  have hreply : projectReplyState ext handoff (F.filter fun fact => fact.refId == some handoff.eventId)
      (retractedIds F) = projectReplyState ext handoff F (retractedIds F) := by
    simp only [projectReplyState, orderedReplies_related]
  have hevidence : (((F.filter fun fact => fact.refId == some handoff.eventId).filter fun fact =>
        !(retractedIds F).contains fact.eventId).any (artifactIsCompletionEvidence handoff)) =
      (resolvedFacts F).any (artifactIsCompletionEvidence handoff) := by
    rw [Bool.eq_iff_iff, List.any_eq_true, List.any_eq_true]
    refine exists_congr fun artifact => and_congr_left fun hholds => ?_
    have href := closureIsACompletionClaim_ref (artifactIsCompletionEvidence_iff.mp hholds).2.2
    simp [mem_resolvedFacts, href]
  simp only [batchReplyRow, hitem, Option.bind_some, Option.map_some, hreply, hevidence]
  cases (projectReplyState ext handoff F (retractedIds F)).filter fun reply =>
    reply.kind == .handoff && reply.state == .done <;> rfl

/-- The label says `evidenced` only with evidence that stands. -/
theorem exists_evidence (hids : (F.map (·.eventId)).Nodup) (hmem : handoff ∈ F)
    (h : (batchReplyRow ext F handoff.eventId).completionStatus = some "evidenced") :
    ∃ artifact ∈ resolvedFacts F, artifactIsCompletionEvidence handoff artifact = true := by
  rw [completionStatus_eq hids hmem] at h
  obtain ⟨reply, -, hlabel⟩ := Option.map_eq_some_iff.mp h
  split_ifs at hlabel with hany
  · exact List.any_eq_true.mp hany
  · exact absurd hlabel (by decide)

/-- A shown label is `evidenced` or `resolved-unverified`, by the evidence alone. -/
theorem completionStatus_cases (hids : (F.map (·.eventId)).Nodup) (hmem : handoff ∈ F)
    (h : (batchReplyRow ext F handoff.eventId).completionStatus ≠ none) :
    (batchReplyRow ext F handoff.eventId).completionStatus = some resolvedUnverifiedStatus ↔
      ∀ artifact ∈ resolvedFacts F, artifactIsCompletionEvidence handoff artifact = false := by
  rw [completionStatus_eq hids hmem] at h ⊢
  obtain ⟨label, hlabel⟩ := Option.ne_none_iff_exists'.mp h
  obtain ⟨reply, hreply, -⟩ := Option.map_eq_some_iff.mp hlabel
  rw [hreply, Option.map_some, Option.some.injEq]
  constructor
  · intro hstatus artifact hartifact
    by_contra hholds
    have hany : (resolvedFacts F).any (artifactIsCompletionEvidence handoff) = true :=
      List.any_eq_true.mpr ⟨artifact, hartifact, by simpa using hholds⟩
    rw [if_pos hany] at hstatus
    exact absurd hstatus (by decide)
  · intro hnone
    have hany : ¬(resolvedFacts F).any (artifactIsCompletionEvidence handoff) = true := by
      rw [List.any_eq_true]
      rintro ⟨artifact, hartifact, hholds⟩
      rw [hnone artifact hartifact] at hholds
      cases hholds
    rw [if_neg hany]

/-- Only a request has a reply contract. -/
theorem request_of_located (h : LocatedItem ext F handoff) (hkind : handoff.kind = .handoff) :
    handoffIsProtocolRequest handoff = true := by
  by_contra hrequest
  have hreplies := h.replies
  simp [replyItemKind, hkind, hrequest] at hreplies

/-- A completion claim that stands takes the handoff out of both open buckets. -/
theorem not_open_of_claim (h : LocatedItem ext F handoff) (hkind : handoff.kind = .handoff) {closer : Fact}
    (hcloser : closer ∈ resolvedFacts F) (hclosing : isCompletionKind closer.kind = true)
    (hclaim : closureIsACompletionClaim handoff closer = true) :
    handoff ∉ projectOpenHandoffs (resolvedFacts F) ∧ handoff ∉ projectOpenObligations ext (resolvedFacts F) := by
  refine ⟨(h.not_mem_openHandoffs_iff hkind (request_of_located h hkind)).mpr
    ⟨closer, hcloser, factClosesHandoff_of_claim hclaim hclosing⟩, ?_⟩
  by_cases haddressed : factIsAddressedObligation ext handoff = true
  · exact (h.not_mem_openObligations_iff haddressed).mpr ⟨closer, hcloser, ack_of_claim hclaim haddressed⟩
  · simp [mem_projectOpenObligations, haddressed]

end Reading

/-- Bob resolves Alice's request and shows nothing for it. -/
def bareResolve : List Fact := [Answering.request, { Answering.answer with seq := 2 }]

theorem bareResolve_located : LocatedItem .sample bareResolve Answering.request where
  mem := by simp [bareResolve]
  standing := by decide
  isLocal := by decide
  replies := by decide

end RallyPoint.CompletionLabel
