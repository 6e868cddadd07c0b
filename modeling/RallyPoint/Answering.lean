/-
# RallyPoint.Answering — whoever owes an answer can give it, and giving it settles the debt.

Three rules meet in one answer. Admission looks for the named item in seven projected buckets and applies the
handoff's target rule; the authority gate looks at claims, seats and sessions; and the projection of the
longer ledger applies the receiver rule, which is the strictest of the three. `addressee_answer_settles` puts
them together: an item that is shown as owed is admitted for its addressee, and is shown nowhere afterwards.
What remains between the addressee and an accepted answer is the bound on the size and shape of its fields.
-/
import RallyPoint.Append

namespace RallyPoint

open Lib

/-! ## Answers -/

/-- A fresh resolve of `o` by its addressee, from the session `o` strictly names if it names one. -/
structure FreshAnswer (F : List Fact) (o f : Fact) : Prop where
  kind : f.kind = .resolve
  refersTo : f.refId = some o.eventId
  byTarget : f.tool = o.target
  fromSession : ∀ session, strictHandoffTargetSession o = some session → f.fromSessionId = some session
  notSystem : isSystemAuthored f = false
  notRetraction : targetOf f = none
  sessionOpen : ∀ tool session, f.tool = some tool → f.fromSessionId = some session →
    sessionAlreadyClosed F tool session = false
  fresh : f.eventId ∉ F.map (·.eventId)
  notWithdrawn : f.eventId ∉ retractedIds F

/-- The checks of a new event before the authority gate. -/
structure TransitionsAccept (env : AppendEnv) (F : List Fact) (f : Fact) : Prop where
  takeover : assertTakeoverStillStale env F f = .ok ()
  noLeaseReap : assertNoLeaseReap env F f = .ok ()
  reap : assertReapStillJustified env F f = .ok ()
  renewal : assertRenewal env F f = .ok ()
  transitionTarget : assertTransitionTarget env F f = .ok ()
  closeShape : assertSessionCloseShape f = .ok ()

/-- The room asks nobody about `o` any more. -/
structure Settled (room : RoomSnapshot) (o : Fact) : Prop where
  noObligation : o ∉ room.openObligations
  noHandoff : o ∉ room.openHandoffs
  noArtifact : o ∉ room.unconsumedArtifacts

/-! ## Items and ids -/

section Items

variable {ext : Externals} {facts : List Fact} {o : Fact}

theorem mem_projectOpenHandoffs :
    o ∈ projectOpenHandoffs facts ↔
      o ∈ facts ∧ o.kind = .handoff ∧ handoffIsProtocolRequest o = true ∧
        (∀ closer ∈ facts, factClosesHandoff o closer = false) ∧
        o.scope.any (· == "external-intake") = false := by
  have hclosed : (HandoffClosers.new facts).isClosed o = false ↔
      ∀ closer ∈ facts, factClosesHandoff o closer = false := by
    constructor
    · intro h closer hmem
      by_contra hcloses
      -- a closer refers to the handoff, so it lies in the handoff's own bucket
      have hparts := Bool.of_not_eq_false hcloses
      simp only [factClosesHandoff, Bool.and_eq_true] at hparts
      have hany : (HandoffClosers.new facts).isClosed o = true :=
        List.any_eq_true.mpr ⟨closer, List.mem_filter.mpr
          ⟨hmem, by simp only [hparts.1.1.1, hparts.1.2, Bool.and_self]⟩, Bool.of_not_eq_false hcloses⟩
      simp [hany] at h
    · intro h
      refine List.any_eq_false.mpr fun closer hmem => ?_
      simp [h closer (List.mem_filter.mp hmem).1]
  simp only [projectOpenHandoffs, List.mem_filter, Bool.and_eq_true, beq_iff_eq, Bool.not_eq_true', hclosed,
    and_assoc]

/-- An addressed obligation names somebody, and not everybody. -/
theorem addressed_target (h : factIsAddressedObligation ext o = true) :
    ∃ target, o.target = some target ∧ target ≠ "all" := by
  unfold factIsAddressedObligation at h
  split at h
  · cases h
  · rename_i target htarget
    refine ⟨target, htarget, fun hall => ?_⟩
    simp [hall] at h

theorem addressed_kind (h : factIsAddressedObligation ext o = true) :
    o.kind = .handoff ∧ handoffIsProtocolRequest o = true ∨
      o.kind = .artifact ∧ factRequiresAck ext o = true := by
  unfold factIsAddressedObligation at h
  split at h
  · cases h
  · split at h
    · cases h
    · split at h
      · cases h
      · split at h
        · exact .inl ⟨by assumption, h⟩
        · exact .inr ⟨by assumption, h⟩
        · cases h

end Items

/-! ## The answer is admitted -/

namespace FreshAnswer

variable {F : List Fact} {o f : Fact} {env : AppendEnv} {ext : Externals}

/-- Admission reads the handoff's own target rule, which the addressee meets. -/
theorem matchesTarget (h : FreshAnswer F o f) (haddressed : factIsAddressedObligation ext o = true) :
    handoffCloserMatchesTarget o f = true := by
  obtain ⟨target, htarget, -⟩ := addressed_target haddressed
  unfold handoffCloserMatchesTarget
  split
  · rfl
  · cases hs : strictHandoffTargetSession o with
    | some session => simp [h.byTarget, h.fromSession session hs]
    | none => simp [h.byTarget, htarget]

theorem assertTransitionTarget_ok (h : FreshAnswer F o f) (hids : (F.map (·.eventId)).Nodup)
    (ho : o ∈ projectOpenObligations env.ext (resolvedFacts F)) :
    assertTransitionTarget env F f = .ok () := by
  obtain ⟨hmem, haddressed, -⟩ := mem_projectOpenObligations.mp ho
  have hoF := (mem_resolvedFacts.mp hmem).1
  -- whatever bucket answers for the id, it holds `o`
  have hsame : ∀ x ∈ F, x.eventId = o.eventId → x = o := fun x hx hid =>
    List.inj_on_of_nodup_map hids hx hoF hid
  have hlive : ((env.snapshot F).openObligations.find? fun c => c.eventId == o.eventId).isSome = true := by
    rw [List.find?_isSome]
    exact ⟨o, ho, by simp⟩
  have htargeted : ∀ targeted,
      (((env.snapshot F).openHandoffs.find? fun c => c.eventId == o.eventId).or
        ((env.snapshot F).openObligations.find? fun c => c.eventId == o.eventId)) = some targeted →
      targeted = o := by
    intro targeted hfound
    rcases Option.or_eq_some_iff.mp hfound with hfound | ⟨-, hfound⟩
    · have hin := mem_projectOpenHandoffs.mp (List.mem_of_find?_eq_some hfound)
      exact hsame targeted (mem_resolvedFacts.mp hin.1).1 (by simpa using List.find?_some hfound)
    · have hin := mem_projectOpenObligations.mp (List.mem_of_find?_eq_some hfound)
      exact hsame targeted (mem_resolvedFacts.mp hin.1).1 (by simpa using List.find?_some hfound)
  unfold assertTransitionTarget
  simp only [h.kind, h.refersTo, hlive, Bool.or_true, Bool.true_or, Bool.not_true, Bool.false_eq_true, if_false,
    bne_self_eq_false, Bool.and_false, beq_iff_eq, reduceCtorEq]
  split
  · rename_i targeted hfound
    rw [htargeted targeted hfound, if_pos (h.matchesTarget haddressed)]
  · rfl

theorem transitionsAccept (h : FreshAnswer F o f) (hids : (F.map (·.eventId)).Nodup)
    (ho : o ∈ projectOpenObligations env.ext (resolvedFacts F)) : TransitionsAccept env F f where
  takeover := by simp [assertTakeoverStillStale, h.kind]
  noLeaseReap := by simp [assertNoLeaseReap, h.kind]
  reap := by simp [assertReapStillJustified, h.kind]
  renewal := by simp [assertRenewal, h.kind]
  transitionTarget := h.assertTransitionTarget_ok hids ho
  closeShape := by simp [assertSessionCloseShape, isSessionCloseAttempt, h.kind]

/-- The session gate has nothing to say about an open session. -/
theorem assertSessionLifecycleAuthorized_ok (h : FreshAnswer F o f) :
    assertSessionLifecycleAuthorized env.ext f F = .ok () := by
  unfold assertSessionLifecycleAuthorized
  split
  · rfl
  · split
    · rename_i tool session htool hsession
      simp [h.sessionOpen tool session htool hsession, isSessionCloseAttempt, h.kind]
    · rfl

/-- An obligation is no claim, so resolving it closes none. -/
theorem assertClaimCloseAuthorized_ok (h : FreshAnswer F o f) (hids : (F.map (·.eventId)).Nodup)
    (ho : o ∈ projectOpenObligations env.ext (resolvedFacts F)) :
    assertClaimCloseAuthorized env.ext (env.snapshot F) env.coord env.now f = .ok () := by
  obtain ⟨hmem, haddressed, -⟩ := mem_projectOpenObligations.mp ho
  have hnone : (env.snapshot F).activeClaims.find? (fun c => c.eventId == o.eventId) = none := by
    rw [List.find?_eq_none]
    intro c hc hid
    obtain ⟨claim, hclaim, hactive, rfl⟩ := mem_projectActiveClaims.mp hc
    have hsame : claim = o := List.inj_on_of_nodup_map hids (mem_resolvedFacts.mp hclaim).1
      (mem_resolvedFacts.mp hmem).1 (by simpa using hid)
    have hkind : claim.kind = .claim := by
      have hlocal := (isActiveClaimFact_iff.mp hactive).1
      simp only [isLocalClaim, Bool.and_eq_true, beq_iff_eq] at hlocal
      exact hlocal.1
    rw [hsame] at hkind
    rcases addressed_kind haddressed with ⟨hk, -⟩ | ⟨hk, -⟩ <;> simp [hk] at hkind
  simp [assertClaimCloseAuthorized, authorizeRemovalOf, h.kind, h.refersTo, closesActiveClaim, hnone]

/-- The authority gate refuses an answer for its field bounds only. -/
theorem assertAuthority_ok_iff (h : FreshAnswer F o f) (hids : (F.map (·.eventId)).Nodup)
    (ho : o ∈ projectOpenObligations env.ext (resolvedFacts F)) :
    assertAuthority env F f = .ok () ↔ assertFieldBounds f = .ok () := by
  have hneeds : needsAuthorityCheck f = true := by
    simp [needsAuthorityCheck, h.kind, closesActiveClaim]
  have hscoped : scopedLifecycle env F f = none := by simp [scopedLifecycle, hneeds]
  have hrelease : assertReleaseSweepAuthorized env.ext (env.snapshot F) env.coord env.now f = .ok () := by
    simp [assertReleaseSweepAuthorized, h.kind]
  have htransfer : assertLeadTransferAuthorized env.ext (env.snapshot F) env.coord env.now f F = .ok () := by
    simp [assertLeadTransferAuthorized, isLeadDecision, h.kind]
  -- an answer retracts nothing
  have hretraction : assertRetractionAuthorized env.ext (env.snapshot F) env.coord env.now f = .ok () := by
    rw [assertRetractionAuthorized, h.notRetraction]
  have hrenewal : assertRenewalRetractionAuthorized env.ext (env.snapshot F) env.coord env.now f F = .ok () := by
    rw [assertRenewalRetractionAuthorized, h.notRetraction]
  have hlead : assertLeadRetractionAuthorized env.ext (env.snapshot F) env.coord env.now f F = .ok () := by
    rw [assertLeadRetractionAuthorized, h.notRetraction]
  rw [assertAuthority, hscoped]
  simp only [hneeds, Bool.true_or, if_true]
  rw [assertWriteAuthorized_ok_iff]
  simp only [h.assertSessionLifecycleAuthorized_ok, h.assertClaimCloseAuthorized_ok hids ho, hrelease, htransfer,
    hretraction, hrenewal, hlead, and_true]

/-! ## The answer settles -/

/-- The answer as committed is in the resolved ledger. -/
theorem mem_resolved (h : FreshAnswer F o f) (n : Int) :
    { f with seq := n } ∈ resolvedFacts (F ++ [{ f with seq := n }]) := by
  have htarget : targetOf { f with seq := n } = none := by
    simp only [targetOf_withSeq, h.notRetraction]
  rw [mem_resolvedFacts_append, htarget]
  exact ⟨.inr rfl, h.notWithdrawn, by simp⟩

theorem settled (h : FreshAnswer F o f) (ho : o ∈ projectOpenObligations ext (resolvedFacts F)) {n : Int}
    (hseq : ∀ x ∈ F, x.seq < n) (coord : CoordinationConfig) (includeArchived : Bool) (now : Int) :
    Settled (snapshotFromFactsWithPolicy ext (F ++ [{ f with seq := n }]) coord includeArchived now) o where
  noObligation := by
    intro hopen
    obtain ⟨hmem, -, -⟩ := mem_projectOpenObligations.mp ho
    have hanswer : receiverAckClosesObligation o { f with seq := n } = true :=
      receiverAckClosesObligation_iff.mpr ⟨by simp [isAnswerKind, isCompletionKind, h.kind],
        hseq o (mem_resolvedFacts.mp hmem).1, h.refersTo, h.byTarget, h.notSystem, h.fromSession⟩
    have hnot := (mem_projectOpenObligations.mp hopen).2.2 _ (h.mem_resolved n)
    simp [hanswer] at hnot
  noHandoff := by
    intro hopen
    obtain ⟨hmem, haddressed, -⟩ := mem_projectOpenObligations.mp ho
    have hmatch : handoffCloserMatchesTarget o { f with seq := n } = true := h.matchesTarget haddressed
    have hcloses : factClosesHandoff o { f with seq := n } = true := by
      have hlater := hseq o (mem_resolvedFacts.mp hmem).1
      rw [factClosesHandoff, hmatch]
      simp [isCompletionKind, h.kind, h.refersTo, hlater]
    have hnot := (mem_projectOpenHandoffs.mp hopen).2.2.2.1 _ (h.mem_resolved n)
    simp [hcloses] at hnot
  noArtifact := by
    intro hopen
    -- a resolve consumes the artifact it names, whoever writes it
    have hconsumed : o.eventId ∈ consumedRefs (resolvedFacts (F ++ [{ f with seq := n }])) :=
      List.mem_filterMap.mpr ⟨_, List.mem_filter.mpr ⟨h.mem_resolved n, by simp [h.kind]⟩, h.refersTo⟩
    have hnot := (List.mem_filter.mp hopen).2
    simp [hconsumed] at hnot

end FreshAnswer

/-- **The addressee can always answer.** Whatever the age of an open obligation and whoever replied before,
its addressee's fresh resolve passes every transition check, passes the authority gate exactly when its
fields are within the write-boundary bounds, and once committed leaves the obligation in no bucket. -/
theorem addressee_answer_settles (env : AppendEnv) {F : List Fact} {o f : Fact} {n : Int}
    (coord : CoordinationConfig) (includeArchived : Bool) (now : Int)
    (hids : (F.map (·.eventId)).Nodup) (hseq : ∀ x ∈ F, x.seq < n)
    (ho : o ∈ (snapshotFromFactsWithPolicy env.ext F coord includeArchived now).openObligations)
    (hf : FreshAnswer F o f) :
    TransitionsAccept env F f ∧ (assertAuthority env F f = .ok () ↔ assertFieldBounds f = .ok ()) ∧
      Settled (snapshotFromFactsWithPolicy env.ext (F ++ [{ f with seq := n }]) coord includeArchived now) o :=
  ⟨hf.transitionsAccept hids ho, hf.assertAuthority_ok_iff hids ho, hf.settled ho hseq coord includeArchived now⟩

namespace Answering

/-- Alice asks Bob for a review. -/
def request : Fact :=
  { eventId := "h1", seq := 1, kind := .handoff, tool := some "alice", target := some "bob"
    subject := "please review", createdAt := "2026-01-01T00:00:00Z" }

def answer : Fact :=
  { eventId := "r1", kind := .resolve, tool := some "bob", refId := some "h1", subject := "reviewed"
    createdAt := "2026-01-01T01:00:00Z" }

/-- The same answer, scoped to more paths than a fact may carry. -/
def wideAnswer : Fact := { answer with scope := List.replicate 65 "src" }

theorem answer_fresh : FreshAnswer [request] request answer where
  kind := rfl
  refersTo := rfl
  byTarget := rfl
  fromSession := by
    have hnone : strictHandoffTargetSession request = none := by decide
    simp [hnone]
  notSystem := by decide
  notRetraction := by decide
  sessionOpen := by simp [answer]
  fresh := by decide
  notWithdrawn := by decide

theorem wideAnswer_fresh : FreshAnswer [request] request wideAnswer :=
  { answer_fresh with
    kind := rfl, refersTo := rfl, byTarget := rfl, fromSession := answer_fresh.fromSession
    notSystem := by decide, notRetraction := by decide, sessionOpen := by simp [wideAnswer, answer]
    fresh := by decide }

end Answering

/-- Bob answers Alice. -/
theorem addressee_answer_settles_review :
    TransitionsAccept .sample [Answering.request] Answering.answer ∧
      (assertAuthority .sample [Answering.request] Answering.answer = .ok () ↔
        assertFieldBounds Answering.answer = .ok ()) ∧
      Settled (snapshotFromFactsWithPolicy .sample ([Answering.request] ++ [{ Answering.answer with seq := 2 }])
        {} false AppendEnv.sample.now) Answering.request :=
  addressee_answer_settles .sample {} false AppendEnv.sample.now (by decide)
    (by intro x hx; rw [List.mem_singleton.mp hx]; decide) (by decide) Answering.answer_fresh

/-- An answer with 65 scope entries is as fresh, and the authority gate refuses it. -/
theorem wide_answer_refused :
    Answering.request ∈ (AppendEnv.sample.snapshot [Answering.request]).openObligations ∧
      FreshAnswer [Answering.request] Answering.request Answering.wideAnswer ∧
      assertAuthority .sample [Answering.request] Answering.wideAnswer ≠ .ok () :=
  ⟨by decide, Answering.wideAnswer_fresh, by decide⟩

end RallyPoint
