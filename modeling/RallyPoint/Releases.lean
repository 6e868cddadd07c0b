/-
# RallyPoint.Releases — what one release closes, and when that is what it was written for.

A release closes the claim its `ref` names and sweeps every claim that repeats one of its scope strings
(`claim_authority.rs`), and the gate asks for each swept claim whether the writer may close it
(`write_authority.rs`). A release written for a set of claims carries their scopes, so it stands or falls
with claims outside the set: `closesOnly_iff` says exactly when it is accepted and closes that set only.
-/
import RallyPoint.RemovalGate

namespace RallyPoint

open Lib

/-! ## What one release does -/

/-- The claims a release closes: the one its `ref` names, and every one that repeats one of its scopes. -/
def releaseCloses (release claim : Fact) : Bool :=
  release.refId == some claim.eventId || laterReleaseOverlapsClaimScope release claim

section OneRelease

variable {ext : Externals} {R F : List Fact} {r c : Fact}

theorem isSessionCloseFact_of_release (hkind : r.kind = .release) : isSessionCloseFact r = false := by
  simp [isSessionCloseFact, isSessionCloseAttempt, hkind]

theorem closesClaim_of_release (hkind : r.kind = .release) (hseq : c.seq < r.seq) :
    closesClaim r c = releaseCloses r c := by
  simp [closesClaim, releaseCloses, laterFactRefsClaim, closesActiveClaim, laterSessionCloseMatchesClaim,
    isSessionCloseFact_of_release hkind, hkind, hseq]

@[simp] theorem releaseCloses_projectEffectiveClaim :
    releaseCloses r (projectEffectiveClaim ext c R) = releaseCloses r c := by
  simp [releaseCloses, laterReleaseOverlapsClaimScope]

@[simp] theorem releaseCloses_withSeq (n : Int) : releaseCloses { r with seq := n } c = releaseCloses r c := rfl

/-- A release renews nothing, so every effective lease reads the same behind it. -/
theorem projectEffectiveClaim_append_release (hkind : r.kind = .release) :
    projectEffectiveClaim ext c (R ++ [r]) = projectEffectiveClaim ext c R := by
  have hrenewal : latestRenewal ext c (R ++ [r]) = latestRenewal ext c R := by
    have hnone : renewalOf ext c r = none := by simp [renewalOf, hkind]
    simp [latestRenewal, List.filterMap_append, hnone]
  simp only [projectEffectiveClaim, hrenewal]

theorem isActiveClaimFact_append_release (hkind : r.kind = .release) (hseq : c.seq < r.seq) :
    isActiveClaimFact c (R ++ [r]) = (isActiveClaimFact c R && !releaseCloses r c) := by
  simp [isActiveClaimFact, claimClosedByLaterFact, closesClaim_of_release hkind hseq, Bool.and_assoc]

/-- **The claims bucket behind one release:** exactly the claims it closes are gone. -/
theorem projectActiveClaims_append_release (hkind : r.kind = .release) (hseq : ∀ x ∈ R, x.seq < r.seq) :
    projectActiveClaims ext (R ++ [r]) =
      (projectActiveClaims ext R).filter fun c => !releaseCloses r c := by
  have hself : isActiveClaimFact r (R ++ [r]) = false := by simp [isActiveClaimFact, isLocalClaim, hkind]
  have hkept : R.filter (fun x => isActiveClaimFact x (R ++ [r])) =
      (R.filter fun x => isActiveClaimFact x R).filter fun x => !releaseCloses r x := by
    rw [List.filter_filter]
    refine List.filter_congr fun x hx => ?_
    rw [isActiveClaimFact_append_release hkind (hseq x hx), Bool.and_comm]
  have hnew : ∀ G : List Fact, (ClaimClosers.new G).isActive = fun x => isActiveClaimFact x G :=
    fun G => funext fun x => ClaimClosers.isActive_eq G x
  simp only [projectActiveClaims, hnew, List.filter_append, List.filter_cons, List.filter_nil, hself,
    Bool.false_eq_true, if_false, List.append_nil, hkept, List.filter_map, Function.comp_def,
    releaseCloses_projectEffectiveClaim, projectEffectiveClaim_append_release hkind]

/-- A release that survives its own append, over any ledger. -/
theorem activeClaims_append_release (hkind : r.kind = .release) (hseq : ∀ x ∈ F, x.seq < r.seq)
    (hsurvives : survivesAppend F r = true) :
    projectActiveClaims ext (resolvedFacts (F ++ [r])) =
      (projectActiveClaims ext (dropIds (targetOf r).toList (resolvedFacts F))).filter
        fun c => !releaseCloses r c := by
  have hself : dropIds (retractedIds (F ++ [r])) [r] = [r] := by
    simpa [dropIds] using (mem_resolvedFacts.mp (survivesAppend_iff.mp hsurvives)).2
  rw [resolvedFacts_append_singleton, hself]
  refine projectActiveClaims_append_release hkind fun x hx => hseq x ?_
  exact (mem_resolvedFacts.mp (mem_dropIds.mp hx).1).1

end OneRelease

/-! ## A release written for a set of claims -/

/-- The release is let through, and behind it the room shows its claims without the written-for ones. -/
structure ClosesOnly (env : AppendEnv) (F : List Fact) (matched : Fact → Bool) (release : Fact) : Prop where
  accepted : assertWriteAuthorized env.ext (env.snapshot F) env.coord env.now release F = .ok ()
  closed : (env.snapshot (F ++ [{ release with seq := canonicalMaxSeq F + 1 }])).activeClaims =
    (env.snapshot F).activeClaims.filter fun c => !matched c

/-- A retraction that the gates let the writer make and that no claim the release leaves feels. -/
structure UnfeltWithdrawal (env : AppendEnv) (F : List Fact) (release : Fact) (target : String) : Prop where
  allowed : assertRetractionAuthorized env.ext (env.snapshot F) env.coord env.now release = .ok () ∧
    assertRenewalRetractionAuthorized env.ext (env.snapshot F) env.coord env.now release F = .ok () ∧
    assertLeadRetractionAuthorized env.ext (env.snapshot F) env.coord env.now release F = .ok ()
  unfelt : (projectActiveClaims env.ext (dropIds [target] (resolvedFacts F))).filter
      (fun c => !releaseCloses release c) =
    (projectActiveClaims env.ext (resolvedFacts F)).filter fun c => !releaseCloses release c

/-- No claim outside the set repeats a scope string of the set, and nothing but the sweep is in the way. -/
structure StandsApart (env : AppendEnv) (F : List Fact) (matched : Fact → Bool) (release : Fact) :
    Prop where
  apart : ∀ c ∈ (env.snapshot F).activeClaims, matched c = false →
    ∀ m ∈ (env.snapshot F).activeClaims, matched m = true → ∀ s ∈ m.scope, s ∉ c.scope
  fits : assertFieldBounds release = .ok ()
  leaseOpen : ∀ tool session, release.tool = some tool → release.fromSessionId = some session →
    tool ≠ "" → session ≠ "" → sessionAlreadyClosed F tool session = false
  unmarked : reaperMarker release "reason" ≠ some "no-lease-over-age"
  -- the subject is free text, and `retract: <id>` makes a retraction of any fact
  withdraws : ∀ target, targetOf release = some target → UnfeltWithdrawal env F release target

section Exact

variable {env : AppendEnv} {F : List Fact} {r : Fact} {matched : Fact → Bool}

/-- Of a fact that neither opens nor closes a session the session gate asks only that its lease is open. -/
theorem lifecycle_iff (hattempt : isSessionCloseAttempt r = false) (hpresence : (r.kind == .presence) = false) :
    assertSessionLifecycleAuthorized env.ext r F = .ok () ↔
      ∀ tool session, r.tool = some tool → r.fromSessionId = some session → tool ≠ "" → session ≠ "" →
        sessionAlreadyClosed F tool session = false := by
  unfold assertSessionLifecycleAuthorized
  simp only [needsSessionLifecycleCheck, hattempt, Bool.false_or, hpresence, Bool.false_eq_true, if_false]
  cases htool : r.tool with
  | none => simp [isNonempty]
  | some tool =>
    cases hsession : r.fromSessionId with
    | none => simp [isNonempty]
    | some session =>
      by_cases ht : tool = ""
      · simp [isNonempty, ht]
      by_cases hs : session = ""
      · simp [isNonempty, hs]
      simp [isNonempty, ht, hs]

theorem lifecycle_of_release_iff (hkind : r.kind = .release) :
    assertSessionLifecycleAuthorized env.ext r F = .ok () ↔
      ∀ tool session, r.tool = some tool → r.fromSessionId = some session → tool ≠ "" → session ≠ "" →
        sessionAlreadyClosed F tool session = false :=
  lifecycle_iff (by simp [isSessionCloseAttempt, hkind]) (by simp [hkind])

/-- What the gate asks of a release. -/
theorem assertWriteAuthorized_release_iff (hkind : r.kind = .release) :
    assertWriteAuthorized env.ext (env.snapshot F) env.coord env.now r F = .ok () ↔
      assertFieldBounds r = .ok () ∧ assertSessionLifecycleAuthorized env.ext r F = .ok () ∧
        assertClaimCloseAuthorized env.ext (env.snapshot F) env.coord env.now r = .ok () ∧
        assertReleaseSweepAuthorized env.ext (env.snapshot F) env.coord env.now r = .ok () ∧
        assertRetractionAuthorized env.ext (env.snapshot F) env.coord env.now r = .ok () ∧
        assertRenewalRetractionAuthorized env.ext (env.snapshot F) env.coord env.now r F = .ok () ∧
        assertLeadRetractionAuthorized env.ext (env.snapshot F) env.coord env.now r F = .ok () := by
  have hlead : assertLeadTransferAuthorized env.ext (env.snapshot F) env.coord env.now r F = .ok () := by
    simp [assertLeadTransferAuthorized, isLeadDecision, hkind]
  rw [assertWriteAuthorized_ok_iff]
  simp only [hlead, and_true]

/-- A fact that withdraws nothing passes the three retraction gates. -/
theorem retractions_of_none (h : targetOf r = none) :
    assertRetractionAuthorized env.ext (env.snapshot F) env.coord env.now r = .ok () ∧
      assertRenewalRetractionAuthorized env.ext (env.snapshot F) env.coord env.now r F = .ok () ∧
      assertLeadRetractionAuthorized env.ext (env.snapshot F) env.coord env.now r F = .ok () := by
  simp [assertRetractionAuthorized, assertRenewalRetractionAuthorized, assertLeadRetractionAuthorized, h]

/-- Whether the writer of a release may close a claim without the reaper's evidence. -/
def mayRelease (env : AppendEnv) (F : List Fact) (release claim : Fact) : Prop :=
  claimOwnerMatchesCaller claim.tool claim.fromSessionId release.tool release.fromSessionId = true ∨
    (isSiblingSession release claim = false ∧
      ((env.snapshot F).claimReclaimEligible env.ext claim env.coord env.now).1 = true)

theorem authorized_of_mayRelease {action : String} {c : Fact}
    (hmarker : reaperMarker r "reason" ≠ some "no-lease-over-age") (h : mayRelease env F r c) :
    authorizeClaimRemoval env.ext (env.snapshot F) env.coord env.now r c action = .ok () := by
  rw [authorizeClaimRemoval_ok_iff, if_neg hmarker]
  rcases h with h | h
  · exact .inl h
  · exact .inr (.inr (.inl h))

/-- The age marker belongs to the reaper's own kind: no release that carries it closes a claim. -/
theorem unmarked_of_authorized {action : String} {c : Fact} (hkind : r.kind = .release)
    (h : authorizeClaimRemoval env.ext (env.snapshot F) env.coord env.now r c action = .ok ()) :
    reaperMarker r "reason" ≠ some "no-lease-over-age" := by
  intro hmarker
  rw [authorizeClaimRemoval_ok_iff, if_pos hmarker] at h
  simp [noLeaseReapAllowed, isTypedReaperClose, hkind] at h

/-- The shape of a release written for a set of active claims: it names one of them, carries exactly their
scopes, reaches each of them, and its writer may close each unless the reaper's age marker speaks. -/
structure WrittenFor (env : AppendEnv) (F : List Fact) (matched : Fact → Bool) (release : Fact) : Prop where
  kind : release.kind = .release
  names : ∃ m ∈ (env.snapshot F).activeClaims, matched m = true ∧ release.refId = some m.eventId
  scopes : ∀ s, s ∈ release.scope ↔ ∃ m ∈ (env.snapshot F).activeClaims, matched m = true ∧ s ∈ m.scope
  reaches : ∀ m ∈ (env.snapshot F).activeClaims, matched m = true →
    release.refId = some m.eventId ∨ m.scope ≠ []
  may : reaperMarker release "reason" ≠ some "no-lease-over-age" →
    ∀ m ∈ (env.snapshot F).activeClaims, matched m = true → ∀ action,
      authorizeClaimRemoval env.ext (env.snapshot F) env.coord env.now release m action = .ok ()

theorem activeClaims_nodup (hF : IsLedger F) : ((env.snapshot F).activeClaims.map (·.eventId)).Nodup :=
  activeClaims_distinct hF.distinctIds

theorem activeClaims_eq_of_id (hF : IsLedger F) {c m : Fact} (hc : c ∈ (env.snapshot F).activeClaims)
    (hm : m ∈ (env.snapshot F).activeClaims) (hid : c.eventId = m.eventId) : c = m :=
  List.inj_on_of_nodup_map (activeClaims_nodup hF) hc hm hid

theorem laterReleaseOverlapsClaimScope_iff (hkind : r.kind = .release) {c : Fact} :
    laterReleaseOverlapsClaimScope r c = true ↔ ∃ s ∈ r.scope, s ∈ c.scope := by
  simp [laterReleaseOverlapsClaimScope, hkind]

/-- What a release written for a set closes: the set, and whatever repeats one of its scopes. -/
theorem WrittenFor.closes_iff (hF : IsLedger F) (hw : WrittenFor env F matched r) {c : Fact}
    (hc : c ∈ (env.snapshot F).activeClaims) :
    releaseCloses r c = true ↔
      matched c = true ∨
        ∃ m ∈ (env.snapshot F).activeClaims, matched m = true ∧ ∃ s ∈ m.scope, s ∈ c.scope := by
  simp only [releaseCloses, Bool.or_eq_true, beq_iff_eq, laterReleaseOverlapsClaimScope_iff hw.kind]
  constructor
  · rintro (href | ⟨s, hs, hsc⟩)
    · obtain ⟨m, hm, hmatched, hname⟩ := hw.names
      have hid : c.eventId = m.eventId := Option.some.inj (href.symm.trans hname)
      rw [activeClaims_eq_of_id hF hc hm hid]
      exact .inl hmatched
    · obtain ⟨m, hm, hmatched, hsm⟩ := (hw.scopes s).mp hs
      exact .inr ⟨m, hm, hmatched, s, hsm, hsc⟩
  · rintro (hmatched | ⟨m, hm, hmatched, s, hsm, hsc⟩)
    · rcases hw.reaches c hc hmatched with href | hne
      · exact .inl href
      · obtain ⟨s, hs⟩ := List.exists_mem_of_ne_nil _ hne
        exact .inr ⟨s, (hw.scopes s).mpr ⟨c, hc, hmatched, hs⟩, hs⟩
    · exact .inr ⟨s, (hw.scopes s).mpr ⟨m, hm, hmatched, hsm⟩, hsc⟩

/-- No outside claim repeats a scope exactly when the release closes the set and nothing else. -/
theorem WrittenFor.apart_iff (hF : IsLedger F) (hw : WrittenFor env F matched r) :
    (∀ c ∈ (env.snapshot F).activeClaims, matched c = false →
        ∀ m ∈ (env.snapshot F).activeClaims, matched m = true → ∀ s ∈ m.scope, s ∉ c.scope) ↔
      ∀ c ∈ (env.snapshot F).activeClaims, releaseCloses r c = matched c := by
  refine forall₂_congr fun c hc => ?_
  have hcloses := hw.closes_iff hF hc
  cases hmatched : matched c with
  | true => simp [hcloses, hmatched]
  | false =>
    have hopen : releaseCloses r c = false ↔ ¬releaseCloses r c = true := by simp
    rw [hopen, hcloses]
    simp [hmatched]

/-- The claims bucket behind the release, at its next sequence number. -/
theorem activeClaims_behind (env : AppendEnv) (hF : IsLedger F) (hkind : r.kind = .release)
    (hsurvives : survivesAppend F r = true) :
    (env.snapshot (F ++ [{ r with seq := canonicalMaxSeq F + 1 }])).activeClaims =
      (projectActiveClaims env.ext (dropIds (targetOf r).toList (resolvedFacts F))).filter
        fun c => !releaseCloses r c := by
  have hseq : ∀ x ∈ F, x.seq < canonicalMaxSeq F + 1 := fun x hx =>
    Int.lt_add_one_of_le (hF.le_canonicalMaxSeq x hx)
  have hsurvives' : survivesAppend F { r with seq := canonicalMaxSeq F + 1 } = true := by
    simpa [survivesAppend, targetOf_withSeq] using hsurvives
  rw [← targetOf_withSeq r (canonicalMaxSeq F + 1)]
  exact activeClaims_append_release hkind hseq hsurvives'

/-- The gate on closing claims passes a release that stays within its set, unless it is marked. -/
theorem WrittenFor.authorized_iff (hF : IsLedger F) (hw : WrittenFor env F matched r)
    (hapart : ∀ c ∈ (env.snapshot F).activeClaims, releaseCloses r c = matched c) :
    (assertClaimCloseAuthorized env.ext (env.snapshot F) env.coord env.now r = .ok () ∧
        assertReleaseSweepAuthorized env.ext (env.snapshot F) env.coord env.now r = .ok ()) ↔
      reaperMarker r "reason" ≠ some "no-lease-over-age" := by
  obtain ⟨m, hm, hmatched, hname⟩ := hw.names
  have hclose : closesActiveClaim r.kind = true := by simp [closesActiveClaim, hw.kind]
  constructor
  · rintro ⟨href, -⟩
    simp only [assertClaimCloseAuthorized, hclose, Bool.not_true, Bool.false_eq_true, if_false, hname] at href
    exact unmarked_of_authorized hw.kind (authorizeRemovalOf_ok (activeClaims_nodup hF) hm href)
  · intro hmarker
    constructor
    · simp only [assertClaimCloseAuthorized, hclose, Bool.not_true, Bool.false_eq_true, if_false, hname,
        authorizeRemovalOf]
      cases hfind : (env.snapshot F).activeClaims.find? fun c => c.eventId == m.eventId with
      | none => rfl
      | some found =>
        have hmem := List.mem_of_find?_eq_some hfind
        have hid : found.eventId = m.eventId := by simpa using List.find?_some hfind
        rw [activeClaims_eq_of_id hF hmem hm hid]
        exact hw.may hmarker m hm hmatched _
    · unfold assertReleaseSweepAuthorized
      split
      · rfl
      · rw [check_forM_ok_iff]
        intro c hc
        split
        case isFalse => rfl
        case isTrue hsweep =>
          -- whatever the sweep reaches is in the set
          have hmatched : matched c = true := by
            rw [← hapart c hc, releaseCloses, hsweep, Bool.or_true]
          exact hw.may hmarker c hc hmatched _

/-- **When a release does what it was written for.** It is accepted and closes its set only exactly when no
claim outside the set repeats a scope string of the set, the writer's lease is open, the texts fit, no age
marker is forged and its subject is no retraction that a remaining claim feels. -/
theorem closesOnly_iff (hF : IsLedger F) (hw : WrittenFor env F matched r)
    (hsurvives : survivesAppend F r = true) :
    ClosesOnly env F matched r ↔ StandsApart env F matched r := by
  have hbehind := activeClaims_behind env hF hw.kind hsurvives
  constructor
  · rintro ⟨haccepted, hclosed⟩
    rw [hbehind] at hclosed
    -- an unmatched claim is still shown, so the release does not close it
    have hapart : ∀ c ∈ (env.snapshot F).activeClaims, releaseCloses r c = matched c := by
      intro c hc
      cases hmatched : matched c with
      | true => exact (hw.closes_iff hF hc).mpr (.inl hmatched)
      | false =>
        have hkept : c ∈ (env.snapshot F).activeClaims.filter fun c => !matched c :=
          List.mem_filter.mpr ⟨hc, by simp [hmatched]⟩
        rw [← hclosed] at hkept
        simpa using (List.mem_filter.mp hkept).2
    have hsame : (env.snapshot F).activeClaims.filter (fun c => !releaseCloses r c) =
        (env.snapshot F).activeClaims.filter fun c => !matched c :=
      List.filter_congr fun c hc => by rw [hapart c hc]
    obtain ⟨hfits, hlease, hclose, hsweep, hretracts⟩ := (assertWriteAuthorized_release_iff hw.kind).mp haccepted
    exact
      { apart := (hw.apart_iff hF).mpr hapart
        fits := hfits
        leaseOpen := (lifecycle_of_release_iff hw.kind).mp hlease
        unmarked := (hw.authorized_iff hF hapart).mp ⟨hclose, hsweep⟩
        withdraws := fun target htarget =>
          ⟨hretracts, by
            rw [htarget] at hclosed
            exact hclosed.trans hsame.symm⟩ }
  · intro h
    have hapart := (hw.apart_iff hF).mp h.apart
    have hsame : (env.snapshot F).activeClaims.filter (fun c => !releaseCloses r c) =
        (env.snapshot F).activeClaims.filter fun c => !matched c :=
      List.filter_congr fun c hc => by rw [hapart c hc]
    obtain ⟨hclose, hsweep⟩ := (hw.authorized_iff hF hapart).mpr h.unmarked
    constructor
    · refine (assertWriteAuthorized_release_iff hw.kind).mpr
        ⟨h.fits, (lifecycle_of_release_iff hw.kind).mpr h.leaseOpen, hclose, hsweep, ?_⟩
      cases htarget : targetOf r with
      | none => exact retractions_of_none htarget
      | some target => exact (h.withdraws target htarget).allowed
    · rw [hbehind, ← hsame]
      cases htarget : targetOf r with
      | none =>
        have hdrop : dropIds [] (resolvedFacts F) = resolvedFacts F := by simp [dropIds]
        simp only [Option.toList_none, hdrop]
        rfl
      | some target => exact (h.withdraws target htarget).unfelt

end Exact

/-! ## At the append boundary -/

/-- The canonical facts once an append is answered. -/
def AppendOutcome.ledger (facts : List Fact) : AppendOutcome → List Fact
  | .recorded _ => facts
  | .committed f => facts ++ [f]

/-- Whether the room still shows what a state transition was to end. -/
def transitionStillActive (env : AppendEnv) (facts : List Fact) (fact : Fact) : Bool :=
  match fact.refId with
  | none => false
  | some refId =>
    let room := env.snapshot facts
    match fact.kind with
    | .release => hasId room.activeClaims refId
    | .resolve => hasId room.activeBlockers refId || hasId room.activeClaims refId ||
        hasId room.openHandoffs refId || hasId room.currentRisks refId || hasId room.systemHealth refId ||
        hasId room.unconsumedArtifacts refId
    | _ => false

/-- The append and its readback; a readback that fails is a warning on a committed write. -/
def appendStateTransitionVerified (env : AppendEnv) (facts : List Fact) (fact : Fact) :
    Result (AppendOutcome × Bool) := do
  let outcome ← appendFactUnderLock env facts fact
  .ok (outcome, !transitionStillActive env (outcome.ledger facts) fact)

/-- The append boundary's bounds on what a ledger row says. -/
def RowFits (fact : Fact) : Prop :=
  validateAppendEventId fact.eventId = .ok () ∧ assertFieldBounds fact = .ok ()

/-- Every row of a ledger passed the field bounds when it was written. -/
theorem rowFits_of_reachable {ext : Externals} {F : List Fact} (hF : Reachable (AppendStep ext) F) :
    ∀ x ∈ F, RowFits x := by
  refine hF.forall_mem fun F f hstep => ?_
  obtain ⟨env, fact, -, hok⟩ := hstep
  obtain ⟨hid, hbounds, -, -, -, -, rfl⟩ := appendFactUnderLock_committed_iff.mp hok
  rw [validateAppendIdentity, check_refuse_ok_iff] at hid
  exact ⟨hid.2, hbounds⟩

section Boundary

variable {env : AppendEnv} {G : List Fact} {r f : Fact} {claimId : String}

theorem survivesAppend_of_plain (hplain : targetOf r = none) :
    survivesAppend G r = true ↔ r.eventId ∉ retractedIds G := by
  rw [survivesAppend, retractedIds_append, retractedIds_singleton, hplain, Option.toList_none, List.append_nil]
  simp

theorem hasId_iff {bucket : List Fact} : hasId bucket claimId = true ↔ ∃ c ∈ bucket, c.eventId = claimId := by
  simp [hasId]

/-- **When a release is written.** Beside its identity and the authority gate it needs a live claim under its
`ref`, the first schema generation and one more sequence number. -/
theorem append_release_iff (hkind : r.kind = .release) (href : r.refId = some claimId)
    (howners : takeoverOwnersMarker r.evidence = none) :
    appendFactUnderLock env G r = .ok (.committed f) ↔
      validateAppendIdentity r = .ok () ∧ r.eventId ∉ G.map (·.eventId) ∧
        hasId (env.snapshot G).activeClaims claimId = true ∧
        assertWriteAuthorized env.ext (env.snapshot G) env.coord env.now r G = .ok () ∧
        1 ≤ env.schemaFloor ∧ canonicalMaxSeq G + 1 < i64Bound ∧
        f = { r with seq := canonicalMaxSeq G + 1 } := by
  have hneeds : needsAuthorityCheck r = true := by simp [needsAuthorityCheck, hkind, closesActiveClaim]
  have hauthority : assertAuthority env G r =
      assertWriteAuthorized env.ext (env.snapshot G) env.coord env.now r G := by
    simp [assertAuthority, scopedLifecycle, hneeds]
  have htarget : assertTransitionTarget env G r = .ok () ↔
      hasId (env.snapshot G).activeClaims claimId = true := by
    simp only [assertTransitionTarget, hkind, href]
    by_cases hlive : hasId (env.snapshot G).activeClaims claimId = true <;> simp [hlive]
  have hfloor : assertKindWithinSchemaFloor env r = .ok () ↔ 1 ≤ env.schemaFloor := by
    simp only [assertKindWithinSchemaFloor, hkind, FactKind.sinceGeneration]
    by_cases hgeneration : 1 ≤ env.schemaFloor <;> simp [hgeneration]
  have hothers : assertTakeoverStillStale env G r = .ok () ∧ assertNoLeaseReap env G r = .ok () ∧
      assertReapStillJustified env G r = .ok () ∧ assertRenewal env G r = .ok () ∧
      assertSessionCloseShape r = .ok () ∧ assertClaimAdmissible env G r = .ok () ∧
      resolveHandoff r G = .ok none := by
    simp [assertTakeoverStillStale, assertNoLeaseReap, assertReapStillJustified, assertRenewal,
      assertSessionCloseShape, isSessionCloseAttempt, assertClaimAdmissible, resolveHandoff, hkind, howners,
      pure, Except.pure]
  obtain ⟨h₁, h₂, h₃, h₄, h₅, h₆, h₇⟩ := hothers
  rw [appendFactUnderLock_committed_iff, assertAppendable_ok_iff, hauthority, htarget, hfloor]
  simp only [h₁, h₂, h₃, h₄, h₅, h₆, h₇, true_and, and_true]
  -- the boundary reads the field bounds first, and the gate reads them again
  constructor
  · rintro ⟨hid, -, hnew, ⟨hlive, hgate, hgeneration⟩, hroom, hf⟩
    exact ⟨hid, hnew, hlive, hgate, hgeneration, hroom, hf⟩
  · rintro ⟨hid, hnew, hlive, hgate, hgeneration, hroom, hf⟩
    exact ⟨hid, (assertWriteAuthorized_ok_iff.mp hgate).1, hnew, ⟨hlive, hgate, hgeneration⟩, hroom, hf⟩

/-- A release whose id is withdrawn in advance changes no claim. -/
theorem activeClaims_behind_withdrawn (hplain : targetOf r = none) (hdead : r.eventId ∈ retractedIds G) (n : Int) :
    (env.snapshot (G ++ [{ r with seq := n }])).activeClaims = (env.snapshot G).activeClaims := by
  have hplain' : targetOf { r with seq := n } = none := by rw [targetOf_withSeq, hplain]
  have hresolved : resolvedFacts (G ++ [{ r with seq := n }]) = resolvedFacts G := by
    rw [resolvedFacts_append_singleton, hplain', retractedIds_append, retractedIds_singleton, hplain']
    simp [dropIds, hdead]
  simp only [AppendEnv.snapshot, snapshot_activeClaims, hresolved]

/-- The room behind a release that withdraws nothing and is not withdrawn itself. -/
theorem activeClaims_behind_plain (hG : IsLedger G) (hkind : r.kind = .release) (hplain : targetOf r = none)
    (hlive : r.eventId ∉ retractedIds G) :
    (env.snapshot (G ++ [{ r with seq := canonicalMaxSeq G + 1 }])).activeClaims =
      (env.snapshot G).activeClaims.filter fun c => !releaseCloses r c := by
  have hsurvives : survivesAppend G r = true := (survivesAppend_of_plain hplain).mpr hlive
  have hdrop : dropIds [] (resolvedFacts G) = resolvedFacts G := by simp [dropIds]
  rw [activeClaims_behind env hG hkind hsurvives, hplain, Option.toList_none, hdrop]
  rfl

/-- The readback of a release succeeds exactly when nobody withdrew the release in advance. -/
theorem readback_of_release (hG : IsLedger G) (hkind : r.kind = .release) (href : r.refId = some claimId)
    (hplain : targetOf r = none) (hlive : hasId (env.snapshot G).activeClaims claimId = true) :
    transitionStillActive env (G ++ [{ r with seq := canonicalMaxSeq G + 1 }]) r = false ↔
      r.eventId ∉ retractedIds G := by
  have hread : ∀ facts, transitionStillActive env facts r = hasId (env.snapshot facts).activeClaims claimId := by
    intro facts
    simp [transitionStillActive, href, hkind]
  rw [hread]
  by_cases hdead : r.eventId ∈ retractedIds G
  · rw [activeClaims_behind_withdrawn hplain hdead]
    simp [hlive, hdead]
  · rw [activeClaims_behind_plain hG hkind hplain hdead]
    -- the release closes whatever bears the id its `ref` names
    have hgone : hasId ((env.snapshot G).activeClaims.filter fun c => !releaseCloses r c) claimId = false := by
      rw [← Bool.not_eq_true, hasId_iff]
      rintro ⟨c, hc, rfl⟩
      simp [releaseCloses, href] at hc
    simp [hgone, hdead]

end Boundary

end RallyPoint
