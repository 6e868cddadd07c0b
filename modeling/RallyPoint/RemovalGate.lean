/-
# RallyPoint.RemovalGate — every claim a write removes was removed by an allowed arm.

What a fact does to the room is computed by the projection, from its kind, its `ref`, its scope list, its
session stamp and its `retract:` subject; what it may do is computed by the gate. This module holds the two
together: for each claim that leaves the room on an accepted append, it names the arm that allowed it.

One arm does not hold as documented. The reaper's typed evidence is compared with the fact's OWN `ref`, and
never with the claim being removed, so a `claim.expired` fact that withdraws claim `c` through its subject
while its `ref` names something else passes as typed cleanup of `c` — and the checks the store repeats
under the lock look at the other id. `removalsJustified_iff` states the exact extent.
-/
import RallyPoint.Append

namespace RallyPoint

open Lib

/-! ## The allowed arms -/

/-- The close of exactly the claim's (tool, session), with the preimage of the session's latest hash. -/
def provesSessionClose (ext : Externals) (F : List Fact) (f c : Fact) : Bool :=
  isSessionCloseFact f && f.tool == c.tool && f.fromSessionId == c.fromSessionId &&
    match c.tool, c.fromSessionId with
    | some tool, some sessionId =>
      match latestCloseHash F tool sessionId, closeTokenRevealOf f with
      | some expected, some supplied => sessionCloseTokenHash ext supplied == expected
      | _, _ => false
    | _, _ => false

/-- An outsider's removal after the reclaim window. -/
def mayTakeOver (ext : Externals) (room : RoomSnapshot) (coord : CoordinationConfig) (now : Int)
    (f c : Fact) : Bool :=
  (room.claimReclaimEligible ext c coord now).1 && !isSiblingSession f c

/-- A typed reaper transition whose own condition on the claim holds. -/
def isTypedReap (ext : Externals) (now : Int) (f c : Fact) : Bool :=
  typedLeaseExpiry ext now f c || noLeaseReapAllowed ext now f c

/-- Why `f` may remove claim `c` from the room projected from `F`. -/
inductive RemovalJustified (ext : Externals) (coord : CoordinationConfig) (now : Int) (F : List Fact)
    (f c : Fact) : Prop
  | byOwner (h : claimOwnerMatchesCaller c.tool c.fromSessionId f.tool f.fromSessionId = true)
  | bySuccessor (h : successorMayClose ext now f c = true)
  | byTakeover
      (h : mayTakeOver ext (snapshotFromFactsWithPolicy ext F coord false now) coord now f c = true)
  | byReaper (hnamed : f.refId = some c.eventId) (h : isTypedReap ext now f c = true)
  | bySessionClose (h : provesSessionClose ext F f c = true)

/-- Every claim of the room that `f` removes is removed by an arm for that same claim. -/
def RemovalsJustified (ext : Externals) (coord : CoordinationConfig) (now : Int) (F : List Fact)
    (f : Fact) : Prop :=
  ∀ c ∈ (snapshotFromFactsWithPolicy ext F coord false now).activeClaims,
    (∀ c' ∈ (snapshotFromFactsWithPolicy ext (F ++ [f]) coord false now).activeClaims,
      c'.eventId ≠ c.eventId) →
    RemovalJustified ext coord now F f c

/-- Typed cleanup of a claim that the fact withdraws by subject and does not name by `ref`. -/
def isMisnamedReap (ext : Externals) (now : Int) (f c : Fact) : Bool :=
  targetOf f == some c.eventId && f.refId != some c.eventId && isTypedReap ext now f c

/-! ## From the gate to the arms -/

section Arms

variable {ext : Externals} {coord : CoordinationConfig} {now : Int} {F : List Fact} {f c : Fact}

/-- Typed cleanup is `claim.expired` and nothing else. -/
theorem isTypedReaperClose_kind {reasons : List String}
    (h : isTypedReaperClose f c reasons = true) : f.kind = .claimExpired := by
  by_contra hkind
  simp [isTypedReaperClose, hkind] at h

theorem isTypedReap_kind (h : isTypedReap ext now f c = true) : f.kind = .claimExpired := by
  simp only [isTypedReap, typedLeaseExpiry, noLeaseReapAllowed, isTypedReaperLeaseExpiry,
    Bool.or_eq_true, Bool.and_eq_true] at h
  rcases h with h | h <;> exact isTypedReaperClose_kind h.1

/-- The policy body read as arms. -/
theorem arms_of_authorized {room : RoomSnapshot} {action : String}
    (h : authorizeClaimRemoval ext room coord now f c action = .ok ()) :
    claimOwnerMatchesCaller c.tool c.fromSessionId f.tool f.fromSessionId = true ∨
      successorMayClose ext now f c = true ∨ mayTakeOver ext room coord now f c = true ∨
      isTypedReap ext now f c = true := by
  have harms := authorizeClaimRemoval_ok_iff.mp h
  by_cases hreason : reaperMarker f "reason" = some "no-lease-over-age"
  · rw [if_pos hreason] at harms
    exact .inr (.inr (.inr (by simp [isTypedReap, harms])))
  · rw [if_neg hreason] at harms
    rcases harms with h | h | ⟨hsibling, heligible⟩ | h
    · exact .inl h
    · exact .inr (.inl h)
    · exact .inr (.inr (.inl (by simp [mayTakeOver, hsibling, heligible])))
    · exact .inr (.inr (.inr (by simp [isTypedReap, h])))

/-- An authorized removal is justified, provided typed cleanup names the claim. -/
theorem justified_of_authorized {action : String}
    (h : authorizeClaimRemoval ext (snapshotFromFactsWithPolicy ext F coord false now) coord now f c
      action = .ok ())
    (hnamed : isTypedReap ext now f c = true → f.refId = some c.eventId ∨
      RemovalJustified ext coord now F f c) : RemovalJustified ext coord now F f c := by
  rcases arms_of_authorized h with harm | harm | harm | harm
  · exact .byOwner harm
  · exact .bySuccessor harm
  · exact .byTakeover harm
  · rcases hnamed harm with hname | hdone
    · exact .byReaper hname harm
    · exact hdone

/-- Ids stay distinct in the claims bucket. -/
theorem activeClaims_distinct (hids : (F.map (·.eventId)).Nodup) :
    ((snapshotFromFactsWithPolicy ext F coord false now).activeClaims.map (·.eventId)).Nodup := by
  have hmap : (projectActiveClaims ext (resolvedFacts F)).map (·.eventId) =
      ((resolvedFacts F).filter (ClaimClosers.new (resolvedFacts F)).isActive).map (·.eventId) := by
    simp [projectActiveClaims]
  rw [snapshot_activeClaims, hmap]
  exact hids.sublist ((List.filter_sublist.trans (resolvedFacts_sublist F)).map _)

/-- The session gate accepts a close only against the session's own hash. -/
theorem provesSessionClose_of_accepted (hclose : laterSessionCloseMatchesClaim f c = true)
    (h : assertSessionLifecycleAuthorized ext f F = .ok ()) : provesSessionClose ext F f c = true := by
  simp only [laterSessionCloseMatchesClaim, Bool.and_eq_true, beq_iff_eq] at hclose
  obtain ⟨⟨⟨⟨hfact, htool⟩, hsession⟩, htool'⟩, hsession'⟩ := hclose
  obtain ⟨tool, htool⟩ := Option.isSome_iff_exists.mp htool
  obtain ⟨sessionId, hsession⟩ := Option.isSome_iff_exists.mp hsession
  have hattempt : isSessionCloseAttempt f = true := by
    simp only [isSessionCloseFact, Bool.and_eq_true] at hfact
    exact hfact.1
  simp only [assertSessionLifecycleAuthorized, needsSessionLifecycleCheck, hattempt, Bool.true_or,
    Bool.not_true, Bool.false_eq_true, if_false, htool, hsession, if_true] at h
  rw [check_refuse_ok_iff] at h
  have hproof := h.2
  unfold provesSessionClose
  rw [← htool', ← hsession', htool, hsession, hfact]
  unfold assertCloseProof at hproof
  cases hlatest : latestCloseHash F tool sessionId with
  | none => simp [hlatest] at hproof
  | some expected =>
    cases hreveal : closeTokenRevealOf f with
    | none => simp [hlatest, hreveal] at hproof
    | some supplied =>
      simp only [hlatest, hreveal, bne_iff_ne, ne_eq, ite_not] at hproof
      split at hproof
      · simp [*]
      · simp at hproof

/-- Effective projection changes evidence only, so closing rules read the same. -/
theorem closesClaim_projectEffectiveClaim {facts : List Fact} :
    closesClaim f (projectEffectiveClaim ext c facts) = closesClaim f c := by
  simp [closesClaim, laterReleaseOverlapsClaimScope, laterSessionCloseMatchesClaim]

/-- A claim that leaves the room by being closed was checked for itself, whichever rule closed it. -/
theorem justified_of_closed (hids : (F.map (·.eventId)).Nodup)
    (hok : assertWriteAuthorized ext (snapshotFromFactsWithPolicy ext F coord false now) coord now f F =
      .ok ())
    (hmem : c ∈ (snapshotFromFactsWithPolicy ext F coord false now).activeClaims)
    (hclose : closesClaim f c = true) : RemovalJustified ext coord now F f c := by
  obtain ⟨-, hsession, hcloseGate, hsweepGate, -⟩ := assertWriteAuthorized_ok_iff.mp hok
  simp only [closesClaim, Bool.and_eq_true, Bool.or_eq_true] at hclose
  rcases hclose.2 with (href | hsweep) | hsess
  · -- closed by `ref`: the close gate asked about the very id
    simp only [laterFactRefsClaim, Bool.and_eq_true, beq_iff_eq] at href
    simp only [assertClaimCloseAuthorized, href.1, Bool.not_true, Bool.false_eq_true, if_false,
      href.2] at hcloseGate
    exact justified_of_authorized (authorizeRemovalOf_ok (activeClaims_distinct hids) hmem hcloseGate)
      fun _ => .inl href.2
  · -- swept by scope: a sweep is a release, and typed cleanup is not
    refine justified_of_authorized (assertReleaseSweepAuthorized_ok hmem hsweep hsweepGate)
      fun htyped => ?_
    simp only [laterReleaseOverlapsClaimScope, Bool.and_eq_true, beq_iff_eq] at hsweep
    simp [isTypedReap_kind htyped] at hsweep
  · exact .bySessionClose (provesSessionClose_of_accepted hsess hsession)

/-- A claim that leaves the room by being withdrawn was checked for itself, misnamed cleanup apart. -/
theorem justified_of_retracted (hids : (F.map (·.eventId)).Nodup)
    (hok : assertWriteAuthorized ext (snapshotFromFactsWithPolicy ext F coord false now) coord now f F =
      .ok ())
    (hmem : c ∈ (snapshotFromFactsWithPolicy ext F coord false now).activeClaims)
    (htarget : targetOf f = some c.eventId)
    (hmisnamed : isMisnamedReap ext now f c = true → RemovalJustified ext coord now F f c) :
    RemovalJustified ext coord now F f c := by
  obtain ⟨-, -, -, -, hretract, -⟩ := assertWriteAuthorized_ok_iff.mp hok
  simp only [assertRetractionAuthorized, htarget] at hretract
  refine justified_of_authorized (authorizeRemovalOf_ok (activeClaims_distinct hids) hmem hretract)
    fun htyped => ?_
  by_cases hname : f.refId = some c.eventId
  · exact .inl hname
  · exact .inr (hmisnamed (by simp [isMisnamedReap, htarget, hname, htyped]))

end Arms

/-! ## The gate is complete, and exactly where it is not -/

/-- **Removal-gate completeness.** On an accepted write, every claim that leaves the room left it by an
allowed arm for that same claim, exactly when the write is not typed cleanup of a claim it withdraws but
does not name (unless owner, successor or takeover would have allowed it anyway). -/
theorem removalsJustified_iff {ext : Externals} {coord : CoordinationConfig} {now : Int} {F : List Fact}
    {f : Fact} (hids : ((F ++ [f]).map (·.eventId)).Nodup)
    (hok : assertWriteAuthorized ext (snapshotFromFactsWithPolicy ext F coord false now) coord now f F =
      .ok ()) :
    RemovalsJustified ext coord now F f ↔
      ∀ c ∈ (snapshotFromFactsWithPolicy ext F coord false now).activeClaims,
        isMisnamedReap ext now f c = true →
          claimOwnerMatchesCaller c.tool c.fromSessionId f.tool f.fromSessionId = true ∨
            successorMayClose ext now f c = true ∨
            mayTakeOver ext (snapshotFromFactsWithPolicy ext F coord false now) coord now f c = true := by
  have hidsF : (F.map (·.eventId)).Nodup := by
    rw [List.map_append] at hids
    exact (List.nodup_append.mp hids).1
  constructor
  · intro h c hc hmisnamed
    simp only [isMisnamedReap, Bool.and_eq_true, beq_iff_eq, bne_iff_ne, ne_eq] at hmisnamed
    obtain ⟨⟨htarget, hname⟩, htyped⟩ := hmisnamed
    have hgone : ∀ c' ∈ (snapshotFromFactsWithPolicy ext (F ++ [f]) coord false now).activeClaims,
        c'.eventId ≠ c.eventId := by
      intro c' hc' hid
      obtain ⟨x, hx, -, rfl⟩ := mem_projectActiveClaims.mp hc'
      rw [mem_resolvedFacts_append] at hx
      exact hx.2.2 (by rw [htarget, ← hid, projectEffectiveClaim_eventId])
    -- withdrawn, the claim is gone; the reaper arm asks for the name that is missing here
    cases h c hc hgone with
    | byOwner h => exact .inl h
    | bySuccessor h => exact .inr (.inl h)
    | byTakeover h => exact .inr (.inr h)
    | byReaper hnamed => exact absurd hnamed hname
    | bySessionClose h =>
      have hkind := isTypedReap_kind htyped
      simp [provesSessionClose, isSessionCloseFact, isSessionCloseAttempt, hkind] at h
  · intro h c hc hgone
    obtain ⟨x, hx, hact, rfl⟩ := mem_projectActiveClaims.mp hc
    have hremoved : ¬ActiveIn (F ++ [f]) x := fun hstill =>
      hgone _ (mem_projectActiveClaims.mpr ⟨x, hstill.1, hstill.2, rfl⟩) (by simp)
    rcases removed_cases ⟨hx, hact⟩ hremoved with htarget | hclose
    · refine justified_of_retracted hidsF hok hc (by simpa using htarget) fun hmisnamed => ?_
      rcases h _ hc hmisnamed with harm | harm | harm
      · exact .byOwner harm
      · exact .bySuccessor harm
      · exact .byTakeover harm
    · simp only [closesOnAppend, Bool.and_eq_true] at hclose
      exact justified_of_closed hidsF hok hc (closesClaim_projectEffectiveClaim.trans hclose.2)

/-- A claim whose lease ran out at midnight. -/
def lapsedClaim : Fact :=
  { eventId := "c1", seq := 1, kind := .claim, tool := some "alice", fromSessionId := some "sess:alice"
    subject := "parser", scope := ["file:src/parser.rs"], createdAt := "2026-01-01T00:00:00Z"
    evidence := ["lease_expires_at:2026-01-01T00:00:00Z"] }

/-- Its owner, writing an hour later. -/
def ownerPresence : Fact :=
  { eventId := "p1", seq := 2, kind := .presence, tool := some "alice"
    fromSessionId := some "sess:alice", subject := "presence", createdAt := "2026-01-01T01:00:00Z" }

def ownerRelease : Fact :=
  { eventId := "r1", seq := 3, kind := .release, tool := some "alice"
    fromSessionId := some "sess:alice", subject := "done", refId := some "c1"
    createdAt := "2026-01-01T01:00:00Z" }

/-- Reaper evidence about an id that names nothing, on a fact whose subject withdraws the claim. -/
def misnamedReap : Fact :=
  { eventId := "x1", seq := 3, kind := .claimExpired, tool := some "mallory", role := some "system"
    subject := "retract: c1", refId := some "gone", createdAt := "2026-01-01T01:00:00Z"
    evidence := ["reaper:ref_id=gone", "reaper:reason=lease-expired", "reaper:owner=alice",
      "reaper:owner_session=sess:alice", "reaper:observed=unknown"] }

/-- The same room an hour later. -/
def oneHourLater : AppendEnv := { AppendEnv.sample with now := 1767229200000000000 }

/-- The owner's own release removes the claim, and is justified. -/
theorem removalsJustified_iff_owner_release :
    (oneHourLater.snapshot ([lapsedClaim, ownerPresence] ++ [ownerRelease])).activeClaims = [] ∧
      RemovalsJustified .sample {} oneHourLater.now [lapsedClaim, ownerPresence] ownerRelease :=
  ⟨by decide, (removalsJustified_iff (by decide) (by decide)).mpr
    (by decide)⟩

/-- A stranger's misnamed cleanup of a live owner's claim is accepted, by the gate and by the whole append
boundary, and no arm for that claim allows it. -/
theorem removal_by_misnamed_reap :
    assertWriteAuthorized .sample (oneHourLater.snapshot [lapsedClaim, ownerPresence]) {}
        oneHourLater.now misnamedReap [lapsedClaim, ownerPresence] = .ok () ∧
      appendFactUnderLock oneHourLater [lapsedClaim, ownerPresence] misnamedReap =
        .ok (.committed misnamedReap) ∧
      ¬RemovalsJustified .sample {} oneHourLater.now [lapsedClaim, ownerPresence] misnamedReap := by
  refine ⟨by decide, by decide, fun h => ?_⟩
  have harm := h (projectEffectiveClaim .sample lapsedClaim [lapsedClaim, ownerPresence])
    (by decide) (by decide)
  cases harm with
  | byOwner h => exact absurd h (by decide)
  | bySuccessor h => exact absurd h (by decide)
  | byTakeover h => exact absurd h (by decide)
  | byReaper h => exact absurd h (by decide)
  | bySessionClose h => exact absurd h (by decide)

end RallyPoint
