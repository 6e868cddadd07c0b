/-
# RallyPoint.ClaimAuthority — who holds what, and what ends a claim (`claim_authority.rs`).

A claim is active until a later fact closes it, by one of three rules keyed differently: a closing kind
whose `ref` names the claim, a release whose free-text scope repeats one of the claim's scopes, or the
close of exactly the claim's (tool, session). `isActiveClaimFact` scans the ledger; `ClaimClosers` buckets
the candidates by those keys first and is proved to give the same answer (`ClaimClosers.isActive_eq`).

The lead seat is derived from the same facts by one body, `leadOf`: the latest lead-family decision wins
and a relinquishment reopens the seat. Every reader below it differs only in which facts it passes in.
-/
import RallyPoint.Lib.Log
import RallyPoint.Retraction
import RallyPoint.ResourceScope

namespace RallyPoint

open Lib

/-! ## What closes a claim -/

/-- The kinds that close an active claim by `ref`. -/
def closesActiveClaim (kind : FactKind) : Bool :=
  match kind with
  | .resolve | .release | .receipt | .claimExpired => true
  | _ => false

def laterFactRefsClaim (fact : Fact) (claimId : String) : Bool :=
  closesActiveClaim fact.kind && fact.refId == some claimId

/-- A release sweeps every claim that repeats one of its scopes, whoever owns it. -/
def laterReleaseOverlapsClaimScope (fact claim : Fact) : Bool :=
  fact.kind == .release &&
    fact.scope.any fun releaseScope => claim.scope.any fun claimScope => claimScope == releaseScope

def laterSessionCloseMatchesClaim (fact claim : Fact) : Bool :=
  isSessionCloseFact fact && fact.tool.isSome && fact.fromSessionId.isSome &&
    fact.tool == claim.tool && fact.fromSessionId == claim.fromSessionId

/-- Whether `fact` closes `claim`, by any of the three rules. -/
def closesClaim (fact claim : Fact) : Bool :=
  decide (fact.seq > claim.seq) &&
    (laterFactRefsClaim fact claim.eventId || laterReleaseOverlapsClaimScope fact claim ||
      laterSessionCloseMatchesClaim fact claim)

def claimClosedByLaterFact (claim : Fact) (facts : List Fact) : Bool :=
  facts.any fun fact => closesClaim fact claim

/-- A claim that is repo-local; external intake is never an active claim. -/
def isLocalClaim (fact : Fact) : Bool :=
  fact.kind == .claim && !fact.scope.any (· == "external-intake")

def isActiveClaimFact (fact : Fact) (facts : List Fact) : Bool :=
  isLocalClaim fact && !claimClosedByLaterFact fact facts

/-! ## The bucketed closer index -/

/-- Candidate closers by the key each closing rule shares with the claim. -/
structure ClaimClosers where
  byRef : String → List Fact
  releasesByScope : String → List Fact
  sessionCloses : String × String → List Fact

namespace ClaimClosers

def new (facts : List Fact) : ClaimClosers where
  byRef refId := facts.filter fun fact => closesActiveClaim fact.kind && fact.refId == some refId
  releasesByScope scope := facts.flatMap fun fact =>
    if fact.kind == .release then (fact.scope.filter (· == scope)).map fun _ => fact else []
  sessionCloses key := facts.filter fun fact =>
    isSessionCloseFact fact && fact.tool == some key.1 && fact.fromSessionId == some key.2

/-- The candidates one claim tests. -/
def candidates (closers : ClaimClosers) (claim : Fact) : List Fact :=
  closers.byRef claim.eventId ++ claim.scope.flatMap closers.releasesByScope ++
    (match claim.tool, claim.fromSessionId with
      | some tool, some session => closers.sessionCloses (tool, session)
      | _, _ => [])

def closed (closers : ClaimClosers) (claim : Fact) : Bool :=
  (closers.candidates claim).any fun fact => closesClaim fact claim

def isActive (closers : ClaimClosers) (fact : Fact) : Bool :=
  isLocalClaim fact && !closers.closed fact

theorem candidates_subset (facts : List Fact) (claim : Fact) :
    (new facts).candidates claim ⊆ facts := by
  intro x hx
  simp only [candidates, new, List.mem_append, List.mem_flatMap, List.mem_filter] at hx
  rcases hx with (hx | ⟨_, _, y, hy, hx⟩) | hx
  · exact hx.1
  · split at hx
    · obtain ⟨_, _, rfl⟩ := List.mem_map.mp hx
      exact hy
    · simp at hx
  · split at hx
    · exact (List.mem_filter.mp hx).1
    · simp at hx

/-- Every closer shares a key with the claim it closes, so it is a candidate. -/
theorem mem_candidates_of_closes {facts : List Fact} {fact claim : Fact} (hf : fact ∈ facts)
    (h : closesClaim fact claim = true) : fact ∈ (new facts).candidates claim := by
  simp only [closesClaim, Bool.and_eq_true, Bool.or_eq_true] at h
  simp only [candidates, List.mem_append]
  -- one bucket for each closing rule
  rcases h.2 with (href | hrel) | hsess
  · exact .inl (.inl (List.mem_filter.mpr ⟨hf, href⟩))
  · refine .inl (.inr ?_)
    simp only [laterReleaseOverlapsClaimScope, Bool.and_eq_true, List.any_eq_true, beq_iff_eq] at hrel
    obtain ⟨hkind, s, hs, t, ht, rfl⟩ := hrel
    refine List.mem_flatMap.mpr ⟨t, ht, List.mem_flatMap.mpr ⟨fact, hf, ?_⟩⟩
    simp [hkind, hs]
  · refine .inr ?_
    simp only [laterSessionCloseMatchesClaim, Bool.and_eq_true, beq_iff_eq] at hsess
    obtain ⟨⟨⟨⟨hclose, htool⟩, hsession⟩, htool'⟩, hsession'⟩ := hsess
    obtain ⟨tool, htool⟩ := Option.isSome_iff_exists.mp htool
    obtain ⟨session, hsession⟩ := Option.isSome_iff_exists.mp hsession
    rw [← htool', ← hsession', htool, hsession]
    simp [new, hf, hclose, htool, hsession]

/-- The bucketed index answers exactly what the full scan answers. -/
theorem isActive_eq (facts : List Fact) (fact : Fact) :
    (new facts).isActive fact = isActiveClaimFact fact facts := by
  have hclosed : (new facts).closed fact = claimClosedByLaterFact fact facts := by
    rw [Bool.eq_iff_iff]
    simp only [closed, claimClosedByLaterFact, List.any_eq_true]
    constructor
    · rintro ⟨x, hx, hc⟩
      exact ⟨x, candidates_subset facts fact hx, hc⟩
    · rintro ⟨x, hx, hc⟩
      exact ⟨x, mem_candidates_of_closes hx hc, hc⟩
  rw [isActive, isActiveClaimFact, hclosed]

end ClaimClosers

/-! ## Activity and the ledger -/

theorem isActiveClaimFact_iff {fact : Fact} {facts : List Fact} :
    isActiveClaimFact fact facts = true ↔
      isLocalClaim fact = true ∧ ∀ x ∈ facts, closesClaim x fact = false := by
  simp [isActiveClaimFact, claimClosedByLaterFact]

/-- More facts never revive a claim. -/
theorem isActiveClaimFact_antitone {fact : Fact} {F G : List Fact} (h : F ⊆ G)
    (hact : isActiveClaimFact fact G = true) : isActiveClaimFact fact F = true := by
  rw [isActiveClaimFact_iff] at hact ⊢
  exact ⟨hact.1, fun x hx => hact.2 x (h hx)⟩

/-! ## Ownership -/

def toolFamily (tool : String) : String := (split ':' (trim tool)).headD ""

def sameToolFamily : Option String → Option String → Bool
  | some left, some right => toolFamily left != "" && toolFamily left == toolFamily right
  | _, _ => false

/-- Two identities assert the same present, nonblank tool; absence is not an identity. -/
def sameNonblankTool : Option String → Option String → Bool
  | some left, some right => !isBlank left && left == right
  | _, _ => false

/-- Same lease owner: session plus tool family when both are stamped, the exact tool when neither is. -/
def sameSessionOwner (leftTool leftSession rightTool rightSession : Option String) : Bool :=
  match leftSession, rightSession with
  | some left, some right => !isBlank left && left == right && sameToolFamily leftTool rightTool
  | none, none => sameNonblankTool leftTool rightTool
  -- one side stamped and the other not: never one owner here
  | _, _ => false

/-- Ownership as a closer sees it, with the one-way fallback for claims that predate sessions. -/
def claimOwnerMatchesCaller (claimTool claimSession callerTool callerSession : Option String) : Bool :=
  sameSessionOwner claimTool claimSession callerTool callerSession ||
    (claimSession.isNone && sameNonblankTool claimTool callerTool)

/-! ## Leases and renewals -/

def leaseEvidencePrefix : String := "lease_expires_at:"
def leaseGrantedPrefix : String := "lease_granted_at:"

def leaseExpiresAt (fact : Fact) : Option String :=
  fact.evidence.findSome? (stripPrefix leaseEvidencePrefix)

section Leases

variable (ext : Externals)

def parseTime (raw : String) : Option Int := ext.parseFromRfc3339 raw

def leaseExpiresAtTime (claim : Fact) : Option Int :=
  (leaseExpiresAt claim).bind fun raw => parseTime ext (trim raw)

/-- Whether the lease marker of the fact AS GIVEN has passed; unreadable means not expired. -/
def leaseExpiredAt (claim : Fact) (now : Int) : Bool :=
  match leaseExpiresAtTime ext claim with
  | some expires => decide (expires ≤ now)
  | none => false

/-- A renewal read off a fact: parsed expiry, its text, and when it was granted. -/
def renewalOf (claim fact : Fact) : Option (Int × String × String) :=
  -- only the owner's renewals count, whoever else wrote one
  if fact.kind == .claimRenewed && fact.refId == some claim.eventId &&
      claimOwnerMatchesCaller claim.tool claim.fromSessionId fact.tool fact.fromSessionId then
    (leaseExpiresAt fact).bind fun lease =>
      (parseTime ext lease).map fun parsed => (parsed, lease, fact.createdAt)
  else none

def latestRenewal (claim : Fact) (facts : List Fact) : Option (String × String) :=
  (maxByKey (fun renewal : Int × String × String => renewal.1)
    (facts.filterMap (renewalOf ext claim))).map (·.2)

def latestRenewedLease (claim : Fact) (facts : List Fact) : Option String :=
  (latestRenewal ext claim facts).map (·.1)

/-- The claim with its effective lease projected into evidence; every other field is the author's. -/
def projectEffectiveClaim (fact : Fact) (facts : List Fact) : Fact :=
  let kept := fact.evidence.filter fun item => !startsWith leaseGrantedPrefix item
  match latestRenewal ext fact facts with
  | some (expiresAt, renewedAt) =>
    { fact with evidence := kept.filter (fun item => !startsWith leaseEvidencePrefix item) ++
        [leaseEvidencePrefix ++ expiresAt, leaseGrantedPrefix ++ renewedAt] }
  | none => { fact with evidence := kept ++ [leaseGrantedPrefix ++ fact.createdAt] }

/-- `chrono::Duration::try_days`: seconds stay within the millisecond range of `TimeDelta`. -/
def tryDays (days : Int) : Option Int :=
  if -((i64Bound - 1) / 1000) ≤ days * 86400 ∧ days * 86400 ≤ (i64Bound - 1) / 1000 then
    some (days * 86400 * 1000000000)
  else none

def noLeaseMaxAgeDays : Option Int :=
  match (match ext.noLeaseMaxAgeDaysVar with
    | .value raw => parseI64 raw
    | .notPresent => some 14
    | .notUnicode => none) with
  | some days => if 0 < days ∧ (tryDays days).isSome then some days else none
  | none => none

/-- The stricter of the stamped preview policy and the current one; either may veto. -/
def noLeaseReapMaxAgeDays (evidence : List String) : Option Int :=
  match (evidence.findSome? (stripPrefix "reaper:max_age_days=")).bind parseI64 with
  | none => none
  | some stamped =>
    if stamped ≤ 0 ∨ (tryDays stamped).isNone then none
    else (noLeaseMaxAgeDays ext).map fun current => max stamped current

def noLeaseOverAge (createdAt : String) (effectiveLease : Option String) (now : Int)
    (maxAgeDays : Option Int) : Option Int :=
  -- any readable lease, expired or not, takes the claim out of this rule
  if (effectiveLease.bind (parseTime ext)).isSome then none
  else
    match maxAgeDays.bind tryDays, parseTime ext createdAt with
    | some threshold, some created =>
      if now - created > threshold then some ((now - created) / 86400000000000) else none
    | _, _ => none

end Leases

/-! ## Claim records and conflict detection -/

structure ActiveClaimRecord where
  claimId : String
  ownerTool : Option String
  fromSessionId : Option String
  rawScope : List String
  resourceScopes : List ResourceScope
  leaseExpiresAt : Option String
  deriving DecidableEq, Repr

structure ClaimConflict where
  existingClaimId : String
  existingOwner : Option String
  scope : String
  existingScope : String
  deriving DecidableEq, Repr

/-- The scopes of a fact that name a resource. -/
def claimScopes (fact : Fact) : List ResourceScope := fact.scope.filterMap parseClaimScope

def activeClaimRecordFromFact (fact : Fact) : Option ActiveClaimRecord :=
  if (claimScopes fact).isEmpty then none
  else some
    { claimId := fact.eventId
      ownerTool := fact.tool
      fromSessionId := fact.fromSessionId
      rawScope := fact.scope
      resourceScopes := claimScopes fact
      leaseExpiresAt := RallyPoint.leaseExpiresAt fact }

section Conflicts

variable (ext : Externals)

def activeClaimRecordFromFacts (fact : Fact) (facts : List Fact) : Option ActiveClaimRecord :=
  (activeClaimRecordFromFact fact).map fun record =>
    match latestRenewedLease ext fact facts with
    | some expiresAt => { record with leaseExpiresAt := some expiresAt }
    | none => record

def activeClaimRecords (facts : List Fact) : List ActiveClaimRecord :=
  (facts.filter (ClaimClosers.new facts).isActive).filterMap fun fact =>
    activeClaimRecordFromFacts ext fact facts

/-- Lifecycle renewal resolves a claim over the facts it is given, scoped or not. -/
def renewableClaimRecord (facts : List Fact) (claimId : String) : Option ActiveClaimRecord :=
  (facts.find? fun fact => fact.eventId == claimId && isActiveClaimFact fact facts).map fun claim =>
    let effective := projectEffectiveClaim ext claim facts
    { claimId := effective.eventId
      ownerTool := effective.tool
      fromSessionId := effective.fromSessionId
      rawScope := effective.scope
      resourceScopes := claimScopes effective
      leaseExpiresAt := RallyPoint.leaseExpiresAt effective }

/-- The first pair of scopes on which a newcomer and a holder collide. -/
def firstConflict (existing incoming : ActiveClaimRecord) : Option ClaimConflict :=
  if sameSessionOwner existing.ownerTool existing.fromSessionId incoming.ownerTool
      incoming.fromSessionId then none
  else
    incoming.resourceScopes.findSome? fun newScope =>
      existing.resourceScopes.findSome? fun existingScope =>
        if newScope.conflictsWith existingScope then
          some
            { existingClaimId := existing.claimId
              existingOwner := existing.ownerTool
              scope := newScope.canonicalKey
              existingScope := existingScope.canonicalKey }
        else none

def detectConflict (facts : List Fact) (incoming : Fact) : Option ClaimConflict :=
  if incoming.kind != .claim then none
  else
    match activeClaimRecordFromFact incoming with
    | none => none
    | some record =>
      (activeClaimRecords ext (resolvedFacts facts)).findSome? fun existing =>
        firstConflict existing record

/-- Two claims collide when they are not one owner's and some pair of their scopes conflicts. -/
theorem firstConflict_eq_none_iff {existing incoming : ActiveClaimRecord} :
    firstConflict existing incoming = none ↔
      sameSessionOwner existing.ownerTool existing.fromSessionId incoming.ownerTool
          incoming.fromSessionId = true ∨
        ∀ s ∈ incoming.resourceScopes, ∀ s' ∈ existing.resourceScopes, s.conflictsWith s' = false := by
  unfold firstConflict
  split
  case isTrue howner => simp [howner]
  case isFalse howner =>
    simp only [List.findSome?_eq_none_iff, ite_eq_right_iff, reduceCtorEq, imp_false, Bool.not_eq_true,
      howner, Bool.false_eq_true, false_or]

/-- A claim that names a resource has a record, and the record carries its owner and its scopes. -/
theorem activeClaimRecordFromFacts_spec {fact : Fact} (facts : List Fact) (h : claimScopes fact ≠ []) :
    ∃ record, activeClaimRecordFromFacts ext fact facts = some record ∧ record.ownerTool = fact.tool ∧
      record.fromSessionId = fact.fromSessionId ∧ record.resourceScopes = claimScopes fact := by
  simp only [activeClaimRecordFromFacts, activeClaimRecordFromFact, List.isEmpty_iff, h, if_false,
    Option.map_some, Option.some.injEq, exists_eq_left']
  cases latestRenewedLease ext fact facts <;> exact ⟨rfl, rfl, rfl⟩

/-- **The conflict gate, read off.** A claim passes exactly when it collides with no claim that is active
in the retraction-resolved ledger. -/
theorem detectConflict_eq_none_iff {facts : List Fact} {incoming : Fact} (hkind : incoming.kind = .claim) :
    detectConflict ext facts incoming = none ↔
      ∀ x ∈ resolvedFacts facts, isActiveClaimFact x (resolvedFacts facts) = true →
        sameSessionOwner x.tool x.fromSessionId incoming.tool incoming.fromSessionId = true ∨
          ∀ s ∈ claimScopes incoming, ∀ s' ∈ claimScopes x, s.conflictsWith s' = false := by
  by_cases hin : claimScopes incoming = []
  · simp [detectConflict, hkind, activeClaimRecordFromFact, hin]
  · simp only [detectConflict, hkind, bne_self_eq_false, Bool.false_eq_true, if_false,
      activeClaimRecordFromFact, List.isEmpty_iff, hin, List.findSome?_eq_none_iff,
      activeClaimRecords, List.mem_filterMap, List.mem_filter, ClaimClosers.isActive_eq,
      firstConflict_eq_none_iff]
    constructor
    · intro h x hx hact
      -- a holder whose scopes name no resource has no record, and nothing to collide with either
      by_cases hxs : claimScopes x = []
      · simp [hxs]
      · obtain ⟨record, hrec, htool, hsession, hscopes⟩ :=
          activeClaimRecordFromFacts_spec ext (resolvedFacts facts) hxs
        have hx' := h record ⟨x, ⟨hx, hact⟩, hrec⟩
        rwa [htool, hsession, hscopes] at hx'
    · rintro h record ⟨x, ⟨hx, hact⟩, hrec⟩
      have hxs : claimScopes x ≠ [] := by
        intro hxs
        simp [activeClaimRecordFromFacts, activeClaimRecordFromFact, hxs] at hrec
      obtain ⟨record', hrec', htool, hsession, hscopes⟩ :=
        activeClaimRecordFromFacts_spec ext (resolvedFacts facts) hxs
      obtain rfl : record' = record := Option.some.inj (hrec'.symm.trans hrec)
      rw [htool, hsession, hscopes]
      exact h x hx hact

end Conflicts

/-! ## The lead seat -/

def leadSubject : String := "role:lead"
def leadRelinquishedSubject : String := "role:lead:relinquished"

/-- A lead-family decision: the seat taken, or the seat reopened. -/
def isLeadDecision (fact : Fact) : Bool :=
  fact.kind == .decision && (fact.subject == leadSubject || fact.subject == leadRelinquishedSubject)

/-- Who a lead decision names; facts older than the actor stamp carry no target. -/
def leadBeneficiary (fact : Fact) : Option String := fact.target.or fact.tool

/-- The latest lead-family decision of a list of facts. -/
def latestLeadDecision (facts : List Fact) : Option Fact :=
  maxByKey (·.seq) (facts.filter isLeadDecision)

/-- The seat one lead-family decision leaves behind. -/
def seatAfter (decision : Fact) : Option String :=
  if decision.subject == leadSubject then leadBeneficiary decision else none

def leadOf (facts : List Fact) : Option String := (latestLeadDecision facts).bind seatAfter

/-- The seat as of `seq`: only decisions at or before it count. -/
def leadAsOf (facts : List Fact) (seq : Int) : Option String :=
  leadOf (facts.filter fun fact => decide (fact.seq ≤ seq))

def leadAndEpochOf (facts : List Fact) : Option String × Option Int :=
  (leadOf facts, ((facts.filter isLeadDecision).map (·.seq)).max?)

/-- The seat as if one more fact were withdrawn. -/
def projectedLeadWithRetraction (facts : List Fact) (alsoRetracted : Option String) : Option String :=
  leadOf (dropIds (retractedIds facts ++ alsoRetracted.toList) facts)

def projectedLead (facts : List Fact) : Option String := projectedLeadWithRetraction facts none

/-- The refusal a room-wide wildcard claim reads when its author is not the lead. -/
def breadthViolation (incoming : Fact) (facts : List Fact) : Option String :=
  match activeClaimRecordFromFact incoming with
  | none => none
  | some record =>
    match record.resourceScopes.find? fun scope =>
        scope.resourceType.isNamespaceRoot && scope.identifier == wildcardIdentifier with
    | none => none
    | some wildcard =>
      let claimer := record.ownerTool.getD "<unknown tool>"
      match projectedLead facts with
      | some leadTool =>
        if leadTool == claimer then none
        else some s!"claim refused: scope {wildcard.canonicalKey} is room-wide and only the lead may hold it. {leadTool} holds the lead seat, not {claimer}. Claim the specific paths you are editing, or ask {leadTool} to hand off the lead first."
      | none => some s!"claim refused: scope {wildcard.canonicalKey} is room-wide and only the lead may hold it. This room has no lead, so no agent currently holds room-wide authority. Claim the specific paths you are editing."

end RallyPoint
