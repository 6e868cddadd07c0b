/-
# RallyPoint.SessionRelease — releases that belong to one session (`lib.rs`).

A launch is admitted by a claim on its resources, and a launch that fails gives that claim back
(`acquire_session_admission`, `AdmissionRollback`). A managed session that ends gives back every claim it
still holds, one release after another from one snapshot (`release_managed_session_claims`). Both write
releases that name a claim AND carry its scope list, so both sweep: a rollback takes an older claim on the same
resource with it, and the second of two claims on one file is gone before its own release is written.
-/
import RallyPoint.Releases
import RallyPoint.StableId

namespace RallyPoint

open Lib

/-! ## Admission -/

def canonicalAdmissionResource (raw : String) : Result String :=
  match parseClaimScope raw with
  | none => .error (.usage (s!"invalid session admission resource {String.quote raw}; expected a typed scope " ++
      "such as task:<id>"))
  | some parsed =>
    if parsed.access != .exclusive then
      .error (.usage (s!"session admission resource {String.quote raw} must be exclusive; shared, advisory, and " ++
        "namespace scopes cannot prevent a harness collision"))
    else .ok parsed.canonicalKey

def canonicalAdmissionResources (resources : List String) : Result (List String) :=
  (resources.mapM canonicalAdmissionResource).map sortDedup

/-- The lease an external host runs under; the managed launch marker selects the managed name space. -/
def parentProtocolSession (managedMode : Bool) (session : ManagedSession) : String :=
  if managedMode then managedProtocolSession session
  else
    let segment := sanitizeSegment session.sessionId
    let endpoint := if segment.toList.isEmpty then "unknown" else "parent:" ++ segment
    "sess:" ++ endpoint ++ "#" ++ sanitizeSegment "live"

structure SessionAdmission where
  state : String
  resources : List String
  claimId : Option String
  deriving DecidableEq, Repr

structure SessionAdmissionAcquisition where
  admission : SessionAdmission
  created : Bool
  deriving DecidableEq, Repr

/-- What an admission reads beside the room: the backend and launch mode, and the texts of the instant. -/
structure LaunchContext where
  backend : String
  managedMode : Bool
  createdAt : String
  /-- The lease marker `now + secs`. -/
  leaseMarkerAt : Int → String

/-- The session id under which an admission is claimed and given back. -/
def admissionProtocolSession (launch : LaunchContext) (session : ManagedSession) : String :=
  if launch.backend = "external" then parentProtocolSession launch.managedMode session
  else managedProtocolSession session

def isAdmissionOf (session : ManagedSession) (owner : String) (resources : List String) (fact : Fact) : Bool :=
  fact.tool == some session.tool && fact.fromSessionId == some owner && fact.scope == resources &&
    fact.evidence.any (· == "protocol:session_admission=v1")

def ensureLeaseEvidence (evidence : List String) (marker : String) : List String :=
  if evidence.any (startsWith leaseEvidencePrefix) then evidence
  else evidence ++ [leaseEvidencePrefix ++ marker]

section Admission

variable (env : AppendEnv) (launch : LaunchContext) (session : ManagedSession)

/-- The claim of an admission; the generation keeps a repeated admission apart from its predecessors. -/
def admissionClaim (resources : List String) (priorGeneration : Nat) : Fact :=
  let owner := admissionProtocolSession launch session
  let joined := join "," resources
  let operation := s!"{session.tool}:{owner}:{joined}:{priorGeneration}"
  let leaseSecs := reclaimTimeoutSecs (classifyWorkSize (resources.filterMap parseClaimScope) resources.length)
    env.coord.reclaimSmallMinutes env.coord.reclaimLargeMinutes
  { schema := factSchema
    eventId := stableOperationId "session-admission" operation
    threadId := stableOperationId "session-admission-thread" operation
    kind := .claim
    tool := some session.tool
    subject := "session admission: " ++ session.name
    scope := resources
    createdAt := launch.createdAt
    summary := some "Rally granted these resources before the harness process was allowed to start"
    evidence := ensureLeaseEvidence ["protocol:session_admission=v1"] (launch.leaseMarkerAt leaseSecs)
    status := some "active"
    fromSessionId := some owner }

/-- The admission of a launch, and the canonical facts behind it. -/
def acquireSessionAdmission (facts : List Fact) (resources : List String) :
    Result (Option SessionAdmissionAcquisition × List Fact) := do
  let resources ← canonicalAdmissionResources resources
  if resources.isEmpty then .ok (none, facts)
  else
    let owner := admissionProtocolSession launch session
    match (env.snapshot facts).activeClaims.find? (isAdmissionOf session owner resources) with
    | some existing => .ok (some ⟨⟨"granted", resources, some existing.eventId⟩, false⟩, facts)
    | none =>
      let priorGeneration :=
        (facts.filter fun fact => fact.kind == .claim && isAdmissionOf session owner resources fact).length
      let outcome ← appendFactUnderLock env facts (admissionClaim env launch session resources priorGeneration)
      let claimId := match outcome with
        | .recorded existing => existing.eventId
        | .committed fact => fact.eventId
      .ok (some ⟨⟨"granted", resources, some claimId⟩, true⟩, outcome.ledger facts)

/-- What a failed launch writes when its guard is dropped. -/
def admissionRollback (claimId : String) (scope : List String) (createdAt : String) : Fact :=
  let operation := session.sessionId ++ ":" ++ claimId
  { schema := factSchema
    eventId := stableOperationId "launch-failed-admission-release" operation
    threadId := stableOperationId "launch-failed-admission-release-thread" operation
    kind := .release
    tool := some session.tool
    subject := "release failed launch admission: " ++ claimId
    scope := scope
    createdAt := createdAt
    summary := some "Rally released only the admission acquired for a harness that did not start"
    evidence := ["protocol:session_admission_rollback=v1"]
    refId := some claimId
    fromSessionId := some (admissionProtocolSession launch session) }

end Admission

/-! ## The end of a managed session -/

def managedClaimMatchesSession (session : ManagedSession) (allowLegacyToolFallback : Bool) (claim : Fact) :
    Bool :=
  sameSessionOwner claim.tool claim.fromSessionId (some session.tool) (some (managedProtocolSession session)) ||
    (allowLegacyToolFallback && claim.fromSessionId.isNone && sameNonblankTool claim.tool (some session.tool))

/-- What the release loop leaves behind: the ledger, what each append answered, and the ids it returns. -/
structure SessionReleaseRun where
  facts : List Fact
  outcomes : List (AppendOutcome × Bool)
  result : Result (List String)

section SessionEnd

variable (env : AppendEnv) (session : ManagedSession) (operation createdAt : String)

/-- The release of one claim of the session. -/
def sessionClaimRelease (claim : Fact) : Fact :=
  let target := session.sessionId ++ ":" ++ claim.eventId
  { schema := factSchema
    eventId := stableOperationId operation target
    threadId := stableOperationId (operation ++ "-thread") target
    kind := .release
    tool := some session.tool
    subject := "self-release on managed session completion: " ++ claim.eventId
    scope := claim.scope
    createdAt := createdAt
    refId := some claim.eventId
    fromSessionId := some (managedProtocolSession session) }

/-- The loop over the claims of the first snapshot; the first refusal ends it. -/
def releaseEach (facts : List Fact) : List Fact → SessionReleaseRun
  | [] => ⟨facts, [], .ok []⟩
  | claim :: rest =>
    match appendStateTransitionVerified env facts
        (sessionClaimRelease session operation createdAt claim) with
    | .error e => ⟨facts, [], .error e⟩
    | .ok outcome =>
      let run := releaseEach (outcome.1.ledger facts) rest
      { facts := run.facts
        outcomes := outcome :: run.outcomes
        result := run.result.map fun released => claim.eventId :: released }

def sessionClaims (facts : List Fact) (allowLegacyToolFallback : Bool) : List Fact :=
  (env.snapshot facts).activeClaims.filter (managedClaimMatchesSession session allowLegacyToolFallback)

def releaseManagedSessionClaims (allowLegacyToolFallback : Bool) (facts : List Fact) : SessionReleaseRun :=
  releaseEach env session operation createdAt facts (sessionClaims env session facts allowLegacyToolFallback)

end SessionEnd

/-! ## A release that carries a claim's scopes -/

section Carried

variable {ext : Externals} {env : AppendEnv} {R F G : List Fact} {r c f : Fact}

/-- The scopes of a ledger row leave room for the few fixed texts of a release. -/
theorem assertFieldBounds_of_carried (hc : RowFits c) (hscope : r.scope = c.scope)
    (htool : assertSingleLine "tool" r.tool = .ok ()) (htarget : r.target = none) (hrole : r.role = none)
    (huri : r.uri = none) (hsubject : byteLen r.subject ≤ 512)
    (hsummary : (r.summary.map byteLen).getD 0 ≤ 128) (hcount : r.evidence.length ≤ 1)
    (hevidence : ∀ item ∈ r.evidence, byteLen item ≤ 128) : assertFieldBounds r = .ok () := by
  have hfit := (assertFieldBounds_ok_iff.mp hc.2).2
  have hscopes : sumOf byteLen r.scope ≤ r.scope.length * maxScopeItemLen :=
    sumOf_le_mul (hscope ▸ hfit.scope)
  have hitems : sumOf byteLen r.evidence ≤ r.evidence.length * 128 := sumOf_le_mul hevidence
  have hscopeCount : r.scope.length ≤ 64 := hscope ▸ hfit.scopeCount
  refine assertFieldBounds_ok_iff.mpr ⟨?_, ?_⟩
  · rw [assertIdentityFieldsAreSingleLine, check_bind_ok_iff, check_bind_ok_iff, htarget, hrole]
    exact ⟨htool, rfl, rfl⟩
  · constructor
    case subject => exact hsubject.trans (by decide)
    case summary => exact hsummary.trans (by decide)
    case uri => simp [huri]
    case evidenceCount => exact hcount.trans (by decide)
    case evidence => exact fun item hitem => (hevidence item hitem).trans (by decide)
    case scopeCount => exact hscopeCount
    case scope => exact hscope ▸ hfit.scope
    case total =>
      simp only [factTextTotal, huri, Option.map_none, Option.getD_none, maxFactTextBytes, maxScopeItemLen] at *
      omega

theorem appendStateTransitionVerified_committed_iff :
    appendStateTransitionVerified env G r = .ok (.committed f, true) ↔
      appendFactUnderLock env G r = .ok (.committed f) ∧ transitionStillActive env (G ++ [f]) r = false := by
  rw [appendStateTransitionVerified, bind_ok_iff]
  constructor
  · rintro ⟨outcome, hok, heq⟩
    simp only [Except.ok.injEq, Prod.mk.injEq, Bool.not_eq_true'] at heq
    obtain ⟨rfl, hread⟩ := heq
    exact ⟨hok, hread⟩
  · rintro ⟨hok, hread⟩
    exact ⟨_, hok, by simp [AppendOutcome.ledger, hread]⟩

/-- A release that closes nobody's session leaves every lease as open as it was. -/
theorem sessionAlreadyClosed_append (hattempt : isSessionCloseAttempt r = false) (tool session : String) :
    sessionAlreadyClosed (G ++ [r]) tool session = sessionAlreadyClosed G tool session := by
  have hclose : isSessionCloseFact r = false := by simp [isSessionCloseFact, hattempt]
  simp only [sessionAlreadyClosed, List.filter_append, List.any_append, Bool.or_eq_left_iff_imp]
  intro h
  obtain ⟨x, hx, hxclose⟩ := List.any_eq_true.mp h
  obtain rfl := List.mem_singleton.mp (List.mem_filter.mp hx).1
  simp [hclose] at hxclose

/-- A new claim stands behind the others and touches none. -/
theorem projectActiveClaims_append_claim (hkind : c.kind = .claim) (hseq : ∀ x ∈ R, x.seq < c.seq)
    (hlocal : isLocalClaim c = true) :
    projectActiveClaims ext (R ++ [c]) =
      projectActiveClaims ext R ++ [projectEffectiveClaim ext c (R ++ [c])] := by
  have hinert : ∀ x, closesClaim c x = false := by
    simp [closesClaim, laterFactRefsClaim, closesActiveClaim, laterReleaseOverlapsClaimScope,
      laterSessionCloseMatchesClaim, isSessionCloseFact, isSessionCloseAttempt, hkind]
  have hactive : ∀ x, isActiveClaimFact x (R ++ [c]) = isActiveClaimFact x R := by
    simp [isActiveClaimFact, claimClosedByLaterFact, hinert]
  have hself : isActiveClaimFact c R = true := by
    refine isActiveClaimFact_iff.mpr ⟨hlocal, fun x hx => ?_⟩
    by_contra hclose
    have := closesClaim_seq (Bool.of_not_eq_false hclose)
    have := hseq x hx
    omega
  have heffective : ∀ x, projectEffectiveClaim ext x (R ++ [c]) = projectEffectiveClaim ext x R := by
    intro x
    have hnone : renewalOf ext x c = none := by simp [renewalOf, hkind]
    simp [projectEffectiveClaim, latestRenewal, List.filterMap_append, hnone]
  have hnew : ∀ G : List Fact, (ClaimClosers.new G).isActive = fun x => isActiveClaimFact x G :=
    fun G => funext fun x => ClaimClosers.isActive_eq G x
  simp only [projectActiveClaims, hnew, hactive, heffective, List.filter_append, List.map_append,
    List.filter_cons, hself, if_true, List.filter_nil, List.map_cons, List.map_nil]

/-- The room behind a claim that withdraws nothing: one claim more, unless its id was withdrawn in advance. -/
theorem activeClaims_append_claim (env : AppendEnv) (hkind : c.kind = .claim) (hplain : targetOf c = none)
    (hseq : ∀ x ∈ F, x.seq < c.seq) (hlocal : isLocalClaim c = true) :
    (c.eventId ∈ retractedIds F → (env.snapshot (F ++ [c])).activeClaims = (env.snapshot F).activeClaims) ∧
      (c.eventId ∉ retractedIds F → (env.snapshot (F ++ [c])).activeClaims =
        (env.snapshot F).activeClaims ++ [projectEffectiveClaim env.ext c (resolvedFacts F ++ [c])]) := by
  have hresolved : resolvedFacts (F ++ [c]) = resolvedFacts F ++ dropIds (retractedIds F) [c] := by
    rw [resolvedFacts_append_singleton, hplain, retractedIds_append, retractedIds_singleton, hplain]
    simp [dropIds]
  simp only [AppendEnv.snapshot, snapshot_activeClaims, hresolved]
  constructor
  · intro hdead
    simp [dropIds, hdead]
  · intro hstands
    have hself : dropIds (retractedIds F) [c] = [c] := by simp [dropIds, hstands]
    rw [hself]
    refine projectActiveClaims_append_claim hkind (fun x hx => hseq x ?_) hlocal
    exact (mem_resolvedFacts.mp hx).1

theorem eventId_mem_of_active (hc : c ∈ (env.snapshot F).activeClaims) : c.eventId ∈ F.map (·.eventId) := by
  obtain ⟨x, hx, -, rfl⟩ := mem_projectActiveClaims.mp hc
  rw [projectEffectiveClaim_eventId]
  exact List.mem_map_of_mem (mem_resolvedFacts.mp hx).1

/-- A release that names one active claim and carries its scopes is written for that claim alone. -/
theorem writtenFor_one (hG : IsLedger G) (hc : c ∈ (env.snapshot G).activeClaims) (hkind : r.kind = .release)
    (href : r.refId = some c.eventId) (hscope : r.scope = c.scope)
    (hmay : reaperMarker r "reason" ≠ some "no-lease-over-age" → ∀ action,
      authorizeClaimRemoval env.ext (env.snapshot G) env.coord env.now r c action = .ok ()) :
    WrittenFor env G (fun x => x.eventId == c.eventId) r := by
  have hone : ∀ m ∈ (env.snapshot G).activeClaims, (m.eventId == c.eventId) = true → m = c :=
    fun m hm hid => activeClaims_eq_of_id hG hm hc (by simpa using hid)
  constructor
  case kind => exact hkind
  case names => exact ⟨c, hc, by simp, href⟩
  case scopes =>
    intro s
    rw [hscope]
    constructor
    · intro hs
      exact ⟨c, hc, by simp, hs⟩
    · rintro ⟨m, hm, hid, hs⟩
      exact hone m hm hid ▸ hs
  case reaches =>
    intro m hm hid
    rw [hone m hm hid]
    exact .inl href
  case may =>
    intro hmarker m hm hid action
    rw [hone m hm hid]
    exact hmay hmarker action

/-- The gate's answer about one claim does not depend on the word for the action. -/
theorem authorized_any_action {action action' : String}
    (h : authorizeClaimRemoval env.ext (env.snapshot G) env.coord env.now r c action = .ok ()) :
    authorizeClaimRemoval env.ext (env.snapshot G) env.coord env.now r c action' = .ok () := by
  rw [authorizeClaimRemoval_ok_iff] at h ⊢
  exact h

/-- An accepted release may close the claim it names. -/
theorem authorized_of_accepted (hG : IsLedger G) (hc : c ∈ (env.snapshot G).activeClaims)
    (hkind : r.kind = .release) (href : r.refId = some c.eventId)
    (h : assertWriteAuthorized env.ext (env.snapshot G) env.coord env.now r G = .ok ()) (action : String) :
    authorizeClaimRemoval env.ext (env.snapshot G) env.coord env.now r c action = .ok () := by
  obtain ⟨-, -, hclose, -⟩ := (assertWriteAuthorized_release_iff hkind).mp h
  have hcloses : closesActiveClaim r.kind = true := by simp [closesActiveClaim, hkind]
  simp only [assertClaimCloseAuthorized, hcloses, Bool.not_true, Bool.false_eq_true, if_false, href] at hclose
  exact authorized_any_action (authorizeRemovalOf_ok (activeClaims_nodup hG) hc hclose)

end Carried

/-! ## A launch that fails -/

/-- The rollback is written and takes effect, and the room shows the claims it showed before the admission. -/
def RollsBack (env : AppendEnv) (F : List Fact) (claim release : Fact) : Prop :=
  ∃ f, appendStateTransitionVerified env (F ++ [claim]) release = .ok (.committed f, true) ∧
    (env.snapshot (F ++ [claim] ++ [f])).activeClaims = (env.snapshot F).activeClaims

/-- No claim that stood before the admission repeats one of its resources, and nothing forestalls the two
rows. -/
structure RollbackStandsAlone (env : AppendEnv) (F : List Fact) (claim release : Fact) : Prop where
  apart : ∀ c ∈ (env.snapshot F).activeClaims, ∀ s ∈ claim.scope, s ∉ c.scope
  claimStands : claim.eventId ∉ retractedIds F
  releaseNew : release.eventId ∉ F.map (·.eventId) ∧ release.eventId ∉ retractedIds F
  mayClose : ∀ c ∈ (env.snapshot (F ++ [claim])).activeClaims, c.eventId = claim.eventId → ∀ action,
    authorizeClaimRemoval env.ext (env.snapshot (F ++ [claim])) env.coord env.now release c action = .ok ()
  room : canonicalMaxSeq F + 2 < i64Bound

section Rollback

variable {env : AppendEnv} {launch : LaunchContext} {session : ManagedSession} {F : List Fact}
variable {resources : List String} {generation : Nat} {claim c : Fact} {createdAt : String}

theorem not_mem_externalIntake {raw : List String} (h : canonicalAdmissionResources raw = .ok resources) :
    "external-intake" ∉ resources := by
  obtain ⟨keys, hkeys, rfl⟩ := map_eq_ok_iff.mp h
  obtain ⟨-, rfl⟩ := mapM_ok_iff.mp hkeys
  rw [mem_sortDedup, List.mem_filterMap]
  rintro ⟨text, -, htext⟩
  have hok := ok_of_toOption htext
  unfold canonicalAdmissionResource at hok
  split at hok
  · cases hok
  · rw [check_refuse_ok_iff] at hok
    -- a canonical key has a colon, the marker has none
    have hlist := congrArg String.toList (Except.ok.inj hok.2)
    have hcolon : ':' ∈ "external-intake".toList := by
      rw [← hlist, ResourceScope.canonicalKey]
      simp
    exact absurd hcolon (by decide)

/-- An acquisition that grew the ledger committed the admission's claim. -/
theorem acquireSessionAdmission_created {raw : List String} {acquisition : SessionAdmissionAcquisition}
    (h : acquireSessionAdmission env launch session F raw = .ok (some acquisition, F ++ [claim])) :
    ∃ resources generation, canonicalAdmissionResources raw = .ok resources ∧
      appendFactUnderLock env F (admissionClaim env launch session resources generation) =
        .ok (.committed claim) ∧
      acquisition = ⟨⟨"granted", resources, some claim.eventId⟩, true⟩ := by
  unfold acquireSessionAdmission at h
  obtain ⟨resources, hresources, h⟩ := bind_ok_iff.mp h
  have hgrown : F ≠ F ++ [claim] := fun heq => by simpa using congrArg List.length heq
  split at h
  · simp at h
  · dsimp only at h
    split at h
    · simp only [Except.ok.injEq, Prod.mk.injEq] at h
      exact absurd h.2 hgrown
    · obtain ⟨outcome, hok, h⟩ := bind_ok_iff.mp h
      simp only [Except.ok.injEq, Prod.mk.injEq, Option.some.injEq] at h
      cases outcome with
      | recorded existing => exact absurd h.2 hgrown
      | committed f =>
        obtain rfl : f = claim := by simpa [AppendOutcome.ledger] using h.2
        exact ⟨resources, _, hresources, hok, h.1.symm⟩

/-- The lease under which a fact of an ordinary kind was written is open. -/
theorem leaseOpen_of_claim (hkind : c.kind = .claim) {f : Fact}
    (hok : appendFactUnderLock env F c = .ok (.committed f)) :
    ∀ tool session, c.tool = some tool → c.fromSessionId = some session → tool ≠ "" → session ≠ "" →
      sessionAlreadyClosed F tool session = false := by
  have hattempt : isSessionCloseAttempt c = false := by simp [isSessionCloseAttempt, hkind]
  obtain ⟨-, -, -, -, happend, -, -⟩ := appendFactUnderLock_committed_iff.mp hok
  obtain ⟨-, -, -, -, -, -, hauthority, -, -⟩ := assertAppendable_ok_iff.mp happend
  intro tool sessionId htool hsession ht hs
  have hneeds : needsSessionLifecycleCheck c = true := by
    simp [needsSessionLifecycleCheck, htool, hsession, isNonempty, ht, hs]
  have hgate : assertAuthority env F c =
      assertWriteAuthorized env.ext (env.snapshot F) env.coord env.now c F := by
    simp [assertAuthority, scopedLifecycle, hneeds, hkind]
  rw [hgate, assertWriteAuthorized_ok_iff, lifecycle_iff hattempt (by simp [hkind])] at hauthority
  exact hauthority.2.1 tool sessionId htool hsession ht hs

/-- What the proof needs of a claim just committed and of the release that gives it back. -/
structure GivesBack (env : AppendEnv) (F : List Fact) (claim release : Fact) : Prop where
  ledger : IsLedger (F ++ [claim])
  claimNew : claim.eventId ∉ F.map (·.eventId)
  claimKind : claim.kind = .claim
  claimPlain : targetOf claim = none
  claimLocal : isLocalClaim claim = true
  claimSeq : claim.seq = canonicalMaxSeq F + 1
  releaseKind : release.kind = .release
  names : release.refId = some claim.eventId
  scope : release.scope = claim.scope
  releasePlain : targetOf release = none
  unmarked : reaperMarker release "reason" = none
  noOwners : takeoverOwnersMarker release.evidence = none
  otherId : release.eventId ≠ claim.eventId
  identity : validateAppendIdentity release = .ok ()
  fits : assertFieldBounds release = .ok ()
  leaseOpen : ∀ tool session, release.tool = some tool → release.fromSessionId = some session → tool ≠ "" →
    session ≠ "" → sessionAlreadyClosed (F ++ [claim]) tool session = false
  floor : 1 ≤ env.schemaFloor

/-- **A rollback undoes its admission** exactly when it stands alone. -/
theorem GivesBack.rollsBack_iff {release : Fact} (h : GivesBack env F claim release) :
    RollsBack env F claim release ↔ RollbackStandsAlone env F claim release := by
  have hbefore : ∀ x ∈ F, x.seq < claim.seq := fun x hx =>
    (List.pairwise_append.mp h.ledger.ascending).2.2 x hx claim (by simp)
  obtain ⟨hdead, hstands⟩ := activeClaims_append_claim env h.claimKind h.claimPlain hbefore h.claimLocal
  have hretracted : retractedIds (F ++ [claim]) = retractedIds F := by
    rw [retractedIds_append, retractedIds_singleton, h.claimPlain, Option.toList_none, List.append_nil]
  have hmax : canonicalMaxSeq (F ++ [claim]) + 1 = canonicalMaxSeq F + 2 := by
    rw [canonicalMaxSeq_append_singleton, h.claimSeq]
    omega
  have hunmarked : reaperMarker release "reason" ≠ some "no-lease-over-age" := by simp [h.unmarked]
  have hold : ∀ c ∈ (env.snapshot F).activeClaims, c.eventId ≠ claim.eventId := fun c hc hid =>
    h.claimNew (hid ▸ eventId_mem_of_active hc)
  -- with the claim in place the room is the old one and the claim
  have hroom : claim.eventId ∉ retractedIds F → ∃ c, c.eventId = claim.eventId ∧ c.scope = claim.scope ∧
      (env.snapshot (F ++ [claim])).activeClaims = (env.snapshot F).activeClaims ++ [c] :=
    fun hlive => ⟨_, projectEffectiveClaim_eventId _, projectEffectiveClaim_scope _, hstands hlive⟩
  have hrest : claim.eventId ∉ retractedIds F →
      (env.snapshot (F ++ [claim])).activeClaims.filter (fun x => !(x.eventId == claim.eventId)) =
        (env.snapshot F).activeClaims := by
    intro hlive
    obtain ⟨c, hid, -, hactive⟩ := hroom hlive
    rw [hactive, List.filter_append, List.filter_eq_self.mpr fun x hx => by simpa using hold x hx]
    simp [hid]
  constructor
  · rintro ⟨f, hver, hactive⟩
    obtain ⟨happended, hread⟩ := appendStateTransitionVerified_committed_iff.mp hver
    obtain ⟨-, hnew, hlive, hgate, -, hseq, rfl⟩ :=
      (append_release_iff h.releaseKind h.names h.noOwners).mp happended
    have hclaimLive : claim.eventId ∉ retractedIds F := by
      intro hin
      rw [hdead hin] at hlive
      obtain ⟨c, hc, hid⟩ := hasId_iff.mp hlive
      exact hold c hc hid
    obtain ⟨c, hid, hscope, hactive'⟩ := hroom hclaimLive
    have hc : c ∈ (env.snapshot (F ++ [claim])).activeClaims := by simp [hactive']
    have hmay := authorized_of_accepted h.ledger hc h.releaseKind (hid ▸ h.names) hgate
    have hw := writtenFor_one h.ledger hc h.releaseKind (hid ▸ h.names) (h.scope.trans hscope.symm) fun _ => hmay
    have hnotWithdrawn := (readback_of_release h.ledger h.releaseKind h.names h.releasePlain hlive).mp hread
    have hclosed : ClosesOnly env (F ++ [claim]) (fun x => x.eventId == c.eventId) release := by
      refine ⟨hgate, hactive.trans ?_⟩
      rw [hid]
      exact (hrest hclaimLive).symm
    have hsurvives := (survivesAppend_of_plain h.releasePlain).mpr hnotWithdrawn
    have halone := (closesOnly_iff h.ledger hw hsurvives).mp hclosed
    rw [List.map_append, List.mem_append, not_or] at hnew
    exact
      { apart := fun x hx s hs => halone.apart x (by simp [hactive', hx])
          (by simpa [hid] using hold x hx) c hc (by simp) s (hscope ▸ hs)
        claimStands := hclaimLive
        releaseNew := ⟨hnew.1, hretracted ▸ hnotWithdrawn⟩
        mayClose := fun x hx hxid action => by
          rw [activeClaims_eq_of_id h.ledger hx hc (hxid.trans hid.symm)]
          exact hmay action
        room := hmax ▸ hseq }
  · rintro ⟨hapart, hclaimLive, ⟨hnew, hnotWithdrawn⟩, hmay, hseq⟩
    obtain ⟨c, hid, hscope, hactive'⟩ := hroom hclaimLive
    have hc : c ∈ (env.snapshot (F ++ [claim])).activeClaims := by simp [hactive']
    have hw := writtenFor_one h.ledger hc h.releaseKind (hid ▸ h.names) (h.scope.trans hscope.symm)
      fun _ => hmay c hc hid
    have hsurvives := (survivesAppend_of_plain h.releasePlain).mpr (hretracted.symm ▸ hnotWithdrawn)
    have halone : StandsApart env (F ++ [claim]) (fun x => x.eventId == c.eventId) release :=
      { apart := by
          intro x hx hxid m hm hmid s hs
          rw [activeClaims_eq_of_id h.ledger hm hc (by simpa using hmid), hscope] at hs
          rw [hactive', List.mem_append, List.mem_singleton] at hx
          rcases hx with hx | rfl
          · exact hapart x hx s hs
          · simp at hxid
        fits := h.fits
        leaseOpen := h.leaseOpen
        unmarked := hunmarked
        withdraws := by simp [h.releasePlain] }
    obtain ⟨hgate, hclosed⟩ := (closesOnly_iff h.ledger hw hsurvives).mpr halone
    have hlive : hasId (env.snapshot (F ++ [claim])).activeClaims claim.eventId = true :=
      hasId_iff.mpr ⟨c, hc, hid⟩
    refine ⟨{ release with seq := canonicalMaxSeq (F ++ [claim]) + 1 },
      appendStateTransitionVerified_committed_iff.mpr ⟨?_, ?_⟩, ?_⟩
    · refine (append_release_iff h.releaseKind h.names h.noOwners).mpr
        ⟨h.identity, ?_, hlive, hgate, h.floor, hmax ▸ hseq, rfl⟩
      rw [List.map_append, List.mem_append, not_or]
      exact ⟨hnew, by simpa using h.otherId⟩
    · exact (readback_of_release h.ledger h.releaseKind h.names h.releasePlain hlive).mpr
        (hretracted ▸ hnotWithdrawn)
    · rw [hclosed, hid]
      exact hrest hclaimLive

/-- The admission's claim and its rollback are such a pair. -/
theorem givesBack_of_admission (launchEnv : AppendEnv) (hext : launchEnv.ext = env.ext)
    (hgeneration : launchEnv.schemaFloor = env.schemaFloor) (hF : Reachable (AppendStep env.ext) F)
    (hlocal : "external-intake" ∉ resources)
    (hok : appendFactUnderLock launchEnv F (admissionClaim launchEnv launch session resources generation) =
      .ok (.committed claim)) :
    GivesBack env F claim (admissionRollback launch session claim.eventId resources createdAt) := by
  have hleaseF := leaseOpen_of_claim rfl hok
  obtain ⟨hidentity, -, hfresh, -, happend, -, hclaim⟩ := appendFactUnderLock_committed_iff.mp hok
  obtain ⟨-, -, -, -, -, -, -, hfloor, -⟩ := assertAppendable_ok_iff.mp happend
  have hstep : AppendStep env.ext F claim := ⟨launchEnv, _, hext, hok⟩
  have hfits : RowFits claim := rowFits_of_reachable (.append hF hstep) claim (by simp)
  have hkind : claim.kind = .claim := by rw [hclaim]; rfl
  have htool : claim.tool = some session.tool := by rw [hclaim]; rfl
  have hscope : claim.scope = resources := by rw [hclaim]; rfl
  have hid : claim.eventId = (admissionClaim launchEnv launch session resources generation).eventId := by
    rw [hclaim]
  have hplain : targetOf claim = none := by
    rw [hclaim, targetOf_withSeq]
    exact targetOf_of_opening rfl ⟨'s', _, rfl, by decide⟩ fun more => by rw [startsWith, String.toList_append]; rfl
  constructor
  case ledger => exact (hstep.isLedger (isLedger_of_reachable hF)).1
  case claimNew => exact hid ▸ hfresh
  case claimKind => exact hkind
  case claimPlain => exact hplain
  case claimLocal =>
    have hany : resources.any (· == "external-intake") = false := by
      simpa [List.any_eq_false] using fun s hs => (ne_of_mem_of_not_mem hs hlocal)
    simp [isLocalClaim, hkind, hscope, hany]
  case claimSeq => rw [hclaim]
  case releaseKind => rfl
  case names => rfl
  case scope => exact hscope.symm
  case releasePlain =>
    exact targetOf_of_opening rfl ⟨'r', _, rfl, by decide⟩ fun more => by rw [startsWith, String.toList_append]; rfl
  case unmarked => rfl
  case noOwners => rfl
  case otherId =>
    rw [hid]
    intro heq
    -- the two actions begin with different letters
    have hhead := congrArg (fun s => s.toList.head?) heq
    simp [admissionRollback, admissionClaim, stableOperationId] at hhead
  case identity =>
    rw [validateAppendIdentity, check_refuse_ok_iff]
    exact ⟨by simp [admissionRollback], validateAppendEventId_stable (by decide) (by decide)⟩
  case fits =>
    have hsingle : assertSingleLine "tool" (some session.tool) = .ok () := by
      have hidentityLines := (assertFieldBounds_ok_iff.mp hfits.2).1
      rw [assertIdentityFieldsAreSingleLine, check_bind_ok_iff, htool] at hidentityLines
      exact hidentityLines.1
    have hopening : byteLen "release failed launch admission: " = 33 := by decide
    have hsummary :
        byteLen "Rally released only the admission acquired for a harness that did not start" ≤ 128 := by
      decide
    have hmarker : byteLen "protocol:session_admission_rollback=v1" ≤ 128 := by decide
    refine assertFieldBounds_of_carried hfits hscope.symm hsingle rfl rfl rfl ?_ hsummary ?_ ?_
    · have := validateAppendEventId_le hfits.1
      simp only [admissionRollback, byteLen_append]
      omega
    · simp [admissionRollback]
    · simpa [admissionRollback] using hmarker
  case leaseOpen =>
    intro tool owner ht hs htne hsne
    rw [sessionAlreadyClosed_append (by simp [isSessionCloseAttempt, hkind])]
    exact hleaseF tool owner ht hs htne hsne
  case floor =>
    by_contra hlow
    simp [assertKindWithinSchemaFloor, admissionClaim, FactKind.sinceGeneration, hgeneration, hlow] at hfloor

end Rollback

/-! ## One release of the session -/

/-- A claim of the session as the room shows it: its owner may close it, and its row once passed the bounds. -/
structure OwnClaim (session : ManagedSession) (m : Fact) : Prop where
  owner : claimOwnerMatchesCaller m.tool m.fromSessionId (some session.tool)
    (some (managedProtocolSession session)) = true
  row : ∃ x, RowFits x ∧ x.eventId = m.eventId ∧ x.scope = m.scope

section OneOfSession

variable {env : AppendEnv} {session : ManagedSession} {operation createdAt : String}
variable {F G : List Fact} {m f : Fact}

/-- What a release of the session needs of the session and of the room beside its claim. -/
structure SessionReady (env : AppendEnv) (session : ManagedSession) (G : List Fact) : Prop where
  plainTool : assertSingleLine "tool" (some session.tool) = .ok ()
  leaseOpen : sessionAlreadyClosed G session.tool (managedProtocolSession session) = false
  floor : 1 ≤ env.schemaFloor

/-- An id nobody has used or withdrawn yet. -/
structure IdIsNew (G : List Fact) (eventId : String) : Prop where
  valid : validateAppendEventId eventId = .ok ()
  unused : eventId ∉ G.map (·.eventId)
  unnamed : eventId ∉ retractedIds G

theorem targetOf_sessionClaimRelease (session : ManagedSession) (operation createdAt : String) (m : Fact) :
    targetOf (sessionClaimRelease session operation createdAt m) = none :=
  targetOf_of_opening rfl ⟨'s', _, rfl, by decide⟩ fun more => by rw [startsWith, String.toList_append]; rfl

theorem sessionClaimRelease_identity_iff :
    validateAppendIdentity (sessionClaimRelease session operation createdAt m) = .ok () ↔
      validateAppendEventId (sessionClaimRelease session operation createdAt m).eventId = .ok () := by
  rw [validateAppendIdentity, check_refuse_ok_iff]
  simp [sessionClaimRelease]

theorem sessionClaimRelease_fits_iff (hown : OwnClaim session m) :
    assertFieldBounds (sessionClaimRelease session operation createdAt m) = .ok () ↔
      assertSingleLine "tool" (some session.tool) = .ok () := by
  constructor
  · intro h
    have hlines := (assertFieldBounds_ok_iff.mp h).1
    rw [assertIdentityFieldsAreSingleLine, check_bind_ok_iff] at hlines
    exact hlines.1
  · intro hsingle
    obtain ⟨x, hx, hid, hscope⟩ := hown.row
    have hopening : byteLen "self-release on managed session completion: " = 44 := by decide
    refine assertFieldBounds_of_carried hx hscope.symm hsingle rfl rfl rfl ?_ ?_ ?_ ?_
    · have := validateAppendEventId_le hx.1
      simp only [sessionClaimRelease, byteLen_append, ← hid]
      omega
    · simp [sessionClaimRelease]
    · simp [sessionClaimRelease]
    · simp [sessionClaimRelease]

/-- The session's own lease is the only one the gate asks for. -/
theorem sessionClaimRelease_lease_iff (env : AppendEnv) (htool : session.tool ≠ "") :
    assertSessionLifecycleAuthorized env.ext (sessionClaimRelease session operation createdAt m) G = .ok () ↔
      sessionAlreadyClosed G session.tool (managedProtocolSession session) = false := by
  have hprotocol : managedProtocolSession session ≠ "" := by
    intro heq
    have hlen := congrArg (fun s : String => s.toList.length) heq
    simp [managedProtocolSession] at hlen
  rw [lifecycle_of_release_iff rfl]
  constructor
  · intro h
    exact h _ _ rfl rfl htool hprotocol
  · rintro h tool owner ⟨⟩ ⟨⟩ - -
    exact h

theorem OwnClaim.tool_ne (hown : OwnClaim session m) : session.tool ≠ "" := by
  intro htool
  have howner := hown.owner
  rw [htool] at howner
  unfold claimOwnerMatchesCaller sameSessionOwner sameToolFamily sameNonblankTool at howner
  cases htoolm : m.tool with
  | none => cases hsession : m.fromSessionId <;> simp [htoolm, hsession] at howner
  | some owner =>
    have hfamily : toolFamily "" = "" := by decide
    have hblank : isBlank "" = true := by decide
    cases hsession : m.fromSessionId with
    | none =>
      simp only [htoolm, hsession, Option.isNone_none, Bool.true_and, Bool.false_or, Bool.and_eq_true,
        beq_iff_eq] at howner
      rw [howner.2] at howner
      simp [hblank] at howner
    | some owned =>
      simp only [htoolm, hsession, hfamily, Option.isNone_some, Bool.false_and, Bool.or_false, Bool.and_eq_true,
        beq_iff_eq, bne_iff_ne] at howner
      exact howner.2.1 howner.2.2

theorem OwnClaim.writtenFor (hown : OwnClaim session m) (hG : IsLedger G)
    (hm : m ∈ (env.snapshot G).activeClaims) :
    WrittenFor env G (fun x => x.eventId == m.eventId) (sessionClaimRelease session operation createdAt m) :=
  writtenFor_one hG hm rfl rfl rfl fun hmarker _ => authorized_of_mayRelease hmarker (.inl hown.owner)

/-- What a written and effective release of the session shows about the room it was written to. -/
theorem sessionClaimRelease_written (hG : IsLedger G) (hown : OwnClaim session m)
    (h : appendStateTransitionVerified env G (sessionClaimRelease session operation createdAt m) =
      .ok (.committed f, true)) :
    hasId (env.snapshot G).activeClaims m.eventId = true ∧ SessionReady env session G ∧
      IdIsNew G (sessionClaimRelease session operation createdAt m).eventId ∧
      canonicalMaxSeq G + 1 < i64Bound ∧
      f = { sessionClaimRelease session operation createdAt m with seq := canonicalMaxSeq G + 1 } ∧
      (env.snapshot (G ++ [f])).activeClaims = (env.snapshot G).activeClaims.filter
        fun c => !releaseCloses (sessionClaimRelease session operation createdAt m) c := by
  have hplain := targetOf_sessionClaimRelease session operation createdAt m
  obtain ⟨happended, hread⟩ := appendStateTransitionVerified_committed_iff.mp h
  obtain ⟨hidentity, hnew, hlive, hgate, hfloor, hseq, rfl⟩ := (append_release_iff rfl rfl rfl).mp happended
  obtain ⟨hfits, hlease, -⟩ := (assertWriteAuthorized_release_iff rfl).mp hgate
  have hunnamed := (readback_of_release hG rfl rfl hplain hlive).mp hread
  exact ⟨hlive,
    ⟨(sessionClaimRelease_fits_iff hown).mp hfits, (sessionClaimRelease_lease_iff env hown.tool_ne).mp hlease,
      hfloor⟩,
    ⟨sessionClaimRelease_identity_iff.mp hidentity, hnew, hunnamed⟩, hseq, rfl,
    activeClaims_behind_plain hG rfl hplain hunnamed⟩

/-- A release of the session on a claim that stands apart is written, takes effect and closes that claim. -/
theorem sessionClaimRelease_of_apart (hG : IsLedger G) (hown : OwnClaim session m)
    (hm : m ∈ (env.snapshot G).activeClaims) (hready : SessionReady env session G)
    (hnew : IdIsNew G (sessionClaimRelease session operation createdAt m).eventId)
    (hapart : ∀ c ∈ (env.snapshot G).activeClaims, c.eventId ≠ m.eventId → ∀ s ∈ m.scope, s ∉ c.scope)
    (hroom : canonicalMaxSeq G + 1 < i64Bound) :
    ∃ f, appendStateTransitionVerified env G (sessionClaimRelease session operation createdAt m) =
        .ok (.committed f, true) ∧
      f = { sessionClaimRelease session operation createdAt m with seq := canonicalMaxSeq G + 1 } ∧
      (env.snapshot (G ++ [f])).activeClaims =
        (env.snapshot G).activeClaims.filter fun c => !(c.eventId == m.eventId) := by
  have hplain := targetOf_sessionClaimRelease session operation createdAt m
  have hsurvives := (survivesAppend_of_plain (G := G) hplain).mpr hnew.unnamed
  have halone : StandsApart env G (fun x => x.eventId == m.eventId)
      (sessionClaimRelease session operation createdAt m) :=
    { apart := by
        intro c hc hcid m' hm' hmid s hs
        rw [activeClaims_eq_of_id hG hm' hm (by simpa using hmid)] at hs
        exact hapart c hc (by simpa using hcid) s hs
      fits := (sessionClaimRelease_fits_iff hown).mpr hready.plainTool
      leaseOpen := (lifecycle_of_release_iff rfl).mp
        ((sessionClaimRelease_lease_iff env hown.tool_ne).mpr hready.leaseOpen)
      unmarked := by simp [reaperMarker, sessionClaimRelease]
      withdraws := by simp [hplain] }
  obtain ⟨hgate, hclosed⟩ := (closesOnly_iff hG (hown.writtenFor hG hm) hsurvives).mpr halone
  have hlive : hasId (env.snapshot G).activeClaims m.eventId = true := hasId_iff.mpr ⟨m, hm, rfl⟩
  refine ⟨_, appendStateTransitionVerified_committed_iff.mpr ⟨(append_release_iff rfl rfl rfl).mpr
    ⟨sessionClaimRelease_identity_iff.mpr hnew.valid, hnew.unused, hlive, hgate, hready.floor, hroom, rfl⟩, ?_⟩,
    rfl, hclosed⟩
  exact (readback_of_release hG rfl rfl hplain hlive).mpr hnew.unnamed

end OneOfSession

/-! ## The loop over a session's claims -/

/-- What the loop needs of the claims it is about to release, in their order. -/
structure Drainable (env : AppendEnv) (session : ManagedSession) (operation createdAt : String) (G : List Fact)
    (claims : List Fact) : Prop where
  apart : claims.Pairwise fun a b => ∀ s ∈ a.scope, s ∉ b.scope
  newIds : ∀ m ∈ claims, IdIsNew G (sessionClaimRelease session operation createdAt m).eventId
  otherIds : (claims.map fun m => (sessionClaimRelease session operation createdAt m).eventId).Nodup
  ready : claims ≠ [] → SessionReady env session G
  room : claims ≠ [] → canonicalMaxSeq G + claims.length < i64Bound

/-- Every release of a run was written, and its readback found the claim closed. -/
def SessionReleaseRun.AllWritten (run : SessionReleaseRun) : Prop :=
  ∀ outcome ∈ run.outcomes, ∃ f, outcome = (.committed f, true)

section Loop

variable {env : AppendEnv} {session : ManagedSession} {operation createdAt : String}
variable {F G claims : List Fact} {m f : Fact}

theorem isLedger_behind (hG : IsLedger G)
    (hnew : IdIsNew G (sessionClaimRelease session operation createdAt m).eventId)
    (hf : f = { sessionClaimRelease session operation createdAt m with seq := canonicalMaxSeq G + 1 }) :
    IsLedger (G ++ [f]) := by
  subst hf
  have hnonneg := hG.canonicalMaxSeq_nonneg
  exact hG.append hnew.unused (fun x hx => Int.lt_add_one_of_le (hG.le_canonicalMaxSeq x hx))
    (show 0 < canonicalMaxSeq G + 1 by omega)

theorem sessionReady_behind_iff
    (hf : f = { sessionClaimRelease session operation createdAt m with seq := canonicalMaxSeq G + 1 }) :
    SessionReady env session (G ++ [f]) ↔ SessionReady env session G := by
  subst hf
  constructor <;> rintro ⟨htool, hlease, hfloor⟩
  · rw [sessionAlreadyClosed_append rfl] at hlease
    exact ⟨htool, hlease, hfloor⟩
  · refine ⟨htool, ?_, hfloor⟩
    rw [sessionAlreadyClosed_append rfl]
    exact hlease

theorem idIsNew_behind_iff {eventId : String}
    (hf : f = { sessionClaimRelease session operation createdAt m with seq := canonicalMaxSeq G + 1 }) :
    IdIsNew (G ++ [f]) eventId ↔
      IdIsNew G eventId ∧ (sessionClaimRelease session operation createdAt m).eventId ≠ eventId := by
  have hplain := targetOf_sessionClaimRelease session operation createdAt m
  have hretracted : retractedIds (G ++ [f]) = retractedIds G := by
    rw [retractedIds_append, retractedIds_singleton, hf, targetOf_withSeq, hplain, Option.toList_none,
      List.append_nil]
  have hids : eventId ∉ (G ++ [f]).map (·.eventId) ↔
      eventId ∉ G.map (·.eventId) ∧ (sessionClaimRelease session operation createdAt m).eventId ≠ eventId := by
    rw [List.map_append, List.mem_append, not_or, hf]
    simp [eq_comm]
  constructor
  · rintro ⟨hvalid, hunused, hunnamed⟩
    obtain ⟨hunused, hother⟩ := hids.mp hunused
    exact ⟨⟨hvalid, hunused, hretracted ▸ hunnamed⟩, hother⟩
  · rintro ⟨⟨hvalid, hunused, hunnamed⟩, hother⟩
    exact ⟨hvalid, hids.mpr ⟨hunused, hother⟩, hretracted.symm ▸ hunnamed⟩

/-- One turn of the loop whose release is written. -/
theorem releaseEach_cons {rest : List Fact}
    (h : appendStateTransitionVerified env G (sessionClaimRelease session operation createdAt m) =
      .ok (.committed f, true)) :
    releaseEach env session operation createdAt G (m :: rest) =
      { facts := (releaseEach env session operation createdAt (G ++ [f]) rest).facts
        outcomes := (.committed f, true) ::
          (releaseEach env session operation createdAt (G ++ [f]) rest).outcomes
        result := (releaseEach env session operation createdAt (G ++ [f]) rest).result.map
          fun released => m.eventId :: released } := by
  simp only [releaseEach, h, AppendOutcome.ledger]

/-- **The loop releases what it was given** when the claims stand apart from each other and from the rest. -/
theorem releaseEach_of_drainable (hG : IsLedger G) (hown : ∀ m ∈ claims, OwnClaim session m)
    (hactive : ∀ m ∈ claims, m ∈ (env.snapshot G).activeClaims) (hids : (claims.map (·.eventId)).Nodup)
    (hdrain : Drainable env session operation createdAt G claims)
    (houtside : ∀ c ∈ (env.snapshot G).activeClaims, c.eventId ∉ claims.map (·.eventId) →
      ∀ m ∈ claims, ∀ s ∈ m.scope, s ∉ c.scope) :
    (releaseEach env session operation createdAt G claims).AllWritten ∧
      (releaseEach env session operation createdAt G claims).result = .ok (claims.map (·.eventId)) ∧
      (env.snapshot (releaseEach env session operation createdAt G claims).facts).activeClaims =
        (env.snapshot G).activeClaims.filter fun c => !(claims.map (·.eventId)).contains c.eventId := by
  induction claims generalizing G with
  | nil => simp [releaseEach, SessionReleaseRun.AllWritten]
  | cons m rest ih =>
    obtain ⟨hmNotRest, hrestIds⟩ := List.nodup_cons.mp hids
    obtain ⟨hmApart, hrestApart⟩ := List.pairwise_cons.mp hdrain.apart
    obtain ⟨hmOther, hrestOther⟩ := List.nodup_cons.mp hdrain.otherIds
    obtain ⟨hmNew, hrestNew⟩ := List.forall_mem_cons.mp hdrain.newIds
    obtain ⟨hmOwn, hrestOwn⟩ := List.forall_mem_cons.mp hown
    have hready := hdrain.ready (by simp)
    have hroom := hdrain.room (by simp)
    rw [List.length_cons] at hroom
    -- whatever else is active is a later claim of the list or outside it
    have hapart : ∀ c ∈ (env.snapshot G).activeClaims, c.eventId ≠ m.eventId → ∀ s ∈ m.scope, s ∉ c.scope := by
      intro c hc hne
      by_cases hlisted : c.eventId ∈ rest.map (·.eventId)
      · obtain ⟨b, hb, hbid⟩ := List.mem_map.mp hlisted
        rw [← activeClaims_eq_of_id hG (hactive b (List.mem_cons_of_mem _ hb)) hc hbid]
        exact hmApart b hb
      · exact houtside c hc (by simp [hne, hlisted]) m List.mem_cons_self
    obtain ⟨f, hwritten, hf, hbehind⟩ := sessionClaimRelease_of_apart hG hmOwn
      (hactive m List.mem_cons_self) hready hmNew hapart (by omega)
    have hmax : canonicalMaxSeq (G ++ [f]) = canonicalMaxSeq G + 1 := by
      rw [canonicalMaxSeq_append_singleton, hf]
    obtain ⟨hallWritten, hresult, hclosed⟩ := ih (isLedger_behind hG hmNew hf) hrestOwn
      (fun b hb => by
        rw [hbehind, List.mem_filter]
        refine ⟨hactive b (List.mem_cons_of_mem _ hb), ?_⟩
        simpa using ne_of_mem_of_not_mem (List.mem_map_of_mem hb) hmNotRest)
      hrestIds
      { apart := hrestApart
        newIds := fun b hb => (idIsNew_behind_iff hf).mpr ⟨hrestNew b hb, fun heq =>
          hmOther (List.mem_map.mpr ⟨b, hb, heq.symm⟩)⟩
        otherIds := hrestOther
        ready := fun _ => (sessionReady_behind_iff hf).mpr hready
        room := fun _ => by rw [hmax]; omega }
      (fun c hc hne b hb => by
        rw [hbehind, List.mem_filter] at hc
        refine houtside c hc.1 ?_ b (List.mem_cons_of_mem _ hb)
        simpa [hne] using hc.2)
    rw [releaseEach_cons hwritten]
    refine ⟨?_, ?_, ?_⟩
    · intro outcome houtcome
      rcases List.mem_cons.mp houtcome with rfl | houtcome
      · exact ⟨f, rfl⟩
      · exact hallWritten outcome houtcome
    · rw [hresult]
      rfl
    · rw [hclosed, hbehind, List.filter_filter]
      refine List.filter_congr fun c _ => ?_
      rw [List.map_cons, List.contains_cons, Bool.not_or, Bool.and_comm]

/-- **What a run that wrote every release shows** about the claims it went through. -/
theorem drainable_of_written (hG : IsLedger G) (hown : ∀ m ∈ claims, OwnClaim session m)
    (hsame : ∀ m ∈ claims, ∀ c ∈ (env.snapshot G).activeClaims, c.eventId = m.eventId → c = m)
    (hwritten : (releaseEach env session operation createdAt G claims).AllWritten)
    (hresult : (releaseEach env session operation createdAt G claims).result = .ok (claims.map (·.eventId))) :
    Drainable env session operation createdAt G claims ∧
      (∀ m ∈ claims, m ∈ (env.snapshot G).activeClaims) ∧
      (env.snapshot (releaseEach env session operation createdAt G claims).facts).activeClaims =
        (env.snapshot G).activeClaims.filter fun c =>
          claims.all fun m => !releaseCloses (sessionClaimRelease session operation createdAt m) c := by
  induction claims generalizing G with
  | nil =>
    refine ⟨⟨.nil, by simp, by simp, by simp, by simp⟩, by simp, ?_⟩
    simp [releaseEach]
  | cons m rest ih =>
    obtain ⟨hmOwn, hrestOwn⟩ := List.forall_mem_cons.mp hown
    -- a refusal would end the loop without a result
    cases happend : appendStateTransitionVerified env G (sessionClaimRelease session operation createdAt m) with
    | error e => simp [releaseEach, happend] at hresult
    | ok outcome =>
      have hfirst : ∃ f, outcome = (.committed f, true) := by
        refine hwritten outcome ?_
        simp [releaseEach, happend]
      obtain ⟨f, rfl⟩ := hfirst
      obtain ⟨hlive, hready, hmNew, hroom, hf, hbehind⟩ := sessionClaimRelease_written hG hmOwn happend
      have hm : m ∈ (env.snapshot G).activeClaims := by
        obtain ⟨c, hc, hid⟩ := hasId_iff.mp hlive
        exact hsame m List.mem_cons_self c hc hid ▸ hc
      have hmax : canonicalMaxSeq (G ++ [f]) = canonicalMaxSeq G + 1 := by
        rw [canonicalMaxSeq_append_singleton, hf]
      rw [releaseEach_cons happend] at hwritten hresult ⊢
      have hrestResult : (releaseEach env session operation createdAt (G ++ [f]) rest).result =
          .ok (rest.map (·.eventId)) := by
        obtain ⟨released, hreleased, heq⟩ := map_eq_ok_iff.mp hresult
        rw [List.map_cons, List.cons.injEq] at heq
        rw [hreleased, heq.2]
      obtain ⟨hdrain, hrestActive, hclosed⟩ := ih (isLedger_behind hG hmNew hf) hrestOwn
        (fun b hb c hc hid => by
          rw [hbehind] at hc
          exact hsame b (List.mem_cons_of_mem _ hb) c (List.mem_filter.mp hc).1 hid)
        (fun outcome houtcome => hwritten outcome (List.mem_cons_of_mem _ houtcome)) hrestResult
      -- a later claim is still shown behind this release, so it shares no scope with this claim
      have hrestBehind : ∀ b ∈ rest, b ∈ (env.snapshot G).activeClaims ∧
          releaseCloses (sessionClaimRelease session operation createdAt m) b = false := by
        intro b hb
        have hbActive := hrestActive b hb
        rw [hbehind, List.mem_filter] at hbActive
        exact ⟨hbActive.1, by simpa using hbActive.2⟩
      refine ⟨?_, ?_, ?_⟩
      · constructor
        case apart =>
          refine List.pairwise_cons.mpr ⟨fun b hb s hs hsb => ?_, hdrain.apart⟩
          have hopen := (hrestBehind b hb).2
          have hsweeps : laterReleaseOverlapsClaimScope
              (sessionClaimRelease session operation createdAt m) b = true :=
            (laterReleaseOverlapsClaimScope_iff rfl).mpr ⟨s, hs, hsb⟩
          simp [releaseCloses, hsweeps] at hopen
        case newIds =>
          refine List.forall_mem_cons.mpr ⟨hmNew, fun b hb => ?_⟩
          exact ((idIsNew_behind_iff hf).mp (hdrain.newIds b hb)).1
        case otherIds =>
          refine List.nodup_cons.mpr ⟨fun hin => ?_, hdrain.otherIds⟩
          obtain ⟨b, hb, heq⟩ := List.mem_map.mp hin
          exact ((idIsNew_behind_iff hf).mp (hdrain.newIds b hb)).2 heq.symm
        case ready => exact fun _ => hready
        case room =>
          intro _
          rw [List.length_cons]
          cases rest with
          | nil => simpa using hroom
          | cons b rest' =>
            have := hdrain.room (by simp)
            rw [hmax] at this
            omega
      · exact List.forall_mem_cons.mpr ⟨hm, fun b hb => (hrestBehind b hb).1⟩
      · rw [hclosed, hbehind, List.filter_filter]
        refine List.filter_congr fun c _ => ?_
        rw [List.all_cons, Bool.and_comm]

end Loop

/-! ## Both releases -/

/-- The end of a session does what it is for: every release is written, the ids of exactly its claims are
returned, exactly these claims are gone, and a second call finds nothing to do. -/
structure ReleasesOwnClaims (env : AppendEnv) (session : ManagedSession) (operation createdAt : String)
    (F : List Fact) : Prop where
  written : (releaseManagedSessionClaims env session operation createdAt false F).AllWritten
  returned : (releaseManagedSessionClaims env session operation createdAt false F).result =
    .ok ((sessionClaims env session F false).map (·.eventId))
  closed : (env.snapshot (releaseManagedSessionClaims env session operation createdAt false F).facts).activeClaims =
    (env.snapshot F).activeClaims.filter fun c => !managedClaimMatchesSession session false c
  again : ∀ later, releaseManagedSessionClaims env session operation later false
      (releaseManagedSessionClaims env session operation createdAt false F).facts =
    ⟨(releaseManagedSessionClaims env session operation createdAt false F).facts, [], .ok []⟩

/-- The claims of the session share no scope string with each other or with any other active claim. -/
structure SessionStandsApart (env : AppendEnv) (session : ManagedSession) (operation createdAt : String)
    (F : List Fact) : Prop where
  drainable : Drainable env session operation createdAt F (sessionClaims env session F false)
  outside : ∀ c ∈ (env.snapshot F).activeClaims, managedClaimMatchesSession session false c = false →
    ∀ m ∈ sessionClaims env session F false, ∀ s ∈ m.scope, s ∉ c.scope

section Both

variable {env : AppendEnv} {session : ManagedSession} {operation createdAt : String} {F : List Fact} {m c : Fact}

theorem ownClaim_of_sessionClaims (hF : Reachable (AppendStep env.ext) F)
    (hm : m ∈ sessionClaims env session F false) : OwnClaim session m := by
  obtain ⟨hactive, hmatch⟩ := List.mem_filter.mp hm
  obtain ⟨x, hx, -, rfl⟩ := mem_projectActiveClaims.mp hactive
  refine ⟨?_, x, rowFits_of_reachable hF x (mem_resolvedFacts.mp hx).1, by simp, by simp⟩
  simp only [managedClaimMatchesSession, Bool.false_and, Bool.or_false] at hmatch
  rw [claimOwnerMatchesCaller, hmatch, Bool.true_or]

/-- With distinct ids the claims of the session are those whose id is listed. -/
theorem sessionClaims_contains (hF : IsLedger F) (hc : c ∈ (env.snapshot F).activeClaims) :
    ((sessionClaims env session F false).map (·.eventId)).contains c.eventId =
      managedClaimMatchesSession session false c := by
  rw [Bool.eq_iff_iff, List.contains_iff_mem, List.mem_map]
  constructor
  · rintro ⟨m, hm, hid⟩
    obtain ⟨hactive, hmatch⟩ := List.mem_filter.mp hm
    exact activeClaims_eq_of_id hF hactive hc hid ▸ hmatch
  · intro hmatch
    exact ⟨c, List.mem_filter.mpr ⟨hc, hmatch⟩, rfl⟩

theorem releasesOwnClaims_iff (hF : Reachable (AppendStep env.ext) F) :
    ReleasesOwnClaims env session operation createdAt F ↔
      SessionStandsApart env session operation createdAt F := by
  have hledger := isLedger_of_reachable hF
  have hown : ∀ m ∈ sessionClaims env session F false, OwnClaim session m :=
    fun m hm => ownClaim_of_sessionClaims hF hm
  have hactive : ∀ m ∈ sessionClaims env session F false, m ∈ (env.snapshot F).activeClaims :=
    fun m hm => (List.mem_filter.mp hm).1
  constructor
  · rintro ⟨hwritten, hreturned, hclosed, -⟩
    obtain ⟨hdrain, -, hshown⟩ := drainable_of_written hledger hown
      (fun m hm c hc hid => activeClaims_eq_of_id hledger hc (hactive m hm) hid) hwritten hreturned
    refine ⟨hdrain, fun c hc hother m hm s hs hsc => ?_⟩
    -- a claim of somebody else is still shown, so no release closed it
    have hkept : c ∈ (env.snapshot F).activeClaims.filter fun c => !managedClaimMatchesSession session false c :=
      List.mem_filter.mpr ⟨hc, by simp [hother]⟩
    rw [← hclosed, releaseManagedSessionClaims, hshown, List.mem_filter, List.all_eq_true] at hkept
    have hopen := hkept.2 m hm
    have hsweeps : laterReleaseOverlapsClaimScope (sessionClaimRelease session operation createdAt m) c = true :=
      (laterReleaseOverlapsClaimScope_iff rfl).mpr ⟨s, hs, hsc⟩
    simp [releaseCloses, hsweeps] at hopen
  · rintro ⟨hdrain, houtside⟩
    have hids : ((sessionClaims env session F false).map (·.eventId)).Nodup :=
      (activeClaims_nodup hledger).sublist (List.filter_sublist.map _)
    obtain ⟨hwritten, hreturned, hclosed⟩ := releaseEach_of_drainable hledger hown hactive hids hdrain
      (fun c hc hne => houtside c hc (by
        rw [← sessionClaims_contains hledger hc]
        simpa using hne))
    have hshown : (env.snapshot
        (releaseManagedSessionClaims env session operation createdAt false F).facts).activeClaims =
          (env.snapshot F).activeClaims.filter fun c => !managedClaimMatchesSession session false c := by
      rw [releaseManagedSessionClaims, hclosed]
      exact List.filter_congr fun c hc => by rw [sessionClaims_contains hledger hc]
    refine ⟨hwritten, hreturned, hshown, fun later => ?_⟩
    have hnone : sessionClaims env session
        (releaseManagedSessionClaims env session operation createdAt false F).facts false = [] := by
      rw [sessionClaims, hshown, List.filter_filter, List.filter_eq_nil_iff]
      simp
    rw [releaseManagedSessionClaims, hnone]
    rfl

theorem rollsBack_of_acquired {launched : Int} {launch : LaunchContext} {raw : List String}
    {acquisition : SessionAdmissionAcquisition} {claim : Fact} {claimId : String}
    (hF : Reachable (AppendStep env.ext) F)
    (hacquire : acquireSessionAdmission { env with now := launched } launch session F raw =
      .ok (some acquisition, F ++ [claim]))
    (hclaimId : acquisition.admission.claimId = some claimId) :
    RollsBack env F claim
        (admissionRollback launch session claimId acquisition.admission.resources createdAt) ↔
      RollbackStandsAlone env F claim
        (admissionRollback launch session claimId acquisition.admission.resources createdAt) := by
  obtain ⟨resources, generation, hresources, hok, hacquisition⟩ := acquireSessionAdmission_created hacquire
  have hid : claimId = claim.eventId := by simpa [hacquisition] using hclaimId.symm
  have hscope : acquisition.admission.resources = resources := by rw [hacquisition]
  rw [hid, hscope]
  have hback : GivesBack env F claim (admissionRollback launch session claim.eventId resources createdAt) :=
    givesBack_of_admission { env with now := launched } rfl rfl hF (not_mem_externalIntake hresources) hok
  exact hback.rollsBack_iff

end Both

/-- **Session-scoped releases.** From every reachable ledger: a failed launch gives back its admission and
nothing else exactly when the admission stands alone, and the end of a managed session releases exactly the
claims of the session exactly when these stand apart. -/
theorem session_releases_touch_own_claims_iff (env : AppendEnv) {F : List Fact}
    (hF : Reachable (AppendStep env.ext) F) :
    (∀ launched launch session raw acquisition claim claimId createdAt,
      acquireSessionAdmission { env with now := launched } launch session F raw =
          .ok (some acquisition, F ++ [claim]) →
        acquisition.admission.claimId = some claimId →
          (RollsBack env F claim
              (admissionRollback launch session claimId acquisition.admission.resources createdAt) ↔
            RollbackStandsAlone env F claim
              (admissionRollback launch session claimId acquisition.admission.resources createdAt))) ∧
      ∀ session operation createdAt,
        ReleasesOwnClaims env session operation createdAt F ↔
          SessionStandsApart env session operation createdAt F := by
  constructor
  · intro launched launch session raw acquisition claim claimId createdAt hacquire hclaimId
    exact rollsBack_of_acquired hF hacquire hclaimId
  · intro session operation createdAt
    exact releasesOwnClaims_iff hF

/-- A managed session and the claims it took while it worked: one file stands in both. -/
def builder : ManagedSession :=
  { sessionId := "m1", name := "builder", agent := "codex", tool := "codex:01", rest := "" }

def taskClaim : Fact :=
  { eventId := "c1", seq := 1, kind := .claim, tool := some "codex:01"
    fromSessionId := some "sess:managed:m1#live", subject := "task", scope := ["task:T-1", "file:src/a.rs"]
    createdAt := "2026-01-01T00:00:00Z" }

def fileClaim : Fact :=
  { eventId := "c2", seq := 2, kind := .claim, tool := some "codex:01"
    fromSessionId := some "sess:managed:m1#live", subject := "file", scope := ["file:src/a.rs"]
    createdAt := "2026-01-01T00:00:00Z" }

def relaunch : LaunchContext where
  backend := "tmux"
  managedMode := false
  createdAt := "2026-01-01T00:00:00Z"
  leaseMarkerAt _ := "2026-01-01T01:00:00Z"

/-- The admission of `task:T-1` behind `n` rows. -/
def taskAdmission (n : Int) : Fact := { admissionClaim .sample relaunch builder ["task:T-1"] 0 with seq := n }

def taskRollback (n : Int) : Fact :=
  { admissionRollback relaunch builder (taskAdmission 0).eventId ["task:T-1"] "2026-01-01T00:00:00Z" with seq := n }

theorem reachable_taskClaim : Reachable (AppendStep .sample) [taskClaim] :=
  .append .empty ⟨.sample, { taskClaim with seq := 0 }, rfl, by decide⟩

/-- A launch on another task fails with the session's one claim in the room; then the session ends. -/
theorem session_releases_touch_own_claims_iff_builder :
    RollsBack .sample [taskClaim]
        { admissionClaim .sample relaunch builder ["task:T-2"] 0 with seq := 2 }
        (admissionRollback relaunch builder (admissionClaim .sample relaunch builder ["task:T-2"] 0).eventId
          ["task:T-2"] "2026-01-01T00:00:00Z") ∧
      ReleasesOwnClaims .sample builder "task-complete-release" "2026-01-01T00:00:00Z" [taskClaim] := by
  have hboth := session_releases_touch_own_claims_iff .sample reachable_taskClaim
  constructor
  · refine (hboth.1 AppendEnv.sample.now relaunch builder ["task:T-2"]
      ⟨⟨"granted", ["task:T-2"], some (admissionClaim .sample relaunch builder ["task:T-2"] 0).eventId⟩, true⟩
      { admissionClaim .sample relaunch builder ["task:T-2"] 0 with seq := 2 } _ _ (by decide +kernel) rfl).mpr ?_
    refine ⟨by decide, by decide, by decide, ?_, by decide⟩
    intro c hc hid action
    refine authorized_of_mayRelease (by decide) (.inl ?_)
    have howner : ∀ c ∈ (AppendEnv.sample.snapshot ([taskClaim] ++
        [{ admissionClaim .sample relaunch builder ["task:T-2"] 0 with seq := 2 }])).activeClaims,
        claimOwnerMatchesCaller c.tool c.fromSessionId (some "codex:01") (some "sess:managed:m1#live") = true := by
      decide
    exact howner c hc
  · refine (hboth.2 builder "task-complete-release" "2026-01-01T00:00:00Z").mpr ⟨?_, by decide⟩
    have hclaims : sessionClaims .sample builder [taskClaim] false =
        [projectEffectiveClaim .sample taskClaim [taskClaim]] := by decide
    rw [hclaims]
    refine ⟨List.pairwise_singleton _ _, ?_, List.nodup_singleton _, fun _ => ?_, fun _ => by decide⟩
    · intro m hm
      rw [List.mem_singleton.mp hm]
      exact ⟨by decide, by decide, by decide⟩
    · exact ⟨by decide, by decide, by decide⟩

/-- **Both releases sweep too far.** The builder holds a task with a file, and that file once more. A launch on
the same task is admitted and fails: its rollback takes the older claim on the task with it. When the session
ends instead, the first release takes both claims, and the second is refused. -/
theorem session_releases_sweep :
    Reachable (AppendStep .sample) [taskClaim, fileClaim] ∧
      acquireSessionAdmission .sample relaunch builder [taskClaim, fileClaim] ["task:T-1"] =
        .ok (some ⟨⟨"granted", ["task:T-1"], some (taskAdmission 3).eventId⟩, true⟩,
          [taskClaim, fileClaim] ++ [taskAdmission 3]) ∧
      ((AppendEnv.sample.snapshot ([taskClaim, fileClaim] ++ [taskAdmission 3] ++
        [taskRollback 4])).activeClaims.map (·.eventId)) = ["c2"] ∧
      ¬RollsBack .sample [taskClaim, fileClaim] (taskAdmission 3) (taskRollback 0) ∧
      (releaseManagedSessionClaims .sample builder "task-complete-release" "2026-01-01T00:00:00Z" false
        [taskClaim, fileClaim]).result =
          .error (.usage ("release failed: ref c2 is not an active claim (already released, never existed, or " ++
            "invalid); nothing to release")) ∧
      ¬ReleasesOwnClaims .sample builder "task-complete-release" "2026-01-01T00:00:00Z"
        [taskClaim, fileClaim] := by
  have hF : Reachable (AppendStep .sample) [taskClaim, fileClaim] :=
    .append reachable_taskClaim ⟨.sample, { fileClaim with seq := 0 }, rfl, by decide⟩
  have hwritten : appendStateTransitionVerified .sample ([taskClaim, fileClaim] ++ [taskAdmission 3])
      (taskRollback 0) = .ok (.committed (taskRollback 4), true) := by decide +kernel
  have hrefused : (releaseManagedSessionClaims .sample builder "task-complete-release" "2026-01-01T00:00:00Z"
      false [taskClaim, fileClaim]).result =
        .error (.usage ("release failed: ref c2 is not an active claim (already released, never existed, or " ++
          "invalid); nothing to release")) := by decide +kernel
  refine ⟨hF, by decide +kernel, by decide +kernel, ?_, hrefused, fun h => ?_⟩
  · rintro ⟨f, hver, hactive⟩
    rw [hwritten] at hver
    obtain rfl : taskRollback 4 = f := by simpa using hver
    exact absurd hactive (by decide +kernel)
  · have hreturned := h.returned
    rw [hrefused] at hreturned
    cases hreturned

end RallyPoint
