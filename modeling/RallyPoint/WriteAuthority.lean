/-
# RallyPoint.WriteAuthority — who may write what (`write_authority.rs`, `rally-protocol/ledger.rs`).

`assertWriteAuthorized` is the one gate on what a fact would CHANGE: it is asked with the facts already
durable and the room projected from them, before the fact has a sequence number. Eight checks run in the
source's order and the first refusal is the answer. One policy body, `authorizeClaimRemoval`, decides every
removal of a claim, and one, `leadSeatChangeAllowed`, every move of the lead seat; the checks differ in how
they find the claim or the seat that the fact would move.

The clock is read once per append here; the source reads it anew in each check of the same append.
-/
import RallyPoint.Lib.Check
import RallyPoint.Room

namespace RallyPoint

open Lib

/-- Evidence marker of a deliberate, acknowledged lead seizure. -/
def leadForceMarker : String := "lead-seizure-acknowledged"

def needsAuthorityCheck (fact : Fact) : Bool :=
  closesActiveClaim fact.kind || isSessionCloseAttempt fact || isLeadDecision fact ||
    (targetOf fact).isSome

/-- A present, nonempty field. -/
def isNonempty (field : Option String) : Bool :=
  match field with
  | some value => !value.toList.isEmpty
  | none => false

def needsSessionLifecycleCheck (fact : Fact) : Bool :=
  isSessionCloseAttempt fact || (isNonempty fact.tool && isNonempty fact.fromSessionId)

/-! ## Field bounds -/

def maxSubjectLen : Nat := 4096
def maxSummaryLen : Nat := 16384
def maxEvidenceItemLen : Nat := 4096
def maxEvidenceItems : Nat := 64
def maxScopeItemLen : Nat := 512
def maxScopeItems : Nat := 64
def maxUriLen : Nat := 2048
def maxFactTextBytes : Nat := 64 * 1024

/-- Rust's `Debug` rendering of a control character. -/
def debugControl (c : Char) : String :=
  if c = '\x00' then "'\\0'"
  else if c = '\t' then "'\\t'"
  else if c = '\r' then "'\\r'"
  else if c = '\n' then "'\\n'"
  else "'\\u\x7b" ++ String.ofList (Nat.toDigits 16 c.toNat) ++ "\x7d'"

def assertSingleLine (field : String) (value : Option String) : Result Unit :=
  match value.bind fun text => text.toList.find? isControl with
  | some bad => .error (.usage (s!"{field} contains the control character {debugControl bad}. " ++
      "An identity field is rendered into agent context and into git-tracked documents, where a line " ++
      "break lets it forge a heading, a list item, or a new speaker. Identities are single-line by " ++
      "contract (ARP-R-04)."))
  | none => .ok ()

def assertIdentityFieldsAreSingleLine (fact : Fact) : Result Unit := do
  assertSingleLine "tool" fact.tool
  assertSingleLine "target" fact.target
  assertSingleLine "role" fact.role

def checkLength (what : String) (got limit : Nat) : Result Unit :=
  if got > limit then
    .error (.usage (s!"{what} is {got} bytes, over the {limit}-byte write-boundary bound (ARP-R-04). " ++
      "Ledger text is rendered into agent context and into git-tracked documents, so it is bounded where " ++
      "it is written rather than at each reader. Split it, or attach the long form as an artifact and " ++
      "reference it by uri."))
  else .ok ()

def checkCount (what : String) (got limit : Nat) : Result Unit :=
  if got > limit then
    .error (.usage s!"fact carries {got} {what} entries, over the limit of {limit} (ARP-R-04)")
  else .ok ()

/-- Every entry of a list field, named by its index. -/
def checkItems (what : String) (limit : Nat) : Nat → List String → Result Unit
  | _, [] => .ok ()
  | i, item :: rest => do
    checkLength s!"{what}[{i}]" (byteLen item) limit
    checkItems what limit (i + 1) rest

def factTextTotal (fact : Fact) : Nat :=
  byteLen fact.subject + (fact.summary.map byteLen).getD 0 + (fact.uri.map byteLen).getD 0 +
    sumOf byteLen fact.evidence + sumOf byteLen fact.scope

def validateFactTextBounds (fact : Fact) : Result Unit := do
  checkLength "subject" (byteLen fact.subject) maxSubjectLen
  checkLength "summary" ((fact.summary.map byteLen).getD 0) maxSummaryLen
  checkLength "uri" ((fact.uri.map byteLen).getD 0) maxUriLen
  checkCount "evidence" fact.evidence.length maxEvidenceItems
  checkItems "evidence" maxEvidenceItemLen 0 fact.evidence
  checkCount "scope" fact.scope.length maxScopeItems
  checkItems "scope" maxScopeItemLen 0 fact.scope
  checkLength "fact free text, in total" (factTextTotal fact) maxFactTextBytes

def assertFieldBounds (fact : Fact) : Result Unit := do
  assertIdentityFieldsAreSingleLine fact
  validateFactTextBounds fact

theorem checkLength_ok_iff {what : String} {got limit : Nat} :
    checkLength what got limit = .ok () ↔ got ≤ limit := by
  rw [checkLength, check_refuse_ok_iff]
  simp

theorem checkCount_ok_iff {what : String} {got limit : Nat} :
    checkCount what got limit = .ok () ↔ got ≤ limit := by
  rw [checkCount, check_refuse_ok_iff]
  simp

theorem checkItems_ok_iff {what : String} {limit i : Nat} {items : List String} :
    checkItems what limit i items = .ok () ↔ ∀ item ∈ items, byteLen item ≤ limit := by
  induction items generalizing i with
  | nil => simp [checkItems]
  | cons item rest ih =>
    rw [checkItems, check_bind_ok_iff, checkLength_ok_iff, ih, List.forall_mem_cons]

/-- The field bounds as a list of bounds. -/
structure TextsFit (fact : Fact) : Prop where
  subject : byteLen fact.subject ≤ maxSubjectLen
  summary : (fact.summary.map byteLen).getD 0 ≤ maxSummaryLen
  uri : (fact.uri.map byteLen).getD 0 ≤ maxUriLen
  evidenceCount : fact.evidence.length ≤ maxEvidenceItems
  evidence : ∀ item ∈ fact.evidence, byteLen item ≤ maxEvidenceItemLen
  scopeCount : fact.scope.length ≤ maxScopeItems
  scope : ∀ item ∈ fact.scope, byteLen item ≤ maxScopeItemLen
  total : factTextTotal fact ≤ maxFactTextBytes

theorem validateFactTextBounds_ok_iff {fact : Fact} : validateFactTextBounds fact = .ok () ↔ TextsFit fact := by
  unfold validateFactTextBounds
  simp only [check_bind_ok_iff, checkLength_ok_iff, checkCount_ok_iff, checkItems_ok_iff]
  constructor
  · rintro ⟨h₁, h₂, h₃, h₄, h₅, h₆, h₇, h₈⟩
    exact ⟨h₁, h₂, h₃, h₄, h₅, h₆, h₇, h₈⟩
  · rintro ⟨h₁, h₂, h₃, h₄, h₅, h₆, h₇, h₈⟩
    exact ⟨h₁, h₂, h₃, h₄, h₅, h₆, h₇, h₈⟩

theorem assertFieldBounds_ok_iff {fact : Fact} :
    assertFieldBounds fact = .ok () ↔ assertIdentityFieldsAreSingleLine fact = .ok () ∧ TextsFit fact := by
  unfold assertFieldBounds
  rw [check_bind_ok_iff, validateFactTextBounds_ok_iff]

/-! ## Session lifecycle -/

/-- The facts of exactly one (tool, session). -/
def exactSession (tool sessionId : String) (candidate : Fact) : Bool :=
  candidate.tool == some tool && candidate.fromSessionId == some sessionId

def isActivePresence (fact : Fact) : Bool :=
  fact.kind == .presence && fact.evidence.any (· == "protocol:session_state=active")

def closeTokenHashOf (fact : Fact) : Option String :=
  fact.evidence.findSome? (stripPrefix sessionCloseTokenHashPrefix)

def closeTokenRevealOf (fact : Fact) : Option String :=
  fact.evidence.findSome? (stripPrefix sessionCloseTokenRevealPrefix)

/-- The hashes of a session's active presences, in ledger order. -/
def closeHashes (facts : List Fact) (tool sessionId : String) : List String :=
  ((facts.filter (exactSession tool sessionId)).filter isActivePresence).filterMap closeTokenHashOf

def latestCloseHash (facts : List Fact) (tool sessionId : String) : Option String :=
  (closeHashes facts tool sessionId).getLast?

def sessionAlreadyClosed (facts : List Fact) (tool sessionId : String) : Bool :=
  (facts.filter (exactSession tool sessionId)).any isSessionCloseFact

section Gate

variable (ext : Externals)

/-- A close needs the preimage of the session's latest hash. -/
def assertCloseProof (fact : Fact) (tool sessionId : String) (latest : Option String) : Result Unit :=
  match latest with
  | none => .error (.usage
      s!"session close refused: {tool} {sessionId} has no active close-token lease")
  | some expected =>
    match closeTokenRevealOf fact with
    | none => .error (.usage "session close refused: missing one-time close-token proof")
    | some supplied =>
      if sessionCloseTokenHash ext supplied != expected then
        .error (.usage "session close refused: close-token proof does not match the active lease")
      else .ok ()

def assertSessionLifecycleAuthorized (fact : Fact) (factsBefore : List Fact) : Result Unit :=
  if !needsSessionLifecycleCheck fact then .ok ()
  else
    match fact.tool, fact.fromSessionId with
    | some tool, some sessionId =>
      -- the facts are the raw ones: withdrawing a close does not reopen its session
      if sessionAlreadyClosed factsBefore tool sessionId then
        .error (.usage s!"session lease {sessionId} is closed for {tool}; start a new parent lease")
      else if isSessionCloseAttempt fact then
        assertCloseProof ext fact tool sessionId (latestCloseHash factsBefore tool sessionId)
      else if fact.kind == .presence then
        match latestCloseHash factsBefore tool sessionId with
        | some expected =>
          if closeTokenHashOf fact != some expected then
            .error (.usage
              "session ensure refused: an existing lease cannot rotate its close token")
          else .ok ()
        | none => .ok ()
      else .ok ()
    | _, _ => .ok ()

/-! ## Claim removal -/

/-- The reaper's typed evidence about a claim; the fact's own `ref` is compared with its marker only. -/
def isTypedReaperClose (fact claim : Fact) (reasons : List String) : Bool :=
  if fact.kind != .claimExpired || !isSystemAuthored fact then false
  else
    match fact.refId with
    | none => false
    | some refId =>
      reaperMarker fact "ref_id" == some refId &&
        (match reaperMarker fact "reason" with
          | some reason => reasons.contains reason
          | none => false) &&
        reaperMarker fact "owner" == some (claim.tool.getD "unknown") &&
        reaperMarker fact "owner_session" == some (claim.fromSessionId.getD "legacy") &&
        ((reaperMarker fact "observed" == some "stale" || reaperMarker fact "observed" == some "unknown") ||
          (reaperMarker fact "reason" == some "no-lease-over-age" &&
            reaperMarker fact "observed" == some "stale-unobserved"))

def isTypedReaperLeaseExpiry (fact claim : Fact) : Bool :=
  isTypedReaperClose fact claim ["lease-expired", "owner-stale+lease-expired"]

variable (snapshot : RoomSnapshot) (coord : CoordinationConfig) (now : Int)

def claimLeaseExpired (claim : Fact) : Bool := leaseExpiredAt ext claim now

/-- The no-lease-over-age condition, at the stricter of the stamped and the current threshold. -/
def noLeaseReapAllowed (fact claim : Fact) : Bool :=
  isTypedReaperClose fact claim ["no-lease-over-age"] &&
    (noLeaseOverAge ext claim.createdAt (leaseExpiresAt claim) now
      (noLeaseReapMaxAgeDays ext fact.evidence)).isSome

/-- A later session of the tool that took the claim, once the lease ran out. -/
def successorMayClose (fact claim : Fact) : Bool :=
  claimLeaseExpired ext now claim && (fact.kind == .release || fact.kind == .claimExpired) &&
    claim.fromSessionId.isSome && fact.fromSessionId.isSome && sameNonblankTool claim.tool fact.tool

/-- A sibling session under the owner's label is not an external peer. -/
def isSiblingSession (fact claim : Fact) : Bool :=
  claim.fromSessionId.isSome && sameNonblankTool claim.tool fact.tool

def authorizeClaimRemoval (fact claim : Fact) (action : String) : Result Unit :=
  let claimId := claim.eventId
  let typedLeaseExpiry := isTypedReaperLeaseExpiry fact claim && claimLeaseExpired ext now claim
  -- the age rule answers alone: an owner that stamps this reason is held to it too
  if reaperMarker fact "reason" == some "no-lease-over-age" then
    if noLeaseReapAllowed ext now fact claim then .ok ()
    else .error (.usage s!"reap refused: claim {claimId} is not eligible for no-lease-over-age cleanup")
  else if claimOwnerMatchesCaller claim.tool claim.fromSessionId fact.tool fact.fromSessionId then .ok ()
  else if successorMayClose ext now fact claim then .ok ()
  -- a sibling is refused before the reclaim window is looked at
  else if !typedLeaseExpiry && isSiblingSession fact claim then
    let actor := fact.tool.getD "<unknown>"
    .error (.usage (s!"{action} failed: claim {claimId} belongs to another {actor} session; shared tool " ++
      "labels do not confer claim authority. Ask the owning session to release it."))
  else if (snapshot.claimReclaimEligible ext claim coord now).1 then .ok ()
  else if typedLeaseExpiry then .ok ()
  else
    let owner := claim.tool.getD "<unknown>"
    let actor := fact.tool.getD "<unknown>"
    let timeoutMinutes := match (snapshot.claimReclaimEligible ext claim coord now).2 with
      | .small => coord.reclaimSmallMinutes
      | .large => coord.reclaimLargeMinutes
    .error (.usage (s!"{action} failed: claim {claimId} is owned by {owner} and {actor} is not the " ++
      "owner. An ordinary non-owner close is allowed only after the owner has been silent for " ++
      s!"{timeoutMinutes} minutes; lease expiry is reserved for typed ClaimExpired cleanup. Ask {owner} " ++
      "to release it, wait out the reclaim window, or run the reaper/operator cleanup path."))

/-- Authorize the removal of the first active claim with the given id, if there is one. -/
def authorizeRemovalOf (fact : Fact) (claimId : String) (action : String) : Result Unit :=
  match snapshot.activeClaims.find? fun c => c.eventId == claimId with
  | some claim => authorizeClaimRemoval ext snapshot coord now fact claim action
  | none => .ok ()

def assertClaimCloseAuthorized (fact : Fact) : Result Unit :=
  if !closesActiveClaim fact.kind then .ok ()
  else
    match fact.refId with
    | none => .ok ()
    | some refId => authorizeRemovalOf ext snapshot coord now fact refId fact.kind.asStr

/-- Every claim a release sweeps by scope is checked, not only the one its `ref` names. -/
def assertReleaseSweepAuthorized (fact : Fact) : Result Unit :=
  if fact.kind != .release || fact.scope.isEmpty then .ok ()
  else
    snapshot.activeClaims.forM fun claim =>
      if laterReleaseOverlapsClaimScope fact claim then
        authorizeClaimRemoval ext snapshot coord now fact claim "release"
      else .ok ()

def assertRetractionAuthorized (fact : Fact) : Result Unit :=
  match targetOf fact with
  | none => .ok ()
  | some target => authorizeRemovalOf ext snapshot coord now fact target "retract"

def assertRenewalRetractionAuthorized (fact : Fact) (factsBefore : List Fact) : Result Unit :=
  match targetOf fact with
  | none => .ok ()
  | some target =>
    match (factsBefore.find? fun f => f.eventId == target && f.kind == .claimRenewed).bind (·.refId) with
    | none => .ok ()
    | some claimId => authorizeRemovalOf ext snapshot coord now fact claimId "retract renewal"

/-! ## The lead seat -/

/-- Silent past the large-work window; an unreadable or absent roster row is not stale. -/
def leadIsStale (incumbent : String) : Bool :=
  match (snapshot.squadFor incumbent).bind fun sq => ext.parseFromRfc3339 sq.lastSeenTs with
  | some seen => decide (unixSecs now - timestamp seen > saturateI64 (coord.reclaimLargeMinutes * 60))
  | none => false

def leadSeatChangeAllowed (fact : Fact) (incumbent : String) : Bool :=
  if fact.tool == some incumbent then true
  else if leadIsStale ext snapshot coord now incumbent then true
  else fact.evidence.any fun item => trim item == leadForceMarker

/-- Gate a retraction only when deriving the seat without its target gives a different answer. -/
def assertLeadRetractionAuthorized (fact : Fact) (factsBefore : List Fact) : Result Unit :=
  match targetOf fact with
  | none => .ok ()
  | some target =>
    match projectedLead factsBefore with
    | none => .ok ()
    | some incumbent =>
      let after := projectedLeadWithRetraction factsBefore (some target)
      if after == some incumbent then .ok ()
      else if leadSeatChangeAllowed ext snapshot coord now fact incumbent then .ok ()
      else
        let actor := fact.tool.getD "<unknown>"
        let outcome := match after with
          | some next => s!"hands the seat to {next}"
          | none => "vacates the seat"
        .error (.usage (s!"retract failed: {incumbent} holds the lead seat by {target}, and withdrawing " ++
          s!"it {outcome}. {actor} is not {incumbent}, so this is a seat change and follows the same " ++
          "rule as `rally lead handoff`: the holder withdraws it, or the holder has been silent past " ++
          "the reclaim window. Retracting a fact that carries no authority is still open to anyone. If " ++
          "you are deliberately taking the seat from a live lead, use `rally lead assign --force`, " ++
          "which records the seizure and the incumbent it displaced."))

def assertLeadTransferAuthorized (fact : Fact) (factsBefore : List Fact) : Result Unit :=
  if !isLeadDecision fact then .ok ()
  else
    match projectedLead factsBefore with
    | none => .ok ()
    | some incumbent =>
      let actor := fact.tool.getD "<unknown>"
      if leadSeatChangeAllowed ext snapshot coord now fact incumbent then .ok ()
      else
        let beneficiary := (leadBeneficiary fact).getD "<unknown>"
        let verb :=
          if fact.subject == leadRelinquishedSubject then s!"cannot vacate the seat {incumbent} holds"
          else s!"cannot transfer the seat from {incumbent} to {beneficiary}"
        .error (.usage (s!"lead transfer refused: {incumbent} holds the lead seat and {actor} {verb}. The " ++
          s!"seat moves when its holder hands it off ({incumbent} runs the command), or when its holder " ++
          "has been silent past the reclaim window. If you are deliberately taking it from a live lead, " ++
          "say so on the record with `--force`, which writes the seizure and the displaced incumbent " ++
          "into the ledger."))

/-! ## The gate -/

def assertWriteAuthorized (fact : Fact) (factsBefore : List Fact) : Result Unit := do
  assertFieldBounds fact
  assertSessionLifecycleAuthorized ext fact factsBefore
  assertClaimCloseAuthorized ext snapshot coord now fact
  assertReleaseSweepAuthorized ext snapshot coord now fact
  assertRetractionAuthorized ext snapshot coord now fact
  assertRenewalRetractionAuthorized ext snapshot coord now fact factsBefore
  assertLeadRetractionAuthorized ext snapshot coord now fact factsBefore
  assertLeadTransferAuthorized ext snapshot coord now fact factsBefore

end Gate

/-! ## What an accepted write has passed -/

section Accepted

variable {ext : Externals} {snapshot : RoomSnapshot} {coord : CoordinationConfig} {now : Int}
variable {fact : Fact} {factsBefore : List Fact}

theorem assertWriteAuthorized_ok_iff :
    assertWriteAuthorized ext snapshot coord now fact factsBefore = .ok () ↔
      assertFieldBounds fact = .ok () ∧
      assertSessionLifecycleAuthorized ext fact factsBefore = .ok () ∧
      assertClaimCloseAuthorized ext snapshot coord now fact = .ok () ∧
      assertReleaseSweepAuthorized ext snapshot coord now fact = .ok () ∧
      assertRetractionAuthorized ext snapshot coord now fact = .ok () ∧
      assertRenewalRetractionAuthorized ext snapshot coord now fact factsBefore = .ok () ∧
      assertLeadRetractionAuthorized ext snapshot coord now fact factsBefore = .ok () ∧
      assertLeadTransferAuthorized ext snapshot coord now fact factsBefore = .ok () := by
  unfold assertWriteAuthorized
  simp only [check_bind_ok_iff]

/-- The typed expiry of a lease that has run out. -/
def typedLeaseExpiry (ext : Externals) (now : Int) (fact claim : Fact) : Bool :=
  isTypedReaperLeaseExpiry fact claim && claimLeaseExpired ext now claim

/-- **The removal policy, spelled out.** Apart from the reaper's age rule, which answers alone, a removal
is the owner's, the successor's, an outsider's after the reclaim window, or the typed lease expiry. -/
theorem authorizeClaimRemoval_ok_iff {claim : Fact} {action : String} :
    authorizeClaimRemoval ext snapshot coord now fact claim action = .ok () ↔
      if reaperMarker fact "reason" = some "no-lease-over-age" then
        noLeaseReapAllowed ext now fact claim = true
      else
        claimOwnerMatchesCaller claim.tool claim.fromSessionId fact.tool fact.fromSessionId = true ∨
          successorMayClose ext now fact claim = true ∨
          (isSiblingSession fact claim = false ∧
            (snapshot.claimReclaimEligible ext claim coord now).1 = true) ∨
          typedLeaseExpiry ext now fact claim = true := by
  unfold authorizeClaimRemoval typedLeaseExpiry
  by_cases hreason : reaperMarker fact "reason" = some "no-lease-over-age"
  · cases noLeaseReapAllowed ext now fact claim <;> simp [hreason]
  · -- every other arm is a Boolean of its own; each combination is one branch of the policy
    simp only [beq_iff_eq, hreason, if_false]
    cases claimOwnerMatchesCaller claim.tool claim.fromSessionId fact.tool fact.fromSessionId <;>
      cases successorMayClose ext now fact claim <;>
      cases isSiblingSession fact claim <;>
      cases isTypedReaperLeaseExpiry fact claim && claimLeaseExpired ext now claim <;>
      cases (snapshot.claimReclaimEligible ext claim coord now).1 <;> simp

/-- With distinct ids, authorizing the removal of an id authorizes the active claim that bears it. -/
theorem authorizeRemovalOf_ok {claim : Fact} {action : String}
    (hdistinct : (snapshot.activeClaims.map (·.eventId)).Nodup) (hmem : claim ∈ snapshot.activeClaims)
    (h : authorizeRemovalOf ext snapshot coord now fact claim.eventId action = .ok ()) :
    authorizeClaimRemoval ext snapshot coord now fact claim action = .ok () := by
  have hfind : snapshot.activeClaims.find? (fun c => c.eventId == claim.eventId) = some claim := by
    rw [List.find?_eq_some_iff_append]
    refine ⟨by simp, ?_⟩
    -- nothing in front of the claim bears its id, so the search stops at it
    obtain ⟨before, after, hsplit⟩ := List.append_of_mem hmem
    refine ⟨before, after, hsplit, fun c hc => ?_⟩
    rw [hsplit, List.map_append, List.map_cons, List.nodup_append] at hdistinct
    have hne := hdistinct.2.2 c.eventId (List.mem_map_of_mem hc) claim.eventId (by simp)
    simpa using hne
  rw [authorizeRemovalOf, hfind] at h
  exact h

theorem assertReleaseSweepAuthorized_ok {claim : Fact} (hmem : claim ∈ snapshot.activeClaims)
    (hsweep : laterReleaseOverlapsClaimScope fact claim = true)
    (h : assertReleaseSweepAuthorized ext snapshot coord now fact = .ok ()) :
    authorizeClaimRemoval ext snapshot coord now fact claim "release" = .ok () := by
  have hparts := hsweep
  simp only [laterReleaseOverlapsClaimScope, Bool.and_eq_true, beq_iff_eq, List.any_eq_true] at hparts
  obtain ⟨hkind, s, hs, -⟩ := hparts
  have hscope : fact.scope.isEmpty = false := by
    rw [List.isEmpty_eq_false_iff]
    exact List.ne_nil_of_mem hs
  simp only [assertReleaseSweepAuthorized, hkind, hscope, bne_self_eq_false, Bool.or_self,
    Bool.false_eq_true, if_false] at h
  simpa [hsweep] using check_forM_ok_iff.mp h claim hmem

end Accepted

end RallyPoint
