/-
# RallyPoint.Append — the append boundary (`store.rs`, `append_fact_under_lock`).

Every durable write passes here, under the room's mutation lock, with the canonical facts in sequence order.
Identity comes first: an event id that is already canonical is a retry of exactly that row, or refused, and
none of the stateful checks below apply to it. A new event then passes the transition checks of its kind,
the authority gate, the schema floor and (for a claim) the breadth and conflict gates, and gets the next
sequence number.

What the append reads beyond the ledger is in `AppendEnv`: the policy, the clock, the recorded schema floor,
the observed liveness of sessions, whether the derived index may stand in for a scan, and the engagement of
the canonical rows. While the index may be used it answers from exactly the canonical rows.
-/
import RallyPoint.Handoff

namespace RallyPoint

open Lib

/-! ## What an append reads beside the ledger -/

inductive ObservedLiveness
  | live | stale | staleUnobserved | unknown
  deriving DecidableEq, Repr

def ObservedLiveness.isStale : ObservedLiveness → Bool
  | .stale | .staleUnobserved => true
  | _ => false

/-- What process and worktree probes reported about sessions. -/
structure ObservedSessions where
  bySession : String → String → Option ObservedLiveness
  byTool : String → Option ObservedLiveness
  bySessionReportedAt : String → String → Option Int

namespace ObservedSessions

def forClaim (observed : ObservedSessions) (tool fromSessionId : Option String) : ObservedLiveness :=
  match tool with
  | none => .unknown
  | some tool =>
    match fromSessionId with
    | some sessionId => (observed.bySession tool sessionId).getD .unknown
    | none => (observed.byTool tool).getD .unknown

/-- A live report older than the lease boundary proves nothing any more. -/
def forClaimSince (observed : ObservedSessions) (tool fromSessionId : Option String)
    (notBefore : Option Int) : ObservedLiveness :=
  let verdict := observed.forClaim tool fromSessionId
  match tool, fromSessionId, notBefore with
  | some tool, some sessionId, some notBefore =>
    match observed.bySessionReportedAt tool sessionId with
    | some reportedAt => if verdict == .live && decide (reportedAt < notBefore) then .unknown else verdict
    | none => verdict
  | _, _, _ => verdict

end ObservedSessions

structure AppendEnv where
  ext : Externals
  coord : CoordinationConfig
  now : Int
  schemaFloor : Nat
  observed : ObservedSessions
  /-- The sidecar proof holds and the session index answers. -/
  indexed : Bool
  /-- Whether a canonical row carries the writer's engagement. -/
  sameEngagement : Fact → Bool

namespace AppendEnv

/-- A room with the default policy at one instant, nothing observed, no index. -/
def sample : AppendEnv where
  ext := .sample
  coord := {}
  now := 1767225600000000000
  schemaFloor := 1
  observed := ⟨fun _ _ => none, fun _ => none, fun _ _ => none⟩
  indexed := false
  sameEngagement _ := true

/-- The room the gates consult, projected from the canonical facts at the append's own instant. -/
def snapshot (env : AppendEnv) (facts : List Fact) : RoomSnapshot :=
  snapshotFromFactsWithPolicy env.ext facts env.coord false env.now

end AppendEnv

/-! ## Identity -/

def maxAppendEventIdBytes : Nat := 256

def validateAppendEventId (eventId : String) : Result Unit :=
  if isBlank eventId then .error (.usage "append event_id must not be empty")
  else if byteLen eventId > maxAppendEventIdBytes then
    .error (.usage s!"append event_id exceeds {maxAppendEventIdBytes} bytes")
  else if eventId.toList.any isControl then
    .error (.usage "append event_id must not contain control characters")
  else .ok ()

def validateAppendIdentity (fact : Fact) : Result Unit :=
  if fact.schema != factSchema then
    .error (.usage s!"append fact schema must be {factSchema}, got {String.quote fact.schema}")
  else validateAppendEventId fact.eventId

/-- The canonical row an event id already names, when the candidate is exactly that row. -/
def resolveCanonicalEventId (env : AppendEnv) (facts : List Fact) (candidate : Fact) :
    Result (Option Fact) :=
  match facts.filter fun entry => entry.eventId == candidate.eventId with
  | [] => .ok none
  | [existing] =>
    if env.sameEngagement existing && { candidate with seq := existing.seq } == existing then
      .ok (some existing)
    else .error (.usage (s!"event-id identity conflict: {candidate.eventId} already names a different " ++
      "canonical fact"))
  | several => .error (.usage (s!"event-id identity ambiguity: {candidate.eventId} appears in " ++
      s!"{several.length} canonical rows; refusing retry"))

/-! ## Transition checks by kind -/

/-- The owners a takeover release says it reclaims. -/
def takeoverOwnersMarker (evidence : List String) : Option (List String) :=
  evidence.findSome? fun item =>
    (stripPrefix "authorized-takeover:stale-owner=" item).bind fun rest =>
      let owners := ((split ',' rest).map trim).filter fun owner => !owner.toList.isEmpty
      if owners.isEmpty then none else some owners

/-- The store's reading of a reaper marker keeps an empty value. -/
def storeReaperMarker (evidence : List String) (key : String) : Option String :=
  (evidence.findSome? (stripPrefix ("reaper:" ++ key ++ "="))).map trim

section Transitions

variable (env : AppendEnv) (facts : List Fact)

/-- A takeover is refused when the owner still holds claims and none of them is reclaimable. -/
def assertTakeoverStillStale (fact : Fact) : Result Unit :=
  if fact.kind != .release then .ok ()
  else
    ((takeoverOwnersMarker fact.evidence).getD []).forM fun owner =>
      let owned := (env.snapshot facts).activeClaims.filter fun c => c.tool == some owner
      if !owned.isEmpty &&
          !owned.any fun c => ((env.snapshot facts).claimReclaimEligible env.ext c env.coord env.now).1 then
        .error (.usage (s!"takeover refused: owner {owner} is no longer stale (revived under the " ++
          "mutation lock); not reclaiming a now-live owner's claim"))
      else .ok ()

def noLeaseStillEligible (fact claim : Fact) : Bool :=
  !(facts.any fun event => event.kind == .claimRenewed && event.refId == some claim.eventId) &&
    storeReaperMarker fact.evidence "ref_id" == some claim.eventId &&
    storeReaperMarker fact.evidence "owner" == some (claim.tool.getD "unknown") &&
    storeReaperMarker fact.evidence "owner_session" == some (claim.fromSessionId.getD "legacy") &&
    (noLeaseOverAge env.ext claim.createdAt (leaseExpiresAt claim) env.now
      (noLeaseReapMaxAgeDays env.ext fact.evidence)).isSome &&
    env.observed.forClaim claim.tool claim.fromSessionId != .live

def assertNoLeaseReap (fact : Fact) : Result Unit :=
  if fact.kind != .claimExpired ||
      storeReaperMarker fact.evidence "reason" != some "no-lease-over-age" then .ok ()
  else
    let refText := fact.refId.getD "<missing>"
    match (env.snapshot facts).activeClaims.find? fun claim => some claim.eventId == fact.refId with
    | some claim =>
      if noLeaseStillEligible env facts fact claim then .ok ()
      else .error (.usage (s!"reap refused: claim {refText} is no longer eligible for no-lease-over-age " ++
        "under the mutation lock (released, renewed, or owner live)"))
    | none => .error (.usage (s!"reap refused: claim {refText} is no longer eligible for " ++
        "no-lease-over-age under the mutation lock (released, renewed, or owner live)"))

/-- The reasons under which the store re-derives staleness of the owner. -/
def isOwnerReason (reason : Option String) : Bool :=
  reason == some "owner-stale" || reason == some "owner-stale+lease-expired"

def isLeaseReason (reason : Option String) : Bool :=
  reason == some "lease-expired" || reason == some "owner-stale+lease-expired"

def ownerSessionMatches (claim : Fact) (marker : Option String) : Bool :=
  match claim.fromSessionId, marker with
  | some claimSession, some markerSession => markerSession == claimSession
  | none, some "legacy" => true
  | none, none => true
  | _, _ => false

def ownerStillStale (claim : Fact) (reason : Option String) : Bool :=
  isOwnerReason reason &&
    if claim.fromSessionId.isSome then (env.observed.forClaim claim.tool claim.fromSessionId).isStale
    else ((env.snapshot facts).claimReclaimEligible env.ext claim env.coord env.now).1

/-- The store parses the lease text as it stands, without trimming it. -/
def leaseBoundary (claim : Fact) : Option Int :=
  (leaseExpiresAt claim).bind env.ext.parseFromRfc3339

def leaseStillExpired (claim : Fact) (reason : Option String) : Bool :=
  isLeaseReason reason && match leaseBoundary env claim with
    | some expires => decide (expires ≤ env.now)
    | none => false

/-- The stamped observation must be the one observed now, each marker against its own flavour. -/
def observationStillPermits (fact claim : Fact) (reason : Option String) : Bool :=
  let current :=
    if isLeaseReason reason then
      env.observed.forClaimSince claim.tool claim.fromSessionId (leaseBoundary env claim)
    else env.observed.forClaim claim.tool claim.fromSessionId
  match storeReaperMarker fact.evidence "observed" with
  | some "stale" => current == .stale
  | some "stale-unobserved" => current == .staleUnobserved
  | some "unknown" => current == .unknown
  | _ => false

/-- A reaper close re-checked under the lock; a claim that is already closed is nobody's loss. -/
def assertReapStillJustified (fact : Fact) : Result Unit :=
  let reason := storeReaperMarker fact.evidence "reason"
  if fact.kind != .claimExpired || !(isOwnerReason reason || isLeaseReason reason) then .ok ()
  else
    match storeReaperMarker fact.evidence "owner", fact.refId with
    | some owner, some refId =>
      match (env.snapshot facts).activeClaims.find? fun c => c.tool == some owner && c.eventId == refId with
      -- `ref` decides which claim is looked at, whatever the subject withdraws
      | none => .ok ()
      | some claim =>
        if !ownerSessionMatches claim (storeReaperMarker fact.evidence "owner_session") then
          .error (.usage (s!"reap refused: claim {refId} owner session does not match the reaper " ++
            "evidence; not closing an active claim"))
        else if (!ownerStillStale env facts claim reason && !leaseStillExpired env claim reason) ||
            !observationStillPermits env fact claim reason then
          .error (.usage (s!"reap refused: claim {refId} is no longer eligible under the mutation lock " ++
            "(owner revived or lease renewed); not closing an active claim"))
        else .ok ()
    | _, _ => .ok ()

/-- A renewal names a live claim of its own author and moves the lease forward. -/
def assertRenewal (fact : Fact) : Result Unit :=
  if fact.kind != .claimRenewed then .ok ()
  else
    match fact.refId with
    | none => .error (.usage "renew claim lease: missing claim ref")
    | some claimId =>
      match renewableClaimRecord env.ext facts claimId with
      | none => .error (.usage s!"renew claim lease: ref {claimId} is not an active claim")
      | some current =>
        if !claimOwnerMatchesCaller current.ownerTool current.fromSessionId fact.tool
            fact.fromSessionId then
          let actor := fact.tool.getD "<unknown>"
          .error (.usage s!"renew claim lease: {actor} session does not own claim {claimId}")
        else
          match leaseExpiresAt fact with
          | none => .error (.usage "renew claim lease: missing lease_expires_at evidence")
          | some raw =>
            match env.ext.parseFromRfc3339 raw with
            -- the source appends the parser's own message here
            | none => .error (.usage "renew claim lease: lease_expires_at must be RFC3339")
            | some requested =>
              match current.leaseExpiresAt.bind env.ext.parseFromRfc3339 with
              | some existing =>
                if existing ≥ requested then
                  .error (.usage
                    s!"renew claim lease: requested lease does not advance claim {claimId}")
                else .ok ()
              | none => .ok ()

def hasId (bucket : List Fact) (refId : String) : Bool := bucket.any fun c => c.eventId == refId

/-- A release or a resolve targets something live in the room. -/
def assertTransitionTarget (fact : Fact) : Result Unit :=
  if fact.kind != .release && fact.kind != .resolve then .ok ()
  else
    let kindText := fact.kind.asStr
    match fact.refId with
    | none => .error (.usage
        s!"{kindText} requires --ref <event-id> targeting a live fact; none provided")
    | some refId =>
      let room := env.snapshot facts
      if fact.kind == .release then
        if hasId room.activeClaims refId then .ok ()
        else .error (.usage (s!"release failed: ref {refId} is not an active claim (already released, " ++
          "never existed, or invalid); nothing to release"))
      else
        let openHandoff := room.openHandoffs.find? fun c => c.eventId == refId
        let openObligation := room.openObligations.find? fun c => c.eventId == refId
        if !(hasId room.activeBlockers refId || hasId room.activeClaims refId || openHandoff.isSome ||
            openObligation.isSome || hasId room.currentRisks refId || hasId room.systemHealth refId ||
            hasId room.unconsumedArtifacts refId) then
          .error (.usage (s!"resolve failed: ref {refId} is not a live blocker, claim, handoff, " ++
            "obligation, risk, or unconsumed artifact (already resolved, never existed, or invalid); " ++
            "nothing to resolve"))
        else
          match openHandoff.or openObligation with
          | some targeted =>
            if handoffCloserMatchesTarget targeted fact then .ok ()
            else
              let target := targeted.target.getD "<untargeted>"
              let tool := fact.tool.getD "<unknown>"
              .error (.usage (s!"resolve failed: ref {refId} is targeted to {target}; tool {tool} cannot " ++
                "resolve it"))
          | none => .ok ()

/-! ## Shape, authority, floor and claims -/

def assertSessionCloseShape (fact : Fact) : Result Unit :=
  if isSessionCloseAttempt fact &&
      (!isNonempty fact.tool || !isNonempty fact.fromSessionId ||
        !fact.evidence.any (· == "protocol:session_state=closed") ||
        !fact.evidence.any (startsWith sessionCloseTokenRevealPrefix)) then
    .error (.usage ("session close requires an exact tool, from_session_id, " ++
      "protocol:session_state=closed, and a one-time close-token proof"))
  else .ok ()

/-- The rows the session index returns for a session. -/
def sessionFactsByIndex (sessionId : String) : List Fact :=
  facts.filter fun fact => fact.fromSessionId == some sessionId

/-- The scoped rows that stand in for the ledger, when only the session check applies. -/
def scopedLifecycle (fact : Fact) : Option (List Fact) :=
  -- a claim needs the whole ledger for its conflict check, so it never takes this path
  if !needsAuthorityCheck fact && needsSessionLifecycleCheck fact && fact.kind != .claim && env.indexed then
    fact.fromSessionId.map (sessionFactsByIndex facts)
  else none

def assertAuthority (fact : Fact) : Result Unit :=
  match scopedLifecycle env facts fact with
  | some sessionFacts => assertSessionLifecycleAuthorized env.ext fact sessionFacts
  | none =>
    if needsAuthorityCheck fact || needsSessionLifecycleCheck fact then
      assertWriteAuthorized env.ext (env.snapshot facts) env.coord env.now fact facts
    else assertFieldBounds fact

def assertKindWithinSchemaFloor (fact : Fact) : Result Unit :=
  let required := fact.kind.sinceGeneration
  let kindText := String.quote fact.kind.asStr
  if required ≤ env.schemaFloor then .ok ()
  else .error (.usage (s!"event kind {kindText} needs schema-floor generation {required}, but this room " ++
    s!"records generation {env.schemaFloor}. Older binaries in this room cannot read " ++
    s!"generation-{required} rows. Either dual-write the meaning onto a kind at or below generation " ++
    s!"{env.schemaFloor} (a `protocol:` evidence marker older readers ignore), or upgrade every binary " ++
    "participating in this room and then raise the floor with `rally doctor --schema-floor --apply`."))

def humanizeAge (secs : Int) : String :=
  let secs := max secs 0
  if secs < 90 then s!"{secs}s"
  else if secs < 5400 then s!"{secs / 60}m"
  else if secs < 172800 then s!"{secs / 3600}h"
  else s!"{secs / 86400}d"

def conflictMessage (conflict : ClaimConflict) (ownerIdleSecs : Option Int) (reclaimable : Option Bool) :
    String :=
  let owner := conflict.existingOwner.getD "unknown-owner"
  let handOver := s!"hand the change to {owner} with `rally say handoff --to {owner} --subject " ++
    "\"<change>\"`, take another task with `rally next --tool <you>`, or claim a narrower scope outside " ++
    conflict.existingScope
  let (liveness, options) := match ownerIdleSecs with
    | some secs =>
      if reclaimable == some true then
        (s!" {owner} has been silent {humanizeAge secs}",
          "past this claim's reclaim threshold, so try releasing it with `rally say release --path " ++
          "<path> --tool <you>`, or take another task with `rally next --tool <you>`")
      else (s!" {owner} was last active {humanizeAge secs} ago", handOver)
    | none => ("", handOver)
  s!"claim conflict: {owner} holds {conflict.existingScope} (claim {conflict.existingClaimId}), which " ++
    s!"overlaps the scope you requested, {conflict.scope}.{liveness}. Next: {options}"

/-- The refusal of a conflicting claim; the holder's liveness is told only where a room was projected. -/
def conflictRefusal (fact : Fact) (conflict : ClaimConflict) : String :=
  if needsAuthorityCheck fact || needsSessionLifecycleCheck fact then
    let room := env.snapshot facts
    conflictMessage conflict
      ((conflict.existingOwner.bind room.squadFor).bind (·.ageSecs))
      ((room.activeClaims.find? fun claim => claim.eventId == conflict.existingClaimId).map fun claim =>
        (room.claimReclaimEligible env.ext claim env.coord env.now).1)
  else conflictMessage conflict none none

def assertClaimAdmissible (fact : Fact) : Result Unit :=
  if fact.kind != .claim then .ok ()
  else
    match breadthViolation fact facts with
    | some refusal => .error (.usage refusal)
    | none =>
      match detectConflict env.ext facts fact with
      | some conflict => .error (.usage (conflictRefusal env facts fact conflict))
      | none => .ok ()

/-! ## The append -/

/-- Every stateful check a genuinely new event passes, in order. -/
def assertAppendable (fact : Fact) : Result Unit := do
  assertTakeoverStillStale env facts fact
  assertNoLeaseReap env facts fact
  assertReapStillJustified env facts fact
  assertRenewal env facts fact
  assertTransitionTarget env facts fact
  assertSessionCloseShape fact
  assertAuthority env facts fact
  assertKindWithinSchemaFloor env fact
  assertClaimAdmissible env facts fact

end Transitions

/-- An append either repeats a recorded row or commits a new one. -/
inductive AppendOutcome
  | recorded (existing : Fact)
  | committed (fact : Fact)
  deriving DecidableEq, Repr

/-- The highest canonical sequence; rows come in sequence order. -/
def canonicalMaxSeq (facts : List Fact) : Int := (facts.getLast?.map (·.seq)).getD 0

/-- The next sequence number, with the overflow check of `checked_add`. -/
def nextSeq (facts : List Fact) : Result Int :=
  if canonicalMaxSeq facts + 1 < i64Bound then .ok (canonicalMaxSeq facts + 1)
  else .error (.message "canonical sequence overflow")

def appendFactUnderLock (env : AppendEnv) (facts : List Fact) (fact : Fact) : Result AppendOutcome := do
  validateAppendIdentity fact
  assertFieldBounds fact
  match ← resolveCanonicalEventId env facts fact with
  -- a repeated row is answered before any stateful check could refuse it
  | some existing => .ok (.recorded existing)
  | none =>
    match ← resolveHandoff fact facts with
    | some existing => .ok (.recorded existing)
    | none =>
      assertAppendable env facts fact
      let seq ← nextSeq facts
      .ok (.committed { fact with seq := seq })

/-! ## Committed appends -/

section Committed

variable {env : AppendEnv} {facts : List Fact} {fact f : Fact}

/-- A candidate is new exactly when no canonical row bears its id. -/
theorem resolveCanonicalEventId_eq_none_iff :
    resolveCanonicalEventId env facts fact = .ok none ↔ fact.eventId ∉ facts.map (·.eventId) := by
  have hfilter : fact.eventId ∉ facts.map (·.eventId) ↔
      facts.filter (fun entry => entry.eventId == fact.eventId) = [] := by
    simp only [List.mem_map, not_exists, not_and, List.filter_eq_nil_iff, beq_iff_eq]
  rw [hfilter, resolveCanonicalEventId]
  cases facts.filter (fun entry => entry.eventId == fact.eventId) with
  | nil => simp
  | cons existing rest =>
    cases rest with
    | nil =>
      simp only [List.cons_ne_nil, iff_false]
      split <;> simp
    | cons _ _ => simp

theorem nextSeq_ok_iff {n : Int} :
    nextSeq facts = .ok n ↔ canonicalMaxSeq facts + 1 < i64Bound ∧ n = canonicalMaxSeq facts + 1 := by
  unfold nextSeq
  split
  case isTrue h => simp only [Except.ok.injEq, h, true_and, eq_comm]
  case isFalse h => simp only [reduceCtorEq, h, false_and]

/-- **What a commit means.** Identity, handoff and every stateful check passed, and the row gets the next
sequence number. -/
theorem appendFactUnderLock_committed_iff :
    appendFactUnderLock env facts fact = .ok (.committed f) ↔
      validateAppendIdentity fact = .ok () ∧ assertFieldBounds fact = .ok () ∧
        fact.eventId ∉ facts.map (·.eventId) ∧ resolveHandoff fact facts = .ok none ∧
        assertAppendable env facts fact = .ok () ∧ canonicalMaxSeq facts + 1 < i64Bound ∧
        f = { fact with seq := canonicalMaxSeq facts + 1 } := by
  rw [← @resolveCanonicalEventId_eq_none_iff env]
  unfold appendFactUnderLock
  simp only [bind_ok_iff]
  constructor
  · rintro ⟨⟨⟩, hid, ⟨⟩, hbounds, existing, hexisting, h⟩
    -- a row found by id or by handoff key is `recorded`, not committed
    cases existing with
    | some _ => simp at h
    | none =>
      obtain ⟨handoff, hhandoff, h⟩ := bind_ok_iff.mp h
      cases handoff with
      | some _ => simp at h
      | none =>
        obtain ⟨⟨⟩, happend, h⟩ := bind_ok_iff.mp h
        obtain ⟨n, hn, h⟩ := bind_ok_iff.mp h
        obtain ⟨hmax, rfl⟩ := nextSeq_ok_iff.mp hn
        simp only [Except.ok.injEq, AppendOutcome.committed.injEq] at h
        exact ⟨hid, hbounds, hexisting, hhandoff, happend, hmax, h.symm⟩
  · rintro ⟨hid, hbounds, hexisting, hhandoff, happend, hmax, rfl⟩
    refine ⟨(), hid, (), hbounds, none, hexisting, ?_⟩
    refine bind_ok_iff.mpr
      ⟨none, hhandoff, bind_ok_iff.mpr ⟨(), happend, bind_ok_iff.mpr ⟨_, ?_, rfl⟩⟩⟩
    exact nextSeq_ok_iff.mpr ⟨hmax, rfl⟩

theorem assertAppendable_ok_iff :
    assertAppendable env facts fact = .ok () ↔
      assertTakeoverStillStale env facts fact = .ok () ∧ assertNoLeaseReap env facts fact = .ok () ∧
        assertReapStillJustified env facts fact = .ok () ∧ assertRenewal env facts fact = .ok () ∧
        assertTransitionTarget env facts fact = .ok () ∧ assertSessionCloseShape fact = .ok () ∧
        assertAuthority env facts fact = .ok () ∧ assertKindWithinSchemaFloor env fact = .ok () ∧
        assertClaimAdmissible env facts fact = .ok () := by
  unfold assertAppendable
  simp only [check_bind_ok_iff]

theorem detectConflict_of_admissible (hkind : fact.kind = .claim)
    (h : assertClaimAdmissible env facts fact = .ok ()) : detectConflict env.ext facts fact = none := by
  simp only [assertClaimAdmissible, hkind, bne_self_eq_false, Bool.false_eq_true, if_false] at h
  split at h
  · simp at h
  · split at h
    · simp at h
    · assumption

end Committed

/-! ## Ledgers -/

/-- A canonical ledger: sequences ascend from above zero and no id repeats. -/
structure IsLedger (facts : List Fact) : Prop where
  ascending : facts.Pairwise fun a b => a.seq < b.seq
  positive : ∀ x ∈ facts, 0 < x.seq
  distinctIds : (facts.map (·.eventId)).Nodup

@[simp]
theorem canonicalMaxSeq_append_singleton (facts : List Fact) (x : Fact) :
    canonicalMaxSeq (facts ++ [x]) = x.seq := by
  simp [canonicalMaxSeq]

/-- One committed append, under any clock, policy and observation. -/
def AppendStep (ext : Externals) (facts : List Fact) (f : Fact) : Prop :=
  ∃ env fact, env.ext = ext ∧ appendFactUnderLock env facts fact = .ok (.committed f)

namespace IsLedger

variable {facts : List Fact} {f : Fact}

theorem le_canonicalMaxSeq (h : IsLedger facts) : ∀ x ∈ facts, x.seq ≤ canonicalMaxSeq facts :=
  le_last_of_ascending h.ascending

theorem canonicalMaxSeq_nonneg (h : IsLedger facts) : 0 ≤ canonicalMaxSeq facts :=
  last_nonneg h.positive

theorem max_seq (h : IsLedger facts) :
    ((facts.map (·.seq)).max?).getD 0 = canonicalMaxSeq facts := by
  rcases List.eq_nil_or_concat' facts with rfl | ⟨init, last, rfl⟩
  · simp [canonicalMaxSeq]
  · have hmax : (((init ++ [last]).map (·.seq)).max?) = some last.seq := by
      rw [List.max?_eq_some_iff]
      refine ⟨by simp, fun n hn => ?_⟩
      obtain ⟨x, hx, rfl⟩ := List.mem_map.mp hn
      simpa using h.le_canonicalMaxSeq x hx
    rw [hmax, canonicalMaxSeq_append_singleton, Option.getD_some]

theorem nil : IsLedger [] := ⟨List.Pairwise.nil, by simp, List.nodup_nil⟩

/-- A fact with a fresh id above every sequence extends a ledger. -/
theorem append (h : IsLedger facts) (hid : f.eventId ∉ facts.map (·.eventId))
    (hseq : ∀ x ∈ facts, x.seq < f.seq) (hpos : 0 < f.seq) : IsLedger (facts ++ [f]) where
  ascending := List.pairwise_append.mpr
    ⟨h.ascending, List.pairwise_singleton _ _, by simpa using hseq⟩
  positive := by
    intro x hx
    rcases List.mem_append.mp hx with hx | hx
    · exact h.positive x hx
    · rwa [List.mem_singleton.mp hx]
  distinctIds := by
    rw [List.map_append, List.nodup_append]
    refine ⟨h.distinctIds, by simp, ?_⟩
    rintro a ha b hb rfl
    simp only [List.map_cons, List.map_nil, List.mem_singleton] at hb
    exact hid (hb ▸ ha)

end IsLedger

/-- Committed appends keep a ledger a ledger. -/
theorem AppendStep.isLedger {ext : Externals} {facts : List Fact} {f : Fact}
    (hstep : AppendStep ext facts f) (h : IsLedger facts) :
    IsLedger (facts ++ [f]) ∧ ∀ x ∈ facts, x.seq < f.seq := by
  obtain ⟨env, fact, -, hok⟩ := hstep
  obtain ⟨-, -, hid, -, -, -, rfl⟩ := appendFactUnderLock_committed_iff.mp hok
  have hseq : ∀ x ∈ facts, x.seq < canonicalMaxSeq facts + 1 := fun x hx =>
    Int.lt_add_one_of_le (h.le_canonicalMaxSeq x hx)
  have hpos : 0 < canonicalMaxSeq facts + 1 := by
    have := h.canonicalMaxSeq_nonneg
    omega
  exact ⟨h.append hid hseq hpos, hseq⟩

theorem isLedger_of_reachable {ext : Externals} {facts : List Fact}
    (h : Reachable (AppendStep ext) facts) : IsLedger facts :=
  Reachable.invariant IsLedger.nil (fun _ _ _ ih hstep => (hstep.isLedger ih).1) h

end RallyPoint
