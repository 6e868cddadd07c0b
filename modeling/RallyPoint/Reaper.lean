/-
# RallyPoint.Reaper — the pass that closes what its owner left behind (`reaper.rs`).

From one snapshot a pass decides which active claims and open handoffs are over and whether the lead is gone, and
then writes one closing row for each, under an id derived from the item alone. It decides outside the lock, and
other writers go on meanwhile. `reap_spares` says what a pass may change beside them: a claim that no longer shows
was judged over in the snapshot and not seen alive, a handoff that no longer shows was past its lifetime, and no
row of a pass answers an obligation or counts as anybody's sign of life.
-/
import RallyPoint.Answering
import RallyPoint.LastSeen
import RallyPoint.Releases
import RallyPoint.Segments
import RallyPoint.StableId

namespace RallyPoint.Reaper

open Lib

/-! ## Reports and rows -/

structure ReapedClaim where
  claimId : String
  ownerTool : String
  scope : List String
  leaseExpiresAt : Option String
  reason : String
  ageDays : Option Int
  evidence : List String
  deriving DecidableEq

structure ReapedHandoff where
  handoffId : String
  fromTool : String
  target : Option String
  createdAt : String
  ageDays : Int
  deriving DecidableEq

/-- Who a machine-initiated write is credited to. -/
structure SystemActor where
  tool : String
  fromSessionId : Option String

/-- Which signals a pass may act on: the operator's, or lease expiry with observed death only. -/
inductive ReapMode
  | full | leaseOnly
  deriving DecidableEq

/-- What a pass runs with: the surroundings of its snapshot, and at each write the time, the budget, the
surroundings of the append boundary, what others add to the ledger first, and a lost answer, with whether the row
had landed. -/
structure ReapEnv where
  append : AppendEnv
  handoffExpirySecs : Int
  handoffNow : Int
  actor : SystemActor
  budgetSpent : Nat → Bool
  createdAt : Nat → String
  boundary : Nat → AppendEnv
  meanwhile : Nat → List Fact → List Fact
  outcomeUnknown : Nat → Option Bool

def stableReaperEventId (action target : String) : String :=
  "reaper-" ++ action ++ "-" ++
    hex16 ((utf8Bytes action ++ [0] ++ utf8Bytes target).foldl fnvStep 0xcbf29ce484222325)

def asSignal : ObservedLiveness → Option Bool
  | .live => some true
  | .stale | .staleUnobserved => some false
  | .unknown => none

def authorizesAutomaticReap (observed : ObservedLiveness) : Bool := observed == .stale

def observedStr : ObservedLiveness → String
  | .live => "live"
  | .stale => "stale"
  | .staleUnobserved => "stale-unobserved"
  | .unknown => "unknown"

/-- `is_live` of an observation and no other signal. -/
def observedVerdict (observed : ObservedLiveness) : Liveness :=
  match asSignal observed with
  | some true => .live
  | some false => .stale
  | none => .unknown

/-- Two hours of silence. -/
def takeoverStaleSecs : Int := 2 * 60 * 60

def takeoverEligibleOwners (ext : Externals) (snapshot : RoomSnapshot) (now : Int) : List String :=
  sortDedup ((snapshot.squads.filter fun sq => match ext.parseFromRfc3339 sq.lastSeenTs with
    | some seen => decide (unixSecs now - timestamp seen > takeoverStaleSecs)
    | none => false).map (·.tool))

/-! ## What the pass makes of one claim -/

structure ReapVerdict where
  observed : ObservedLiveness
  ownerEligible : Bool
  leaseEligible : Bool
  noLeaseAge : Option Int

namespace ReapVerdict

/-- The automatic pass drops the signal of the owner's silence and asks for a death that was observed. -/
def eligible (mode : ReapMode) (v : ReapVerdict) : Bool :=
  match mode with
  | .full => v.ownerEligible || v.leaseEligible || v.noLeaseAge.isSome
  | .leaseOnly => v.leaseEligible && observedVerdict v.observed == .stale && authorizesAutomaticReap v.observed

/-- An eligible verdict has a reason; the last arm is the source's `unreachable!`. -/
def reason (v : ReapVerdict) : String :=
  if !v.ownerEligible && !v.leaseEligible && v.noLeaseAge.isSome then "no-lease-over-age"
  else match v.ownerEligible, v.leaseEligible with
    | true, true => "owner-stale+lease-expired"
    | true, false => "owner-stale"
    | false, true => "lease-expired"
    | false, false => ""

end ReapVerdict

section Pass

variable (env : ReapEnv)

def passMaxAgeDays (mode : ReapMode) : Option Int :=
  if mode == .full then noLeaseMaxAgeDays env.append.ext else none

def reapVerdict (room : RoomSnapshot) (mode : ReapMode) (claim : Fact) : ReapVerdict :=
  let leaseEligible := match leaseBoundary env.append claim with
    | some expires => decide (expires ≤ env.append.now)
    | none => false
  let observed :=
    if leaseEligible then env.append.observed.forClaimSince claim.tool claim.fromSessionId
      (leaseBoundary env.append claim)
    else env.append.observed.forClaim claim.tool claim.fromSessionId
  { observed := observed
    -- a claim of a session is never judged by the silence of its tool
    ownerEligible := if claim.fromSessionId.isSome then observed.isStale
      else (room.claimReclaimEligible env.append.ext claim env.append.coord env.append.now).1
    leaseEligible := leaseEligible
    noLeaseAge := noLeaseOverAge env.append.ext claim.createdAt (leaseExpiresAt claim) env.append.now
      (passMaxAgeDays env mode) }

def reapedClaim (mode : ReapMode) (v : ReapVerdict) (claim : Fact) : ReapedClaim where
  claimId := claim.eventId
  ownerTool := claim.tool.getD ""
  scope := claim.scope
  leaseExpiresAt := leaseExpiresAt claim
  reason := v.reason
  ageDays := v.noLeaseAge
  evidence := if v.reason = "no-lease-over-age" then
      ["reaper:max_age_days=" ++ toString ((passMaxAgeDays env mode).getD 0)]
    else []

/-- The row that closes a claim. -/
def claimExpiredFact (mode : ReapMode) (v : ReapVerdict) (claim : Fact) (createdAt : String) : Fact where
  fromSessionId := env.actor.fromSessionId
  eventId := stableReaperEventId "claim-expired" claim.eventId
  threadId := stableReaperEventId "claim-thread" claim.eventId
  kind := .claimExpired
  tool := some env.actor.tool
  role := some systemRole
  subject := "reaper: claim " ++ claim.eventId ++ " expired (reason=" ++ v.reason ++ ", owner: " ++
    claim.tool.getD "unknown" ++ ")"
  scope := claim.scope
  createdAt := createdAt
  summary := some ("reaper:reason=" ++ v.reason)
  evidence := (reapedClaim env mode v claim).evidence ++
    ["reaper:ref_id=" ++ claim.eventId, "reaper:reason=" ++ v.reason, "reaper:observed=" ++ observedStr v.observed,
      "reaper:owner=" ++ claim.tool.getD "unknown",
      "reaper:owner_session=" ++ claim.fromSessionId.getD "legacy"]
  refId := some claim.eventId

/-! ## The pass -/

/-- The ledger and the counters as the loops leave them; `rows` are the rows that reached the ledger. -/
structure ReapPass where
  ledger : List Fact
  rows : List Fact := []
  claimsReaped : List ReapedClaim := []
  handoffsExpired : List ReapedHandoff := []
  leadRelinquished : Option String := none
  preserved : Nat := 0
  remaining : Nat := 0
  attemptedActions : Nat := 0
  writeFailures : Nat := 0

def autoReapMaxFacts : Nat := 200

def autoCandidateLimitReached (mode : ReapMode) (attemptedActions : Nat) : Bool :=
  mode == .leaseOnly && decide (autoReapMaxFacts ≤ attemptedActions)

/-- An action is left for another pass: the automatic cap, or a budget spent. A deliberate pass takes its first
action whatever the budget. -/
def leftForLater (mode : ReapMode) (attemptedActions : Nat) : Bool :=
  autoCandidateLimitReached mode attemptedActions ||
    (env.budgetSpent attemptedActions && (mode == .leaseOnly || decide (0 < attemptedActions)))

inductive ReaperAppendDisposition
  | committed | outcomeUnknown
  | refused (e : RallyError)

def committedRows : AppendOutcome → List Fact
  | .recorded _ => []
  | .committed f => [f]

/-- One append of the pass and `record_reaper_result`, behind what others wrote. -/
def appendRow (pass : ReapPass) (row : String → Fact) : ReapPass × ReaperAppendDisposition :=
  let attempt := pass.attemptedActions
  let ledger := pass.ledger ++ env.meanwhile attempt pass.ledger
  match appendFactUnderLock (env.boundary attempt) ledger (row (env.createdAt attempt)) with
  | .error e => ({ pass with ledger := ledger }, .refused e)
  | .ok outcome =>
    let landed :=
      { pass with ledger := outcome.ledger ledger, rows := pass.rows ++ committedRows outcome }
    match env.outcomeUnknown attempt with
    | none => (landed, .committed)
    | some true => (landed, .outcomeUnknown)
    | some false => ({ pass with ledger := ledger }, .outcomeUnknown)

/-- A row the boundary refuses for its age rule counts as kept, any other refusal as a failure. -/
def writeClaimExpired (mode : ReapMode) (v : ReapVerdict) (claim : Fact) (pass : ReapPass) : ReapPass :=
  match appendRow env pass (claimExpiredFact env mode v claim) with
  | (pass, .committed) => { pass with claimsReaped := pass.claimsReaped ++ [reapedClaim env mode v claim] }
  | (pass, .outcomeUnknown) => { pass with writeFailures := pass.writeFailures + 1 }
  | (pass, .refused e) =>
    if v.reason = "no-lease-over-age" ∧ containsStr "reap refused:" e.text = true then
      { pass with preserved := pass.preserved + 1 }
    else { pass with writeFailures := pass.writeFailures + 1 }

def reapClaim (apply : Bool) (mode : ReapMode) (room : RoomSnapshot) (pass : ReapPass) (claim : Fact) : ReapPass :=
  let v := reapVerdict env room mode claim
  if observedVerdict v.observed == .live || !v.eligible mode then { pass with preserved := pass.preserved + 1 }
  else if leftForLater env mode pass.attemptedActions then { pass with remaining := pass.remaining + 1 }
  else
    let pass := { pass with attemptedActions := pass.attemptedActions + 1 }
    if apply then writeClaimExpired env mode v claim pass
    else { pass with claimsReaped := pass.claimsReaped ++ [reapedClaim env mode v claim] }

/-- `TimeDelta::num_seconds`, which rounds toward zero. -/
def numSeconds (nanos : Int) : Int := nanos.tdiv 1000000000

/-- The age of a handoff past its lifetime; a handoff of unreadable age has none. -/
def expiredHandoffAge (handoff : Fact) : Option Int :=
  match env.append.ext.parseFromRfc3339 handoff.createdAt with
  | some created =>
    let ageSecs := numSeconds (env.handoffNow - created)
    if ageSecs < env.handoffExpirySecs then none else some ageSecs
  | none => none

def reapedHandoff (ageSecs : Int) (handoff : Fact) : ReapedHandoff where
  handoffId := handoff.eventId
  fromTool := handoff.tool.getD ""
  target := handoff.target
  createdAt := handoff.createdAt
  ageDays := ageSecs.tdiv 86400

/-- The row that closes a handoff. -/
def handoffExpiredFact (ageSecs : Int) (handoff : Fact) (createdAt : String) : Fact where
  fromSessionId := env.actor.fromSessionId
  eventId := stableReaperEventId "handoff-expired" handoff.eventId
  threadId := stableReaperEventId "handoff-thread" handoff.eventId
  kind := .resolve
  tool := some env.actor.tool
  role := some systemRole
  subject := "reaper: handoff " ++ handoff.eventId ++ " expired unanswered after " ++
    toString (ageSecs.tdiv 86400) ++ " days (from: " ++ handoff.tool.getD "unknown" ++ ", to: " ++
    handoff.target.getD "all" ++ ")"
  scope := handoff.scope
  createdAt := createdAt
  summary := some "reaper:reason=handoff-expired"
  evidence := ["reaper:ref_id=" ++ handoff.eventId, "reaper:reason=handoff-expired",
    "reaper:age_days=" ++ toString (ageSecs.tdiv 86400)]
  refId := some handoff.eventId

def reapHandoff (apply : Bool) (mode : ReapMode) (pass : ReapPass) (handoff : Fact) : ReapPass :=
  match expiredHandoffAge env handoff with
  | none => { pass with preserved := pass.preserved + 1 }
  | some ageSecs =>
    if leftForLater env mode pass.attemptedActions then { pass with remaining := pass.remaining + 1 }
    else
      let pass := { pass with attemptedActions := pass.attemptedActions + 1 }
      if apply then
        match appendRow env pass (handoffExpiredFact env ageSecs handoff) with
        | (pass, .committed) =>
          { pass with handoffsExpired := pass.handoffsExpired ++ [reapedHandoff ageSecs handoff] }
        | (pass, _) => { pass with writeFailures := pass.writeFailures + 1 }
      else { pass with handoffsExpired := pass.handoffsExpired ++ [reapedHandoff ageSecs handoff] }

/-- The row that vacates the seat of a stale lead. -/
def leadRelinquishFact (lead : String) (epoch : Int) (createdAt : String) : Fact where
  fromSessionId := env.actor.fromSessionId
  eventId := stableReaperEventId "lead-relinquished" (lead ++ ":" ++ toString epoch)
  threadId := stableReaperEventId "lead-thread" (lead ++ ":" ++ toString epoch)
  kind := .decision
  tool := some env.actor.tool
  role := some systemRole
  subject := leadRelinquishedSubject
  createdAt := createdAt
  summary := some ("reaper: lead " ++ lead ++ " relinquished (stale owner)")
  evidence := ["reaper:stale-lead=" ++ lead]

/-- The lead a snapshot shows as silent past the takeover bar. -/
def staleLead (room : RoomSnapshot) : Option String :=
  room.lead.filter (takeoverEligibleOwners env.append.ext room env.append.now).contains

def relinquishLead (apply : Bool) (mode : ReapMode) (room : RoomSnapshot) (pass : ReapPass) : ReapPass :=
  match staleLead env room with
  | none => pass
  | some lead =>
    if leftForLater env mode pass.attemptedActions then { pass with remaining := pass.remaining + 1 }
    else
      let pass := { pass with attemptedActions := pass.attemptedActions + 1 }
      if apply then
        match appendRow env pass (leadRelinquishFact env lead (room.leadEpoch.getD 0)) with
        | (pass, .committed) => { pass with leadRelinquished := some lead }
        | (pass, _) => { pass with writeFailures := pass.writeFailures + 1 }
      else { pass with leadRelinquished := some lead }

structure ReapReport where
  claimsReaped : List ReapedClaim
  handoffsExpired : List ReapedHandoff
  squadsIdleCleared : List String
  leadRelinquished : Option String
  preservedFutureOrActive : Nat
  remaining : Nat
  attemptedWrites : Nat
  writeFailures : Nat
  applied : Bool
  complete : Bool

def ReapPass.report (apply : Bool) (squadsIdleCleared : List String) (pass : ReapPass) : ReapReport where
  claimsReaped := pass.claimsReaped
  handoffsExpired := pass.handoffsExpired
  squadsIdleCleared := squadsIdleCleared
  leadRelinquished := pass.leadRelinquished
  preservedFutureOrActive := pass.preserved
  remaining := pass.remaining
  attemptedWrites := if apply then pass.attemptedActions else 0
  writeFailures := pass.writeFailures
  applied := apply && decide (0 < pass.attemptedActions) && pass.writeFailures == 0
  complete := apply && pass.remaining == 0 && pass.writeFailures == 0

/-- The loops of a pass over the room projected from a ledger. -/
def reapPass (apply : Bool) (mode : ReapMode) (F : List Fact) : ReapPass :=
  let room := env.append.snapshot F
  let claims := room.activeClaims.foldl (reapClaim env apply mode room) { ledger := F }
  if mode == .leaseOnly then claims
  else
    let handoffs :=
      if env.handoffExpirySecs > 0 then room.openHandoffs.foldl (reapHandoff env apply mode) claims else claims
    relinquishLead env apply mode room handoffs

/-- `run_reap_stale_in_room_with_budget`. -/
def runReapStaleInRoom (apply : Bool) (mode : ReapMode) (F : List Fact) : ReapReport :=
  (reapPass env apply mode F).report apply
    (if mode == .leaseOnly then []
      else takeoverEligibleOwners env.append.ext (env.append.snapshot F) env.append.now)

end Pass

/-! ## Rows of the system and the projections -/

/-- A row as a pass writes it: machine-initiated, withdrawing nothing, and of a kind that acts by `ref` or on the
lead seat. -/
structure IsReaperRow (n : Fact) : Prop where
  system : isSystemAuthored n = true
  plain : targetOf n = none
  kind : n.kind = .claimExpired ∨ n.kind = .resolve ∨ n.kind = .decision

namespace IsReaperRow

variable {n : Fact} (h : IsReaperRow n)
include h

/-- None of the kinds that open or renew a claim, sweep, carry a session or ask for an answer. -/
theorem kind_beq (k : FactKind) (hk : (k != .claimExpired && k != .resolve && k != .decision) = true) :
    (n.kind == k) = false := by
  rcases h.kind with hkind | hkind | hkind <;> rw [hkind] <;> revert hk <;> cases k <;> decide

/-- A row closes the claim it names and no other. -/
theorem refs_of_closes {c : Fact} (hcloses : closesClaim n c = true) :
    laterFactRefsClaim n c.eventId = true := by
  have hnotClose : isSessionCloseFact n = false := by
    simp [isSessionCloseFact, isSessionCloseAttempt, h.kind_beq .sessionClosed rfl, h.kind_beq .session rfl]
  simp only [closesClaim, laterReleaseOverlapsClaimScope, laterSessionCloseMatchesClaim, hnotClose,
    h.kind_beq .release rfl, Bool.false_and, Bool.or_false, Bool.and_eq_true] at hcloses
  exact hcloses.2

theorem not_addressed (ext : Externals) : factIsAddressedObligation ext n = false := by
  unfold factIsAddressedObligation
  split
  · rfl
  · rcases h.kind with hkind | hkind | hkind <;> simp [hkind]

theorem not_ack (o : Fact) : receiverAckClosesObligation o n = false := by
  by_contra hack
  have hparts := receiverAckClosesObligation_iff.mp (Bool.of_not_eq_false hack)
  simp [h.system] at hparts

end IsReaperRow

section Beside

variable {ext : Externals} {L : List Fact} {keep : Fact → Bool}
  (hrows : ∀ n ∈ L, keep n = false → IsReaperRow n)
include hrows

/-- What reads nothing off a row reads the same beside the rows. -/
theorem filterMap_beside {β : Type} {f : Fact → Option β} (hf : ∀ n, IsReaperRow n → f n = none) :
    (L.filter keep).filterMap f = L.filterMap f := by
  rw [List.filterMap_filter]
  refine List.filterMap_congr fun n hn => ?_
  cases hkeep : keep n with
  | true => rfl
  | false => exact (hf n (hrows n hn hkeep)).symm

theorem resolvedFacts_beside : resolvedFacts (L.filter keep) = (resolvedFacts L).filter keep := by
  have hids : retractedIds (L.filter keep) = retractedIds L := filterMap_beside hrows fun n hn => hn.plain
  rw [resolvedFacts_eq, resolvedFacts_eq, hids, dropIds, dropIds, List.filter_filter, List.filter_filter]
  exact List.filter_congr fun x _ => Bool.and_comm _ _

/-- No row is anybody's sign of life. -/
theorem authorLastSeen_beside : authorLastSeen (L.filter keep) = authorLastSeen L := by
  funext tool
  have hlast : toolLast (L.filter keep) tool = toolLast L tool := by
    rw [toolLast, toolLast, List.foldl_filter]
    refine List.foldl_ext _ _ _ fun entry n hn => ?_
    cases hkeep : keep n with
    | true => rfl
    | false => simp [toolLastStep, (hrows n hn hkeep).system]
  rw [authorLastSeen, authorLastSeen, hlast]

/-- No row answers for an agent, and none asks anything of one. -/
theorem openObligations_beside : projectOpenObligations ext (L.filter keep) = projectOpenObligations ext L := by
  have hacked : ∀ o, obligationIsAcked o (L.filter keep) = obligationIsAcked o L := by
    intro o
    rw [Bool.eq_iff_iff, obligationIsAcked_iff, obligationIsAcked_iff]
    constructor
    · rintro ⟨closer, hmem, hack⟩
      exact ⟨closer, (List.mem_filter.mp hmem).1, hack⟩
    · rintro ⟨closer, hmem, hack⟩
      refine ⟨closer, List.mem_filter.mpr ⟨hmem, Bool.of_not_eq_false fun hkeep => ?_⟩, hack⟩
      rw [(hrows closer hmem hkeep).not_ack o] at hack
      exact absurd hack (by simp)
  have hsame : (L.filter keep).filter (fun o => factIsAddressedObligation ext o && !obligationIsAcked o L) =
      L.filter fun o => factIsAddressedObligation ext o && !obligationIsAcked o L := by
    rw [List.filter_filter]
    refine List.filter_congr fun n hn => ?_
    cases hkeep : keep n with
    | true => rw [Bool.and_true]
    | false => simp [(hrows n hn hkeep).not_addressed ext]
  simp only [projectOpenObligations, hacked, hsame]

theorem projectEffectiveClaim_beside (c : Fact) :
    projectEffectiveClaim ext c (L.filter keep) = projectEffectiveClaim ext c L := by
  have hrenewals : (L.filter keep).filterMap (renewalOf ext c) = L.filterMap (renewalOf ext c) :=
    filterMap_beside hrows fun n hn => by simp [renewalOf, hn.kind_beq .claimRenewed rfl]
  simp only [projectEffectiveClaim, latestRenewal, hrenewals]

/-- **Claims beside the rows.** Rows open none, and close none they do not name. -/
theorem activeClaims_beside :
    (∀ c ∈ projectActiveClaims ext L, c ∈ projectActiveClaims ext (L.filter keep)) ∧
    ∀ c ∈ projectActiveClaims ext (L.filter keep), c ∉ projectActiveClaims ext L →
      ∃ x ∈ L, isLocalClaim x = true ∧ x.eventId = c.eventId ∧
        ∃ n ∈ L, keep n = false ∧ laterFactRefsClaim n c.eventId = true := by
  constructor
  · intro c hc
    obtain ⟨x, hx, hactive, rfl⟩ := mem_projectActiveClaims.mp hc
    simp only [isActiveClaimFact, Bool.and_eq_true, Bool.not_eq_true'] at hactive
    have hkeep : keep x = true := by
      refine Bool.of_not_eq_false fun hkeep => ?_
      have hlocal := hactive.1
      simp [isLocalClaim, (hrows x hx hkeep).kind_beq .claim rfl] at hlocal
    refine mem_projectActiveClaims.mpr
      ⟨x, List.mem_filter.mpr ⟨hx, hkeep⟩, ?_, (projectEffectiveClaim_beside hrows x).symm⟩
    simp only [isActiveClaimFact, Bool.and_eq_true, Bool.not_eq_true']
    refine ⟨hactive.1, List.any_eq_false.mpr fun n hn => ?_⟩
    exact List.any_eq_false.mp hactive.2 n (List.mem_filter.mp hn).1
  · intro c hc hgone
    obtain ⟨x, hx, hactive, rfl⟩ := mem_projectActiveClaims.mp hc
    have hxL := (List.mem_filter.mp hx).1
    simp only [isActiveClaimFact, Bool.and_eq_true, Bool.not_eq_true'] at hactive
    rw [projectEffectiveClaim_eventId]
    refine ⟨x, hxL, hactive.1, rfl, ?_⟩
    have hclosed : claimClosedByLaterFact x L = true := by
      refine Bool.of_not_eq_false fun hopen => hgone ?_
      rw [projectEffectiveClaim_beside hrows]
      exact mem_projectActiveClaims.mpr ⟨x, hxL, by simp [isActiveClaimFact, hactive.1, hopen], rfl⟩
    -- what closes the claim in the whole ledger is not among the others, so it is a row
    obtain ⟨n, hn, hcloses⟩ := List.any_eq_true.mp hclosed
    have hkeep : keep n = false := by
      refine Bool.of_not_eq_true fun hkeep => ?_
      exact List.any_eq_false.mp hactive.2 n (List.mem_filter.mpr ⟨hn, hkeep⟩) hcloses
    exact ⟨n, hn, hkeep, (hrows n hn hkeep).refs_of_closes hcloses⟩

/-- **Handoffs beside the rows.** Rows send none, and complete none they do not name. -/
theorem openHandoffs_beside :
    (∀ h ∈ projectOpenHandoffs L, h ∈ projectOpenHandoffs (L.filter keep)) ∧
    ∀ h ∈ projectOpenHandoffs (L.filter keep), h ∉ projectOpenHandoffs L →
      h ∈ L ∧ ∃ n ∈ L, keep n = false ∧ factClosesHandoff h n = true := by
  constructor
  · intro h hh
    obtain ⟨hmem, hkind, hrequest, hopen, hlocal⟩ := mem_projectOpenHandoffs.mp hh
    have hkeep : keep h = true := by
      refine Bool.of_not_eq_false fun hkeep => ?_
      have hrow := (hrows h hmem hkeep).kind_beq .handoff rfl
      simp [hkind] at hrow
    exact mem_projectOpenHandoffs.mpr ⟨List.mem_filter.mpr ⟨hmem, hkeep⟩, hkind, hrequest,
      fun closer hcloser => hopen closer (List.mem_filter.mp hcloser).1, hlocal⟩
  · intro h hh hgone
    obtain ⟨hmem, hkind, hrequest, hopen, hlocal⟩ := mem_projectOpenHandoffs.mp hh
    have hmemL := (List.mem_filter.mp hmem).1
    refine ⟨hmemL, ?_⟩
    by_contra hnone
    refine hgone (mem_projectOpenHandoffs.mpr ⟨hmemL, hkind, hrequest, fun closer hcloser => ?_, hlocal⟩)
    cases hkeep : keep closer with
    | true => exact hopen closer (List.mem_filter.mpr ⟨hcloser, hkeep⟩)
    | false => exact Bool.of_not_eq_true fun hcloses => hnone ⟨closer, hcloser, hkeep, hcloses⟩

end Beside

/-! ## What one action writes -/

/-- A claim the snapshot has and the pass may close. -/
structure DecidedClaim (env : ReapEnv) (mode : ReapMode) (room : RoomSnapshot) (claim : Fact) : Prop where
  active : claim ∈ room.activeClaims
  eligible : (reapVerdict env room mode claim).eligible mode = true
  notLive : observedVerdict (reapVerdict env room mode claim).observed ≠ .live

/-- A handoff the snapshot has open, past its lifetime. -/
structure DecidedHandoff (env : ReapEnv) (mode : ReapMode) (room : RoomSnapshot) (ageSecs : Int)
    (handoff : Fact) : Prop where
  full : mode = .full
  opened : handoff ∈ room.openHandoffs
  lifetime : 0 < env.handoffExpirySecs
  past : expiredHandoffAge env handoff = some ageSecs

/-- A committed row of a pass. -/
inductive RowOf (env : ReapEnv) (mode : ReapMode) (room : RoomSnapshot) : Fact → Prop
  | claim {claim : Fact} (h : DecidedClaim env mode room claim) (createdAt : String) (seq : Int) :
    RowOf env mode room
      { claimExpiredFact env mode (reapVerdict env room mode claim) claim createdAt with seq := seq }
  | handoff {handoff : Fact} {ageSecs : Int} (h : DecidedHandoff env mode room ageSecs handoff)
    (createdAt : String) (seq : Int) :
    RowOf env mode room { handoffExpiredFact env ageSecs handoff createdAt with seq := seq }
  | lead {lead : String} (hmode : mode = .full) (hlead : staleLead env room = some lead)
    (createdAt : String) (seq : Int) :
    RowOf env mode room
      { leadRelinquishFact env lead (room.leadEpoch.getD 0) createdAt with seq := seq }

/-- No subject of a closing row is a retraction, whatever the names in it. -/
theorem targetOf_of_reaper {n : Fact} {rest : String} (hsubject : n.subject = "reaper: " ++ rest) :
    targetOf n = none :=
  targetOf_of_opening hsubject ⟨'r', _, rfl, by decide⟩ fun more => by rw [startsWith, String.toList_append]; rfl

theorem subject_claimExpiredFact (env : ReapEnv) (mode : ReapMode) (v : ReapVerdict) (claim : Fact)
    (createdAt : String) :
    (claimExpiredFact env mode v claim createdAt).subject =
      "reaper: " ++ ("claim " ++ (claim.eventId ++ (" expired (reason=" ++ (v.reason ++ (", owner: " ++
        (claim.tool.getD "unknown" ++ ")")))))) := by
  rw [show "reaper: " ++ ("claim " ++ _) = "reaper: claim " ++ _ from (String.append_assoc ..).symm]
  simp only [claimExpiredFact, String.append_assoc]

theorem subject_handoffExpiredFact (env : ReapEnv) (ageSecs : Int) (handoff : Fact) (createdAt : String) :
    (handoffExpiredFact env ageSecs handoff createdAt).subject =
      "reaper: " ++ ("handoff " ++ (handoff.eventId ++ (" expired unanswered after " ++
        (toString (ageSecs.tdiv 86400) ++ (" days (from: " ++ (handoff.tool.getD "unknown" ++ (", to: " ++
          (handoff.target.getD "all" ++ ")")))))))) := by
  rw [show "reaper: " ++ ("handoff " ++ _) = "reaper: handoff " ++ _ from (String.append_assoc ..).symm]
  simp only [handoffExpiredFact, String.append_assoc]

theorem RowOf.isReaperRow {env : ReapEnv} {mode : ReapMode} {room : RoomSnapshot} {n : Fact}
    (h : RowOf env mode room n) : IsReaperRow n := by
  rcases h with ⟨_, createdAt, seq⟩ | ⟨_, createdAt, seq⟩ | ⟨_, _, createdAt, seq⟩
  · exact ⟨rfl, targetOf_of_reaper (subject_claimExpiredFact env mode _ _ createdAt), Or.inl rfl⟩
  · exact ⟨rfl, targetOf_of_reaper (subject_handoffExpiredFact env _ _ createdAt), Or.inr (Or.inl rfl)⟩
  · refine ⟨rfl, ?_, Or.inr (Or.inr rfl)⟩
    exact targetOf_of_plain (by show startsWith subjectPrefix (trim leadRelinquishedSubject) = false; decide)

/-! ## The loops -/

section Loops

variable {env : ReapEnv} {apply : Bool} {mode : ReapMode} {room : RoomSnapshot} {F : List Fact}

/-- What a pass has done to the ledger so far. -/
structure PassOk (env : ReapEnv) (mode : ReapMode) (room : RoomSnapshot) (F : List Fact) (pass : ReapPass) :
    Prop where
  isLedger : IsLedger pass.ledger
  start : ∀ x ∈ F, x ∈ pass.ledger
  others : ∀ x ∈ pass.ledger, x ∈ F ∨ (∃ k L, x ∈ env.meanwhile k L) ∨ x ∈ pass.rows
  rows : ∀ n ∈ pass.rows, n ∈ pass.ledger ∧ RowOf env mode room n

/-- Counters and reports are nothing the ledger shows. -/
theorem PassOk.same {pass counted : ReapPass} (h : PassOk env mode room F pass)
    (hledger : counted.ledger = pass.ledger) (hrows : counted.rows = pass.rows) :
    PassOk env mode room F counted := by
  refine ⟨?_, ?_, ?_, ?_⟩ <;> rw [hledger]
  · exact h.isLedger
  · exact h.start
  · rw [hrows]
    exact h.others
  · rw [hrows]
    exact h.rows

section Writes

variable (hmeanwhile : ∀ k L, IsLedger L → IsLedger (L ++ env.meanwhile k L))
include hmeanwhile

theorem PassOk.appendRow {pass : ReapPass} (h : PassOk env mode room F pass) {row : String → Fact}
    (hrow : ∀ createdAt seq, RowOf env mode room { row createdAt with seq := seq }) :
    PassOk env mode room F (appendRow env pass row).1 := by
  have hothers : PassOk env mode room F
      { pass with ledger := pass.ledger ++ env.meanwhile pass.attemptedActions pass.ledger } := by
    refine ⟨hmeanwhile _ _ h.isLedger, fun x hx => List.mem_append_left _ (h.start x hx), fun x hx => ?_,
      fun n hn => ⟨List.mem_append_left _ (h.rows n hn).1, (h.rows n hn).2⟩⟩
    rcases List.mem_append.mp hx with hx | hx
    · exact h.others x hx
    · exact Or.inr (Or.inl ⟨_, _, hx⟩)
  unfold Reaper.appendRow
  dsimp only
  cases happend : appendFactUnderLock (env.boundary pass.attemptedActions)
      (pass.ledger ++ env.meanwhile pass.attemptedActions pass.ledger)
      (row (env.createdAt pass.attemptedActions)) with
  | error e => exact hothers
  | ok outcome =>
    have hlanded : PassOk env mode room F
        { pass with
          ledger := outcome.ledger (pass.ledger ++ env.meanwhile pass.attemptedActions pass.ledger)
          rows := pass.rows ++ committedRows outcome } := by
      cases outcome with
      | recorded _ => simpa [AppendOutcome.ledger, committedRows] using hothers
      | committed f =>
        have hledger := (AppendStep.isLedger ⟨_, _, rfl, happend⟩ hothers.isLedger).1
        obtain ⟨-, -, -, -, -, -, rfl⟩ := appendFactUnderLock_committed_iff.mp happend
        refine ⟨hledger, fun x hx => List.mem_append_left _ (hothers.start x hx), fun x hx => ?_, fun n hn => ?_⟩
        · rcases List.mem_append.mp hx with hx | hx
          · rcases hothers.others x hx with hF | hmeanwhile | hold
            · exact Or.inl hF
            · exact Or.inr (Or.inl hmeanwhile)
            · exact Or.inr (Or.inr (List.mem_append_left _ hold))
          · exact Or.inr (Or.inr (List.mem_append_right _ hx))
        · rcases List.mem_append.mp hn with hold | hnew
          · exact ⟨List.mem_append_left _ (hothers.rows n hold).1, (hothers.rows n hold).2⟩
          · refine ⟨List.mem_append_right _ hnew, ?_⟩
            rw [List.mem_singleton.mp hnew]
            exact hrow _ _
    cases env.outcomeUnknown pass.attemptedActions with
    | none => exact hlanded
    | some landed => cases landed with
      | true => exact hlanded
      | false => exact hothers

theorem PassOk.reapClaim {pass : ReapPass} (h : PassOk env mode room F pass) {claim : Fact}
    (hactive : claim ∈ room.activeClaims) : PassOk env mode room F (reapClaim env apply mode room pass claim) := by
  unfold Reaper.reapClaim
  dsimp only
  split
  · exact h.same rfl rfl
  · rename_i hdecided
    simp only [Bool.or_eq_true, beq_iff_eq, Bool.not_eq_true', not_or, Bool.not_eq_false] at hdecided
    have hclaim : DecidedClaim env mode room claim := ⟨hactive, hdecided.2, hdecided.1⟩
    split
    · exact h.same rfl rfl
    · split
      · have hattempt : PassOk env mode room F { pass with attemptedActions := pass.attemptedActions + 1 } :=
          h.same rfl rfl
        have hwrite := hattempt.appendRow hmeanwhile fun createdAt seq => RowOf.claim hclaim createdAt seq
        unfold writeClaimExpired
        revert hwrite
        rcases Reaper.appendRow env { pass with attemptedActions := pass.attemptedActions + 1 }
          (claimExpiredFact env mode (reapVerdict env room mode claim) claim) with ⟨written, committed | lost | e⟩
        · exact fun hwrite => hwrite.same rfl rfl
        · exact fun hwrite => hwrite.same rfl rfl
        · intro hwrite
          dsimp only
          split <;> exact hwrite.same rfl rfl
      · exact h.same rfl rfl

theorem PassOk.reapHandoff {pass : ReapPass} (h : PassOk env mode room F pass) (hfull : mode = .full)
    (hlifetime : 0 < env.handoffExpirySecs) {handoff : Fact} (hopened : handoff ∈ room.openHandoffs) :
    PassOk env mode room F (reapHandoff env apply mode pass handoff) := by
  unfold Reaper.reapHandoff
  cases hage : expiredHandoffAge env handoff with
  | none => exact h.same rfl rfl
  | some ageSecs =>
    dsimp only
    split
    · exact h.same rfl rfl
    · split
      · have hattempt : PassOk env mode room F { pass with attemptedActions := pass.attemptedActions + 1 } :=
          h.same rfl rfl
        have hwrite := hattempt.appendRow hmeanwhile fun createdAt seq =>
          RowOf.handoff ⟨hfull, hopened, hlifetime, hage⟩ createdAt seq
        revert hwrite
        rcases Reaper.appendRow env { pass with attemptedActions := pass.attemptedActions + 1 }
          (handoffExpiredFact env ageSecs handoff) with ⟨written, committed | lost | e⟩ <;>
          exact fun hwrite => hwrite.same rfl rfl
      · exact h.same rfl rfl

theorem PassOk.relinquishLead {pass : ReapPass} (h : PassOk env mode room F pass) (hfull : mode = .full) :
    PassOk env mode room F (relinquishLead env apply mode room pass) := by
  unfold Reaper.relinquishLead
  cases hlead : staleLead env room with
  | none => exact h
  | some lead =>
    dsimp only
    split
    · exact h.same rfl rfl
    · split
      · have hattempt : PassOk env mode room F { pass with attemptedActions := pass.attemptedActions + 1 } :=
          h.same rfl rfl
        have hwrite := hattempt.appendRow hmeanwhile fun createdAt seq => RowOf.lead hfull hlead createdAt seq
        revert hwrite
        rcases Reaper.appendRow env { pass with attemptedActions := pass.attemptedActions + 1 }
          (leadRelinquishFact env lead (room.leadEpoch.getD 0)) with ⟨written, committed | lost | e⟩ <;>
          exact fun hwrite => hwrite.same rfl rfl
      · exact h.same rfl rfl

/-- One pass, from the snapshot it decides on. -/
theorem passOk_reapPass (hF : IsLedger F) :
    PassOk env mode (env.append.snapshot F) F (reapPass env apply mode F) := by
  have hstart : PassOk env mode (env.append.snapshot F) F { ledger := F } :=
    ⟨hF, fun _ hx => hx, fun _ hx => Or.inl hx, fun _ hn => absurd hn List.not_mem_nil⟩
  have hclaims := List.foldlRecOn (env.append.snapshot F).activeClaims
    (reapClaim env apply mode (env.append.snapshot F)) hstart
    fun _ hpass _ hclaim => hpass.reapClaim hmeanwhile hclaim
  unfold reapPass
  dsimp only
  split
  · exact hclaims
  · rename_i hmode
    have hfull : mode = .full := by cases mode <;> simp_all
    split
    · rename_i hlifetime
      have hhandoffs := List.foldlRecOn (env.append.snapshot F).openHandoffs (reapHandoff env apply mode) hclaims
        fun _ hpass _ hhandoff => hpass.reapHandoff hmeanwhile hfull hlifetime hhandoff
      exact hhandoffs.relinquishLead hmeanwhile hfull
    · exact hclaims.relinquishLead hmeanwhile hfull

end Writes

end Loops

/-! ## The ledger a pass leaves, beside the same ledger without its rows -/

/-- The ledger of the pass as it would stand without the rows of the pass. -/
def ReapPass.others (pass : ReapPass) : List Fact := pass.ledger.filter fun x => decide (x ∉ pass.rows)

section Spared

variable {env : ReapEnv} {apply : Bool} {mode : ReapMode} {F : List Fact}

/-- A row that names an item by `ref` closes a decided claim or a decided handoff. -/
theorem RowOf.of_refId {room : RoomSnapshot} {n : Fact} (h : RowOf env mode room n) {id : String}
    (href : n.refId = some id) :
    (n.kind = .claimExpired ∧ ∃ claim, DecidedClaim env mode room claim ∧ claim.eventId = id) ∨
      (n.kind = .resolve ∧ ∃ handoff ageSecs,
        DecidedHandoff env mode room ageSecs handoff ∧ handoff.eventId = id) := by
  rcases h with ⟨hclaim, _, _⟩ | ⟨hhandoff, _, _⟩ | ⟨_, _, _, _⟩
  · exact Or.inl ⟨rfl, _, hclaim, Option.some.inj href⟩
  · exact Or.inr ⟨rfl, _, _, hhandoff, Option.some.inj href⟩
  · exact absurd href (by simp [leadRelinquishFact])

theorem decidedHandoff_mem {ageSecs : Int} {handoff : Fact}
    (h : DecidedHandoff env mode (env.append.snapshot F) ageSecs handoff) :
    handoff ∈ F ∧ handoff.kind = .handoff := by
  obtain ⟨hmem, hkind, -⟩ := mem_projectOpenHandoffs.mp h.opened
  exact ⟨(mem_resolvedFacts.mp hmem).1, hkind⟩

end Spared

/-- **What a pass may change.** Its rows close claims of the snapshot that were judged over and not seen alive,
close open handoffs past their lifetime, or vacate the seat of a silent lead; the rest of the ledger it leaves was
there or was written by others meanwhile. Beside that rest, at any later reading, a claim or handoff that no longer
shows is one of those, nothing new shows, every obligation stands, and nobody's sign of life has moved. -/
theorem reap_spares {env : ReapEnv} {apply : Bool} {mode : ReapMode} {F : List Fact}
    (hF : IsLedger F) (hmeanwhile : ∀ k L, IsLedger L → IsLedger (L ++ env.meanwhile k L)) :
    let room := env.append.snapshot F
    let pass := reapPass env apply mode F
    (∀ n ∈ pass.rows, RowOf env mode room n) ∧
    (∀ x ∈ pass.others, x ∈ F ∨ ∃ k L, x ∈ env.meanwhile k L) ∧
    ∀ reader : AppendEnv,
      let after := reader.snapshot pass.ledger
      let without := reader.snapshot pass.others
      (∀ c ∈ after.activeClaims, c ∈ without.activeClaims) ∧
      (∀ c ∈ without.activeClaims, c ∉ after.activeClaims →
        ∃ claim, DecidedClaim env mode room claim ∧ claim.eventId = c.eventId) ∧
      (∀ h ∈ after.openHandoffs, h ∈ without.openHandoffs) ∧
      (∀ h ∈ without.openHandoffs, h ∉ after.openHandoffs → ∃ ageSecs, DecidedHandoff env mode room ageSecs h) ∧
      after.openObligations = without.openObligations ∧ after.authorLastSeen = without.authorLastSeen := by
  intro room pass
  have hok : PassOk env mode room F pass := passOk_reapPass hmeanwhile hF
  have hunique : ∀ x ∈ pass.ledger, ∀ y ∈ pass.ledger, x.eventId = y.eventId → x = y :=
    fun x hx y hy hid => List.inj_on_of_nodup_map hok.isLedger.distinctIds hx hy hid
  have hrowOf : ∀ n, decide (n ∉ pass.rows) = false → RowOf env mode room n :=
    fun n hkeep => (hok.rows n (by simpa using hkeep)).2
  refine ⟨fun n hn => (hok.rows n hn).2, fun x hx => ?_, fun reader => ?_⟩
  · obtain ⟨hmem, hkeep⟩ := List.mem_filter.mp hx
    rcases hok.others x hmem with hF | hmeanwhile | hrow
    · exact Or.inl hF
    · exact Or.inr hmeanwhile
    · exact absurd hrow (of_decide_eq_true hkeep)
  · intro after without
    -- both rooms are read off resolved facts, which differ by rows of the pass only
    have hresolved : resolvedFacts pass.others = (resolvedFacts pass.ledger).filter fun x => decide (x ∉ pass.rows) :=
      resolvedFacts_beside fun n _ hkeep => (hrowOf n hkeep).isReaperRow
    have hrows : ∀ n ∈ resolvedFacts pass.ledger, decide (n ∉ pass.rows) = false → IsReaperRow n :=
      fun n _ hkeep => (hrowOf n hkeep).isReaperRow
    have hclaims := @activeClaims_beside reader.ext _ _ hrows
    have hhandoffs := openHandoffs_beside hrows
    rw [← hresolved] at hclaims hhandoffs
    refine ⟨hclaims.1, fun c hc hgone => ?_, hhandoffs.1, fun h hh hgone => ?_, ?_, ?_⟩
    · obtain ⟨x, hx, hlocal, hid, n, hn, hkeep, href⟩ := hclaims.2 c hc hgone
      simp only [laterFactRefsClaim, Bool.and_eq_true, beq_iff_eq] at href
      rcases (hrowOf n hkeep).of_refId href.2 with ⟨-, hclaim⟩ | ⟨-, handoff, ageSecs, hdecided, hhandoff⟩
      · exact hclaim
      · -- an id names one row of the ledger, and a handoff is no claim
        obtain ⟨hmem, hkind⟩ := decidedHandoff_mem hdecided
        obtain rfl := hunique x (mem_resolvedFacts.mp hx).1 handoff (hok.start handoff hmem) (hid.trans hhandoff.symm)
        simp [isLocalClaim, hkind] at hlocal
    · obtain ⟨hmemL, n, hn, hkeep, hcloses⟩ := hhandoffs.2 h hh hgone
      simp only [factClosesHandoff, Bool.and_eq_true, beq_iff_eq] at hcloses
      rcases (hrowOf n hkeep).of_refId hcloses.1.2 with ⟨hkind, -⟩ | ⟨-, handoff, ageSecs, hdecided, hhandoff⟩
      · exact absurd hcloses.1.1.1 (by simp [hkind, isCompletionKind])
      · obtain ⟨hmem, -⟩ := decidedHandoff_mem hdecided
        obtain rfl := hunique handoff (hok.start handoff hmem) h (mem_resolvedFacts.mp hmemL).1 hhandoff
        exact ⟨ageSecs, hdecided⟩
    · show projectOpenObligations reader.ext (resolvedFacts pass.ledger) =
        projectOpenObligations reader.ext (resolvedFacts pass.others)
      rw [hresolved, openObligations_beside hrows]
    · show authorLastSeen (resolvedFacts pass.ledger) = authorLastSeen (resolvedFacts pass.others)
      rw [hresolved, authorLastSeen_beside hrows]

/-- Forty days on there are a claim without a lease and a handoff nobody answered; before the first write of the
pass the receiver answers. -/
def fortyDays : AppendEnv := { AppendEnv.sample with now := 1767225600000000000 + 40 * 86400 * 1000000000 }

def oldHandoff : Fact :=
  { eventId := "h1", seq := 3, kind := .handoff, tool := some "alice", fromSessionId := some "sess:alice"
    target := some "bob", subject := "review the parser", createdAt := "2026-01-01T00:00:00Z" }

def oldLedger : List Fact := [midnightClaim, noonPresence, oldHandoff]

def bobsAnswer (seq : Int) : Fact :=
  { eventId := "a1", seq := seq, kind := .receipt, tool := some "bob", fromSessionId := some "sess:bob"
    subject := "reviewed", refId := some "h1", createdAt := "2026-02-10T00:00:00Z" }

def fortyDayPass : ReapEnv where
  append := fortyDays
  handoffExpirySecs := 30 * 86400
  handoffNow := fortyDays.now
  actor := ⟨"rally", none⟩
  budgetSpent _ := false
  createdAt _ := "2026-02-10T00:00:00Z"
  boundary _ := fortyDays
  meanwhile _ L := if "a1" ∈ L.map (·.eventId) then [] else [bobsAnswer (canonicalMaxSeq L + 1)]
  outcomeUnknown _ := none

theorem isLedger_meanwhile (k : Nat) (L : List Fact) (h : IsLedger L) :
    IsLedger (L ++ fortyDayPass.meanwhile k L) := by
  show IsLedger (L ++ if "a1" ∈ L.map (·.eventId) then [] else [bobsAnswer (canonicalMaxSeq L + 1)])
  split
  · rwa [List.append_nil]
  · rename_i hfresh
    refine h.append hfresh (fun x hx => Int.lt_add_one_of_le (h.le_canonicalMaxSeq x hx)) ?_
    have := h.canonicalMaxSeq_nonneg
    show 0 < canonicalMaxSeq L + 1
    omega

/-- The pass leaves bob's obligation to his own answer. -/
theorem reap_spares_forty_days :
    let pass := reapPass fortyDayPass true .full oldLedger
    (fortyDays.snapshot pass.ledger).openObligations = (fortyDays.snapshot pass.others).openObligations ∧
      ∀ x ∈ pass.others, x ∈ oldLedger ∨ ∃ k L, x ∈ fortyDayPass.meanwhile k L := by
  have hstart : IsLedger oldLedger := ⟨by decide, by decide, by decide⟩
  have h := @reap_spares fortyDayPass true .full oldLedger hstart isLedger_meanwhile
  exact ⟨(h.2.2 fortyDays).2.2.2.2.1, h.2.1⟩

end RallyPoint.Reaper
