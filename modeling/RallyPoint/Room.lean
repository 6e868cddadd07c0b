/-
# RallyPoint.Room — the room projection (`store.rs`, `snapshot_from_facts_with_policy_at`).

The room is a pure function of the ledger, a policy and a clock. Withdrawn facts are dropped once, at the
top, and every bucket is computed from what is left; the buckets are then what the write gates consult, so
the projection is an authority and not only a view. Kept here are the buckets some gate or answer reads:
claims, blockers, handoffs, obligations, risks, health rows, artifacts, the roster, the seat and the freeze.

The record is built from one definition per bucket. A proof about one bucket never looks at another.
-/
import RallyPoint.Liveness
import RallyPoint.Obligations

namespace RallyPoint

open Lib

/-! ## Records -/

/-- One roster row. -/
structure Squad where
  tool : String
  lastSeenSeq : Int
  lastSeenTs : String
  status : String
  acknowledged : Bool
  ageSecs : Option Int
  windowSecs : Int
  freshness : String
  deriving DecidableEq, Repr

/-- The room as projected; `authorLastSeen` is the map of authored timestamps. -/
structure RoomSnapshot where
  maxSeq : Int
  contentMaxSeq : Int
  lastActivityTs : Option String
  activeClaims : List Fact
  activeBlockers : List Fact
  openHandoffs : List Fact
  openObligations : List Fact
  currentRisks : List Fact
  systemHealth : List Fact
  recentArtifacts : List Fact
  unconsumedArtifacts : List Fact
  squads : List Squad
  lead : Option String
  leadEpoch : Option Int
  roomFreezeId : Option String
  mission : Option String
  authorLastSeen : String → Option String

/-! ## Buckets over the resolved facts -/

/-- Refs of the kinds that resolve a blocker or a risk. -/
def resolvedRefs (facts : List Fact) : List String :=
  (facts.filter fun f =>
    f.kind == .resolve || f.kind == .release || f.kind == .receipt || f.kind == .claimExpired).filterMap
      (·.refId)

def projectActiveBlockers (facts : List Fact) : List Fact :=
  (facts.filter (·.kind == .blocker)).filter fun f => !(resolvedRefs facts).contains f.eventId

def projectOpenHandoffs (facts : List Fact) : List Fact :=
  ((facts.filter fun f => f.kind == .handoff && handoffIsProtocolRequest f).filter
    fun f => !(HandoffClosers.new facts).isClosed f).filter
      fun f => !f.scope.any (· == "external-intake")

/-- The machine prefixes that mark a risk row as telemetry. -/
def systemHealthSubjectPrefixes : List String :=
  ["external-intake:", "unmanaged-agent:", "duplicate-active-squad-id:", "binary-drift:"]

def systemHealthClass (subject : String) : Option String :=
  systemHealthSubjectPrefixes.find? fun pre => startsWith pre subject

/-- One row per telemetry class, the first met. -/
def dedupByHealthClass : List String → List Fact → List Fact
  | _, [] => []
  | seen, f :: rest =>
    match systemHealthClass f.subject with
    | some cls => if seen.contains cls then dedupByHealthClass seen rest
        else f :: dedupByHealthClass (cls :: seen) rest
    | none => dedupByHealthClass seen rest

/-- Refs that consume an artifact. -/
def consumedRefs (facts : List Fact) : List String :=
  (facts.filter fun f => f.kind == .handoff || f.kind == .resolve).filterMap (·.refId)

/-- Whether the author of an unscoped blocker held the seat as of the blocker's own sequence. -/
def isLeadFreeze (facts : List Fact) (b : Fact) : Bool :=
  b.tool.isSome && b.tool == leadAsOf facts b.seq

def projectRoomFreeze (facts : List Fact) : Option String :=
  (maxByKey (·.seq) (((projectActiveBlockers facts).filter (·.scope.isEmpty)).filter
    (isLeadFreeze facts))).map (·.eventId)

def projectMission (facts : List Fact) : Option String :=
  (maxByKey (·.seq) (facts.filter fun f =>
    f.kind == .mission && f.scope.any (· == "mission"))).map (·.subject)

def idleThresholdSecs : Int := 15 * 60

section Projection

variable (ext : Externals)

def projectActiveClaims (facts : List Fact) : List Fact :=
  (facts.filter (ClaimClosers.new facts).isActive).map fun fact => projectEffectiveClaim ext fact facts

section Decay

variable (coord : CoordinationConfig) (includeArchived : Bool) (nowSecs : Int)

def isArchived (fact : Fact) : Bool :=
  !includeArchived &&
    isArchivable (factRecencyWeight ext fact nowSecs coord.halfLifeSecs) coord.archiveFloorWeight

/-- Unresolved, undecayed risk rows: `health` selects the telemetry among them. -/
def projectRisks (facts : List Fact) (health : Bool) : List Fact :=
  sortByRecency ext
    (facts.filter fun f => f.kind == .risk && !(resolvedRefs facts).contains f.eventId &&
      !isArchived ext coord includeArchived nowSecs f && (systemHealthClass f.subject).isSome == health)
    nowSecs coord.halfLifeSecs

/-- Artifacts whose addressee, present in the room, still owes the answer; decay spares them. -/
def unackedObligationIds (facts : List Fact) : List String :=
  ((projectOpenObligations ext facts).filter fun f =>
    f.kind == .artifact && match f.target with
      | some target => (facts.filterMap (·.tool)).contains target
      | none => false).map (·.eventId)

def projectRecentArtifacts (facts : List Fact) : List Fact :=
  sortByRecency ext
    (facts.filter fun f => f.kind == .artifact && !f.scope.any (· == "external-intake") &&
      !(isArchived ext coord includeArchived nowSecs f &&
        !(unackedObligationIds ext facts).contains f.eventId))
    nowSecs coord.halfLifeSecs

/-- The roster row of one author; a provably stale one is dropped unless archives are asked for. -/
def squadOf (facts : List Fact) (tool : String) : Option Squad :=
  (toolLast facts tool).bind fun (seq, ts) =>
    let parsedSeenSecs := (ext.parseFromRfc3339 ts).map timestamp
    let heartbeatAge := nowSecs - parsedSeenSecs.getD nowSecs
    let window := adaptiveWindowSecs ((plannedCadence facts tool).getD coord.defaultCadenceSecs)
      coord.defaultCadenceSecs coord.missMultiplier coord.graceSecs
    let verdict := isLive
      [some heartbeatAge, newestFactAge ext facts nowSecs [.receipt, .wake, .handoff] tool,
        codeProgressAge ext facts nowSecs tool,
        planAge ext (projectActiveClaims ext facts) facts nowSecs tool] window
    if verdict == .stale && !includeArchived then none
    else some
      { tool := tool
        lastSeenSeq := seq
        lastSeenTs := ts
        status := if heartbeatAge ≤ idleThresholdSecs then "active" else "idle"
        acknowledged := (acknowledgedTools facts).contains tool
        ageSecs := parsedSeenSecs.map fun _ => heartbeatAge
        windowSecs := window
        freshness := match parsedSeenSecs with
          | some _ => if heartbeatAge > window then "stale" else "fresh"
          | none => "unknown" }

def projectSquads (facts : List Fact) : List Squad :=
  (authorTools facts).filterMap (squadOf ext coord includeArchived nowSecs facts)

/-- The room of a list of facts in which nothing is withdrawn any more. -/
def snapshotOfResolved (facts : List Fact) : RoomSnapshot where
  maxSeq := ((facts.map (·.seq)).max?).getD 0
  contentMaxSeq := (((facts.filter (·.kind != .read)).map (·.seq)).max?).getD 0
  lastActivityTs := (maxByKey (·.seq) facts).map (·.createdAt)
  activeClaims := projectActiveClaims ext facts
  activeBlockers := projectActiveBlockers facts
  openHandoffs := projectOpenHandoffs facts
  openObligations := projectOpenObligations ext facts
  currentRisks := projectRisks ext coord includeArchived nowSecs facts false
  systemHealth := dedupByHealthClass [] (projectRisks ext coord includeArchived nowSecs facts true)
  recentArtifacts := projectRecentArtifacts ext coord includeArchived nowSecs facts
  unconsumedArtifacts := (projectRecentArtifacts ext coord includeArchived nowSecs facts).filter
    fun f => !(consumedRefs facts).contains f.eventId
  squads := projectSquads ext coord includeArchived nowSecs facts
  lead := (leadAndEpochOf facts).1
  leadEpoch := (leadAndEpochOf facts).2
  roomFreezeId := projectRoomFreeze facts
  mission := projectMission facts
  authorLastSeen := authorLastSeen facts

end Decay

/-- The projection core: withdrawn facts leave every bucket here. -/
def snapshotFromFactsWithPolicyAt (facts : List Fact) (coord : CoordinationConfig)
    (includeArchived : Bool) (nowSecs : Int) : RoomSnapshot :=
  snapshotOfResolved ext coord includeArchived nowSecs (resolvedFacts facts)

/-- The projection as a writer at instant `now` reads it. -/
def snapshotFromFactsWithPolicy (facts : List Fact) (coord : CoordinationConfig)
    (includeArchived : Bool) (now : Int) : RoomSnapshot :=
  snapshotFromFactsWithPolicyAt ext facts coord includeArchived (unixSecs now)

end Projection

/-! ## Questions a gate asks the room -/

namespace RoomSnapshot

def squadFor (snapshot : RoomSnapshot) (tool : String) : Option Squad :=
  snapshot.squads.find? fun sq => sq.tool == tool

/-- Whether the owner of a claim has been silent past the timeout its scope sizes; unreadable is no. -/
def claimReclaimEligible (ext : Externals) (snapshot : RoomSnapshot) (claim : Fact)
    (coord : CoordinationConfig) (now : Int) : Bool × WorkSize :=
  let size := classifyWorkSize (claimScopes claim) claim.scope.length
  let timeout := reclaimTimeoutSecs size coord.reclaimSmallMinutes coord.reclaimLargeMinutes
  match claim.tool with
  | none => (false, size)
  | some owner =>
    -- the map of authored rows first; the roster may have dropped a stale owner
    let ownerLastSeen := (snapshot.authorLastSeen owner).or ((snapshot.squadFor owner).map (·.lastSeenTs))
    match ownerLastSeen.bind ext.parseFromRfc3339 with
    | some seen => (decide (unixSecs now - timestamp seen > timeout), size)
    | none => (false, size)

end RoomSnapshot

/-! ## Reading the buckets -/

section Reading

variable {ext : Externals} {facts : List Fact}

theorem mem_projectActiveClaims {c : Fact} :
    c ∈ projectActiveClaims ext facts ↔
      ∃ claim ∈ facts, isActiveClaimFact claim facts = true ∧
        c = projectEffectiveClaim ext claim facts := by
  simp only [projectActiveClaims, List.mem_map, List.mem_filter, ClaimClosers.isActive_eq, and_assoc,
    eq_comm]

/-- Projecting the effective lease rewrites evidence only. -/
@[simp] theorem projectEffectiveClaim_eventId (c : Fact) :
    (projectEffectiveClaim ext c facts).eventId = c.eventId := by
  unfold projectEffectiveClaim; split <;> rfl

@[simp] theorem projectEffectiveClaim_seq (c : Fact) :
    (projectEffectiveClaim ext c facts).seq = c.seq := by
  unfold projectEffectiveClaim; split <;> rfl

@[simp] theorem projectEffectiveClaim_tool (c : Fact) :
    (projectEffectiveClaim ext c facts).tool = c.tool := by
  unfold projectEffectiveClaim; split <;> rfl

@[simp] theorem projectEffectiveClaim_fromSessionId (c : Fact) :
    (projectEffectiveClaim ext c facts).fromSessionId = c.fromSessionId := by
  unfold projectEffectiveClaim; split <;> rfl

@[simp] theorem projectEffectiveClaim_scope (c : Fact) :
    (projectEffectiveClaim ext c facts).scope = c.scope := by
  unfold projectEffectiveClaim; split <;> rfl

@[simp] theorem projectEffectiveClaim_createdAt (c : Fact) :
    (projectEffectiveClaim ext c facts).createdAt = c.createdAt := by
  unfold projectEffectiveClaim; split <;> rfl

@[simp] theorem claimScopes_projectEffectiveClaim (c : Fact) :
    claimScopes (projectEffectiveClaim ext c facts) = claimScopes c := by
  simp [claimScopes]

variable {coord : CoordinationConfig} {includeArchived : Bool} {now : Int}

@[simp] theorem snapshot_activeClaims :
    (snapshotFromFactsWithPolicy ext facts coord includeArchived now).activeClaims =
      projectActiveClaims ext (resolvedFacts facts) := rfl

@[simp] theorem snapshot_activeBlockers :
    (snapshotFromFactsWithPolicy ext facts coord includeArchived now).activeBlockers =
      projectActiveBlockers (resolvedFacts facts) := rfl

@[simp] theorem snapshot_openObligations :
    (snapshotFromFactsWithPolicy ext facts coord includeArchived now).openObligations =
      projectOpenObligations ext (resolvedFacts facts) := rfl

@[simp] theorem snapshot_lead :
    (snapshotFromFactsWithPolicy ext facts coord includeArchived now).lead =
      leadOf (resolvedFacts facts) := rfl

@[simp] theorem snapshot_authorLastSeen :
    (snapshotFromFactsWithPolicy ext facts coord includeArchived now).authorLastSeen =
      authorLastSeen (resolvedFacts facts) := rfl

end Reading

/-! ## Claims and one more fact -/

/-- A claim the room shows as active. -/
def ActiveIn (facts : List Fact) (c : Fact) : Prop :=
  c ∈ resolvedFacts facts ∧ isActiveClaimFact c (resolvedFacts facts) = true

/-- Whether a fact is still in the resolved ledger right after its own append. -/
def survivesAppend (F : List Fact) (f : Fact) : Bool := !(retractedIds (F ++ [f])).contains f.eventId

/-- Whether a fact closes a claim by being appended. -/
def closesOnAppend (F : List Fact) (f c : Fact) : Bool := survivesAppend F f && closesClaim f c

section Growth

variable {F : List Fact} {f c : Fact}

theorem survivesAppend_iff : survivesAppend F f = true ↔ f ∈ resolvedFacts (F ++ [f]) := by
  simp [survivesAppend]

theorem closesClaim_seq (h : closesClaim f c = true) : c.seq < f.seq := by
  simp only [closesClaim, Bool.and_eq_true, decide_eq_true_eq] at h
  exact h.1

/-- **Which old claims the room shows after an append:** those not withdrawn by it, not closed by it, and
closed before it, if at all, only by the fact it withdraws. -/
theorem activeIn_append_of_mem (hc : c ∈ F) :
    ActiveIn (F ++ [f]) c ↔
      c ∈ resolvedFacts F ∧ targetOf f ≠ some c.eventId ∧ isLocalClaim c = true ∧
        closesOnAppend F f c = false ∧
        ∀ x ∈ resolvedFacts F, closesClaim x c = true → targetOf f = some x.eventId := by
  unfold ActiveIn
  rw [mem_resolvedFacts_append_of_mem hc, isActiveClaimFact_iff]
  constructor
  · rintro ⟨⟨hmem, htarget⟩, hlocal, hopen⟩
    refine ⟨hmem, htarget, hlocal, ?_, fun x hx hclose => ?_⟩
    · cases hs : survivesAppend F f with
      | false => simp [closesOnAppend, hs]
      | true => simp [closesOnAppend, hopen f (survivesAppend_iff.mp hs)]
    · -- an old closer that is not withdrawn would still close the claim
      by_contra hne
      have hxF := (mem_resolvedFacts.mp hx).1
      have := hopen x ((mem_resolvedFacts_append_of_mem hxF).mpr ⟨hx, hne⟩)
      simp [hclose] at this
  · rintro ⟨hmem, htarget, hlocal, hself, hclosers⟩
    refine ⟨⟨hmem, htarget⟩, hlocal, fun x hx => ?_⟩
    rcases List.mem_append.mp (mem_resolvedFacts.mp hx).1 with hxF | hxf
    · obtain ⟨hxres, hxt⟩ := (mem_resolvedFacts_append_of_mem hxF).mp hx
      by_contra hclose
      exact hxt (hclosers x hxres (by simpa using hclose))
    · obtain rfl := List.mem_singleton.mp hxf
      simpa [closesOnAppend, survivesAppend_iff.mpr hx] using hself

/-- The newcomer is shown as a claim when it is one and is not withdrawn: nothing earlier closes it. -/
theorem activeIn_append_self (hseq : ∀ x ∈ F, x.seq < f.seq) :
    ActiveIn (F ++ [f]) f ↔ survivesAppend F f = true ∧ isLocalClaim f = true := by
  unfold ActiveIn
  rw [← survivesAppend_iff, isActiveClaimFact_iff]
  refine and_congr_right fun _ => and_iff_left_of_imp fun _ x hx => ?_
  -- a closer lies above its claim, and nothing lies above the newcomer, itself included
  by_contra hclose
  have hlt := closesClaim_seq (Bool.of_not_eq_false hclose)
  rcases List.mem_append.mp (mem_resolvedFacts.mp hx).1 with hxF | hxf
  · have := hseq x hxF
    omega
  · rw [List.mem_singleton.mp hxf] at hlt
    omega

/-- A claim leaves the room only by being withdrawn or closed by the new fact. -/
theorem removed_cases (hact : ActiveIn F c) (hgone : ¬ActiveIn (F ++ [f]) c) :
    targetOf f = some c.eventId ∨ closesOnAppend F f c = true := by
  obtain ⟨hmem, hact⟩ := hact
  obtain ⟨hlocal, hopen⟩ := isActiveClaimFact_iff.mp hact
  by_contra hnot
  rw [not_or] at hnot
  refine hgone ((activeIn_append_of_mem (mem_resolvedFacts.mp hmem).1).mpr
    ⟨hmem, hnot.1, hlocal, by simpa using hnot.2, fun x hx hclose => ?_⟩)
  simp [hopen x hx] at hclose

end Growth

end RallyPoint
