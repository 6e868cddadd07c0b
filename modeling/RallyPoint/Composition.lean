/-
# RallyPoint.Composition — the room as it is shown, within a byte budget (`store.rs`, `compose_room_output`).

The projection of the room stays whole: the write gates consult it. What is printed is composed from it. Archived
facts are left out unless asked for, the four informational buckets are ranked and filled up to the budget, and a
block beside the buckets says of each one what it left out. The ranking estimates sizes fact by fact; a loop behind
it measures the response itself and trims the lowest-ranked fact until the ceiling holds.

A score is read from a fact, from the clock and from who asks; while one room is composed only the fact varies, so
the score is a function of it into some linear order. `compose_room_output_accounts` says what is kept and what is
said of the rest.
-/
import RallyPoint.Lib.Settle
import RallyPoint.SnapshotWire
import Mathlib.Data.List.MinMax
import Mathlib.Data.Prod.Lex

namespace RallyPoint.Wire.Composition

open Lib

/-! ## Buckets -/

/-- `BUDGETED_BUCKETS`. Everything else is never cut. -/
inductive Bucket
  | currentDecisions | recentArtifacts | currentRisks | openHandoffs
  deriving DecidableEq, Repr

namespace Bucket

def all : List Bucket := [.currentDecisions, .recentArtifacts, .currentRisks, .openHandoffs]

/-- The buckets in the order of their names, as a `BTreeMap` keyed by them iterates. -/
def byName : List Bucket := [.currentDecisions, .currentRisks, .openHandoffs, .recentArtifacts]

def name : Bucket → String
  | currentDecisions => "current_decisions"
  | recentArtifacts => "recent_artifacts"
  | currentRisks => "current_risks"
  | openHandoffs => "open_handoffs"

end Bucket

def bucketRef (s : RoomSnapshot) : Bucket → List Fact
  | .currentDecisions => s.currentDecisions
  | .currentRisks => s.currentRisks
  | .recentArtifacts => s.recentArtifacts
  | .openHandoffs => s.openHandoffs

/-- `*bucket_mut(snapshot, name) = facts`. -/
def setBucket (s : RoomSnapshot) (facts : List Fact) : Bucket → RoomSnapshot
  | .currentDecisions => { s with currentDecisions := facts }
  | .currentRisks => { s with currentRisks := facts }
  | .recentArtifacts => { s with recentArtifacts := facts }
  | .openHandoffs => { s with openHandoffs := facts }

def bucketTotal (s : RoomSnapshot) : Bucket → Nat
  | .currentDecisions => s.totals.currentDecisions
  | .currentRisks => s.totals.currentRisks
  | .recentArtifacts => s.totals.recentArtifacts
  | .openHandoffs => s.totals.openHandoffs

/-- What is said of the buckets, in the order of their names. -/
abbrev Buckets := List (String × BucketComposition)

namespace Buckets

def get (buckets : Buckets) (key : String) : Option BucketComposition :=
  (buckets.find? fun entry => entry.1 == key).map (·.2)

/-- `BTreeMap::insert`. -/
def insert (key : String) (entry : BucketComposition) : Buckets → Buckets
  | [] => [(key, entry)]
  | (k, e) :: rest =>
    if k = key then (key, entry) :: rest
    else if key < k then (key, entry) :: (k, e) :: rest
    else (k, e) :: insert key entry rest

end Buckets

def maxOmittedIds : Nat := 64

/-- `handoff_assigned_to`. -/
def handoffAssignedTo (fact : Fact) (tool : String) : Bool :=
  match fact.target with
  | none => true
  | some target => target == "all" || target == tool

/-! ## Sizes -/

/-- The sizes `serde_json` gives the parts of a room: a fact on one line, a fact over many, and the squads. -/
structure Sizes where
  fact : Fact → Nat
  pretty : Fact → Nat
  squads : List Squad → Nat

section Model

variable {κ : Type} [LinearOrder κ] (sizes : Sizes) (score : Fact → κ) (tool : Option String)

/-- `fact_bytes`. -/
def factBytes (fact : Fact) : Nat := sizes.fact fact + 1

/-- `never_cut_bytes`: the bytes of the buckets that are never cut, and those that take some, largest first. -/
def neverCutBytes (s : RoomSnapshot) : Nat × List String :=
  let sized : List (Nat × String) :=
    [(sumOf (factBytes sizes) s.activeClaims, "active_claims"),
      (sumOf (factBytes sizes) s.activeBlockers, "active_blockers"),
      (sumOf (factBytes sizes) s.systemHealth, "system_health"),
      (sizes.squads s.squads, "squads"),
      (sumOf (factBytes sizes) s.unconsumedArtifacts, "unconsumed_artifacts"),
      (sumOf (factBytes sizes) s.resolvedUnverified, "resolved_unverified")]
  (sumOf (·.1) sized,
    ((sized.insertionSort fun a b => b.1 ≤ a.1).filter fun entry => 0 < entry.1).map (·.2))

def exactOverBudgetCauses (s : RoomSnapshot) : List String :=
  let causes := (neverCutBytes sizes s).2
  let causes := if tool.any fun tool => s.openHandoffs.any fun fact => handoffAssignedTo fact tool
    then causes ++ ["assigned_handoffs"] else causes
  (causes ++ ["response_floor"]).destutter (· ≠ ·)

/-! ## Ranking -/

structure Candidate (κ : Type) where
  bucket : Bucket
  index : Nat
  score : κ
  bytes : Nat
  seq : Int

/-- Scores are compared first; the sequence number breaks their ties. -/
instance rankOrder : LinearOrder (κ ×ₗ Int) := @Prod.Lex.instLinearOrder κ Int _ Int.instLinearOrder

instance rankPreorder : Preorder (κ ×ₗ Int) := rankOrder.toPreorder

/-- What the comparisons compare: the score, then the sequence number. -/
def Candidate.rank (c : Candidate κ) : κ ×ₗ Int := toLex (c.score, c.seq)

def candidate (bucket : Bucket) (index : Nat) (fact : Fact) : Candidate κ :=
  { bucket, index, score := score fact, bytes := factBytes sizes fact, seq := fact.seq }

def candidates (bucket : Bucket) (facts : List Fact) : List (Candidate κ) :=
  facts.mapIdx (candidate sizes score bucket)

/-- `sort_by`, descending. -/
def sortRanked (cands : List (Candidate κ)) : List (Candidate κ) :=
  cands.insertionSort fun a b => b.rank ≤ a.rank

def ranked (s : RoomSnapshot) (bucket : Bucket) : List (Candidate κ) :=
  sortRanked (candidates sizes score bucket (bucketRef s bucket))

/-- The second pass: whatever still fits, in the order of relevance. -/
def fill : Nat → List (Candidate κ) → List (Candidate κ)
  | _, [] => []
  | remaining, cand :: rest =>
    if remaining < cand.bytes then fill remaining rest
    else cand :: fill (remaining - cand.bytes) rest

/-- Both passes: the top of every bucket, whatever it costs, and what else fits into the rest of the budget. -/
def keep (s : RoomSnapshot) (remaining : Nat) : List (Candidate κ) :=
  let tops := Bucket.byName.filterMap fun b => (ranked sizes score s b).head?
  let remaining := tops.foldl (fun remaining top => remaining - top.bytes) remaining
  tops ++ fill remaining (sortRanked (Bucket.byName.flatMap fun b => (ranked sizes score s b).tail))

/-! ## Filling the budget -/

/-- One bucket is rebuilt from what it keeps, in the order of relevance; a bucket that keeps everything stays. -/
def rebuild (order : Bucket → List Nat) (kept : Bucket → List Nat) (state : RoomSnapshot × Buckets) (b : Bucket) :
    RoomSnapshot × Buckets :=
  let (s, buckets) := state
  let facts := bucketRef s b
  let total := facts.length
  if (kept b).length = total then (s, buckets)
  else
    let omittedIds := (((order b).filter fun i => !(kept b).contains i).filterMap fun i =>
      facts[i]?.map (·.eventId)).take maxOmittedIds
    let rebuilt := ((order b).filter fun i => (kept b).contains i).filterMap fun i => facts[i]?
    let emitted := rebuilt.length
    (setBucket s rebuilt b,
      buckets.insert b.name
        { total, emitted, omitted := total - emitted, omittedIds
          omittedIdsTruncated := decide (omittedIds.length < total - emitted), reason := "budget" })

/-- `sync_unconsumed_artifacts`: the bucket is a part of the artifacts that are shown. -/
def syncUnconsumedArtifacts (s : RoomSnapshot) (buckets : Buckets) : RoomSnapshot × Buckets :=
  let unconsumed := s.unconsumedArtifacts.filter fun fact => (s.recentArtifacts.map (·.eventId)).contains fact.eventId
  let emitted := unconsumed.length
  let total := s.totals.unconsumedArtifacts
  ({ s with unconsumedArtifacts := unconsumed },
    if emitted < total then
      buckets.insert "unconsumed_artifacts"
        { total, emitted, omitted := total - emitted, omittedIds := []
          omittedIdsTruncated := true, reason := "budget" }
    else buckets)

/-- The handoffs assigned to the caller are shown in front of the others. -/
def reattach (assigned : List Fact) (s : RoomSnapshot) (buckets : Buckets) : RoomSnapshot × Buckets :=
  if assigned = [] then (s, buckets)
  else
    let handoffs := assigned ++ s.openHandoffs
    ({ s with openHandoffs := handoffs },
      match buckets.get Bucket.openHandoffs.name with
      | none => buckets
      | some entry =>
        buckets.insert Bucket.openHandoffs.name
          { entry with
            emitted := handoffs.length
            total := s.totals.openHandoffs
            omitted := s.totals.openHandoffs - handoffs.length })

def assignedHandoffs (s : RoomSnapshot) : List Fact :=
  match tool with
  | some tool => s.openHandoffs.filter fun fact => handoffAssignedTo fact tool
  | none => []

/-- The room whose handoffs compete: the others. -/
def withoutAssigned (s : RoomSnapshot) : RoomSnapshot :=
  match tool with
  | some tool => { s with openHandoffs := s.openHandoffs.filter fun fact => !handoffAssignedTo fact tool }
  | none => s

/-- `apply_budget`; with it the buckets that alone exceed the budget. -/
def applyBudget (budget : Nat) (s : RoomSnapshot) (buckets : Buckets) : (RoomSnapshot × Buckets) × List String :=
  let (reserved, causes) := neverCutBytes sizes s
  let causes := if reserved ≤ budget then [] else causes
  let assigned := assignedHandoffs tool s
  let competing := withoutAssigned tool s
  let kept := keep sizes score competing (budget - reserved - sumOf (factBytes sizes) assigned)
  let order := fun b => (ranked sizes score competing b).map (·.index)
  let keptOf := fun b => (kept.filter fun cand => cand.bucket = b).map (·.index)
  let (s, buckets) := Bucket.all.foldl (rebuild order keptOf) (competing, buckets)
  let (s, buckets) := reattach assigned s buckets
  (syncUnconsumedArtifacts s buckets, causes)

/-! ## Trimming what the measurement finds too long -/

/-- The top of a bucket and the handoffs assigned to the caller are not removable. -/
def removable (s : RoomSnapshot) (b : Bucket) (fact : Fact) : Bool :=
  if b = .openHandoffs then
    match tool with
    | some tool => !handoffAssignedTo fact tool &&
        decide (1 < (s.openHandoffs.filter fun fact => !handoffAssignedTo fact tool).length)
    | none => decide (1 < s.openHandoffs.length)
  else decide (1 < (bucketRef s b).length)

/-- The lowest-ranked of the removable facts; of ties, the first. -/
def lowest (s : RoomSnapshot) : Option (Candidate κ) :=
  (Bucket.all.flatMap fun b =>
    ((bucketRef s b).mapIdx fun index fact => (candidate sizes score b index fact, removable tool s b fact)).filterMap
      fun (cand, removable) => if removable then some cand else none).argmin Candidate.rank

/-- `trim_lowest_budgeted`: the room without the fact, and an estimate of what that saves. -/
def trimLowestBudgeted (s : RoomSnapshot) (buckets : Buckets) : Option ((RoomSnapshot × Buckets) × Nat) := do
  let cand ← lowest sizes score tool s
  let removed ← (bucketRef s cand.bucket)[cand.index]?
  let total := bucketTotal s cand.bucket
  let s := setBucket s ((bucketRef s cand.bucket).eraseIdx cand.index) cand.bucket
  let emitted := (bucketRef s cand.bucket).length
  let entry := (buckets.get cand.bucket.name).getD {}
  let listed := entry.omittedIds.length < maxOmittedIds
  let omittedIds := if listed then entry.omittedIds ++ [removed.eventId] else entry.omittedIds
  let idMetadataBytes := if listed then byteLen removed.eventId + 16 else 0
  let buckets := buckets.insert cand.bucket.name
    { total, emitted, omitted := total - emitted, omittedIds
      omittedIdsTruncated := decide (omittedIds.length < total - emitted), reason := "budget" }
  some (syncUnconsumedArtifacts s buckets, max (sizes.pretty removed + 1 - idMetadataBytes) 1)

/-! ## The block beside the buckets -/

def installComposition (budget : Option Nat) (buckets : Buckets) (overBudget : Bool) (causes : List String)
    (s : RoomSnapshot) : RoomSnapshot :=
  let drillIn := ["rally room --json                     # this view",
    "rally locate <event-id> --json        # one omitted item"]
  let drillIn := if (buckets.get "stale_facts").isSome
    then "rally room --include-archived --json  # every archived fact" :: drillIn else drillIn
  let composition : RoomComposition :=
    { budgetBytes := budget
      emittedBytes := (s.composition.map (·.emittedBytes)).getD 0
      buckets, drillIn, overBudget
      overBudgetCauses := causes }
  { s with composition := some composition }

variable (measureOutput : RoomSnapshot → Nat)

/-- `stabilize_emitted_bytes`: the number of bytes is part of what it counts, so it is entered and counted again, at
most so many times. -/
def stabilizeEmittedBytes : Nat → RoomSnapshot → RoomSnapshot × Nat
  | 0, s => (s, measureOutput s)
  | rounds + 1, s =>
    let bytes := measureOutput s
    match s.composition with
    | none => (s, bytes)
    | some c =>
      if c.emittedBytes = bytes then (s, bytes)
      else stabilizeEmittedBytes rounds { s with composition := some { c with emittedBytes := bytes } }

def stabilizeRounds : Nat := 8

/-- The report of an overrun is taken back. -/
def clearOverBudget (s : RoomSnapshot) : RoomSnapshot :=
  { s with composition := s.composition.map fun c => { c with overBudget := false, overBudgetCauses := [] } }

/-- The inner loop: facts are trimmed until the estimate fits or nothing is left to trim. With it whether any was.
`none` when the fuel ends first. -/
def trimUntil (limit : Nat) : Nat → Nat → RoomSnapshot × Buckets → Option ((RoomSnapshot × Buckets) × Bool)
  | 0, _, _ => none
  | fuel + 1, estimated, (s, buckets) =>
    if estimated ≤ limit then some ((s, buckets), false)
    else
      match trimLowestBudgeted sizes score tool s buckets with
      | none => some ((s, buckets), false)
      | some (state, savings) => (trimUntil limit fuel (estimated - savings) state).map fun out => (out.1, true)

/-- How many facts the budgeted buckets hold. -/
def budgetedItems (s : RoomSnapshot) : Nat := sumOf (fun b => (bucketRef s b).length) Bucket.all

/-- The outer loop: measure, trim, and measure again. `none` when the fuel ends first. -/
def fitLoop (budget : Option Nat) (limit : Nat) : Nat → RoomSnapshot × Buckets → Option RoomSnapshot
  | 0, _ => none
  | fuel + 1, (s, buckets) =>
    let (s, bytes) := stabilizeEmittedBytes measureOutput stabilizeRounds s
    if bytes ≤ limit then some (stabilizeEmittedBytes measureOutput stabilizeRounds (clearOverBudget s)).1
    else
      (trimUntil sizes score tool limit (budgetedItems s + 1) bytes (s, buckets)).bind fun
        | ((s, buckets), true) =>
          fitLoop budget limit fuel (installComposition budget buckets false [] s, buckets)
        | ((s, buckets), false) =>
          let s := installComposition budget buckets true (exactOverBudgetCauses sizes tool s) s
          some (stabilizeEmittedBytes measureOutput stabilizeRounds s).1

/-- The ceiling in force: an explicit one, else the configured one unless the caller asks for the archive. -/
def budgetOf (roomBudget budgetOverride : Option Nat) (includeArchived : Bool) : Option Nat :=
  match budgetOverride with
  | some 0 => none
  | some explicit => some explicit
  | none => if includeArchived then none else roomBudget

/-- Archived facts are left out unless they are asked for. -/
def honorArchive (includeArchived : Bool) (s : RoomSnapshot) : RoomSnapshot × Buckets :=
  if includeArchived = false ∧ s.staleFacts ≠ [] then
    ({ s with staleFacts := [] },
      Buckets.insert "stale_facts"
        { total := s.staleFacts.length, emitted := 0, omitted := s.staleFacts.length, omittedIds := []
          omittedIdsTruncated := false, reason := "archived" } [])
  else (s, [])

/-- `compose_room_output`. -/
def composeRoomOutput (roomBudget budgetOverride : Option Nat) (includeArchived : Bool) (s : RoomSnapshot) :
    Option RoomSnapshot :=
  let (s, buckets) := honorArchive includeArchived s
  let budget := budgetOf roomBudget budgetOverride includeArchived
  let ((s, buckets), causes) := match budget with
    | some limit => applyBudget sizes score tool limit s buckets
    | none => ((s, buckets), [])
  let s := if causes ≠ [] ∨ buckets ≠ [] then installComposition budget buckets (decide (causes ≠ [])) causes s else s
  match budget with
  | some limit =>
    let s := if limit < measureOutput s ∧ s.composition = none
      then installComposition budget buckets false [] s else s
    fitLoop sizes score tool measureOutput budget limit (budgetedItems s + 1) (s, buckets)
  | none =>
    if s.composition ≠ none then some (stabilizeEmittedBytes measureOutput stabilizeRounds s).1 else some s

end Model

end RallyPoint.Wire.Composition
