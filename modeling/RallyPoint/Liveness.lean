/-
# RallyPoint.Liveness — decay, adaptive windows and per-tool signals (`decay.rs`, `liveness.rs`, `store.rs`).

The source folds each per-tool signal into a map keyed by tool; the definitions below give the entry of one
tool, which is how every consumer reads the map. Ages and windows are `i64` seconds: products wrap where
the source multiplies plainly and saturate where it says so. A tool's last-seen row is the one of its
highest-sequence fact that the system did not write for it, whatever that fact's kind.
-/
import RallyPoint.ClaimAuthority

namespace RallyPoint

open Lib

/-! ## Coordination policy -/

/-- The tunables the projection and the gates read. The floor's default is the `f64` nearest `0.05`. -/
structure CoordinationConfig where
  halfLifeSecs : Int := 172800
  archiveFloorWeight : Rat := 3602879701896397 / 72057594037927936
  reclaimSmallMinutes : Int := 30
  reclaimLargeMinutes : Int := 120
  defaultCadenceSecs : Int := 300
  missMultiplier : Int := 6
  graceSecs : Int := 60
  deriving DecidableEq, Repr

inductive WorkSize
  | small | large
  deriving DecidableEq, Repr

def classifyWorkSize (resourceScopes : List ResourceScope) (rawScopeLen : Nat) : WorkSize :=
  if rawScopeLen > 1 then .large
  else if resourceScopes.isEmpty || resourceScopes.any (fun rs => rs.resourceType != .file) then .large
  else if resourceScopes.length = 1 then .small
  else .large

def reclaimTimeoutSecs (size : WorkSize) (smallMinutes largeMinutes : Int) : Int :=
  match size with
  | .small => wrapI64 (max smallMinutes 0 * 60)
  | .large => wrapI64 (max largeMinutes 0 * 60)

/-! ## Ages and weights of one fact -/

section Ages

variable (ext : Externals)

def recencyWeight (ageSecs halfLifeSecs : Int) : Rat :=
  ext.powHalf (max ageSecs 0) (if halfLifeSecs > 0 then halfLifeSecs else 172800)

def isArchivable (weight floor : Rat) : Bool := decide (weight < floor)

/-- An unreadable timestamp counts as fresh: decay never hides a fact for a bad stamp. -/
def factRecencyWeight (fact : Fact) (nowSecs halfLifeSecs : Int) : Rat :=
  match ext.parseFromRfc3339 fact.createdAt with
  | some t => recencyWeight ext (nowSecs - timestamp t) halfLifeSecs
  | none => 1

def factAgeSecs (fact : Fact) (nowSecs : Int) : Int :=
  match ext.parseFromRfc3339 fact.createdAt with
  | some t => nowSecs - timestamp t
  | none => 0

/-- Newest first by weight, ties by sequence, stable otherwise. -/
def sortByRecency (facts : List Fact) (nowSecs halfLifeSecs : Int) : List Fact :=
  facts.insertionSort fun a b =>
    factRecencyWeight ext b nowSecs halfLifeSecs < factRecencyWeight ext a nowSecs halfLifeSecs ∨
      (factRecencyWeight ext b nowSecs halfLifeSecs = factRecencyWeight ext a nowSecs halfLifeSecs ∧
        b.seq ≤ a.seq)

/-! ## Signals of one tool -/

/-- Whether a delivery record names the tool, as author (system writes apart) or as recipient. -/
def deliveryNames (fact : Fact) (tool : String) : Bool :=
  (fact.tool == some tool && !isSystemAuthored fact) || fact.target == some tool ||
    fact.evidence.any fun item => stripPrefix "to:" item == some tool

/-- The smallest age among the facts of `kinds` that name the tool. -/
def newestFactAge (facts : List Fact) (nowSecs : Int) (kinds : List FactKind) (tool : String) :
    Option Int :=
  ((facts.filter fun fact => kinds.contains fact.kind && deliveryNames fact tool).map
    fun fact => factAgeSecs ext fact nowSecs).min?

/-- A stamped HEAD, unless it is empty or `unknown`. -/
def branchHeadSha (fact : Fact) : Option String :=
  fact.evidence.findSome? fun item =>
    ((stripPrefix "branch_head_sha:" item).map trim).filter fun sha =>
      !sha.toList.isEmpty && sha != "unknown"

/-- Stamped presence and session rows of one tool: sequence, age, HEAD. -/
def headObservations (facts : List Fact) (nowSecs : Int) (tool : String) :
    List (Int × Int × String) :=
  (facts.filter fun fact =>
      (fact.kind == .presence || fact.kind == .session) && fact.tool == some tool &&
        !isSystemAuthored fact).filterMap fun fact =>
    (branchHeadSha fact).map fun sha => (fact.seq, factAgeSecs ext fact nowSecs, sha)

/-- Progress is proved only by the two latest observations differing. -/
def codeProgressAge (facts : List Fact) (nowSecs : Int) (tool : String) : Option Int :=
  match ((headObservations ext facts nowSecs tool).insertionSort fun a b => a.1 ≤ b.1).reverse with
  | newest :: prev :: _ => if newest.2.2 ≠ prev.2.2 then some newest.2.1 else none
  | _ => none

/-- Declared active work: the newest live claim, mission or handoff of the tool. -/
def planAge (activeClaims facts : List Fact) (nowSecs : Int) (tool : String) : Option Int :=
  ((activeClaims ++ facts.filter fun fact => fact.kind == .mission || fact.kind == .handoff).filter
    (fun fact => fact.tool == some tool) |>.map fun fact => factAgeSecs ext fact nowSecs).min?

end Ages

/-- The cadence declared on the tool's newest presence or session row, if it is valid there. -/
def plannedCadence (facts : List Fact) (tool : String) : Option Int :=
  (maxByKey (·.seq) (facts.filter fun fact =>
    (fact.kind == .presence || fact.kind == .session) && fact.tool == some tool)).bind fun fact =>
      fact.evidence.findSome? fun item =>
        ((stripPrefix "planned_heartbeat_secs:" item).bind fun value => parseI64 (trim value)).filter
          fun secs => decide (secs > 0)

/-- The fold behind a tool's last-seen row: a strictly larger sequence replaces the entry. -/
def toolLastStep (tool : String) (entry : Option (Int × String)) (fact : Fact) :
    Option (Int × String) :=
  if fact.tool == some tool && !isSystemAuthored fact then
    let current := entry.getD (0, "")
    some (if fact.seq > current.1 then (fact.seq, fact.createdAt) else current)
  else entry

def toolLast (facts : List Fact) (tool : String) : Option (Int × String) :=
  facts.foldl (toolLastStep tool) none

/-- The last-seen timestamp of an author. -/
def authorLastSeen (facts : List Fact) (tool : String) : Option String := (toolLast facts tool).map (·.2)

/-- Tools that wrote at least one fact of their own, in map order. -/
def authorTools (facts : List Fact) : List String :=
  dedupConsecutive
    (sortStrings ((facts.filter fun fact => !isSystemAuthored fact).filterMap (·.tool)))

def acknowledgedTools (facts : List Fact) : List String :=
  (facts.filter fun fact => fact.kind == .decision && fact.subject == "coordination:ack").filterMap
    (·.tool)

/-! ## The four-signal verdict -/

inductive Liveness
  | live | stale | unknown
  deriving DecidableEq, Repr

def adaptiveWindowSecs (plannedIntervalSecs defaultCadenceSecs missMultiplier graceSecs : Int) : Int :=
  let interval :=
    if plannedIntervalSecs > 0 then plannedIntervalSecs
    else if defaultCadenceSecs > 0 then defaultCadenceSecs
    else 300
  wrapI64 (wrapI64 (interval * max missMultiplier 1) + max graceSecs 0)

/-- One fresh age is life; death needs every age present and stale. -/
def isLive (ages : List (Option Int)) (window : Int) : Liveness :=
  if ages.any (fun age => match age with | some a => decide (a ≤ window) | none => false) then .live
  else if ages.all Option.isSome then .stale
  else .unknown

end RallyPoint
