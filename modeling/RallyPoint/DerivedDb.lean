/-
# RallyPoint.DerivedDb — the canonical segments, the derived `facts.db` and the reconcile sidecar (`store.rs`).

An append writes its row to the canonical segments first and then projects it into `facts.db`; the
projection may fail at any point, and it is repeated when the same event is offered again. The reconcile pass
compares nothing but a row count and a highest sequence, or trusts a sidecar that remembers both together
with the fingerprints of the files they were measured on. Every operation runs under the mutation lock, so
one operation is one step.

A fingerprint is what it can be told apart by: of the append-only segments their length in bytes, of the
database the time of its last write. `StoreEnv` says what goes wrong during one operation; SQLite appends
are all or nothing, and removing a file succeeds.
-/
import RallyPoint.Fact

namespace RallyPoint

open Lib

/-! ## Rows -/

/-- One canonical row. The envelope owns the sequence. -/
structure LedgerLine where
  seq : Int
  occurredAt : String
  eventType : String
  payload : Fact
  engagement : Option String
  deriving DecidableEq, Repr

/-- `Fact::from_segment_value`: the envelope's sequence overwrites the payload's. -/
def LedgerLine.fact (entry : LedgerLine) : Fact := { entry.payload with seq := entry.seq }

/-- One `facts.db` row; the database numbers its own rows. -/
structure DbRow where
  sequenceNumber : Int
  eventType : String
  payload : Fact
  deriving DecidableEq, Repr

/-- `Fact::from_value`: a payload without a sequence takes the row's. -/
def DbRow.fact (row : DbRow) : Fact :=
  if row.payload.seq = 0 then { row.payload with seq := row.sequenceNumber } else row.payload

/-- What the two sides must agree on: the event type and the payload, sequence included. -/
def LedgerLine.content (entry : LedgerLine) : String × Fact := (entry.eventType, entry.fact)

def DbRow.content (row : DbRow) : String × Fact := (row.eventType, row.payload)

/-- Rows of an imported batch, numbered by the database from one. -/
def replayEvents (entries : List LedgerLine) : List DbRow :=
  entries.zipIdx.map fun p => ⟨(p.2 : Int) + 1, p.1.eventType, p.1.fact⟩

/-! ## Files -/

/-- `facts.db` with its write-ahead log. -/
structure DbFile where
  rows : List DbRow
  mtime : Nat
  deriving DecidableEq, Repr

structure SeqStats where
  count : Int
  maxSeq : Int
  deriving DecidableEq, Repr

/-- The reconcile sidecar. -/
structure ReconcileCache where
  segmentsFingerprint : Nat
  dbFingerprint : Option Nat
  canonicalCount : Int
  canonicalMaxSeq : Int
  dbCount : Int
  dbMaxSeq : Int
  deriving DecidableEq, Repr

/-- The room directory: `canonical` is the fold of all segments in sequence order. -/
structure StoreState where
  canonical : List LedgerLine
  db : Option DbFile
  sidecar : Option ReconcileCache
  clock : Nat
  deriving DecidableEq, Repr

namespace StoreState

def rows (s : StoreState) : List DbRow := (s.db.map (·.rows)).getD []

def dbFingerprint (s : StoreState) : Option Nat := s.db.map (·.mtime)

/-- A write leaves the file with a modification time no earlier write had. -/
def writeDb (s : StoreState) (rows : List DbRow) : StoreState :=
  { s with db := some ⟨rows, s.clock + 1⟩, clock := s.clock + 1 }

/-- Opening creates an absent database. -/
def openDb (s : StoreState) : StoreState :=
  match s.db with
  | some _ => s
  | none => s.writeDb []

def removeDb (s : StoreState) : StoreState := { s with db := none }

@[simp] theorem writeDb_canonical (s : StoreState) (rows : List DbRow) :
    (s.writeDb rows).canonical = s.canonical := rfl

@[simp] theorem writeDb_rows (s : StoreState) (rows : List DbRow) : (s.writeDb rows).rows = rows := rfl

@[simp] theorem removeDb_canonical (s : StoreState) : s.removeDb.canonical = s.canonical := rfl

@[simp] theorem removeDb_rows (s : StoreState) : s.removeDb.rows = [] := rfl

@[simp] theorem openDb_canonical (s : StoreState) : s.openDb.canonical = s.canonical := by
  unfold openDb
  split <;> rfl

@[simp] theorem openDb_rows (s : StoreState) : s.openDb.rows = s.rows := by
  unfold openDb
  split
  case _ => rfl
  case _ h => simp [rows, writeDb, h]

end StoreState

/-! ## Measurements -/

/-- `segment_seq_stats`: distinct rows and the canonical high-water mark. -/
def segmentSeqStats (canonical : List LedgerLine) : SeqStats :=
  ⟨canonical.length, (canonical.getLast?.map (·.seq)).getD 0⟩

/-- Number of rows and highest logical sequence of a readable database. -/
def dbEventStats (rows : List DbRow) : SeqStats :=
  ⟨rows.length, rows.foldl (fun m row => max m row.fact.seq) 0⟩

/-- The last row of the segment an engagement writes to. -/
def segmentTailSeq (canonical : List LedgerLine) (engagement : Option String) : Int :=
  ((canonical.filter (·.engagement == engagement)).getLast?.map (·.seq)).getD 0

def tailsMax (canonical : List LedgerLine) : Int :=
  canonical.foldl (fun m entry => max m (segmentTailSeq canonical entry.engagement)) 0

/-- What one operation runs into. -/
structure StoreEnv where
  now : String
  engagement : String
  /-- No warm pool: the derived database may be replaced. -/
  allowCacheReplacement : Bool := true
  /-- The process stops between the canonical write and the projection. -/
  stopsAfterCanonical : Bool := false
  /-- A torn final fragment was repaired before the write. -/
  tailRepaired : Bool := false
  /-- Opening or querying the database fails. -/
  dbUnavailable : Bool := false
  /-- SQLite finds the database malformed when its rows are counted. -/
  dbMalformed : Bool := false
  /-- Counting fails for another reason. -/
  dbCountFails : Bool := false
  dbAppendFails : Bool := false
  readbackFails : Bool := false
  indexesMissing : Bool := false
  sidecarWriteFails : Bool := false
  sidecarRemovalFails : Bool := false
  /-- The log index or the claim index cannot be refreshed. -/
  otherProjectionFails : Bool := false
  deriving DecidableEq, Repr

/-- `read_db_event_stats`: a malformed database is moved aside and counts as empty. -/
def readDbEventStats (env : StoreEnv) (s : StoreState) : StoreState × Option SeqStats :=
  if s.db.isNone then (s, some ⟨0, 0⟩)
  else if env.dbMalformed then
    if env.allowCacheReplacement then (s.removeDb, some ⟨0, 0⟩) else (s, none)
  else if env.dbCountFails then (s, none)
  else (s, some (dbEventStats s.rows))

section Operations

-- bytes of a rendered canonical row before its newline
variable (recordLen : LedgerLine → Nat)

def segmentsFingerprint (canonical : List LedgerLine) : Nat :=
  sumOf (fun entry => recordLen entry + 1) canonical

def reconcileCacheMatches (cache : ReconcileCache) (s : StoreState) : Bool :=
  cache.segmentsFingerprint == segmentsFingerprint recordLen s.canonical &&
    cache.canonicalCount == cache.dbCount && cache.canonicalMaxSeq == cache.dbMaxSeq &&
    (cache.canonicalCount == 0 || cache.canonicalCount ≤ cache.canonicalMaxSeq) &&
    s.dbFingerprint.isSome && cache.dbFingerprint == s.dbFingerprint

/-- A sidecar with the given measurements and the current fingerprints. -/
def freshCache (s : StoreState) (canonicalStats dbStats : SeqStats) : ReconcileCache where
  segmentsFingerprint := segmentsFingerprint recordLen s.canonical
  dbFingerprint := s.dbFingerprint
  canonicalCount := canonicalStats.count
  canonicalMaxSeq := canonicalStats.maxSeq
  dbCount := dbStats.count
  dbMaxSeq := dbStats.maxSeq

/-- `derived_db_proof`: the sidecar, when it may stand in for the canonical folds. -/
def derivedDbProof (env : StoreEnv) (s : StoreState) : Option ReconcileCache :=
  s.sidecar.filter fun cache =>
    reconcileCacheMatches recordLen cache s && tailsMax s.canonical ≤ cache.canonicalMaxSeq &&
      !env.indexesMissing && dbEventStats s.rows == ⟨cache.dbCount, cache.dbMaxSeq⟩

/-! ## Projection -/

/-- What an append hands its projection. -/
structure AppendProjectionContext where
  cache : ReconcileCache
  entry : LedgerLine

/-- The proven sidecar one row further on, when nothing but the one row has changed. -/
def advancedCache (env : StoreEnv) (context : Option AppendProjectionContext) (appendedSeq : Int)
    (s : StoreState) : Option ReconcileCache :=
  (context.filter fun ctx =>
    !env.indexesMissing && !env.tailRepaired &&
      ctx.cache.segmentsFingerprint + (recordLen ctx.entry + 1) == segmentsFingerprint recordLen s.canonical &&
      ctx.entry.seq == appendedSeq &&
      dbEventStats s.rows == ⟨ctx.cache.canonicalCount + 1, appendedSeq⟩).map fun ctx =>
    freshCache recordLen s ⟨ctx.cache.canonicalCount + 1, appendedSeq⟩ (dbEventStats s.rows)

/-- `refresh_reconcile_cache_after_append`: the sidecar to publish, advanced or freshly measured; none when
the two sides disagree. -/
def refreshReconcileCacheAfterAppend (env : StoreEnv) (context : Option AppendProjectionContext)
    (appendedSeq : Int) (s : StoreState) : StoreState × Option ReconcileCache :=
  match advancedCache recordLen env context appendedSeq s with
  | some cache => (s, some cache)
  | none =>
    match readDbEventStats env s with
    | (s, none) => (s, none)
    | (s, some dbStats) =>
      if segmentSeqStats s.canonical ≠ dbStats ∨ (segmentSeqStats s.canonical).maxSeq < appendedSeq then
        (s, none)
      else (s, some (freshCache recordLen s (segmentSeqStats s.canonical) dbStats))

/-- The row is written unless its event id is there already; `none` is a projection warning. -/
def projectRow (env : StoreEnv) (s : StoreState) (fact : Fact) : Option StoreState :=
  match s.rows.filter (·.fact.eventId == fact.eventId) with
  | [] =>
    if env.dbAppendFails then none
    else some (s.writeDb (s.rows ++ [⟨(s.rows.length : Int) + 1, fact.kind.asStr, fact⟩]))
  -- an earlier projection got this far: nothing is written, a different payload is a warning
  | [existing] => if { existing.fact with seq := fact.seq } = fact then some s else none
  | _ => none

/-- The exact readback finds the fact once. -/
def readsBack (env : StoreEnv) (s : StoreState) (fact : Fact) : Bool :=
  !env.readbackFails &&
    (s.rows.filter fun row =>
      row.fact.eventId == fact.eventId && { row.fact with seq := fact.seq } == fact).length == 1

/-- `project_canonical_fact_inner`; the flag says whether it ended without a warning. -/
def projectCanonicalFactInner (env : StoreEnv) (context : Option AppendProjectionContext) (s : StoreState)
    (fact : Fact) : StoreState × Bool :=
  if env.dbUnavailable then (s, false)
  else
    match projectRow env s.openDb fact with
    | none => (s.openDb, false)
    | some projected =>
      if !readsBack env projected fact then (projected, false)
      else
        match refreshReconcileCacheAfterAppend recordLen env context fact.seq projected with
        | (measured, none) => (measured, false)
        | (measured, some cache) =>
          if env.sidecarWriteFails then (measured, false)
          else ({ measured with sidecar := some cache }, !env.otherProjectionFails)

/-- The sidecar is removed, best effort. -/
def invalidateSidecar (env : StoreEnv) (s : StoreState) : StoreState :=
  { s with sidecar := if env.sidecarRemovalFails then s.sidecar else none }

/-- `project_canonical_fact_with`: a projection with a warning leaves no sidecar behind. -/
def projectCanonicalFact (env : StoreEnv) (context : Option AppendProjectionContext) (s : StoreState)
    (fact : Fact) : StoreState :=
  let (projected, complete) := projectCanonicalFactInner recordLen env context s fact
  if complete then projected else invalidateSidecar env projected

/-! ## Append -/

/-- The canonical high-water mark an append allocates from: the proven sidecar's, or a full fold's. -/
def canonicalHighWater (env : StoreEnv) (s : StoreState) : Int :=
  match derivedDbProof recordLen env s with
  | some cache => cache.canonicalMaxSeq
  | none => (segmentSeqStats s.canonical).maxSeq

def appendedEntry (env : StoreEnv) (s : StoreState) (fact : Fact) : LedgerLine where
  seq := canonicalHighWater recordLen env s + 1
  occurredAt := env.now
  eventType := fact.kind.asStr
  payload := { fact with seq := canonicalHighWater recordLen env s + 1 }
  engagement := some env.engagement

/-- The writing half of `append_fact_under_lock`, for a fact every check has let through. -/
def appendCanonicalFact (env : StoreEnv) (s : StoreState) (fact : Fact) : StoreState :=
  if canonicalHighWater recordLen env s + 1 < i64Bound then
    let entry := appendedEntry recordLen env s fact
    -- a tail repair invalidates the derived views before it rewrites bytes
    let opened := if env.tailRepaired then invalidateSidecar env s else s
    let written := { opened with canonical := s.canonical ++ [entry] }
    if env.stopsAfterCanonical then written
    else
      -- the proof was taken before the canonical write, on the state the sequence was allocated from
      projectCanonicalFact recordLen env ((derivedDbProof recordLen env s).map fun cache => ⟨cache, entry⟩)
        written entry.fact
  else s

/-! ## Reconcile -/

/-- `rebuild_db_from_segments`: replace the database by one replay of the canonical rows. -/
def rebuildDbFromSegments (env : StoreEnv) (s : StoreState) : StoreState × Bool :=
  if env.dbUnavailable then (s.removeDb, false)
  else if env.dbAppendFails then (s.removeDb.openDb, false)
  else (s.removeDb.writeDb (replayEvents s.canonical), true)

def publishSidecar (env : StoreEnv) (s : StoreState) (cache : ReconcileCache) : StoreState :=
  { s with sidecar := if env.sidecarWriteFails then s.sidecar else some cache }

/-- The authoritative half of `reconcile_segments_and_db`, on the counted database. -/
def reconcileByStats (env : StoreEnv) (s : StoreState) (dbStats : SeqStats) : StoreState × Bool :=
  let canonicalStats := segmentSeqStats s.canonical
  if canonicalStats.count = 0 ∧ dbStats.count = 0 then (invalidateSidecar env s, true)
  -- rows without a canonical source are never deleted, the caller is told to look
  else if canonicalStats.count = 0 ∧ 0 < dbStats.count then (s, false)
  else if canonicalStats ≠ dbStats then
    if !env.allowCacheReplacement then (s, false)
    else
      match rebuildDbFromSegments env s with
      | (rebuilt, true) =>
        (publishSidecar env rebuilt (freshCache recordLen rebuilt canonicalStats canonicalStats), true)
      | (rebuilt, false) => (rebuilt, false)
  else (publishSidecar env s (freshCache recordLen s canonicalStats dbStats), true)

/-- `reconcile_segments_and_db`; the flag says whether it returned `Ok`. -/
def reconcileSegmentsAndDb (env : StoreEnv) (s : StoreState) : StoreState × Bool :=
  if s.sidecar.any fun cache => reconcileCacheMatches recordLen cache s then (s, true)
  else
    match readDbEventStats env s with
    | (s, none) => (s, false)
    | (s, some dbStats) => reconcileByStats recordLen env s dbStats

end Operations

/-! ## Runs -/

/-- A room whose segments hold `canonical` and that has no derived file yet. -/
def StoreState.initial (canonical : List LedgerLine) : StoreState where
  canonical := canonical
  db := none
  sidecar := none
  clock := 0

/-- One operation under the mutation lock. -/
inductive StoreStep (recordLen : LedgerLine → Nat) : StoreState → StoreState → Prop
  /-- A new fact is appended. -/
  | append (env : StoreEnv) (s : StoreState) (fact : Fact) :
      StoreStep recordLen s (appendCanonicalFact recordLen env s fact)
  /-- An event that is canonical already is offered again, and its row is projected again. -/
  | retry (env : StoreEnv) (s : StoreState) (entry : LedgerLine) :
      entry ∈ s.canonical → entry.eventType = entry.payload.kind.asStr →
      StoreStep recordLen s (projectCanonicalFact recordLen env none s entry.fact)
  | reconcile (env : StoreEnv) (s : StoreState) :
      StoreStep recordLen s (reconcileSegmentsAndDb recordLen env s).1

end RallyPoint
