/-
# RallyPoint.Reconciliation — the derived database never diverges from the canonical segments.

`Sound` is what every operation keeps: the canonical sequences ascend, `facts.db` mirrors the canonical rows
(`Mirrors`, a duplicate-free subset with equal payloads), and a sidecar whose fingerprints still fit tells the
truth about both sides. The last part is why the fast paths are safe: segments only get longer and a database
write always leaves a later time, so a sidecar goes stale before it can lie.
-/
import Mathlib.Logic.Relation
import RallyPoint.Append
import RallyPoint.DerivedDb

namespace RallyPoint

open Lib

/-! ## Canonical logs -/

/-- Canonical rows in sequence order; `validate_canonical_line` refuses a sequence that is not positive. -/
structure CanonicalLog (canonical : List LedgerLine) : Prop where
  ascending : canonical.Pairwise fun a b => a.seq < b.seq
  positive : ∀ entry ∈ canonical, 0 < entry.seq

namespace CanonicalLog

variable {canonical : List LedgerLine} {entry : LedgerLine}

theorem nodup_seq (h : CanonicalLog canonical) : (canonical.map (·.seq)).Nodup :=
  List.pairwise_map.mpr (h.ascending.imp fun hlt => Int.ne_of_lt hlt)

/-- Rows differ in content because they differ in sequence. -/
theorem nodup_content (h : CanonicalLog canonical) : (canonical.map (·.content)).Nodup := by
  refine List.Nodup.of_map (fun content => content.2.seq) ?_
  rw [List.map_map]
  exact h.nodup_seq

/-- A row above the high-water mark extends the log. -/
theorem append (h : CanonicalLog canonical) (hseq : entry.seq = (segmentSeqStats canonical).maxSeq + 1) :
    CanonicalLog (canonical ++ [entry]) where
  ascending := by
    refine List.pairwise_append.mpr ⟨h.ascending, List.pairwise_singleton _ _, fun x hx y hy => ?_⟩
    rw [List.mem_singleton.mp hy, hseq]
    exact Int.lt_add_one_of_le (le_last_of_ascending h.ascending x hx)
  positive := by
    intro x hx
    rcases List.mem_append.mp hx with hx | hx
    · exact h.positive x hx
    · rw [List.mem_singleton.mp hx, hseq]
      exact Int.lt_add_one_of_le (last_nonneg h.positive)

end CanonicalLog

theorem segmentSeqStats_append (canonical : List LedgerLine) (entry : LedgerLine) :
    segmentSeqStats (canonical ++ [entry]) = ⟨(segmentSeqStats canonical).count + 1, entry.seq⟩ := by
  simp [segmentSeqStats]

/-- The high-water mark is the one the append gate allocates from. -/
theorem segmentSeqStats_maxSeq (canonical : List LedgerLine) :
    (segmentSeqStats canonical).maxSeq = canonicalMaxSeq (canonical.map (·.fact)) := by
  simp only [segmentSeqStats, canonicalMaxSeq, List.getLast?_map, Option.map_map]
  rfl

@[simp]
theorem DbRow.fact_eventId (row : DbRow) : row.fact.eventId = row.payload.eventId := by
  unfold DbRow.fact
  split <;> rfl

/-! ## The invariant -/

section Invariant

variable {recordLen : LedgerLine → Nat} {s s' : StoreState} {env : StoreEnv}

/-- What a sidecar may say: nothing from the future, and while its fingerprints fit, the truth. -/
structure Honest (recordLen : LedgerLine → Nat) (s : StoreState) (cache : ReconcileCache) : Prop where
  segments_le : cache.segmentsFingerprint ≤ segmentsFingerprint recordLen s.canonical
  db_le : ∀ t, cache.dbFingerprint = some t → t ≤ s.clock
  measured : cache.segmentsFingerprint = segmentsFingerprint recordLen s.canonical →
    cache.dbFingerprint = s.dbFingerprint → s.dbFingerprint.isSome →
      segmentSeqStats s.canonical = ⟨cache.canonicalCount, cache.canonicalMaxSeq⟩ ∧
        dbEventStats s.rows = ⟨cache.dbCount, cache.dbMaxSeq⟩

/-- The derived database holds canonical rows, each at most once. -/
def DbMirrors (canonical : List LedgerLine) (rows : List DbRow) : Prop :=
  Mirrors (canonical.map (·.content)) (rows.map (·.content))

structure Sound (recordLen : LedgerLine → Nat) (s : StoreState) : Prop where
  log : CanonicalLog s.canonical
  mirrors : DbMirrors s.canonical s.rows
  mtime : ∀ t, s.dbFingerprint = some t → t ≤ s.clock
  sidecar : ∀ cache, s.sidecar = some cache → Honest recordLen s cache

theorem sound_initial {canonical : List LedgerLine} (h : CanonicalLog canonical) :
    Sound recordLen (.initial canonical) :=
  ⟨h, Mirrors.nil _, by simp [StoreState.initial, StoreState.dbFingerprint], by simp [StoreState.initial]⟩

/-- **Equal measurements are equal rows.** -/
theorem Sound.perm (h : Sound recordLen s) (hstats : dbEventStats s.rows = segmentSeqStats s.canonical) :
    (s.rows.map (·.content)).Perm (s.canonical.map (·.content)) := by
  refine h.mirrors.perm ?_
  have hcount := congrArg SeqStats.count hstats
  simp only [dbEventStats, segmentSeqStats, Int.natCast_inj] at hcount
  simpa using hcount

/-- A sidecar of current measurements is honest. -/
theorem honest_freshCache {canonicalStats dbStats : SeqStats}
    (hmtime : ∀ t, s.dbFingerprint = some t → t ≤ s.clock)
    (hcanonical : segmentSeqStats s.canonical = canonicalStats) (hdb : dbEventStats s.rows = dbStats) :
    Honest recordLen s (freshCache recordLen s canonicalStats dbStats) :=
  ⟨Nat.le_refl _, hmtime, fun _ _ _ => ⟨hcanonical, hdb⟩⟩

theorem segmentsFingerprint_append (canonical : List LedgerLine) (entry : LedgerLine) :
    segmentsFingerprint recordLen (canonical ++ [entry]) =
      segmentsFingerprint recordLen canonical + (recordLen entry + 1) :=
  sumOf_append_singleton _ _ _

/-- What a sidecar says does not depend on which sidecar is installed. -/
theorem Honest.with_sidecar {cache : ReconcileCache} (h : Honest recordLen s cache)
    (installed : Option ReconcileCache) : Honest recordLen { s with sidecar := installed } cache :=
  ⟨h.segments_le, h.db_le, h.measured⟩

namespace Sound

/-! ### One effect at a time -/

/-- A write to the database outdates every sidecar. -/
theorem writeDb (h : Sound recordLen s) {rows : List DbRow} (hrows : DbMirrors s.canonical rows) :
    Sound recordLen (s.writeDb rows) where
  log := h.log
  mirrors := hrows
  mtime := by
    intro t ht
    exact (Option.some.inj ht).ge
  sidecar := by
    intro cache hcache
    have hold := h.sidecar cache hcache
    refine ⟨hold.segments_le, fun t ht => (hold.db_le t ht).trans (Nat.le_succ _), fun _ hdb _ => ?_⟩
    -- the new write time is above every time a sidecar knows of
    have hlt := hold.db_le _ hdb
    exact absurd hlt (Nat.not_succ_le_self _)

theorem removeDb (h : Sound recordLen s) : Sound recordLen s.removeDb where
  log := h.log
  mirrors := Mirrors.nil _
  mtime := by simp [StoreState.removeDb, StoreState.dbFingerprint]
  sidecar := fun cache hcache =>
    ⟨(h.sidecar cache hcache).segments_le, (h.sidecar cache hcache).db_le, fun _ _ hsome => by cases hsome⟩

theorem openDb (h : Sound recordLen s) : Sound recordLen s.openDb := by
  unfold StoreState.openDb
  split
  · exact h
  · exact h.writeDb (Mirrors.nil _)

theorem invalidateSidecar (h : Sound recordLen s) (env : StoreEnv) :
    Sound recordLen (invalidateSidecar env s) := by
  refine ⟨h.log, h.mirrors, h.mtime, fun cache hcache => ?_⟩
  unfold RallyPoint.invalidateSidecar at hcache
  dsimp only at hcache
  split at hcache
  · exact (h.sidecar cache hcache).with_sidecar _
  · cases hcache

theorem publish (h : Sound recordLen s) {cache : ReconcileCache} (hcache : Honest recordLen s cache) :
    Sound recordLen { s with sidecar := some cache } := by
  refine ⟨h.log, h.mirrors, h.mtime, fun found hfound => ?_⟩
  obtain rfl := Option.some.inj hfound
  exact hcache.with_sidecar _

/-- A canonical row outdates every sidecar. -/
theorem grow (h : Sound recordLen s) {entry : LedgerLine}
    (hseq : entry.seq = (segmentSeqStats s.canonical).maxSeq + 1) :
    Sound recordLen { s with canonical := s.canonical ++ [entry] } where
  log := h.log.append hseq
  mirrors := by
    have hgrow := h.mirrors.grow [entry.content]
    rwa [DbMirrors, List.map_append, List.map_cons, List.map_nil]
  mtime := h.mtime
  sidecar := by
    intro cache hcache
    have hold := h.sidecar cache hcache
    have hlen := @segmentsFingerprint_append recordLen s.canonical entry
    have hle := hold.segments_le
    -- the segments are one row and its newline longer than any length a sidecar knows of
    refine ⟨?_, hold.db_le, fun hsame _ _ => ?_⟩
    · rw [hlen]
      omega
    · rw [hlen] at hsame
      omega

end Sound

/-! ### Measurements -/

/-- A fitting sidecar has the canonical and the database measurements. -/
theorem stats_of_matches (h : Sound recordLen s) {cache : ReconcileCache} (hcache : s.sidecar = some cache)
    (hfit : reconcileCacheMatches recordLen cache s = true) :
    segmentSeqStats s.canonical = ⟨cache.canonicalCount, cache.canonicalMaxSeq⟩ ∧
      dbEventStats s.rows = segmentSeqStats s.canonical := by
  simp only [reconcileCacheMatches, Bool.and_eq_true, beq_iff_eq] at hfit
  obtain ⟨⟨⟨⟨⟨hsegments, hcount⟩, hmax⟩, -⟩, hsome⟩, hdb⟩ := hfit
  obtain ⟨hcanonical, hrows⟩ := (h.sidecar cache hcache).measured hsegments hdb hsome
  exact ⟨hcanonical, by rw [hrows, hcanonical, hcount, hmax]⟩

/-- **The proof of an append tells the truth:** its high-water mark is the full fold's. -/
theorem stats_of_derivedDbProof (h : Sound recordLen s) {cache : ReconcileCache}
    (hproof : derivedDbProof recordLen env s = some cache) :
    segmentSeqStats s.canonical = ⟨cache.canonicalCount, cache.canonicalMaxSeq⟩ := by
  obtain ⟨hcache, hfit⟩ := Option.filter_eq_some_iff.mp hproof
  simp only [Bool.and_eq_true] at hfit
  exact (stats_of_matches h hcache hfit.1.1.1).1

theorem canonicalHighWater_eq (h : Sound recordLen s) (env : StoreEnv) :
    canonicalHighWater recordLen env s = (segmentSeqStats s.canonical).maxSeq := by
  unfold canonicalHighWater
  cases hproof : derivedDbProof recordLen env s with
  | none => rfl
  | some cache =>
    dsimp only
    rw [stats_of_derivedDbProof h hproof]

/-- Counting leaves a sound room, whose database it has counted. -/
theorem readDbEventStats_spec (h : Sound recordLen s) {stats : Option SeqStats}
    (hread : readDbEventStats env s = (s', stats)) :
    Sound recordLen s' ∧ s'.canonical = s.canonical ∧
      ∀ found, stats = some found → dbEventStats s'.rows = found := by
  unfold readDbEventStats at hread
  split at hread
  case _ hnone =>
    cases hread
    refine ⟨h, rfl, fun found hfound => ?_⟩
    obtain rfl := Option.some.inj hfound
    rw [StoreState.rows, Option.isNone_iff_eq_none.mp hnone]
    rfl
  · split at hread
    · split at hread
      · cases hread
        exact ⟨h.removeDb, rfl, fun found hfound => by obtain rfl := Option.some.inj hfound; rfl⟩
      · cases hread
        exact ⟨h, rfl, fun found hfound => by cases hfound⟩
    · split at hread
      · cases hread
        exact ⟨h, rfl, fun found hfound => by cases hfound⟩
      · cases hread
        exact ⟨h, rfl, fun found hfound => Option.some.inj hfound⟩

/-! ### Projection -/

/-- A canonical row is written only while no row bears its event id, so it is written once. -/
theorem projectRow_spec (h : Sound recordLen s) {fact : Fact}
    (hmem : (fact.kind.asStr, fact) ∈ s.canonical.map (·.content))
    (hproject : projectRow env s fact = some s') : Sound recordLen s' ∧ s'.canonical = s.canonical := by
  unfold projectRow at hproject
  split at hproject
  case _ habsent =>
    split at hproject
    · cases hproject
    · cases hproject
      refine ⟨h.writeDb ?_, rfl⟩
      -- a row with this payload would bear this event id, and there is none
      rw [DbMirrors, List.map_append]
      refine h.mirrors.insert hmem fun hpresent => ?_
      obtain ⟨row, hrow, hcontent⟩ := List.mem_map.mp hpresent
      have hpayload : row.payload = fact := congrArg Prod.snd hcontent
      have hnone := List.filter_eq_nil_iff.mp habsent row hrow
      simp [hpayload] at hnone
  case _ existing _ =>
    split at hproject
    · cases hproject
      exact ⟨h, rfl⟩
    · cases hproject
  · cases hproject

/-- What the context of an append promises about the room it is projected in. -/
def ContextFits (s : StoreState) (context : Option AppendProjectionContext) : Prop :=
  ∀ ctx, context = some ctx →
    segmentSeqStats s.canonical = ⟨ctx.cache.canonicalCount + 1, ctx.entry.seq⟩

theorem refreshReconcileCacheAfterAppend_spec (h : Sound recordLen s)
    {context : Option AppendProjectionContext} (hcontext : ContextFits s context) {appendedSeq : Int}
    {published : Option ReconcileCache}
    (hrefresh : refreshReconcileCacheAfterAppend recordLen env context appendedSeq s = (s', published)) :
    Sound recordLen s' ∧ s'.canonical = s.canonical ∧
      ∀ cache, published = some cache → Honest recordLen s' cache := by
  unfold refreshReconcileCacheAfterAppend at hrefresh
  split at hrefresh
  case _ cache hadvanced =>
    cases hrefresh
    refine ⟨h, rfl, fun found hfound => ?_⟩
    obtain rfl := Option.some.inj hfound
    obtain ⟨ctx, hctx, rfl⟩ := Option.map_eq_some_iff.mp hadvanced
    obtain ⟨hctx, hadvance⟩ := Option.filter_eq_some_iff.mp hctx
    simp only [Bool.and_eq_true, beq_iff_eq] at hadvance
    -- of the five conditions only the sequence matters here: the context was proven before the write
    obtain ⟨⟨-, hseq⟩, -⟩ := hadvance
    refine honest_freshCache h.mtime ?_ rfl
    rw [hcontext ctx hctx, hseq]
  · split at hrefresh
    case _ hread =>
      cases hrefresh
      obtain ⟨hsound, hsame, -⟩ := readDbEventStats_spec h hread
      exact ⟨hsound, hsame, fun cache hcache => by cases hcache⟩
    case _ measured stats hread =>
      obtain ⟨hsound, hsame, hstats⟩ := readDbEventStats_spec h hread
      split at hrefresh
      · cases hrefresh
        exact ⟨hsound, hsame, fun cache hcache => by cases hcache⟩
      · cases hrefresh
        refine ⟨hsound, hsame, fun cache hcache => ?_⟩
        obtain rfl := Option.some.inj hcache
        exact honest_freshCache hsound.mtime rfl (hstats stats rfl)

/-- **A projection, however far it gets, keeps the room sound.** -/
theorem projectCanonicalFactInner_spec (h : Sound recordLen s) {context : Option AppendProjectionContext}
    (hcontext : ContextFits s context) {fact : Fact}
    (hmem : (fact.kind.asStr, fact) ∈ s.canonical.map (·.content)) {complete : Bool}
    (hinner : projectCanonicalFactInner recordLen env context s fact = (s', complete)) :
    Sound recordLen s' ∧ s'.canonical = s.canonical := by
  unfold projectCanonicalFactInner at hinner
  split at hinner
  · cases hinner
    exact ⟨h, rfl⟩
  · split at hinner
    · cases hinner
      exact ⟨h.openDb, by simp⟩
    case _ projected hproject =>
      obtain ⟨hsound, hsame⟩ := projectRow_spec h.openDb (by simpa using hmem) hproject
      rw [StoreState.openDb_canonical] at hsame
      split at hinner
      · cases hinner
        exact ⟨hsound, hsame⟩
      · have hfits : ContextFits projected context := fun ctx hctx => by rw [hsame, hcontext ctx hctx]
        split at hinner
        case _ measured hrefresh =>
          cases hinner
          obtain ⟨hmeasured, hsame', -⟩ := refreshReconcileCacheAfterAppend_spec hsound hfits hrefresh
          exact ⟨hmeasured, hsame'.trans hsame⟩
        case _ measured cache hrefresh =>
          obtain ⟨hmeasured, hsame', hhonest⟩ := refreshReconcileCacheAfterAppend_spec hsound hfits hrefresh
          split at hinner
          · cases hinner
            exact ⟨hmeasured, hsame'.trans hsame⟩
          · cases hinner
            exact ⟨hmeasured.publish (hhonest cache rfl), hsame'.trans hsame⟩

theorem projectCanonicalFact_spec (h : Sound recordLen s) {context : Option AppendProjectionContext}
    (hcontext : ContextFits s context) {fact : Fact}
    (hmem : (fact.kind.asStr, fact) ∈ s.canonical.map (·.content)) :
    Sound recordLen (projectCanonicalFact recordLen env context s fact) ∧
      (projectCanonicalFact recordLen env context s fact).canonical = s.canonical := by
  unfold projectCanonicalFact
  cases hinner : projectCanonicalFactInner recordLen env context s fact with
  | mk projected complete =>
    obtain ⟨hsound, hsame⟩ := projectCanonicalFactInner_spec h hcontext hmem hinner
    cases complete with
    | true => exact ⟨hsound, hsame⟩
    | false => exact ⟨hsound.invalidateSidecar env, hsame⟩

/-! ### Append -/

/-- **One append:** the room stays sound, and the canonical log gets the next row unless the sequence
overflows. -/
theorem appendCanonicalFact_spec (h : Sound recordLen s) (env : StoreEnv) (fact : Fact) :
    Sound recordLen (appendCanonicalFact recordLen env s fact) ∧
      (appendCanonicalFact recordLen env s fact).canonical =
        if canonicalHighWater recordLen env s + 1 < i64Bound then
          s.canonical ++ [appendedEntry recordLen env s fact]
        else s.canonical := by
  unfold appendCanonicalFact
  split
  · have hseq : (appendedEntry recordLen env s fact).seq = (segmentSeqStats s.canonical).maxSeq + 1 := by
      rw [appendedEntry, canonicalHighWater_eq h env]
    have hwritten : Sound recordLen
        { (if env.tailRepaired then invalidateSidecar env s else s) with
          canonical := s.canonical ++ [appendedEntry recordLen env s fact] } := by
      split
      · exact (h.invalidateSidecar env).grow hseq
      · exact h.grow hseq
    dsimp only
    split
    · exact ⟨hwritten, rfl⟩
    · have hfits : ContextFits
          { (if env.tailRepaired then invalidateSidecar env s else s) with
            canonical := s.canonical ++ [appendedEntry recordLen env s fact] }
          ((derivedDbProof recordLen env s).map fun cache => ⟨cache, appendedEntry recordLen env s fact⟩) := by
        intro ctx hctx
        obtain ⟨cache, hproof, rfl⟩ := Option.map_eq_some_iff.mp hctx
        rw [segmentSeqStats_append, stats_of_derivedDbProof h hproof]
      exact projectCanonicalFact_spec hwritten hfits
        (List.mem_map.mpr ⟨appendedEntry recordLen env s fact, by simp, rfl⟩)
  · exact ⟨h, rfl⟩

/-- **The store commits what the gate admits:** after the append the canonical facts are the ledger the gate
read, followed by the fact it committed. -/
theorem appendCanonicalFact_facts (h : Sound recordLen s) (env : StoreEnv) {appendEnv : AppendEnv}
    {fact f : Fact} (hcommit : appendFactUnderLock appendEnv (s.canonical.map (·.fact)) fact = .ok (.committed f)) :
    (appendCanonicalFact recordLen env s fact).canonical.map (·.fact) = s.canonical.map (·.fact) ++ [f] := by
  obtain ⟨-, -, -, -, -, hbound, rfl⟩ := appendFactUnderLock_committed_iff.mp hcommit
  rw [← segmentSeqStats_maxSeq, ← canonicalHighWater_eq h env] at hbound
  rw [(appendCanonicalFact_spec h env fact).2, if_pos hbound, List.map_append, List.map_cons, List.map_nil,
    LedgerLine.fact, appendedEntry, canonicalHighWater_eq h env, segmentSeqStats_maxSeq]

/-! ### Reconcile -/

/-- A replay of the canonical rows is the canonical rows. -/
theorem replayEvents_content (canonical : List LedgerLine) :
    (replayEvents canonical).map (·.content) = canonical.map (·.content) := by
  have hcontent : ∀ p : LedgerLine × Nat,
      DbRow.content ⟨(p.2 : Int) + 1, p.1.eventType, p.1.fact⟩ = p.1.content := fun _ => rfl
  rw [replayEvents, List.map_map]
  simp only [Function.comp_def, hcontent]
  rw [show (fun p : LedgerLine × Nat => p.1.content) = LedgerLine.content ∘ Prod.fst from rfl,
    ← List.map_map, List.zipIdx_map_fst]

/-- Its measurements are those of the segments. -/
theorem replayEvents_stats {canonical : List LedgerLine} (h : CanonicalLog canonical) :
    dbEventStats (replayEvents canonical) = segmentSeqStats canonical := by
  have hfold : (replayEvents canonical).foldl (fun m row => max m row.fact.seq) 0 =
      canonical.foldl (fun m entry => max m entry.seq) 0 := by
    have hseq : ∀ p ∈ canonical.zipIdx,
        (DbRow.fact ⟨(p.2 : Int) + 1, p.1.eventType, p.1.fact⟩).seq = p.1.seq := by
      intro p hp
      -- a positive sequence survives the read, only a missing one would take the row number
      have hpos := h.positive p.1 (List.fst_mem_of_mem_zipIdx hp)
      have hne : p.1.fact.seq ≠ 0 := (Int.ne_of_lt hpos).symm
      rw [DbRow.fact, if_neg hne]
      rfl
    rw [replayEvents, List.foldl_map]
    conv_rhs => rw [← List.zipIdx_map_fst 0 canonical, List.foldl_map]
    exact List.foldl_ext _ _ _ fun m p hp => by rw [hseq p hp]
  rw [dbEventStats, hfold, foldl_max_of_ascending h.ascending h.positive]
  simp [replayEvents, segmentSeqStats]

theorem rebuildDbFromSegments_spec (h : Sound recordLen s) {complete : Bool}
    (hrebuild : rebuildDbFromSegments env s = (s', complete)) :
    Sound recordLen s' ∧ s'.canonical = s.canonical ∧
      (complete = true → dbEventStats s'.rows = segmentSeqStats s'.canonical) := by
  unfold rebuildDbFromSegments at hrebuild
  split at hrebuild
  · cases hrebuild
    exact ⟨h.removeDb, rfl, fun hfalse => by cases hfalse⟩
  · split at hrebuild
    · cases hrebuild
      exact ⟨h.removeDb.openDb, by simp, fun hfalse => by cases hfalse⟩
    · cases hrebuild
      refine ⟨h.removeDb.writeDb ?_, rfl, fun _ => replayEvents_stats h.log⟩
      rw [DbMirrors, replayEvents_content]
      exact Mirrors.refl h.log.nodup_content

theorem Sound.publishSidecar (h : Sound recordLen s) {cache : ReconcileCache}
    (hcache : Honest recordLen s cache) (env : StoreEnv) : Sound recordLen (publishSidecar env s cache) := by
  unfold RallyPoint.publishSidecar
  cases env.sidecarWriteFails with
  | true => exact h
  | false => exact h.publish hcache

/-- Two empty sides measure alike. -/
theorem stats_of_counts_zero (hcanonical : (segmentSeqStats s.canonical).count = 0)
    (hdb : (dbEventStats s.rows).count = 0) : dbEventStats s.rows = segmentSeqStats s.canonical := by
  have hnil : s.canonical = [] := by simpa [segmentSeqStats] using hcanonical
  have hnil' : s.rows = [] := by simpa [dbEventStats] using hdb
  rw [hnil, hnil']
  rfl

/-- The authoritative reconcile. -/
theorem reconcileByStats_spec (h : Sound recordLen s) {complete : Bool}
    (hreconcile : reconcileByStats recordLen env s (dbEventStats s.rows) = (s', complete)) :
    Sound recordLen s' ∧ s'.canonical = s.canonical ∧
      (complete = true → dbEventStats s'.rows = segmentSeqStats s'.canonical) := by
  unfold reconcileByStats at hreconcile
  dsimp only at hreconcile
  split at hreconcile
  case _ hempty =>
    cases hreconcile
    exact ⟨h.invalidateSidecar env, rfl, fun _ => stats_of_counts_zero hempty.1 hempty.2⟩
  · split at hreconcile
    · cases hreconcile
      exact ⟨h, rfl, fun hfalse => by cases hfalse⟩
    · split at hreconcile
      · split at hreconcile
        · cases hreconcile
          exact ⟨h, rfl, fun hfalse => by cases hfalse⟩
        · split at hreconcile
          case _ rebuilt hrebuild =>
            cases hreconcile
            obtain ⟨hrebuilt, hsame, hequal⟩ := rebuildDbFromSegments_spec h hrebuild
            have hstats := hequal rfl
            refine ⟨hrebuilt.publishSidecar (honest_freshCache hrebuilt.mtime ?_ ?_) env, hsame,
              fun _ => hstats⟩
            · rw [hsame]
            · rw [hstats, hsame]
          case _ rebuilt hrebuild =>
            cases hreconcile
            obtain ⟨hrebuilt, hsame, -⟩ := rebuildDbFromSegments_spec h hrebuild
            exact ⟨hrebuilt, hsame, fun hfalse => by cases hfalse⟩
      case _ hequal =>
        cases hreconcile
        exact ⟨h.publishSidecar (honest_freshCache h.mtime rfl rfl) env, rfl,
          fun _ => (Decidable.not_not.mp hequal).symm⟩

/-- **One reconcile:** the room stays sound, its canonical rows stay, and success means equal measurements. -/
theorem reconcileSegmentsAndDb_spec (h : Sound recordLen s) {complete : Bool}
    (hreconcile : reconcileSegmentsAndDb recordLen env s = (s', complete)) :
    Sound recordLen s' ∧ s'.canonical = s.canonical ∧
      (complete = true → dbEventStats s'.rows = segmentSeqStats s'.canonical) := by
  unfold reconcileSegmentsAndDb at hreconcile
  split at hreconcile
  case _ hfast =>
    -- the sidecar still fits, so nothing is counted; its honesty stands in for the count
    cases hreconcile
    refine ⟨h, rfl, fun _ => ?_⟩
    cases hcache : s.sidecar with
    | none => simp [hcache] at hfast
    | some cache =>
      rw [hcache, Option.any_some] at hfast
      exact (stats_of_matches h hcache hfast).2
  · split at hreconcile
    case _ hread =>
      cases hreconcile
      obtain ⟨hsound, hsame, -⟩ := readDbEventStats_spec h hread
      exact ⟨hsound, hsame, fun hfalse => by cases hfalse⟩
    case _ measured stats hread =>
      obtain ⟨hsound, hsame, hstats⟩ := readDbEventStats_spec h hread
      obtain rfl := hstats stats rfl
      obtain ⟨hdone, hsame', hequal⟩ := reconcileByStats_spec hsound hreconcile
      exact ⟨hdone, hsame'.trans hsame, hequal⟩

/-! ## Runs -/

abbrev StoreRun (recordLen : LedgerLine → Nat) : StoreState → StoreState → Prop :=
  Relation.ReflTransGen (StoreStep recordLen)

/-- **The step lemma:** every operation keeps the room sound and every canonical row in place. -/
theorem Sound.step (h : Sound recordLen s) (hstep : StoreStep recordLen s s') :
    Sound recordLen s' ∧ s.canonical <+: s'.canonical := by
  cases hstep with
  | append env _ fact =>
    obtain ⟨hsound, hcanonical⟩ := appendCanonicalFact_spec h env fact
    refine ⟨hsound, ?_⟩
    rw [hcanonical]
    split
    · exact List.prefix_append _ _
    · exact List.prefix_rfl
  | retry env _ entry hentry hkind =>
    have hmem : (entry.fact.kind.asStr, entry.fact) ∈ s.canonical.map (·.content) :=
      List.mem_map.mpr ⟨entry, hentry, Prod.ext hkind rfl⟩
    obtain ⟨hsound, hsame⟩ := projectCanonicalFact_spec h
      (fun ctx (hctx : none = some ctx) => by cases hctx) hmem
    exact ⟨hsound, hsame ▸ List.prefix_rfl⟩
  | reconcile env _ =>
    cases hreconcile : reconcileSegmentsAndDb recordLen env s with
    | mk reconciled complete =>
      obtain ⟨hsound, hsame, -⟩ := reconcileSegmentsAndDb_spec h hreconcile
      exact ⟨hsound, hsame ▸ List.prefix_rfl⟩

theorem Sound.run (h : Sound recordLen s) (hrun : StoreRun recordLen s s') :
    Sound recordLen s' ∧ s.canonical <+: s'.canonical := by
  induction hrun with
  | refl => exact ⟨h, List.prefix_rfl⟩
  | tail _ hstep ih =>
    obtain ⟨hsound, hgrows⟩ := ih.1.step hstep
    exact ⟨hsound, ih.2.trans hgrows⟩

/-- **The derived database never diverges.** In every state a run reaches, `facts.db` is a duplicate-free
subset of the canonical rows with equal payloads; equal measurements are equal rows; a reconcile that succeeds
leaves equal rows; and no canonical sequence is used twice, now or later. -/
theorem derived_db_never_diverges {start : List LedgerLine} (hstart : CanonicalLog start)
    (hrun : StoreRun recordLen (.initial start) s) :
    ((s.rows.map (·.content)).Nodup ∧ s.rows.map (·.content) ⊆ s.canonical.map (·.content)) ∧
      (dbEventStats s.rows = segmentSeqStats s.canonical →
        (s.rows.map (·.content)).Perm (s.canonical.map (·.content))) ∧
      (∀ env reconciled, reconcileSegmentsAndDb recordLen env s = (reconciled, true) →
        reconciled.canonical = s.canonical ∧
          (reconciled.rows.map (·.content)).Perm (reconciled.canonical.map (·.content))) ∧
      ∀ later, StoreRun recordLen s later →
        s.canonical <+: later.canonical ∧ (later.canonical.map (·.seq)).Nodup := by
  have hsound : Sound recordLen s := ((sound_initial hstart).run hrun).1
  refine ⟨⟨hsound.mirrors.nodup, hsound.mirrors.subset⟩, hsound.perm, ?_, ?_⟩
  · intro env reconciled hreconcile
    obtain ⟨hreconciled, hsame, hequal⟩ := reconcileSegmentsAndDb_spec hsound hreconcile
    exact ⟨hsame, hreconciled.perm (hequal rfl)⟩
  · intro later hlater
    obtain ⟨hsound', hgrows⟩ := hsound.run hlater
    exact ⟨hgrows, hsound'.log.nodup_seq⟩

end Invariant

/-! ## A room with a gap -/

namespace StoreSample

def env : StoreEnv := { now := "2026-01-01T00:00:00Z", engagement := "e" }

/-- Every rendered row takes ten bytes. -/
def recordLen : LedgerLine → Nat := fun _ => 10

def row (seq : Int) (eventId : String) : LedgerLine where
  seq := seq
  occurredAt := "2026-01-01T00:00:00Z"
  eventType := "artifact"
  payload := { eventId := eventId, kind := .artifact, seq := seq }
  engagement := some "e"

/-- A cloned room: sequence 3 was never used and there is no database yet. -/
def start : List LedgerLine := [row 1 "a", row 2 "b", row 4 "c"]

/-- The projection of the first append fails. -/
def failed : StoreState :=
  appendCanonicalFact recordLen { env with dbAppendFails := true } (.initial start)
    { eventId := "d", kind := .artifact }

/-- The second append is projected, into a database that lacks every other row. -/
def behind : StoreState := appendCanonicalFact recordLen env failed { eventId := "e", kind := .artifact }

theorem run_behind : StoreRun recordLen (.initial start) behind :=
  .tail (.single (.append _ _ _)) (.append _ _ _)

end StoreSample

open StoreSample

/-- The database of the room lags behind, and one reconcile makes it equal. -/
theorem derived_db_never_diverges_behind :
    dbEventStats behind.rows ≠ segmentSeqStats behind.canonical ∧
      ((reconcileSegmentsAndDb recordLen env behind).1.rows.map (·.content)).Perm
        ((reconcileSegmentsAndDb recordLen env behind).1.canonical.map (·.content)) := by
  have hstart : CanonicalLog start := ⟨by decide, by decide⟩
  have hok : (reconcileSegmentsAndDb recordLen env behind).2 = true := by decide
  refine ⟨by decide, ?_⟩
  exact ((derived_db_never_diverges hstart run_behind).2.2.1 env _ (Prod.ext rfl hok)).2

end RallyPoint
