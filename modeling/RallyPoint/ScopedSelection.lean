/-
# RallyPoint.ScopedSelection — the indexed closure behind a scoped snapshot (`store.rs`).

The selection starts from the facts that match and follows references both ways and, from a claim, the releases of
its scopes. The code does so with three indices over the positions of the facts, a queue of positions, and a set of
the keys already expanded for each index. `oneStep` is the rule the old code iterated over the whole segment until
nothing changed; `selectScopedFactsWithStats_eq` says that the indexed loop selects what the iteration ends with.
-/
import RallyPoint.Lib.Buckets
import RallyPoint.ScopedSnapshot

namespace RallyPoint.ScopedSelection

open Lib

/-! ## The loop -/

structure ScopedSelectionStats where
  factsIndexed : Nat := 0
  initialMatchChecks : Nat := 0
  queuePops : Nat := 0
  adjacencyVisits : Nat := 0
  scopeVisits : Nat := 0
  refBucketsProcessed : Nat := 0
  scopeBucketsProcessed : Nat := 0
  deriving DecidableEq, Repr

/-- The positions of the facts by event id, by reference, and of the releases by scope. -/
structure Indices where
  factsByEventId : Buckets String Nat
  factsByRefId : Buckets String Nat
  releasesByScope : Buckets String Nat

/-- The positions of the facts that have a key. -/
def positionsBy (facts : List Fact) (keysOf : Fact → List String) : Buckets String Nat :=
  fun key => (Buckets.fill (fun entry : Fact × Nat => keysOf entry.1) facts.zipIdx key).map (·.2)

def indexed (facts : List Fact) : Indices where
  factsByEventId := positionsBy facts fun fact => [fact.eventId]
  factsByRefId := positionsBy facts fun fact => fact.refId.toList
  releasesByScope := positionsBy facts fun fact => if fact.kind == .release then fact.scope else []

/-- The state of the loop. -/
structure Selection where
  selected : List Bool
  queue : List Nat := []
  processedEventIds : List String := []
  processedRefIds : List String := []
  processedClaimScopes : List String := []
  stats : ScopedSelectionStats := {}

namespace Selection

def enqueue (s : Selection) (index : Nat) : Selection :=
  if s.selected.getD index true then s
  else { s with selected := s.selected.set index true, queue := s.queue ++ [index] }

def visitAdjacent (s : Selection) (neighbor : Nat) : Selection :=
  { s with stats.adjacencyVisits := s.stats.adjacencyVisits + 1 }.enqueue neighbor

def visitRelease (s : Selection) (release : Nat) : Selection :=
  { s with stats.scopeVisits := s.stats.scopeVisits + 1 }.enqueue release

def openEventId (indices : Indices) (s : Selection) (eventId : String) : Selection :=
  if eventId ∈ s.processedEventIds then s
  else
    (indices.factsByRefId eventId).foldl visitAdjacent
      { s with
        processedEventIds := eventId :: s.processedEventIds
        stats.refBucketsProcessed := s.stats.refBucketsProcessed + 1 }

def openRefId (indices : Indices) (s : Selection) (refId : String) : Selection :=
  if refId ∈ s.processedRefIds then s
  else
    (indices.factsByEventId refId).foldl visitAdjacent
      { s with
        processedRefIds := refId :: s.processedRefIds
        stats.refBucketsProcessed := s.stats.refBucketsProcessed + 1 }

def openClaimScope (indices : Indices) (s : Selection) (scope : String) : Selection :=
  if scope ∈ s.processedClaimScopes then s
  else
    (indices.releasesByScope scope).foldl visitRelease
      { s with
        processedClaimScopes := scope :: s.processedClaimScopes
        stats.scopeBucketsProcessed := s.stats.scopeBucketsProcessed + 1 }

/-- What one popped fact opens. -/
def expand (indices : Indices) (s : Selection) (fact : Fact) : Selection :=
  let s := s.openEventId indices fact.eventId
  let s := fact.refId.toList.foldl (openRefId indices) s
  if fact.kind == .claim then fact.scope.foldl (openClaimScope indices) s else s

/-- One round of `while let Some(index) = queue.pop_front()`. -/
def pop (facts : List Fact) (indices : Indices) (s : Selection) (index : Nat) (rest : List Nat) : Selection :=
  let s := { s with queue := rest, stats.queuePops := s.stats.queuePops + 1 }
  match facts[index]? with
  | some fact => s.expand indices fact
  | none => s

/-- The loop, for at most so many rounds. -/
def run (facts : List Fact) (indices : Indices) : Nat → Selection → Selection
  | 0, s => s
  | n + 1, s =>
    match s.queue with
    | [] => s
    | index :: rest => run facts indices n (s.pop facts indices index rest)

end Selection

section Select

variable (repoRelativePath : String → Option String) (facts : List Fact) (runMarker path : Option String)

/-- The loop over all facts before the worklist. -/
def matchInitial : Selection :=
  facts.zipIdx.foldl (fun s entry =>
    let s := { s with stats.initialMatchChecks := s.stats.initialMatchChecks + 1 }
    if factMatchesScopedSelection repoRelativePath runMarker path entry.1 then
      { s with selected := s.selected.set entry.2 true, queue := s.queue ++ [entry.2] }
    else s)
    { selected := List.replicate facts.length false, stats := { factsIndexed := facts.length } }

/-- The state when the loop is left. -/
def selectLoop : Selection :=
  (matchInitial repoRelativePath facts runMarker path).run facts (indexed facts) facts.length

def selectScopedFactsWithStats : List Fact × ScopedSelectionStats :=
  if runMarker.isNone && path.isNone then
    (facts, { factsIndexed := facts.length, initialMatchChecks := facts.length, queuePops := facts.length })
  else
    let s := selectLoop repoRelativePath facts runMarker path
    ((facts.zipIdx.filter fun entry => s.selected.getD entry.2 false).map (·.1), s.stats)

end Select

/-! ## The rule -/

/-- The one-step rule: a reference either way, or a release of a scope of a claim. -/
def oneStep (x y : Fact) : Bool :=
  y.refId == some x.eventId || x.refId == some y.eventId ||
    (x.kind == .claim && y.kind == .release && y.scope.any x.scope.contains)

/-- The rule on positions. -/
def joins (facts : List Fact) (i j : Nat) : Bool :=
  facts[i]?.any fun x => facts[j]?.any fun y => oneStep x y

section Rule

variable (repoRelativePath : String → Option String) (facts : List Fact) (runMarker path : Option String)

/-- The positions selected directly. -/
def direct (i : Nat) : Bool := facts[i]?.any (factMatchesScopedSelection repoRelativePath runMarker path)

/-- The rule iterated over the whole segment, until nothing changes. -/
def naiveSelection : Nat → Bool :=
  naive (List.range facts.length) (joins facts) facts.length (direct repoRelativePath facts runMarker path)

/-- The facts at the positions of a selection, in the original order. -/
def factsAt (selection : Nat → Bool) : List Fact := (facts.zipIdx.filter fun entry => selection entry.2).map (·.1)

end Rule

/-! ## The loop as a worklist of keys -/

/-- The links between positions that the loop follows. -/
def positionLinks (facts : List Fact) : Links Nat LinkKey where
  keys i := match facts[i]? with
    | some fact => .referringTo fact.eventId :: (fact.refId.toList.map .withId ++
        if fact.kind == .claim then fact.scope.map .releasing else [])
    | none => []
  bucket
    | .referringTo eventId => (indexed facts).factsByRefId eventId
    | .withId refId => (indexed facts).factsByEventId refId
    | .releasing scope => (indexed facts).releasesByScope scope

/-- The three processed sets are the opened keys, and the flags are the positions taken up. -/
structure Simulates (facts : List Fact) (s : Selection) (w : Worklist Nat LinkKey) : Prop where
  queue : s.queue = w.queue
  flags : ∀ i, s.selected[i]? = if i < facts.length then some (decide (i ∈ w.selected)) else none
  eventIds : ∀ e, e ∈ s.processedEventIds ↔ .referringTo e ∈ w.opened
  refIds : ∀ r, r ∈ s.processedRefIds ↔ .withId r ∈ w.opened
  scopes : ∀ c, c ∈ s.processedClaimScopes ↔ .releasing c ∈ w.opened

section Loop

variable {facts : List Fact} {s : Selection} {w : Worklist Nat LinkKey} {repoRelativePath : String → Option String}
variable {runMarker path : Option String}

theorem mem_positionsBy {keysOf : Fact → List String} {key : String} {i : Nat} :
    i ∈ positionsBy facts keysOf key ↔ ∃ fact, facts[i]? = some fact ∧ key ∈ keysOf fact := by
  rw [positionsBy, List.mem_map]
  constructor
  · rintro ⟨⟨fact, j⟩, hmem, rfl⟩
    obtain ⟨hentry, hkey⟩ := Buckets.mem_fill.mp hmem
    exact ⟨fact, List.mk_mem_zipIdx_iff_getElem?.mp hentry, hkey⟩
  · rintro ⟨fact, hget, hkey⟩
    exact ⟨(fact, i), Buckets.mem_fill.mpr ⟨List.mk_mem_zipIdx_iff_getElem?.mpr hget, hkey⟩, rfl⟩

@[simp] theorem bucket_referringTo (e : String) :
    (positionLinks facts).bucket (.referringTo e) = positionsBy facts (fun fact => fact.refId.toList) e := rfl

@[simp] theorem bucket_withId (r : String) :
    (positionLinks facts).bucket (.withId r) = positionsBy facts (fun fact => [fact.eventId]) r := rfl

@[simp] theorem bucket_releasing (c : String) : (positionLinks facts).bucket (.releasing c) =
    positionsBy facts (fun fact => if fact.kind == .release then fact.scope else []) c := rfl

theorem lt_of_mem_bucket {k : LinkKey} {i : Nat} (h : i ∈ (positionLinks facts).bucket k) : i < facts.length := by
  have hpos : ∃ fact, facts[i]? = some fact := by
    cases k with
    | referringTo e =>
      rw [bucket_referringTo, mem_positionsBy] at h
      exact h.imp fun fact => And.left
    | withId r =>
      rw [bucket_withId, mem_positionsBy] at h
      exact h.imp fun fact => And.left
    | releasing c =>
      rw [bucket_releasing, mem_positionsBy] at h
      exact h.imp fun fact => And.left
  obtain ⟨fact, hget⟩ := hpos
  exact (List.getElem?_eq_some_iff.mp hget).1

/-- The counters take no part in the simulation. -/
theorem Simulates.withStats (h : Simulates facts s w) (stats : ScopedSelectionStats) :
    Simulates facts { s with stats := stats } w :=
  ⟨h.queue, h.flags, h.eventIds, h.refIds, h.scopes⟩

theorem Simulates.enqueue (h : Simulates facts s w) {i : Nat} (hi : i < facts.length) :
    Simulates facts (s.enqueue i) (w.enqueue i) := by
  have hflag : s.selected.getD i true = decide (i ∈ w.selected) := by
    rw [List.getD_eq_getElem?_getD, h.flags, if_pos hi, Option.getD_some]
  rw [Selection.enqueue, Worklist.enqueue, hflag]
  by_cases hmem : i ∈ w.selected
  · rw [if_pos (decide_eq_true hmem), if_pos hmem]
    exact h
  · rw [if_neg (by simpa using hmem), if_neg hmem]
    refine ⟨congrArg (· ++ [i]) h.queue, fun j => ?_, h.eventIds, h.refIds, h.scopes⟩
    have hlen : i < s.selected.length := by
      have hsome := h.flags i
      rw [if_pos hi] at hsome
      exact (List.getElem?_eq_some_iff.mp hsome).1
    rw [List.getElem?_set, h.flags]
    by_cases hij : i = j
    · subst hij
      simp [hlen, hi]
    · simp [hij, Ne.symm hij]

/-- A loop over neighbours, whatever counter it moves. -/
theorem Simulates.visits {visit : Selection → Nat → Selection}
    (hvisit : ∀ s i, ∃ stats, visit s i = { s with stats := stats }.enqueue i) {l : List Nat}
    (hl : ∀ i ∈ l, i < facts.length) (h : Simulates facts s w) :
    Simulates facts (l.foldl visit s) (w.enqueueAll l) := by
  induction l generalizing s w with
  | nil => exact h
  | cons i l ih =>
    obtain ⟨stats, hstep⟩ := hvisit s i
    rw [List.forall_mem_cons] at hl
    refine ih hl.2 ?_
    rw [hstep]
    exact (h.withStats stats).enqueue hl.1

theorem visitAdjacent_eq (s : Selection) (i : Nat) :
    ∃ stats, s.visitAdjacent i = { s with stats := stats }.enqueue i := ⟨_, rfl⟩

theorem visitRelease_eq (s : Selection) (i : Nat) :
    ∃ stats, s.visitRelease i = { s with stats := stats }.enqueue i := ⟨_, rfl⟩

theorem Simulates.openEventId (h : Simulates facts s w) (e : String) :
    Simulates facts (s.openEventId (indexed facts) e) (w.openKey (positionLinks facts) (.referringTo e)) := by
  rw [Selection.openEventId, Worklist.openKey]
  by_cases hopen : e ∈ s.processedEventIds
  · rw [if_pos hopen, if_pos ((h.eventIds e).mp hopen)]
    exact h
  · rw [if_neg hopen, if_neg fun hmem => hopen ((h.eventIds e).mpr hmem)]
    refine Simulates.visits visitAdjacent_eq (fun i => lt_of_mem_bucket (k := .referringTo e)) ?_
    exact ⟨h.queue, h.flags, by simp [h.eventIds], by simp [h.refIds], by simp [h.scopes]⟩

theorem Simulates.openRefId (h : Simulates facts s w) (r : String) :
    Simulates facts (s.openRefId (indexed facts) r) (w.openKey (positionLinks facts) (.withId r)) := by
  rw [Selection.openRefId, Worklist.openKey]
  by_cases hopen : r ∈ s.processedRefIds
  · rw [if_pos hopen, if_pos ((h.refIds r).mp hopen)]
    exact h
  · rw [if_neg hopen, if_neg fun hmem => hopen ((h.refIds r).mpr hmem)]
    refine Simulates.visits visitAdjacent_eq (fun i => lt_of_mem_bucket (k := .withId r)) ?_
    exact ⟨h.queue, h.flags, by simp [h.eventIds], by simp [h.refIds], by simp [h.scopes]⟩

theorem Simulates.openClaimScope (h : Simulates facts s w) (c : String) :
    Simulates facts (s.openClaimScope (indexed facts) c) (w.openKey (positionLinks facts) (.releasing c)) := by
  rw [Selection.openClaimScope, Worklist.openKey]
  by_cases hopen : c ∈ s.processedClaimScopes
  · rw [if_pos hopen, if_pos ((h.scopes c).mp hopen)]
    exact h
  · rw [if_neg hopen, if_neg fun hmem => hopen ((h.scopes c).mpr hmem)]
    refine Simulates.visits visitRelease_eq (fun i => lt_of_mem_bucket (k := .releasing c)) ?_
    exact ⟨h.queue, h.flags, by simp [h.eventIds], by simp [h.refIds], by simp [h.scopes]⟩

/-- A loop over keys of one kind. -/
theorem Simulates.opens {openOne : Selection → String → Selection} {key : String → LinkKey}
    (hopen : ∀ s w, Simulates facts s w →
      ∀ x, Simulates facts (openOne s x) (w.openKey (positionLinks facts) (key x)))
    (xs : List String) (h : Simulates facts s w) :
    Simulates facts (xs.foldl openOne s) (w.openKeys (positionLinks facts) (xs.map key)) := by
  induction xs generalizing s w with
  | nil => exact h
  | cons x xs ih => exact ih (hopen s w h x)

/-- **One pop** is one pop of the worklist. -/
theorem Simulates.pop (h : Simulates facts s w) (index : Nat) (rest : List Nat) :
    Simulates facts (s.pop facts (indexed facts) index rest)
      ({ w with queue := rest }.openKeys (positionLinks facts) ((positionLinks facts).keys index)) := by
  have hstart : Simulates facts { s with queue := rest, stats.queuePops := s.stats.queuePops + 1 }
      { w with queue := rest } :=
    ⟨rfl, h.flags, h.eventIds, h.refIds, h.scopes⟩
  cases hget : facts[index]? with
  | none =>
    simp only [Selection.pop, positionLinks, hget]
    exact hstart
  | some fact =>
    have hkeys : (positionLinks facts).keys index = .referringTo fact.eventId :: (fact.refId.toList.map .withId ++
        if fact.kind == .claim then fact.scope.map .releasing else []) := by
      simp only [positionLinks, hget]
    have hrefs := Simulates.opens (fun s w h r => h.openRefId r) fact.refId.toList (hstart.openEventId fact.eventId)
    rw [hkeys, Selection.pop]
    simp only [hget, Selection.expand]
    rw [Worklist.openKeys, List.foldl_cons, List.foldl_append]
    by_cases hclaim : (fact.kind == .claim) = true
    · rw [if_pos hclaim, if_pos hclaim]
      exact Simulates.opens (fun s w h c => h.openClaimScope c) fact.scope hrefs
    · rw [if_neg hclaim, if_neg hclaim]
      exact hrefs

/-- **A run** is a run of the worklist. -/
theorem Simulates.run (h : Simulates facts s w) (n : Nat) :
    Simulates facts (s.run facts (indexed facts) n) (w.run (positionLinks facts) n) := by
  induction n generalizing s w with
  | zero => exact h
  | succ n ih =>
    rw [Selection.run, Worklist.run, h.queue]
    cases hqueue : w.queue with
    | nil => exact h
    | cons index rest => exact ih (h.pop index rest)

/-- The positions the loop starts from. -/
def starts (repoRelativePath : String → Option String) (facts : List Fact) (runMarker path : Option String) :
    List Nat :=
  (facts.zipIdx.filter fun entry => factMatchesScopedSelection repoRelativePath runMarker path entry.1).map (·.2)

theorem mem_starts {i : Nat} :
    i ∈ starts repoRelativePath facts runMarker path ↔ direct repoRelativePath facts runMarker path i = true := by
  rw [starts, List.mem_map, direct, Option.any_eq_true]
  constructor
  · rintro ⟨⟨fact, j⟩, hmem, rfl⟩
    obtain ⟨hentry, hmatch⟩ := List.mem_filter.mp hmem
    exact ⟨fact, List.mk_mem_zipIdx_iff_getElem?.mp hentry, hmatch⟩
  · rintro ⟨fact, hget, hmatch⟩
    exact ⟨(fact, i), List.mem_filter.mpr ⟨List.mk_mem_zipIdx_iff_getElem?.mpr hget, hmatch⟩, rfl⟩

/-- The loop before the worklist, on entries whose positions are not taken up yet and differ. -/
theorem Simulates.matching {entries : List (Fact × Nat)} (hrange : ∀ entry ∈ entries, entry.2 < facts.length)
    (hfresh : ∀ entry ∈ entries, entry.2 ∉ w.selected) (hnodup : (entries.map (·.2)).Nodup)
    (h : Simulates facts s w) :
    Simulates facts
      (entries.foldl (fun s entry =>
        let s := { s with stats.initialMatchChecks := s.stats.initialMatchChecks + 1 }
        if factMatchesScopedSelection repoRelativePath runMarker path entry.1 then
          { s with selected := s.selected.set entry.2 true, queue := s.queue ++ [entry.2] }
        else s) s)
      (w.enqueueAll ((entries.filter fun entry =>
        factMatchesScopedSelection repoRelativePath runMarker path entry.1).map (·.2))) := by
  induction entries generalizing s w with
  | nil => exact h
  | cons entry entries ih =>
    rw [List.forall_mem_cons] at hrange hfresh
    rw [List.map_cons, List.nodup_cons] at hnodup
    have hcount := h.withStats { s.stats with initialMatchChecks := s.stats.initialMatchChecks + 1 }
    rw [List.foldl_cons, List.filter_cons]
    by_cases hmatch : factMatchesScopedSelection repoRelativePath runMarker path entry.1 = true
    · -- a position that is not taken up is enqueued
      have hflag : s.selected.getD entry.2 true = false := by
        rw [List.getD_eq_getElem?_getD, h.flags, if_pos hrange.1, Option.getD_some]
        exact decide_eq_false hfresh.1
      have hnew := hcount.enqueue hrange.1
      simp only [Selection.enqueue, hflag, Bool.false_eq_true, if_false] at hnew
      rw [if_pos hmatch, if_pos hmatch, List.map_cons]
      refine ih hrange.2 ?_ hnodup.2 hnew
      intro other hother hmem
      rw [Worklist.enqueue, if_neg hfresh.1, List.mem_cons] at hmem
      rcases hmem with heq | hmem
      · exact hnodup.1 (heq ▸ List.mem_map_of_mem hother)
      · exact hfresh.2 other hother hmem
    · rw [if_neg hmatch, if_neg hmatch]
      exact ih hrange.2 hfresh.2 hnodup.2 hcount

/-- The loop before the worklist takes up the matching positions, each once. -/
theorem matchInitial_simulates :
    Simulates facts (matchInitial repoRelativePath facts runMarker path)
      ((⟨[], [], []⟩ : Worklist Nat LinkKey).enqueueAll (starts repoRelativePath facts runMarker path)) := by
  refine Simulates.matching ?_ (fun entry _ => List.not_mem_nil) ?_ ?_
  · intro entry hentry
    exact (List.getElem?_eq_some_iff.mp (List.mk_mem_zipIdx_iff_getElem?.mp hentry)).1
  · rw [List.zipIdx_map_snd]
    exact List.nodup_range'
  · refine ⟨rfl, fun i => ?_, by simp, by simp, by simp⟩
    rw [List.getElem?_replicate]
    split_ifs <;> simp

/-! ## What is selected -/

/-- One link between positions is one use of the rule. -/
theorem joins_iff {i j : Nat} :
    joins facts i j = true ↔ ∃ k ∈ (positionLinks facts).keys i, j ∈ (positionLinks facts).bucket k := by
  rw [joins, Option.any_eq_true]
  constructor
  · rintro ⟨x, hx, hy⟩
    obtain ⟨y, hy, hstep⟩ := (Option.any_eq_true _ _).mp hy
    have hkeys : (positionLinks facts).keys i = .referringTo x.eventId :: (x.refId.toList.map .withId ++
        if x.kind == .claim then x.scope.map .releasing else []) := by
      simp only [positionLinks, hx]
    rw [hkeys]
    rcases Bool.or_eq_true_iff.mp hstep with href | hrelease
    · rcases Bool.or_eq_true_iff.mp href with hback | hforth
      · refine ⟨.referringTo x.eventId, List.mem_cons_self, ?_⟩
        rw [bucket_referringTo, mem_positionsBy]
        exact ⟨y, hy, Option.mem_toList.mpr (eq_of_beq hback)⟩
      · refine ⟨.withId y.eventId, List.mem_cons_of_mem _ (List.mem_append_left _ ?_), ?_⟩
        · exact List.mem_map_of_mem (Option.mem_toList.mpr (eq_of_beq hforth))
        · rw [bucket_withId, mem_positionsBy]
          exact ⟨y, hy, List.mem_cons_self⟩
    · rw [Bool.and_eq_true, Bool.and_eq_true, List.any_eq_true] at hrelease
      obtain ⟨⟨hclaim, hkind⟩, scope, hscope, hx'⟩ := hrelease
      refine ⟨.releasing scope, List.mem_cons_of_mem _ (List.mem_append_right _ ?_), ?_⟩
      · rw [if_pos hclaim]
        exact List.mem_map_of_mem (List.contains_iff_mem.mp hx')
      · rw [bucket_releasing, mem_positionsBy]
        exact ⟨y, hy, by rwa [if_pos hkind]⟩
  · rintro ⟨k, hk, hj⟩
    cases hx : facts[i]? with
    | none => simp [positionLinks, hx] at hk
    | some x =>
      simp only [positionLinks, hx, List.mem_cons, List.mem_append, List.mem_map, Option.mem_toList] at hk
      refine ⟨x, rfl, ?_⟩
      rcases hk with rfl | ⟨r, href, rfl⟩ | hk
      · rw [bucket_referringTo, mem_positionsBy] at hj
        obtain ⟨y, hy, href⟩ := hj
        simp [hy, oneStep, Option.mem_toList.mp href]
      · rw [bucket_withId, mem_positionsBy] at hj
        obtain ⟨y, hy, hid⟩ := hj
        obtain rfl := List.mem_singleton.mp hid
        simp [hy, oneStep, href]
      · split at hk
        case isTrue hclaim =>
          obtain ⟨scope, hscope, rfl⟩ := List.mem_map.mp hk
          rw [bucket_releasing, mem_positionsBy] at hj
          obtain ⟨y, hy, hrelease⟩ := hj
          split at hrelease
          case isTrue hkind =>
            have hany : y.scope.any x.scope.contains = true :=
              List.any_eq_true.mpr ⟨scope, hrelease, List.contains_iff_mem.mpr hscope⟩
            simp only [hy, Option.any_some, oneStep, hclaim, hkind, hany, Bool.and_self, Bool.or_true]
          case isFalse => cases hrelease
        case isFalse => cases hk

theorem lt_of_direct {i : Nat} (h : direct repoRelativePath facts runMarker path i = true) : i < facts.length := by
  obtain ⟨fact, hget, -⟩ := (Option.any_eq_true _ _).mp h
  exact (List.getElem?_eq_some_iff.mp hget).1

theorem lt_of_joins {i j : Nat} (h : joins facts i j = true) : j < facts.length := by
  obtain ⟨x, -, hy⟩ := (Option.any_eq_true _ _).mp h
  obtain ⟨y, hget, -⟩ := (Option.any_eq_true _ _).mp hy
  exact (List.getElem?_eq_some_iff.mp hget).1

/-- The iteration ends with what the links reach. -/
theorem naiveSelection_iff {i : Nat} :
    naiveSelection repoRelativePath facts runMarker path i = true ↔
      (positionLinks facts).Reached (starts repoRelativePath facts runMarker path) i := by
  have hlength : naiveSelection repoRelativePath facts runMarker path =
      naive (List.range facts.length) (joins facts) (List.range facts.length).length
        (direct repoRelativePath facts runMarker path) := by
    rw [naiveSelection, List.length_range]
  rw [hlength]
  exact naive_iff_reached (fun x => mem_starts.symm)
    (fun x hx => List.mem_range.mpr (lt_of_direct (mem_starts.mp hx)))
    (fun x _ y => joins_iff) (fun x y hxy => List.mem_range.mpr (lt_of_joins hxy))

/-- **The loop** ends, within as many pops as there are facts, with the flags of the iteration's positions. -/
theorem selectLoop_spec :
    (selectLoop repoRelativePath facts runMarker path).queue = [] ∧
      ∀ i, (selectLoop repoRelativePath facts runMarker path).selected.getD i false =
        naiveSelection repoRelativePath facts runMarker path i := by
  have hsim := (@matchInitial_simulates facts repoRelativePath runMarker path).run facts.length
  have hdomain : ∀ i, (positionLinks facts).Reached (starts repoRelativePath facts runMarker path) i →
      i ∈ List.range facts.length := by
    intro i hreached
    cases hreached with
    | start h => exact List.mem_range.mpr (lt_of_direct (mem_starts.mp h))
    | link _ _ h => exact List.mem_range.mpr (lt_of_mem_bucket h)
  have hclosure : ∀ i, i ∈ ((((⟨[], [], []⟩ : Worklist Nat LinkKey).enqueueAll
      (starts repoRelativePath facts runMarker path)).run (positionLinks facts) facts.length).selected) ↔
        (positionLinks facts).Reached (starts repoRelativePath facts runMarker path) i := by
    intro i
    have h := @mem_closure_iff _ _ _ _ _ _ _ i hdomain
    rwa [List.length_range] at h
  constructor
  · have hstart := Worklist.sound_start (positionLinks facts) (starts repoRelativePath facts runMarker path)
    have hbalance := (Worklist.enqueueAll_takes (⟨[], [], []⟩ : Worklist Nat LinkKey)
      (starts repoRelativePath facts runMarker path)).balance
    have hempty : ((((⟨[], [], []⟩ : Worklist Nat LinkKey).enqueueAll
        (starts repoRelativePath facts runMarker path)).run (positionLinks facts) facts.length).queue) = [] :=
      (hstart.run hdomain (by
        rw [List.length_range]
        simp only [List.length_nil] at hbalance
        omega)).2
    exact hsim.queue.trans hempty
  · intro i
    rw [List.getD_eq_getElem?_getD, selectLoop, hsim.flags, Bool.eq_iff_iff, naiveSelection_iff, ← hclosure]
    split_ifs with hi
    · rw [Option.getD_some, decide_eq_true_iff]
    · constructor
      · intro hfalse
        cases hfalse
      · intro hmem
        exact absurd (List.mem_range.mp (hdomain i ((hclosure i).mp hmem))) hi

end Loop

/-! ## The least closed selection -/

/-- The least set of positions that holds the direct ones and is closed under the rule. -/
structure IsLeastClosed (facts : List Fact) (matched selection : Nat → Bool) : Prop where
  initial : ∀ i, matched i = true → selection i = true
  closed : ∀ i j, selection i = true → joins facts i j = true → selection j = true
  least : ∀ other : Nat → Bool, (∀ i, matched i = true → other i = true) →
    (∀ i j, other i = true → joins facts i j = true → other j = true) → ∀ i, selection i = true → other i = true

section Result

variable (repoRelativePath : String → Option String) (facts : List Fact) (runMarker path : Option String)

/-- The iteration has come to its end. -/
theorem naiveSelection_fixed :
    widen (List.range facts.length) (joins facts) (naiveSelection repoRelativePath facts runMarker path) =
      naiveSelection repoRelativePath facts runMarker path := by
  have h := @widen_naive _ (List.range facts.length) (joins facts) (direct repoRelativePath facts runMarker path)
    (fun i hi => List.mem_range.mpr (lt_of_direct hi)) (fun i j hij => List.mem_range.mpr (lt_of_joins hij))
  rwa [List.length_range] at h

theorem naiveSelection_isLeastClosed :
    IsLeastClosed facts (direct repoRelativePath facts runMarker path)
      (naiveSelection repoRelativePath facts runMarker path) where
  initial i hi := le_naive hi
  closed i j hi hij := by
    rw [naiveSelection_iff] at hi ⊢
    obtain ⟨k, hk, hj⟩ := joins_iff.mp hij
    exact .link hi hk hj
  least other hinitial hclosed i hi := naive_le hinitial (fun x _ y hx hxy => hclosed x y hx hxy) hi

/-- **Scoped selection is the least closure.** The worklist runs empty within as many pops as there are facts; the
result is, in the original order, the facts at the positions with which the iterated rule ends; and those are the
least set that holds the direct matches and is closed under the rule. -/
theorem selectScopedFactsWithStats_eq :
    (selectScopedFactsWithStats repoRelativePath facts runMarker path).1 =
        factsAt facts (naiveSelection repoRelativePath facts runMarker path) ∧
      IsLeastClosed facts (direct repoRelativePath facts runMarker path)
        (naiveSelection repoRelativePath facts runMarker path) ∧
      widen (List.range facts.length) (joins facts) (naiveSelection repoRelativePath facts runMarker path) =
        naiveSelection repoRelativePath facts runMarker path ∧
      (selectLoop repoRelativePath facts runMarker path).queue = [] := by
  refine ⟨?_, naiveSelection_isLeastClosed .., naiveSelection_fixed .., selectLoop_spec.1⟩
  rw [selectScopedFactsWithStats]
  split_ifs with hnone
  · -- without a run and a path every fact matches
    obtain ⟨hrun, hpath⟩ := Bool.and_eq_true_iff.mp hnone
    obtain rfl := Option.isNone_iff_eq_none.mp hrun
    obtain rfl := Option.isNone_iff_eq_none.mp hpath
    have hall : ∀ entry ∈ facts.zipIdx, naiveSelection repoRelativePath facts none none entry.2 = true := by
      rintro ⟨fact, i⟩ hentry
      refine le_naive ((Option.any_eq_true _ _).mpr ⟨fact, List.mk_mem_zipIdx_iff_getElem?.mp hentry, rfl⟩)
    show facts = factsAt facts _
    rw [factsAt, List.filter_eq_self.mpr hall, List.zipIdx_map_fst]
  · refine congrArg (List.map fun entry : Fact × Nat => entry.1) (List.filter_congr fun entry _ => ?_)
    exact selectLoop_spec.2 entry.2

/-- The rule in words. -/
theorem oneStep_iff {x y : Fact} :
    oneStep x y = true ↔ y.refId = some x.eventId ∨ x.refId = some y.eventId ∨
      x.kind = .claim ∧ y.kind = .release ∧ ∃ scope ∈ x.scope, scope ∈ y.scope := by
  simp only [oneStep, Bool.or_eq_true, Bool.and_eq_true, beq_iff_eq, List.any_eq_true, List.contains_iff_mem,
    or_assoc, and_assoc]
  refine or_congr_right (or_congr_right (and_congr_right fun _ => and_congr_right fun _ => ?_))
  constructor
  · rintro ⟨scope, hy, hx⟩
    exact ⟨scope, hx, hy⟩
  · rintro ⟨scope, hx, hy⟩
    exact ⟨scope, hy, hx⟩

/-- A position is selected when its fact is linked to a matching one. -/
theorem naiveSelection_iff_linked {i : Nat} {x : Fact} (hx : facts[i]? = some x) :
    naiveSelection repoRelativePath facts runMarker path i = true ↔
      (scopedLinks facts).Reached (facts.filter (factMatchesScopedSelection repoRelativePath runMarker path)) x := by
  have hleast := naiveSelection_isLeastClosed repoRelativePath facts runMarker path
  constructor
  · classical
    intro h
    have hle := hleast.least
      (fun j => decide (∀ y, facts[j]? = some y → (scopedLinks facts).Reached
        (facts.filter (factMatchesScopedSelection repoRelativePath runMarker path)) y)) ?_ ?_ i h
    · exact of_decide_eq_true hle x hx
    · intro j hj
      refine decide_eq_true fun y hy => .start (List.mem_filter.mpr ⟨List.mem_of_getElem? hy, ?_⟩)
      rwa [direct, hy, Option.any_some] at hj
    · intro j k hj hjk
      obtain ⟨a, ha, hb⟩ := (Option.any_eq_true _ _).mp hjk
      obtain ⟨b, hb, hstep⟩ := (Option.any_eq_true _ _).mp hb
      refine decide_eq_true fun y hy => ?_
      obtain rfl : b = y := Option.some.inj (hb.symm.trans hy)
      obtain ⟨key, hkey, hmem⟩ := link_iff.mpr ⟨List.mem_of_getElem? hb, oneStep_iff.mp hstep⟩
      exact .link (of_decide_eq_true hj a ha) hkey hmem
  · intro h
    -- every position of a linked fact is selected
    induction h generalizing i with
    | start hmem =>
      refine hleast.initial i ?_
      rw [direct, hx, Option.any_some]
      exact (List.mem_filter.mp hmem).2
    | @link a b key hreached hkey hmem ih =>
      have hfact : a ∈ facts := by
        cases hreached with
        | start h => exact (List.mem_filter.mp h).1
        | link _ hk hb => exact (link_iff.mp ⟨_, hk, hb⟩).1
      obtain ⟨j, hj⟩ := List.mem_iff_getElem?.mp hfact
      refine hleast.closed j i (ih hj) ?_
      obtain ⟨-, hstep⟩ := link_iff.mp ⟨key, hkey, hmem⟩
      simp only [joins, hj, hx, Option.any_some, oneStep_iff]
      exact hstep

/-- The selection on facts, by which the snapshot is defined, is the indexed one. -/
theorem selectScopedFacts_eq_indexed :
    selectScopedFacts repoRelativePath facts runMarker path =
      (selectScopedFactsWithStats repoRelativePath facts runMarker path).1 := by
  rw [(selectScopedFactsWithStats_eq repoRelativePath facts runMarker path).1, selectScopedFacts, factsAt]
  have hflags : ∀ selection : Fact → Bool,
      (∀ i x, facts[i]? = some x → naiveSelection repoRelativePath facts runMarker path i = selection x) →
      (facts.zipIdx.filter fun entry => naiveSelection repoRelativePath facts runMarker path entry.2).map (·.1) =
        facts.filter selection := by
    intro selection hsel
    have hfilter : (facts.zipIdx.filter fun entry => naiveSelection repoRelativePath facts runMarker path entry.2) =
        facts.zipIdx.filter (selection ∘ Prod.fst) :=
      List.filter_congr fun entry hentry => hsel entry.2 entry.1 (List.mk_mem_zipIdx_iff_getElem?.mp hentry)
    rw [hfilter, ← List.filter_map, List.zipIdx_map_fst]
  split_ifs with hnone
  · obtain ⟨hrun, hpath⟩ := Bool.and_eq_true_iff.mp hnone
    obtain rfl := Option.isNone_iff_eq_none.mp hrun
    obtain rfl := Option.isNone_iff_eq_none.mp hpath
    rw [hflags (fun _ => true) ?_]
    · exact (List.filter_eq_self.mpr fun x _ => rfl).symm
    · intro i x hx
      exact le_naive ((Option.any_eq_true _ _).mpr ⟨x, hx, rfl⟩)
  · rw [hflags _ fun i x hx => ?_]
    rw [Bool.eq_iff_iff, naiveSelection_iff_linked repoRelativePath facts runMarker path hx, List.contains_iff_mem]
    refine (mem_closure_iff fun y hy => ?_).symm
    cases hy with
    | start h => exact (List.mem_filter.mp h).1
    | link _ hk hb => exact (link_iff.mp ⟨_, hk, hb⟩).1

/-- What the code asserts in debug builds. -/
theorem length_le_factsIndexed :
    (selectScopedFactsWithStats repoRelativePath facts runMarker path).1.length ≤ facts.length := by
  rw [(selectScopedFactsWithStats_eq repoRelativePath facts runMarker path).1, factsAt, List.length_map]
  exact (List.length_filter_le _ _).trans (Nat.le_of_eq List.length_zipIdx)

end Result

end RallyPoint.ScopedSelection
