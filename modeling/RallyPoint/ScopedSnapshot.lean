/-
# RallyPoint.ScopedSnapshot — the room as one engagement and one path see it (`store.rs`).

A writer about to touch a path asks for a snapshot scoped to its engagement and that path. The facts of the
engagement that have to do with the path are projected as a room of their own; because a claim of another
engagement stops the writer too, the claims that a query over all claim lifecycle facts finds active are added.
The query reads no retraction, and the projection no other engagement, so the answer is not always the room's:
`scopedCollisionAnswer_iff` says for which histories it is.
-/
import RallyPoint.Lib.Closure
import RallyPoint.Room
import RallyPoint.Replay

namespace RallyPoint

open Lib

/-! ## Paths and scopes -/

/-- The components of a path, without `.` and with `..` taken back where that is possible. -/
def normalizeComponents (path : String) : String :=
  join "/" ((split '/' path).foldl push [])
where
  push (parts : List String) (component : String) : List String :=
    if component = "" || component = "." then parts
    else if component = ".." then
      if parts.getLast?.any (· != "..") then parts.dropLast else parts ++ [".."]
    else parts ++ [component]

section Paths

-- `repo_relative_path` asks the file system where an absolute path lies below the repository's root
variable (repoRelativePath : String → Option String)

def comparablePath (value : String) : String :=
  let stripped := (stripPrefix "file:" value).getD value
  normalizeComponents (if startsWith "/" stripped then (repoRelativePath stripped).getD stripped else stripped)

def pathMatchesScope (scope path : String) : Bool :=
  let scope := comparablePath repoRelativePath scope
  let path := comparablePath repoRelativePath path
  scope != "" && (scope == path || startsWith (scope ++ "/") path)

def normalizePath (path : String) : String :=
  let stripped := (stripPrefix "file:" path).getD path
  let raw := (stripPrefix "./" stripped).getD stripped
  let canonical := normalizeComponents (if startsWith "/" raw then (repoRelativePath raw).getD raw else raw)
  if canonical = "" then "file:" ++ raw else "file:" ++ canonical

def scopedRunMarker (runId : Option String) : Result (Option String) :=
  match runId.map trim with
  | none => .ok none
  | some runId =>
    if runId = "" then .error (.usage "scoped snapshot run id cannot be empty") else .ok (some ("run:" ++ runId))

def scopedPath (path : Option String) : Result (Option String) :=
  match path.map trim with
  | none => .ok none
  | some path =>
    if path = "" then .error (.usage "scoped snapshot path cannot be empty")
    else .ok (some (normalizePath repoRelativePath path))

/-- Whether some scope of a fact matches the path. -/
def onPath (path : String) (fact : Fact) : Bool :=
  fact.scope.any fun scope => pathMatchesScope repoRelativePath scope path

def factMatchesScopedSelection (runMarker path : Option String) (fact : Fact) : Bool :=
  (match runMarker with
    | some marker => fact.scope.any (· == marker)
    | none => true) &&
  match path with
  | some path => onPath repoRelativePath path fact
  | none => true

end Paths

/-! ## The facts of an engagement that have to do with a path -/

/-- How one fact leads to others: to those that refer to it, to the one it refers to, and from a claim to the
releases of its scopes. -/
inductive LinkKey
  | referringTo (eventId : String)
  | withId (refId : String)
  | releasing (scope : String)
  deriving DecidableEq

/-- The buckets of `select_scoped_facts`. -/
def scopedLinks (facts : List Fact) : Links Fact LinkKey where
  keys fact := .referringTo fact.eventId :: (fact.refId.toList.map .withId ++
    if fact.kind == .claim then fact.scope.map .releasing else [])
  bucket
    | .referringTo eventId => facts.filter fun f => f.refId == some eventId
    | .withId refId => facts.filter fun f => f.eventId == refId
    | .releasing scope => facts.filter fun f => f.kind == .release && f.scope.any (· == scope)

/-- The facts that match, and what they lead to. No two facts of an engagement are equal, so that a fact stands
for its position. -/
def selectScopedFacts (repoRelativePath : String → Option String) (facts : List Fact)
    (runMarker path : Option String) : List Fact :=
  if runMarker.isNone && path.isNone then facts
  else
    let selected := closure (scopedLinks facts) facts.length
      (facts.filter (factMatchesScopedSelection repoRelativePath runMarker path))
    facts.filter fun f => selected.contains f

def scopedContributorTools (facts : List Fact) : List String :=
  ((facts.filter fun f =>
    !([.presence, .session, .sessionClosed, .read, .claimRenewed] : List FactKind).contains f.kind).filter
      fun f => !isSystemAuthored f).filterMap (·.tool)

/-! ## The claim lifecycle of the whole repository -/

def claimLifecycleEventTypes : List String :=
  ["claim", "claim.renewed", "claim.expired", "release", "resolve", "receipt", "session", "session.closed"]

def isClaimLifecycleEventType (eventType : String) : Bool := claimLifecycleEventTypes.contains eventType

/-- `facts_from_segments`: every row of the room, decoded. -/
def factsFromSegments (codec : SegmentCodec) (log archive : RowDir) : Result (List Fact) := do
  let entries ← roomEntries log archive
  entries.mapM fun entry => factFromSegmentValue codec entry.payload entry.seq

/-- The loop over the lifecycle rows in sequence order, which skips the copies of a row. -/
def distinctLifecycleFacts (codec : SegmentCodec) : List SegmentRow → List SegmentRow → Result (List Fact)
  | _, [] => .ok []
  | seen, entry :: rest =>
    match seen.find? fun row => row.seq == entry.seq with
    | some existing =>
      if existing = entry then distinctLifecycleFacts codec seen rest
      else .error (.message
        s!"conflicting canonical claim lifecycle rows at seq {entry.seq}: live/archive rows differ")
    | none => do
      let fact ← factFromSegmentValue codec entry.payload entry.seq
      let facts ← distinctLifecycleFacts codec (entry :: seen) rest
      .ok (fact :: facts)

def claimLifecycleFactsFromSegments (codec : SegmentCodec) (log archive : RowDir) : Result (List Fact) :=
  let entries := (readSegmentFiles log ++ replayArchiveSegments archive).flatMap fun f =>
    f.2.filter fun entry => isClaimLifecycleEventType entry.eventType
  distinctLifecycleFacts codec [] (entries.insertionSort fun a b => a.seq ≤ b.seq)

/-- The lifecycle facts that can change the answer for one path. -/
def claimLifecycleRelevantToPath (repoRelativePath : String → Option String) (facts : List Fact)
    (path : String) : List Fact :=
  let relevant := facts.filter fun f => f.kind == .claim && onPath repoRelativePath path f
  let ids := relevant.map (·.eventId)
  let scopes := relevant.flatMap (·.scope)
  facts.filter fun f =>
    (f.kind == .claim && ids.contains f.eventId) || f.refId.any ids.contains ||
      (f.kind == .release && f.scope.any scopes.contains) ||
      (isSessionCloseFact f && relevant.any fun claim => laterSessionCloseMatchesClaim f claim)

/-! ## The snapshot -/

/-- External claims join the projected ones, unless one of their id is there already. -/
def addMissingClaims : List Fact → List Fact → List Fact
  | claims, [] => claims
  | claims, claim :: rest =>
    if claims.any fun existing => existing.eventId == claim.eventId then addMissingClaims claims rest
    else addMissingClaims (claims ++ [claim]) rest

def sortBySeq (facts : List Fact) : List Fact := facts.insertionSort fun a b => a.seq ≤ b.seq

section Snapshot

variable (ext : Externals) (repoRelativePath : String → Option String) (codec : SegmentCodec)
variable (coord : CoordinationConfig) (includeArchived : Bool) (nowSecs : Int)

/-- The collision answer: the claims of the lifecycle query, and a cursor that covers what they rest on. -/
def withCollisionClaims (snapshot : RoomSnapshot) (lifecycle : List Fact) (path : String) : RoomSnapshot :=
  let collision := claimLifecycleRelevantToPath repoRelativePath lifecycle path
  let merged := addMissingClaims snapshot.activeClaims (sortBySeq (projectActiveClaims ext collision))
  let answer := { snapshot with activeClaims := sortBySeq merged }
  match maxByKey (·.seq) collision with
  | none => answer
  | some latest =>
    if snapshot.maxSeq < latest.seq then
      { answer with
        maxSeq := latest.seq
        contentMaxSeq := max snapshot.contentMaxSeq latest.seq
        lastActivityTs := some latest.createdAt }
    else answer

/-- The roster of a scoped snapshot: of the whole engagement, or of those who contributed to the selection. -/
def withScopedRoster (snapshot : RoomSnapshot) (engagementFacts scopedFacts : List Fact)
    (includePresenceOnly : Bool) : RoomSnapshot :=
  if includePresenceOnly then
    let engagementSnapshot := snapshotFromFactsWithPolicyAt ext engagementFacts coord includeArchived nowSecs
    { snapshot with
      squads := engagementSnapshot.squads
      authorLastSeen := engagementSnapshot.authorLastSeen }
  else
    let contributors := scopedContributorTools scopedFacts
    { snapshot with
      squads := snapshot.squads.filter fun squad => contributors.contains squad.tool
      authorLastSeen := fun tool => if contributors.contains tool then snapshot.authorLastSeen tool else none }

def prepareSnapshotScoped (log archive : RowDir) (engagement : String) (runId path : Option String)
    (includePresenceOnly : Bool) : Result RoomSnapshot := do
  let engagement ← validateScopedEngagement engagement
  let runMarker ← scopedRunMarker runId
  let normalizedPath ← scopedPath repoRelativePath path
  let engagementFacts ← factsFromEngagementSegments codec log archive engagement
  let scopedFacts := selectScopedFacts repoRelativePath engagementFacts runMarker normalizedPath
  let snapshot := withScopedRoster ext coord includeArchived nowSecs
    (snapshotFromFactsWithPolicyAt ext scopedFacts coord includeArchived nowSecs) engagementFacts scopedFacts
    includePresenceOnly
  match normalizedPath with
  | none => .ok snapshot
  | some path => do
    let lifecycle ← claimLifecycleFactsFromSegments codec log archive
    .ok (withCollisionClaims ext repoRelativePath snapshot lifecycle path)

end Snapshot

/-! ## What the selection is for -/

section Selection

variable {repoRelativePath : String → Option String} {facts : List Fact} {path : String} {x y : Fact}

variable (repoRelativePath facts path) in
/-- A fact that has to do with a path: it is on the path, or it is joined to one that has by a reference either
way, or it releases a scope of a claim that has. -/
inductive LinkedToPath : Fact → Prop
  | onPath {x : Fact} : x ∈ facts → onPath repoRelativePath path x = true → LinkedToPath x
  | referring {x y : Fact} : LinkedToPath x → y ∈ facts → y.refId = some x.eventId → LinkedToPath y
  | referred {x y : Fact} : LinkedToPath x → y ∈ facts → x.refId = some y.eventId → LinkedToPath y
  | releasing {x y : Fact} {scope : String} : LinkedToPath x → x.kind = .claim → scope ∈ x.scope → y ∈ facts →
      y.kind = .release → scope ∈ y.scope → LinkedToPath y

theorem LinkedToPath.mem (h : LinkedToPath repoRelativePath facts path x) : x ∈ facts := by
  cases h with
  | onPath hx _ => exact hx
  | referring _ hx _ => exact hx
  | referred _ hx _ => exact hx
  | releasing _ _ _ hx _ _ => exact hx

open Classical in
variable (repoRelativePath facts path) in
noncomputable def linkedFacts : List Fact := facts.filter fun x => LinkedToPath repoRelativePath facts path x

theorem mem_linkedFacts :
    x ∈ linkedFacts repoRelativePath facts path ↔ LinkedToPath repoRelativePath facts path x := by
  classical
  rw [linkedFacts, List.mem_filter, decide_eq_true_iff]
  exact and_iff_right_of_imp LinkedToPath.mem

/-- One link, by the key it goes through. -/
theorem link_iff :
    (∃ k ∈ (scopedLinks facts).keys x, y ∈ (scopedLinks facts).bucket k) ↔
      y ∈ facts ∧ (y.refId = some x.eventId ∨ x.refId = some y.eventId ∨
        x.kind = .claim ∧ y.kind = .release ∧ ∃ scope ∈ x.scope, scope ∈ y.scope) := by
  constructor
  · rintro ⟨k, hk, hy⟩
    simp only [scopedLinks, List.mem_cons, List.mem_append, List.mem_map, Option.mem_toList] at hk
    rcases hk with rfl | ⟨refId, href, rfl⟩ | hk
    · obtain ⟨hy, href⟩ := List.mem_filter.mp hy
      exact ⟨hy, .inl (eq_of_beq href)⟩
    · obtain ⟨hy, hid⟩ := List.mem_filter.mp hy
      exact ⟨hy, .inr (.inl (by rw [href, eq_of_beq hid]))⟩
    · split at hk
      case isTrue hclaim =>
        obtain ⟨scope, hscope, rfl⟩ := List.mem_map.mp hk
        obtain ⟨hy, hrelease⟩ := List.mem_filter.mp hy
        rw [Bool.and_eq_true, beq_iff_eq, List.any_eq_true] at hrelease
        obtain ⟨hkind, s, hs, heq⟩ := hrelease
        exact ⟨hy, .inr (.inr ⟨eq_of_beq hclaim, hkind, scope, hscope, eq_of_beq heq ▸ hs⟩)⟩
      case isFalse => exact absurd hk List.not_mem_nil
  · rintro ⟨hy, href | href | ⟨hclaim, hrelease, scope, hx, hscope⟩⟩
    · exact ⟨.referringTo x.eventId, List.mem_cons_self, List.mem_filter.mpr ⟨hy, by rw [href, beq_self_eq_true]⟩⟩
    · refine ⟨.withId y.eventId, List.mem_cons_of_mem _ (List.mem_append_left _ ?_), ?_⟩
      · exact List.mem_map_of_mem (Option.mem_toList.mpr href)
      · exact List.mem_filter.mpr ⟨hy, beq_self_eq_true _⟩
    · refine ⟨.releasing scope, List.mem_cons_of_mem _ (List.mem_append_right _ ?_), ?_⟩
      · rw [hclaim, beq_self_eq_true, if_pos rfl]
        exact List.mem_map_of_mem hx
      · refine List.mem_filter.mpr ⟨hy, ?_⟩
        rw [hrelease, beq_self_eq_true, Bool.true_and, List.any_eq_true]
        exact ⟨scope, hscope, beq_self_eq_true scope⟩

theorem reached_iff_linkedToPath :
    (scopedLinks facts).Reached (facts.filter (factMatchesScopedSelection repoRelativePath none (some path))) x ↔
      LinkedToPath repoRelativePath facts path x := by
  constructor
  · intro h
    induction h with
    | start hx =>
      obtain ⟨hmem, hpath⟩ := List.mem_filter.mp hx
      exact .onPath hmem hpath
    | link _ hk hy ih =>
      obtain ⟨hmem, href | href | ⟨hclaim, hrelease, scope, hx, hscope⟩⟩ := link_iff.mp ⟨_, hk, hy⟩
      · exact .referring ih hmem href
      · exact .referred ih hmem href
      · exact .releasing ih hclaim hx hmem hrelease hscope
  · have hlink : ∀ {a b : Fact}, (scopedLinks facts).Reached
        (facts.filter (factMatchesScopedSelection repoRelativePath none (some path))) a →
        (∃ k ∈ (scopedLinks facts).keys a, b ∈ (scopedLinks facts).bucket k) → (scopedLinks facts).Reached
          (facts.filter (factMatchesScopedSelection repoRelativePath none (some path))) b :=
      fun ha ⟨k, hk, hb⟩ => .link ha hk hb
    intro h
    induction h with
    | onPath hx hpath => exact .start (List.mem_filter.mpr ⟨hx, hpath⟩)
    | referring _ hy href ih => exact hlink ih (link_iff.mpr ⟨hy, .inl href⟩)
    | referred _ hy href ih => exact hlink ih (link_iff.mpr ⟨hy, .inr (.inl href)⟩)
    | releasing _ hclaim hx hy hrelease hscope ih =>
      exact hlink ih (link_iff.mpr ⟨hy, .inr (.inr ⟨hclaim, hrelease, _, hx, hscope⟩)⟩)

/-- **The selection** of a path is what has to do with it. -/
theorem selectScopedFacts_eq :
    selectScopedFacts repoRelativePath facts none (some path) = linkedFacts repoRelativePath facts path := by
  classical
  refine List.filter_congr fun x _ => ?_
  rw [Bool.eq_iff_iff, List.contains_iff_mem, decide_eq_true_iff, ← reached_iff_linkedToPath]
  exact mem_closure_iff fun y hy => (reached_iff_linkedToPath.mp hy).mem

end Selection

end RallyPoint
