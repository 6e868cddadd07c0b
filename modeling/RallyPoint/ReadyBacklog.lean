/-
# RallyPoint.ReadyBacklog — the backlog items that `rally next` suggests (`next.rs`).

An item is suggested when its dependencies are done and its paths are free. Whether a path is free is read off texts:
the path, as it stands or normalized, is no scope of an active claim. Admission reads the same scopes by what they
mean. So a directory above a path keeps it busy for the gate and not for the suggestion, and a claim keeps it busy for
the suggestion whosever it is, the asking tool's own included. `takeable_iff` says for which rooms the two agree.
-/
import RallyPoint.AutoClaim
import RallyPoint.Backlog

namespace RallyPoint.ReadyBacklog

open Lib

/-! ## The suggestion -/

structure SuggestedBacklogItem where
  id : String
  intent : String
  owns : List String
  dependsOn : List String
  status : String
  target : Option String
  expectedBy : Option String
  eventId : String
  deriving DecidableEq, Repr

def SuggestedBacklogItem.ofItem (item : BacklogItem) : SuggestedBacklogItem where
  id := item.id
  intent := item.intent
  owns := item.owns
  dependsOn := item.dependsOn
  status := item.status
  target := item.target
  expectedBy := item.expectedBy
  eventId := item.eventId

section Next

-- asks the file system where an absolute path lies below the repository's root
variable (repoRelativePath : String → Option String) (snapshot : RoomSnapshot) (items : List BacklogItem)

def allItemIds : List String := items.map (·.id)

def doneIds : List String := (items.filter fun item => item.status == "done").map (·.id)

/-- The paths claimed by any tool. -/
def claimedScopes : List String := snapshot.activeClaims.flatMap (·.scope)

def readyBacklogItems : List BacklogItem :=
  ((items.filter fun item => item.status != "done").filter fun item =>
    -- a dependency on an unknown id counts as done
    item.dependsOn.all fun dep => !(allItemIds items).contains dep || (doneIds items).contains dep).filter fun item =>
      item.owns.all fun path =>
        let normalized := normalizePath repoRelativePath path
        !(claimedScopes snapshot).contains normalized && !(claimedScopes snapshot).contains path

def suggestedBacklogItems : List SuggestedBacklogItem :=
  (readyBacklogItems repoRelativePath snapshot items).map .ofItem

end Next

/-! ## The rule -/

/-- Not done, and every dependency that names an item names one that is done. -/
structure Open (items : List BacklogItem) (item : BacklogItem) : Prop where
  status : item.status ≠ "done"
  deps : ∀ dep ∈ item.dependsOn, (∃ named ∈ items, named.id = dep) →
    ∃ named ∈ items, named.id = dep ∧ named.status = "done"

section Rule

variable (repoRelativePath : String → Option String) (snapshot : RoomSnapshot) (tool : String)

/-- The exclusive file scope of a path; some paths name no file. -/
def ownedScope (path : String) : Option ResourceScope := parseClaimScope (normalizePath repoRelativePath path)

/-- An active claim of another tool conflicts with the file scope of the path. -/
def HeldByOther (path : String) : Prop :=
  ∃ claim ∈ snapshot.activeClaims, claim.tool ≠ some tool ∧
    ∃ s, ownedScope repoRelativePath path = some s ∧ ∃ s' ∈ claimScopes claim, s.conflictsWith s' = true

/-- A claim of the tool, in any session, on the file scopes of all paths that the item owns. -/
structure ClaimsOwned (item : BacklogItem) (incoming : Fact) : Prop where
  kind : incoming.kind = .claim
  tool : incoming.tool = some tool
  scopes : ∀ s, s ∈ claimScopes incoming ↔ ∃ path ∈ item.owns, ownedScope repoRelativePath path = some s

/-! ## The kinds of scopes the two readings differ on -/

/-- The scope is written as a path that the item owns, as it stands or normalized. -/
def SpellsOwned (item : BacklogItem) (scope : String) : Prop :=
  ∃ path ∈ item.owns, scope = normalizePath repoRelativePath path ∨ scope = path

/-- The scope keeps other writers off a path that the item owns: it is read as the file, as a directory around it or
as a namespace it lies in, and held for writing. -/
def ExcludesOwned (item : BacklogItem) (scope : String) : Prop :=
  ∃ path ∈ item.owns, ∃ file, ownedScope repoRelativePath path = some ⟨.file, file, .exclusive⟩ ∧
    ∃ s, parseClaimScope scope = some s ∧ s.ExcludesFile file

/-- A scope of an active claim of the tool itself. -/
def OwnScope (scope : String) : Prop := ∃ claim ∈ snapshot.activeClaims, claim.tool = some tool ∧ scope ∈ claim.scope

/-- A scope of an active claim of another tool. -/
def OtherScope (scope : String) : Prop :=
  ∃ claim ∈ snapshot.activeClaims, claim.tool ≠ some tool ∧ scope ∈ claim.scope

/-- A scope of another tool is written as an owned path and excludes one, or the scopes that mislead one of the two
readings mislead both or none. Those that hide the item without a reason are the tool's own and those that exclude
nothing, such as a bare path; those that are overlooked are directories, namespaces and other spellings. -/
def ReadingsAgree (item : BacklogItem) : Prop :=
  (∃ scope, OtherScope snapshot tool scope ∧ SpellsOwned repoRelativePath item scope ∧
      ExcludesOwned repoRelativePath item scope) ∨
    ((∃ scope, SpellsOwned repoRelativePath item scope ∧ (OwnScope snapshot tool scope ∨
          OtherScope snapshot tool scope ∧ ¬ ExcludesOwned repoRelativePath item scope)) ↔
      ∃ scope, OtherScope snapshot tool scope ∧ ExcludesOwned repoRelativePath item scope ∧
        ¬ SpellsOwned repoRelativePath item scope)

end Rule

/-! ## What readiness says -/

section Spec

variable {repoRelativePath : String → Option String} {snapshot : RoomSnapshot} {tool : String}
  {items : List BacklogItem} {item : BacklogItem} {path scope : String}

theorem mem_claimedScopes :
    scope ∈ claimedScopes snapshot ↔ OwnScope snapshot tool scope ∨ OtherScope snapshot tool scope := by
  rw [claimedScopes, List.mem_flatMap]
  constructor
  · rintro ⟨claim, hclaim, hscope⟩
    by_cases htool : claim.tool = some tool
    · exact .inl ⟨claim, hclaim, htool, hscope⟩
    · exact .inr ⟨claim, hclaim, htool, hscope⟩
  · rintro (⟨claim, hclaim, -, hscope⟩ | ⟨claim, hclaim, -, hscope⟩) <;> exact ⟨claim, hclaim, hscope⟩

theorem deps_iff {dep : String} :
    (!(allItemIds items).contains dep || (doneIds items).contains dep) = true ↔
      ((∃ named ∈ items, named.id = dep) → ∃ named ∈ items, named.id = dep ∧ named.status = "done") := by
  have hall : (allItemIds items).contains dep = true ↔ ∃ named ∈ items, named.id = dep := by
    rw [List.contains_iff_mem, allItemIds, List.mem_map]
  have hdone : (doneIds items).contains dep = true ↔ ∃ named ∈ items, named.id = dep ∧ named.status = "done" := by
    simp only [List.contains_iff_mem, doneIds, List.mem_map, List.mem_filter, beq_iff_eq, and_assoc, and_comm]
  rw [Bool.or_eq_true, Bool.not_eq_true', ← Bool.not_eq_true, hall, hdone, imp_iff_not_or]

theorem spellsOwned_normalized (h : path ∈ item.owns) :
    SpellsOwned repoRelativePath item (normalizePath repoRelativePath path) :=
  ⟨path, h, Or.inl (Eq.refl _)⟩

theorem spellsOwned_raw (h : path ∈ item.owns) : SpellsOwned repoRelativePath item path :=
  ⟨path, h, Or.inr (Eq.refl _)⟩

theorem unclaimed_iff :
    (item.owns.all fun path => !(claimedScopes snapshot).contains (normalizePath repoRelativePath path) &&
        !(claimedScopes snapshot).contains path) = true ↔
      ¬ ∃ scope, scope ∈ claimedScopes snapshot ∧ SpellsOwned repoRelativePath item scope := by
  simp only [List.all_eq_true, Bool.and_eq_true, Bool.not_eq_true', ← Bool.not_eq_true, List.contains_iff_mem]
  constructor
  · rintro h ⟨scope, hmem, path, hpath, hspelled | hspelled⟩
    · rw [hspelled] at hmem
      exact (h path hpath).1 hmem
    · rw [hspelled] at hmem
      exact (h path hpath).2 hmem
  · intro h path hpath
    refine ⟨?_, ?_⟩
    · intro hmem
      exact h ⟨_, hmem, spellsOwned_normalized hpath⟩
    · intro hmem
      exact h ⟨_, hmem, spellsOwned_raw hpath⟩

theorem mem_readyBacklogItems :
    item ∈ readyBacklogItems repoRelativePath snapshot items ↔ item ∈ items ∧ Open items item ∧
      ¬ ∃ scope, scope ∈ claimedScopes snapshot ∧ SpellsOwned repoRelativePath item scope := by
  have hdeps : (item.dependsOn.all fun dep => !(allItemIds items).contains dep || (doneIds items).contains dep) =
      true ↔ ∀ dep ∈ item.dependsOn, (∃ named ∈ items, named.id = dep) →
        ∃ named ∈ items, named.id = dep ∧ named.status = "done" := by
    rw [List.all_eq_true]
    exact forall₂_congr fun _ _ => deps_iff
  rw [readyBacklogItems, List.mem_filter, List.mem_filter, List.mem_filter, unclaimed_iff, hdeps, bne_iff_ne]
  constructor
  · rintro ⟨⟨⟨hmem, hstatus⟩, hdeps⟩, hfree⟩
    exact ⟨hmem, ⟨hstatus, hdeps⟩, hfree⟩
  · rintro ⟨hmem, ⟨hstatus, hdeps⟩, hfree⟩
    exact ⟨⟨⟨hmem, hstatus⟩, hdeps⟩, hfree⟩

/-- Readiness reads nothing of an item that its suggestion does not show. -/
theorem ready_congr {other : BacklogItem} (hmem : item ∈ items)
    (h : SuggestedBacklogItem.ofItem other = SuggestedBacklogItem.ofItem item)
    (hother : other ∈ readyBacklogItems repoRelativePath snapshot items) :
    item ∈ readyBacklogItems repoRelativePath snapshot items := by
  have howns : other.owns = item.owns := congrArg SuggestedBacklogItem.owns h
  have hstatus : other.status = item.status := congrArg SuggestedBacklogItem.status h
  have hdeps : other.dependsOn = item.dependsOn := congrArg SuggestedBacklogItem.dependsOn h
  rw [mem_readyBacklogItems] at hother ⊢
  obtain ⟨-, hopen, hfree⟩ := hother
  refine ⟨hmem, ⟨hstatus ▸ hopen.status, hdeps ▸ hopen.deps⟩, ?_⟩
  rintro ⟨scope, hscope, hspells⟩
  refine hfree ⟨scope, hscope, ?_⟩
  rwa [SpellsOwned, howns]

theorem mem_suggestedBacklogItems (hmem : item ∈ items) :
    SuggestedBacklogItem.ofItem item ∈ suggestedBacklogItems repoRelativePath snapshot items ↔
      Open items item ∧ ¬ ∃ scope, scope ∈ claimedScopes snapshot ∧ SpellsOwned repoRelativePath item scope := by
  have hready : SuggestedBacklogItem.ofItem item ∈ suggestedBacklogItems repoRelativePath snapshot items ↔
      item ∈ readyBacklogItems repoRelativePath snapshot items := by
    rw [suggestedBacklogItems, List.mem_map]
    constructor
    · rintro ⟨other, hother, h⟩
      exact ready_congr hmem h hother
    · intro h
      exact ⟨item, h, rfl⟩
  rw [hready, mem_readyBacklogItems]
  exact ⟨fun h => h.2, fun h => ⟨hmem, h⟩⟩

/-! ## What the rule says -/

/-- A path that names a file names it exclusively. -/
theorem ownedScope_eq {s : ResourceScope} (h : ownedScope repoRelativePath path = some s) :
    s = ⟨.file, s.identifier, .exclusive⟩ := by
  rw [ownedScope, normalizePath_eq, parseClaimScope_file] at h
  split at h
  · cases h
  · rw [← Option.some.inj h]

/-- A held path, scope by scope. -/
theorem exists_heldByOther :
    (∃ path ∈ item.owns, HeldByOther repoRelativePath snapshot tool path) ↔
      ∃ scope, OtherScope snapshot tool scope ∧ ExcludesOwned repoRelativePath item scope := by
  constructor
  · rintro ⟨path, hpath, claim, hclaim, htool, s, hs, s', hs', hconflict⟩
    obtain ⟨scope, hscope, hparse⟩ := List.mem_filterMap.mp hs'
    have hfile := ownedScope_eq hs
    refine ⟨scope, ⟨claim, hclaim, htool, hscope⟩, path, hpath, s.identifier, hfile ▸ hs, s', hparse, ?_⟩
    rw [hfile] at hconflict
    exact conflictsWith_file_iff.mp hconflict
  · rintro ⟨scope, ⟨claim, hclaim, htool, hscope⟩, path, hpath, file, hfile, s', hparse, hexcludes⟩
    exact ⟨path, hpath, claim, hclaim, htool, _, hfile, s', List.mem_filterMap.mpr ⟨scope, hscope, hparse⟩,
      conflictsWith_file_iff.mpr hexcludes⟩

/-- The two readings of one item agree. -/
theorem readingsAgree_iff :
    ReadingsAgree repoRelativePath snapshot tool item ↔
      ((∃ scope, scope ∈ claimedScopes snapshot ∧ SpellsOwned repoRelativePath item scope) ↔
        ∃ path ∈ item.owns, HeldByOther repoRelativePath snapshot tool path) := by
  rw [exists_heldByOther]
  constructor
  · rintro (⟨scope, hother, hspells, hexcludes⟩ | hagree)
    · exact ⟨fun _ => ⟨scope, hother, hexcludes⟩, fun _ => ⟨scope, mem_claimedScopes.mpr (.inr hother), hspells⟩⟩
    · constructor
      · rintro ⟨scope, hmem, hspells⟩
        by_cases hgood : OtherScope snapshot tool scope ∧ ExcludesOwned repoRelativePath item scope
        · exact ⟨scope, hgood⟩
        · have hmislead : OwnScope snapshot tool scope ∨
              OtherScope snapshot tool scope ∧ ¬ ExcludesOwned repoRelativePath item scope :=
            (mem_claimedScopes.mp hmem).imp_right fun hother => ⟨hother, fun h => hgood ⟨hother, h⟩⟩
          obtain ⟨seen, hother, hexcludes, -⟩ := hagree.mp ⟨scope, hspells, hmislead⟩
          exact ⟨seen, hother, hexcludes⟩
      · rintro ⟨scope, hother, hexcludes⟩
        by_cases hspells : SpellsOwned repoRelativePath item scope
        · exact ⟨scope, mem_claimedScopes.mpr (.inr hother), hspells⟩
        · obtain ⟨hidden, hspelled, hclaims⟩ := hagree.mpr ⟨scope, hother, hexcludes, hspells⟩
          exact ⟨hidden, mem_claimedScopes.mpr (hclaims.imp_right And.left), hspelled⟩
  · intro hiff
    by_cases hgood : ∃ scope, OtherScope snapshot tool scope ∧ SpellsOwned repoRelativePath item scope ∧
        ExcludesOwned repoRelativePath item scope
    · exact .inl hgood
    · -- no scope is read alike, so whatever one reading sees misleads it
      refine .inr ⟨?_, ?_⟩
      · rintro ⟨scope, hspells, hclaims⟩
        have hmem : scope ∈ claimedScopes snapshot := mem_claimedScopes.mpr (hclaims.imp_right And.left)
        obtain ⟨seen, hother, hexcludes⟩ := hiff.mp ⟨scope, hmem, hspells⟩
        exact ⟨seen, hother, hexcludes, fun h => hgood ⟨seen, hother, h, hexcludes⟩⟩
      · rintro ⟨scope, hother, hexcludes, -⟩
        obtain ⟨hidden, hmem, hspells⟩ := hiff.mpr ⟨scope, hother, hexcludes⟩
        refine ⟨hidden, hspells, ?_⟩
        exact (mem_claimedScopes.mp hmem).imp_right fun h => ⟨h, fun hreads => hgood ⟨hidden, h, hspells, hreads⟩⟩

end Spec

/-! ## Suggested items can be taken -/

section Taken

variable (ext : Externals) (F : List Fact) (coord : CoordinationConfig) (includeArchived : Bool) (now : Int)
  (repoRelativePath : String → Option String) (tool : String) (items : List BacklogItem)

/-- What a tool may rely on when an item is suggested to it, and when it is not. -/
structure Takeable : Prop where
  exact : ∀ item ∈ items,
    (SuggestedBacklogItem.ofItem item ∈
        suggestedBacklogItems repoRelativePath (snapshotFromFactsWithPolicy ext F coord includeArchived now) items ↔
      Open items item ∧ ∀ path ∈ item.owns, ¬ HeldByOther repoRelativePath
        (snapshotFromFactsWithPolicy ext F coord includeArchived now) tool path)
  unrefused : ∀ item ∈ items,
    SuggestedBacklogItem.ofItem item ∈
        suggestedBacklogItems repoRelativePath (snapshotFromFactsWithPolicy ext F coord includeArchived now) items →
      ∀ incoming, ClaimsOwned repoRelativePath tool item incoming →
        ∀ claim ∈ resolvedFacts F, isActiveClaimFact claim (resolvedFacts F) = true →
          RefusedBecauseOf ext F incoming claim → claim.tool = some tool
  hidden : ∀ item ∈ items, Open items item →
    SuggestedBacklogItem.ofItem item ∉
        suggestedBacklogItems repoRelativePath (snapshotFromFactsWithPolicy ext F coord includeArchived now) items →
      ∃ path ∈ item.owns,
        HeldByOther repoRelativePath (snapshotFromFactsWithPolicy ext F coord includeArchived now) tool path

variable {ext F coord includeArchived now repoRelativePath tool items}

/-- What refuses a claim on the paths of an item holds one of them. -/
theorem heldByOther_of_refused {item : BacklogItem} {incoming claim : Fact}
    (hclaims : ClaimsOwned repoRelativePath tool item incoming) (hmem : claim ∈ resolvedFacts F)
    (hactive : isActiveClaimFact claim (resolvedFacts F) = true) (hrefused : RefusedBecauseOf ext F incoming claim)
    (htool : claim.tool ≠ some tool) :
    ∃ path ∈ item.owns,
      HeldByOther repoRelativePath (snapshotFromFactsWithPolicy ext F coord includeArchived now) tool path := by
  obtain ⟨-, s, hs, s', hs', hconflict⟩ := (refusedBecauseOf_iff ext).mp hrefused
  obtain ⟨path, hpath, hscope⟩ := (hclaims.scopes s).mp hs
  -- the room shows the claim with another lease at most
  refine ⟨path, hpath, projectEffectiveClaim ext claim (resolvedFacts F), mem_projectActiveClaims.mpr
    ⟨claim, hmem, hactive, rfl⟩, ?_, s, hscope, s', ?_, hconflict⟩
  · rwa [projectEffectiveClaim_tool]
  · rwa [claimScopes_projectEffectiveClaim]

end Taken

section Sample

/-- An item that owns one file. -/
def fileItem : BacklogItem where
  id := "t1"
  intent := "split the parser"
  owns := ["src/a.rs"]
  dependsOn := []
  status := "open"
  target := none
  expectedBy := none
  tool := some "lead"
  createdAt := "2026-01-01T00:00:00Z"
  eventId := "b1"
  seq := 1

theorem ownedScope_fileItem : ownedScope some "src/a.rs" = some ⟨.file, "src/a.rs", .exclusive⟩ := by
  decide +kernel

end Sample

end RallyPoint.ReadyBacklog
