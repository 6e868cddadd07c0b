/-
# RallyPoint.WriteCheck — the check before a write (`check.rs`), and whether it answers as admission does.

Before it edits a file an agent asks `check before-write`, and before it claims one its claim passes the conflict
gate. Both look at the active claims of other tools, each with a matcher of its own. The gate parses a scope into
an access mode, a type and a canonical path (`HoldsPath`); the check strips `file:` off it and compares what is
left with the path and the directories above it (`ReadsPath`). `write_check_agrees_iff` says for which claims the
two come to one answer, `plain_scope_iff` what that means for scopes as they are usually spelled.
-/
import RallyPoint.Append
import RallyPoint.ScopedSnapshot
import RallyPoint.Lib.Pieces

namespace RallyPoint

open Lib

/-! ## The findings -/

structure CheckFinding where
  code : String
  severity : String
  message : String
  factId : Option String := none
  owner : Option String := none
  path : Option String := none
  ownerIdleSecs : Option Int := none
  scope : List String := []
  deriving DecidableEq

/-- The tools whose roster row is idle. -/
def RoomSnapshot.idleOwnerTools (snapshot : RoomSnapshot) : List String :=
  (snapshot.squads.filter fun sq => sq.status == "idle").map (·.tool)

def ownerIdleSecs (snapshot : RoomSnapshot) (owner : String) : Option Int :=
  (snapshot.squadFor owner).bind (·.ageSecs)

/-- The decisions the room shows, newest first; the snapshot carries them in a bucket of their own. -/
def projectCurrentDecisions (ext : Externals) (coord : CoordinationConfig) (includeArchived : Bool)
    (nowSecs : Int) (facts : List Fact) : List Fact :=
  sortByRecency ext
    (facts.filter fun f => f.kind == .decision && !isArchived ext coord includeArchived nowSecs f)
    nowSecs coord.halfLifeSecs

/-- The trailing components two paths share. -/
def sharedSuffix (a b : String) : Nat :=
  let parts s := ((split '/' s).filter (· != "")).reverse
  (((parts a).zip (parts b)).takeWhile fun (x, y) => x == y).length

section Check

variable (ext : Externals) (repoRelativePath : String → Option String)

def pathsSuffixCollide (a b : String) : Bool :=
  -- what matches exactly or as a directory is reported as that
  if pathMatchesScope repoRelativePath a b || pathMatchesScope repoRelativePath b a then false
  else decide (2 ≤ sharedSuffix (comparablePath repoRelativePath a) (comparablePath repoRelativePath b))

variable (snapshot : RoomSnapshot) (coord : CoordinationConfig) (now : Int) (tool path : String)

def staleOwnerMessage (claim : Fact) (owner : String) (idleSecs : Option Int) : String :=
  let silence := match idleSecs with
    | some secs => s!"has been silent {humanizeAge secs}"
    | none => "has been idle past the 15m window"
  if (snapshot.claimReclaimEligible ext claim coord now).1 then
    s!"{owner} holds {path} and {silence} — past this claim's reclaim threshold, so it is yours to reclaim. " ++
    s!"Your options: release it yourself with `rally say release --path {path} --tool {tool}`, hand the change " ++
    s!"over with `rally say handoff --to {owner} --subject \"<change>\"`, or take another task with " ++
    s!"`rally next --tool {tool}`"
  else
    s!"{owner} holds {path} and {silence} — idle, but this claim is not proven eligible for takeover and " ++
    s!"{owner} may still be working. Your options: proceed with coordination awareness, hand the change over " ++
    s!"with `rally say handoff --to {owner} --subject \"<change>\"`, or take another task with " ++
    s!"`rally next --tool {tool}`. {owner} releases its own claim when it returns"

def claimedPathMessage (claim : Fact) (owner : String) (idleSecs : Option Int) : String :=
  let active := match idleSecs with
    | some secs => s!", active {humanizeAge secs} ago"
    | none => ""
  s!"{owner} holds {path} (claim {claim.eventId}){active} — hand the change over with `rally say handoff " ++
  s!"--to {owner} --subject \"<change>\"`, or take another task with `rally next --tool {tool}`"

/-- What the check has to say about one active claim. -/
def claimFinding (claim : Fact) : Option CheckFinding :=
  let isDifferentTool := claim.tool != some tool
  let exactOrDir := onPath repoRelativePath path claim
  let ownerIsStale := claim.tool.any snapshot.idleOwnerTools.contains
  let owner := claim.tool.getD "unknown owner"
  let idleSecs := ownerIdleSecs snapshot owner
  if exactOrDir && isDifferentTool && ownerIsStale then
    some
      { code := "stale-owner-claim", severity := "warn"
        message := staleOwnerMessage ext snapshot coord now tool path claim owner idleSecs
        factId := some claim.eventId, owner := claim.tool, path := some path, ownerIdleSecs := idleSecs }
  else if exactOrDir && isDifferentTool then
    some
      { code := "claimed-path", severity := "stop"
        message := claimedPathMessage tool path claim owner idleSecs
        factId := some claim.eventId, owner := claim.tool, path := some path, ownerIdleSecs := idleSecs }
  else if isDifferentTool then
    -- one warning a claim, for its first scope that may name the same file
    (claim.scope.find? fun scope => pathsSuffixCollide repoRelativePath scope path).map fun scope =>
      { code := "ambiguous-path-collision", severity := "warn"
        message := s!"submitted path '{path}' may refer to the same file as claimed path '{scope}' held by " ++
          claim.tool.getD "unknown" ++ " — lead should verify before writing"
        factId := some claim.eventId, owner := claim.tool, path := some path }
  else none

def decisionFinding (path : Option String) (decision : Fact) : Option CheckFinding :=
  if path.any fun path => onPath repoRelativePath path decision then
    some { code := "binding-decision", severity := "info", message := decision.subject
           factId := some decision.eventId, path := path }
  else if decision.scope.isEmpty then
    some { code := "unscoped-decision", severity := "info", message := decision.subject
           factId := some decision.eventId }
  else none

/-- A blocker that names the path stops the write; one that names nothing does so as the room's freeze only. -/
def blockerFinding (path : Option String) (blocker : Fact) : Option CheckFinding :=
  if path.any fun path => onPath repoRelativePath path blocker then
    some { code := "active-blocker", severity := "stop", message := blocker.subject
           factId := some blocker.eventId, path := path }
  else if blocker.scope.isEmpty then
    if snapshot.roomFreezeId == some blocker.eventId then
      some { code := "room-freeze", severity := "stop"
             message := s!"{blocker.subject} — room-wide freeze declared by the lead (" ++
               blocker.tool.getD "unknown" ++ ")."
             factId := some blocker.eventId, owner := blocker.tool, path := path }
    else
      some { code := "unscoped-blocker", severity := "warn"
             message := s!"{blocker.subject} — posted by " ++ blocker.tool.getD "an unidentified writer" ++
               ", who does not hold the lead seat, and naming no scope, so it does not block this write. " ++
               "Re-post it with `--scope file:<path>` to stop writes to a specific path, or take the lead seat " ++
               "to declare a room-wide freeze."
             factId := some blocker.eventId, owner := blocker.tool }
  else none

def missingPath (path : Option String) : List CheckFinding :=
  if path.isNone then
    [{ code := "missing-path", severity := "warn", message := "before-write checks are stronger with --path" }]
  else []

def checkBeforeWriteWithCoord (currentDecisions : List Fact) (path : Option String) : List CheckFinding :=
  missingPath path ++
    (match path with
      | some path => snapshot.activeClaims.filterMap
          (claimFinding ext repoRelativePath snapshot coord now tool path)
      | none => []) ++
    currentDecisions.filterMap (decisionFinding repoRelativePath path) ++
    snapshot.activeBlockers.filterMap (blockerFinding repoRelativePath snapshot path)

/-- The check of a ledger: over the room projected from it. -/
def checkBeforeWrite (F : List Fact) (includeArchived : Bool) (path : Option String) : List CheckFinding :=
  checkBeforeWriteWithCoord ext repoRelativePath
    (snapshotFromFactsWithPolicy ext F coord includeArchived now) coord now tool
    (projectCurrentDecisions ext coord includeArchived (unixSecs now) (resolvedFacts F)) path

end Check

/-! ## Admission, claim by claim -/

/-- A claim of `tool` on the exclusive scope `file:` of the path, in any session. -/
structure ClaimsFile (tool path : String) (incoming : Fact) : Prop where
  kind : incoming.kind = .claim
  tool : incoming.tool = some tool
  scope : incoming.scope = ["file:" ++ path]

section Admission

variable (ext : Externals) {F : List Fact} {incoming c : Fact}

/-- The conflict gate refuses a claim because of one that is held: their records collide. -/
def RefusedBecauseOf (F : List Fact) (incoming claim : Fact) : Prop :=
  ∃ existing, activeClaimRecordFromFacts ext claim (resolvedFacts F) = some existing ∧
    ∃ record, activeClaimRecordFromFact incoming = some record ∧ firstConflict existing record ≠ none

/-- The record of a fact, whatever lease its renewals left it. -/
theorem activeClaimRecordFromFacts_fields {facts : List Fact} {record : ActiveClaimRecord}
    (h : activeClaimRecordFromFacts ext c facts = some record) :
    record.claimId = c.eventId ∧ record.ownerTool = c.tool ∧ record.fromSessionId = c.fromSessionId ∧
      record.resourceScopes = claimScopes c := by
  obtain ⟨plain, hplain, rfl⟩ := Option.map_eq_some_iff.mp h
  rw [activeClaimRecordFromFact] at hplain
  split at hplain
  · cases hplain
  · obtain rfl := Option.some.inj hplain
    cases latestRenewedLease ext c facts <;> exact ⟨rfl, rfl, rfl, rfl⟩

theorem refusedBecauseOf_iff :
    RefusedBecauseOf ext F incoming c ↔
      sameSessionOwner c.tool c.fromSessionId incoming.tool incoming.fromSessionId = false ∧
        ∃ s ∈ claimScopes incoming, ∃ s' ∈ claimScopes c, s.conflictsWith s' = true := by
  have hfirst : ∀ existing record : ActiveClaimRecord, firstConflict existing record ≠ none ↔
      sameSessionOwner existing.ownerTool existing.fromSessionId record.ownerTool record.fromSessionId = false ∧
        ∃ s ∈ record.resourceScopes, ∃ s' ∈ existing.resourceScopes, s.conflictsWith s' = true := by
    intro existing record
    rw [Ne, firstConflict_eq_none_iff]
    simp
  constructor
  · rintro ⟨existing, hexisting, record, hrecord, hconflict⟩
    obtain ⟨-, htool, hsession, hscopes⟩ := activeClaimRecordFromFacts_fields ext hexisting
    rw [activeClaimRecordFromFact] at hrecord
    split at hrecord
    · cases hrecord
    · obtain rfl := Option.some.inj hrecord
      rwa [hfirst, htool, hsession, hscopes] at hconflict
  · rintro ⟨howner, s, hs, s', hs', hconflict⟩
    obtain ⟨existing, hexisting, htool, hsession, hscopes⟩ :=
      activeClaimRecordFromFacts_spec ext (resolvedFacts F) (List.ne_nil_of_mem hs')
    have hnew : (claimScopes incoming).isEmpty = false := by
      rw [List.isEmpty_eq_false_iff]
      exact List.ne_nil_of_mem hs
    refine ⟨existing, hexisting, _, by rw [activeClaimRecordFromFact, hnew, if_neg Bool.false_ne_true], ?_⟩
    rw [hfirst, htool, hsession, hscopes]
    exact ⟨howner, s, hs, s', hs', hconflict⟩

/-- The gate refuses a claim when some held claim is a reason to, and names one that is. -/
theorem detectConflict_names {conflict : ClaimConflict} (h : detectConflict ext F incoming = some conflict) :
    ∃ claim ∈ resolvedFacts F, isActiveClaimFact claim (resolvedFacts F) = true ∧
      RefusedBecauseOf ext F incoming claim ∧ conflict.existingClaimId = claim.eventId := by
  rw [detectConflict] at h
  split at h
  · cases h
  split at h
  · cases h
  case h_2 record hrecord =>
    obtain ⟨existing, hmem, hconflict⟩ := List.exists_of_findSome?_eq_some h
    rw [activeClaimRecords, List.mem_filterMap] at hmem
    obtain ⟨claim, hclaim, hexisting⟩ := hmem
    rw [List.mem_filter, ClaimClosers.isActive_eq] at hclaim
    refine ⟨claim, hclaim.1, hclaim.2,
      ⟨existing, hexisting, record, hrecord, by rw [hconflict]; exact Option.some_ne_none _⟩, ?_⟩
    -- the conflict carries the id of the record it was found in
    rw [← (activeClaimRecordFromFacts_fields ext hexisting).1]
    rw [firstConflict] at hconflict
    split at hconflict
    · cases hconflict
    · obtain ⟨_, -, hnew⟩ := List.exists_of_findSome?_eq_some hconflict
      obtain ⟨_, -, hold⟩ := List.exists_of_findSome?_eq_some hnew
      split at hold
      · rw [← Option.some.inj hold]
      · cases hold

theorem detectConflict_eq_none_iff_refused (hkind : incoming.kind = .claim) :
    detectConflict ext F incoming = none ↔
      ∀ claim ∈ resolvedFacts F, isActiveClaimFact claim (resolvedFacts F) = true →
        ¬RefusedBecauseOf ext F incoming claim := by
  rw [detectConflict_eq_none_iff ext hkind]
  refine forall₃_congr fun claim _ _ => ?_
  rw [refusedBecauseOf_iff]
  cases sameSessionOwner claim.tool claim.fromSessionId incoming.tool incoming.fromSessionId <;> simp

end Admission

/-! ## A path as the gate reads it, and as the check does -/

/-- The path of a `file:` scope, as admission spells it; empty when it names no file. -/
def claimedPath (path : String) : String := canonicalPath (trim path)

/-- A held scope excludes writers of a file: it is held for writing, and it is the file, a directory around it, or
a namespace it lies in. -/
def ResourceScope.ExcludesFile (scope : ResourceScope) (file : String) : Prop :=
  (scope.access = .exclusive ∨ scope.access = .namespace) ∧
    match scope.resourceType with
    | .file => scope.identifier = file
    | .dir => pathContains scope.identifier file = true
    | .repo | .workspace => scope.identifier = wildcardIdentifier ∨ pathContains scope.identifier file = true
    | _ => False

/-- Some scope of the claim, parsed, keeps other writers off the path. -/
def HoldsPath (claim : Fact) (path : String) : Prop :=
  claimedPath path ≠ "" ∧
    ∃ raw ∈ claim.scope, ∃ scope, parseClaimScope raw = some scope ∧ scope.ExcludesFile (claimedPath path)

/-- Some scope of the claim, without `file:` and with its components normalized, is the path or lies above it. -/
def ReadsPath (repoRelativePath : String → Option String) (claim : Fact) (path : String) : Prop :=
  ∃ raw ∈ claim.scope, comparablePath repoRelativePath raw ≠ "" ∧
    pathContains (comparablePath repoRelativePath raw) (comparablePath repoRelativePath path) = true

theorem onPath_iff {repoRelativePath : String → Option String} {claim : Fact} {path : String} :
    onPath repoRelativePath path claim = true ↔ ReadsPath repoRelativePath claim path := by
  simp [onPath, ReadsPath, pathMatchesScope, pathContains]

/-- The command hands the check its path with `file:` in front, which changes nothing. -/
theorem readsPath_file {repoRelativePath : String → Option String} {claim : Fact} {path : String}
    (h : startsWith "file:" path = false) :
    ReadsPath repoRelativePath claim ("file:" ++ path) ↔ ReadsPath repoRelativePath claim path := by
  simp only [ReadsPath, comparablePath, stripPrefix_append, stripPrefix_eq_none h, Option.getD_some, Option.getD_none]

/-- A `file:` scope parses as the exclusive file it names. -/
theorem parseClaimScope_file (path : String) :
    parseClaimScope ("file:" ++ path) =
      if claimedPath path = "" then none else some ⟨.file, claimedPath path, .exclusive⟩ :=
  parseClaimScope_typed .file path

theorem conflictsWith_file_iff {scope : ResourceScope} {file : String} :
    ResourceScope.conflictsWith ⟨.file, file, .exclusive⟩ scope = true ↔ scope.ExcludesFile file := by
  obtain ⟨type, identifier, access⟩ := scope
  unfold ResourceScope.conflictsWith ResourceScope.ExcludesFile resourcesOverlap rootContains
  rw [show (file == identifier) = (identifier == file) from Bool.beq_comm]
  cases type <;> cases access <;> simp [accessModesConflict, ResourceType.isNamespaceRoot]

theorem refused_of_file_iff {ext : Externals} {F : List Fact} {incoming c : Fact} {tool path : String}
    (h : ClaimsFile tool path incoming) :
    RefusedBecauseOf ext F incoming c ↔
      sameSessionOwner c.tool c.fromSessionId incoming.tool incoming.fromSessionId = false ∧ HoldsPath c path := by
  rw [refusedBecauseOf_iff, HoldsPath, claimScopes, h.scope]
  simp only [List.filterMap_cons, List.filterMap_nil, parseClaimScope_file, claimScopes, List.mem_filterMap]
  refine and_congr_right fun _ => ?_
  by_cases hpath : claimedPath path = ""
  · simp [hpath]
  · simp only [hpath, if_false, List.mem_singleton, exists_eq_left, conflictsWith_file_iff, ne_eq, not_false_eq_true,
      true_and]
    constructor
    · rintro ⟨scope, ⟨raw, hraw, hparse⟩, hexcludes⟩
      exact ⟨raw, hraw, scope, hparse, hexcludes⟩
    · rintro ⟨raw, hraw, scope, hparse, hexcludes⟩
      exact ⟨scope, ⟨raw, hraw, hparse⟩, hexcludes⟩

/-! ## Scopes as they are usually spelled -/

/-- A path spelled out: relative, every component a name, nothing to trim and no colon to read a type or an access
mode off. -/
structure PlainPath (path : String) : Prop where
  components : ∀ c ∈ split '/' path, c ≠ "" ∧ c ≠ "." ∧ c ≠ ".."
  trimmed : trim path = path
  uncoloned : ':' ∉ path.toList

/-- Plain components are pushed one after another. -/
theorem foldl_push_plain (push : List String → String → List String)
    (hpush : ∀ parts c, c ≠ "" ∧ c ≠ "." ∧ c ≠ ".." → push parts c = parts ++ [c]) {cs : List String}
    (hcs : ∀ c ∈ cs, c ≠ "" ∧ c ≠ "." ∧ c ≠ "..") (parts : List String) : cs.foldl push parts = parts ++ cs := by
  induction cs generalizing parts with
  | nil => simp
  | cons c cs ih =>
    rw [List.foldl_cons, hpush parts c (hcs c List.mem_cons_self),
      ih (fun c' hc' => hcs c' (List.mem_cons_of_mem c hc')), List.append_assoc, List.singleton_append]

section Spelled

variable {text : String} (h : ∀ c ∈ split '/' text, c ≠ "" ∧ c ≠ "." ∧ c ≠ "..")
include h

/-- A text of plain components begins with neither `/` nor `./`: its first component is a name. -/
theorem startsWith_of_plain (pre : String) (hpre : pre = "/" ∨ pre = "./") : startsWith pre text = false := by
  by_contra hstarts
  rw [Bool.not_eq_false, startsWith, List.isPrefixOf_iff_prefix] at hstarts
  obtain ⟨rest, hrest⟩ := hstarts
  have hfirst := List.mem_of_mem_head? (head?_split '/' text)
  rw [← hrest] at hfirst
  rcases hpre with rfl | rfl
  · exact (h _ hfirst).1 (by simp)
  · exact (h _ hfirst).2.1 (by simp)

theorem canonicalPath_of_plain : canonicalPath text = text := by
  have hdot : stripPrefix "./" text = none := stripPrefix_eq_none (startsWith_of_plain h _ (.inr rfl))
  have hfold := foldl_push_plain pushComponent (fun parts c hc => by simp [pushComponent, hc]) h []
  rw [canonicalPath, hdot, Option.getD_none]
  simp only [startsWith_of_plain h _ (.inl rfl), hfold, List.nil_append, Bool.false_eq_true, if_false]
  exact join_split '/' text

theorem normalizeComponents_of_plain : normalizeComponents text = text := by
  have hfold := foldl_push_plain normalizeComponents.push
    (fun parts c hc => by simp [normalizeComponents.push, hc]) h []
  rw [normalizeComponents, hfold, List.nil_append]
  exact join_split '/' text

/-- Such a text is compared as it stands, but for a `file:` in front. -/
theorem comparablePath_of_plain (repoRelativePath : String → Option String) :
    comparablePath repoRelativePath ("file:" ++ text) = text ∧
      (startsWith "file:" text = false → comparablePath repoRelativePath text = text) := by
  have hroot := startsWith_of_plain h "/" (.inl rfl)
  constructor
  · simp [comparablePath, hroot, normalizeComponents_of_plain h]
  · intro hfile
    simp [comparablePath, stripPrefix_eq_none hfile, hroot, normalizeComponents_of_plain h]

end Spelled

/-- A word with a colon in front of a plain path is part of its first component. -/
theorem components_of_word {word path : String} (hword : '/' ∉ word.toList) (hcolon : ':' ∈ word.toList)
    (h : ∀ c ∈ split '/' path, c ≠ "" ∧ c ≠ "." ∧ c ≠ "..") :
    ∀ c ∈ split '/' (word ++ path), c ≠ "" ∧ c ≠ "." ∧ c ≠ ".." := by
  intro c hc
  rcases mem_split_append hword hc with hc | ⟨rest, rfl⟩
  · exact h c hc
  · refine ⟨?_, ?_, ?_⟩ <;>
    · intro heq
      have hmem : ':' ∈ (word ++ rest).toList := by simp [hcolon]
      rw [heq] at hmem
      exact absurd hmem (by decide)

theorem pathContains_of_colon {parent child : String} (hparent : ':' ∈ parent.toList) (hchild : ':' ∉ child.toList) :
    pathContains parent child = false := by
  rw [pathContains, Bool.or_eq_false_iff]
  refine ⟨beq_eq_false_iff_ne.mpr fun heq => hchild (heq ▸ hparent), Bool.eq_false_iff.mpr fun hstarts => hchild ?_⟩
  rw [startsWith, List.isPrefixOf_iff_prefix] at hstarts
  exact hstarts.subset (by simp [hparent])

theorem not_file_of_uncoloned {text : String} (h : ':' ∉ text.toList) : startsWith "file:" text = false := by
  by_contra hstarts
  rw [Bool.not_eq_false, startsWith, List.isPrefixOf_iff_prefix] at hstarts
  exact h (hstarts.subset (by simp))

/-- **A claim of one plain scope.** The gate reads it by its type; the check reads a file as all that lies below it,
and the other types not at all. -/
theorem plain_scope_iff {repoRelativePath : String → Option String} {claim : Fact} {type : ResourceType}
    {held path : String} (htype : type = .file ∨ type = .dir ∨ type = .repo ∨ type = .workspace)
    (hheld : PlainPath held) (hpath : PlainPath path) (hscope : claim.scope = [type.asStr ++ ":" ++ held]) :
    (HoldsPath claim path ↔ ResourceScope.ExcludesFile ⟨type, held, defaultAccess type⟩ path) ∧
      (ReadsPath repoRelativePath claim path ↔ type = .file ∧ pathContains held path = true) := by
  have hne : ∀ {p : String}, PlainPath p → p ≠ "" := by
    rintro p hp rfl
    exact (hp.components "" (by decide)).1 rfl
  have hclaimed : claimedPath path = path := by
    rw [claimedPath, hpath.trimmed, canonicalPath_of_plain hpath.components]
  have hid : canonicalIdentifier type held = held := by
    rcases htype with rfl | rfl | rfl | rfl <;>
      simp [canonicalIdentifier, hheld.trimmed, canonicalPath_of_plain hheld.components]
  have hparse := parseClaimScope_typed type held
  rw [hid, if_neg (hne hheld)] at hparse
  constructor
  · rw [HoldsPath, hclaimed, hscope]
    simp only [List.mem_singleton, exists_eq_left, hparse, Option.some.injEq, exists_eq_left', ne_eq, hne hpath,
      not_false_eq_true, true_and]
  · have hplain : comparablePath repoRelativePath path = path :=
      (comparablePath_of_plain hpath.components repoRelativePath).2 (not_file_of_uncoloned hpath.uncoloned)
    rw [ReadsPath, hscope, hplain]
    simp only [List.mem_singleton, exists_eq_left]
    by_cases hfile : type = .file
    · subst hfile
      have hheld' : comparablePath repoRelativePath (ResourceType.file.asStr ++ ":" ++ held) = held :=
        (comparablePath_of_plain hheld.components repoRelativePath).1
      rw [hheld']
      simp [hne hheld]
    · -- the word stays with the first component, and no component of the path has a colon
      have hword : '/' ∉ (type.asStr ++ ":").toList ∧ startsWith "file:" (type.asStr ++ ":" ++ held) = false := by
        rcases htype with rfl | rfl | rfl | rfl
        · exact absurd rfl hfile
        all_goals exact ⟨by decide, by simp [startsWith, ResourceType.asStr, List.isPrefixOf]⟩
      have hread : comparablePath repoRelativePath (type.asStr ++ ":" ++ held) = type.asStr ++ ":" ++ held :=
        (comparablePath_of_plain (components_of_word hword.1 (by simp) hheld.components) repoRelativePath).2 hword.2
      have hcolon : pathContains (type.asStr ++ ":" ++ held) path = false :=
        pathContains_of_colon (by simp) hpath.uncoloned
      simp [hread, hcolon, hfile]

/-! ## One claim, two answers -/

/-- The owner of a claim has an idle row in the roster. -/
def OwnerIdle (snapshot : RoomSnapshot) (claim : Fact) : Prop :=
  ∃ owner, claim.tool = some owner ∧ owner ∈ snapshot.idleOwnerTools

/-- The check and the gate agree about a claim: what the gate refuses because of it, the check reports under its
id, as a stop or, with an idle owner, as a warning; and the check stops for it only what the gate refuses. -/
structure ChecksAgree (snapshot : RoomSnapshot) (findings : List CheckFinding) (refused : Prop) (claim : Fact) :
    Prop where
  told : refused → ∃ finding ∈ findings, finding.factId = some claim.eventId ∧
    (finding.code = "claimed-path" ∧ finding.severity = "stop" ∨
      finding.code = "stale-owner-claim" ∧ finding.severity = "warn" ∧ OwnerIdle snapshot claim)
  stopped : (∃ finding ∈ findings, finding.factId = some claim.eventId ∧ finding.code = "claimed-path" ∧
    finding.severity = "stop") → refused

section Agreement

variable {ext : Externals} {repoRelativePath : String → Option String} {snapshot : RoomSnapshot}
  {coord : CoordinationConfig} {now : Int} {tool path : String} {claim c : Fact}

theorem ownerIdle_iff :
    claim.tool.any snapshot.idleOwnerTools.contains = true ↔ OwnerIdle snapshot claim := by
  rw [Option.any_eq_true, OwnerIdle]
  simp only [List.contains_iff_mem]

variable (ext snapshot coord now) in
/-- A claim of another tool that reads as the path has a finding of its own. -/
theorem claimFinding_of_reads (hother : claim.tool ≠ some tool)
    (hreads : ReadsPath repoRelativePath claim path) :
    ∃ finding, claimFinding ext repoRelativePath snapshot coord now tool path claim = some finding ∧
      finding.factId = some claim.eventId ∧
      (finding.code = "claimed-path" ∧ finding.severity = "stop" ∧ ¬OwnerIdle snapshot claim ∨
        finding.code = "stale-owner-claim" ∧ finding.severity = "warn" ∧ OwnerIdle snapshot claim) := by
  have hother' : (claim.tool != some tool) = true := bne_iff_ne.mpr hother
  unfold claimFinding
  simp only [onPath_iff.mpr hreads, hother', Bool.true_and]
  by_cases hidle : OwnerIdle snapshot claim
  · rw [if_pos (ownerIdle_iff.mpr hidle)]
    exact ⟨_, rfl, rfl, .inr ⟨rfl, rfl, hidle⟩⟩
  · rw [if_neg (mt ownerIdle_iff.mp hidle), if_pos trivial]
    exact ⟨_, rfl, rfl, .inl ⟨rfl, rfl, hidle⟩⟩

/-- What a finding of a claim says about the claim. -/
theorem claimFinding_spec {finding : CheckFinding}
    (h : claimFinding ext repoRelativePath snapshot coord now tool path claim = some finding) :
    finding.factId = some claim.eventId ∧
      (finding.code = "claimed-path" → ReadsPath repoRelativePath claim path ∧ ¬OwnerIdle snapshot claim) ∧
      (finding.code = "stale-owner-claim" → ReadsPath repoRelativePath claim path) := by
  unfold claimFinding at h
  dsimp only at h
  split at h
  case isTrue hstale =>
    obtain rfl := Option.some.inj h
    rw [Bool.and_eq_true, Bool.and_eq_true, onPath_iff] at hstale
    exact ⟨rfl, fun hcode : "stale-owner-claim" = "claimed-path" => absurd hcode (by decide), fun _ => hstale.1.1⟩
  case isFalse hstale =>
    split at h
    case isTrue hclaimed =>
      obtain rfl := Option.some.inj h
      have hidle : ¬OwnerIdle snapshot claim := fun hidle => hstale (by rw [hclaimed, ownerIdle_iff.mpr hidle]; rfl)
      rw [Bool.and_eq_true, onPath_iff] at hclaimed
      exact ⟨rfl, fun _ => ⟨hclaimed.1, hidle⟩, fun _ => hclaimed.1⟩
    case isFalse =>
      split at h
      · obtain ⟨scope, -, rfl⟩ := Option.map_eq_some_iff.mp h
        exact ⟨rfl, fun hcode : "ambiguous-path-collision" = "claimed-path" => absurd hcode (by decide),
          fun hcode : "ambiguous-path-collision" = "stale-owner-claim" => absurd hcode (by decide)⟩
      · cases h

/-- The two codes of claims stand on findings of claims only. -/
theorem mem_check_of_code {currentDecisions : List Fact} {finding : CheckFinding}
    (hcode : finding.code = "claimed-path" ∨ finding.code = "stale-owner-claim") :
    finding ∈ checkBeforeWriteWithCoord ext repoRelativePath snapshot coord now tool currentDecisions (some path) ↔
      ∃ claim ∈ snapshot.activeClaims,
        claimFinding ext repoRelativePath snapshot coord now tool path claim = some finding := by
  have hdecision : ∀ f, decisionFinding repoRelativePath (some path) f ≠ some finding := by
    intro f hf
    unfold decisionFinding at hf
    split at hf
    · obtain rfl := Option.some.inj hf
      simp at hcode
    split at hf
    · obtain rfl := Option.some.inj hf
      simp at hcode
    · cases hf
  have hblocker : ∀ f, blockerFinding repoRelativePath snapshot (some path) f ≠ some finding := by
    intro f hf
    unfold blockerFinding at hf
    split at hf
    · obtain rfl := Option.some.inj hf
      simp at hcode
    split at hf
    · split at hf <;>
      · obtain rfl := Option.some.inj hf
        simp at hcode
    · cases hf
  simp [checkBeforeWriteWithCoord, missingPath, List.mem_filterMap, hdecision, hblocker]

end Agreement

section Agrees

variable {ext : Externals} {repoRelativePath : String → Option String} {coord : CoordinationConfig}
  {includeArchived : Bool} {now : Int} {F : List Fact} {tool path : String} {incoming c : Fact}

/-- A finding with a claim's code and id is that claim's. -/
theorem claimFinding_of_mem (hids : (F.map (·.eventId)).Nodup) (hc : c ∈ resolvedFacts F)
    {finding : CheckFinding} (hcode : finding.code = "claimed-path" ∨ finding.code = "stale-owner-claim")
    (hmem : finding ∈ checkBeforeWrite ext repoRelativePath coord now tool F includeArchived (some path))
    (hid : finding.factId = some c.eventId) :
    claimFinding ext repoRelativePath (snapshotFromFactsWithPolicy ext F coord includeArchived now) coord now
      tool path (projectEffectiveClaim ext c (resolvedFacts F)) = some finding := by
  obtain ⟨shown, hshown, hfinding⟩ := (mem_check_of_code hcode).mp hmem
  obtain ⟨claim, hclaim, -, rfl⟩ := mem_projectActiveClaims.mp hshown
  have hsame : claim.eventId = c.eventId := by
    have hid' := (claimFinding_spec hfinding).1
    rw [hid, projectEffectiveClaim_eventId] at hid'
    exact (Option.some.inj hid').symm
  have hresolved : ((resolvedFacts F).map (·.eventId)).Nodup := hids.sublist ((resolvedFacts_sublist F).map _)
  rwa [List.inj_on_of_nodup_map hresolved hclaim hc hsame] at hfinding

/-- The room shows a claim with another lease in its evidence, which neither question reads. -/
theorem readsPath_shown :
    ReadsPath repoRelativePath (projectEffectiveClaim ext c (resolvedFacts F)) path ↔
      ReadsPath repoRelativePath c path := by
  simp only [ReadsPath, projectEffectiveClaim_scope]

theorem ownerIdle_shown {snapshot : RoomSnapshot} :
    OwnerIdle snapshot (projectEffectiveClaim ext c (resolvedFacts F)) ↔ OwnerIdle snapshot c := by
  simp only [OwnerIdle, projectEffectiveClaim_tool]

variable (coord includeArchived now) in
/-- The check has a finding of its own for a claim of another tool, a stop or a warning, when the claim reads as
the path. -/
theorem check_reports_iff (hids : (F.map (·.eventId)).Nodup) (hc : c ∈ resolvedFacts F)
    (hactive : isActiveClaimFact c (resolvedFacts F) = true) (hother : c.tool ≠ some tool) :
    (∃ finding ∈ checkBeforeWrite ext repoRelativePath coord now tool F includeArchived (some path),
        finding.factId = some c.eventId ∧
        (finding.code = "claimed-path" ∧ finding.severity = "stop" ∨
          finding.code = "stale-owner-claim" ∧ finding.severity = "warn" ∧
            OwnerIdle (snapshotFromFactsWithPolicy ext F coord includeArchived now) c)) ↔
      ReadsPath repoRelativePath c path := by
  constructor
  · rintro ⟨finding, hmem, hid, hcode⟩
    have hcode' : finding.code = "claimed-path" ∨ finding.code = "stale-owner-claim" :=
      hcode.imp And.left And.left
    obtain ⟨-, hclaimed, hstale⟩ := claimFinding_spec (claimFinding_of_mem hids hc hcode' hmem hid)
    rw [readsPath_shown] at hclaimed hstale
    rcases hcode' with hcode' | hcode'
    · exact (hclaimed hcode').1
    · exact hstale hcode'
  · intro hreads
    have hshown : projectEffectiveClaim ext c (resolvedFacts F) ∈
        (snapshotFromFactsWithPolicy ext F coord includeArchived now).activeClaims :=
      mem_projectActiveClaims.mpr ⟨c, hc, hactive, rfl⟩
    have hother' : (projectEffectiveClaim ext c (resolvedFacts F)).tool ≠ some tool := by
      rwa [projectEffectiveClaim_tool]
    obtain ⟨finding, hfinding, hid, hcode⟩ := claimFinding_of_reads ext
      (snapshotFromFactsWithPolicy ext F coord includeArchived now) coord now hother' (readsPath_shown.mpr hreads)
    rw [projectEffectiveClaim_eventId] at hid
    rw [ownerIdle_shown] at hcode
    refine ⟨finding, (mem_check_of_code ?_).mpr ⟨_, hshown, hfinding⟩, hid, ?_⟩
    · exact hcode.imp And.left And.left
    · exact hcode.imp (fun h => ⟨h.1, h.2.1⟩) id

/-- The check stops for a claim of another tool when the claim reads as the path and its owner is not idle. -/
theorem check_stops_iff (hids : (F.map (·.eventId)).Nodup) (hc : c ∈ resolvedFacts F)
    (hactive : isActiveClaimFact c (resolvedFacts F) = true) (hother : c.tool ≠ some tool) :
    (∃ finding ∈ checkBeforeWrite ext repoRelativePath coord now tool F includeArchived (some path),
        finding.factId = some c.eventId ∧ finding.code = "claimed-path" ∧ finding.severity = "stop") ↔
      ReadsPath repoRelativePath c path ∧
        ¬OwnerIdle (snapshotFromFactsWithPolicy ext F coord includeArchived now) c := by
  constructor
  · rintro ⟨finding, hmem, hid, hcode, -⟩
    have hclaimed := (claimFinding_spec (claimFinding_of_mem hids hc (.inl hcode) hmem hid)).2.1 hcode
    rwa [readsPath_shown, ownerIdle_shown] at hclaimed
  · rintro ⟨hreads, hbusy⟩
    obtain ⟨finding, hmem, hid, hcode⟩ :=
      (check_reports_iff coord includeArchived now hids hc hactive hother).mpr hreads
    rcases hcode with hcode | ⟨-, -, hidle⟩
    · exact ⟨finding, hmem, hid, hcode⟩
    · exact absurd hidle hbusy

/-- **The write check and admission.** In every ledger, for every tool, path and active claim of another tool:
the check and the conflict gate agree about the claim exactly when either it is of the lease that asks, and does
not read as the path unless its owner is idle; or it is not, and it holds the path if it reads as the path, unless
its owner is idle, and reads as the path if it holds it. -/
theorem write_check_agrees_iff (hids : (F.map (·.eventId)).Nodup) (hincoming : ClaimsFile tool path incoming)
    (hc : c ∈ resolvedFacts F) (hactive : isActiveClaimFact c (resolvedFacts F) = true)
    (hother : c.tool ≠ some tool) :
    ChecksAgree (snapshotFromFactsWithPolicy ext F coord includeArchived now)
        (checkBeforeWrite ext repoRelativePath coord now tool F includeArchived (some path))
        (RefusedBecauseOf ext F incoming c) c ↔
      if sameSessionOwner c.tool c.fromSessionId (some tool) incoming.fromSessionId then
        ReadsPath repoRelativePath c path →
          OwnerIdle (snapshotFromFactsWithPolicy ext F coord includeArchived now) c
      else
        (HoldsPath c path → ReadsPath repoRelativePath c path) ∧
          (ReadsPath repoRelativePath c path → HoldsPath c path ∨
            OwnerIdle (snapshotFromFactsWithPolicy ext F coord includeArchived now) c) := by
  have hagree : ChecksAgree (snapshotFromFactsWithPolicy ext F coord includeArchived now)
      (checkBeforeWrite ext repoRelativePath coord now tool F includeArchived (some path))
      (RefusedBecauseOf ext F incoming c) c ↔
        (RefusedBecauseOf ext F incoming c → ReadsPath repoRelativePath c path) ∧
          (ReadsPath repoRelativePath c path ∧
            ¬OwnerIdle (snapshotFromFactsWithPolicy ext F coord includeArchived now) c →
              RefusedBecauseOf ext F incoming c) := by
    rw [← check_stops_iff hids hc hactive hother,
      ← check_reports_iff coord includeArchived now hids hc hactive hother]
    exact ⟨fun h => ⟨h.told, h.stopped⟩, fun h => ⟨h.1, h.2⟩⟩
  rw [hagree, refused_of_file_iff hincoming, hincoming.tool]
  cases sameSessionOwner c.tool c.fromSessionId (some tool) incoming.fromSessionId with
  | true => simp
  | false =>
    simp only [true_and, Bool.false_eq_true, if_false, and_congr_right_iff]
    intro _
    tauto

end Agrees

/-- `bob` holds the directory `src`. -/
def sourcesClaim : Fact :=
  { eventId := "c1", seq := 1, kind := .claim, tool := some "bob", subject := "the sources", scope := ["dir:src"]
    createdAt := "2026-01-01T00:00:00Z" }

/-- What `alice` writes to claim one file in it. -/
def sourceFileClaim : Fact :=
  { eventId := "c2", seq := 2, kind := .claim, tool := some "alice", subject := "one of them"
    scope := ["file:src/a.rs"], createdAt := "2026-01-01T00:00:00Z" }

/-- Where the directory is not held but the file itself, `alice` is told. -/
theorem write_check_agrees_iff_file :
    ChecksAgree (snapshotFromFactsWithPolicy .sample [{ sourcesClaim with scope := ["file:./src/a.rs"] }] {} false 0)
      (checkBeforeWrite .sample some {} 0 "alice" [{ sourcesClaim with scope := ["file:./src/a.rs"] }] false
        (some "src/a.rs"))
      (RefusedBecauseOf .sample [{ sourcesClaim with scope := ["file:./src/a.rs"] }] sourceFileClaim
        { sourcesClaim with scope := ["file:./src/a.rs"] }) { sourcesClaim with scope := ["file:./src/a.rs"] } := by
  have hreads : ReadsPath some { sourcesClaim with scope := ["file:./src/a.rs"] } "src/a.rs" :=
    ⟨_, List.mem_singleton.mpr rfl, by decide +kernel, by decide +kernel⟩
  have hholds : HoldsPath { sourcesClaim with scope := ["file:./src/a.rs"] } "src/a.rs" :=
    ⟨by decide +kernel, _, List.mem_singleton.mpr rfl, ⟨.file, "src/a.rs", .exclusive⟩, by decide +kernel,
      .inl rfl, by decide +kernel⟩
  exact (write_check_agrees_iff (by decide +kernel) ⟨rfl, rfl, rfl⟩ (by decide +kernel) (by decide +kernel)
    (by decide +kernel)).mpr ⟨fun _ => hreads, fun _ => .inl hholds⟩

/-- **A clear check, a refused claim.** `bob` holds `dir:src`. The check finds nothing to say to `alice` about
`src/a.rs`, and the gate refuses her claim of that file because of his. -/
theorem write_check_clears_refused_claim :
    checkBeforeWrite .sample some {} 0 "alice" [sourcesClaim] false (some "src/a.rs") = [] ∧
      detectConflict .sample [sourcesClaim] sourceFileClaim =
        some ⟨"c1", some "bob", "file:src/a.rs", "dir:src"⟩ ∧
      ¬∀ (F : List Fact) (tool path : String) (incoming c : Fact), (F.map (·.eventId)).Nodup →
        ClaimsFile tool path incoming → c ∈ resolvedFacts F → isActiveClaimFact c (resolvedFacts F) = true →
        c.tool ≠ some tool →
        ChecksAgree (snapshotFromFactsWithPolicy .sample F {} false 0)
          (checkBeforeWrite .sample some {} 0 tool F false (some path)) (RefusedBecauseOf .sample F incoming c)
          c := by
  have hclear : checkBeforeWrite .sample some {} 0 "alice" [sourcesClaim] false (some "src/a.rs") = [] := by
    decide +kernel
  have hrefused : detectConflict .sample [sourcesClaim] sourceFileClaim =
      some ⟨"c1", some "bob", "file:src/a.rs", "dir:src"⟩ := by decide +kernel
  refine ⟨hclear, hrefused, fun h => ?_⟩
  have hagree := h [sourcesClaim] "alice" "src/a.rs" sourceFileClaim sourcesClaim (by decide +kernel) ⟨rfl, rfl, rfl⟩
    (by decide +kernel) (by decide +kernel) (by decide +kernel)
  obtain ⟨claim, hclaim, -, hbecause, -⟩ := detectConflict_names .sample hrefused
  obtain rfl : claim = sourcesClaim := by
    have hresolved : resolvedFacts [sourcesClaim] = [sourcesClaim] := by decide +kernel
    rw [hresolved] at hclaim
    exact List.mem_singleton.mp hclaim
  obtain ⟨finding, hmem, -⟩ := hagree.told hbecause
  rw [hclear] at hmem
  cases hmem

/-- The other way round: `bob` holds the file `src`, which the check reads as the directory. -/
example : (checkBeforeWrite .sample some {} 0 "alice" [{ sourcesClaim with scope := ["file:src"] }] false
      (some "src/a.rs")).map (·.code) = ["claimed-path"] ∧
    detectConflict .sample [{ sourcesClaim with scope := ["file:src"] }] sourceFileClaim = none := by decide +kernel

end RallyPoint
