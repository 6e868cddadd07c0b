/-
# RallyPoint.AutoClaim — the claim the hook takes for an edit (`hook_runtime.rs`), and whether it protects the edit.

Before a write the hook judges every target, and when all are allowed it claims, in one fact, the targets the tool
does not hold yet. Whether a target is held is read off the scope texts (`Covered`): one `file:` and one `./` are
stripped, and what is left is the target or a prefix of it, whatever type or access mode the scope has. Whether a
peer is kept off a target is read off the parsed scopes (`HeldAgainst`). `hook_clears_protected_iff` says for which
ledgers and targets an edit the hook clears is protected, `covered_plain_iff` where the two readings part.
-/
import RallyPoint.Exclusivity
import RallyPoint.SessionRelease
import RallyPoint.WriteCheck

namespace RallyPoint

open Lib

/-! ## What the tool holds, by the text of its scopes -/

def cleanScope (value : String) : String :=
  let out := trim value
  let out := (stripPrefix "file:" out).getD out
  let out := (stripPrefix "./" out).getD out
  String.ofList (out.toList.rdropWhile (· == '/'))

def scopeCovers (scope target : String) : Bool :=
  let held := cleanScope scope
  let path := cleanScope target
  held != "" && (held == path || startsWith (held ++ "/") path)

/-- The paths the tool does not already hold, in input order. -/
def unownedPaths (activeClaims : List Fact) (tool : String) (paths : List String) : List String :=
  paths.filter fun path =>
    !activeClaims.any fun claim => claim.tool == some tool && claim.scope.any fun scope => scopeCovers scope path

/-! ## The claim -/

def autoClaimSummary : String := "native-hook:before-write"

/-- What the hook reads beside the room: hashes of files under the root, the protocol session of a tool, fresh ids
and the texts of the instant. -/
structure HookContext where
  hashFile : String → Option String
  currentProtocolSession : String → String
  eventId : String
  threadId : String
  createdAt : String
  /-- The lease marker `now + secs`. -/
  leaseMarkerAt : Int → String

/-- A hash marker for every claimed file that can be read. -/
def claimHashes (hashFile : String → Option String) (filePaths : List String) : List String :=
  filePaths.filterMap fun raw =>
    let rel := (stripPrefix "file:" raw).getD raw
    (hashFile rel).map fun hash => s!"claimhash:{rel}={hash}"

section Hook

variable (ext : Externals) (repoRelativePath : String → Option String) (coord : CoordinationConfig) (now : Int)
  (hook : HookContext) (F : List Fact) (tool : String)

def scopesFrom (rawScopes resources paths : List String) : List String :=
  sortDedup (rawScopes ++ resources ++ paths.map (normalizePath repoRelativePath))

/-- One claim for all unowned paths, with the lease, scopes and hashes an explicit claim has. -/
def autoClaim (claimable : List String) (totalPaths : Nat) : Fact :=
  let scope := scopesFrom repoRelativePath [] [] claimable
  let leaseSecs := reclaimTimeoutSecs (classifyWorkSize (scope.filterMap parseClaimScope) scope.length)
    coord.reclaimSmallMinutes coord.reclaimLargeMinutes
  let fileScopes := scope.filter (startsWith "file:")
  { schema := factSchema
    eventId := hook.eventId
    threadId := hook.threadId
    kind := .claim
    tool := some tool
    subject := "auto-claim " ++
      if totalPaths = 1 then claimable.headD "" else s!"{totalPaths} validated paths"
    scope := scope
    createdAt := hook.createdAt
    summary := some autoClaimSummary
    evidence := ensureLeaseEvidence [] (hook.leaseMarkerAt leaseSecs) ++
      if fileScopes.isEmpty then [] else claimHashes hook.hashFile fileScopes
    fromSessionId := some (hook.currentProtocolSession tool) }

/-- The check of one path has nothing to say that stops the write. -/
def judgePath (path : String) : Bool :=
  !(checkBeforeWrite ext repoRelativePath coord now tool F false (some path)).any (·.severity == "stop")

/-- The claim the hook appends once every target is allowed; none when nothing is left to claim. -/
def beforeWriteClaim (paths : List String) : Option Fact :=
  if paths.all (judgePath ext repoRelativePath coord now F tool) && !paths.isEmpty then
    let claimable := unownedPaths (snapshotFromFactsWithPolicy ext F coord false now).activeClaims tool paths
    if claimable.isEmpty then none
    else some (autoClaim repoRelativePath coord hook tool claimable paths.length)
  else none

/-- The ledger behind the hook: the claim has the next sequence. -/
def afterBeforeWrite (paths : List String) : List Fact :=
  F ++ ((beforeWriteClaim ext repoRelativePath coord now hook F tool paths).map fun claim =>
    { claim with seq := canonicalMaxSeq F + 1 }).toList

end Hook

/-! ## The claim, as the gate reads it -/

/-- What `normalizePath` puts behind `file:`. -/
def normalizedText (repoRelativePath : String → Option String) (path : String) : String :=
  let stripped := (stripPrefix "file:" path).getD path
  let raw := (stripPrefix "./" stripped).getD stripped
  let canonical := normalizeComponents (if startsWith "/" raw then (repoRelativePath raw).getD raw else raw)
  if canonical = "" then raw else canonical

section Claim

variable {repoRelativePath : String → Option String} {coord : CoordinationConfig} {hook : HookContext}
  {tool : String} {claimable : List String} {total : Nat}

theorem normalizePath_eq (path : String) :
    normalizePath repoRelativePath path = "file:" ++ normalizedText repoRelativePath path := by
  unfold normalizePath normalizedText
  exact (apply_ite ("file:" ++ ·) _ _ _).symm

theorem mem_autoClaim_scope {raw : String} :
    raw ∈ (autoClaim repoRelativePath coord hook tool claimable total).scope ↔
      ∃ q ∈ claimable, "file:" ++ normalizedText repoRelativePath q = raw := by
  simp only [autoClaim, scopesFrom, mem_sortDedup, List.nil_append, List.mem_map, normalizePath_eq]

theorem excludesFile_file_iff {identifier file : String} :
    ResourceScope.ExcludesFile ⟨.file, identifier, .exclusive⟩ file ↔ identifier = file := by
  simp [ResourceScope.ExcludesFile]

/-- The claim holds a path when one of the claimed paths names the same file. -/
theorem holdsPath_autoClaim {path : String} :
    HoldsPath (autoClaim repoRelativePath coord hook tool claimable total) path ↔
      claimedPath path ≠ "" ∧
        ∃ q ∈ claimable, claimedPath (normalizedText repoRelativePath q) = claimedPath path := by
  rw [HoldsPath]
  refine and_congr_right fun hne => ?_
  constructor
  · rintro ⟨raw, hraw, scope, hparse, hexcludes⟩
    obtain ⟨q, hq, rfl⟩ := mem_autoClaim_scope.mp hraw
    rw [parseClaimScope_file] at hparse
    split at hparse
    · cases hparse
    · obtain rfl := Option.some.inj hparse
      exact ⟨q, hq, excludesFile_file_iff.mp hexcludes⟩
  · rintro ⟨q, hq, heq⟩
    have hparse : parseClaimScope ("file:" ++ normalizedText repoRelativePath q) =
        some ⟨.file, claimedPath path, .exclusive⟩ := by
      rw [parseClaimScope_file, heq, if_neg hne]
    exact ⟨_, mem_autoClaim_scope.mpr ⟨q, hq, rfl⟩, _, hparse, excludesFile_file_iff.mpr rfl⟩

theorem targetOf_autoClaim (n : Int) :
    targetOf { autoClaim repoRelativePath coord hook tool claimable total with seq := n } = none := by
  have hsubject : (autoClaim repoRelativePath coord hook tool claimable total).subject =
      "auto-claim " ++ if total = 1 then claimable.headD "" else s!"{total} validated paths" := rfl
  have hopening : ∀ more, startsWith subjectPrefix ("auto-claim " ++ more) = false :=
    startsWith_append_of_apart (by decide) (by decide)
  exact targetOf_of_opening hsubject ⟨'a', _, rfl, by decide⟩ hopening

theorem isLocalClaim_autoClaim (n : Int) :
    isLocalClaim { autoClaim repoRelativePath coord hook tool claimable total with seq := n } = true := by
  have hscope : ∀ raw ∈ (autoClaim repoRelativePath coord hook tool claimable total).scope,
      raw ≠ "external-intake" := by
    rintro raw hraw rfl
    obtain ⟨q, -, hq⟩ := mem_autoClaim_scope.mp hraw
    simp [← String.toList_inj] at hq
  simpa [isLocalClaim, autoClaim] using hscope

end Claim

/-! ## Held, by the text and by the gate -/

section Protection

variable {ext : Externals} {repoRelativePath : String → Option String} {coord : CoordinationConfig} {now : Int}
  {hook : HookContext} {F : List Fact} {tool other path : String} {session : Option String} {paths : List String}

/-- The text of some scope of an active claim of the tool is the path, or a prefix of it up to a `/`. -/
def Covered (F : List Fact) (tool path : String) : Prop :=
  ∃ c, ActiveIn F c ∧ c.tool = some tool ∧ ∃ scope ∈ c.scope, scopeCovers scope path = true

/-- An active claim of the tool holds the path, and is not of the lease of the other tool and session. -/
def HeldAgainst (F : List Fact) (tool other : String) (session : Option String) (path : String) : Prop :=
  ∃ c, ActiveIn F c ∧ c.tool = some tool ∧
    sameSessionOwner c.tool c.fromSessionId (some other) session = false ∧ HoldsPath c path

/-- The conflict gate refuses the other tool every exclusive file claim of the path, because of an active claim of
the tool. -/
def KeepsOut (ext : Externals) (F : List Fact) (tool other : String) (session : Option String) (path : String) :
    Prop :=
  ∀ incoming, ClaimsFile other path incoming → incoming.fromSessionId = session →
    detectConflict ext F incoming ≠ none ∧
      ∃ c, ActiveIn F c ∧ c.tool = some tool ∧ RefusedBecauseOf ext F incoming c

theorem keepsOut_iff : KeepsOut ext F tool other session path ↔ HeldAgainst F tool other session path := by
  constructor
  · intro h
    let incoming : Fact :=
      { kind := .claim, tool := some other, scope := ["file:" ++ path], fromSessionId := session }
    have hincoming : ClaimsFile other path incoming := ⟨rfl, rfl, rfl⟩
    obtain ⟨-, c, hactive, htool, hrefused⟩ := h incoming hincoming rfl
    obtain ⟨hlease, hholds⟩ := (refused_of_file_iff hincoming).mp hrefused
    exact ⟨c, hactive, htool, hlease, hholds⟩
  · rintro ⟨c, hactive, htool, hlease, hholds⟩ incoming hincoming rfl
    have hrefused : RefusedBecauseOf ext F incoming c := by
      rw [refused_of_file_iff hincoming, hincoming.tool]
      exact ⟨hlease, hholds⟩
    refine ⟨fun hnone => ?_, c, hactive, htool, hrefused⟩
    exact (detectConflict_eq_none_iff_refused ext hincoming.kind).mp hnone c hactive.1 hactive.2 hrefused

/-- The hook claims exactly the targets whose text no held scope covers. -/
theorem mem_unownedPaths_iff {q : String} :
    q ∈ unownedPaths (snapshotFromFactsWithPolicy ext F coord false now).activeClaims tool paths ↔
      q ∈ paths ∧ ¬Covered F tool q := by
  have hcovered : (snapshotFromFactsWithPolicy ext F coord false now).activeClaims.any (fun claim =>
      claim.tool == some tool && claim.scope.any fun scope => scopeCovers scope q) = true ↔ Covered F tool q := by
    rw [List.any_eq_true, snapshot_activeClaims]
    constructor
    · rintro ⟨shown, hshown, hholds⟩
      obtain ⟨c, hc, hactive, rfl⟩ := mem_projectActiveClaims.mp hshown
      rw [Bool.and_eq_true, beq_iff_eq, projectEffectiveClaim_tool, projectEffectiveClaim_scope,
        List.any_eq_true] at hholds
      exact ⟨c, ⟨hc, hactive⟩, hholds⟩
    · rintro ⟨c, ⟨hc, hactive⟩, htool, hscope⟩
      refine ⟨_, mem_projectActiveClaims.mpr ⟨c, hc, hactive, rfl⟩, ?_⟩
      rw [Bool.and_eq_true, beq_iff_eq, projectEffectiveClaim_tool, projectEffectiveClaim_scope, List.any_eq_true]
      exact ⟨htool, hscope⟩
  rw [unownedPaths, List.mem_filter, Bool.not_eq_true', ← hcovered, Bool.not_eq_true]

/-- The uncovered targets are claimed, and one of them names the file of the path. -/
def ClaimNames (repoRelativePath : String → Option String) (F : List Fact) (tool : String) (paths : List String)
    (path : String) : Prop :=
  claimedPath path ≠ "" ∧
    ∃ q ∈ paths, ¬Covered F tool q ∧ claimedPath (normalizedText repoRelativePath q) = claimedPath path

theorem eq_of_beforeWriteClaim {claim : Fact}
    (h : beforeWriteClaim ext repoRelativePath coord now hook F tool paths = some claim) :
    claim = autoClaim repoRelativePath coord hook tool
      (unownedPaths (snapshotFromFactsWithPolicy ext F coord false now).activeClaims tool paths) paths.length := by
  unfold beforeWriteClaim at h
  split at h
  · dsimp only at h
    split at h
    · cases h
    · exact (Option.some.inj h).symm
  · cases h

/-- The claim joins the active ones, and nothing else changes. -/
theorem activeIn_append_autoClaim {claimable : List String} {total : Nat} {a c : Fact} (hF : IsLedger F)
    (ha : a = { autoClaim repoRelativePath coord hook tool claimable total with seq := canonicalMaxSeq F + 1 }) :
    ActiveIn (F ++ [a]) c ↔ ActiveIn F c ∨ c = a ∧ hook.eventId ∉ retractedIds F := by
  have htarget : targetOf a = none := by
    rw [ha]
    exact targetOf_autoClaim _
  have hlocal : isLocalClaim a = true := by
    rw [ha]
    exact isLocalClaim_autoClaim _
  have hkind : a.kind = .claim := by rw [ha]; rfl
  have hid : a.eventId = hook.eventId := by rw [ha]; rfl
  have hseq : ∀ x ∈ F, x.seq < a.seq := by
    intro x hx
    have hle := hF.le_canonicalMaxSeq x hx
    rw [ha]
    exact Int.lt_add_one_of_le hle
  have hcloses : closesClaim a c = false := by
    simp [closesClaim, laterFactRefsClaim, laterReleaseOverlapsClaimScope, laterSessionCloseMatchesClaim,
      closesActiveClaim, isSessionCloseFact, isSessionCloseAttempt, hkind]
  have hsurvives : survivesAppend F a = true ↔ hook.eventId ∉ retractedIds F := by
    simp [survivesAppend, htarget, hid]
  rw [activeIn_append_iff hseq]
  constructor
  · rintro (⟨hactive, -, -⟩ | ⟨-, -, -, -, ⟨x, hx, hclose⟩, hall⟩ | ⟨rfl, hentered, -⟩)
    · exact .inl hactive
    · -- only a retraction revives a claim
      have hretracts := hall x hx hclose
      rw [htarget] at hretracts
      cases hretracts
    · exact .inr ⟨rfl, hsurvives.mp hentered⟩
  · rintro (hactive | ⟨rfl, hfresh⟩)
    · refine .inl ⟨hactive, ?_, by rw [closesOnAppend, hcloses, Bool.and_false]⟩
      rw [htarget]
      exact (Option.some_ne_none _).symm
    · exact .inr (.inr ⟨rfl, hsurvives.mpr hfresh, hlocal⟩)

section Allowed

variable (hallow : ∀ p ∈ paths, judgePath ext repoRelativePath coord now F tool p = true)
include hallow

theorem beforeWriteClaim_eq_none_iff :
    beforeWriteClaim ext repoRelativePath coord now hook F tool paths = none ↔ ∀ p ∈ paths, Covered F tool p := by
  have hall : paths.all (judgePath ext repoRelativePath coord now F tool) = true := List.all_eq_true.mpr hallow
  have hempty : (unownedPaths (snapshotFromFactsWithPolicy ext F coord false now).activeClaims tool paths).isEmpty =
      true ↔ ∀ p ∈ paths, Covered F tool p := by
    rw [List.isEmpty_iff, List.eq_nil_iff_forall_not_mem]
    simp only [mem_unownedPaths_iff, not_and, not_not]
  rw [beforeWriteClaim, hall, Bool.true_and]
  cases paths with
  | nil => simp
  | cons p ps =>
    rw [← hempty]
    simp

/-- Behind the hook a target is held when it was before, or when the new claim names it and survives its append. -/
theorem heldAgainst_afterBeforeWrite (hF : IsLedger F) :
    HeldAgainst (afterBeforeWrite ext repoRelativePath coord now hook F tool paths) tool other session path ↔
      HeldAgainst F tool other session path ∨
        ClaimNames repoRelativePath F tool paths path ∧ hook.eventId ∉ retractedIds F ∧
          sameSessionOwner (some tool) (some (hook.currentProtocolSession tool)) (some other) session = false := by
  cases hclaim : beforeWriteClaim ext repoRelativePath coord now hook F tool paths with
  | none =>
    have hcovered := (beforeWriteClaim_eq_none_iff hallow).mp hclaim
    rw [afterBeforeWrite, hclaim, Option.map_none, Option.toList_none, List.append_nil, or_iff_left]
    rintro ⟨⟨-, q, hq, huncovered, -⟩, -⟩
    exact huncovered (hcovered q hq)
  | some claim =>
    obtain rfl := eq_of_beforeWriteClaim hclaim
    rw [afterBeforeWrite, hclaim, Option.map_some, Option.toList_some]
    have hnames : HoldsPath (autoClaim repoRelativePath coord hook tool
        (unownedPaths (snapshotFromFactsWithPolicy ext F coord false now).activeClaims tool paths) paths.length)
          path ↔ ClaimNames repoRelativePath F tool paths path := by
      simp only [holdsPath_autoClaim, ClaimNames, mem_unownedPaths_iff, and_assoc]
    constructor
    · rintro ⟨c, hactive, htool, hlease, hholds⟩
      rcases (activeIn_append_autoClaim hF rfl).mp hactive with hactive | ⟨rfl, hfresh⟩
      · exact .inl ⟨c, hactive, htool, hlease, hholds⟩
      · exact .inr ⟨hnames.mp hholds, hfresh, hlease⟩
    · rintro (⟨c, hactive, htool, hlease, hholds⟩ | ⟨hclaimed, hfresh, hlease⟩)
      · exact ⟨c, (activeIn_append_autoClaim hF rfl).mpr (.inl hactive), htool, hlease, hholds⟩
      · exact ⟨_, (activeIn_append_autoClaim hF rfl).mpr (.inr ⟨rfl, hfresh⟩), rfl, hlease, hnames.mpr hclaimed⟩

end Allowed

/-- What the hook promises an edit: behind it every target is kept from the other tool, and nothing is claimed
when all of them were kept from it before. -/
structure HookProtects (ext : Externals) (repoRelativePath : String → Option String) (coord : CoordinationConfig)
    (now : Int) (hook : HookContext) (F : List Fact) (tool : String) (paths : List String) (other : String)
    (session : Option String) : Prop where
  protects : ∀ p ∈ paths,
    KeepsOut ext (afterBeforeWrite ext repoRelativePath coord now hook F tool paths) tool other session p
  rests : (∀ p ∈ paths, KeepsOut ext F tool other session p) →
    beforeWriteClaim ext repoRelativePath coord now hook F tool paths = none

/-- **An edit the hook clears is protected** when every target is held, or left to a claim that names it; and the
targets, all held, are all read as held. -/
theorem hook_clears_protected_iff (hF : IsLedger F)
    (hallow : ∀ p ∈ paths, judgePath ext repoRelativePath coord now F tool p = true) :
    HookProtects ext repoRelativePath coord now hook F tool paths other session ↔
      (∀ p ∈ paths, HeldAgainst F tool other session p ∨
        ClaimNames repoRelativePath F tool paths p ∧ hook.eventId ∉ retractedIds F ∧
          sameSessionOwner (some tool) (some (hook.currentProtocolSession tool)) (some other) session = false) ∧
      ((∀ p ∈ paths, HeldAgainst F tool other session p) → ∀ p ∈ paths, Covered F tool p) := by
  have hprotects : ∀ p,
      KeepsOut ext (afterBeforeWrite ext repoRelativePath coord now hook F tool paths) tool other session p ↔ _ :=
    fun p => keepsOut_iff.trans (heldAgainst_afterBeforeWrite hallow hF)
  have hrests : beforeWriteClaim ext repoRelativePath coord now hook F tool paths = none ↔ _ :=
    beforeWriteClaim_eq_none_iff hallow
  constructor
  · intro h
    refine ⟨fun p hp => (hprotects p).mp (h.protects p hp), fun hheld => hrests.mp (h.rests fun p hp => ?_)⟩
    exact keepsOut_iff.mpr (hheld p hp)
  · rintro ⟨hheld, hcovered⟩
    refine ⟨fun p hp => (hprotects p).mpr (hheld p hp), fun hkept => hrests.mpr (hcovered fun p hp => ?_)⟩
    exact keepsOut_iff.mp (hkept p hp)

end Protection

def HookContext.sample : HookContext where
  hashFile _ := none
  currentProtocolSession tool := "session-" ++ tool
  eventId := "fact_1"
  threadId := "room_1"
  createdAt := "2026-01-01T00:00:00Z"
  leaseMarkerAt _ := "2026-01-01T12:00:00Z"

/-- In an empty room the edit is claimed, and `bob` kept off it. -/
theorem hook_clears_protected_iff_unclaimed :
    HookProtects .sample some {} 0 .sample [] "alice" ["src/a.rs"] "bob" (some "session-bob") := by
  have huncovered : ¬Covered [] "alice" "src/a.rs" := by
    rintro ⟨c, hactive, -⟩
    exact absurd hactive.1 (by simp)
  refine (hook_clears_protected_iff IsLedger.nil (by decide)).mpr ⟨fun p hp => .inr ?_, fun hheld => ?_⟩
  · obtain rfl := List.mem_singleton.mp hp
    exact ⟨⟨by decide, "src/a.rs", List.mem_singleton.mpr rfl, huncovered, by decide⟩,
      by decide, by decide⟩
  · obtain ⟨c, hactive, -⟩ := hheld "src/a.rs" (List.mem_singleton.mpr rfl)
    exact absurd hactive.1 (by simp)

/-- **A cleared edit that a peer can claim.** `alice` holds `file:src`. The hook allows her the edit of `src/a.rs` and
takes no claim, as the text of hers covers it, and the gate admits the claim of that file that `bob` posts then.
Where she holds `dir:src`, which keeps `bob` off, the hook claims the file once more. -/
theorem hook_clears_unprotected :
    judgePath .sample some {} 0 [{ sourcesClaim with tool := some "alice", scope := ["file:src"] }] "alice"
        "src/a.rs" = true ∧
      afterBeforeWrite .sample some {} 0 .sample [{ sourcesClaim with tool := some "alice", scope := ["file:src"] }]
        "alice" ["src/a.rs"] = [{ sourcesClaim with tool := some "alice", scope := ["file:src"] }] ∧
      detectConflict .sample [{ sourcesClaim with tool := some "alice", scope := ["file:src"] }]
        { sourceFileClaim with tool := some "bob" } = none ∧
      detectConflict .sample [{ sourcesClaim with tool := some "alice" }]
          { sourceFileClaim with tool := some "bob" } =
        some ⟨"c1", some "alice", "file:src/a.rs", "dir:src"⟩ ∧
      (beforeWriteClaim .sample some {} 0 .sample [{ sourcesClaim with tool := some "alice" }] "alice"
        ["src/a.rs"]).isSome = true ∧
      ¬∀ (F : List Fact) (tool other : String) (session : Option String) (paths : List String), IsLedger F →
        other ≠ tool → session ≠ some (HookContext.sample.currentProtocolSession tool) →
        (∀ p ∈ paths, judgePath .sample some {} 0 F tool p = true) →
        HookProtects .sample some {} 0 .sample F tool paths other session := by
  have hcleared : judgePath .sample some {} 0 [{ sourcesClaim with tool := some "alice", scope := ["file:src"] }]
      "alice" "src/a.rs" = true := by decide
  have hafter : afterBeforeWrite .sample some {} 0 .sample
      [{ sourcesClaim with tool := some "alice", scope := ["file:src"] }] "alice" ["src/a.rs"] =
        [{ sourcesClaim with tool := some "alice", scope := ["file:src"] }] := by decide
  have hadmits : detectConflict .sample [{ sourcesClaim with tool := some "alice", scope := ["file:src"] }]
      { sourceFileClaim with tool := some "bob" } = none := by decide
  refine ⟨hcleared, hafter, hadmits, by decide, by decide, fun h => ?_⟩
  have hledger : IsLedger [{ sourcesClaim with tool := some "alice", scope := ["file:src"] }] :=
    ⟨List.pairwise_singleton _ _, by decide, by decide⟩
  have hprotects := (h _ "alice" "bob" none ["src/a.rs"] hledger (by decide) (by decide)
    (by simpa using hcleared)).protects "src/a.rs" (List.mem_singleton.mpr rfl)
  rw [hafter] at hprotects
  exact (hprotects { sourceFileClaim with tool := some "bob" } ⟨rfl, rfl, rfl⟩ rfl).1 hadmits

/-! ## Targets and scopes as they are usually spelled -/

section Plain

variable {ext : Externals} {repoRelativePath : String → Option String} {coord : CoordinationConfig} {now : Int}
  {hook : HookContext} {F : List Fact} {tool other path : String} {session : Option String} {paths : List String}

theorem normalizedText_of_plain (h : PlainPath path) : normalizedText repoRelativePath path = path := by
  have hfile : stripPrefix "file:" path = none := stripPrefix_eq_none (not_file_of_uncoloned h.uncoloned)
  have hdot : stripPrefix "./" path = none := stripPrefix_eq_none (startsWith_of_plain h.components _ (.inr rfl))
  have hne : path ≠ "" := by
    rintro rfl
    exact (h.components "" (by decide)).1 rfl
  simp [normalizedText, hfile, hdot, startsWith_of_plain h.components "/" (.inl rfl),
    normalizeComponents_of_plain h.components, hne]

theorem claimedPath_of_plain (h : PlainPath path) : claimedPath path = path := by
  rw [claimedPath, h.trimmed, canonicalPath_of_plain h.components]

/-- For plain targets and a writer of another lease the two readings of what is held must not part: a target read
as held is held, and targets all held are read as held. -/
theorem hook_clears_plain_iff (hF : IsLedger F) (hfresh : hook.eventId ∉ retractedIds F)
    (hplain : ∀ p ∈ paths, PlainPath p)
    (hallow : ∀ p ∈ paths, judgePath ext repoRelativePath coord now F tool p = true)
    (hlease : sameSessionOwner (some tool) (some (hook.currentProtocolSession tool)) (some other) session = false) :
    HookProtects ext repoRelativePath coord now hook F tool paths other session ↔
      (∀ p ∈ paths, Covered F tool p → HeldAgainst F tool other session p) ∧
      ((∀ p ∈ paths, HeldAgainst F tool other session p) → ∀ p ∈ paths, Covered F tool p) := by
  have hnames : ∀ p ∈ paths, ClaimNames repoRelativePath F tool paths p ↔ ¬Covered F tool p := by
    intro p hp
    have hne : claimedPath p ≠ "" := by
      rw [claimedPath_of_plain (hplain p hp)]
      rintro rfl
      exact ((hplain "" hp).components "" (by decide)).1 rfl
    constructor
    · rintro ⟨-, q, hq, huncovered, heq⟩
      rw [normalizedText_of_plain (hplain q hq), claimedPath_of_plain (hplain q hq),
        claimedPath_of_plain (hplain p hp)] at heq
      rwa [← heq]
    · intro huncovered
      exact ⟨hne, p, hp, huncovered, by rw [normalizedText_of_plain (hplain p hp)]⟩
  rw [hook_clears_protected_iff hF hallow]
  refine and_congr_left fun _ => forall₂_congr fun p hp => ?_
  rw [hnames p hp, and_iff_left ⟨hfresh, hlease⟩, imp_iff_not_or, or_comm]

end Plain

section Spelled

variable {text : String} (h : ∀ c ∈ split '/' text, c ≠ "" ∧ c ≠ "." ∧ c ≠ "..")
include h

/-- A text of plain components does not end in `/`. -/
theorem rdropWhile_slash_of_plain : text.toList.rdropWhile (· == '/') = text.toList := by
  refine List.rdropWhile_eq_self_iff.mpr fun hne hlast => ?_
  have hsplit : text.toList = text.toList.dropLast ++ ['/'] := by
    rw [← beq_iff_eq.mp hlast, List.dropLast_append_getLast]
  have hempty : "" ∈ split '/' text := by
    rw [split, hsplit, splitChars_concat]
    simp
  exact (h "" hempty).1 rfl

theorem cleanScope_of_plain (htrim : trim text = text) :
    cleanScope ("file:" ++ text) = text ∧ (startsWith "file:" text = false → cleanScope text = text) := by
  have hfile : trim ("file:" ++ text) = "file:" ++ text := by
    rw [trim_append (by decide) (by decide), trimEnd_of_trim htrim]
  have hdot : stripPrefix "./" text = none := stripPrefix_eq_none (startsWith_of_plain h _ (.inr rfl))
  constructor
  · simp [cleanScope, hfile, stripPrefix_append, hdot, rdropWhile_slash_of_plain h]
  · intro hunfiled
    simp [cleanScope, htrim, stripPrefix_eq_none hunfiled, hdot, rdropWhile_slash_of_plain h]

end Spelled

/-- **A claim of one plain scope.** The hook reads the scope as the check does: a file as all that lies below it, and
the other types not at all. What the gate makes of it, `plain_scope_iff` says. -/
theorem covered_plain_iff {type : ResourceType} {held path : String}
    (htype : type = .file ∨ type = .dir ∨ type = .repo ∨ type = .workspace) (hheld : PlainPath held)
    (hpath : PlainPath path) :
    scopeCovers (type.asStr ++ ":" ++ held) path = true ↔ type = .file ∧ pathContains held path = true := by
  have hclean : cleanScope path = path :=
    (cleanScope_of_plain hpath.components hpath.trimmed).2 (not_file_of_uncoloned hpath.uncoloned)
  have hcovers : ∀ scope, scopeCovers scope path = true ↔
      cleanScope scope ≠ "" ∧ pathContains (cleanScope scope) path = true := by
    intro scope
    simp [scopeCovers, hclean, pathContains]
  rw [hcovers]
  by_cases hfile : type = .file
  · subst hfile
    have hheld' : cleanScope (ResourceType.file.asStr ++ ":" ++ held) = held :=
      (cleanScope_of_plain hheld.components hheld.trimmed).1
    have hne : held ≠ "" := by
      rintro rfl
      exact (hheld.components "" (by decide)).1 rfl
    simp [hheld', hne]
  · -- the word stays with the first component, and no component of the path has a colon
    have hword : '/' ∉ (type.asStr ++ ":").toList ∧ startsWith "file:" (type.asStr ++ ":" ++ held) = false := by
      rcases htype with rfl | rfl | rfl | rfl
      · exact absurd rfl hfile
      all_goals exact ⟨by decide, by simp [startsWith, ResourceType.asStr, List.isPrefixOf]⟩
    have htrim : trim (type.asStr ++ ":" ++ held) = type.asStr ++ ":" ++ held := by
      rw [trim_append (by cases type <;> decide) (by cases type <;> decide),
        trimEnd_of_trim hheld.trimmed]
    have hread : cleanScope (type.asStr ++ ":" ++ held) = type.asStr ++ ":" ++ held :=
      (cleanScope_of_plain (components_of_word hword.1 (by simp) hheld.components) htrim).2 hword.2
    have hcolon : pathContains (type.asStr ++ ":" ++ held) path = false :=
      pathContains_of_colon (by simp) hpath.uncoloned
    simp [hread, hcolon, hfile]

end RallyPoint
