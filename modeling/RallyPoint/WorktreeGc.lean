/-
# RallyPoint.WorktreeGc — which worktrees the sweep removes (`worktree_gc.rs`).

The sweep goes over git's list of worktrees. An entry that rally manages is skipped for the first veto that holds and
is a candidate otherwise; with `--apply` a candidate is handed to cleanup. A run records what its entries record
(`mem_run`), an entry is handled in one of five ways (`Handled`), and the vetoes are read off one by one
(`skipReason_eq_none_iff`).

All vetoes but the last are what they are meant to be. The last asks whether an owner was seen lately, and answers no
as soon as one tool whose name matches counts as stale, though another that matches was just seen; and an age is
compared as an unsigned number, so a presence from the future is the oldest of all. `gcSafe_iff` says when that
matters.
-/
import RallyPoint.Fact
import RallyPoint.Lib.OrderedMap
import RallyPoint.Lib.UnixPath

namespace RallyPoint.WorktreeGc

open Lib

/-! ## What the sweep is given -/

structure PresenceFact where
  tool : String
  seq : Int
  createdAt : String
  deriving DecidableEq, Repr

structure ManagedOwner where
  worktreePath : Option String
  branch : Option String
  sessionId : String
  tool : String
  deriving DecidableEq, Repr

structure GcConfig where
  apply : Bool
  ttlSecs : UInt64
  nowTs : Option String
  presenceFacts : List PresenceFact
  managedOwners : Option (List ManagedOwner)
  gitBin : String

structure WorktreeEntry where
  path : String
  branch : String
  deriving DecidableEq, Repr

structure CleanupOutcome where
  worktreeRemoved : Bool
  branchDeleted : Bool
  bundlePath : Option String
  warnings : List String
  reason : String
  deriving DecidableEq, Repr

inductive WorktreeList
  | notInvoked (error : String)
  | failed (stderr : String)
  | listed (stdout : String)

/-- What git answers about the repository. -/
structure Git where
  worktreeList : WorktreeList
  symbolicRef : Option String
  verifies : String → Bool
  showToplevel : Option String
  showToplevelCwd : Option String

/-- What the file system, git and cleanup answer while one entry is handled. `unmerged into branch` is the number of
commits of the branch that are not in `into`, where both exist. -/
structure Answers where
  canonicalize : String → Option String
  unmerged : String → String → Option Nat
  cleanupAgainst : WorktreeEntry → Option String → CleanupOutcome

/-! ## The listing -/

/-- A block of the listing that is being read. -/
structure Block where
  entries : List WorktreeEntry := []
  path : Option String := none
  branch : Option String := none

def Block.flush (block : Block) : List WorktreeEntry :=
  match block.path, block.branch with
  | some path, some branch => block.entries ++ [⟨path, branch⟩]
  | _, _ => block.entries

def Block.read (block : Block) (line : String) : Block :=
  match stripPrefix "worktree " line with
  | some path => { entries := block.flush, path := some (trim path), branch := none }
  | none =>
    match stripPrefix "branch " line with
    | some ref => { block with branch := some ((stripPrefix "refs/heads/" (trim ref)).getD (trim ref)) }
    -- `HEAD`, `bare`, `detached` and empty lines
    | none => block

def parsePorcelain (output : String) : List WorktreeEntry := ((lines output).foldl Block.read {}).flush

def listWorktrees (gitBin : String) : WorktreeList → Except String (List WorktreeEntry)
  | .notInvoked error => .error s!"could not invoke {gitBin} worktree list: {error}"
  | .failed stderr => .error s!"git worktree list failed: {trim stderr}"
  | .listed stdout => .ok (parsePorcelain stdout)

def isRallyManaged (branch path : String) : Bool := startsWith "rally/" branch || (components path).contains ".rally"

/-! ## The protected worktrees -/

def resolveDefaultBranch (git : Git) : Option String :=
  match git.symbolicRef.map trim with
  | some name => if name != "" then some name else ["main", "master"].find? git.verifies
  | none => ["main", "master"].find? git.verifies

def resolveCurrentWorktree (git : Git) : Option String := git.showToplevel.map trim

def resolveCwdWorktree (git : Git) : Option String := git.showToplevelCwd.map trim

/-- Equality of `Path`s: by components, where only a leading `.` is one. -/
def pathEq (a b : String) : Bool := parts a == parts b
where
  parts (path : String) : Bool × Bool × List String :=
    (isAbsolute path, path == "." || startsWith "./" path, (components path).filter fun c => c != ".")

def samePath (answers : Answers) (a b : String) : Bool :=
  pathEq ((answers.canonicalize a).getD a) ((answers.canonicalize b).getD b)

/-- `git rev-list --count`, read back from its output. -/
def isMerged (answers : Answers) (branch into : String) : Bool :=
  match answers.unmerged into branch with
  | some count => trim (toString count ++ "\n") == "0"
  | none => false

/-! ## Owners -/

section Owner

variable (answers : Answers) (entry : WorktreeEntry)

def pathNames (owner : ManagedOwner) : Bool := owner.worktreePath.any fun path => samePath answers path entry.path

def branchNames (owner : ManagedOwner) : Bool := owner.branch == some entry.branch

/-- The vetoes of the managed-session ledger, in their order. -/
def ownerVeto (owners : List ManagedOwner) : Option String :=
  if owners.any fun owner => (owner.worktreePath.isNone != owner.branch.isNone) &&
      (pathNames answers entry owner || branchNames entry owner) then
    some "incomplete managed-session ownership record"
  else
    let exactly := owners.filter (pathNames answers entry)
    if decide (exactly.length > 1) || exactly.any fun owner => owner.branch != some entry.branch then
      some "managed-session ownership ambiguous"
    else if owners.any fun owner => branchNames entry owner &&
        owner.worktreePath.any fun path => !samePath answers path entry.path then
      some "managed-session branch/path conflict"
    else exactly.head?.map fun owner => s!"active managed owner {owner.tool}/{owner.sessionId}"

end Owner

/-! ## Presence -/

def normalizeName (s : String) : String := String.ofList (s.toList.map fun c => if c = '-' then '_' else c)

def deriveOwnerPrefix (branch : String) : String :=
  let sessionId := (stripPrefix "rally/" branch).getD branch
  match ["claude-code", "opencode", "gemini-code"].find? fun multi => startsWith multi sessionId with
  | some multi => multi
  | none => ((split '-' sessionId).head?).getD sessionId

/-- The fact of the higher sequence number, the earlier one where they are equal. -/
def keepNewest (fact : PresenceFact) : Option PresenceFact → PresenceFact
  | none => fact
  | some entry => if fact.seq > entry.seq then fact else entry

def latestByName (facts : List PresenceFact) : List (String × PresenceFact) :=
  OrderedMap.updateAll keepNewest [] (facts.map fun fact => (normalizeName fact.tool, fact))

structure LivenessIndex where
  liveTools : List String
  staleTools : List String

section Liveness

variable (ext : Externals) (nowTs : String) (ttlSecs : UInt64)

/-- `(n - s) as u64 > ttl_secs`; an unreadable time is not stale. -/
def isStale (fact : PresenceFact) : Bool :=
  match (ext.parseFromRfc3339 nowTs).map timestamp, (ext.parseFromRfc3339 fact.createdAt).map timestamp with
  | some n, some s => decide (UInt64.ofInt (n - s) > ttlSecs)
  | _, _ => false

def buildLivenessIndex (facts : List PresenceFact) : LivenessIndex where
  liveTools := ((latestByName facts).filter fun entry => !isStale ext nowTs ttlSecs entry.2).map (·.1)
  staleTools := ((latestByName facts).filter fun entry => isStale ext nowTs ttlSecs entry.2).map (·.1)

end Liveness

def nameMatch (owner : String) (tools : List String) : Bool :=
  tools.any fun tool => tool == owner || startsWith owner tool || startsWith tool owner

def isOwnerLive (ownerPrefix : String) (index : LivenessIndex) : Bool :=
  let owner := normalizeName ownerPrefix
  if nameMatch owner index.staleTools then false else nameMatch owner index.liveTools

/-! ## The sweep -/

structure GcCandidate where
  worktreePath : String
  branch : String
  reason : String
  deriving DecidableEq, Repr

structure GcSkipped where
  worktreePath : String
  branch : String
  reason : String
  deriving DecidableEq, Repr

structure GcReaped where
  worktreePath : String
  branch : String
  branchDeleted : Bool
  deriving DecidableEq, Repr

structure GcReport where
  candidates : List GcCandidate := []
  reaped : List GcReaped := []
  skipped : List GcSkipped := []
  bundles : List String := []
  warnings : List String := []

/-- A sweep: its report, and the entries handed to cleanup, each with its place in the listing. -/
structure GcRun extends GcReport where
  calls : List (WorktreeEntry × Nat) := []

section Sweep

variable (ext : Externals) (clock : String) (config : GcConfig) (git : Git) (answers : Nat → Answers)

/-- The reason of the first veto that holds. -/
def skipReason (entry : WorktreeEntry) (i : Nat) : Option String :=
  let defaultBranch := resolveDefaultBranch git
  if defaultBranch.any fun name => entry.branch == name || entry.branch == "refs/heads/" ++ name then
    some "default branch — never reap"
  else if (resolveCurrentWorktree git).any (fun path => samePath (answers i) path entry.path) ||
      (resolveCwdWorktree git).any (fun path => samePath (answers i) path entry.path) then
    some "current worktree — never reap"
  else
    match config.managedOwners with
    | none => some "managed-session ledger unavailable"
    | some owners =>
      match ownerVeto (answers i) entry owners with
      | some reason => some reason
      | none =>
        let ownerPrefix := deriveOwnerPrefix entry.branch
        let index := buildLivenessIndex ext (config.nowTs.getD clock) config.ttlSecs config.presenceFacts
        if isOwnerLive ownerPrefix index then some s!"live presence ({ownerPrefix}); wait for agent to finish"
        else if !(defaultBranch.any fun name => isMerged (answers i) entry.branch name) then
          some "unmerged worktree retained for explicit review"
        else none

/-- What `--apply` does with a candidate. -/
def applyCleanup (run : GcRun) (entry : WorktreeEntry) (i : Nat) : GcRun :=
  let outcome := (answers i).cleanupAgainst entry (resolveDefaultBranch git)
  let run := { run with calls := run.calls ++ [(entry, i)], warnings := run.warnings ++ outcome.warnings }
  if !outcome.worktreeRemoved then
    { run with
      warnings := run.warnings ++ [s!"worktree gc: skipped {entry.path} — {outcome.reason}"]
      skipped := run.skipped ++ [⟨entry.path, entry.branch, outcome.reason⟩] }
  else
    { run with
      bundles := run.bundles ++ outcome.bundlePath.toList
      reaped := run.reaped ++ [⟨entry.path, entry.branch, outcome.branchDeleted⟩] }

/-- One entry of the listing. -/
def gcEntry (run : GcRun) (entry : WorktreeEntry) (i : Nat) : GcRun :=
  if !isRallyManaged entry.branch entry.path then run
  else
    match skipReason ext clock config git answers entry i with
    | some reason => { run with skipped := run.skipped ++ [⟨entry.path, entry.branch, reason⟩] }
    | none =>
      let run := { run with candidates := run.candidates ++
        [⟨entry.path, entry.branch, "branch merged into default and no live owner observed"⟩] }
      if !config.apply then run else applyCleanup git answers run entry i

def runGc : Except String GcRun := do
  let entries ← listWorktrees config.gitBin git.worktreeList
  return entries.zipIdx.foldl (fun run step => gcEntry ext clock config git answers run step.1 step.2) {}

end Sweep

/-! ## What a sweep must keep -/

section Rule

variable (ext : Externals) (clock : String) (config : GcConfig) (git : Git) (answers : Nat → Answers)

/-- The newest fact under a name: no earlier one has its number, and no other a higher one. -/
def NewestOf (facts : List PresenceFact) (name : String) (fact : PresenceFact) : Prop :=
  ∃ before after, (facts.filter fun f => normalizeName f.tool = name) = before ++ fact :: after ∧
    (∀ other ∈ before, other.seq < fact.seq) ∧ ∀ other ∈ after, other.seq ≤ fact.seq

/-- The name of a tool is the owner a branch is called after, or one of the two goes on where the other ends. -/
def OwnerName (branch name : String) : Prop :=
  let owner := normalizeName (deriveOwnerPrefix branch)
  name = owner ∨ startsWith owner name = true ∨ startsWith name owner = true

/-- The age of a presence, where both times can be read; negative for one from the future. -/
def age (fact : PresenceFact) : Option Int := do
  let now ← ext.parseFromRfc3339 (config.nowTs.getD clock)
  let seen ← ext.parseFromRfc3339 fact.createdAt
  return timestamp now - timestamp seen

/-- At most the ttl old, from the future, or undatable. -/
def ObservedLive (fact : PresenceFact) : Prop := ∀ secs ∈ age ext clock config fact, secs ≤ config.ttlSecs.toNat

/-- Older than the ttl once the age is taken modulo `2 ^ 64`: an age below zero is one of centuries. -/
def CountedStale (fact : PresenceFact) : Prop :=
  ∃ secs ∈ age ext clock config fact, (config.ttlSecs.toNat : Int) < secs % 18446744073709551616

/-- Some tool named as the owner of the branch has a newest presence fact of this kind. -/
def SomeOwner (branch : String) (kind : PresenceFact → Prop) : Prop :=
  ∃ name fact, OwnerName branch name ∧ NewestOf config.presenceFacts name fact ∧ kind fact

/-- An entry that nothing but a live owner protects. -/
structure Removable (entry : WorktreeEntry) (i : Nat) : Prop where
  managed : isRallyManaged entry.branch entry.path = true
  notDefault : ∀ name ∈ resolveDefaultBranch git, entry.branch ≠ name ∧ entry.branch ≠ "refs/heads/" ++ name
  notCurrent : ∀ path, path ∈ resolveCurrentWorktree git ∨ path ∈ resolveCwdWorktree git →
    samePath (answers i) path entry.path = false
  unowned : ∃ owners, config.managedOwners = some owners ∧ ∀ owner ∈ owners,
    (∀ path ∈ owner.worktreePath, samePath (answers i) path entry.path = false) ∧ owner.branch ≠ some entry.branch
  merged : ∃ name ∈ resolveDefaultBranch git, (answers i).unmerged name entry.branch = some 0

/-- What holds of a run, whatever it removed. -/
structure GcSafe : Prop where
  guarded : ∀ run, runGc ext clock config git answers = .ok run → ∀ entry i, (entry, i) ∈ run.calls →
    Removable config git answers entry i ∧ ¬ SomeOwner config entry.branch (ObservedLive ext clock config)
  reported : ∀ run, runGc ext clock config git answers = .ok run →
    ∀ entries, listWorktrees config.gitBin git.worktreeList = .ok entries → ∀ entry ∈ entries,
      isRallyManaged entry.branch entry.path = true →
        (∃ reason, ⟨entry.path, entry.branch, reason⟩ ∈ run.candidates) ∨
          ∃ reason, ⟨entry.path, entry.branch, reason⟩ ∈ run.skipped
  reaped : ∀ run, runGc ext clock config git answers = .ok run → ∀ reaped ∈ run.reaped,
    (∃ reason, ⟨reaped.worktreePath, reaped.branch, reason⟩ ∈ run.candidates) ∧
      ∃ i, (⟨reaped.worktreePath, reaped.branch⟩, i) ∈ run.calls ∧
        ((answers i).cleanupAgainst ⟨reaped.worktreePath, reaped.branch⟩
          (resolveDefaultBranch git)).worktreeRemoved = true

end Rule

/-! ## The newest presence -/

section Newest

variable {facts : List PresenceFact} {fact : PresenceFact} {name : String}

theorem foldl_keepNewest_of_le {l : List PresenceFact} (h : ∀ other ∈ l, other.seq ≤ fact.seq) :
    l.foldl (fun newest f => some (keepNewest f newest)) (some fact) = some fact := by
  induction l with
  | nil => rfl
  | cons other l ih =>
    rw [List.forall_mem_cons] at h
    have hkeep : keepNewest other (some fact) = fact := if_neg (by omega)
    rw [List.foldl_cons, hkeep]
    exact ih h.2

theorem mem_of_foldl_keepNewest {l : List PresenceFact}
    (h : l.foldl (fun newest f => some (keepNewest f newest)) none = some fact) : fact ∈ l := by
  induction l using List.reverseRecOn generalizing fact with
  | nil => cases h
  | append_singleton l other ih =>
    rw [List.foldl_append] at h
    obtain rfl := Option.some.inj h
    cases hnewest : l.foldl (fun newest f => some (keepNewest f newest)) none with
    | none => exact List.mem_append_right _ (List.mem_singleton_self _)
    | some newest =>
      rw [keepNewest]
      split
      · exact List.mem_append_right _ (List.mem_singleton_self _)
      · exact List.mem_append_left _ (ih hnewest)

/-- What the loop over the facts of one name leaves. -/
theorem foldl_keepNewest_iff {l : List PresenceFact} :
    l.foldl (fun newest f => some (keepNewest f newest)) none = some fact ↔
      ∃ before after, l = before ++ fact :: after ∧ (∀ other ∈ before, other.seq < fact.seq) ∧
        ∀ other ∈ after, other.seq ≤ fact.seq := by
  constructor
  · intro h
    induction l using List.reverseRecOn generalizing fact with
    | nil => cases h
    | append_singleton l other ih =>
      rw [List.foldl_append] at h
      obtain rfl := Option.some.inj h
      cases hnewest : l.foldl (fun newest f => some (keepNewest f newest)) none with
      | none =>
        have hnil : l = [] := by
          rcases List.eq_nil_or_concat l with rfl | ⟨front, last, rfl⟩
          · rfl
          · rw [List.concat_eq_append, List.foldl_append] at hnewest
            cases hnewest
        subst hnil
        exact ⟨[], [], rfl, by simp, by simp⟩
      | some newest =>
        obtain ⟨before, after, hl, hbefore, hafter⟩ := ih hnewest
        rw [keepNewest]
        split
        case isTrue hgt =>
          refine ⟨l, [], rfl, ?_, by simp⟩
          intro f hf
          rw [hl, List.mem_append, List.mem_cons] at hf
          rcases hf with hf | rfl | hf
          · have := hbefore f hf
            omega
          · exact hgt
          · have := hafter f hf
            omega
        case isFalse hle =>
          refine ⟨before, after ++ [other], by rw [hl]; simp, hbefore, ?_⟩
          intro f hf
          rcases List.mem_append.mp hf with hf | hf
          · exact hafter f hf
          · obtain rfl := List.mem_singleton.mp hf
            omega
  · rintro ⟨before, after, rfl, hbefore, hafter⟩
    rw [List.foldl_append, List.foldl_cons]
    have hkeep : keepNewest fact (before.foldl (fun newest f => some (keepNewest f newest)) none) = fact := by
      cases hnewest : before.foldl (fun newest f => some (keepNewest f newest)) none with
      | none => rfl
      | some newest => exact if_pos (hbefore newest (mem_of_foldl_keepNewest hnewest))
    rw [hkeep]
    exact foldl_keepNewest_of_le hafter

theorem get_latestByName :
    OrderedMap.get (latestByName facts) name = some fact ↔ NewestOf facts name fact := by
  have hvalues : OrderedMap.valuesAt (facts.map fun f => (normalizeName f.tool, f)) name =
      facts.filter fun f => normalizeName f.tool = name := by
    rw [OrderedMap.valuesAt, List.filter_map, List.map_map]
    exact List.map_id _
  rw [latestByName, OrderedMap.get_updateAll List.Pairwise.nil, OrderedMap.get_nil, hvalues]
  exact foldl_keepNewest_iff

theorem mem_latestByName : (name, fact) ∈ latestByName facts ↔ NewestOf facts name fact := by
  rw [← get_latestByName]
  exact OrderedMap.mem_iff_get (OrderedMap.keyOrdered_updateAll List.Pairwise.nil)

end Newest

/-! ## The veto of a live owner -/

section Live

variable {ext : Externals} {clock : String} {config : GcConfig} {branch : String} {fact : PresenceFact}

theorem nameMatch_iff {tools : List String} :
    nameMatch (normalizeName (deriveOwnerPrefix branch)) tools = true ↔ ∃ name ∈ tools, OwnerName branch name := by
  simp only [nameMatch, List.any_eq_true, Bool.or_eq_true, beq_iff_eq, OwnerName, or_assoc]

theorem isStale_iff : isStale ext (config.nowTs.getD clock) config.ttlSecs fact = true ↔
    CountedStale ext clock config fact := by
  unfold isStale CountedStale age
  cases ext.parseFromRfc3339 (config.nowTs.getD clock) with
  | none => simp
  | some now =>
    cases ext.parseFromRfc3339 fact.createdAt with
    | none => simp
    | some seen =>
      have hword : ((UInt64.ofInt (timestamp now - timestamp seen)).toNat : Int) =
          (timestamp now - timestamp seen) % 18446744073709551616 := by
        rw [UInt64.ofInt, UInt64.toNat_ofNat']
        omega
      simp only [Option.map_some, decide_eq_true_eq, gt_iff_lt, UInt64.lt_iff_toNat_lt]
      constructor
      · intro h
        refine ⟨_, rfl, ?_⟩
        rw [← hword]
        exact_mod_cast h
      · rintro ⟨secs, hsecs, h⟩
        obtain rfl := Option.some.inj hsecs
        rw [← hword] at h
        exact_mod_cast h

/-- Between times that a clock can show, counting as stale is being older than the ttl or from the future. -/
theorem countedStale_iff {secs : Int} (hage : age ext clock config fact = some secs)
    (hlow : -9223372036854775808 ≤ secs) (hhigh : secs < 9223372036854775808)
    (httl : config.ttlSecs.toNat < 9223372036854775808) :
    CountedStale ext clock config fact ↔ (config.ttlSecs.toNat : Int) < secs ∨ secs < 0 := by
  rw [CountedStale, hage]
  simp only [Option.mem_some_iff, exists_eq_left']
  omega

/-- The names that count as stale, and with `false` those that do not. -/
theorem nameMatch_index {stale : Bool} :
    nameMatch (normalizeName (deriveOwnerPrefix branch)) (((latestByName config.presenceFacts).filter fun entry =>
        isStale ext (config.nowTs.getD clock) config.ttlSecs entry.2 == stale).map (·.1)) = true ↔
      SomeOwner config branch fun fact => isStale ext (config.nowTs.getD clock) config.ttlSecs fact = stale := by
  rw [nameMatch_iff, SomeOwner]
  constructor
  · rintro ⟨name, hname, howner⟩
    obtain ⟨⟨_, fact⟩, hentry, rfl⟩ := List.mem_map.mp hname
    obtain ⟨hmem, hstale⟩ := List.mem_filter.mp hentry
    exact ⟨_, fact, howner, mem_latestByName.mp hmem, eq_of_beq hstale⟩
  · rintro ⟨name, fact, howner, hnewest, hstale⟩
    have hentry : (name, fact) ∈ (latestByName config.presenceFacts).filter fun entry =>
        isStale ext (config.nowTs.getD clock) config.ttlSecs entry.2 == stale :=
      List.mem_filter.mpr ⟨mem_latestByName.mpr hnewest, beq_iff_eq.mpr hstale⟩
    exact ⟨name, List.mem_map.mpr ⟨_, hentry, rfl⟩, howner⟩

/-- The veto holds when no owner counts as stale and some owner was seen at all. -/
theorem isOwnerLive_iff :
    isOwnerLive (deriveOwnerPrefix branch)
        (buildLivenessIndex ext (config.nowTs.getD clock) config.ttlSecs config.presenceFacts) = true ↔
      ¬ SomeOwner config branch (CountedStale ext clock config) ∧ SomeOwner config branch fun _ => True := by
  have hstale := @nameMatch_index ext clock config branch true
  have hlive := @nameMatch_index ext clock config branch false
  simp only [beq_true, beq_false] at hstale hlive
  have hcounted : (SomeOwner config branch fun fact =>
      isStale ext (config.nowTs.getD clock) config.ttlSecs fact = true) ↔
        SomeOwner config branch (CountedStale ext clock config) := by
    simp only [SomeOwner, isStale_iff]
  have hsplit : isOwnerLive (deriveOwnerPrefix branch)
      (buildLivenessIndex ext (config.nowTs.getD clock) config.ttlSecs config.presenceFacts) = true ↔
        ¬ SomeOwner config branch (CountedStale ext clock config) ∧ SomeOwner config branch fun fact =>
          isStale ext (config.nowTs.getD clock) config.ttlSecs fact = false := by
    rw [isOwnerLive, buildLivenessIndex, ← hcounted, ← hstale, ← hlive]
    dsimp only
    split
    case isTrue h => simp [h]
    case isFalse h => simp [h]
  rw [hsplit]
  refine and_congr_right fun hnone => ?_
  constructor
  · rintro ⟨name, fact, howner, hnewest, -⟩
    exact ⟨name, fact, howner, hnewest, trivial⟩
  · rintro ⟨name, fact, howner, hnewest, -⟩
    have hfresh : ¬ isStale ext (config.nowTs.getD clock) config.ttlSecs fact = true := by
      rw [isStale_iff]
      exact fun h => hnone ⟨name, fact, howner, hnewest, h⟩
    exact ⟨name, fact, howner, hnewest, eq_false_of_ne_true hfresh⟩

/-- What passes the veto has a live owner only where another counts as stale, if it is not the same. -/
theorem not_someOwner_observedLive_iff :
    (isOwnerLive (deriveOwnerPrefix branch)
        (buildLivenessIndex ext (config.nowTs.getD clock) config.ttlSecs config.presenceFacts) = false →
      ¬ SomeOwner config branch (ObservedLive ext clock config)) ↔
    ¬ (SomeOwner config branch (CountedStale ext clock config) ∧
      SomeOwner config branch (ObservedLive ext clock config)) := by
  rw [← Bool.not_eq_true, isOwnerLive_iff]
  constructor
  · rintro h ⟨hstale, hlive⟩
    exact h (fun hveto => hveto.1 hstale) hlive
  · intro h hpass hlive
    obtain ⟨name, fact, howner, hnewest, hobserved⟩ := hlive
    refine hpass ⟨fun hstale => h ⟨hstale, ?_⟩, name, fact, howner, hnewest, trivial⟩
    exact ⟨name, fact, howner, hnewest, hobserved⟩

end Live

/-! ## The other vetoes -/

section Vetoes

variable {ext : Externals} {clock : String} {config : GcConfig} {git : Git} {answers : Nat → Answers}
  {entry : WorktreeEntry} {i : Nat}

theorem pathNames_eq_false_iff {a : Answers} {owner : ManagedOwner} :
    pathNames a entry owner = false ↔ ∀ path ∈ owner.worktreePath, samePath a path entry.path = false := by
  rw [pathNames]
  cases owner.worktreePath <;> simp

/-- No record names the entry exactly when the ledger has nothing to say against it. -/
theorem ownerVeto_eq_none_iff {a : Answers} {owners : List ManagedOwner} :
    ownerVeto a entry owners = none ↔ ∀ owner ∈ owners,
      pathNames a entry owner = false ∧ branchNames entry owner = false := by
  unfold ownerVeto
  constructor
  · intro h owner howner
    split at h
    · cases h
    case isFalse hcomplete =>
      dsimp only at h
      split at h
      · cases h
      split at h
      · cases h
      case isFalse _ hconflict =>
        have hexactly : owners.filter (pathNames a entry) = [] := by
          rwa [Option.map_eq_none_iff, List.head?_eq_none_iff] at h
        have hpath : pathNames a entry owner = false := by
          rw [← Bool.not_eq_true]
          exact List.filter_eq_nil_iff.mp hexactly owner howner
        refine ⟨hpath, ?_⟩
        -- a record of the branch has no path (incomplete) or another one (conflict)
        by_contra hbranch
        rw [Bool.not_eq_false] at hbranch
        cases hworktree : owner.worktreePath with
        | none =>
          have hsome : owner.branch = some entry.branch := beq_iff_eq.mp hbranch
          exact hcomplete (List.any_eq_true.mpr ⟨owner, howner, by simp [hworktree, hsome, hbranch]⟩)
        | some path =>
          rw [pathNames, hworktree, Option.any_some] at hpath
          exact hconflict (List.any_eq_true.mpr ⟨owner, howner, by simp [hworktree, hpath, hbranch]⟩)
  · intro h
    have hexactly : owners.filter (pathNames a entry) = [] := by
      refine List.filter_eq_nil_iff.mpr fun owner howner => ?_
      rw [(h owner howner).1]
      exact Bool.false_ne_true
    rw [hexactly, if_neg, if_neg (by simp), if_neg]
    · rfl
    · rw [List.any_eq_true]
      rintro ⟨owner, howner, hnames⟩
      rw [(h owner howner).2] at hnames
      cases hnames
    · rw [List.any_eq_true]
      rintro ⟨owner, howner, hnames⟩
      rw [(h owner howner).1, (h owner howner).2, Bool.or_false, Bool.and_false] at hnames
      cases hnames

theorem isMerged_iff {a : Answers} {branch into : String} :
    isMerged a branch into = true ↔ a.unmerged into branch = some 0 := by
  rw [isMerged]
  cases a.unmerged into branch with
  | none => simp
  | some count =>
    have hword : ((toString count).toList.all fun c => !isWhitespace c) = true := by
      rw [List.all_eq_true]
      intro c hc
      rw [noBlank_toString count c hc, Bool.not_false]
    have htrim : trim (toString count ++ "\n") = toString count := by
      have hnewline : trimEnd "\n" = "" := by decide
      rw [trim_append hword (isWord_toString count).nonempty, hnewline, String.append_empty]
    have hzero : toString count = "0" ↔ count = 0 := by
      constructor
      · intro h
        have hdigits : Nat.toDigits 10 count = Nat.toDigits 10 0 := by
          rw [← Nat.toList_repr, ← Nat.toList_repr]
          exact congrArg String.toList h
        have hread := parseDigits_toDigits count
        rw [hdigits, parseDigits_toDigits] at hread
        exact (Option.some.inj hread).symm
      · rintro rfl
        rfl
    simp only [htrim, beq_iff_eq, Option.some.injEq, hzero]

theorem skipReason_eq_none_iff :
    skipReason ext clock config git answers entry i = none ↔
      (∀ name ∈ resolveDefaultBranch git, entry.branch ≠ name ∧ entry.branch ≠ "refs/heads/" ++ name) ∧
      (∀ path, path ∈ resolveCurrentWorktree git ∨ path ∈ resolveCwdWorktree git →
        samePath (answers i) path entry.path = false) ∧
      (∃ owners, config.managedOwners = some owners ∧ ownerVeto (answers i) entry owners = none) ∧
      isOwnerLive (deriveOwnerPrefix entry.branch)
        (buildLivenessIndex ext (config.nowTs.getD clock) config.ttlSecs config.presenceFacts) = false ∧
      ∃ name ∈ resolveDefaultBranch git, isMerged (answers i) entry.branch name = true := by
  have hdefault : (resolveDefaultBranch git).any (fun name =>
      entry.branch == name || entry.branch == "refs/heads/" ++ name) = false ↔
        ∀ name ∈ resolveDefaultBranch git, entry.branch ≠ name ∧ entry.branch ≠ "refs/heads/" ++ name := by
    cases resolveDefaultBranch git <;> simp
  have hcurrent : ((resolveCurrentWorktree git).any (fun path => samePath (answers i) path entry.path) ||
      (resolveCwdWorktree git).any (fun path => samePath (answers i) path entry.path)) = false ↔
        ∀ path, path ∈ resolveCurrentWorktree git ∨ path ∈ resolveCwdWorktree git →
          samePath (answers i) path entry.path = false := by
    cases resolveCurrentWorktree git <;> cases resolveCwdWorktree git <;> simp [or_imp, forall_and]
  have hmerged : (resolveDefaultBranch git).any (fun name => isMerged (answers i) entry.branch name) = true ↔
      ∃ name ∈ resolveDefaultBranch git, isMerged (answers i) entry.branch name = true := by
    cases resolveDefaultBranch git <;> simp
  rw [skipReason, ← hdefault, ← hcurrent, ← hmerged]
  dsimp only
  cases (resolveDefaultBranch git).any fun name => entry.branch == name || entry.branch == "refs/heads/" ++ name with
  | true => simp
  | false =>
    cases (resolveCurrentWorktree git).any (fun path => samePath (answers i) path entry.path) ||
        (resolveCwdWorktree git).any (fun path => samePath (answers i) path entry.path) with
    | true => simp
    | false =>
      cases config.managedOwners with
      | none => simp
      | some owners =>
        cases hveto : ownerVeto (answers i) entry owners with
        | some reason => simp [hveto]
        | none =>
          simp only [Bool.false_eq_true, if_false, hveto, Option.some.injEq, exists_eq_left', true_and]
          split
          case isTrue hlive => simp [hlive]
          case isFalse hlive =>
            split
            case isTrue hunmerged => simp_all
            case isFalse hmerged => simp_all

/-- An entry that rally manages passes every veto exactly when it is removable and no owner is found to be live. -/
theorem passes_iff :
    isRallyManaged entry.branch entry.path = true ∧ skipReason ext clock config git answers entry i = none ↔
      Removable config git answers entry i ∧ isOwnerLive (deriveOwnerPrefix entry.branch)
        (buildLivenessIndex ext (config.nowTs.getD clock) config.ttlSecs config.presenceFacts) = false := by
  rw [skipReason_eq_none_iff]
  constructor
  · rintro ⟨hmanaged, hdefault, hcurrent, ⟨owners, howners, hveto⟩, hlive, name, hname, hmerged⟩
    refine ⟨⟨hmanaged, hdefault, hcurrent, ⟨owners, howners, fun owner howner => ?_⟩, name, hname,
      isMerged_iff.mp hmerged⟩, hlive⟩
    obtain ⟨hpath, hbranch⟩ := ownerVeto_eq_none_iff.mp hveto owner howner
    exact ⟨pathNames_eq_false_iff.mp hpath, beq_eq_false_iff_ne.mp hbranch⟩
  · rintro ⟨⟨hmanaged, hdefault, hcurrent, ⟨owners, howners, hnone⟩, name, hname, hmerged⟩, hlive⟩
    refine ⟨hmanaged, hdefault, hcurrent, ⟨owners, howners, ownerVeto_eq_none_iff.mpr fun owner howner => ?_⟩, hlive,
      name, hname, isMerged_iff.mpr hmerged⟩
    exact ⟨pathNames_eq_false_iff.mpr (hnone owner howner).1, beq_eq_false_iff_ne.mpr (hnone owner howner).2⟩

end Vetoes

/-! ## A run, entry by entry -/

section Runs

variable {ext : Externals} {clock : String} {config : GcConfig} {git : Git} {answers : Nat → Answers}
  {entry : WorktreeEntry} {i : Nat}

/-- One run after another. -/
def GcRun.add (a b : GcRun) : GcRun where
  candidates := a.candidates ++ b.candidates
  reaped := a.reaped ++ b.reaped
  skipped := a.skipped ++ b.skipped
  bundles := a.bundles ++ b.bundles
  warnings := a.warnings ++ b.warnings
  calls := a.calls ++ b.calls

/-- An entry adds to a run what it makes of an empty one. -/
theorem gcEntry_eq_add (run : GcRun) :
    gcEntry ext clock config git answers run entry i =
      run.add (gcEntry ext clock config git answers {} entry i) := by
  unfold gcEntry applyCleanup
  dsimp only
  split
  · simp [GcRun.add]
  · split
    · simp [GcRun.add]
    · split
      · simp [GcRun.add]
      · split <;> simp [GcRun.add]

/-- What a run records is what its entries record. -/
theorem mem_run {α : Type} (field : GcRun → List α) (hadd : ∀ a b : GcRun, field (a.add b) = field a ++ field b)
    (hempty : field {} = []) {run : GcRun} {entries : List WorktreeEntry} {x : α}
    (hrun : runGc ext clock config git answers = .ok run)
    (hentries : listWorktrees config.gitBin git.worktreeList = .ok entries) :
    x ∈ field run ↔ ∃ entry i, (entry, i) ∈ entries.zipIdx ∧
      x ∈ field (gcEntry ext clock config git answers {} entry i) := by
  have hfold : ∀ (steps : List (WorktreeEntry × Nat)) (start : GcRun),
      x ∈ field (steps.foldl (fun run step => gcEntry ext clock config git answers run step.1 step.2) start) ↔
        x ∈ field start ∨ ∃ entry i, (entry, i) ∈ steps ∧
          x ∈ field (gcEntry ext clock config git answers {} entry i) := by
    intro steps
    induction steps with
    | nil => simp
    | cons step steps ih =>
      intro start
      rw [List.foldl_cons, ih, gcEntry_eq_add, hadd, List.mem_append, or_assoc]
      refine or_congr_right ?_
      constructor
      · rintro (hx | ⟨entry, i, hmem, hx⟩)
        · exact ⟨step.1, step.2, List.mem_cons_self, hx⟩
        · exact ⟨entry, i, List.mem_cons_of_mem _ hmem, hx⟩
      · rintro ⟨entry, i, hmem, hx⟩
        rcases List.mem_cons.mp hmem with rfl | hmem
        · exact .inl hx
        · exact .inr ⟨entry, i, hmem, hx⟩
  rw [runGc, hentries] at hrun
  rw [← Except.ok.inj hrun, hfold, hempty]
  simp

section Entry

variable (ext clock config git answers entry i)

def candidateOf : GcCandidate := ⟨entry.path, entry.branch, "branch merged into default and no live owner observed"⟩

def outcomeOf : CleanupOutcome := (answers i).cleanupAgainst entry (resolveDefaultBranch git)

/-- What the loop makes of an entry, starting from nothing. -/
inductive Handled : GcRun → Prop
  | foreign (hforeign : isRallyManaged entry.branch entry.path = false) : Handled {}
  | skipped (hmanaged : isRallyManaged entry.branch entry.path = true) (reason : String)
      (hskip : skipReason ext clock config git answers entry i = some reason) :
      Handled { skipped := [⟨entry.path, entry.branch, reason⟩] }
  | listed (hmanaged : isRallyManaged entry.branch entry.path = true)
      (hpass : skipReason ext clock config git answers entry i = none) (hdry : config.apply = false) :
      Handled { candidates := [candidateOf entry] }
  | retained (hmanaged : isRallyManaged entry.branch entry.path = true)
      (hpass : skipReason ext clock config git answers entry i = none) (happly : config.apply = true)
      (hkept : (outcomeOf git answers entry i).worktreeRemoved = false) (warnings : List String) :
      Handled
        { candidates := [candidateOf entry], warnings, calls := [(entry, i)]
          skipped := [⟨entry.path, entry.branch, (outcomeOf git answers entry i).reason⟩] }
  | reaped (hmanaged : isRallyManaged entry.branch entry.path = true)
      (hpass : skipReason ext clock config git answers entry i = none) (happly : config.apply = true)
      (hremoved : (outcomeOf git answers entry i).worktreeRemoved = true) (warnings bundles : List String) :
      Handled
        { candidates := [candidateOf entry], warnings, calls := [(entry, i)], bundles
          reaped := [⟨entry.path, entry.branch, (outcomeOf git answers entry i).branchDeleted⟩] }

theorem handled_gcEntry :
    Handled ext clock config git answers entry i (gcEntry ext clock config git answers {} entry i) := by
  unfold gcEntry applyCleanup
  dsimp only
  cases hmanaged : isRallyManaged entry.branch entry.path with
  | false => exact .foreign hmanaged
  | true =>
    cases hpass : skipReason ext clock config git answers entry i with
    | some reason => exact .skipped hmanaged reason hpass
    | none =>
      cases happly : config.apply with
      | false => exact .listed hmanaged hpass happly
      | true =>
        cases hremoved : ((answers i).cleanupAgainst entry (resolveDefaultBranch git)).worktreeRemoved with
        | false => exact .retained hmanaged hpass happly hremoved _
        | true => exact .reaped hmanaged hpass happly hremoved _ _

end Entry

section Fields

variable {run : GcRun} (h : Handled ext clock config git answers entry i run)

include h

/-- Cleanup is called for the entries that pass, when changes are to be applied. -/
theorem Handled.mem_calls {called : WorktreeEntry × Nat} :
    called ∈ run.calls ↔ called = (entry, i) ∧ config.apply = true ∧ isRallyManaged entry.branch entry.path = true ∧
      skipReason ext clock config git answers entry i = none := by
  cases h with
  | foreign hforeign => simp [hforeign]
  | skipped _ reason hskip => simp [hskip]
  | listed _ _ hdry => simp [hdry]
  | retained hmanaged hpass happly => simp [hmanaged, hpass, happly]
  | reaped hmanaged hpass happly => simp [hmanaged, hpass, happly]

/-- A managed entry is a candidate or skipped. -/
theorem Handled.reported (hmanaged : isRallyManaged entry.branch entry.path = true) :
    (∃ reason, ⟨entry.path, entry.branch, reason⟩ ∈ run.candidates) ∨
      ∃ reason, ⟨entry.path, entry.branch, reason⟩ ∈ run.skipped := by
  cases h with
  | foreign hforeign =>
    rw [hforeign] at hmanaged
    cases hmanaged
  | skipped => exact .inr ⟨_, List.mem_singleton_self _⟩
  | listed => exact .inl ⟨_, List.mem_singleton_self _⟩
  | retained => exact .inl ⟨_, List.mem_singleton_self _⟩
  | reaped => exact .inl ⟨_, List.mem_singleton_self _⟩

/-- What is reaped was a candidate, and cleanup removed it. -/
theorem Handled.mem_reaped {reaped : GcReaped} (hreaped : reaped ∈ run.reaped) :
    reaped.worktreePath = entry.path ∧ reaped.branch = entry.branch ∧ candidateOf entry ∈ run.candidates ∧
      (entry, i) ∈ run.calls ∧ (outcomeOf git answers entry i).worktreeRemoved = true := by
  cases h with
  | foreign => cases hreaped
  | skipped => cases hreaped
  | listed => cases hreaped
  | retained => cases hreaped
  | reaped hmanaged hpass happly hremoved =>
    obtain rfl := List.mem_singleton.mp hreaped
    exact ⟨rfl, rfl, List.mem_singleton_self _, List.mem_singleton_self _, hremoved⟩

end Fields

end Runs

/-! ## When the sweep is safe -/

section Safe

variable {ext : Externals} {clock : String} {config : GcConfig} {git : Git} {answers : Nat → Answers}

/-- **The sweep is safe exactly when** no entry that only a live owner protects has an owner that was seen lately and
one that counts as stale. -/
theorem gcSafe_iff :
    GcSafe ext clock config git answers ↔
      (config.apply = true → ∀ entries, listWorktrees config.gitBin git.worktreeList = .ok entries →
        ∀ entry i, (entry, i) ∈ entries.zipIdx → Removable config git answers entry i →
          ¬ (SomeOwner config entry.branch (CountedStale ext clock config) ∧
            SomeOwner config entry.branch (ObservedLive ext clock config))) := by
  have hrun : ∀ entries, listWorktrees config.gitBin git.worktreeList = .ok entries →
      ∃ run, runGc ext clock config git answers = .ok run := by
    intro entries hentries
    exact ⟨_, by rw [runGc, hentries]; rfl⟩
  have hlisted : ∀ run, runGc ext clock config git answers = .ok run →
      ∃ entries, listWorktrees config.gitBin git.worktreeList = .ok entries := by
    intro run h
    cases hentries : listWorktrees config.gitBin git.worktreeList with
    | error e =>
      rw [runGc, hentries] at h
      cases h
    | ok entries => exact ⟨entries, rfl⟩
  constructor
  · intro hsafe happly entries hentries entry i hmem hremovable
    rw [← not_someOwner_observedLive_iff]
    intro hlive
    obtain ⟨run, hok⟩ := hrun entries hentries
    obtain ⟨hmanaged, hpass⟩ := passes_iff.mpr ⟨hremovable, hlive⟩
    have hcall : (entry, i) ∈ run.calls :=
      (mem_run GcRun.calls (fun _ _ => rfl) rfl hok hentries).mpr
        ⟨entry, i, hmem, (handled_gcEntry ..).mem_calls.mpr ⟨rfl, happly, hmanaged, hpass⟩⟩
    exact (hsafe.guarded run hok entry i hcall).2
  · intro hcond
    refine ⟨?_, ?_, ?_⟩
    · intro run hok entry i hcall
      obtain ⟨entries, hentries⟩ := hlisted run hok
      obtain ⟨entry', i', hmem, hcalled⟩ := (mem_run GcRun.calls (fun _ _ => rfl) rfl hok hentries).mp hcall
      obtain ⟨heq, happly, hpass⟩ := (handled_gcEntry ..).mem_calls.mp hcalled
      obtain ⟨rfl, rfl⟩ := Prod.mk.inj heq
      obtain ⟨hremovable, hlive⟩ := passes_iff.mp hpass
      exact ⟨hremovable, not_someOwner_observedLive_iff.mpr
        (hcond happly entries hentries entry i hmem hremovable) hlive⟩
    · intro run hok entries hentries entry hmem hmanaged
      obtain ⟨i, hi⟩ := List.mem_iff_getElem?.mp hmem
      have hstep : (entry, i) ∈ entries.zipIdx := by
        rw [List.mem_zipIdx_iff_getElem?]
        exact hi
      refine ((handled_gcEntry ext clock config git answers entry i).reported hmanaged).imp ?_ ?_
      · rintro ⟨reason, hreason⟩
        exact ⟨reason, (mem_run (·.candidates) (fun _ _ => rfl) rfl hok hentries).mpr ⟨entry, i, hstep, hreason⟩⟩
      · rintro ⟨reason, hreason⟩
        exact ⟨reason, (mem_run (·.skipped) (fun _ _ => rfl) rfl hok hentries).mpr ⟨entry, i, hstep, hreason⟩⟩
    · intro run hok reaped hreaped
      obtain ⟨entries, hentries⟩ := hlisted run hok
      obtain ⟨entry, i, hmem, hfield⟩ := (mem_run (·.reaped) (fun _ _ => rfl) rfl hok hentries).mp hreaped
      obtain ⟨hpath, hbranch, hcandidate, hcall, hremoved⟩ := (handled_gcEntry ..).mem_reaped hfield
      rw [hpath, hbranch]
      refine ⟨⟨_, (mem_run (·.candidates) (fun _ _ => rfl) rfl hok hentries).mpr ⟨entry, i, hmem, hcandidate⟩⟩, i, ?_⟩
      exact ⟨(mem_run GcRun.calls (fun _ _ => rfl) rfl hok hentries).mpr ⟨entry, i, hmem, hcall⟩, hremoved⟩

end Safe

section Sample

/-- The canonical checkout on `main`, and the worktree of one agent, whose branch is merged. -/
def sampleGit : Git where
  worktreeList := .listed ("worktree /repo\nHEAD 0a\nbranch refs/heads/main\n\n" ++
    "worktree /repo/.rally/worktrees/codex-parser-01\nHEAD 0b\nbranch refs/heads/rally/codex-parser-01\n\n")
  symbolicRef := some "main\n"
  verifies := fun _ => true
  showToplevel := some "/repo\n"
  showToplevelCwd := some "/repo\n"

def sampleEntry : WorktreeEntry := ⟨"/repo/.rally/worktrees/codex-parser-01", "rally/codex-parser-01"⟩

def sampleAnswers : Answers where
  canonicalize := some
  unmerged := fun _ _ => some 0
  cleanupAgainst := fun _ _ =>
    { worktreeRemoved := true, branchDeleted := true, bundlePath := none, warnings := [], reason := "removed" }

def sampleConfig (nowTs : String) (presenceFacts : List PresenceFact) : GcConfig where
  apply := true
  ttlSecs := 3600
  nowTs := some nowTs
  presenceFacts := presenceFacts
  managedOwners := some []
  gitBin := "git"

def staleSession : PresenceFact := ⟨"codex:01", 1, "2026-01-01T00:00:00Z"⟩

def liveSession : PresenceFact := ⟨"codex:02", 2, "2026-01-01T12:00:00Z"⟩

def handedOver (config : GcConfig) : Option (List (WorktreeEntry × Nat)) :=
  (runGc .sample "" config sampleGit fun _ => sampleAnswers).toOption.map (·.calls)

/-- The entry is not to be handed over while a tool named as its owner was seen lately. -/
theorem not_gcSafe_of_call {config : GcConfig} {fact : PresenceFact}
    (hcalls : handedOver config = some [(sampleEntry, 1)])
    (howner : OwnerName sampleEntry.branch (normalizeName fact.tool))
    (hfacts : (config.presenceFacts.filter fun f => normalizeName f.tool = normalizeName fact.tool) = [fact])
    (hlive : ∀ secs ∈ age .sample "" config fact, secs ≤ config.ttlSecs.toNat) :
    ¬ GcSafe .sample "" config sampleGit fun _ => sampleAnswers := by
  intro hsafe
  obtain ⟨run, hrun, hcall⟩ := Option.map_eq_some_iff.mp hcalls
  have hok : runGc .sample "" config sampleGit (fun _ => sampleAnswers) = .ok run := by
    cases h : runGc .sample "" config sampleGit (fun _ => sampleAnswers) with
    | error e =>
      rw [h] at hrun
      cases hrun
    | ok other =>
      rw [h] at hrun
      rw [Option.some.inj hrun]
  refine (hsafe.guarded run hok sampleEntry 1 (by rw [hcall]; exact List.mem_singleton_self _)).2
    ⟨_, fact, howner, ⟨[], [], hfacts, ?_, ?_⟩, hlive⟩
  · intro other hother
    cases hother
  · intro other hother
    cases hother

/-- **A live session goes with a stale one, and with a clock that runs behind.** The ttl is an hour. At noon,
`codex:01` was last seen at midnight and `codex:02` just now; at one, `codex:02` is seen at noon of the same day. Both
times the worktree of `codex` is handed to cleanup. -/
theorem sweep_removes_live :
    (handedOver (sampleConfig "2026-01-01T12:00:00Z" [staleSession, liveSession]) = some [(sampleEntry, 1)] ∧
      ¬ GcSafe .sample "" (sampleConfig "2026-01-01T12:00:00Z" [staleSession, liveSession]) sampleGit
        fun _ => sampleAnswers) ∧
    handedOver (sampleConfig "2026-01-01T01:00:00Z" [liveSession]) = some [(sampleEntry, 1)] ∧
      ¬ GcSafe .sample "" (sampleConfig "2026-01-01T01:00:00Z" [liveSession]) sampleGit fun _ => sampleAnswers := by
  have hstale : handedOver (sampleConfig "2026-01-01T12:00:00Z" [staleSession, liveSession]) =
      some [(sampleEntry, 1)] := by decide +kernel
  have hfuture : handedOver (sampleConfig "2026-01-01T01:00:00Z" [liveSession]) = some [(sampleEntry, 1)] := by
    decide +kernel
  have howner : OwnerName sampleEntry.branch (normalizeName liveSession.tool) := Or.inr (Or.inl (by decide +kernel))
  refine ⟨⟨hstale, ?_⟩, hfuture, ?_⟩
  · refine @not_gcSafe_of_call _ liveSession hstale howner (by decide +kernel) ?_
    have hage : age .sample "" (sampleConfig "2026-01-01T12:00:00Z" [staleSession, liveSession]) liveSession =
        some 0 := by decide +kernel
    rw [hage]
    rintro secs hsecs
    obtain rfl := Option.some.inj hsecs
    exact Int.natCast_nonneg _
  · refine @not_gcSafe_of_call _ liveSession hfuture howner (by decide +kernel) ?_
    have hage : age .sample "" (sampleConfig "2026-01-01T01:00:00Z" [liveSession]) liveSession = some (-39600) := by
      decide +kernel
    rw [hage]
    rintro secs hsecs
    obtain rfl := Option.some.inj hsecs
    exact le_trans (by decide) (Int.natCast_nonneg _)

end Sample

end RallyPoint.WorktreeGc
