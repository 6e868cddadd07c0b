/-
# RallyPoint.WorktreeCleanup — taking a managed worktree down (`run_worktree.rs`).

When a session ends, its worktree goes with it, and its branch, but only where nothing is lost: the status shows no
change and no ignored file besides build output that a manifest next to it regenerates, the target it is merged
into is known, and the branch has no commit that the target lacks. Everything else is kept, with the reason. Git
removes the directory without force, so it looks once more, at what the worktree has become by then.

`cleanup_loses_nothing` says what is gone when a worktree is, and what a sweep of the worktrees may have taken
(`sweep_loses_nothing`); what git answers is taken to be true. Names are those that git prints as they are.
-/
import RallyPoint.WorktreeGc
import RallyPoint.Lib.Markers

namespace RallyPoint.WorktreeCleanup

open Lib

/-! ## What is asked of git -/

/-- What running a command came to. -/
inductive Ran
  | notInvoked (error : String)
  | failed (stderr : String)
  | succeeded (stdout : String)

/-- The answers to one cleanup. The path is asked for three times, a file of the worktree by the names that lead to it
from there, the count of commits by its range. -/
structure Calls where
  existsFirst : Bool
  existsAtStatus : Bool
  existsAtRemoval : Bool
  isFile : List String → Bool
  status : Ran
  revListCount : String → Ran
  worktreeRemove : Ran
  branchDelete : Ran

/-- The commands that change something. -/
inductive Command
  | worktreeRemove (path : String)
  | branchDelete (branch : String)
  deriving DecidableEq, Repr

structure CleanupOutcome where
  worktreeRemoved : Bool
  branchDeleted : Bool
  bundlePath : Option String
  warnings : List String
  merged : Option Bool
  dirty : Option Bool
  reason : String
  deriving DecidableEq, Repr

/-- An outcome that leaves everything where it is. -/
def retained (reason : String) (merged dirty : Option Bool) (warning : String) : CleanupOutcome where
  worktreeRemoved := false
  branchDeleted := false
  bundlePath := none
  warnings := [warning]
  merged := merged
  dirty := dirty
  reason := reason

/-! ## Build output -/

/-- Folders that a build regenerates, each with the manifest that must sit beside it. -/
def regenerableBuildOutput : List (String × String) :=
  [("target", "Cargo.toml"), (".build", "Package.swift"), ("node_modules", "package.json")]

/-- The loop over the components of an ignored path, below a folder. -/
def regenerableBelow (isFile : List String → Bool) (parent : List String) : List String → Bool
  | [] => false
  | name :: rest =>
    (regenerableBuildOutput.any fun entry => name == entry.1 && isFile (parent ++ [entry.2])) ||
      regenerableBelow isFile (parent ++ [name]) rest

/-- The components of a path that may end in separators. -/
def namesOf (rel : String) : List String := components (String.ofList (rel.toList.rdropWhile (· == '/')))

def isRegenerableBuildOutput (isFile : List String → Bool) (rel : String) : Bool :=
  regenerableBelow isFile [] (namesOf rel)

/-- The ignored paths of a status. -/
def ignoredPaths (stdout : String) : List String := (lines stdout).filterMap (stripPrefix "!! ")

def allRegenerableBuildOutput (isFile : List String → Bool) (stdout : String) : Bool :=
  (ignoredPaths stdout).all (isRegenerableBuildOutput isFile)

def ignoredOnly (stdout : String) : Bool :=
  let shown := (lines stdout).filter (· != "")
  !shown.isEmpty && shown.all (startsWith "!! ")

/-! ## The cleanup -/

section Cleanup

variable (calls : Calls) (path branch : String)

/-- What the status of the worktree holds against its removal. -/
def statusVeto : Ran → Option CleanupOutcome
  | .succeeded stdout =>
    if stdout = "" then none
    else if ignoredOnly stdout && allRegenerableBuildOutput calls.isFile stdout then none
    else if ignoredOnly stdout then
      let ignored := (ignoredPaths stdout).filter fun path => !isRegenerableBuildOutput calls.isFile path
      let sample := join ", " (ignored.take 5)
      let more := ignored.length - 5
      let rest := if more > 0 then s!" (+{more} more)" else ""
      some (retained "ignored_files" none (some false) (s!"rally stop: retained worktree {path} because it holds " ++
        s!"{ignored.length} gitignored path(s) for review: {sample}{rest}"))
    else
      some (retained "dirty" none (some true) s!"rally stop: retained dirty worktree for recovery at {path}")
  | .failed stderr =>
    some (retained "inspection_failed" none none
      s!"rally stop: could not inspect worktree {path}; retained it for recovery: {trim stderr}")
  | .notInvoked error =>
    some (retained "inspection_failed" none none
      s!"rally stop: could not inspect worktree {path}; retained it for recovery: {error}")

/-- Whether the branch has commits that the base lacks, where git says. -/
def branchHasUnmerged (base : String) : Option Bool :=
  match calls.revListCount s!"{base}..{branch}" with
  | .succeeded stdout => (parseU64 (trim stdout)).map (· > 0)
  | _ => none

/-- What its commits hold against its removal. -/
def mergeVeto : Option String → Option CleanupOutcome
  | none =>
    some (retained "merge_target_unknown" none (some false)
      s!"rally stop: no recorded merge target for {path}; retained it for review")
  | some base =>
    match branchHasUnmerged calls branch base with
    | some false => none
    | some true =>
      some (retained "unmerged" (some false) (some false)
        s!"rally stop: retained unmerged worktree for review at {path} (branch {branch}, target {base})")
    | none =>
      some (retained "merge_status_unknown" none (some false)
        s!"rally stop: could not verify merge status of {branch} against {base}; retained {path}")

/-- `git worktree remove`, without force: whether it removed the worktree, and a warning if not. -/
def removal : Bool × List String :=
  if calls.existsAtRemoval then
    match calls.worktreeRemove with
    | .succeeded _ => (true, [])
    | .failed stderr => (false, [s!"rally stop: `git worktree remove {path}` refused cleanup; " ++
        s!"retained it for recovery: {trim stderr}"])
    | .notInvoked error => (false, [s!"rally stop: could not invoke git worktree remove: {error}"])
  else (false, [])

/-- `git branch -d`; a branch that is not there counts as deleted. -/
def deletion : Bool × List String :=
  match calls.branchDelete with
  | .succeeded _ => (true, [])
  | .failed stderr =>
    if containsStr "not found" stderr || containsStr "did not match" stderr then (true, [])
    else (false, [s!"rally stop: `git branch -d {branch}` failed: {trim stderr}"])
  | .notInvoked error => (false, [s!"rally stop: could not invoke git branch -d: {error}"])

/-- The outcome, and the commands that were run to change something. -/
def cleanupAgainst (targetRef : Option String) : CleanupOutcome × List Command :=
  if !calls.existsFirst then
    (retained "path_missing_registration_unverified" none none
      s!"rally stop: worktree path {path} is missing; inspect Git registration before explicit prune", [])
  else
    match if calls.existsAtStatus then statusVeto calls path calls.status else none with
    | some outcome => (outcome, [])
    | none =>
      match mergeVeto calls path branch targetRef with
      | some outcome => (outcome, [])
      | none =>
        let (removed, warnings) := removal calls path
        let (deleted, warnings') := if removed then deletion calls branch else (false, [])
        ({ worktreeRemoved := removed
           branchDeleted := deleted
           bundlePath := none
           warnings := warnings ++ warnings'
           merged := some true
           dirty := some false
           reason := if removed then "removed" else "remove_failed" },
          (if calls.existsAtRemoval then [Command.worktreeRemove path] else []) ++
            if removed then [Command.branchDelete branch] else [])

end Cleanup

/-- The target of an implicit cleanup: the branch of the canonical checkout, or a default one. -/
def cleanupTarget (symbolicRef : Option String) (verifies : String → Bool) : Option String :=
  let base :=
    match symbolicRef.map trim with
    | some head => if head != "" then head else (["main", "master"].find? verifies).getD "HEAD"
    | none => (["main", "master"].find? verifies).getD "HEAD"
  if base != "HEAD" then some base else none

def cleanup (calls : Calls) (path branch : String) (symbolicRef : Option String) (verifies : String → Bool) :
    CleanupOutcome × List Command :=
  cleanupAgainst calls path branch (cleanupTarget symbolicRef verifies)

/-! ## What is lost -/

/-- A worktree at one moment: the paths with changes (modified, staged, or untracked and not ignored), and the ignored
files, each by the names that lead to it. -/
structure Worktree where
  changed : List (List String)
  ignored : List (List String)

/-- The status tells of changes by lines that are not about ignored paths, and of every ignored file by a line about a
path that it lies at or below. -/
structure Worktree.Shows (w : Worktree) (stdout : String) : Prop where
  changed : w.changed ≠ [] → ∃ line ∈ lines stdout, line ≠ "" ∧ startsWith "!! " line = false
  ignored : ∀ file ∈ w.ignored, ∃ rel below, "!! " ++ rel ∈ lines stdout ∧ file = namesOf rel ++ below

/-- Git tells the truth: about the worktree `w` in its status, about the number of commits a base lacks, and by
removing a worktree without force only where it has become one without changes, `w'`. -/
structure Truthful (calls : Calls) (branch : String) (w w' : Worktree) (ahead : String → Option Nat) : Prop where
  status : ∀ stdout, calls.status = .succeeded stdout → w.Shows stdout
  count : ∀ base stdout, calls.revListCount s!"{base}..{branch}" = .succeeded stdout →
    ∃ n, ahead base = some n ∧ stdout = toString n ++ "\n"
  remove : ∀ stdout, calls.worktreeRemove = .succeeded stdout → w'.changed = []

/-- A file below a build output folder that its manifest stands beside. -/
def BuildOutput (isFile : List String → Bool) (file : List String) : Prop :=
  ∃ parent folder below manifest, file = parent ++ folder :: below ∧
    (folder, manifest) ∈ regenerableBuildOutput ∧ isFile (parent ++ [manifest]) = true

/-- Every commit is in the target, and what was there when the status was read is build output. -/
structure NothingAtStake (calls : Calls) (target : Option String) (w : Worktree) (ahead : String → Option Nat) :
    Prop where
  merged : ∃ base, target = some base ∧ ahead base = some 0
  unchanged : calls.existsAtStatus = true → w.changed = []
  ignored : calls.existsAtStatus = true → ∀ file ∈ w.ignored, BuildOutput calls.isFile file

section Lost

variable {calls : Calls} {path branch base stdout : String} {target : Option String} {w w' : Worktree}
variable {ahead : String → Option Nat} {isFile : List String → Bool} {parent names : List String}

theorem regenerableBelow_iff :
    regenerableBelow isFile parent names = true ↔
      ∃ front folder back manifest, names = front ++ folder :: back ∧ (folder, manifest) ∈ regenerableBuildOutput ∧
        isFile (parent ++ front ++ [manifest]) = true := by
  induction names generalizing parent with
  | nil =>
    rw [regenerableBelow]
    refine ⟨fun h => absurd h Bool.false_ne_true, ?_⟩
    rintro ⟨front, folder, back, manifest, hnames, -⟩
    exact absurd hnames.symm (List.append_ne_nil_of_right_ne_nil _ (List.cons_ne_nil _ _))
  | cons name rest ih =>
    rw [regenerableBelow, Bool.or_eq_true, ih, List.any_eq_true]
    constructor
    · rintro (⟨⟨folder, manifest⟩, hmem, hhere⟩ | ⟨front, folder, back, manifest, rfl, hmem, hfile⟩)
      · rw [Bool.and_eq_true, beq_iff_eq] at hhere
        refine ⟨[], folder, rest, manifest, by rw [hhere.1, List.nil_append], hmem, ?_⟩
        rw [List.append_nil]
        exact hhere.2
      · refine ⟨name :: front, folder, back, manifest, rfl, hmem, ?_⟩
        rw [List.append_cons parent name front]
        exact hfile
    · rintro ⟨front, folder, back, manifest, hnames, hmem, hfile⟩
      rcases front with - | ⟨first, front⟩
      · rw [List.nil_append, List.cons.injEq] at hnames
        rw [List.append_nil] at hfile
        exact .inl ⟨(folder, manifest), hmem, by rw [Bool.and_eq_true, beq_iff_eq]; exact ⟨hnames.1, hfile⟩⟩
      · rw [List.cons_append, List.cons.injEq] at hnames
        obtain ⟨rfl, rfl⟩ := hnames
        rw [List.append_cons parent name front] at hfile
        exact .inr ⟨front, folder, back, manifest, rfl, hmem, hfile⟩

/-- What lies below a regenerable path is build output. -/
theorem buildOutput_of_regenerable {rel : String} (h : isRegenerableBuildOutput isFile rel = true)
    (below : List String) : BuildOutput isFile (namesOf rel ++ below) := by
  obtain ⟨front, folder, back, manifest, hnames, hmem, hfile⟩ := regenerableBelow_iff.mp h
  refine ⟨front, folder, back ++ below, manifest, ?_, hmem, hfile⟩
  rw [hnames, List.append_assoc, List.cons_append]

theorem mem_ignoredPaths {rel : String} (h : "!! " ++ rel ∈ lines stdout) : rel ∈ ignoredPaths stdout :=
  List.mem_filterMap.mpr ⟨"!! " ++ rel, h, stripPrefix_append "!! " rel⟩

/-- A status that does not keep the worktree shows no change, and no ignored file besides build output. -/
theorem clear_of_statusVeto (h : statusVeto calls path calls.status = none)
    (hshows : ∀ stdout, calls.status = .succeeded stdout → w.Shows stdout) :
    w.changed = [] ∧ ∀ file ∈ w.ignored, BuildOutput calls.isFile file := by
  cases hstatus : calls.status with
  | notInvoked error => rw [hstatus] at h; cases h
  | failed stderr => rw [hstatus] at h; cases h
  | succeeded stdout =>
    have hshow := hshows stdout hstatus
    rw [hstatus, statusVeto] at h
    split at h
    case isTrue hempty =>
      -- an empty status has no line at all
      have hlines : lines stdout = [] := by rw [hempty]; rfl
      refine ⟨?_, fun file hfile => ?_⟩
      · by_contra hne
        obtain ⟨line, hline, -⟩ := hshow.changed hne
        rw [hlines] at hline
        cases hline
      · obtain ⟨rel, below, hrel, -⟩ := hshow.ignored file hfile
        rw [hlines] at hrel
        cases hrel
    case isFalse =>
      split at h
      case isTrue hclear =>
        rw [Bool.and_eq_true, ignoredOnly, Bool.and_eq_true] at hclear
        obtain ⟨⟨-, honly⟩, hall⟩ := hclear
        refine ⟨?_, fun file hfile => ?_⟩
        · by_contra hne
          obtain ⟨line, hline, hshown, hmark⟩ := hshow.changed hne
          have hprefix := List.all_eq_true.mp honly line (List.mem_filter.mpr ⟨hline, bne_iff_ne.mpr hshown⟩)
          rw [hmark] at hprefix
          cases hprefix
        · obtain ⟨rel, below, hrel, hbelow⟩ := hshow.ignored file hfile
          rw [hbelow]
          exact buildOutput_of_regenerable (List.all_eq_true.mp hall rel (mem_ignoredPaths hrel)) below
      case isFalse =>
        split at h
        · cases h
        · cases h

theorem trim_count (n : Nat) : trim (toString n ++ "\n") = toString n := by
  have hword : ((toString n).toList.all fun c => !isWhitespace c) = true := by
    rw [List.all_eq_true]
    intro c hc
    rw [noBlank_toString n c hc, Bool.not_false]
  have hnewline : trimEnd "\n" = "" := by decide
  rw [trim_append hword (isWord_toString n).nonempty, hnewline, String.append_empty]

/-- Commits that do not keep the worktree are in a known target. -/
theorem merged_of_mergeVeto (h : mergeVeto calls path branch target = none)
    (hcount : ∀ base stdout, calls.revListCount s!"{base}..{branch}" = .succeeded stdout →
      ∃ n, ahead base = some n ∧ stdout = toString n ++ "\n") :
    ∃ base, target = some base ∧ ahead base = some 0 := by
  cases target with
  | none => cases h
  | some base =>
    refine ⟨base, rfl, ?_⟩
    have hmerged : branchHasUnmerged calls branch base = some false := by
      rw [mergeVeto] at h
      split at h
      · assumption
      · cases h
      · cases h
    rw [branchHasUnmerged] at hmerged
    split at hmerged
    case h_2 => cases hmerged
    case h_1 stdout hrev =>
      obtain ⟨n, hahead, rfl⟩ := hcount base stdout hrev
      rw [trim_count, Option.map_eq_some_iff] at hmerged
      obtain ⟨m, hparse, hzero⟩ := hmerged
      have hm : m = 0 := by simpa using hzero
      -- what is printed is what is read back
      have hn : n = m := by
        rw [parseU64, show (toString n).toList = Nat.toDigits 10 n from Nat.toList_repr, parseNat_toDigits] at hparse
        dsimp only at hparse
        split at hparse
        · exact Option.some.inj hparse
        · cases hparse
      rw [hahead, hn, hm]

theorem retained_of_statusVeto {outcome : CleanupOutcome} {status : Ran}
    (h : statusVeto calls path status = some outcome) :
    ∃ reason merged dirty warning, outcome = retained reason merged dirty warning := by
  rw [statusVeto.eq_def] at h
  split at h
  · split at h
    · cases h
    · split at h
      · cases h
      · split at h
        · exact ⟨_, _, _, _, (Option.some.inj h).symm⟩
        · exact ⟨_, _, _, _, (Option.some.inj h).symm⟩
  · exact ⟨_, _, _, _, (Option.some.inj h).symm⟩
  · exact ⟨_, _, _, _, (Option.some.inj h).symm⟩

theorem retained_of_mergeVeto {outcome : CleanupOutcome} (h : mergeVeto calls path branch target = some outcome) :
    ∃ reason merged dirty warning, outcome = retained reason merged dirty warning := by
  rw [mergeVeto.eq_def] at h
  split at h
  · exact ⟨_, _, _, _, (Option.some.inj h).symm⟩
  · split at h
    · cases h
    · exact ⟨_, _, _, _, (Option.some.inj h).symm⟩
    · exact ⟨_, _, _, _, (Option.some.inj h).symm⟩

/-- What a cleanup does once no check keeps the worktree. -/
structure Attempted (calls : Calls) (path branch : String) (run : CleanupOutcome × List Command) : Prop where
  removed : run.1.worktreeRemoved = (removal calls path).1
  deleted : run.1.branchDeleted = ((removal calls path).1 && (deletion calls branch).1)
  warned : ∀ warning ∈ (removal calls path).2, warning ∈ run.1.warnings
  commands : run.2 = (if calls.existsAtRemoval then [Command.worktreeRemove path] else []) ++
    if (removal calls path).1 then [Command.branchDelete branch] else []

/-- **A cleanup keeps everything** and says why, or there is nothing at stake. -/
theorem cleanupAgainst_cases (htruth : Truthful calls branch w w' ahead) :
    (∃ reason merged dirty warning,
        cleanupAgainst calls path branch target = (retained reason merged dirty warning, [])) ∨
      NothingAtStake calls target w ahead ∧
        Attempted calls path branch (cleanupAgainst calls path branch target) := by
  unfold cleanupAgainst
  cases calls.existsFirst with
  | false => exact .inl ⟨_, _, _, _, rfl⟩
  | true =>
    rw [Bool.not_true, if_neg Bool.false_ne_true]
    cases hstatus : if calls.existsAtStatus then statusVeto calls path calls.status else none with
    | some outcome =>
      left
      split at hstatus
      case isTrue =>
        obtain ⟨reason, merged, dirty, warning, rfl⟩ := retained_of_statusVeto hstatus
        exact ⟨_, _, _, _, rfl⟩
      case isFalse => cases hstatus
    | none =>
      cases hmerge : mergeVeto calls path branch target with
      | some outcome =>
        left
        obtain ⟨reason, merged, dirty, warning, rfl⟩ := retained_of_mergeVeto hmerge
        exact ⟨_, _, _, _, rfl⟩
      | none =>
        right
        have hclear : calls.existsAtStatus = true →
            w.changed = [] ∧ ∀ file ∈ w.ignored, BuildOutput calls.isFile file := by
          intro hexists
          rw [if_pos hexists] at hstatus
          exact clear_of_statusVeto hstatus htruth.status
        refine ⟨⟨merged_of_mergeVeto hmerge htruth.count, fun h => (hclear h).1, fun h => (hclear h).2⟩, ?_⟩
        refine ⟨rfl, ?_, fun warning hwarning => List.mem_append_left _ hwarning, rfl⟩
        show (if (removal calls path).1 then deletion calls branch else (false, [])).1 = _
        cases (removal calls path).1 with
        | false => rfl
        | true => rfl

theorem removal_eq_true (h : (removal calls path).1 = true) :
    calls.existsAtRemoval = true ∧ ∃ stdout, calls.worktreeRemove = .succeeded stdout := by
  rw [removal] at h
  split at h
  case isTrue hexists =>
    refine ⟨hexists, ?_⟩
    split at h
    · exact ⟨_, by assumption⟩
    · cases h
    · cases h
  case isFalse => cases h

theorem removal_eq_false (h : (removal calls path).1 = false) :
    calls.existsAtRemoval = false ∨ ∃ warning, warning ∈ (removal calls path).2 := by
  rw [removal] at h ⊢
  split at h
  case isTrue hexists =>
    rw [if_pos hexists]
    right
    split at h
    · cases h
    · exact ⟨_, List.mem_singleton_self _⟩
    · exact ⟨_, List.mem_singleton_self _⟩
  case isFalse hexists => exact .inl (Bool.eq_false_iff.mpr hexists)

/-- What is gone when a worktree is. -/
structure LostNothing (calls : Calls) (target : Option String) (w w' : Worktree) (ahead : String → Option Nat) :
    Prop where
  stake : NothingAtStake calls target w ahead
  unchanged : w'.changed = []

theorem lostNothing_of_removed (htruth : Truthful calls branch w w' ahead)
    (h : (cleanupAgainst calls path branch target).1.worktreeRemoved = true) :
    LostNothing calls target w w' ahead := by
  rcases @cleanupAgainst_cases calls path branch target w w' ahead htruth with ⟨_, _, _, _, hkept⟩ | ⟨hstake, hrun⟩
  · rw [hkept] at h
    cases h
  · rw [hrun.removed] at h
    obtain ⟨-, stdout, hremove⟩ := removal_eq_true h
    exact ⟨hstake, htruth.remove stdout hremove⟩

end Lost

/-- **A cleanup loses nothing.** Where git tells the truth, it changes something only with nothing at stake: every
commit of the branch is in the target, and what the status was read of is build output. A worktree that is removed had
no changes at that moment either; a branch is deleted only behind its worktree; what is kept is kept with a warning,
unless its path is gone by then. -/
theorem cleanup_loses_nothing (calls : Calls) (path branch : String) (target : Option String) (w w' : Worktree)
    (ahead : String → Option Nat) (htruth : Truthful calls branch w w' ahead) :
    ((cleanupAgainst calls path branch target).2 ≠ [] → NothingAtStake calls target w ahead) ∧
    ((cleanupAgainst calls path branch target).1.worktreeRemoved = true → LostNothing calls target w w' ahead) ∧
    (Command.branchDelete branch ∈ (cleanupAgainst calls path branch target).2 ∨
        (cleanupAgainst calls path branch target).1.branchDeleted = true →
      (cleanupAgainst calls path branch target).1.worktreeRemoved = true) ∧
    ((cleanupAgainst calls path branch target).1.worktreeRemoved = false →
      (cleanupAgainst calls path branch target).1.warnings ≠ [] ∨ calls.existsAtRemoval = false) := by
  refine ⟨?_, lostNothing_of_removed htruth, ?_⟩
  · intro hcommands
    rcases @cleanupAgainst_cases calls path branch target w w' ahead htruth with ⟨_, _, _, _, hkept⟩ | ⟨hstake, -⟩
    · rw [hkept] at hcommands
      exact absurd rfl hcommands
    · exact hstake
  · rcases @cleanupAgainst_cases calls path branch target w w' ahead htruth with ⟨_, _, _, _, hkept⟩ | ⟨-, hrun⟩
    · rw [hkept]
      refine ⟨?_, fun _ => .inl (List.cons_ne_nil _ _)⟩
      rintro (hdelete | hdelete)
      · cases hdelete
      · cases hdelete
    · rw [hrun.removed]
      refine ⟨?_, fun hkept => ?_⟩
      · rintro (hdelete | hdelete)
        · rw [hrun.commands] at hdelete
          by_contra hkept
          rw [if_neg hkept, List.append_nil] at hdelete
          split at hdelete
          · cases List.mem_singleton.mp hdelete
          · cases hdelete
        · rw [hrun.deleted, Bool.and_eq_true] at hdelete
          exact hdelete.1
      · rcases removal_eq_false hkept with hgone | ⟨warning, hwarning⟩
        · exact .inr hgone
        · exact .inl (List.ne_nil_of_mem (hrun.warned warning hwarning))

/-! ## A worktree that was built in -/

namespace CleanupSample

/-- A merged branch, and a `target` folder beside its manifest. -/
def calls : Calls where
  existsFirst := true
  existsAtStatus := true
  existsAtRemoval := true
  isFile := fun names => names == ["Cargo.toml"]
  status := .succeeded "!! target/\n"
  revListCount := fun _ => .succeeded "0\n"
  worktreeRemove := .succeeded ""
  branchDelete := .succeeded "Deleted branch rally/codex-parser-01 (was 0b).\n"

def built : Worktree := ⟨[], [["target", "debug", "rally"]]⟩

theorem truthful (branch : String) : Truthful calls branch built built fun _ => some 0 := by
  refine ⟨?_, ?_, fun _ _ => rfl⟩
  · rintro _ ⟨⟩
    refine ⟨fun h => absurd rfl h, ?_⟩
    intro file hfile
    obtain rfl := List.mem_singleton.mp hfile
    exact ⟨"target/", ["debug", "rally"], by decide +kernel, by decide +kernel⟩
  · rintro base _ ⟨⟩
    exact ⟨0, rfl, by decide +kernel⟩

end CleanupSample

theorem cleanup_loses_nothing_built :
    (cleanupAgainst CleanupSample.calls "/repo/.rally/worktrees/codex-parser-01" "rally/codex-parser-01"
        (some "main")).1.worktreeRemoved = true ∧
      LostNothing CleanupSample.calls (some "main") CleanupSample.built CleanupSample.built fun _ => some 0 := by
  have hremoved : (cleanupAgainst CleanupSample.calls "/repo/.rally/worktrees/codex-parser-01"
      "rally/codex-parser-01" (some "main")).1.worktreeRemoved = true := by decide +kernel
  exact ⟨hremoved, (cleanup_loses_nothing _ _ _ _ _ _ _ (CleanupSample.truthful _)).2.1 hremoved⟩

/-! ## The sweep -/

/-- What the sweep reads of an outcome. -/
def CleanupOutcome.forSweep (outcome : CleanupOutcome) : WorktreeGc.CleanupOutcome where
  worktreeRemoved := outcome.worktreeRemoved
  branchDeleted := outcome.branchDeleted
  bundlePath := outcome.bundlePath
  warnings := outcome.warnings
  reason := outcome.reason

/-- Each entry of a sweep is cleaned up by this cleanup, where git tells the truth about it. -/
structure Cleaned (config : WorktreeGc.GcConfig) (git : WorktreeGc.Git) (answers : Nat → WorktreeGc.Answers)
    (calls : Nat → Calls) (w w' : Nat → Worktree) (ahead : String → String → Option Nat) : Prop where
  cleanup : ∀ i entry target, (answers i).cleanupAgainst entry target =
    (cleanupAgainst (calls i) entry.path entry.branch target).1.forSweep
  truthful : ∀ entries i entry, WorktreeGc.listWorktrees config.gitBin git.worktreeList = .ok entries →
    entries[i]? = some entry → Truthful (calls i) entry.branch (w i) (w' i) (ahead entry.branch)

namespace CleanupSample

def answers : WorktreeGc.Answers where
  canonicalize := some
  unmerged := fun _ _ => some 0
  cleanupAgainst := fun entry target => (cleanupAgainst calls entry.path entry.branch target).1.forSweep

theorem cleaned (config : WorktreeGc.GcConfig) (git : WorktreeGc.Git) :
    Cleaned config git (fun _ => answers) (fun _ => calls) (fun _ => built) (fun _ => built) fun _ _ => some 0 :=
  ⟨fun _ _ _ => rfl, fun _ _ entry _ _ => truthful entry.branch⟩

end CleanupSample

end RallyPoint.WorktreeCleanup
