/-
# RallyPoint.WriteTargets — the files a call that writes is about, by where they really are.

`normalize_targets` walks each declared target component by component, follows the links it meets and keeps what lies
past the first missing component as it is written. A claim on the wrong path protects one file while another is
edited. `normalizeTargets_judges` compares the walk with POSIX resolution on the tree: each target that leads
somewhere is entered under the place it leads to, and one that leads out of the root fails the call.

`canonicalize` and `symlink_metadata` are the system's. The walk relies on their answers being true, not on their
answering (`FileSystem`): either may fail at any path, also for a reason that the tree does not show. Names are text,
as the targets are.
-/
import RallyPoint.HookEnvelope
import RallyPoint.Lib.Check
import RallyPoint.Lib.Distinct
import RallyPoint.Lib.PosixTree

namespace RallyPoint.WriteTargets

open Lib

/-! ## What the system answers -/

/-- The text of a place. -/
def pathText (place : List String) : String := "/" ++ join "/" place

inductive IoError
  | notFound
  | other (rawOsError : Option Int)
  deriving DecidableEq

/-- A tree, the directory the process runs in, and calls that tell the truth about them. -/
structure FileSystem extends PosixTree where
  processDir : List String
  currentDir : Option String
  canonicalize : String → Option (List String)
  /-- Whether what the path names is a link. -/
  symlinkMetadata : String → Except IoError Bool
  processDir_directory : node processDir = some .directory
  currentDir_resolves : ∀ {text}, currentDir = some text →
    isAbsolute text = true ∧ toPosixTree.Resolves [] (components text) processDir
  canonicalize_resolves : ∀ {path place}, canonicalize path = some place →
    toPosixTree.Resolves (if isAbsolute path then [] else processDir) (components path) place
  link_of_metadata : ∀ {dir c}, toPosixTree.Place dir → IsName c →
    symlinkMetadata (pathText (dir ++ [c])) = .ok true → ∃ target, node (dir ++ [c]) = some (.link target)
  place_of_metadata : ∀ {dir c}, toPosixTree.Place dir → IsName c →
    symlinkMetadata (pathText (dir ++ [c])) = .ok false → toPosixTree.Place (dir ++ [c])
  absent_of_metadata : ∀ {dir c}, toPosixTree.Place dir → IsName c →
    symlinkMetadata (pathText (dir ++ [c])) = .error .notFound → node (dir ++ [c]) = none

/-! ## The walk -/

def nativePath (value label : String) : Except String Unit :=
  if isWindowsAbsolute value then .error s!"{label} uses an unsupported Windows path on this host" else .ok ()

/-- `Path::join`: one separator, unless the directory's text ends in it; an absolute path stands alone. -/
def joinPath (dir path : String) : String :=
  if isAbsolute path then path
  else if dir.toList.getLast?.all (· == '/') then dir ++ path
  else dir ++ "/" ++ path

def absolutize (fs : FileSystem) (path : String) : String :=
  if isAbsolute path then path else joinPath (fs.currentDir.getD "/") path

/-- The path from the root, when the candidate does not escape it. -/
def relativeInside (root candidate : List String) : Option String :=
  if root.isPrefixOf candidate then some (join "/" (candidate.drop root.length)) else none

/-- The ancestors that exist are resolved; past the first missing component only names may follow. -/
def physicalWalk (fs : FileSystem) (current : List String) : List String → Except String (List String)
  | [] => .ok current
  | segment :: rest =>
    if segment = "." then physicalWalk fs current rest
    else if segment = ".." then physicalWalk fs current.dropLast rest
    else
      let next := current ++ [segment]
      match fs.symlinkMetadata (pathText next) with
      | .ok true =>
        match fs.canonicalize (pathText next) with
        | some place => physicalWalk fs place rest
        | none => .error "target crosses an unresolved symlink"
      | .ok false => physicalWalk fs next rest
      | .error .notFound =>
        let suffix := (segment :: rest).filter (· != ".")
        if suffix.contains ".." then .error "unresolved target suffix contains parent traversal"
        else .ok (current ++ suffix)
      | .error (.other code) => .error ("cannot inspect target path: " ++ (code.map toString).getD "error")

def physicalCandidate (fs : FileSystem) (candidate : String) : Except String (List String) :=
  if isAbsolute candidate then physicalWalk fs [] (components candidate)
  else .error "target is not absolute after cwd resolution"

/-! ## The targets -/

structure NormalizedTargets where
  cwd : List String
  paths : List String
  deriving DecidableEq

/-- The working directory a call declares, or the process's own. -/
def rawCwd (fs : FileSystem) : Option String → Option String
  | some value => if value = "" then fs.currentDir else some value
  | none => fs.currentDir

def normalizeTarget (fs : FileSystem) (root cwd : List String) (target : String) : Except String String := do
  nativePath target "target"
  let lexical := if startsWith "/" target || isWindowsAbsolute target then target else joinPath (pathText cwd) target
  let physical ← physicalCandidate fs lexical
  match relativeInside root physical with
  | none => .error "target resolves outside the Rally root"
  | some relative => if relative = "" then .error "target resolves outside the Rally root" else .ok relative

def normalizeTargets (fs : FileSystem) (root : String) (cwd : Option String) (raw : List String) :
    Except String NormalizedTargets := do
  nativePath root "Rally root"
  let root ← (fs.canonicalize root).elim (.error "Rally root cannot be canonicalized") .ok
  let rawCwd ← (rawCwd fs cwd).elim (.error "native cwd cannot be canonicalized") .ok
  nativePath rawCwd "cwd"
  let cwd ← (fs.canonicalize (absolutize fs rawCwd)).elim (.error "native cwd cannot be canonicalized") .ok
  if (relativeInside root cwd).isNone then .error "native cwd is outside the Rally root"
  else
    let paths ← raw.foldlM (fun paths target => do
      let relative ← normalizeTarget fs root cwd target
      .ok (pushNew paths relative)) []
    if paths = [] then .error "mutation has no contained target"
    else if paths.length > maxTargets then .error s!"mutation exceeds {maxTargets} targets"
    else .ok ⟨cwd, paths⟩

/-! ## Paths as components -/

section Paths

variable {place dir : List String} {c : String}

theorem components_pathText (h : ∀ c ∈ place, IsName c) : components (pathText place) = place :=
  NormalPath.components_text ⟨true, place, h⟩

theorem isAbsolute_pathText (place : List String) : isAbsolute (pathText place) = true :=
  startsWith_iff.mpr ⟨_, rfl⟩

theorem isName_of_components {path segment : String} (h : segment ∈ components path) :
    segment ≠ "" ∧ '/' ∉ segment.toList := by
  obtain ⟨hpiece, hne⟩ := List.mem_filter.mp h
  exact ⟨by simpa using hne, notMem_of_mem_split hpiece⟩

theorem components_append_sep (dir path : String) :
    components (dir ++ "/" ++ path) = components dir ++ components path := by
  have hsplit : split '/' (dir ++ "/" ++ path) = split '/' dir ++ split '/' path := split_append_sep '/' dir path
  rw [components, hsplit, List.filter_append]
  rfl

theorem components_joinPath {path : String} (dir : String) (h : isAbsolute path = false) :
    components (joinPath dir path) = components dir ++ components path := by
  rw [joinPath, h, if_neg (by simp)]
  split_ifs with hsep
  · rcases List.eq_nil_or_concat dir.toList with hnil | ⟨front, last, hdir⟩
    · rw [String.toList_eq_nil_iff.mp hnil, String.empty_append]
      rfl
    · rw [hdir, List.concat_eq_append, List.getLast?_concat, Option.all_some, beq_iff_eq] at hsep
      subst hsep
      have hfront : dir = String.ofList front ++ "/" := by
        apply String.toList_injective
        rw [hdir, String.toList_append, String.toList_ofList, List.concat_eq_append]
        rfl
      have hempty : components (String.ofList front ++ "/") = components (String.ofList front) := by
        have := components_append_sep (String.ofList front) ""
        rwa [String.append_empty, show components "" = [] from rfl, List.append_nil] at this
      rw [hfront, components_append_sep, hempty]
  · exact components_append_sep dir path

theorem relativeInside_eq_some_iff {root candidate : List String} {relative : String} :
    relativeInside root candidate = some relative ↔
      ∃ rest, candidate = root ++ rest ∧ relative = join "/" rest := by
  rw [relativeInside]
  constructor
  · intro h
    split_ifs at h with hprefix
    obtain ⟨rest, rfl⟩ := List.isPrefixOf_iff_prefix.mp hprefix
    rw [List.drop_left] at h
    exact ⟨rest, rfl, (Option.some.inj h).symm⟩
  · rintro ⟨rest, rfl, rfl⟩
    rw [if_pos (List.isPrefixOf_iff_prefix.mpr (List.prefix_append root rest)), List.drop_left]

end Paths

/-! ## What one segment does -/

section Walk

variable {fs : FileSystem} {current place : List String} {segment : String} {rest : List String}

theorem names_of_place {t : PosixTree} (hcurrent : t.Place current) (hsegment : IsName segment) :
    ∀ c ∈ current ++ [segment], IsName c := by
  intro c hc
  rcases List.mem_append.mp hc with hc | hc
  · exact hcurrent.isName c hc
  · rwa [List.mem_singleton.mp hc]

/-- **One segment of a walk** goes on from a place to a place, where resolution goes on too; or nothing of its name is
there, and the walk ends with the names that are left. -/
theorem walk_cons (hcurrent : fs.Place current) (hsegment : segment ≠ "" ∧ '/' ∉ segment.toList)
    (hrest : ∀ c ∈ rest, c ≠ "" ∧ '/' ∉ c.toList) (h : physicalWalk fs current (segment :: rest) = .ok place) :
    (∃ next, fs.Place next ∧ physicalWalk fs next rest = .ok place ∧
      ∀ location, fs.Locates current (segment :: rest) location → fs.Locates next rest location) ∨
    (IsName segment ∧ fs.node (current ++ [segment]) = none ∧ (∀ c ∈ rest, IsName c ∨ c = ".") ∧
      place = current ++ segment :: rest.filter (· != ".")) := by
  have hon : ∀ next, (fs.node current = some .directory → fs.next (current, segment :: rest) = some (next, rest)) →
      ∀ location, fs.Locates current (segment :: rest) location → fs.Locates next rest location :=
    fun next hnext location hlocates => hlocates.of_reaches (.single (hnext hlocates.directory))
  rw [physicalWalk] at h
  by_cases hdot : segment = "."
  · rw [if_pos hdot] at h
    refine .inl ⟨current, hcurrent, h, hon current fun hdir => ?_⟩
    rw [PosixTree.next, if_pos hdir, if_pos hdot]
  rw [if_neg hdot] at h
  by_cases hup : segment = ".."
  · rw [if_pos hup] at h
    refine .inl ⟨current.dropLast, .inl hcurrent.dropLast, h, hon _ fun hdir => ?_⟩
    rw [PosixTree.next, if_pos hdir, if_neg hdot, if_pos hup]
  rw [if_neg hup] at h
  dsimp only at h
  have hname : IsName segment := ⟨hsegment.1, hdot, hup, hsegment.2⟩
  cases hmeta : fs.symlinkMetadata (pathText (current ++ [segment])) with
  | ok isLink =>
    rw [hmeta] at h
    cases isLink with
    | true =>
      cases hcanonical : fs.canonicalize (pathText (current ++ [segment])) with
      | none =>
        rw [hcanonical] at h
        cases h
      | some next =>
        rw [hcanonical] at h
        have hresolves := fs.canonicalize_resolves hcanonical
        rw [isAbsolute_pathText, if_pos rfl, components_pathText (names_of_place hcurrent hname)] at hresolves
        refine .inl ⟨next, PosixTree.place_of_reaches hresolves (.inl fs.root), h, fun location hlocates => ?_⟩
        exact hlocates.of_reaches (PosixTree.reaches_of_resolves hcurrent hresolves rest)
    | false =>
      have hplace := fs.place_of_metadata hcurrent hname hmeta
      refine .inl ⟨current ++ [segment], hplace, h, hon _ fun hdir => ?_⟩
      rw [PosixTree.next, if_pos hdir, if_neg hdot, if_neg hup]
      rcases hplace with hnode | hnode <;> rw [hnode]
  | error e =>
    cases e with
    | other code =>
      rw [hmeta] at h
      cases h
    | notFound =>
      have hkept : (segment :: rest).filter (· != ".") = segment :: rest.filter (· != ".") :=
        List.filter_cons_of_pos (by simpa using hdot)
      rw [hmeta] at h
      dsimp only at h
      rw [hkept] at h
      split_ifs at h with hclimbs
      refine .inr ⟨hname, fs.absent_of_metadata hcurrent hname hmeta, fun c hc => ?_, (Except.ok.inj h).symm⟩
      by_cases hcdot : c = "."
      · exact .inr hcdot
      · refine .inl ⟨(hrest c hc).1, hcdot, fun hcup => hclimbs ?_, (hrest c hc).2⟩
        rw [List.contains_iff_mem]
        exact List.mem_cons_of_mem _ (List.mem_filter.mpr ⟨hcup ▸ hc, by decide⟩)

/-- **The walk ends where resolution does**, all links followed. -/
theorem walk_location {segments : List String} (hsegments : ∀ c ∈ segments, c ≠ "" ∧ '/' ∉ c.toList)
    (hcurrent : fs.Place current) (h : physicalWalk fs current segments = .ok place) :
    ∀ location, fs.Locates current segments location → location = place := by
  induction segments generalizing current with
  | nil =>
    cases h
    exact fun location hlocates => PosixTree.locates_nil_iff.mp hlocates
  | cons segment rest ih =>
    rw [List.forall_mem_cons] at hsegments
    rcases walk_cons hcurrent hsegments.1 hsegments.2 h with
      ⟨next, hnext, hwalk, hon⟩ | ⟨hname, habsent, -, rfl⟩
    · exact fun location hlocates => ih hsegments.2 hnext hwalk location (hon location hlocates)
    · exact fun location hlocates => PosixTree.locates_of_missing hlocates hname habsent

/-- **Where the walk ends**, every component is a name, and none of them names a link. -/
theorem walk_physical {segments : List String} (hsegments : ∀ c ∈ segments, c ≠ "" ∧ '/' ∉ c.toList)
    (hcurrent : fs.Place current) (h : physicalWalk fs current segments = .ok place) :
    (∀ c ∈ place, IsName c) ∧ ∀ k target, fs.node (place.take k) ≠ some (.link target) := by
  induction segments generalizing current with
  | nil =>
    cases h
    exact ⟨hcurrent.isName, PosixTree.notLink_of_place hcurrent⟩
  | cons segment rest ih =>
    rw [List.forall_mem_cons] at hsegments
    rcases walk_cons hcurrent hsegments.1 hsegments.2 h with
      ⟨next, hnext, hwalk, -⟩ | ⟨hname, habsent, hnames, rfl⟩
    · exact ih hsegments.2 hnext hwalk
    · constructor
      · intro c hc
        rcases List.mem_append.mp hc with hc | hc
        · exact hcurrent.isName c hc
        · rcases List.mem_cons.mp hc with rfl | hc
          · exact hname
          · obtain ⟨hmem, hdot⟩ := List.mem_filter.mp hc
            exact (hnames c hmem).resolve_right (by simpa using hdot)
      · intro k target
        exact PosixTree.notLink_of_missing hcurrent habsent _ k target

end Walk

/-! ## One target -/

section Target

variable {fs : FileSystem} {root cwd : List String} {target relative : String}

/-- Where a declared target leads from the working directory. -/
def Leads (fs : FileSystem) (cwd : List String) (target : String) (place : List String) : Prop :=
  fs.Locates (if isAbsolute target then [] else cwd) (components target) place

theorem walk_of_candidate {candidate : String} {physical : List String}
    (h : physicalCandidate fs candidate = .ok physical) :
    physicalWalk fs [] (components candidate) = .ok physical := by
  rw [physicalCandidate] at h
  split_ifs at h
  exact h

/-- **A target that is let through** is entered by a text below the root, and leads there if it leads anywhere. -/
theorem normalizeTarget_ok (hcwd : fs.Place cwd) (h : normalizeTarget fs root cwd target = .ok relative) :
    ∃ rest, relative = join "/" rest ∧ rest ≠ [] ∧ (∀ c ∈ rest, IsName c) ∧
      (∀ k link, fs.node ((root ++ rest).take k) ≠ some (.link link)) ∧
      ∀ place, Leads fs cwd target place → place = root ++ rest := by
  obtain ⟨_, hnative, h⟩ := bind_ok_iff.mp h
  have hwindows : isWindowsAbsolute target = false := by
    rw [nativePath] at hnative
    split_ifs at hnative with hwindows
    exact Bool.eq_false_iff.mpr hwindows
  rw [hwindows, Bool.or_false] at h
  obtain ⟨physical, hphysical, h⟩ := bind_ok_iff.mp h
  replace hphysical := walk_of_candidate hphysical
  obtain ⟨hnames, hlinks⟩ := walk_physical (fun c hc => isName_of_components hc) (.inl fs.root) hphysical
  have hlocation := walk_location (fun c hc => isName_of_components hc) (.inl fs.root) hphysical
  cases hinside : relativeInside root physical with
  | none =>
    rw [hinside] at h
    cases h
  | some text =>
    rw [hinside] at h
    dsimp only at h
    split_ifs at h with hempty
    obtain rfl := Except.ok.inj h
    obtain ⟨rest, rfl, rfl⟩ := relativeInside_eq_some_iff.mp hinside
    refine ⟨rest, rfl, fun hnil => hempty (hnil ▸ rfl), fun c hc => hnames c (List.mem_append_right root hc), hlinks,
      fun place hleads => hlocation place ?_⟩
    rw [Leads] at hleads
    by_cases habs : startsWith "/" target = true
    · rw [if_pos habs]
      rwa [isAbsolute, if_pos habs] at hleads
    · -- a relative target is walked behind the names of the working directory
      have hrelative : isAbsolute target = false := Bool.eq_false_iff.mpr habs
      rw [if_neg habs, components_joinPath _ hrelative, components_pathText hcwd.isName]
      rw [hrelative, if_neg (by simp)] at hleads
      have hnames : fs.Reaches ([], cwd) (cwd, []) := PosixTree.reaches_names hcwd
      exact hleads.before (hnames.append (components target))

end Target

/-! ## All targets -/

section Targets

variable {fs : FileSystem} {root text : String} {cwd : Option String} {raw : List String}
  {result : NormalizedTargets}

/-- A place below the root. -/
def Below (root place : List String) : Prop := ∃ rest, rest ≠ [] ∧ place = root ++ rest

/-- The targets of a call, judged where they are. -/
structure Judged (fs : FileSystem) (root cwd : String) (raw : List String) (rootPlace : List String)
    (result : NormalizedTargets) : Prop where
  root_resolves : fs.Resolves (if isAbsolute root then [] else fs.processDir) (components root) rootPlace
  cwd_resolves : fs.Resolves [] (components (absolutize fs cwd)) result.cwd
  cwd_inside : rootPlace <+: result.cwd
  located : ∀ target ∈ raw, ∀ place, Leads fs result.cwd target place →
    ∃ rest, rest ≠ [] ∧ place = rootPlace ++ rest ∧ result.paths.count (join "/" rest) = 1
  physical : ∀ path ∈ result.paths, ∃ rest, rest ≠ [] ∧ path = join "/" rest ∧ (∀ c ∈ rest, IsName c) ∧
    ∀ k link, fs.node ((rootPlace ++ rest).take k) ≠ some (.link link)

theorem foldlM_pushNew_ok {f : String → Except String String} {paths out : List String}
    (h : raw.foldlM (fun paths target => do
      let relative ← f target
      .ok (pushNew paths relative)) paths = .ok out) :
    ∃ relatives, raw.mapM f = .ok relatives ∧ out = pushNewAll paths relatives := by
  induction raw generalizing paths with
  | nil =>
    cases h
    exact ⟨[], rfl, rfl⟩
  | cons target raw ih =>
    rw [List.foldlM_cons] at h
    obtain ⟨pushed, hpushed, h⟩ := bind_ok_iff.mp h
    obtain ⟨relative, hrelative, hpush⟩ := bind_ok_iff.mp hpushed
    obtain rfl := Except.ok.inj hpush
    obtain ⟨relatives, hrelatives, rfl⟩ := ih h
    refine ⟨relative :: relatives, ?_, rfl⟩
    rw [List.mapM_cons, hrelative, hrelatives]
    rfl

theorem isAbsolute_joinPath {dir path : String} (h : isAbsolute dir = true) :
    isAbsolute (joinPath dir path) = true := by
  obtain ⟨tail, rfl⟩ := startsWith_iff.mp h
  rw [joinPath]
  split_ifs with hpath
  · exact hpath
  · exact startsWith_iff.mpr ⟨tail ++ path, String.append_assoc ..⟩
  · refine startsWith_iff.mpr ⟨tail ++ "/" ++ path, ?_⟩
    rw [String.append_assoc, String.append_assoc, String.append_assoc]

theorem isAbsolute_absolutize (path : String) : isAbsolute (absolutize fs path) = true := by
  rw [absolutize]
  split_ifs with h
  · exact h
  · cases hdir : fs.currentDir with
    | none => exact isAbsolute_joinPath (by decide)
    | some dir => exact isAbsolute_joinPath (fs.currentDir_resolves hdir).1

theorem some_of_elim {α : Type} {x : Option α} {a : α} {e : String} (h : x.elim (.error e) .ok = Except.ok a) :
    x = some a := by
  cases x with
  | none => cases h
  | some a => exact congrArg some (Except.ok.inj h)

/-- **The call that is let through** judged every target where it is. -/
theorem judged_of_ok (h : normalizeTargets fs root cwd raw = .ok result) :
    ∃ text rootPlace, rawCwd fs cwd = some text ∧ Judged fs root text raw rootPlace result := by
  obtain ⟨_, -, h⟩ := bind_ok_iff.mp h
  obtain ⟨rootPlace, hroot, h⟩ := bind_ok_iff.mp h
  obtain ⟨text, htext, h⟩ := bind_ok_iff.mp h
  obtain ⟨_, -, h⟩ := bind_ok_iff.mp h
  obtain ⟨cwdPlace, hcwd, h⟩ := bind_ok_iff.mp h
  split_ifs at h with houtside
  obtain ⟨paths, hpaths, h⟩ := bind_ok_iff.mp h
  split_ifs at h with hnone hmany
  obtain rfl := Except.ok.inj h
  obtain ⟨relatives, hrelatives, rfl⟩ := foldlM_pushNew_ok hpaths
  obtain ⟨hall, hall'⟩ := mapM_ok_iff.mp hrelatives
  obtain ⟨inside, hinside⟩ := Option.ne_none_iff_exists'.mp (by simpa using houtside)
  obtain ⟨below, rfl, -⟩ := relativeInside_eq_some_iff.mp hinside
  have hrootResolves := fs.canonicalize_resolves (some_of_elim hroot)
  have hcwdResolves := fs.canonicalize_resolves (some_of_elim hcwd)
  rw [isAbsolute_absolutize, if_pos rfl] at hcwdResolves
  have hcwdPlace : fs.Place (rootPlace ++ below) := PosixTree.place_of_reaches hcwdResolves (.inl fs.root)
  refine ⟨text, rootPlace, some_of_elim htext, hrootResolves, hcwdResolves, List.prefix_append _ _, ?_, ?_⟩
  · intro target htarget place hleads
    obtain ⟨relative, hrelative⟩ := hall target htarget
    obtain ⟨rest, rfl, hne, -, -, hlocation⟩ := normalizeTarget_ok hcwdPlace hrelative
    have hmem : join "/" rest ∈ relatives := by
      rw [hall']
      exact List.mem_filterMap.mpr ⟨target, htarget, by rw [hrelative]; rfl⟩
    exact ⟨rest, hne, hlocation place hleads,
      List.count_eq_one_of_mem (nodup_pushNewAll List.nodup_nil) (mem_pushNewAll.mpr (.inr hmem))⟩
  · intro path hpath
    have hmem := (mem_pushNewAll.mp hpath).resolve_left List.not_mem_nil
    rw [hall'] at hmem
    obtain ⟨target, -, htarget⟩ := List.mem_filterMap.mp hmem
    obtain ⟨rest, rfl, hne, hnames, hlinks, -⟩ := normalizeTarget_ok hcwdPlace (ok_of_toOption htarget)
    exact ⟨rest, hne, rfl, hnames, hlinks⟩

/-- **Write targets are judged where they really are.** -/
theorem normalizeTargets_judges (fs : FileSystem) (root : String) (cwd : Option String) (raw : List String) :
    (∀ result, normalizeTargets fs root cwd raw = .ok result →
      ∃ text rootPlace, rawCwd fs cwd = some text ∧ Judged fs root text raw rootPlace result) ∧
    ∀ text rootPlace cwdPlace target place, rawCwd fs cwd = some text →
      fs.Resolves (if isAbsolute root then [] else fs.processDir) (components root) rootPlace →
      fs.Resolves [] (components (absolutize fs text)) cwdPlace →
      target ∈ raw → Leads fs cwdPlace target place → ¬Below rootPlace place →
      ∃ message, normalizeTargets fs root cwd raw = .error message := by
  refine ⟨fun result h => judged_of_ok h, ?_⟩
  intro text rootPlace cwdPlace target place htext hroot hcwd htarget hleads hout
  cases h : normalizeTargets fs root cwd raw with
  | error message => exact ⟨message, rfl⟩
  | ok result =>
    obtain ⟨text', rootPlace', htext', hjudged⟩ := judged_of_ok h
    obtain rfl := Option.some.inj (htext.symm.trans htext')
    obtain rfl := PosixTree.Resolves.unique hroot hjudged.root_resolves
    obtain rfl := PosixTree.Resolves.unique hcwd hjudged.cwd_resolves
    obtain ⟨rest, hne, hplace, -⟩ := hjudged.located target htarget place hleads
    exact absurd ⟨rest, hne, hplace⟩ hout

end Targets

/-! ## Systems -/

/-- The calls of a system whose tree is known, and which resolves at most `fuel` components. -/
def FileSystem.ofTree (t : PosixTree) (processDir : List String) (h : t.node processDir = some .directory)
    (fuel : Nat) : FileSystem where
  toPosixTree := t
  processDir := processDir
  currentDir := some (pathText processDir)
  canonicalize := fun path => t.resolve fuel (if isAbsolute path then [] else processDir, components path)
  symlinkMetadata := fun path =>
    match t.node (components path) with
    | some (.link _) => .ok true
    | some _ => .ok false
    | none => .error (if t.node (components path).dropLast = some .directory then .notFound else .other (some 20))
  processDir_directory := h
  currentDir_resolves := by
    rintro _ ⟨⟩
    have hplace : t.Place processDir := .inl h
    rw [components_pathText hplace.isName]
    exact ⟨isAbsolute_pathText _, PosixTree.reaches_names hplace⟩
  canonicalize_resolves := PosixTree.resolves_of_resolve
  link_of_metadata := by
    intro dir c hdir hc hmeta
    rw [components_pathText (names_of_place hdir hc)] at hmeta
    split at hmeta
    · exact ⟨_, by assumption⟩
    · cases hmeta
    · cases hmeta
  place_of_metadata := by
    intro dir c hdir hc hmeta
    rw [components_pathText (names_of_place hdir hc)] at hmeta
    split at hmeta
    · cases hmeta
    · rename_i node hlink hnode
      cases node with
      | directory => exact .inl hnode
      | file => exact .inr hnode
      | link target => exact absurd rfl (hlink target)
    · cases hmeta
  absent_of_metadata := by
    intro dir c hdir hc hmeta
    rw [components_pathText (names_of_place hdir hc)] at hmeta
    split at hmeta
    · cases hmeta
    · cases hmeta
    · assumption

/-! ## A tree with links -/

namespace TargetSample

def tree : PosixTree :=
  PosixTree.ofEntries
    [(["repo"], .directory), (["repo", "src"], .directory), (["repo", "src", "deep"], .directory),
      (["repo", "src", "a.rs"], .file), (["repo", "cur"], .link "src/deep"), (["repo", "out"], .link "/etc"),
      (["etc"], .directory)] (by decide +kernel)

def system : FileSystem := FileSystem.ofTree tree ["repo"] (by decide +kernel) 64

/-- Behind a link, `..` leads to the parent of what the link names. -/
def declared : List String := ["cur/../a.rs", "/repo/src/./a.rs", "new/./b.rs"]

theorem declared_normalized :
    normalizeTargets system "/repo" (some "/repo") declared = .ok ⟨["repo"], ["src/a.rs", "new/b.rs"]⟩ := by
  decide +kernel

theorem declared_judged :
    ∃ text rootPlace, rawCwd system (some "/repo") = some text ∧
      Judged system "/repo" text declared rootPlace ⟨["repo"], ["src/a.rs", "new/b.rs"]⟩ :=
  (normalizeTargets_judges system "/repo" (some "/repo") declared).1 _ declared_normalized

example : normalizeTargets system "/repo" none ["cur/a.rs", "out/passwd"] =
    .error "target resolves outside the Rally root" := by decide +kernel

end TargetSample

end RallyPoint.WriteTargets
