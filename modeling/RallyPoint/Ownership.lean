/-
# RallyPoint.Ownership — what the paths of accepted tasks own together (`workstream-lint.mjs`).

The linter strips a trailing glob with the slash before it and compares what is left at segment boundaries. For a
plain path and for a glob on a whole segment (`src/**`) that decides overlap exactly. A glob inside a segment
(`plan-*`) and a bare one (`**`) are reduced to a text that is no whole path, so a path that goes on behind it
within the segment is not found to overlap.
-/
import RallyPoint.Lib.Markers
import RallyPoint.Workstream

namespace RallyPoint.Workstream

open Lib

/-! ## What an entry owns -/

def isGlob (p : String) : Bool := p.toList.getLast? == some '*'

/-- The text before a trailing glob. -/
def beforeGlob (p : String) : List Char := p.toList.rdropWhile (· == '*')

/-- `n` itself is not below it. -/
def Below (n q : List Char) : Prop := n ++ ['/'] <+: q

/-- A plain entry owns its path and all below it, a glob every path that starts with the text before it. -/
def EntryOwns (p q : String) : Prop :=
  if isGlob p then beforeGlob p <+: q.toList else q = p ∨ Below p.toList q.toList

/-- A path of the repository: relative, with no empty segment and none that leads elsewhere. -/
def RepoPath (q : String) : Prop := ∀ seg ∈ split '/' q, seg ≠ "" ∧ seg ≠ "." ∧ seg ≠ ".."

def TaskOwns (task : Json) (q : String) : Prop := ∃ p ∈ ownedPaths (task.member "owns"), EntryOwns p q

/-- No path is owned by two different tasks. -/
def OwnershipDisjoint (tasks : List Json) : Prop :=
  tasks.Pairwise fun t u => ∀ q, RepoPath q → ¬ (TaskOwns t q ∧ TaskOwns u q)

/-- A glob without a slash before it. -/
def LooseGlob (p : String) : Prop := isGlob p = true ∧ (beforeGlob p).getLast? ≠ some '/'

/-- The text before a loose glob begins the text of an entry. -/
def Reaches (x y : String) : Prop := LooseGlob x ∧ beforeGlob x <+: beforeGlob y

/-- No loose glob of a task reaches an entry of another task. -/
def LooseGlobsApart (tasks : List Json) : Prop :=
  tasks.Pairwise fun t u => ∀ x ∈ ownedPaths (t.member "owns"), ∀ y ∈ ownedPaths (u.member "owns"),
    ¬ Reaches x y ∧ ¬ Reaches y x

/-! ## The linter's comparison -/

/-- What two normalized entries overlap by. -/
def Conflict (n m : List Char) : Prop := n = m ∨ Below n m ∨ Below m n

theorem Conflict.symm {n m : List Char} (h : Conflict n m) : Conflict m n := by
  rcases h with rfl | h | h
  · exact Or.inl rfl
  · exact Or.inr (Or.inr h)
  · exact Or.inr (Or.inl h)

theorem utf16Length_lt_of_below {a b : String} (h : Below a.toList b.toList) : utf16Length a < utf16Length b := by
  obtain ⟨rest, hrest⟩ := h
  rw [utf16Length, utf16Length, ← hrest, sumOf_append, sumOf_append]
  have hslash : sumOf (fun c : Char => if c.toNat < 0x10000 then 1 else 2) ['/'] = 1 := by decide
  omega

theorem startsWith_slash_iff {a b : String} : startsWith (a ++ "/") b = true ↔ Below a.toList b.toList := by
  rw [startsWith, List.isPrefixOf_iff_prefix, String.toList_append]
  rfl

theorem pathsOverlap_iff {a b : String} :
    pathsOverlap a b = true ↔ Conflict (normGlob a).toList (normGlob b).toList := by
  have hself : a = b → normGlob a = normGlob b := congrArg normGlob
  simp only [pathsOverlap, Bool.or_eq_true, beq_iff_eq, startsWith_slash_iff, Conflict, String.toList_inj]
  constructor
  · rintro (((heq | heq) | heq) | hbelow)
    · exact Or.inl (hself heq)
    · exact Or.inl heq
    · split_ifs at heq
      · exact Or.inl heq
      · exact Or.inl heq.symm
    · split_ifs at hbelow
      · exact Or.inr (Or.inr hbelow)
      · exact Or.inr (Or.inl hbelow)
  · rintro (heq | hbelow | hbelow)
    · exact Or.inl (Or.inl (Or.inr heq))
    · have hlt := utf16Length_lt_of_below hbelow
      refine Or.inr ?_
      rw [if_neg (by omega), if_neg (by omega)]
      exact hbelow
    · have hlt := utf16Length_lt_of_below hbelow
      refine Or.inr ?_
      rw [if_pos (by omega), if_pos (by omega)]
      exact hbelow

/-! ## Accepted entries -/

section Entry

variable {x y p q : String}

theorem segments_of_problem {segs : List String} (h : segmentsProblem segs = none) :
    ∀ seg ∈ segs, seg ≠ "" ∧ seg ≠ "." ∧ seg ≠ ".." := by
  have hone : ∀ {last : Bool} {seg : String}, segmentProblem last seg = none → seg ≠ "" ∧ seg ≠ "." ∧ seg ≠ ".." := by
    intro last seg hseg
    unfold segmentProblem at hseg
    split_ifs at hseg with hempty hdots hlast hok hok
    all_goals exact ⟨hempty, fun h => hdots (Or.inl h), fun h => hdots (Or.inr h)⟩
  induction segs with
  | nil => exact fun seg hseg => absurd hseg List.not_mem_nil
  | cons seg rest ih =>
    cases rest with
    | nil =>
      intro other hother
      rw [List.mem_singleton.mp hother]
      exact hone h
    | cons next rest =>
      obtain ⟨hseg, hrest⟩ := Option.or_eq_none_iff.mp h
      exact List.forall_mem_cons.mpr ⟨hone hseg, ih hrest⟩

theorem repoPath_of_owns (h : ownsPathProblem p = none) : RepoPath p :=
  segments_of_problem (ownsPath_chars h).2.2.2

/-- Only stars are stripped. -/
theorem exists_stars (p : String) : ∃ stars : List Char, p.toList = beforeGlob p ++ stars ∧ ∀ c ∈ stars, c = '*' := by
  refine ⟨p.toList.rtakeWhile (· == '*'), List.rdropWhile_append_rtakeWhile.symm, fun c hc => ?_⟩
  have hmem : c ∈ p.toList.reverse.takeWhile (· == '*') := List.mem_reverse.mp hc
  simpa using List.mem_takeWhile_imp hmem

theorem beforeGlob_isInitial (p : String) : beforeGlob p <+: p.toList := List.rdropWhile_prefix _ _

theorem beforeGlob_of_not_glob (h : isGlob p = false) : beforeGlob p = p.toList := by
  rw [beforeGlob, List.rdropWhile_eq_self_iff]
  intro hne hlast
  rw [isGlob, List.getLast?_eq_some_getLast hne] at h
  simp_all

theorem length_beforeGlob_lt (h : isGlob p = true) : (beforeGlob p).length < p.toList.length := by
  refine lt_of_le_of_ne (beforeGlob_isInitial p).length_le fun hlen => ?_
  have heq := (beforeGlob_isInitial p).eq_of_length hlen
  rw [beforeGlob, List.rdropWhile_eq_self_iff] at heq
  have hlast : p.toList.getLast? = some '*' := by simpa [isGlob] using h
  have hne : p.toList ≠ [] := by
    intro hnil
    simp [hnil] at hlast
  rw [List.getLast?_eq_some_getLast hne] at hlast
  exact heq hne (by simp [Option.some.inj hlast])

/-- What the linter normalizes an entry to. -/
theorem normGlob_toList (h : ownsPathProblem p = none) :
    (normGlob p).toList =
      if isGlob p ∧ (beforeGlob p).getLast? = some '/' then (beforeGlob p).dropLast else beforeGlob p := by
  have hslash : p.toList.reverse.dropWhile (· == '/') = p.toList.reverse := by
    have hlast := (ownsPath_chars h).2.2.1
    rw [← List.head?_reverse] at hlast
    cases hcs : p.toList.reverse with
    | nil => rfl
    | cons c cs =>
      rw [hcs] at hlast
      exact List.dropWhile_cons_of_neg (by simpa using hlast)
  have hcore : p.toList.reverse.dropWhile (· == '*') = (beforeGlob p).reverse := by
    rw [beforeGlob, List.rdropWhile, List.reverse_reverse]
  have hglob : (beforeGlob p).length < p.toList.length ↔ isGlob p = true := by
    constructor
    · intro hlt
      by_contra hnot
      rw [beforeGlob_of_not_glob (by simpa using hnot)] at hlt
      exact lt_irrefl _ hlt
    · exact length_beforeGlob_lt
  unfold normGlob
  simp only [hslash, hcore, List.length_reverse, List.head?_reverse, hglob, String.toList_ofList]
  split_ifs
  · rw [List.tail_reverse, List.reverse_reverse]
  · rw [List.reverse_reverse]

/-- **An accepted entry** is a plain path, a glob on a whole segment, or a loose glob. -/
theorem entry_cases (h : ownsPathProblem p = none) :
    (isGlob p = false ∧ (normGlob p).toList = p.toList ∧ beforeGlob p = p.toList) ∨
      (isGlob p = true ∧ beforeGlob p = (normGlob p).toList ++ ['/']) ∨
      (LooseGlob p ∧ (normGlob p).toList = beforeGlob p) := by
  have hnorm := normGlob_toList h
  by_cases hglob : isGlob p = true
  · by_cases hslash : (beforeGlob p).getLast? = some '/'
    · rw [if_pos ⟨hglob, hslash⟩] at hnorm
      obtain ⟨front, hfront⟩ := List.getLast?_eq_some_iff.mp hslash
      refine Or.inr (Or.inl ⟨hglob, ?_⟩)
      rw [hnorm, hfront, List.dropLast_concat]
    · rw [if_neg fun hboth => hslash hboth.2] at hnorm
      exact Or.inr (Or.inr ⟨⟨hglob, hslash⟩, hnorm⟩)
  · rw [if_neg fun hboth => hglob hboth.1] at hnorm
    have hplain : isGlob p = false := by simpa using hglob
    have hbefore := beforeGlob_of_not_glob hplain
    exact Or.inl ⟨hplain, hnorm.trans hbefore, hbefore⟩

theorem owned_beforeGlob (h : EntryOwns p q) : beforeGlob p <+: q.toList := by
  unfold EntryOwns at h
  split_ifs at h with hglob
  · exact h
  · rw [beforeGlob_of_not_glob (by simpa using hglob)]
    rcases h with rfl | h
    · exact List.prefix_refl _
    · exact (List.prefix_append _ _).trans h

/-- What lies below the text of an entry lies below its normal form, or is it. -/
theorem conflict_of_below (hy : ownsPathProblem y = none) {n : List Char} (h : Below n (beforeGlob y)) :
    Conflict n (normGlob y).toList := by
  rcases entry_cases hy with ⟨-, hnorm, hbefore⟩ | ⟨-, hbefore⟩ | ⟨-, hnorm⟩
  · rw [hbefore, ← hnorm] at h
    exact Or.inr (Or.inl h)
  · unfold Below at h
    rw [hbefore, List.prefix_concat_iff] at h
    rcases h with heq | h
    · exact Or.inl (List.append_cancel_right heq)
    · exact Or.inr (Or.inl h)
  · rw [← hnorm] at h
    exact Or.inr (Or.inl h)

/-- A plain path whose text is the text of an entry is its normal form too. -/
theorem conflict_of_eq (hx : ownsPathProblem x = none) (hy : ownsPathProblem y = none) (h : beforeGlob y = x.toList) :
    Conflict x.toList (normGlob y).toList := by
  rcases entry_cases hy with ⟨-, hnorm, hbefore⟩ | ⟨-, hbefore⟩ | ⟨-, hnorm⟩
  · exact Or.inl ((hnorm.trans hbefore.symm).trans h).symm
  · have hlast := (ownsPath_chars hx).2.2.1
    rw [← h, hbefore, List.getLast?_concat] at hlast
    exact absurd rfl hlast
  · exact Or.inl (hnorm.trans h).symm

/-- **The longer entry of an overlap** that the linter does not see is reached by a loose glob. -/
theorem reaches_of_common (hx : ownsPathProblem x = none) (hy : ownsPathProblem y = none)
    (hapart : ¬ Conflict (normGlob x).toList (normGlob y).toList) (howns : EntryOwns x q) (hother : EntryOwns y q)
    (hle : beforeGlob x <+: beforeGlob y) : Reaches x y := by
  have hyq := owned_beforeGlob hother
  rcases entry_cases hx with ⟨hplain, hnorm, hbefore⟩ | ⟨-, hbefore⟩ | ⟨hloose, -⟩
  · rw [hnorm] at hapart
    rw [hbefore] at hle
    have hback : ¬ beforeGlob y <+: x.toList := fun hback =>
      hapart (conflict_of_eq hx hy (hback.eq_of_length_le hle.length_le))
    unfold EntryOwns at howns
    rw [if_neg (by simp [hplain])] at howns
    rcases howns with rfl | hbelow
    · exact absurd hyq hback
    · rcases List.prefix_or_prefix_of_prefix hbelow hyq with hprefix | hprefix
      · exact absurd (conflict_of_below hy hprefix) hapart
      · rcases List.prefix_concat_iff.mp hprefix with heq | hprefix
        · have hbelow : Below x.toList (beforeGlob y) := by
            rw [heq]
            exact List.prefix_refl _
          exact absurd (conflict_of_below hy hbelow) hapart
        · exact absurd hprefix hback
  · rw [hbefore] at hle
    exact absurd (conflict_of_below hy hle) hapart
  · exact ⟨hloose, hle⟩

/-! ## A path in both -/

/-- The text before a glob, with a letter behind it, is a path. -/
theorem repoPath_beforeGlob (h : ownsPathProblem p = none) : RepoPath (String.ofList (beforeGlob p ++ ['x'])) := by
  obtain ⟨stars, hstars, hall⟩ := exists_stars p
  have hnoSlash : '/' ∉ stars := fun hmem => absurd (hall '/' hmem) (by decide)
  obtain ⟨front, piece, hcs, hpath⟩ := splitChars_append_word hnoSlash (beforeGlob p)
  obtain ⟨front', piece', hcs', hletter⟩ := @splitChars_append_word '/' ['x'] (by decide) (beforeGlob p)
  rw [hcs] at hcs'
  obtain ⟨rfl, -⟩ := List.append_inj' hcs' rfl
  have hvalid : ∀ seg ∈ split '/' p, seg ≠ "" ∧ seg ≠ "." ∧ seg ≠ ".." := repoPath_of_owns h
  intro seg hseg
  rw [split, String.toList_ofList, hletter, List.map_append, List.mem_append] at hseg
  rcases hseg with hseg | hseg
  · apply hvalid
    rw [split, hstars, hpath, List.map_append]
    exact List.mem_append_left _ hseg
  · obtain rfl : seg = String.ofList (piece' ++ ['x']) := by simpa using hseg
    have hlast : ∀ text : String, text.toList.getLast? ≠ some 'x' → String.ofList (piece' ++ ['x']) ≠ text := by
      rintro text htext rfl
      simp at htext
    exact ⟨hlast "" (by decide), hlast "." (by decide), hlast ".." (by decide)⟩

/-- **A reached entry** shares a path with the loose glob that reaches it. -/
theorem exists_common_of_reaches (hy : ownsPathProblem y = none) (h : Reaches x y) :
    ∃ q, RepoPath q ∧ EntryOwns x q ∧ EntryOwns y q := by
  obtain ⟨⟨hglob, -⟩, hle⟩ := h
  by_cases hyglob : isGlob y = true
  · have hletter : beforeGlob y <+: (String.ofList (beforeGlob y ++ ['x'])).toList := by
      rw [String.toList_ofList]
      exact List.prefix_append _ _
    refine ⟨_, repoPath_beforeGlob hy, ?_, ?_⟩
    · rw [EntryOwns, if_pos hglob]
      exact hle.trans hletter
    · rw [EntryOwns, if_pos hyglob]
      exact hletter
  · refine ⟨y, repoPath_of_owns hy, ?_, ?_⟩
    · rw [EntryOwns, if_pos hglob]
      exact hle.trans (beforeGlob_isInitial y)
    · rw [EntryOwns, if_neg hyglob]
      exact Or.inl rfl

end Entry

/-! ## Accepted descriptors -/

section Descriptor

variable {tasks : List Json} {t u : Json}

/-- Two entries of different tasks are not in conflict for the linter. -/
theorem Linted.no_conflict (hl : Linted tasks) (ht : t ∈ tasks) (hu : u ∈ tasks) {id uid : String}
    (hid : taskId t = some id) (huid : taskId u = some uid) (hne : id ≠ uid) {x y : String}
    (hx : x ∈ ownedPaths (t.member "owns")) (hy : y ∈ ownedPaths (u.member "owns")) :
    ¬ Conflict (normGlob x).toList (normGlob y).toList := by
  have hapart : (writeOwners tasks).Pairwise fun a b =>
      a.id ≠ b.id → ¬ Conflict (normGlob a.path).toList (normGlob b.path).toList := by
    refine hl.boundaries.imp fun h hids hconflict => ?_
    rw [← pathsOverlap_iff, h hids] at hconflict
    cases hconflict
  have hsymm : Std.Symm fun a b : WriteOwner =>
      a.id ≠ b.id → ¬ Conflict (normGlob a.path).toList (normGlob b.path).toList :=
    ⟨fun _ _ h hids hconflict => h hids.symm hconflict.symm⟩
  have howner : (⟨id, x⟩ : WriteOwner) ≠ ⟨uid, y⟩ := fun h => hne (congrArg WriteOwner.id h)
  have hboth := hapart.forall (hl.mem_writeOwners ht hid hx) (hl.mem_writeOwners hu huid hy) howner
  exact hboth hne

/-- Two accepted tasks share no path exactly when no loose glob of one reaches the other. -/
theorem Linted.disjoint_iff (hl : Linted tasks) (ht : t ∈ tasks) (hu : u ∈ tasks) {id uid : String}
    (hid : taskId t = some id) (huid : taskId u = some uid) (hne : id ≠ uid) :
    (∀ q, RepoPath q → ¬ (TaskOwns t q ∧ TaskOwns u q)) ↔
      ∀ x ∈ ownedPaths (t.member "owns"), ∀ y ∈ ownedPaths (u.member "owns"), ¬ Reaches x y ∧ ¬ Reaches y x := by
  have hvalid : ∀ {t : Json}, t ∈ tasks → ∀ x ∈ ownedPaths (t.member "owns"), ownsPathProblem x = none :=
    fun ht x hx => (hl.task _ ht).paths x hx
  constructor
  · intro hdisjoint x hx y hy
    constructor
    · intro hreach
      obtain ⟨q, hq, hxq, hyq⟩ := exists_common_of_reaches (hvalid hu y hy) hreach
      exact hdisjoint q hq ⟨⟨x, hx, hxq⟩, ⟨y, hy, hyq⟩⟩
    · intro hreach
      obtain ⟨q, hq, hyq, hxq⟩ := exists_common_of_reaches (hvalid ht x hx) hreach
      exact hdisjoint q hq ⟨⟨x, hx, hxq⟩, ⟨y, hy, hyq⟩⟩
  · rintro hapart q - ⟨⟨x, hx, hxq⟩, ⟨y, hy, hyq⟩⟩
    have hconflict := hl.no_conflict ht hu hid huid hne hx hy
    rcases List.prefix_or_prefix_of_prefix (owned_beforeGlob hxq) (owned_beforeGlob hyq) with hle | hle
    · exact (hapart x hx y hy).1 (reaches_of_common (hvalid ht x hx) (hvalid hu y hy) hconflict hxq hyq hle)
    · exact (hapart x hx y hy).2
        (reaches_of_common (hvalid hu y hy) (hvalid ht x hx) (fun h => hconflict h.symm) hyq hxq hle)

theorem Linted.ids_ne (hl : Linted tasks) :
    tasks.Pairwise fun t u => ∀ id, taskId t = some id → ∀ uid, taskId u = some uid → id ≠ uid :=
  List.pairwise_filterMap.mp hl.nodup

end Descriptor

/-- **An accepted descriptor has disjoint ownership** exactly when no loose glob of a task reaches an entry of
another one. -/
theorem accepted_ownership_disjoint_iff (doc : Json) (h : lintWorkstream doc = []) :
    OwnershipDisjoint (tasksOf doc) ↔ LooseGlobsApart (tasksOf doc) := by
  have hl := (linted_of_lint h).2
  have hpair : ∀ {t u : Json}, t ∈ tasksOf doc → u ∈ tasksOf doc →
      (∀ id, taskId t = some id → ∀ uid, taskId u = some uid → id ≠ uid) →
      ((∀ q, RepoPath q → ¬ (TaskOwns t q ∧ TaskOwns u q)) ↔
        ∀ x ∈ ownedPaths (t.member "owns"), ∀ y ∈ ownedPaths (u.member "owns"), ¬ Reaches x y ∧ ¬ Reaches y x) := by
    intro t u ht hu hne
    obtain ⟨id, hid, -⟩ := (hl.task t ht).id
    obtain ⟨uid, huid, -⟩ := (hl.task u hu).id
    exact hl.disjoint_iff ht hu hid huid (hne id hid uid huid)
  constructor
  · intro hdisjoint
    exact (hdisjoint.and hl.ids_ne).imp_of_mem fun ht hu hboth => (hpair ht hu hboth.2).mp hboth.1
  · intro hapart
    exact (hapart.and hl.ids_ne).imp_of_mem fun ht hu hboth => (hpair ht hu hboth.2).mpr hboth.1

namespace OwnershipSample

def ownerTask (id path : String) : Json := .object
  [("id", .string id), ("intent", .string "write it"), ("owns", .array [.string path]),
    ("validation", .string "npm test"), ("output", .string "a file")]

/-- Two tasks, one path each. -/
def ownerDoc (first second : String) : Json := .object
  [("workstream", .string "plans"), ("description", .string "two plans"),
    ("tasks", .array [ownerTask "a" first, ownerTask "b" second])]

theorem lint_segments : lintWorkstream (ownerDoc "src/**" "docs/plan-*") = [] := List.isEmpty_iff.mp (by decide)

theorem lint_plans : lintWorkstream (ownerDoc "plan-*" "plan-a") = [] := List.isEmpty_iff.mp (by decide)

theorem tasksOf_ownerDoc (first second : String) :
    tasksOf (ownerDoc first second) = [ownerTask "a" first, ownerTask "b" second] := rfl

theorem ownedPaths_ownerTask {path id : String} (h : (path.toList.all isJsSpace) = false) :
    ownedPaths ((ownerTask id path).member "owns") = [path] := by
  show [Json.string path].filterMap (fun v => nonEmptyString (some v)) = [path]
  have hsome : nonEmptyString (some (Json.string path)) = some path := by
    show Option.filter (fun s : String => !s.toList.all isJsSpace) (some path) = some path
    rw [Option.filter_some, h]
    rfl
  rw [List.filterMap_cons, hsome, List.filterMap_nil]

/-- Whole segments keep apart. -/
theorem accepted_ownership_disjoint_iff_segments : OwnershipDisjoint (tasksOf (ownerDoc "src/**" "docs/plan-*")) := by
  apply (accepted_ownership_disjoint_iff _ lint_segments).mpr
  rw [tasksOf_ownerDoc]
  apply List.pairwise_pair.mpr
  rw [ownedPaths_ownerTask (by decide), ownedPaths_ownerTask (by decide)]
  intro x hx y hy
  rw [List.mem_singleton.mp hx, List.mem_singleton.mp hy]
  constructor
  · rintro ⟨⟨-, hloose⟩, -⟩
    exact hloose (by decide)
  · rintro ⟨-, hprefix⟩
    exact absurd hprefix (by decide)

/-- A glob inside a segment and a path it stands for: the linter accepts both tasks, and both own the path. -/
theorem accepted_plans_share_a_path :
    lintWorkstream (ownerDoc "plan-*" "plan-a") = [] ∧ RepoPath "plan-a" ∧
      TaskOwns (ownerTask "a" "plan-*") "plan-a" ∧ TaskOwns (ownerTask "b" "plan-a") "plan-a" ∧
      ¬ OwnershipDisjoint (tasksOf (ownerDoc "plan-*" "plan-a")) := by
  have hpath : RepoPath "plan-a" := repoPath_of_owns (by decide)
  have hglob : TaskOwns (ownerTask "a" "plan-*") "plan-a" := by
    refine ⟨"plan-*", by rw [ownedPaths_ownerTask (by decide)]; exact List.mem_singleton_self _, ?_⟩
    rw [EntryOwns, if_pos (by decide)]
    decide
  have hplain : TaskOwns (ownerTask "b" "plan-a") "plan-a" := by
    refine ⟨"plan-a", by rw [ownedPaths_ownerTask (by decide)]; exact List.mem_singleton_self _, ?_⟩
    rw [EntryOwns, if_neg (by decide)]
    exact Or.inl rfl
  refine ⟨lint_plans, hpath, hglob, hplain, fun hdisjoint => ?_⟩
  rw [tasksOf_ownerDoc] at hdisjoint
  exact List.pairwise_pair.mp hdisjoint "plan-a" hpath ⟨hglob, hplain⟩

end OwnershipSample

end RallyPoint.Workstream
