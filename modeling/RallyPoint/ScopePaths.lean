/-
# RallyPoint.ScopePaths — what the paths of claim scopes mean (`resource_scope.rs`).

`canonical_path` writes a path without anything to walk around, and `path_contains` compares such texts. Both
are right about most paths. A canonical path leads where the path led unless the path climbs out of the
directory it starts in, which the pop on an empty stack forgets, or hides a root behind a leading `./`
(`canonicalPath_sameLocation`). Containment of texts is containment of component lists unless the container
is the root, whose text already ends in the separator that is appended (`conflictsWith_iff`).

Reading the canonical spelling of a scope gives the scope back, unless white space that stood inside the path
comes to stand at an end of the canonical one, where the next reading trims it (`parseClaimScope_spelling`).
-/
import RallyPoint.Lib.UnixPath
import RallyPoint.ResourceScope

namespace RallyPoint

open Lib

/-! ## The canonical path -/

/-- The path behind one leading `./`. -/
def dotless (raw : String) : String := (stripPrefix "./" raw).getD raw

/-- The canonical path is the text of what the path normalises to. -/
theorem canonicalPath_eq_text (raw : String) : canonicalPath raw = (NormalPath.of (dotless raw)).text := by
  have hnames : (NormalPath.of (dotless raw)).names = (split '/' (dotless raw)).foldl pushComponent [] :=
    locate_root _
  rw [NormalPath.text, hnames]
  rfl

section Path

variable {p q : String}

theorem dotless_of_startsWith (rest : String) : dotless ("./" ++ rest) = rest := by
  rw [dotless, stripPrefix_append, Option.getD_some]

theorem dotless_eq_self (h : startsWith "./" p = false) : dotless p = p := by
  rw [dotless, stripPrefix_eq_none h, Option.getD_none]

theorem split_dot_append (rest : String) : split '/' ("./" ++ rest) = "." :: split '/' rest := by
  have hdot : "./" ++ rest = "." ++ String.singleton '/' ++ rest := rfl
  rw [hdot, split_append_sep, split_of_notMem (by simp), List.singleton_append]

theorem not_isAbsolute_dot (rest : String) : isAbsolute ("./" ++ rest) = false := by
  rw [isAbsolute, startsWith, String.toList_append]
  rfl

/-- A leading `./` leads nowhere. -/
theorem locate_dotless (p : String) : locate [] (dotless p) = locate [] p := by
  cases h : startsWith "./" p with
  | false => rw [dotless_eq_self h]
  | true =>
    obtain ⟨rest, rfl⟩ := startsWith_iff.mp h
    rw [dotless_of_startsWith, locate_root, locate_root, split_dot_append, List.foldl_cons]
    rfl

/-- Behind it a root can appear. -/
theorem isAbsolute_dotless (p : String) : isAbsolute (dotless p) = (isAbsolute p || startsWith ".//" p) := by
  cases h : startsWith "./" p with
  | false =>
    have hdot : startsWith ".//" p = false := by
      rw [Bool.eq_false_iff] at h ⊢
      intro hdots
      obtain ⟨rest, rfl⟩ := startsWith_iff.mp hdots
      exact h (startsWith_iff.mpr ⟨"/" ++ rest, by rw [← String.append_assoc]; rfl⟩)
    rw [dotless_eq_self h, hdot, Bool.or_false]
  | true =>
    obtain ⟨rest, rfl⟩ := startsWith_iff.mp h
    rw [dotless_of_startsWith, not_isAbsolute_dot, Bool.false_or, isAbsolute, startsWith, startsWith,
      String.toList_append]
    rfl

/-- The paths `canonical_path` keeps in place: no root comes to light behind a leading `./`, and a relative
path does not climb out of the directory it starts in. -/
def KeepsPlace (p : String) : Prop := startsWith ".//" p = false ∧ (isAbsolute p = true ∨ climbs p = 0)

instance (p : String) : Decidable (KeepsPlace p) := inferInstanceAs (Decidable (_ ∧ _))

theorem sameLocation_canonicalPath_iff : SameLocation p (canonicalPath p) ↔ KeepsPlace p := by
  have hkind : isAbsolute (canonicalPath p) = (isAbsolute p || startsWith ".//" p) := by
    rw [canonicalPath_eq_text, NormalPath.isAbsolute_text, ← isAbsolute_dotless]
    rfl
  have hnames : locate [] (canonicalPath p) = locate [] p := by
    rw [canonicalPath_eq_text, NormalPath.locate_text, ← locate_dotless p]
    rfl
  have hclimbs : climbs (canonicalPath p) = 0 := by rw [canonicalPath_eq_text, NormalPath.climbs_text]
  have hroot : startsWith ".//" p = true → isAbsolute p = false := by
    intro h
    obtain ⟨rest, rfl⟩ := startsWith_iff.mp h
    have hdot : ".//" ++ rest = "./" ++ ("/" ++ rest) := by
      rw [← String.append_assoc]
      rfl
    rw [hdot, not_isAbsolute_dot]
  rw [sameLocation_iff, hkind, hnames, hclimbs, KeepsPlace]
  cases hdot : startsWith ".//" p with
  | true => simp [hroot hdot]
  | false => cases isAbsolute p <;> simp

/-- **Canonical paths denote the same path** exactly for the paths that keep their place; of those, two that
lead to different places never get one canonical path. -/
theorem canonicalPath_sameLocation (p : String) :
    (SameLocation p (canonicalPath p) ↔ KeepsPlace p) ∧
      ∀ q, KeepsPlace p → KeepsPlace q → canonicalPath p = canonicalPath q → SameLocation p q := by
  refine ⟨sameLocation_canonicalPath_iff, fun q hp hq heq => ?_⟩
  have hp' := sameLocation_canonicalPath_iff.mpr hp
  have hq' := sameLocation_canonicalPath_iff.mpr hq
  rw [heq] at hp'
  exact hp'.trans hq'.symm

/-- The sibling directory's file and the directory's own get one canonical path. -/
theorem canonicalPath_counterexample :
    ¬SameLocation "../x" (canonicalPath "../x") ∧
      canonicalPath "../x" = canonicalPath "x" ∧ ¬SameLocation "../x" "x" ∧
      canonicalPath ".//x" = canonicalPath "/x" ∧ ¬SameLocation ".//x" "/x" := by
  refine ⟨?_, by decide, ?_, by decide, ?_⟩
  · rw [sameLocation_canonicalPath_iff]
    decide
  · rw [sameLocation_iff]
    decide
  · rw [sameLocation_iff]
    decide

end Path

/-! ## Overlap -/

/-- The two types whose identifier is a path. -/
def ResourceType.isPath (t : ResourceType) : Bool := t == .file || t == .dir

/-- A directory holds another path: both are absolute or both relative, and its components come first. -/
def Holds (dir other : ResourceScope) : Prop :=
  dir.resourceType = .dir ∧ isAbsolute dir.identifier = isAbsolute other.identifier ∧
    components dir.identifier <+: components other.identifier

/-- Two paths overlap when they are one, or when one is a directory that holds the other. -/
def PathsOverlap (s t : ResourceScope) : Prop :=
  s.resourceType = t.resourceType ∧ s.identifier = t.identifier ∨ Holds s t ∨ Holds t s

/-- What a conflict should mean: it is mutual, and between paths that may not be held together it is overlap. -/
def ConflictMeansOverlap (s t : ResourceScope) : Prop :=
  s.conflictsWith t = t.conflictsWith s ∧
    (s.resourceType.isPath = true → t.resourceType.isPath = true →
      accessModesConflict s.access t.access = true → (s.conflictsWith t = true ↔ PathsOverlap s t))

/-- The root directory, asked about an absolute path below it. -/
def RootAbove (s t : ResourceScope) : Prop :=
  s.resourceType = .dir ∧ s.identifier = "/" ∧ t.resourceType.isPath = true ∧
    isAbsolute t.identifier = true ∧ t.identifier ≠ "/"

instance (s t : ResourceScope) : Decidable (RootAbove s t) := inferInstanceAs (Decidable (_ ∧ _))

/-- The resource type and the text of the identifier, as the separators cut them out of a scope. -/
def scopeText (raw : String) : Option (ResourceType × String) :=
  (splitOnce ':' (parseAccessPrefix (trim raw)).2).bind fun cut =>
    (parseResourceType cut.1).map fun type => (type, cut.2)

section Overlap

variable {raw raw' : String} {s t : ResourceScope} {p q : NormalPath}

/-- What an accepted scope says of its text. -/
theorem scopeText_of_parse (h : parseClaimScope raw = some s) :
    ∃ text, scopeText raw = some (s.resourceType, text) ∧
      s.identifier = canonicalIdentifier s.resourceType text ∧ s.identifier ≠ "" := by
  rw [parseClaimScope] at h
  dsimp only at h
  by_cases hmarker : ((trim raw).toList.isEmpty || isLineageOrMarkerScope (trim raw)) = true
  · rw [if_pos hmarker] at h
    cases h
  rw [if_neg hmarker] at h
  unfold scopeText
  cases hcut : splitOnce ':' (parseAccessPrefix (trim raw)).2 with
  | none =>
    rw [hcut] at h
    cases h
  | some cut =>
    obtain ⟨kind, text⟩ := cut
    rw [hcut] at h
    dsimp only at h
    cases htype : parseResourceType kind with
    | none =>
      rw [htype] at h
      cases h
    | some type =>
      rw [htype] at h
      dsimp only at h
      by_cases hempty : (canonicalIdentifier type text).toList.isEmpty = true
      · rw [if_pos hempty] at h
        cases h
      · rw [if_neg hempty] at h
        obtain rfl := Option.some.inj h
        refine ⟨text, by simp [htype], rfl, fun hnone : canonicalIdentifier type text = "" => hempty ?_⟩
        rw [hnone]
        rfl

theorem canonicalIdentifier_path {type : ResourceType} (h : type.isPath = true) (raw : String) :
    canonicalIdentifier type raw = canonicalPath (trim raw) := by
  simp only [ResourceType.isPath, Bool.or_eq_true, beq_iff_eq] at h
  rcases h with rfl | rfl <;> rfl

/-- The identifier of a path scope is the text of a path, and only the root has no names. -/
theorem exists_path_of_parse (h : parseClaimScope raw = some s) (hpath : s.resourceType.isPath = true) :
    ∃ p : NormalPath, s.identifier = p.text ∧ (p.names = [] → p.absolute = true) := by
  obtain ⟨text, -, hid, hne⟩ := scopeText_of_parse h
  rw [canonicalIdentifier_path hpath, canonicalPath_eq_text] at hid
  refine ⟨_, hid, fun hnil => ?_⟩
  by_contra hrel
  rw [Bool.not_eq_true] at hrel
  rw [hid, NormalPath.text, hrel, hnil] at hne
  exact hne rfl

/-- **Text containment is containment of the names,** except below the root. -/
theorem pathContains_text (hp : p.names = [] → p.absolute = true) :
    pathContains p.text q.text = true ↔
      p.absolute = q.absolute ∧ p.names <+: q.names ∧ (p.names = [] → q.names = []) := by
  have hself : (p.text == q.text) = true ↔ p.absolute = q.absolute ∧ p.names = q.names := by
    rw [beq_iff_eq]
    constructor
    · intro h
      rw [NormalPath.text_inj h]
      exact ⟨rfl, rfl⟩
    · rintro ⟨habs, hnames⟩
      rw [NormalPath.ext habs hnames]
  rw [pathContains, Bool.or_eq_true, hself]
  by_cases hnil : p.names = []
  · have hroot : p.text = "/" := by
      rw [NormalPath.text, hp hnil, hnil]
      rfl
    rw [hroot, NormalPath.not_startsWith_root, hnil]
    simp [eq_comm]
  · rw [NormalPath.startsWith_text_iff hnil]
    constructor
    · rintro (⟨habs, hnames⟩ | ⟨habs, hpre, -⟩)
      · exact ⟨habs, hnames ▸ List.prefix_rfl, fun h => absurd h hnil⟩
      · exact ⟨habs, hpre, fun h => absurd h hnil⟩
    · rintro ⟨habs, hpre, -⟩
      by_cases hnames : p.names = q.names
      · exact .inl ⟨habs, hnames⟩
      · exact .inr ⟨habs, hpre, hnames⟩

/-- Between paths the four questions are three. -/
theorem resourcesOverlap_path (hs : s.resourceType.isPath = true) (ht : t.resourceType.isPath = true) :
    resourcesOverlap s t = true ↔
      s.resourceType = t.resourceType ∧ s.identifier = t.identifier ∨
        s.resourceType = .dir ∧ pathContains s.identifier t.identifier = true ∨
        t.resourceType = .dir ∧ pathContains t.identifier s.identifier = true := by
  obtain ⟨stype, sid, sacc⟩ := s
  obtain ⟨ttype, tid, tacc⟩ := t
  simp only [ResourceType.isPath, Bool.or_eq_true, beq_iff_eq] at hs ht
  have hself : pathContains sid sid = true := by simp [pathContains]
  rcases hs with rfl | rfl <;> rcases ht with rfl | rfl <;>
    by_cases heq : sid = tid <;>
    simp [resourcesOverlap, ResourceType.isNamespaceRoot, heq]

theorem conflictsWith_of_modes (h : accessModesConflict s.access t.access = true) :
    s.conflictsWith t = resourcesOverlap s t := by
  rw [ResourceScope.conflictsWith, h]
  rfl

/-- What a directory holds, in names. -/
theorem holds_iff (hs : s.identifier = p.text) (ht : t.identifier = q.text) :
    Holds s t ↔ s.resourceType = .dir ∧ p.absolute = q.absolute ∧ p.names <+: q.names := by
  rw [Holds, hs, ht, NormalPath.isAbsolute_text, NormalPath.isAbsolute_text, NormalPath.components_text,
    NormalPath.components_text]

theorem holds_of_rootAbove (h : RootAbove s t) : Holds s t := by
  obtain ⟨hdir, hroot, -, habs, -⟩ := h
  have hempty : components "/" = [] := by decide
  refine ⟨hdir, ?_, ?_⟩
  · rw [hroot, habs]
    rfl
  · rw [hroot, hempty]
    exact List.nil_prefix

/-- The root is the path that is absolute and has no names. -/
theorem text_eq_root_iff : p.text = "/" ↔ p.absolute = true ∧ p.names = [] := by
  have hroot : (⟨true, [], by simp⟩ : NormalPath).text = "/" := rfl
  constructor
  · intro h
    rw [NormalPath.text_inj (h.trans hroot.symm)]
    exact ⟨rfl, rfl⟩
  · rintro ⟨habs, hnames⟩
    rw [NormalPath.text, habs, hnames]
    rfl

/-- Below the root, the text containment misses what the root holds; elsewhere it misses nothing. -/
theorem contains_iff_holds (hs : parseClaimScope raw = some s) (ht : parseClaimScope raw' = some t)
    (hsp : s.resourceType.isPath = true) (htp : t.resourceType.isPath = true) (hroot : ¬RootAbove s t) :
    s.resourceType = .dir ∧ pathContains s.identifier t.identifier = true ↔ Holds s t := by
  obtain ⟨p, hp, hpabs⟩ := exists_path_of_parse hs hsp
  obtain ⟨q, hq, -⟩ := exists_path_of_parse ht htp
  rw [holds_iff hp hq, hp, hq, pathContains_text hpabs]
  refine and_congr_right fun hdir => ⟨fun h => ⟨h.1, h.2.1⟩, fun h => ⟨h.1, h.2, fun hnil => ?_⟩⟩
  by_contra hne
  refine hroot ⟨hdir, ?_, htp, ?_, ?_⟩
  · rw [hp, text_eq_root_iff]
    exact ⟨hpabs hnil, hnil⟩
  · rw [hq, NormalPath.isAbsolute_text, ← h.1, hpabs hnil]
  · rw [hq, Ne, text_eq_root_iff]
    exact fun hq => hne hq.2

theorem not_overlap_of_rootAbove (hs : parseClaimScope raw = some s) (ht : parseClaimScope raw' = some t)
    (h : RootAbove s t) : ¬resourcesOverlap s t = true := by
  obtain ⟨hdir, hroot, htp, habs, hne⟩ := h
  have hsp : s.resourceType.isPath = true := by
    rw [hdir]
    rfl
  obtain ⟨p, hp, hpabs⟩ := exists_path_of_parse hs hsp
  obtain ⟨q, hq, hqabs⟩ := exists_path_of_parse ht htp
  have hpnil : p.names = [] := (text_eq_root_iff.mp (hp.symm.trans hroot)).2
  rw [hq, NormalPath.isAbsolute_text] at habs
  have hqnames : q.names ≠ [] := fun hnil => hne (hq.trans (text_eq_root_iff.mpr ⟨habs, hnil⟩))
  rw [resourcesOverlap_path hsp htp]
  rintro (⟨-, heq⟩ | ⟨-, hin⟩ | ⟨-, hin⟩)
  · exact hne (heq.symm.trans hroot)
  · rw [hp, hq, pathContains_text hpabs] at hin
    exact hqnames (hin.2.2 hpnil)
  · rw [hp, hq, pathContains_text hqabs, hpnil] at hin
    exact hqnames (List.prefix_nil.mp hin.2.1)

/-- **Scope conflict is symmetric and means path overlap** exactly when the scopes are not the root directory
and an absolute path below it, in modes that exclude each other. -/
theorem conflictsWith_iff (hs : parseClaimScope raw = some s) (ht : parseClaimScope raw' = some t) :
    ConflictMeansOverlap s t ↔
      ¬(accessModesConflict s.access t.access = true ∧ (RootAbove s t ∨ RootAbove t s)) := by
  have hmutual := conflictsWith_comm s t
  constructor
  · rintro ⟨-, hmeans⟩ ⟨hmodes, habove⟩
    have hsp : s.resourceType.isPath = true := by
      rcases habove with h | h
      · rw [h.1]
        rfl
      · exact h.2.2.1
    have htp : t.resourceType.isPath = true := by
      rcases habove with h | h
      · exact h.2.2.1
      · rw [h.1]
        rfl
    have hconflict : s.conflictsWith t = true :=
      (hmeans hsp htp hmodes).mpr (.inr (habove.imp holds_of_rootAbove holds_of_rootAbove))
    rw [conflictsWith_of_modes hmodes] at hconflict
    rcases habove with h | h
    · exact not_overlap_of_rootAbove hs ht h hconflict
    · rw [resourcesOverlap_comm] at hconflict
      exact not_overlap_of_rootAbove ht hs h hconflict
  · intro hrule
    refine ⟨hmutual, fun hsp htp hmodes => ?_⟩
    rw [conflictsWith_of_modes hmodes, resourcesOverlap_path hsp htp, PathsOverlap]
    have hst : ¬RootAbove s t := fun h => hrule ⟨hmodes, .inl h⟩
    have hts : ¬RootAbove t s := fun h => hrule ⟨hmodes, .inr h⟩
    exact or_congr_right
      (or_congr (contains_iff_holds hs ht hsp htp hst) (contains_iff_holds ht hs htp hsp hts))

end Overlap

theorem conflictsWith_iff_dir :
    ConflictMeansOverlap ⟨.dir, "src", .namespace⟩ ⟨.file, "src/lib.rs", .exclusive⟩ :=
  (@conflictsWith_iff "dir:src/" "file:./src/lib.rs" _ _ (by decide) (by decide)).mpr (by decide)

/-- The root directory holds every absolute path, and conflicts with none below it. -/
theorem conflictsWith_counterexample :
    parseClaimScope "dir:/" = some ⟨.dir, "/", .namespace⟩ ∧
      parseClaimScope "file:/src/lib.rs" = some ⟨.file, "/src/lib.rs", .exclusive⟩ ∧
      PathsOverlap ⟨.dir, "/", .namespace⟩ ⟨.file, "/src/lib.rs", .exclusive⟩ ∧
      accessModesConflict .namespace .exclusive = true ∧
      (⟨.dir, "/", .namespace⟩ : ResourceScope).conflictsWith ⟨.file, "/src/lib.rs", .exclusive⟩ = false :=
  ⟨by decide, by decide, .inr (.inl (holds_of_rootAbove (by decide))), by decide, by decide⟩

/-! ## Reading the canonical spelling -/

/-- The name of an access mode, as records carry it. -/
def AccessMode.asStr : AccessMode → String
  | .exclusive => "exclusive"
  | .sharedRead => "shared_read"
  | .advisory => "advisory"
  | .namespace => "namespace"

/-- A scope with its access mode in front of its canonical key. -/
def ResourceScope.spelling (scope : ResourceScope) : String := scope.access.asStr ++ ":" ++ scope.canonicalKey

/-- White space comes to stand at an end of the canonical path: the first name it keeps begins with some (and
no separator stands before it), or the last name ends with some. -/
def BlankEdge (path : String) : Prop :=
  isAbsolute (dotless path) = false ∧ (locate [] path).head?.any startsBlank = true ∨
    (locate [] path).getLast?.any endsBlank = true

instance (path : String) : Decidable (BlankEdge path) := inferInstanceAs (Decidable (_ ∨ _))

section Spelling

variable {raw path : String} {s : ResourceScope} {type : ResourceType}

/-- A scope spelled with an access mode and the name of its type. -/
theorem parseClaimScope_spelled (access : AccessMode) (type : ResourceType) (raw : String) :
    parseClaimScope (access.asStr ++ ":" ++ (type.asStr ++ ":" ++ raw)) =
      if canonicalIdentifier type raw = "" then none
      else some ⟨type, canonicalIdentifier type raw, access⟩ := by
  have htrim : trim (access.asStr ++ ":" ++ (type.asStr ++ ":" ++ raw)) =
      access.asStr ++ ":" ++ (type.asStr ++ ":" ++ trimEnd raw) := by
    have haccess : (access.asStr.toList.all fun c => !isWhitespace c) = true := by cases access <;> decide
    have htype : (type.asStr.toList.all fun c => !isWhitespace c) = true := by cases type <;> decide
    have hcolon : (":".toList.all fun c => !isWhitespace c) = true := by decide
    rw [← String.append_assoc, ← String.append_assoc, ← String.append_assoc, ← String.append_assoc]
    apply trim_append
    · simp only [String.toList_append, List.all_append, haccess, htype, hcolon, Bool.and_self]
    · simp
  have hid : canonicalIdentifier type (trimEnd raw) = canonicalIdentifier type raw := by
    simp only [canonicalIdentifier, trim_trimEnd]
  have hcut : ∀ rest, splitOnce ':' (access.asStr ++ ":" ++ rest) = some (access.asStr, rest) := fun rest =>
    splitOnce_append (by cases access <;> decide)
  have hcut' : splitOnce ':' (type.asStr ++ ":" ++ trimEnd raw) = some (type.asStr, trimEnd raw) :=
    splitOnce_append (by cases type <;> decide)
  have haccess : ∀ rest, parseAccessPrefix (access.asStr ++ ":" ++ rest) = (some access, rest) := by
    intro rest
    rw [parseAccessPrefix, hcut]
    cases access <;> simp [AccessMode.asStr]
  have hmarker : ∀ rest, isLineageOrMarkerScope (access.asStr ++ ":" ++ rest) = false := by
    intro rest
    -- the two whole-word markers have no colon, the others begin with another word
    have hword : ∀ word, splitOnce ':' word = none → (access.asStr ++ ":" ++ rest == word) = false := by
      intro word hnone
      rw [beq_eq_false_iff_ne]
      rintro rfl
      rw [hcut] at hnone
      cases hnone
    have hpre : ∀ pre, startsWith pre (access.asStr ++ ":") = false →
        startsWith (access.asStr ++ ":") pre = false → startsWith pre (access.asStr ++ ":" ++ rest) = false :=
      fun pre h h' => startsWith_append_of_apart h h' rest
    rw [isLineageOrMarkerScope, hword "external-intake" (by decide), hword "backlog-item" (by decide)]
    simp only [Bool.or_eq_false_iff, Bool.or_self, true_and]
    refine ⟨⟨⟨⟨⟨?_, ?_⟩, ?_⟩, ?_⟩, ?_⟩, ?_⟩ <;> apply hpre <;> cases access <;> decide
  have htype : parseResourceType type.asStr = some type := by cases type <;> rfl
  have hne : (access.asStr ++ ":" ++ (type.asStr ++ ":" ++ trimEnd raw)).toList.isEmpty = false := by simp
  rw [parseClaimScope, htrim]
  simp only [hne, hmarker, haccess, hcut', htype, hid, Bool.or_false, Bool.false_eq_true, if_false,
    Option.getD_some]
  simp

/-- The parts of a cross-repo identifier are sorted, distinct, trimmed and without the separator. -/
theorem crossRepo_idem (raw : String) :
    canonicalIdentifier .crossRepo (canonicalIdentifier .crossRepo raw) = canonicalIdentifier .crossRepo raw := by
  let parts := fun text => ((split '+' text).map trim).filter (fun part => !part.toList.isEmpty)
  have hid : ∀ text, canonicalIdentifier .crossRepo text = join "+" (sortDedup (parts (trim text))) := fun _ => rfl
  have hparts : ∀ part ∈ sortDedup (parts (trim raw)),
      part ≠ "" ∧ trim part = part ∧ '+' ∉ part.toList := by
    intro part hpart
    rw [mem_sortDedup, List.mem_filter, List.mem_map] at hpart
    obtain ⟨⟨piece, hpiece, rfl⟩, hne⟩ := hpart
    refine ⟨fun h => by simp [h] at hne, trim_trim piece, fun hsep => ?_⟩
    exact notMem_of_mem_split hpiece ((trim_sublist piece).subset hsep)
  rw [hid, hid raw]
  generalize hlist : sortDedup (parts (trim raw)) = l at hparts ⊢
  have hsorted : sortDedup l = l := by rw [← hlist, sortDedup_sortDedup]
  have hedges : trim (join "+" l) = join "+" l := by
    have hne : ∀ part ∈ l, part ≠ "" := fun part hpart => (hparts part hpart).1
    rw [trim_eq_self_iff, startsBlank_join hne, endsBlank_join hne]
    constructor
    · cases hhead : l.head? with
      | none => rfl
      | some part => exact (trim_eq_self_iff.mp (hparts part (List.mem_of_mem_head? hhead)).2.1).1
    · cases hlast : l.getLast? with
      | none => rfl
      | some part => exact (trim_eq_self_iff.mp (hparts part (List.mem_of_getLast? hlast)).2.1).2
  have hback : parts (join "+" l) = l := by
    by_cases hnil : l = []
    · rw [hnil]
      decide
    · have hsplit : split '+' (join "+" l) = l := split_join hnil fun part hpart => (hparts part hpart).2.2
      have htrim : l.map trim = l := by
        refine (List.map_congr_left fun part hpart => ?_).trans (List.map_id l)
        exact (hparts part hpart).2.1
      show ((split '+' (join "+" l)).map trim).filter _ = l
      rw [hsplit, htrim, List.filter_eq_self]
      intro part hpart
      have hlist : part.toList ≠ [] := fun h => (hparts part hpart).1 (String.toList_inj.mp h)
      simpa using hlist
  rw [hedges, hback, hsorted]

/-- No white space stands in a printed number. -/
theorem trim_toString (n : Nat) : trim (toString n) = toString n := trim_of_noBlank (noBlank_toString n)

/-- Apart from paths, every canonical identifier is its own. -/
theorem canonicalIdentifier_idem (h : type.isPath = false) (raw : String) :
    canonicalIdentifier type (canonicalIdentifier type raw) = canonicalIdentifier type raw := by
  cases type with
  | file => exact absurd h (by decide)
  | dir => exact absurd h (by decide)
  | port =>
    cases hport : parseU16 (trim raw) with
    | none =>
      have hid : canonicalIdentifier .port raw = trim raw := by rw [canonicalIdentifier, hport]
      rw [hid, canonicalIdentifier, trim_trim, hport]
    | some n =>
      have hlt : n < 65536 := by
        unfold parseU16 at hport
        split at hport
        · split at hport
          · rwa [← Option.some.inj hport]
          · cases hport
        · cases hport
      have hid : canonicalIdentifier .port raw = toString n := by rw [canonicalIdentifier, hport]
      rw [hid, canonicalIdentifier, trim_toString, parseU16_toString hlt]
  | commit =>
    have hedges : trim (toAsciiLowercase (trim raw)) = toAsciiLowercase (trim raw) := by
      obtain ⟨hstart, hend⟩ := trim_eq_self_iff.mp (trim_trim raw)
      rw [trim_eq_self_iff, startsBlank, endsBlank, toAsciiLowercase, String.toList_ofList, List.head?_map,
        List.getLast?_map, Option.any_map, Option.any_map]
      simp only [isWhitespace_asciiLowerChar]
      exact ⟨hstart, hend⟩
    rw [canonicalIdentifier, canonicalIdentifier, hedges, toAsciiLowercase, toAsciiLowercase,
      String.toList_ofList, List.map_map]
    have hsame : asciiLowerChar ∘ asciiLowerChar = asciiLowerChar := funext asciiLowerChar_idem
    rw [hsame]
  | crossRepo => exact crossRepo_idem raw
  | workspace => exact trim_trim raw
  | repo => exact trim_trim raw
  | branch => exact trim_trim raw
  | process => exact trim_trim raw
  | service => exact trim_trim raw
  | task => exact trim_trim raw

/-- A canonical path is canonical again once it is trimmed, exactly when there is nothing to trim. -/
theorem canonicalPath_trim_iff :
    canonicalPath (trim (canonicalPath path)) = canonicalPath path ↔ ¬BlankEdge path := by
  have hedges : trim (canonicalPath path) = canonicalPath path ↔ ¬BlankEdge path := by
    have hnames : (NormalPath.of (dotless path)).names = locate [] path := locate_dotless path
    rw [canonicalPath_eq_text, trim_eq_self_iff, NormalPath.startsBlank_text, NormalPath.endsBlank_text, hnames,
      BlankEdge, not_or, Bool.not_eq_true, ← Bool.not_eq_true, Bool.and_eq_true, Bool.not_eq_true']
    rfl
  rw [← hedges]
  constructor
  · intro h
    -- each of the two steps can only lose characters, and together they lose none
    have hcanonical : (canonicalPath (trim (canonicalPath path))).toList.Sublist
        (trim (canonicalPath path)).toList := by
      rw [canonicalPath_eq_text]
      refine (NormalPath.text_of_sublist _).trans ?_
      cases hdot : startsWith "./" (trim (canonicalPath path)) with
      | false => rw [dotless_eq_self hdot]
      | true =>
        obtain ⟨rest, hrest⟩ := startsWith_iff.mp hdot
        rw [hrest, dotless_of_startsWith, String.toList_append]
        exact List.sublist_append_right _ _
    rw [h] at hcanonical
    exact String.toList_inj.mp ((trim_sublist _).antisymm hcanonical)
  · intro h
    rw [h, canonicalPath_eq_text (canonicalPath path), canonicalPath_eq_text path,
      dotless_eq_self (NormalPath.not_startsWith_dot _), NormalPath.of_text]

/-- **Scope parsing is idempotent** exactly when the path of the scope keeps no white space at an end. -/
theorem parseClaimScope_spelling (h : parseClaimScope raw = some s) :
    parseClaimScope s.spelling = some s ↔
      ¬∃ type text, scopeText raw = some (type, text) ∧ type.isPath = true ∧ BlankEdge (trim text) := by
  obtain ⟨text, htext, hid, hne⟩ := scopeText_of_parse h
  have hreads : parseClaimScope s.spelling = some s ↔
      canonicalIdentifier s.resourceType s.identifier = s.identifier := by
    rw [ResourceScope.spelling, ResourceScope.canonicalKey, parseClaimScope_spelled]
    constructor
    · intro hsome
      split at hsome
      · cases hsome
      · exact congrArg ResourceScope.identifier (Option.some.inj hsome)
    · intro hsame
      rw [hsame, if_neg hne]
  have hkind : (∃ type text, scopeText raw = some (type, text) ∧ type.isPath = true ∧ BlankEdge (trim text)) ↔
      s.resourceType.isPath = true ∧ BlankEdge (trim text) := by
    constructor
    · rintro ⟨type, text', htext', hpath, hblank⟩
      obtain ⟨rfl, rfl⟩ := Prod.mk.inj (Option.some.inj (htext.symm.trans htext'))
      exact ⟨hpath, hblank⟩
    · exact fun hpath => ⟨_, _, htext, hpath⟩
  rw [hreads, hkind, hid]
  cases hpath : s.resourceType.isPath with
  | false => simp [canonicalIdentifier_idem hpath]
  | true =>
    rw [canonicalIdentifier_path hpath, canonicalIdentifier_path hpath, canonicalPath_trim_iff]
    simp

end Spelling

theorem parseClaimScope_spelling_port :
    parseClaimScope (⟨.port, "80", .exclusive⟩ : ResourceScope).spelling = some ⟨.port, "80", .exclusive⟩ :=
  (@parseClaimScope_spelling "port: +080" _ (by decide)).mpr (by
    rintro ⟨type, text, htext, hpath, -⟩
    have hport : scopeText "port: +080" = some (.port, " +080") := by decide
    obtain ⟨rfl, -⟩ := Prod.mk.inj (Option.some.inj (hport.symm.trans htext))
    cases hpath)

/-- A directory name that ends in a blank, with a separator behind it. -/
theorem parseClaimScope_spelling_counterexample :
    parseClaimScope "file:notes /" = some ⟨.file, "notes ", .exclusive⟩ ∧
      (⟨.file, "notes ", .exclusive⟩ : ResourceScope).spelling = "exclusive:file:notes " ∧
      parseClaimScope "exclusive:file:notes " = some ⟨.file, "notes", .exclusive⟩ := by
  decide

end RallyPoint
