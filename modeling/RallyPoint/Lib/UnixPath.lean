/-
# RallyPoint.Lib.UnixPath — Unix paths as text, and the places they lead to.

A path is walked component by component: an empty component and `.` stay, `..` goes up (and stays at the
root), a name goes down (`walk`). Where a relative path leads depends on the directory it is walked from, but
only through the number of directories it climbs out of before it goes down (`locate_relative`). Two texts
mean the same place when they lead there from every directory that lies deep enough (`sameLocation_iff`).

`NormalPath` is a path without anything to walk around. Its text can be read back, and one text lies below
another exactly when the names do (`startsWith_text_iff`); the root, whose text already ends in a separator,
is the exception (`not_startsWith_root`).
-/
import RallyPoint.Lib.Pieces

namespace RallyPoint.Lib

/-! ## Walking -/

/-- A component that names an entry of its directory. -/
def IsName (c : String) : Prop := c ≠ "" ∧ c ≠ "." ∧ c ≠ ".." ∧ '/' ∉ c.toList

instance (c : String) : Decidable (IsName c) := inferInstanceAs (Decidable (_ ∧ _))

/-- A directory, by the names that lead to it from the root. -/
structure Directory where
  names : List String
  valid : ∀ c ∈ names, IsName c

/-- One component from a directory: up at the root stays at the root. -/
def walk (dir : List String) (c : String) : List String :=
  if c = "" ∨ c = "." then dir else if c = ".." then dir.dropLast else dir ++ [c]

def isAbsolute (p : String) : Bool := startsWith "/" p

/-- Where a path leads from a working directory, by names. -/
def locate (cwd : List String) (p : String) : List String :=
  (split '/' p).foldl walk (if isAbsolute p then [] else cwd)

/-- The components of a path, as its text shows them. -/
def components (p : String) : List String := (split '/' p).filter fun c => c != ""

/-- Two paths of one kind that lead to the same place from every directory deep enough for both. -/
def SameLocation (p q : String) : Prop :=
  isAbsolute p = isAbsolute q ∧
    ∃ depth, ∀ cwd : Directory, depth ≤ cwd.names.length → locate cwd.names p = locate cwd.names q

/-- What components do from wherever they are walked: the directories they leave, then the names they enter. -/
def drift (s : Nat × List String) (c : String) : Nat × List String :=
  if c = "" ∨ c = "." then s
  else if c = ".." then if s.2 = [] then (s.1 + 1, []) else (s.1, s.2.dropLast)
  else (s.1, s.2 ++ [c])

/-- How many directories a path climbs out of. -/
def climbs (p : String) : Nat := ((split '/' p).foldl drift (0, [])).1

theorem SameLocation.symm {p q : String} (h : SameLocation p q) : SameLocation q p := by
  obtain ⟨hkind, depth, h⟩ := h
  exact ⟨hkind.symm, depth, fun cwd hcwd => (h cwd hcwd).symm⟩

theorem SameLocation.trans {p q r : String} (h : SameLocation p q) (h' : SameLocation q r) :
    SameLocation p r := by
  obtain ⟨hkind, depth, h⟩ := h
  obtain ⟨hkind', depth', h'⟩ := h'
  refine ⟨hkind.trans hkind', max depth depth', fun cwd hcwd => ?_⟩
  exact (h cwd ((le_max_left _ _).trans hcwd)).trans (h' cwd ((le_max_right _ _).trans hcwd))

section Walking

variable {p q c : String} {dir cwd : List String}

theorem walk_name (h : IsName c) : walk dir c = dir ++ [c] := by
  rw [walk, if_neg (by simp [h.1, h.2.1]), if_neg h.2.2.1]

theorem foldl_walk_names {names : List String} (h : ∀ c ∈ names, IsName c) :
    names.foldl walk dir = dir ++ names := by
  induction names generalizing dir with
  | nil => simp
  | cons c names ih =>
    rw [List.forall_mem_cons] at h
    rw [List.foldl_cons, walk_name h.1, ih h.2, List.append_assoc, List.singleton_append]

/-- Walking from a directory ends in a directory. -/
theorem valid_foldl_walk {cs : List String} (hcs : ∀ c ∈ cs, '/' ∉ c.toList) (hdir : ∀ c ∈ dir, IsName c) :
    ∀ c ∈ cs.foldl walk dir, IsName c := by
  induction cs generalizing dir with
  | nil => exact hdir
  | cons c cs ih =>
    rw [List.forall_mem_cons] at hcs
    refine ih hcs.2 ?_
    rw [walk]
    by_cases hstay : c = "" ∨ c = "."
    · rw [if_pos hstay]
      exact hdir
    · rw [if_neg hstay]
      by_cases hup : c = ".."
      · rw [if_pos hup]
        exact fun x hx => hdir x (List.dropLast_subset _ hx)
      · rw [if_neg hup]
        rw [not_or] at hstay
        intro x hx
        rcases List.mem_append.mp hx with hx | hx
        · exact hdir x hx
        · rw [List.mem_singleton.mp hx]
          exact ⟨hstay.1, hstay.2, hup, hcs.1⟩

theorem locate_root (p : String) : locate [] p = (split '/' p).foldl walk [] := by
  rw [locate, ite_self]

theorem valid_locate_root (p : String) : ∀ c ∈ locate [] p, IsName c := by
  rw [locate_root]
  exact valid_foldl_walk (fun c hc => notMem_of_mem_split hc) (by simp)

/-- What is left of the components that were walked. -/
theorem foldl_walk_sublist (cs : List String) : (cs.foldl walk []).Sublist cs := by
  induction cs using List.reverseRecOn with
  | nil => exact .refl _
  | append_singleton cs c ih =>
    rw [List.foldl_concat, walk]
    split
    · exact ih.trans (List.sublist_append_left _ _)
    · split
      · exact ((List.dropLast_sublist _).trans ih).trans (List.sublist_append_left _ _)
      · exact ih.append (.refl _)

/-- **The directory a walk starts from** shows in its end only as far as the walk does not climb out of it. -/
theorem foldl_walk_eq (cwd cs : List String) :
    cs.foldl walk cwd =
      cwd.take (cwd.length - (cs.foldl drift (0, [])).1) ++ (cs.foldl drift (0, [])).2 := by
  induction cs using List.reverseRecOn with
  | nil => simp
  | append_singleton cs c ih =>
    rw [List.foldl_concat, List.foldl_concat, ih]
    generalize cs.foldl drift (0, []) = s
    obtain ⟨up, names⟩ := s
    rw [walk, drift]
    by_cases hstay : c = "" ∨ c = "."
    · rw [if_pos hstay, if_pos hstay]
    · rw [if_neg hstay, if_neg hstay]
      by_cases hup : c = ".."
      · rw [if_pos hup, if_pos hup]
        by_cases hnames : names = []
        · subst hnames
          rw [if_pos rfl, List.append_nil, List.append_nil, List.dropLast_eq_take, List.take_take,
            List.length_take]
          congr 1
          simp only
          omega
        · rw [if_neg hnames, List.dropLast_append_of_ne_nil hnames]
      · rw [if_neg hup, if_neg hup, List.append_assoc]

theorem locate_absolute (h : isAbsolute p = true) (cwd : List String) : locate cwd p = locate [] p := by
  rw [locate, locate, h, if_pos rfl, if_pos rfl]

theorem locate_relative (h : isAbsolute p = false) (cwd : List String) :
    locate cwd p = cwd.take (cwd.length - climbs p) ++ locate [] p := by
  rw [locate, locate, h, if_neg (by simp), if_neg (by simp), foldl_walk_eq, foldl_walk_eq [], List.take_nil,
    List.nil_append, climbs]

/-- Lists that agree behind copies of one element, and behind copies of another. -/
theorem replicate_append_inj {α : Type*} {a b : α} (hab : a ≠ b) {m n : Nat} {xs ys : List α}
    (ha : List.replicate m a ++ xs = List.replicate n a ++ ys)
    (hb : List.replicate m b ++ xs = List.replicate n b ++ ys) : m = n ∧ xs = ys := by
  induction m generalizing n with
  | zero =>
    cases n with
    | zero => exact ⟨rfl, ha⟩
    | succ n =>
      -- the first of `xs` would be both
      rw [List.replicate_zero, List.nil_append, List.replicate_succ, List.cons_append] at ha hb
      exact absurd (List.cons.inj (ha.symm.trans hb)).1 hab
  | succ m ih =>
    cases n with
    | zero =>
      rw [List.replicate_zero, List.nil_append, List.replicate_succ, List.cons_append] at ha hb
      exact absurd (List.cons.inj (ha.trans hb.symm)).1 hab
    | succ n =>
      rw [List.replicate_succ, List.replicate_succ, List.cons_append, List.cons_append] at ha hb
      obtain ⟨hmn, hxy⟩ := ih (List.cons.inj ha).2 (List.cons.inj hb).2
      exact ⟨congrArg _ hmn, hxy⟩

/-- **The place of a path** is its kind, the names it ends with, and for a relative path how far it climbs. -/
theorem sameLocation_iff :
    SameLocation p q ↔ isAbsolute p = isAbsolute q ∧ locate [] p = locate [] q ∧
      (isAbsolute p = false → climbs p = climbs q) := by
  constructor
  · rintro ⟨hkind, depth, h⟩
    have hcopies : ∀ c, IsName c → ∀ n, depth ≤ n →
        locate (List.replicate n c) p = locate (List.replicate n c) q := by
      intro c hc n hn
      refine h ⟨List.replicate n c, fun x hx => (List.eq_of_mem_replicate hx) ▸ hc⟩ ?_
      rwa [List.length_replicate]
    refine ⟨hkind, ?_⟩
    cases hp : isAbsolute p with
    | true =>
      have ha := hcopies "a" (by decide) depth le_rfl
      rw [locate_absolute hp, locate_absolute (hkind.symm.trans hp)] at ha
      exact ⟨ha, by simp⟩
    | false =>
      have htake : ∀ c, IsName c →
          List.replicate (depth + climbs p + climbs q - climbs p) c ++ locate [] p =
            List.replicate (depth + climbs p + climbs q - climbs q) c ++ locate [] q := by
        intro c hc
        have heq := hcopies c hc (depth + climbs p + climbs q) (by omega)
        rwa [locate_relative hp, locate_relative (hkind.symm.trans hp), List.length_replicate,
          List.take_replicate, List.take_replicate, min_eq_left (Nat.sub_le _ _),
          min_eq_left (Nat.sub_le _ _)] at heq
      obtain ⟨hclimbs, hnames⟩ :=
        replicate_append_inj (by decide) (htake "a" (by decide)) (htake "b" (by decide))
      exact ⟨hnames, fun _ => by omega⟩
  · rintro ⟨hkind, hnames, hclimbs⟩
    refine ⟨hkind, 0, fun cwd _ => ?_⟩
    cases hp : isAbsolute p with
    | true => rw [locate_absolute hp, locate_absolute (hkind.symm.trans hp), hnames]
    | false =>
      rw [locate_relative hp, locate_relative (hkind.symm.trans hp), hnames, hclimbs hp]

end Walking

/-! ## Normal paths -/

/-- A path without empty, `.` or `..` components. -/
structure NormalPath where
  absolute : Bool
  names : List String
  valid : ∀ c ∈ names, IsName c

namespace NormalPath

variable {p q : NormalPath}

theorem ext (habs : p.absolute = q.absolute) (hnames : p.names = q.names) : p = q := by
  cases p
  cases q
  simp_all

def text (p : NormalPath) : String :=
  if p.absolute then "/" ++ join "/" p.names else join "/" p.names

/-- What a path normalises to when a climb stops where the path starts. -/
def of (p : String) : NormalPath := ⟨isAbsolute p, locate [] p, valid_locate_root p⟩

/-- The pieces of the text behind the leading separator. -/
def pieces (p : NormalPath) : List String := if p.names = [] then [""] else p.names

theorem notMem_names (p : NormalPath) : ∀ c ∈ p.names, '/' ∉ c.toList := fun c hc => (p.valid c hc).2.2.2

theorem empty_notMem_names (p : NormalPath) : "" ∉ p.names := fun h => (p.valid "" h).1 rfl

/-- The only empty piece stands alone. -/
theorem eq_nil_of_pieces {l : List String} (h : p.pieces = "" :: l) : l = [] := by
  rw [pieces] at h
  split at h
  · exact (List.cons.inj h).2.symm
  · exact absurd (h ▸ List.mem_cons_self) p.empty_notMem_names

theorem split_join_names (p : NormalPath) : split '/' (join "/" p.names) = p.pieces := by
  rw [pieces]
  split
  case isTrue h =>
    rw [h]
    rfl
  case isFalse h => exact split_join h p.notMem_names

/-- A leading separator, as one between an empty piece and the rest. -/
theorem root_append (rest : String) : "/" ++ rest = "" ++ String.singleton '/' ++ rest := by
  rw [String.empty_append]
  rfl

theorem split_root_append (rest : String) : split '/' ("/" ++ rest) = "" :: split '/' rest := by
  rw [root_append, split_append_sep, split_of_notMem (by simp), List.singleton_append]

theorem split_text (p : NormalPath) : split '/' p.text = (if p.absolute then [""] else []) ++ p.pieces := by
  rw [text]
  cases p.absolute with
  | false => exact p.split_join_names
  | true =>
    rw [if_pos rfl, split_root_append, split_join_names]
    rfl

theorem foldl_pieces {σ : Type*} (f : σ → String → σ) (hempty : ∀ s, f s "" = s) (p : NormalPath) (s : σ) :
    (split '/' p.text).foldl f s = p.names.foldl f s := by
  have hpieces : p.pieces.foldl f s = p.names.foldl f s := by
    rw [pieces]
    split
    case isTrue h => rw [h, List.foldl_cons, List.foldl_nil, List.foldl_nil, hempty]
    case isFalse => rfl
  rw [split_text, List.foldl_append, ← hpieces]
  cases p.absolute with
  | false => rfl
  | true => rw [if_pos rfl, List.foldl_cons, List.foldl_nil, hempty]

@[simp]
theorem isAbsolute_text (p : NormalPath) : isAbsolute p.text = p.absolute := by
  rw [text]
  cases hp : p.absolute with
  | true => exact startsWith_iff.mpr ⟨_, rfl⟩
  | false =>
    rw [Bool.eq_false_iff]
    intro h
    obtain ⟨rest, hrest⟩ := startsWith_iff.mp h
    have hsplit := p.split_text
    rw [text, hp, hrest, split_root_append] at hsplit
    -- an empty first piece is not a name, and it is not the only piece
    exact split_ne_nil _ _ (eq_nil_of_pieces hsplit.symm)

@[simp]
theorem locate_text (p : NormalPath) : locate [] p.text = p.names := by
  rw [locate_root, foldl_pieces walk (fun _ => by simp [walk]), foldl_walk_names p.valid, List.nil_append]

@[simp]
theorem climbs_text (p : NormalPath) : climbs p.text = 0 := by
  have hnames : ∀ names : List String, (∀ c ∈ names, IsName c) → ∀ s : Nat × List String,
      (names.foldl drift s).1 = s.1 := by
    intro names
    induction names with
    | nil => exact fun _ _ => rfl
    | cons c names ih =>
      intro h s
      rw [List.forall_mem_cons] at h
      rw [List.foldl_cons, ih h.2, drift, if_neg (by simp [h.1.1, h.1.2.1]), if_neg h.1.2.2.1]
  rw [climbs, foldl_pieces drift (fun _ => by simp [drift]), hnames _ p.valid]

@[simp]
theorem of_text (p : NormalPath) : of p.text = p := ext p.isAbsolute_text p.locate_text

theorem text_inj (h : p.text = q.text) : p = q := by rw [← of_text p, h, of_text]

/-- A text is no shorter than what it normalises to. -/
theorem text_of_sublist (p : String) : (of p).text.toList.Sublist p.toList := by
  cases hp : isAbsolute p with
  | false =>
    have hjoin := join_split '/' p
    have hsub : ((split '/' p).foldl walk []).Sublist (split '/' p) := foldl_walk_sublist _
    have hnames : (of p).names = (split '/' p).foldl walk [] := locate_root p
    have hsub' := @join_sublist _ _ "/" hsub
    rw [show join "/" (split '/' p) = p from hjoin] at hsub'
    rwa [text, show (of p).absolute = false from hp, if_neg (by simp), hnames]
  | true =>
    obtain ⟨rest, rfl⟩ := startsWith_iff.mp hp
    have hnames : (of ("/" ++ rest)).names = (split '/' rest).foldl walk [] := by
      refine (locate_root _).trans ?_
      rw [split_root_append, List.foldl_cons]
      rfl
    have hsub := @join_sublist _ _ "/" (foldl_walk_sublist (split '/' rest))
    have hjoin : join "/" (split '/' rest) = rest := join_split '/' rest
    rw [hjoin] at hsub
    rw [text, show (of ("/" ++ rest)).absolute = true from hp, if_pos rfl, hnames, String.toList_append,
      String.toList_append]
    exact (List.Sublist.refl _).append hsub

/-! ### What the text shows -/

theorem components_text (p : NormalPath) : components p.text = p.names := by
  have hnames : p.names.filter (fun c => c != "") = p.names := by
    refine List.filter_eq_self.mpr fun c hc => ?_
    simpa using (p.valid c hc).1
  have hpieces : p.pieces.filter (fun c => c != "") = p.names := by
    rw [pieces]
    split
    case isTrue h => simp [h]
    case isFalse => exact hnames
  rw [components, split_text, List.filter_append, hpieces]
  cases p.absolute <;> simp

theorem names_ne_empty (p : NormalPath) : ∀ c ∈ p.names, c ≠ "" := fun c hc => (p.valid c hc).1

theorem startsBlank_text (p : NormalPath) :
    startsBlank p.text = (!p.absolute && p.names.head?.any startsBlank) := by
  rw [text]
  cases p.absolute with
  | true =>
    rw [if_pos rfl, startsBlank_append "/" (by decide), Bool.not_true, Bool.false_and]
    decide
  | false =>
    rw [if_neg (by simp), Bool.not_false, Bool.true_and]
    exact startsBlank_join p.names_ne_empty

theorem endsBlank_text (p : NormalPath) : endsBlank p.text = p.names.getLast?.any endsBlank := by
  have hjoin : endsBlank (join "/" p.names) = p.names.getLast?.any endsBlank :=
    endsBlank_join p.names_ne_empty
  rw [text]
  cases p.absolute with
  | false => exact hjoin
  | true =>
    rw [if_pos rfl]
    by_cases hnil : p.names = []
    · rw [hnil]
      decide
    · have hne : join "/" p.names ≠ "" := by
        intro hempty
        have hpieces := p.split_join_names
        rw [hempty, pieces, if_neg hnil] at hpieces
        exact p.empty_notMem_names (hpieces ▸ List.mem_cons_self)
      rw [endsBlank_append "/" _ hne, hjoin]

/-- A leading `.` would be a component. -/
theorem not_startsWith_dot (p : NormalPath) : startsWith "./" p.text = false := by
  rw [Bool.eq_false_iff]
  intro h
  obtain ⟨rest, hrest⟩ := startsWith_iff.mp h
  have hsplit := p.split_text
  have hdot : "./" ++ rest = "." ++ String.singleton '/' ++ rest := rfl
  rw [hrest, hdot, split_append_sep, split_of_notMem (by simp), List.singleton_append] at hsplit
  cases hp : p.absolute with
  | true =>
    rw [hp] at hsplit
    exact absurd (List.cons.inj hsplit).1 (by decide)
  | false =>
    rw [hp, if_neg (by simp), List.nil_append, pieces] at hsplit
    split at hsplit
    · exact absurd (List.cons.inj hsplit).1 (by decide)
    · exact absurd rfl (p.valid "." (hsplit ▸ List.mem_cons_self)).2.1

/-! ### One path below another -/

/-- The text of the root already ends in a separator, and no path has two in a row. -/
theorem not_startsWith_root (q : NormalPath) : startsWith ("/" ++ "/") q.text = false := by
  rw [Bool.eq_false_iff]
  intro h
  obtain ⟨rest, hrest⟩ := startsWith_iff.mp h
  have hsplit := q.split_text
  rw [hrest, String.append_assoc, split_root_append, split_root_append] at hsplit
  cases hq : q.absolute with
  | true =>
    rw [hq] at hsplit
    exact split_ne_nil _ _ (eq_nil_of_pieces (List.cons.inj hsplit).2.symm)
  | false =>
    rw [hq] at hsplit
    exact absurd (eq_nil_of_pieces hsplit.symm) (by simp)

/-- **One text lies below another** exactly when both are of one kind and the names go on. -/
theorem startsWith_text_iff (hp : p.names ≠ []) :
    startsWith (p.text ++ "/") q.text = true ↔
      p.absolute = q.absolute ∧ p.names <+: q.names ∧ p.names ≠ q.names := by
  constructor
  · intro h
    obtain ⟨rest, hrest⟩ := startsWith_iff.mp h
    have hsplit : q.text = p.text ++ String.singleton '/' ++ rest := hrest
    have hpieces : p.pieces = p.names := if_neg hp
    replace hsplit := congrArg (split '/') hsplit
    rw [split_append_sep, split_text, split_text, hpieces] at hsplit
    have hsame : q.pieces = p.names ++ split '/' rest →
        p.names <+: q.names ∧ p.names ≠ q.names := by
      intro heq
      by_cases hq : q.names = []
      · -- a first name would be the empty piece
        obtain ⟨c, names, hcons⟩ := List.exists_cons_of_ne_nil hp
        rw [pieces, if_pos hq, hcons] at heq
        have hempty : c = "" := (List.cons.inj heq).1.symm
        exact absurd (hcons ▸ hempty ▸ List.mem_cons_self) p.empty_notMem_names
      · rw [pieces, if_neg hq] at heq
        refine ⟨⟨_, heq.symm⟩, fun hnames => ?_⟩
        rw [← hnames] at heq
        exact split_ne_nil _ _ (List.append_right_eq_self.mp heq.symm)
    cases hpabs : p.absolute <;> cases hqabs : q.absolute <;> rw [hpabs, hqabs] at hsplit
    case false.false => exact ⟨rfl, hsame hsplit⟩
    case true.true => exact ⟨rfl, hsame (List.cons.inj hsplit).2⟩
    case false.true =>
      obtain ⟨c, names, hcons⟩ := List.exists_cons_of_ne_nil hp
      rw [hcons] at hsplit
      have hempty : "" = c := (List.cons.inj hsplit).1
      exact absurd (hcons ▸ hempty ▸ List.mem_cons_self) p.empty_notMem_names
    case true.false =>
      have hnil := @eq_nil_of_pieces q _ hsplit
      exact absurd (List.append_eq_nil_iff.mp hnil).1 hp
  · rintro ⟨habs, ⟨rest, hrest⟩, hne⟩
    have hrest' : rest ≠ [] := by
      rintro rfl
      exact hne (by rw [← hrest, List.append_nil])
    refine startsWith_iff.mpr ⟨join "/" rest, ?_⟩
    rw [text, text, ← habs, ← hrest, join_append hp hrest']
    cases p.absolute <;> simp [String.append_assoc]

end NormalPath

end RallyPoint.Lib
