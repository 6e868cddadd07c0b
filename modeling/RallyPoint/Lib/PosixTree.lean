/-
# RallyPoint.Lib.PosixTree — path resolution on a tree of directories, files and symbolic links.

A place of the tree is named by the directories that lead to it from the root. A path is resolved component by
component from a directory: `.` stays, `..` goes up, the name of a directory or a file goes down, and the name of a
link goes on with the components of its target (`next`). Resolution is deterministic, so a path has at most one
location (`Locates.unique`), also when its last components name nothing yet. What is found is physical: no link lies
on the way to it (`notLink_of_place`).
-/
import RallyPoint.Lib.UnixPath
import Mathlib.Logic.Relation

namespace RallyPoint.Lib

inductive TreeNode
  | directory
  | file
  | link (target : String)
  deriving DecidableEq, Repr

/-- What stands where; only directories have entries, and entries have names. -/
structure PosixTree where
  node : List String → Option TreeNode
  root : node [] = some .directory
  parent : ∀ {p c}, node (p ++ [c]) ≠ none → node p = some .directory
  name : ∀ {p c}, node (p ++ [c]) ≠ none → IsName c

namespace PosixTree

variable (t : PosixTree)

/-- A directory or a file, not a link. -/
def Place (p : List String) : Prop := t.node p = some .directory ∨ t.node p = some .file

/-- One component resolved: the directory reached and the components that are left. -/
def next : List String × List String → Option (List String × List String)
  | (_, []) => none
  | (dir, c :: cs) =>
    if t.node dir = some .directory then
      if c = "." then some (dir, cs)
      else if c = ".." then some (dir.dropLast, cs)
      else
        match t.node (dir ++ [c]) with
        | none => none
        | some (.link target) => some (if isAbsolute target then [] else dir, components target ++ cs)
        | some _ => some (dir ++ [c], cs)
    else none

/-- Some components resolved, one after the other. -/
def Reaches : List String × List String → List String × List String → Prop :=
  Relation.ReflTransGen fun s s' => t.next s = some s'

/-- All components lead to something that exists. -/
def Resolves (dir cs place : List String) : Prop := t.Reaches (dir, cs) (place, [])

/-- A directory without an entry of a name, and names below it. -/
structure Missing (dir : List String) (c : String) (tail : List String) : Prop where
  directory : t.node dir = some .directory
  name : IsName c
  absent : t.node (dir ++ [c]) = none
  names : ∀ d ∈ tail, IsName d ∨ d = "."

/-- **Where a path leads**, all links followed; what the last components name may be missing. -/
def Locates (dir cs place : List String) : Prop :=
  t.Resolves dir cs place ∨
    ∃ last c tail, t.Reaches (dir, cs) (last, c :: tail) ∧ t.Missing last c tail ∧
      place = last ++ c :: tail.filter (· != ".")

variable {t} {s s' s'' : List String × List String} {dir dir' cs cs' p place place' : List String} {c : String}

/-! ## Places -/

theorem node_ne_none_of_append {q : List String} (h : t.node (p ++ q) ≠ none) (hq : q ≠ []) :
    t.node p = some .directory := by
  induction q using List.reverseRecOn with
  | nil => exact absurd rfl hq
  | append_singleton q c ih =>
    rw [← List.append_assoc] at h
    have hparent := t.parent h
    by_cases hnil : q = []
    · rwa [hnil, List.append_nil] at hparent
    · exact ih (by rw [hparent]; exact Option.some_ne_none _) hnil

theorem Place.ne_none (h : t.Place p) : t.node p ≠ none := by
  rcases h with h | h <;> simp [h]

theorem Place.notLink (h : t.Place p) (target : String) : t.node p ≠ some (.link target) := by
  rcases h with h | h <;> simp [h]

/-- **No link lies on the way** to a place. -/
theorem notLink_of_place (h : t.Place p) (k : Nat) (target : String) : t.node (p.take k) ≠ some (.link target) := by
  by_cases hdrop : p.drop k = []
  · rw [List.take_of_length_le (List.drop_eq_nil_iff.mp hdrop)]
    exact h.notLink target
  · have hne : t.node (p.take k ++ p.drop k) ≠ none := by
      rw [List.take_append_drop]
      exact h.ne_none
    rw [node_ne_none_of_append hne hdrop]
    simp

/-- Below what is missing there is nothing. -/
theorem notLink_of_missing (h : t.Place p) (habsent : t.node (p ++ [c]) = none) (tail : List String) (k : Nat)
    (target : String) : t.node ((p ++ c :: tail).take k) ≠ some (.link target) := by
  rcases Nat.lt_or_ge p.length k with hk | hk
  · have htake : (p ++ c :: tail).take k = (p ++ [c]) ++ tail.take (k - p.length - 1) := by
      obtain ⟨n, rfl⟩ := Nat.exists_eq_add_of_lt hk
      rw [List.take_append, List.take_of_length_le (by omega), List.append_assoc]
      congr 1
      rw [show p.length + n + 1 - p.length = n + 1 by omega, List.take_succ_cons]
      rfl
    intro hlink
    rw [htake] at hlink
    by_cases htail : tail.take (k - p.length - 1) = []
    · rw [htail, List.append_nil, habsent] at hlink
      cases hlink
    · have hdir := node_ne_none_of_append (by rw [hlink]; exact Option.some_ne_none _) htail
      rw [habsent] at hdir
      cases hdir
  · rw [List.take_append_of_le_length hk]
    exact notLink_of_place h k target

theorem Place.dropLast (h : t.Place p) : t.node p.dropLast = some .directory := by
  rcases List.eq_nil_or_concat p with rfl | ⟨q, c, rfl⟩
  · exact t.root
  · rw [List.concat_eq_append] at h ⊢
    rw [List.dropLast_concat]
    exact t.parent h.ne_none

theorem Place.isName (h : t.Place p) : ∀ c ∈ p, IsName c := by
  intro c hc
  obtain ⟨front, back, rfl⟩ := List.append_of_mem hc
  have hne : t.node (front ++ [c]) ≠ none := by
    rcases back with - | ⟨d, back⟩
    · exact h.ne_none
    · have hnode : t.node ((front ++ [c]) ++ d :: back) ≠ none := by
        rw [List.append_assoc, List.singleton_append]
        exact h.ne_none
      rw [node_ne_none_of_append hnode (List.cons_ne_nil d back)]
      exact Option.some_ne_none _
  exact t.name hne

/-! ## One component -/

theorem next_directory (h : t.next (dir, c :: cs) ≠ none) : t.node dir = some .directory := by
  by_contra hdir
  rw [next, if_neg hdir] at h
  exact h rfl

/-- A component leads from place to place. -/
theorem place_next (h : t.Place s.1) (hnext : t.next s = some s') : t.Place s'.1 := by
  obtain ⟨dir, cs⟩ := s
  cases cs with
  | nil => cases hnext
  | cons c cs =>
    have hdir := next_directory (by rw [hnext]; exact Option.some_ne_none _)
    rw [next, if_pos hdir] at hnext
    split_ifs at hnext with hdot hup
    · obtain rfl := Option.some.inj hnext
      exact h
    · obtain rfl := Option.some.inj hnext
      exact .inl h.dropLast
    · split at hnext
      · cases hnext
      · obtain rfl := Option.some.inj hnext
        dsimp only
        split_ifs
        · exact .inl t.root
        · exact h
      · rename_i node hlink hnode
        obtain rfl := Option.some.inj hnext
        cases node with
        | directory => exact .inl hnode
        | file => exact .inr hnode
        | link target => exact absurd rfl (hlink target)

/-- More components change nothing about the first. -/
theorem next_append (h : t.next (dir, cs) = some (dir', cs')) (more : List String) :
    t.next (dir, cs ++ more) = some (dir', cs' ++ more) := by
  cases cs with
  | nil => cases h
  | cons c cs =>
    have hdir := next_directory (by rw [h]; exact Option.some_ne_none _)
    rw [List.cons_append, next, if_pos hdir]
    rw [next, if_pos hdir] at h
    split_ifs at h ⊢ with hdot hup
    · cases h
      rfl
    · cases h
      rfl
    · split at h
      · cases h
      · cases h
        rw [List.append_assoc]
      · cases h
        rfl

/-! ## Some components -/

theorem place_of_reaches (h : t.Reaches s s') (hs : t.Place s.1) : t.Place s'.1 := by
  induction h with
  | refl => exact hs
  | tail _ hnext ih => exact place_next ih hnext

theorem Reaches.append (h : t.Reaches s s') (more : List String) :
    t.Reaches (s.1, s.2 ++ more) (s'.1, s'.2 ++ more) := by
  induction h with
  | refl => exact .refl
  | tail _ hnext ih => exact ih.tail (next_append hnext more)

/-- **Resolution is deterministic**: where it ends is reached from wherever it passes. -/
theorem Reaches.of_stuck (h : t.Reaches s s'') (hstuck : t.next s'' = none) (hpass : t.Reaches s s') :
    t.Reaches s' s'' := by
  have hunique : Relator.RightUnique fun s s' => t.next s = some s' := fun _ _ _ hx hy =>
    Option.some.inj (hx.symm.trans hy)
  rcases Relation.ReflTransGen.total_of_right_unique hunique h hpass with hback | hon
  · rcases Relation.ReflTransGen.cases_head hback with rfl | ⟨_, hnext, -⟩
    · exact .refl
    · rw [hstuck] at hnext
      cases hnext
  · exact hon

theorem Missing.stuck {tail : List String} (h : t.Missing dir c tail) : t.next (dir, c :: tail) = none := by
  rw [next, if_pos h.directory, if_neg h.name.2.1, if_neg h.name.2.2.1, h.absent]

/-- A path leads from wherever its resolution passes to where it leads. -/
theorem Locates.of_reaches (h : t.Locates dir cs place) (hpass : t.Reaches (dir, cs) (dir', cs')) :
    t.Locates dir' cs' place := by
  rcases h with hplace | ⟨last, c, tail, hlast, hmissing, rfl⟩
  · exact .inl (Reaches.of_stuck hplace rfl hpass)
  · exact .inr ⟨last, c, tail, hlast.of_stuck hmissing.stuck hpass, hmissing, rfl⟩

theorem Locates.before (h : t.Locates dir' cs' place) (hpass : t.Reaches (dir, cs) (dir', cs')) :
    t.Locates dir cs place := by
  rcases h with hplace | ⟨last, c, tail, hlast, hmissing, rfl⟩
  · exact .inl (hpass.trans hplace)
  · exact .inr ⟨last, c, tail, hpass.trans hlast, hmissing, rfl⟩

/-- Only a directory is led on from. -/
theorem Locates.directory (h : t.Locates dir (c :: cs) place) : t.node dir = some .directory := by
  have hon : ∀ s, t.Reaches (dir, c :: cs) s → s = (dir, c :: cs) ∨ t.node dir = some .directory := by
    intro s hs
    rcases Relation.ReflTransGen.cases_head hs with heq | ⟨_, hnext, -⟩
    · exact .inl heq.symm
    · exact .inr (next_directory (by rw [hnext]; exact Option.some_ne_none _))
  rcases h with hplace | ⟨last, c', tail, hlast, hmissing, -⟩
  · exact (hon _ hplace).resolve_left (by simp)
  · rcases hon _ hlast with heq | hdir
    · rw [← (Prod.mk.inj heq).1]
      exact hmissing.directory
    · exact hdir

theorem locates_nil_iff : t.Locates dir [] place ↔ place = dir := by
  have hend : ∀ s, t.Reaches (dir, []) s → s = (dir, []) := by
    intro s hs
    rcases Relation.ReflTransGen.cases_head hs with heq | ⟨_, hnext, -⟩
    · exact heq.symm
    · cases hnext
  constructor
  · rintro (hplace | ⟨last, c, tail, hlast, -, -⟩)
    · exact (Prod.mk.inj (hend _ hplace)).1
    · cases (Prod.mk.inj (hend _ hlast)).2
  · rintro rfl
    exact .inl .refl

/-- Where nothing of a name is, the rest of the path is its location. -/
theorem locates_of_missing {tail : List String} (h : t.Locates dir (c :: tail) place) (hc : IsName c)
    (habsent : t.node (dir ++ [c]) = none) : place = dir ++ c :: tail.filter (· != ".") := by
  have hstuck : t.next (dir, c :: tail) = none := by
    rw [next]
    split_ifs with hdir hdot hup
    · exact absurd hdot hc.2.1
    · exact absurd hup hc.2.2.1
    · rw [habsent]
    · rfl
  have hstay : ∀ s, t.Reaches (dir, c :: tail) s → s = (dir, c :: tail) := by
    intro s hs
    rcases Relation.ReflTransGen.cases_head hs with heq | ⟨_, hnext, -⟩
    · exact heq.symm
    · rw [hstuck] at hnext
      cases hnext
  rcases h with hplace | ⟨last, c', tail', hlast, -, rfl⟩
  · cases (Prod.mk.inj (hstay _ hplace)).2
  · obtain ⟨rfl, heq⟩ := Prod.mk.inj (hstay _ hlast)
    obtain ⟨rfl, rfl⟩ := List.cons.inj heq
    rfl

/-- A path leads to one location. -/
theorem Locates.unique (h : t.Locates dir cs place) (h' : t.Locates dir cs place') : place = place' := by
  rcases h with hplace | ⟨last, c, tail, hlast, hmissing, rfl⟩
  · exact (locates_nil_iff.mp (h'.of_reaches hplace)).symm
  · exact (locates_of_missing (h'.of_reaches hlast) hmissing.name hmissing.absent).symm

/-- The names of a place lead to it. -/
theorem reaches_names (h : t.Place (dir ++ cs)) : t.Reaches (dir, cs) (dir ++ cs, []) := by
  induction cs generalizing dir with
  | nil =>
    rw [List.append_nil]
    exact .refl
  | cons c cs ih =>
    have hassoc : dir ++ c :: cs = (dir ++ [c]) ++ cs := by rw [List.append_assoc, List.singleton_append]
    have hdir := node_ne_none_of_append h.ne_none (List.cons_ne_nil c cs)
    have hname := h.isName c (List.mem_append_right dir List.mem_cons_self)
    have hnode : t.Place (dir ++ [c]) := by
      by_cases hcs : cs = []
      · rwa [hcs] at h
      · rw [hassoc] at h
        exact .inl (node_ne_none_of_append h.ne_none hcs)
    have hnext : t.next (dir, c :: cs) = some (dir ++ [c], cs) := by
      rw [next, if_pos hdir, if_neg hname.2.1, if_neg hname.2.2.1]
      rcases hnode with hnode | hnode <;> rw [hnode]
    rw [hassoc] at h ⊢
    exact (ih h).head hnext

/-- **A link, resolved from the root**, is resolved where it stands. -/
theorem reaches_of_resolves (hdir : t.Place dir) (h : t.Resolves [] (dir ++ [c]) place) (more : List String) :
    t.Reaches (dir, c :: more) (place, more) := by
  have hpass : t.Reaches ([], dir ++ [c]) (dir, [c]) := by
    have hnames : t.Reaches ([], dir) (dir, []) := reaches_names hdir
    exact hnames.append [c]
  have hlink : t.Reaches (dir, [c]) (place, []) := Reaches.of_stuck h rfl hpass
  exact hlink.append more

theorem Resolves.unique (h : t.Resolves dir cs place) (h' : t.Resolves dir cs place') : place = place' :=
  Locates.unique (.inl h) (.inl h')

/-! ## Resolving -/

variable (t) in
/-- At most `fuel` components resolved. -/
def resolve : Nat → List String × List String → Option (List String)
  | 0, _ => none
  | _ + 1, (dir, []) => some dir
  | fuel + 1, (dir, c :: cs) => (t.next (dir, c :: cs)).bind (resolve fuel)

theorem resolves_of_resolve {fuel : Nat} (h : t.resolve fuel s = some place) : t.Reaches s (place, []) := by
  induction fuel generalizing s with
  | zero => cases h
  | succ fuel ih =>
    obtain ⟨dir, cs⟩ := s
    cases cs with
    | nil =>
      cases h
      exact .refl
    | cons c cs =>
      obtain ⟨s', hnext, hrest⟩ := Option.bind_eq_some_iff.mp h
      exact (ih hrest).head hnext

/-! ## Finite trees -/

/-- What a list of entries puts where. -/
def nodeOf (entries : List (List String × TreeNode)) (p : List String) : Option TreeNode :=
  if p = [] then some .directory else (entries.find? fun e => e.1 == p).map Prod.snd

/-- Every entry has a name, and a directory that holds it. -/
def wellFormed (entries : List (List String × TreeNode)) : Bool :=
  entries.all fun e => nodeOf entries e.1.dropLast == some .directory && e.1.getLast?.all fun c => decide (IsName c)

theorem wellFormed_entry {entries : List (List String × TreeNode)} (h : wellFormed entries = true)
    (hnode : nodeOf entries (p ++ [c]) ≠ none) : nodeOf entries p = some .directory ∧ IsName c := by
  rw [nodeOf, if_neg (by simp), Ne, Option.map_eq_none_iff] at hnode
  obtain ⟨e, he⟩ := Option.ne_none_iff_exists'.mp hnode
  have hp : e.1 = p ++ [c] := by simpa using List.find?_some he
  have hentry := List.all_eq_true.mp h e (List.mem_of_find?_eq_some he)
  rw [hp, List.dropLast_concat, List.getLast?_concat, Option.all_some, Bool.and_eq_true, decide_eq_true_iff,
    beq_iff_eq] at hentry
  exact hentry

def ofEntries (entries : List (List String × TreeNode)) (h : wellFormed entries = true) : PosixTree where
  node := nodeOf entries
  root := rfl
  parent := fun hnode => (wellFormed_entry h hnode).1
  name := fun hnode => (wellFormed_entry h hnode).2

end PosixTree

end RallyPoint.Lib
