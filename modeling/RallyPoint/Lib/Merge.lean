/-
# RallyPoint.Lib.Merge — folding rows into a map from keys, where a repeated key must repeat its row.

The map is kept as the list of its rows in increasing key order, which is how it is iterated. The fold
succeeds exactly when no two rows of one key differ (`mergeRows_ok_iff`), and the result then depends on
nothing but which rows there are (`mergeRows_congr`): neither their order nor their copies show.
-/
import Mathlib.Data.List.Pairwise
import Mathlib.Data.List.Sort

namespace RallyPoint.Lib

variable {α κ : Type*} [DecidableEq α] [LinearOrder κ]

/-- One row into the map: a new key is inserted, a repeated row skipped, a conflict refused with its key. -/
def mergeRow (key : α → κ) (m : List α) (x : α) : Except κ (List α) :=
  match m.find? fun y => key y = key x with
  | some y => if y = x then .ok m else .error (key x)
  | none => .ok (m.orderedInsert (fun a b => key a ≤ key b) x)

/-- All rows of a list into the map, in order. -/
def mergeRows (key : α → κ) : List α → List α → Except κ (List α)
  | m, [] => .ok m
  | m, x :: xs =>
    match mergeRow key m x with
    | .error k => .error k
    | .ok m' => mergeRows key m' xs

variable {key : α → κ} {m m' xs ys : List α} {x : α}

/-- Rows in two lists are folded one list after the other. -/
theorem mergeRows_append_ok_iff :
    mergeRows key m (xs ++ ys) = .ok m' ↔
      ∃ m₁, mergeRows key m xs = .ok m₁ ∧ mergeRows key m₁ ys = .ok m' := by
  induction xs generalizing m with
  | nil => simp [mergeRows]
  | cons x xs ih =>
    rw [List.cons_append, mergeRows, mergeRows]
    cases mergeRow key m x with
    | error k => simp
    | ok m₁ => exact ih

/-- The rows in increasing key order, one for each key. -/
def KeyOrdered (key : α → κ) (m : List α) : Prop := m.Pairwise fun a b => key a < key b

/-- No two rows of one key differ. -/
def Consistent (key : α → κ) (rows : List α) : Prop := ∀ x ∈ rows, ∀ y ∈ rows, key x = key y → x = y

omit [DecidableEq α] [LinearOrder κ] in
/-- Consistency is about which rows there are. -/
theorem Consistent.subset (h : Consistent key ys) (hsub : ∀ x ∈ xs, x ∈ ys) : Consistent key xs :=
  fun x hx y hy hkey => h x (hsub x hx) y (hsub y hy) hkey

omit [DecidableEq α] in
theorem KeyOrdered.consistent (h : KeyOrdered key m) : Consistent key m := by
  intro a ha b hb hkey
  by_contra hne
  have hdiff : m.Pairwise fun a b => key a ≠ key b := h.imp fun hlt => hlt.ne
  have : Std.Symm fun a b : α => key a ≠ key b := ⟨fun _ _ hab => hab.symm⟩
  exact hdiff.forall ha hb hne hkey

omit [DecidableEq α] in
theorem KeyOrdered.nodup (h : KeyOrdered key m) : m.Nodup :=
  h.imp fun hlt heq => absurd (congrArg key heq) hlt.ne

omit [DecidableEq α] in
/-- A map is determined by its rows. -/
theorem KeyOrdered.eq_of_mem_iff (h : KeyOrdered key m) (h' : KeyOrdered key m')
    (hmem : ∀ x, x ∈ m ↔ x ∈ m') : m = m' := by
  have : Std.Irrefl fun a b : α => key a < key b := ⟨fun a => lt_irrefl (key a)⟩
  have : Std.Antisymm fun a b : α => key a < key b := ⟨fun a b hab hba => absurd hab hba.asymm⟩
  exact List.Pairwise.eq_of_mem_iff h h' hmem

omit [DecidableEq α] in
/-- A row of a new key finds its place. -/
theorem KeyOrdered.orderedInsert (h : KeyOrdered key m) (hnew : ∀ y ∈ m, key y ≠ key x) :
    KeyOrdered key (m.orderedInsert (fun a b => key a ≤ key b) x) := by
  induction m with
  | nil => exact List.pairwise_singleton _ _
  | cons y m ih =>
    obtain ⟨hhead, htail⟩ := List.pairwise_cons.mp h
    rw [List.forall_mem_cons] at hnew
    rw [List.orderedInsert_cons]
    split
    case isTrue hle =>
      have hlt : key x < key y := lt_of_le_of_ne hle hnew.1.symm
      exact List.pairwise_cons.mpr ⟨List.forall_mem_cons.mpr ⟨hlt, fun z hz => hlt.trans (hhead z hz)⟩, h⟩
    case isFalse hle =>
      refine List.pairwise_cons.mpr ⟨fun z hz => ?_, ih htail hnew.2⟩
      rcases (List.mem_orderedInsert _).mp hz with rfl | hz
      · exact not_le.mp hle
      · exact hhead z hz

omit [DecidableEq α] in
/-- A row that conflicts with none has a map to go to. -/
theorem KeyOrdered.exists_insert (h : KeyOrdered key m) (hconf : ∀ y ∈ m, key y = key x → y = x) :
    ∃ m₁, KeyOrdered key m₁ ∧ ∀ z, z ∈ m₁ ↔ z ∈ m ∨ z = x := by
  by_cases hx : x ∈ m
  · exact ⟨m, h, fun z => ⟨.inl, fun hz => hz.elim id fun heq => heq ▸ hx⟩⟩
  · have hnew : ∀ y ∈ m, key y ≠ key x := fun y hy hkey => hx (hconf y hy hkey ▸ hy)
    refine ⟨_, h.orderedInsert hnew, fun z => ?_⟩
    rw [List.mem_orderedInsert, or_comm]

/-- **One step of the fold** succeeds on a row that conflicts with none, and adds that row. -/
theorem mergeRow_ok_iff (hm : KeyOrdered key m) :
    mergeRow key m x = .ok m' ↔
      (∀ y ∈ m, key y = key x → y = x) ∧ KeyOrdered key m' ∧ ∀ z, z ∈ m' ↔ z ∈ m ∨ z = x := by
  unfold mergeRow
  cases hfind : m.find? fun y => key y = key x with
  | some y =>
    have hy : y ∈ m := List.mem_of_find?_eq_some hfind
    have hkey : key y = key x := by simpa using List.find?_some hfind
    dsimp only
    split
    case isTrue heq =>
      subst heq
      have hsame : ∀ z, z ∈ m ↔ z ∈ m ∨ z = y := fun z => by
        constructor
        · exact .inl
        · rintro (hz | rfl) <;> assumption
      constructor
      · rintro h
        cases h
        exact ⟨fun z hz hzkey => hm.consistent z hz y hy hzkey, hm, hsame⟩
      · rintro ⟨-, hm', hmem⟩
        rw [hm.eq_of_mem_iff hm' fun z => (hsame z).trans (hmem z).symm]
    case isFalse hne =>
      constructor
      · intro h
        cases h
      · rintro ⟨hconf, -, -⟩
        exact absurd (hconf y hy hkey) hne
  | none =>
    have hnew : ∀ y ∈ m, key y ≠ key x := by simpa using List.find?_eq_none.mp hfind
    have hmem : ∀ z, z ∈ m.orderedInsert (fun a b => key a ≤ key b) x ↔ z ∈ m ∨ z = x := fun z => by
      rw [List.mem_orderedInsert, or_comm]
    dsimp only
    constructor
    · rintro h
      cases h
      exact ⟨fun y hy hkey => absurd hkey (hnew y hy), hm.orderedInsert hnew, hmem⟩
    · rintro ⟨-, hm', hmem'⟩
      rw [(hm.orderedInsert hnew).eq_of_mem_iff hm' fun z => (hmem z).trans (hmem' z).symm]

/-- One row into the map, none when its key is taken. -/
def insertNew (key : α → κ) (m : List α) (x : α) : Option (List α) :=
  if m.any fun y => key y = key x then none else some (m.orderedInsert (fun a b => key a ≤ key b) x)

omit [DecidableEq α] in
theorem insertNew_eq_none_iff : insertNew key m x = none ↔ ∃ y ∈ m, key y = key x := by
  simp [insertNew]

omit [DecidableEq α] in
/-- No ordered list holds a row beside another one of its key. -/
theorem KeyOrdered.not_perm_of_taken (h : KeyOrdered key m') (htaken : ∃ y ∈ m, key y = key x) :
    ¬m'.Perm (x :: xs ++ m) := by
  intro hperm
  obtain ⟨y, hy, hkey⟩ := htaken
  have hnodup := hperm.nodup_iff.mp h.nodup
  -- the two rows are one row, and it would stand there twice
  have heq := h.consistent y (hperm.mem_iff.mpr (by simp [hy])) x (hperm.mem_iff.mpr (by simp)) hkey
  rw [List.cons_append, List.nodup_cons] at hnodup
  exact hnodup.1 (heq ▸ List.mem_append_right xs hy)

omit [DecidableEq α] in
/-- **A row of a new key** goes in, and the map is then the one ordered list of the rows and it. -/
theorem insertNew_eq_some_iff (hm : KeyOrdered key m) :
    insertNew key m x = some m' ↔ KeyOrdered key m' ∧ m'.Perm (x :: m) := by
  by_cases htaken : ∃ y ∈ m, key y = key x
  · rw [insertNew_eq_none_iff.mpr htaken]
    refine iff_of_false (by simp) ?_
    rintro ⟨hm', hperm⟩
    exact @KeyOrdered.not_perm_of_taken _ _ _ _ _ _ [] _ hm' htaken hperm
  · have hnew : ∀ y ∈ m, key y ≠ key x := fun y hy hkey => htaken ⟨y, hy, hkey⟩
    have hordered := hm.orderedInsert hnew
    have hperm := List.perm_orderedInsert (fun a b => key a ≤ key b) x m
    rw [insertNew, if_neg (by simpa using hnew), Option.some.injEq]
    constructor
    · rintro rfl
      exact ⟨hordered, hperm⟩
    · rintro ⟨hm', hperm'⟩
      exact hordered.eq_of_mem_iff hm' fun z => (hperm.trans hperm'.symm).mem_iff

omit [DecidableEq α] in
theorem KeyOrdered.nodup_keys (h : KeyOrdered key m) : (m.map key).Nodup :=
  (List.pairwise_map.mpr h).imp fun hlt => hlt.ne

omit [DecidableEq α] in
/-- Rows of distinct keys can be put in order. -/
theorem exists_keyOrdered_perm (h : (xs.map key).Nodup) : ∃ m, KeyOrdered key m ∧ m.Perm xs := by
  induction xs with
  | nil => exact ⟨[], List.Pairwise.nil, List.Perm.nil⟩
  | cons x xs ih =>
    rw [List.map_cons, List.nodup_cons] at h
    obtain ⟨m, hm, hperm⟩ := ih h.2
    have hnew : ∀ y ∈ m, key y ≠ key x := fun y hy hkey =>
      h.1 (hkey ▸ List.mem_map_of_mem (hperm.mem_iff.mp hy))
    exact ⟨_, hm.orderedInsert hnew, (List.perm_orderedInsert _ x m).trans (hperm.cons x)⟩

theorem mergeRows_ok_iff_of_keyOrdered (hm : KeyOrdered key m) :
    mergeRows key m xs = .ok m' ↔
      Consistent key (m ++ xs) ∧ KeyOrdered key m' ∧ ∀ z, z ∈ m' ↔ z ∈ m ++ xs := by
  induction xs generalizing m with
  | nil =>
    rw [mergeRows, List.append_nil, Except.ok.injEq]
    constructor
    · rintro rfl
      exact ⟨hm.consistent, hm, fun _ => Iff.rfl⟩
    · rintro ⟨-, hm', hmem⟩
      exact (hm'.eq_of_mem_iff hm hmem).symm
  | cons x xs ih =>
    -- the step succeeds with `m₁`, which holds the rows of `m` and `x`
    have hstep : mergeRows key m (x :: xs) = .ok m' ↔
        ∃ m₁, mergeRow key m x = .ok m₁ ∧ mergeRows key m₁ xs = .ok m' := by
      rw [mergeRows]
      cases mergeRow key m x <;> simp
    have hmem₁ : ∀ {m₁ : List α}, (∀ z, z ∈ m₁ ↔ z ∈ m ∨ z = x) → ∀ z, z ∈ m₁ ++ xs ↔ z ∈ m ++ x :: xs := by
      intro m₁ h z
      rw [List.mem_append, h, List.mem_append, List.mem_cons, or_assoc]
    rw [hstep]
    constructor
    · rintro ⟨m₁, h₁, hrest⟩
      obtain ⟨-, hm₁, hm₁mem⟩ := (mergeRow_ok_iff hm).mp h₁
      obtain ⟨hcons, hm', hmem⟩ := (ih hm₁).mp hrest
      exact ⟨hcons.subset fun z hz => (hmem₁ hm₁mem z).mpr hz, hm', fun z => (hmem z).trans (hmem₁ hm₁mem z)⟩
    · rintro ⟨hcons, hm', hmem⟩
      have hconf : ∀ y ∈ m, key y = key x → y = x := fun y hy hkey =>
        hcons y (List.mem_append_left _ hy) x (by simp) hkey
      obtain ⟨m₁, hm₁, hm₁mem⟩ := hm.exists_insert hconf
      refine ⟨m₁, (mergeRow_ok_iff hm).mpr ⟨hconf, hm₁, hm₁mem⟩, (ih hm₁).mpr ⟨?_, hm', fun z => ?_⟩⟩
      · exact hcons.subset fun z hz => (hmem₁ hm₁mem z).mp hz
      · exact (hmem z).trans (hmem₁ hm₁mem z).symm

/-- **The fold** succeeds exactly on consistent rows; the map then holds each of them once, in key order. -/
theorem mergeRows_ok_iff :
    mergeRows key [] xs = .ok m ↔ Consistent key xs ∧ KeyOrdered key m ∧ ∀ z, z ∈ m ↔ z ∈ xs := by
  have hnil : KeyOrdered key ([] : List α) := .nil
  rw [mergeRows_ok_iff_of_keyOrdered hnil, List.nil_append]

/-- Consistent rows fold into a map. -/
theorem exists_mergeRows (h : Consistent key xs) : ∃ m, mergeRows key [] xs = .ok m := by
  have hmap : ∃ m : List α, KeyOrdered key m ∧ ∀ z, z ∈ m ↔ z ∈ xs := by
    induction xs with
    | nil => exact ⟨[], .nil, fun _ => Iff.rfl⟩
    | cons x xs ih =>
      obtain ⟨m, hm, hmem⟩ := ih (h.subset fun z hz => List.mem_cons_of_mem x hz)
      obtain ⟨m₁, hm₁, hm₁mem⟩ := hm.exists_insert fun y hy hkey =>
        h y (List.mem_cons_of_mem x ((hmem y).mp hy)) x List.mem_cons_self hkey
      refine ⟨m₁, hm₁, fun z => ?_⟩
      rw [hm₁mem, hmem, List.mem_cons, or_comm]
  obtain ⟨m, hm, hmem⟩ := hmap
  exact ⟨m, mergeRows_ok_iff.mpr ⟨h, hm, hmem⟩⟩

/-- **Neither order nor copies show:** the same rows give the same map. -/
theorem mergeRows_congr (h : ∀ z, z ∈ xs ↔ z ∈ ys) :
    mergeRows key [] xs = .ok m ↔ mergeRows key [] ys = .ok m := by
  rw [mergeRows_ok_iff, mergeRows_ok_iff]
  refine and_congr ⟨fun hc => hc.subset fun z => (h z).mpr, fun hc => hc.subset fun z => (h z).mp⟩
    (and_congr_right fun _ => forall_congr' fun z => ?_)
  rw [h]

/-! ## Marked rows

A fold may carry a mark along with each row, which copies of the row can only add. The marks change neither
what is refused nor which rows there are (`markRows_eq`). -/

/-- One marked row into the map; a copy adds its mark. -/
def markRow (key : α → κ) (m : List (α × Bool)) (x : α × Bool) : Except κ (List (α × Bool)) :=
  match m.find? fun y => key y.1 = key x.1 with
  | some y =>
    if y.1 = x.1 then .ok (m.map fun z => if key z.1 = key x.1 then (z.1, z.2 || x.2) else z)
    else .error (key x.1)
  | none => .ok (m.orderedInsert (fun a b => key a.1 ≤ key b.1) x)

/-- All marked rows of a list into the map, in order. -/
def markRows (key : α → κ) : List (α × Bool) → List (α × Bool) → Except κ (List (α × Bool))
  | m, [] => .ok m
  | m, x :: xs =>
    match markRow key m x with
    | .error k => .error k
    | .ok m' => markRows key m' xs

/-- The rows of a map, each with whether a marked copy of it was seen. -/
def withMarks (seen : List (α × Bool)) (m : List α) : List (α × Bool) := m.map fun a => (a, decide ((a, true) ∈ seen))

theorem find?_withMarks (p : α → Bool) (seen : List (α × Bool)) :
    (withMarks seen m).find? (fun y => p y.1) = (m.find? p).map fun a => (a, decide ((a, true) ∈ seen)) := by
  rw [withMarks, List.find?_map]
  rfl

theorem orderedInsert_withMarks (seen : List (α × Bool)) (x : α) :
    (withMarks seen m).orderedInsert (fun a b => key a.1 ≤ key b.1) (x, decide ((x, true) ∈ seen)) =
      withMarks seen (m.orderedInsert (fun a b => key a ≤ key b) x) := by
  induction m with
  | nil => rfl
  | cons y m ih =>
    rw [withMarks, List.map_cons, List.orderedInsert_cons, List.orderedInsert_cons]
    split
    · rfl
    · rw [← withMarks, ih]
      rfl

omit [LinearOrder κ] in
/-- A mark added for a row shows on that row alone. -/
theorem decide_mem_concat (seen : List (α × Bool)) (x z : α) (mark : Bool) :
    decide ((z, true) ∈ seen ++ [(x, mark)]) = (decide ((z, true) ∈ seen) || (decide (z = x) && mark)) := by
  rw [Bool.eq_iff_iff]
  cases mark <;> simp

/-- A step on a marked map is a step on its rows; the mark is remembered. -/
theorem markRow_eq {seen : List (α × Bool)} {mark : Bool} (hm : KeyOrdered key m)
    (hseen : ∀ a, (a, true) ∈ seen → a ∈ m) :
    markRow key (withMarks seen m) (x, mark) =
      (mergeRow key m x).map (withMarks (seen ++ [(x, mark)])) := by
  unfold markRow mergeRow
  rw [find?_withMarks (fun a => key a = key x)]
  cases hfind : m.find? fun y => key y = key x with
  | some y =>
    have hy : y ∈ m := List.mem_of_find?_eq_some hfind
    rw [Option.map_some]
    dsimp only
    split
    case isTrue heq =>
      subst heq
      refine congrArg Except.ok ?_
      rw [withMarks, withMarks, List.map_map]
      refine List.map_congr_left fun z hz => ?_
      rw [Function.comp_apply, decide_mem_concat]
      by_cases hkey : key z = key y
      · have hzy : z = y := hm.consistent z hz y hy hkey
        simp [hzy]
      · have hzy : z ≠ y := fun h => hkey (congrArg key h)
        simp [hkey, hzy]
    case isFalse => rfl
  | none =>
    have hnew : x ∉ m := fun hx => by simpa using List.find?_eq_none.mp hfind x hx
    have hunseen : (x, true) ∉ seen := fun h => hnew (hseen x h)
    -- the marks of the rows that are there do not change, and the newcomer's is its own
    have hsame : withMarks (seen ++ [(x, mark)]) m = withMarks seen m := by
      refine List.map_congr_left fun z hz => ?_
      have hzx : z ≠ x := fun h => hnew (h ▸ hz)
      rw [decide_mem_concat]
      simp [hzx]
    have hmark : mark = decide ((x, true) ∈ seen ++ [(x, mark)]) := by
      rw [decide_mem_concat]
      simp [hunseen]
    dsimp only [Option.map_none, Except.map]
    rw [← orderedInsert_withMarks, ← hmark, hsame]

/-- **The marked fold** is the fold of the rows; a row ends up marked when a marked copy of it was folded. -/
theorem markRows_eq (xs : List (α × Bool)) :
    markRows key [] xs = (mergeRows key [] (xs.map Prod.fst)).map (withMarks xs) := by
  suffices h : ∀ (ys seen : List (α × Bool)) (m : List α), KeyOrdered key m →
      (∀ a, (a, true) ∈ seen → a ∈ m) →
        markRows key (withMarks seen m) ys = (mergeRows key m (ys.map Prod.fst)).map (withMarks (seen ++ ys)) from
    h xs [] [] .nil fun a ha => absurd ha List.not_mem_nil
  intro ys
  induction ys with
  | nil =>
    intro seen m _ _
    rw [List.append_nil]
    rfl
  | cons y ys ih =>
    intro seen m hm hseen
    obtain ⟨x, mark⟩ := y
    rw [markRows, List.map_cons, mergeRows, markRow_eq hm hseen]
    cases hstep : mergeRow key m x with
    | error k => rfl
    | ok m₁ =>
      obtain ⟨-, hm₁, hmem⟩ := (mergeRow_ok_iff hm).mp hstep
      have hseen₁ : ∀ a, (a, true) ∈ seen ++ [(x, mark)] → a ∈ m₁ := by
        intro a ha
        rcases List.mem_append.mp ha with ha | ha
        · exact (hmem a).mpr (.inl (hseen a ha))
        · rw [List.mem_singleton, Prod.mk.injEq] at ha
          exact (hmem a).mpr (.inr ha.1)
      dsimp only [Except.map]
      rw [ih _ m₁ hm₁ hseen₁, List.append_assoc, List.singleton_append]
      rfl

/-- The marked rows of a marked map, in key order. -/
theorem markRows_marked {xs m : List (α × Bool)} (h : markRows key [] xs = .ok m) :
    ∃ rows, KeyOrdered key rows ∧ (∀ a, a ∈ rows ↔ (a, true) ∈ xs) ∧ m.filter (·.2) = rows.map (·, true) := by
  rw [markRows_eq] at h
  cases hrows : mergeRows key [] (xs.map Prod.fst) with
  | error k =>
    rw [hrows] at h
    cases h
  | ok all =>
    rw [hrows] at h
    obtain rfl := Except.ok.inj h
    obtain ⟨-, hordered, hmem⟩ := mergeRows_ok_iff.mp hrows
    refine ⟨all.filter fun a => decide ((a, true) ∈ xs), hordered.sublist List.filter_sublist, ?_, ?_⟩
    · intro a
      rw [List.mem_filter, hmem, decide_eq_true_eq, and_iff_right_iff_imp]
      exact fun ha => List.mem_map_of_mem ha
    · rw [withMarks, List.filter_map]
      refine List.map_congr_left fun a ha => ?_
      exact congrArg (Prod.mk a) (List.mem_filter.mp ha).2

/-- A marked fold succeeds exactly on consistent rows. -/
theorem exists_markRows_iff {xs : List (α × Bool)} :
    (∃ m, markRows key [] xs = .ok m) ↔ Consistent key (xs.map Prod.fst) := by
  rw [markRows_eq]
  constructor
  · rintro ⟨m, hm⟩
    cases hrows : mergeRows key [] (xs.map Prod.fst) with
    | error k =>
      rw [hrows] at hm
      cases hm
    | ok rows => exact (mergeRows_ok_iff.mp hrows).1
  · intro h
    obtain ⟨rows, hrows⟩ := exists_mergeRows h
    exact ⟨_, by rw [hrows]; rfl⟩

end RallyPoint.Lib
