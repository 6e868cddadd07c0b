/-
# RallyPoint.Lib.StableSort — stable sorting by a key.

`sort_by` orders by some of an element's fields, so two elements may tie. What a stable sort of a list
leaves to the input order is then exactly the order inside each class of ties. The lemmas below say both
halves of it: a reading that ties cannot tell apart forgets the input order (`map_eq_of_perm_of_sorted`),
and one class comes out as it went in (`filter_insertionSort_class`).
-/
import Mathlib.Data.List.Sort

namespace RallyPoint.Lib

variable {α β κ : Type*}

/-- A list in the order of a key. -/
def SortedBy [LE κ] (key : α → κ) (l : List α) : Prop := l.Pairwise fun a b => key a ≤ key b

section Key

variable [LinearOrder κ] {key : α → κ} {l l₁ l₂ : List α}

theorem SortedBy.filter (h : SortedBy key l) (p : α → Bool) : SortedBy key (l.filter p) :=
  List.Pairwise.filter p h

/-- Sorting by a relation that compares keys sorts by the key. -/
theorem sortedBy_insertionSort {le : α → α → Prop} [DecidableRel le] (hle : ∀ a b, le a b ↔ key a ≤ key b)
    (l : List α) : SortedBy key (l.insertionSort le) := by
  have : Std.Total le := ⟨fun a b => by rw [hle, hle]; exact le_total _ _⟩
  have : IsTrans α le := ⟨fun a b c => by rw [hle, hle, hle]; exact le_trans⟩
  exact (List.pairwise_insertionSort le l).imp fun h => (hle _ _).mp h

/-- **A reading forgets the input order** when tied elements read alike. -/
theorem map_eq_of_perm_of_sorted {f : α → β} (hperm : l₁.Perm l₂) (h₁ : SortedBy key l₁)
    (h₂ : SortedBy key l₂) (htie : ∀ a ∈ l₁, ∀ b ∈ l₁, key a = key b → f a = f b) :
    l₁.map f = l₂.map f := by
  -- with its key beside it, a reading is decided by the key
  let read : α → κ × β := fun a => (key a, f a)
  have hread : l₁.map read = l₂.map read := by
    have hpair : ∀ l : List α, SortedBy key l → (l.map read).Pairwise fun x y => x.1 ≤ y.1 := fun l h =>
      List.pairwise_map.mpr h
    apply List.Perm.eq_of_pairwise ?_ (hpair l₁ h₁) (hpair l₂ h₂) (hperm.map read)
    intro x y hx hy hxy hyx
    obtain ⟨a, ha, rfl⟩ := List.mem_map.mp hx
    obtain ⟨b, hb, rfl⟩ := List.mem_map.mp hy
    have hkey : key a = key b := le_antisymm hxy hyx
    exact Prod.ext hkey (htie a ha b (hperm.mem_iff.mpr hb) hkey)
  have hsnd := congrArg (List.map Prod.snd) hread
  rwa [List.map_map, List.map_map] at hsnd

/-- Without ties the sorted list is determined by its members. -/
theorem eq_of_perm_of_sorted (hperm : l₁.Perm l₂) (h₁ : SortedBy key l₁) (h₂ : SortedBy key l₂)
    (hinj : ∀ a ∈ l₁, ∀ b ∈ l₁, key a = key b → a = b) : l₁ = l₂ := by
  simpa using map_eq_of_perm_of_sorted (f := id) hperm h₁ h₂ hinj

/-- Sorted readings of the same elements agree on the keys. -/
theorem map_key_eq_of_perm_of_sorted (hperm : l₁.Perm l₂) (h₁ : SortedBy key l₁) (h₂ : SortedBy key l₂) :
    l₁.map key = l₂.map key :=
  map_eq_of_perm_of_sorted hperm h₁ h₂ fun _ _ _ _ h => h

/-- The key of the first element that passes a test. -/
theorem find?_key_eq_of_filter_perm {p : α → Bool} (hperm : (l₁.filter p).Perm (l₂.filter p))
    (h₁ : SortedBy key l₁) (h₂ : SortedBy key l₂) : (l₁.find? p).map key = (l₂.find? p).map key := by
  have hmap := map_key_eq_of_perm_of_sorted hperm (h₁.filter p) (h₂.filter p)
  rw [← List.head?_filter, ← List.head?_filter, ← List.head?_map, ← List.head?_map, hmap]

/-- In a sorted list the elements tied with the head stand right behind it. -/
theorem SortedBy.exists_tied {a a' : α} {t : List α} (h : SortedBy key (a :: t)) (hmem : a' ∈ t)
    (hkey : key a' = key a) : ∃ b t', t = b :: t' ∧ key b = key a := by
  cases t with
  | nil => cases hmem
  | cons b t' =>
    obtain ⟨hhead, htail⟩ := List.pairwise_cons.mp h
    have hab : key a ≤ key b := hhead b List.mem_cons_self
    refine ⟨b, t', rfl, ?_⟩
    rcases List.mem_cons.mp hmem with rfl | hmem
    · exact hkey
    · have hba' : key b ≤ key a' := (List.pairwise_cons.mp htail).1 a' hmem
      exact (hba'.trans_eq hkey).antisymm hab

end Key

/-- **A class of ties comes out as it went in.** -/
theorem filter_insertionSort_class {le : α → α → Prop} [DecidableRel le] {p : α → Bool}
    (hp : ∀ a b, p a = true → p b = true → le a b) (l : List α) :
    (l.insertionSort le).filter p = l.filter p := by
  have hpair : (l.filter p).Pairwise le := List.pairwise_of_forall_mem_list fun a ha b hb =>
    hp a b (List.mem_filter.mp ha).2 (List.mem_filter.mp hb).2
  have hsub : (l.filter p).Sublist (l.insertionSort le) :=
    List.sublist_insertionSort hpair List.filter_sublist
  have hsub' : (l.filter p).Sublist ((l.insertionSort le).filter p) := by
    simpa using hsub.filter p
  refine (hsub'.eq_of_length ?_).symm
  exact ((List.perm_insertionSort le l).filter p).length_eq.symm

end RallyPoint.Lib
