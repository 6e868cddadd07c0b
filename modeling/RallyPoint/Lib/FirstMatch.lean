/-
# RallyPoint.Lib.FirstMatch — the first occurrence of a pattern in a list.

`cut p l` is what lies before and after the first occurrence of `p` in `l`. A pattern that has its first element
nowhere else (`Led`) cannot run into another such pattern that starts with the same element, so where it occurs first
is read off the list: `cut_eq_some_iff`.
-/
import Mathlib.Data.List.Infix

namespace RallyPoint.Lib.FirstMatch

variable {α : Type*}

section Cut

variable [DecidableEq α]

/-- What lies before the first occurrence of a pattern, and what after it. -/
def cut (p : List α) : List α → Option (List α × List α)
  | [] => if p = [] then some ([], []) else none
  | x :: l =>
    if p.isPrefixOf (x :: l) then some ([], (x :: l).drop p.length)
    else (cut p l).map fun r => (x :: r.1, r.2)

end Cut

/-- A pattern that starts with an element it has nowhere else. -/
def Led (c : α) (p : List α) : Prop := ∃ rest, p = c :: rest ∧ c ∉ rest

variable {p q l a b : List α} {c : α}

theorem Led.ne_nil (h : Led c p) : p ≠ [] := by
  obtain ⟨rest, rfl, -⟩ := h
  exact List.cons_ne_nil c rest

/-- A pattern across the seam of two lists starts in the first one; led by `c`, it meets no `c` in the second. -/
theorem Led.infix_append (hp : Led c p) (hb : b.head? = some c) : p <:+: a ++ b ↔ p <:+: a ∨ p <:+: b := by
  constructor
  · intro h
    rcases List.infix_append_iff.mp h with h | h | ⟨p₁, p₂, hsplit, hp₁, hp₂⟩
    · exact Or.inl h
    · exact Or.inr h
    · obtain ⟨rest, rfl, hc⟩ := hp
      rcases p₁ with _ | ⟨d, p₁⟩
      · rw [hsplit, List.nil_append]
        exact Or.inr hp₂.isInfix
      · obtain ⟨-, rfl⟩ := List.cons.inj hsplit
        rcases p₂ with _ | ⟨e, p₂⟩
        · rw [hsplit, List.append_nil]
          exact Or.inl hp₁.isInfix
        · obtain ⟨t, rfl⟩ := hp₂
          obtain rfl : e = c := Option.some.inj hb
          exact absurd (List.mem_append_right p₁ List.mem_cons_self) hc
  · rintro (h | h)
    · exact List.infix_append_of_infix_left h
    · exact List.infix_append_of_infix_right h

/-! ## The first occurrence -/

variable [DecidableEq α]

theorem append_of_cut (h : cut p l = some (a, b)) : l = a ++ p ++ b := by
  induction l generalizing a b with
  | nil =>
    rw [cut] at h
    split at h
    · rename_i hp
      obtain ⟨rfl, rfl⟩ := Prod.mk.inj (Option.some.inj h)
      simp [hp]
    · cases h
  | cons x l ih =>
    rw [cut] at h
    split at h
    · rename_i hpart
      obtain ⟨rfl, rfl⟩ := Prod.mk.inj (Option.some.inj h)
      obtain ⟨t, ht⟩ := List.isPrefixOf_iff_prefix.mp hpart
      rw [← ht, List.drop_left, List.nil_append]
    · obtain ⟨⟨a', b'⟩, hrest, heq⟩ := Option.map_eq_some_iff.mp h
      obtain ⟨rfl, rfl⟩ := Prod.mk.inj heq
      rw [ih hrest]
      rfl

theorem cut_eq_none (hp : p ≠ []) : cut p l = none ↔ ¬p <:+: l := by
  induction l with
  | nil => simp [cut, hp]
  | cons x l ih =>
    rw [cut, List.infix_cons_iff, ← List.isPrefixOf_iff_prefix]
    split
    · rename_i hpart
      simp [hpart]
    · rename_i hpart
      rw [Option.map_eq_none_iff, ih]
      simp [hpart]

/-- Behind a list without the pattern, the pattern is met first where it is put. -/
theorem Led.cut_append (hp : Led c p) (ha : ¬p <:+: a) : cut p (a ++ (p ++ b)) = some (a, b) := by
  induction a with
  | nil =>
    obtain ⟨rest, rfl, -⟩ := hp
    rw [List.nil_append, List.cons_append, cut, ← List.cons_append,
      if_pos (List.isPrefixOf_iff_prefix.mpr (List.prefix_append _ _)), List.drop_left]
  | cons x a ih =>
    have hpart : ¬p <+: x :: (a ++ (p ++ b)) := by
      intro h
      rw [← List.cons_append] at h
      rcases List.prefix_or_prefix_of_prefix h (List.prefix_append (x :: a) (p ++ b)) with h' | ⟨q, hq⟩
      · exact ha h'.isInfix
      · -- the pattern would start in the list in front and meet its own first element again
        rw [← hq, List.prefix_append_right_inj] at h
        obtain ⟨rest, hp, hc⟩ := hp
        rw [hp, List.cons_append] at hq
        obtain ⟨hxc, rfl⟩ := List.cons.inj hq
        rcases q with _ | ⟨e, q⟩
        · refine ha ?_
          rw [hp, ← hq, List.append_nil]
        · obtain ⟨t, ht⟩ := h
          have hec : e = c := (List.cons.inj ht).1.trans hxc
          exact hc (List.mem_append_right a (hec ▸ List.mem_cons_self))
    rw [List.cons_append, cut, if_neg (by rwa [List.isPrefixOf_iff_prefix]),
      ih fun h => ha (List.infix_cons h)]
    rfl

theorem Led.not_infix_of_cut (hp : Led c p) (h : cut p l = some (a, b)) : ¬p <:+: a := by
  induction l generalizing a b with
  | nil =>
    rw [cut, if_neg hp.ne_nil] at h
    cases h
  | cons x l ih =>
    rw [cut] at h
    split at h
    · obtain ⟨rfl, -⟩ := Prod.mk.inj (Option.some.inj h)
      rw [List.infix_nil]
      exact hp.ne_nil
    · rename_i hpart
      obtain ⟨⟨a', b'⟩, hrest, heq⟩ := Option.map_eq_some_iff.mp h
      obtain ⟨rfl, rfl⟩ := Prod.mk.inj heq
      rw [List.infix_cons_iff]
      rintro (hfront | hlater)
      · refine hpart (List.isPrefixOf_iff_prefix.mpr (hfront.trans ?_))
        rw [append_of_cut hrest, List.append_assoc]
        exact List.prefix_append (x :: a') (p ++ b')
      · exact ih hrest hlater

/-- **The first occurrence**, read off the list. -/
theorem Led.cut_eq_some_iff (hp : Led c p) : cut p l = some (a, b) ↔ l = a ++ (p ++ b) ∧ ¬p <:+: a := by
  constructor
  · exact fun h => ⟨(append_of_cut h).trans (List.append_assoc a p b), hp.not_infix_of_cut h⟩
  · rintro ⟨rfl, ha⟩
    exact hp.cut_append ha

end RallyPoint.Lib.FirstMatch
