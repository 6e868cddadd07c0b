/-
# RallyPoint.Lib.Budget — the rows that fit a budget, from the front.

A reply is cut where the next row would exceed what is left. What is kept is a prefix, and a row is in it exactly
when it and everything before it fit together. Beside it the maximum of a measure over a list and over a prefix of
it: they agree exactly when every row left out is covered by one that was kept.
-/
import RallyPoint.Lib.Str

namespace RallyPoint.Lib

variable {α : Type*}

theorem sumOf_cons (size : α → Nat) (x : α) (l : List α) : sumOf size (x :: l) = size x + sumOf size l := by
  have h := sumOf_append size [x] l
  rw [List.singleton_append] at h
  rw [h, sumOf]
  simp

section Budget

variable (size : α → Nat) (budget : Nat)

/-- Rows from the front, up to the first one that does not fit any more. -/
def takeWithin (used : Nat) : List α → List α
  | [] => []
  | x :: rest => if used + size x > budget then [] else x :: takeWithin (used + size x) rest

variable {size : α → Nat} {budget used : Nat} {l : List α} {i : Nat}

theorem takeWithin_prefix : takeWithin size budget used l <+: l := by
  induction l generalizing used with
  | nil => exact List.prefix_refl []
  | cons x rest ih =>
    rw [takeWithin]
    split_ifs
    · exact List.nil_prefix
    · exact List.cons_prefix_cons.mpr ⟨rfl, ih⟩

/-- **A row is kept** exactly when it fits together with all before it. -/
theorem lt_length_takeWithin_iff :
    i < (takeWithin size budget used l).length ↔ i < l.length ∧ used + sumOf size (l.take (i + 1)) ≤ budget := by
  induction l generalizing used i with
  | nil => simp [takeWithin]
  | cons x rest ih =>
    rw [takeWithin, List.take_succ_cons]
    cases i with
    | zero => split_ifs with hover <;> simp [sumOf] <;> omega
    | succ i =>
      split_ifs with hover
      · simp only [List.length_nil, Nat.not_lt_zero, false_iff, not_and, Nat.not_le]
        intro _
        simp only [sumOf_cons]
        omega
      · rw [List.length_cons, Nat.add_lt_add_iff_right, ih, List.length_cons, Nat.add_lt_add_iff_right, sumOf_cons,
          Nat.add_assoc]

end Budget

section Largest

variable (measure : α → Int)

/-- The largest value of a measure, 0 on no rows. -/
def largest (l : List α) : Int := (l.map measure).max?.getD 0

variable {measure : α → Int} {l kept rest : List α} {b : Int}

theorem le_largest {x : α} (h : x ∈ l) : measure x ≤ largest measure l := by
  have hmem : measure x ∈ l.map measure := List.mem_map_of_mem h
  rw [largest]
  cases hmax : (l.map measure).max? with
  | none =>
    rw [List.max?_eq_none_iff.mp hmax] at hmem
    cases hmem
  | some m => exact (List.max?_eq_some_iff.mp hmax).2 _ hmem

theorem largest_nonneg (hpos : ∀ x, 0 ≤ measure x) : 0 ≤ largest measure l := by
  cases l with
  | nil => exact le_rfl
  | cons x l => exact (hpos x).trans (le_largest List.mem_cons_self)

theorem exists_of_largest (hne : 0 < largest measure l) : ∃ x ∈ l, measure x = largest measure l := by
  unfold largest at hne ⊢
  cases hmax : (l.map measure).max? with
  | none =>
    rw [hmax] at hne
    exact absurd hne (lt_irrefl 0)
  | some m =>
    obtain ⟨x, hx, hm⟩ := List.mem_map.mp (List.max?_mem hmax)
    exact ⟨x, hx, hm⟩

theorem largest_le (hb : 0 ≤ b) (h : ∀ x ∈ l, measure x ≤ b) : largest measure l ≤ b := by
  by_cases hpos : 0 < largest measure l
  · obtain ⟨x, hx, heq⟩ := exists_of_largest hpos
    exact heq ▸ h x hx
  · omega

/-- **A prefix has the same maximum** exactly when each row behind it is covered by a row of it. -/
theorem largest_append_eq_iff (hpos : ∀ x, 0 ≤ measure x) :
    largest measure kept = largest measure (kept ++ rest) ↔
      ∀ x ∈ rest, measure x = 0 ∨ ∃ e ∈ kept, measure x ≤ measure e := by
  constructor
  · intro heq x hx
    have hle : measure x ≤ largest measure kept := heq ▸ le_largest (List.mem_append_right kept hx)
    by_cases hzero : 0 < largest measure kept
    · obtain ⟨e, he, heq'⟩ := exists_of_largest hzero
      exact Or.inr ⟨e, he, heq' ▸ hle⟩
    · have hx0 := hpos x
      exact Or.inl (by omega)
  · intro hcover
    have hkept : 0 ≤ largest measure kept := largest_nonneg hpos
    apply le_antisymm
    · exact largest_le (largest_nonneg hpos) fun x hx => le_largest (List.mem_append_left rest hx)
    · refine largest_le hkept fun x hx => ?_
      rcases List.mem_append.mp hx with hx | hx
      · exact le_largest hx
      · rcases hcover x hx with hzero | ⟨e, he, hle⟩
        · exact hzero.trans_le hkept
        · exact hle.trans (le_largest he)

end Largest

end RallyPoint.Lib
