/-
# RallyPoint.Lib.TopPages — the first entries of an ordered list, read page by page.

A reader pages through candidates that come in the order of the answer, keeps those that pass a test and stops when it
has enough or a page runs short. Its first `limit` are then the first `limit` of all candidates that pass
(`take_of_walk`). When the candidates were themselves filtered beforehand, nothing is lost exactly if what the answer
holds gets through that filter (`take_filter_eq_iff`).
-/
import RallyPoint.Lib.StableSort

namespace RallyPoint.Lib

variable {α : Type*}

/-! ## The walk -/

/-- Pages of a list from `offset` on, with what was kept so far; no answer when the pages run out. -/
def walkPages (page limit : Nat) (keep : α → Bool) (rows : List α) : Nat → Nat → List α → Option (List α)
  | 0, _, _ => none
  | pages + 1, offset, out =>
    let read := (rows.drop offset).take page
    let out' := out ++ read.filter keep
    if limit ≤ out'.length ∨ read.length < page then some out'
    else walkPages page limit keep rows pages (offset + read.length) out'

section Walk

variable {page limit pages offset n : Nat} {keep p : α → Bool} {rows out l : List α}

/-- A walk keeps what a beginning of the list holds, and enough of it or all. -/
theorem walkPages_spec (hout : (rows.take offset).filter keep = out)
    (h : walkPages page limit keep rows pages offset out = some l) :
    ∃ k, l = (rows.take k).filter keep ∧ (limit ≤ l.length ∨ rows.length ≤ k) := by
  induction pages generalizing offset out with
  | zero => cases h
  | succ pages ih =>
    have hread : (rows.take (offset + page)).filter keep =
        out ++ ((rows.drop offset).take page).filter keep := by
      rw [List.take_add, List.filter_append, hout]
    rw [walkPages] at h
    by_cases hstop : limit ≤ (out ++ ((rows.drop offset).take page).filter keep).length ∨
        ((rows.drop offset).take page).length < page
    · rw [if_pos hstop] at h
      obtain rfl := Option.some.inj h
      refine ⟨offset + page, hread.symm, hstop.imp_right fun hshort => ?_⟩
      rw [List.length_take, List.length_drop] at hshort
      omega
    · rw [if_neg hstop] at h
      -- the page was full, so the next offset is a page further on
      have hfull : ((rows.drop offset).take page).length = page := by
        have hle := List.length_take_le page (rows.drop offset)
        have hnot := (not_or.mp hstop).2
        omega
      rw [hfull] at h
      exact ih hread h

/-- **A walk that answers** holds the first `limit` of what the list keeps. -/
theorem take_of_walk (h : walkPages page limit keep rows pages 0 [] = some l) :
    l.take limit = (rows.filter keep).take limit := by
  obtain ⟨k, rfl, henough⟩ := walkPages_spec (by simp) h
  have hsplit : rows.filter keep = (rows.take k).filter keep ++ (rows.drop k).filter keep := by
    rw [← List.filter_append, List.take_append_drop]
  rcases henough with henough | hall
  · rw [hsplit, List.take_append_of_le_length henough]
  · rw [List.take_of_length_le hall]

/-- What a walk keeps is in the order of the list. -/
theorem sublist_of_walk (h : walkPages page limit keep rows pages 0 [] = some l) : l.Sublist rows := by
  obtain ⟨k, rfl, -⟩ := walkPages_spec (by simp) h
  exact List.filter_sublist.trans (List.take_sublist k rows)

/-- **A filter takes nothing from the beginning** of a list exactly when what stands there passes it. -/
theorem take_filter_eq_iff : (l.filter p).take n = l.take n ↔ ∀ x ∈ l.take n, p x = true := by
  constructor
  · intro h x hx
    rw [← h] at hx
    exact (List.mem_filter.mp (List.mem_of_mem_take hx)).2
  · intro h
    have hbegin : (l.take n).filter p = l.take n := List.filter_eq_self.mpr h
    have hsplit : l.filter p = l.take n ++ (l.drop n).filter p := by
      rw [← hbegin, ← List.filter_append, List.take_append_drop]
    rw [hsplit]
    rcases Nat.le_total n l.length with hle | hle
    · rw [List.take_append_of_le_length (by simp [hle]), List.take_take, Nat.min_self]
    · rw [List.drop_of_length_le hle, List.filter_nil, List.append_nil, List.take_take, Nat.min_self]

end Walk

/-! ## Places in an ordered list -/

section Ordered

variable {r : α → α → Prop} [DecidableRel r] {l : List α} {n : Nat} {x : α}

/-- **The first `n` of an ordered list** are those with fewer than `n` before them. -/
theorem mem_take_iff (hirr : ∀ a, ¬r a a) (hasymm : ∀ a b, r a b → ¬r b a) (h : l.Pairwise r) :
    x ∈ l.take n ↔ x ∈ l ∧ (l.filter fun y => decide (r y x)).length < n := by
  induction l generalizing n with
  | nil => simp
  | cons a l ih =>
    obtain ⟨hhead, htail⟩ := List.pairwise_cons.mp h
    cases n with
    | zero => simp
    | succ n =>
      rw [List.take_succ_cons, List.mem_cons, List.mem_cons, ih htail]
      by_cases hxa : x = a
      · -- nothing is before the head
        subst hxa
        have hnone : (l.filter fun y => decide (r y x)) = [] := by
          refine List.filter_eq_nil_iff.mpr fun y hy => ?_
          simpa using hasymm x y (hhead y hy)
        simp [hirr, hnone]
      · by_cases hx : x ∈ l
        · simp [hxa, hx, hhead x hx]
        · simp [hxa, hx]

end Ordered

end RallyPoint.Lib
