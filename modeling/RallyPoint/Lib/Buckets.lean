/-
# RallyPoint.Lib.Buckets — a list indexed by the keys of its elements.

`entry(key).or_default().push(value)` in a loop fills a map from keys to the values pushed under them, in the
order they came. An element may be pushed under several keys, and several times under one. What the loop leaves
behind is read off the list (`fill_apply`); a question that only elements of one bucket can answer has the same
answer over the bucket as over the list (`any_fill`).
-/
import Mathlib.Data.List.Basic

namespace RallyPoint.Lib

variable {κ α : Type*} [DecidableEq κ]

/-- A map of vectors; a key without an entry has nothing under it. -/
abbrev Buckets (κ α : Type*) := κ → List α

namespace Buckets

def empty : Buckets κ α := fun _ => []

/-- `entry(key).or_default().push(x)`. -/
def push (b : Buckets κ α) (key : κ) (x : α) : Buckets κ α := fun k => if k = key then b k ++ [x] else b k

/-- `push` for each key of one element. -/
def pushAll (b : Buckets κ α) (keys : List κ) (x : α) : Buckets κ α := keys.foldl (fun b key => b.push key x) b

/-- The loop over the elements. -/
def fill (keysOf : α → List κ) (l : List α) : Buckets κ α := l.foldl (fun b x => b.pushAll (keysOf x) x) empty

variable {keysOf : α → List κ} {l : List α} {k : κ} {x : α}

theorem pushAll_apply (b : Buckets κ α) (keys : List κ) (x : α) (k : κ) :
    b.pushAll keys x k = b k ++ List.replicate (keys.count k) x := by
  induction keys generalizing b with
  | nil => simp [pushAll]
  | cons key keys ih =>
    have hstep : b.pushAll (key :: keys) x k = (b.push key x).pushAll keys x k := rfl
    rw [hstep, ih, push]
    by_cases hk : k = key
    · rw [if_pos hk, hk, List.count_cons_self, List.append_assoc, List.replicate_succ, List.singleton_append]
    · rw [if_neg hk, List.count_cons_of_ne (Ne.symm hk)]

/-- **What the loop leaves under a key:** the elements that have it, each as often as it has it. -/
theorem fill_apply (keysOf : α → List κ) (l : List α) (k : κ) :
    fill keysOf l k = l.flatMap fun x => List.replicate ((keysOf x).count k) x := by
  have hfold : ∀ b : Buckets κ α, l.foldl (fun b x => b.pushAll (keysOf x) x) b k =
      b k ++ l.flatMap fun x => List.replicate ((keysOf x).count k) x := by
    induction l with
    | nil => simp
    | cons x l ih =>
      intro b
      rw [List.foldl_cons, ih, pushAll_apply, List.flatMap_cons, List.append_assoc]
  exact (hfold empty).trans (List.nil_append _)

theorem mem_fill : x ∈ fill keysOf l k ↔ x ∈ l ∧ k ∈ keysOf x := by
  rw [fill_apply, List.mem_flatMap]
  constructor
  · rintro ⟨y, hy, hx⟩
    obtain ⟨hcount, rfl⟩ := List.mem_replicate.mp hx
    exact ⟨hy, List.count_pos_iff.mp (Nat.pos_of_ne_zero hcount)⟩
  · rintro ⟨hx, hk⟩
    exact ⟨x, hx, List.mem_replicate.mpr ⟨Nat.pos_iff_ne_zero.mp (List.count_pos_iff.mpr hk), rfl⟩⟩

/-- Of elements with at most one key, a bucket is a filter. -/
theorem fill_eq_filter {key : α → Option κ} (hkey : ∀ x, keysOf x = (key x).toList) (l : List α) (k : κ) :
    fill keysOf l k = l.filter fun x => key x = some k := by
  rw [fill_apply]
  induction l with
  | nil => rfl
  | cons x l ih =>
    rw [List.flatMap_cons, ih, hkey, List.filter_cons]
    cases hx : key x with
    | none => simp
    | some k' =>
      by_cases hk : k' = k
      · simp [hk]
      · simp [hk]

/-- **A bucket answers for the list** where every element that could answer has its key. -/
theorem any_fill {p : α → Bool} (h : ∀ x ∈ l, p x = true → k ∈ keysOf x) :
    (fill keysOf l k).any p = l.any p := by
  rw [Bool.eq_iff_iff, List.any_eq_true, List.any_eq_true]
  constructor
  · rintro ⟨x, hx, hp⟩
    exact ⟨x, (mem_fill.mp hx).1, hp⟩
  · rintro ⟨x, hx, hp⟩
    exact ⟨x, mem_fill.mpr ⟨hx, h x hx hp⟩, hp⟩

end Buckets

end RallyPoint.Lib
