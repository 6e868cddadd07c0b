/-
# RallyPoint.Lib.Ranges — runs of half-open ranges.

A consumer that is handed `(from, to]` again and again has missed nothing when the first range starts where it
started and each later one where the one before it ended (`Contiguous`). Contiguous ranges cover every value up
to the last end, and each value once.
-/
import Mathlib.Data.List.Chain
import Mathlib.Order.Interval.Set.Defs
import Mathlib.Order.Lattice

namespace RallyPoint.Lib

variable {α : Type*} {start lo hi n : α} {ranges : List (α × α)}

/-- The first range starts at `start`, each later one where the one before it ended. -/
def Contiguous (start : α) (ranges : List (α × α)) : Prop :=
  List.IsChain (fun before after => after.1 = before.2) ((start, start) :: ranges)

@[simp] theorem contiguous_nil : Contiguous start [] := List.IsChain.singleton _

@[simp] theorem contiguous_cons :
    Contiguous start ((lo, hi) :: ranges) ↔ lo = start ∧ Contiguous hi ranges := by
  unfold Contiguous
  rw [List.isChain_cons_cons]
  cases ranges <;> simp

/-- Where the ranges end. -/
def rangesEnd : α → List (α × α) → α
  | start, [] => start
  | _, (_, hi) :: rest => rangesEnd hi rest

section Order

variable [LinearOrder α]

theorem le_rangesEnd (hlt : ∀ r ∈ ranges, r.1 < r.2) (h : Contiguous start ranges) :
    start ≤ rangesEnd start ranges := by
  induction ranges generalizing start with
  | nil => exact le_rfl
  | cons r rest ih =>
    obtain ⟨rfl, hrest⟩ := contiguous_cons.mp h
    have hr : r.1 < r.2 := hlt r (by simp)
    exact hr.le.trans (ih (fun q hq => hlt q (by simp [hq])) hrest)

theorem snd_le_rangesEnd {r : α × α} (hlt : ∀ r ∈ ranges, r.1 < r.2) (h : Contiguous start ranges)
    (hr : r ∈ ranges) : r.2 ≤ rangesEnd start ranges := by
  induction ranges generalizing start with
  | nil => cases hr
  | cons q rest ih =>
    obtain ⟨-, hrest⟩ := contiguous_cons.mp h
    have hltrest : ∀ p ∈ rest, p.1 < p.2 := fun p hp => hlt p (by simp [hp])
    rcases List.mem_cons.mp hr with rfl | hr
    · exact le_rangesEnd hltrest hrest
    · exact ih hltrest hrest hr

/-- **Contiguous ranges leave nothing out** between the start and their end, and reach no further. -/
theorem exists_range_iff (hlt : ∀ r ∈ ranges, r.1 < r.2) (h : Contiguous start ranges) :
    (∃ r ∈ ranges, n ∈ Set.Ioc r.1 r.2) ↔ n ∈ Set.Ioc start (rangesEnd start ranges) := by
  induction ranges generalizing start with
  | nil => simp [rangesEnd]
  | cons r rest ih =>
    obtain ⟨rfl, hrest⟩ := contiguous_cons.mp h
    have hr : r.1 < r.2 := hlt r (by simp)
    have hle : r.2 ≤ rangesEnd r.2 rest := le_rangesEnd (fun q hq => hlt q (by simp [hq])) hrest
    have hcover := ih (fun q hq => hlt q (by simp [hq])) hrest
    rw [List.exists_mem_cons_iff, hcover]
    simp only [rangesEnd, Set.mem_Ioc]
    constructor
    · rintro (⟨hlo, hhi⟩ | ⟨hlo, hhi⟩)
      · exact ⟨hlo, hhi.trans hle⟩
      · exact ⟨hr.trans hlo, hhi⟩
    · rintro ⟨hlo, hhi⟩
      rcases le_or_gt n r.2 with hn | hn
      · exact .inl ⟨hlo, hn⟩
      · exact .inr ⟨hn, hhi⟩

end Order

end RallyPoint.Lib
