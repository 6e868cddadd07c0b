/-
# RallyPoint.Lib.Versioned — read at a version, write if it still stands.

A reader takes a view of a shared state and with it a token, which is the version it read at or a smaller one. A
writer that finds the version equal to its token may act on what it read, because a change of the view makes the
version grow. `Current` is what a token is good for, and `Current.advance` keeps it through every change.
-/
import Mathlib.Order.Basic

namespace RallyPoint.Lib

variable {σ ι υ : Type*} [PartialOrder υ] {version : σ → υ} {view : σ → ι} {s t u : σ}

/-- From `s` to `t` the version grew, or neither it nor the view changed. -/
def Advances (version : σ → υ) (view : σ → ι) (s t : σ) : Prop :=
  version s < version t ∨ version s = version t ∧ view s = view t

theorem Advances.trans (h : Advances version view s t) (h' : Advances version view t u) :
    Advances version view s u := by
  rcases h with h | ⟨h, hview⟩
  · rcases h' with h' | ⟨h', -⟩
    · exact .inl (h.trans h')
    · exact .inl (h.trans_eq h')
  · rcases h' with h' | ⟨h', hview'⟩
    · exact .inl (h.trans_lt h')
    · exact .inr ⟨h.trans h', hview.trans hview'⟩

/-- A token below the version, under which `P` was read. -/
structure Current (version : σ → υ) (view : σ → ι) (P : ι → Prop) (token : υ) (s : σ) : Prop where
  le : token ≤ version s
  still : token = version s → P (view s)

variable {P : ι → Prop} {token : υ}

theorem Current.of_read (hle : token ≤ version s) (hP : P (view s)) : Current version view P token s :=
  ⟨hle, fun _ => hP⟩

/-- A token stays good, or its version has passed. -/
theorem Current.advance (h : Current version view P token s) (hst : Advances version view s t) :
    Current version view P token t := by
  rcases hst with hlt | ⟨heq, hview⟩
  · have hpassed : token < version t := h.le.trans_lt hlt
    exact ⟨hpassed.le, fun hstill => absurd hstill hpassed.ne⟩
  · refine ⟨heq ▸ h.le, fun hstill => ?_⟩
    rw [← hview]
    exact h.still (hstill.trans heq.symm)

end RallyPoint.Lib
