/-
# RallyPoint.Lib.Steps — runs of a system whose actions are a partial function on states.

`step s a` is the state after action `a`, or nothing when `a` is not possible in `s`. `Reaches step may s`
collects the states of every run from `s` whose actions all meet the guard `may`; an invariant needs a base
case and one step, and a weaker guard reaches more. A closed run is a list of actions, evaluated by
`runActions`. A table of tasks is a partial function, and `update_eq_some` says where an entry comes from.
-/
import Mathlib.Logic.Function.Basic
import Mathlib.Tactic.Common

namespace RallyPoint.Lib

variable {σ α : Type*} {step : σ → α → Option σ} {may : σ → α → Prop} {s t : σ}

/-- The states that guarded runs reach from `s`. -/
inductive Reaches (step : σ → α → Option σ) (may : σ → α → Prop) (s : σ) : σ → Prop
  | refl : Reaches step may s s
  | step {t u : σ} {a : α} : Reaches step may s t → may t a → step t a = some u → Reaches step may s u

namespace Reaches

/-- The invariant rule. -/
theorem invariant {P : σ → Prop} (h0 : P s)
    (hstep : ∀ t a u, P t → may t a → step t a = some u → P u) (h : Reaches step may s t) : P t := by
  induction h with
  | refl => exact h0
  | step _ hmay hnext ih => exact hstep _ _ _ ih hmay hnext

/-- The guard may use what holds in every state reached. -/
theorem mono {may' : σ → α → Prop} (himp : ∀ t a, may t a → may' t a) (h : Reaches step may s t) :
    Reaches step may' s t := by
  induction h with
  | refl => exact .refl
  | step _ hmay hnext ih => exact .step ih (himp _ _ hmay) hnext

theorem trans {u : σ} (h : Reaches step may s t) (h' : Reaches step may t u) : Reaches step may s u := by
  induction h' with
  | refl => exact h
  | step _ hmay hnext ih => exact .step ih hmay hnext

end Reaches

section Runs

variable [∀ s a, Decidable (may s a)]

/-- A list of actions, one after another, each of which meets the guard. -/
def runActions (step : σ → α → Option σ) (may : σ → α → Prop) [∀ s a, Decidable (may s a)] :
    σ → List α → Option σ
  | s, [] => some s
  | s, a :: rest => if may s a then (step s a).bind fun t => runActions step may t rest else none

/-- A list of actions that can be run is a run. -/
theorem reaches_of_run {acts : List α} (hrun : runActions step may s acts = some t) :
    Reaches step may s t := by
  induction acts generalizing s with
  | nil =>
    obtain rfl := Option.some.inj hrun
    exact .refl
  | cons a rest ih =>
    rw [runActions] at hrun
    split at hrun
    · obtain ⟨u, hu, hrest⟩ := Option.bind_eq_some_iff.mp hrun
      exact (Reaches.step .refl ‹_› hu).trans (ih hrest)
    · cases hrun

end Runs

/-- An entry of an updated table is the new one or an old one. -/
theorem update_eq_some {κ β : Type*} [DecidableEq κ] {f : κ → Option β} {k k' : κ} {v : Option β} {x : β}
    (h : Function.update f k v k' = some x) : (k' = k ∧ v = some x) ∨ (k' ≠ k ∧ f k' = some x) := by
  rw [Function.update_apply] at h
  split at h
  · exact .inl ⟨‹_›, h⟩
  · exact .inr ⟨‹_›, h⟩

end RallyPoint.Lib
