/-
# RallyPoint.Lib.Check — sequences of checks that stop at the first refusal.

A gate is a chain of `Except ε Unit` checks: it accepts exactly when every check accepts. The lemmas turn
an accepted chain into the list of its accepted checks, which is the only way proofs look into a gate.
-/
import Mathlib.Tactic.Common

namespace RallyPoint.Lib

variable {ε α : Type*}

/-- A chain of two checks accepts exactly when both do. -/
theorem check_bind_ok_iff {x y : Except ε Unit} :
    (x >>= fun _ => y) = .ok () ↔ x = .ok () ∧ y = .ok () := by
  cases x <;> simp [bind, Except.bind]

/-- A computation after another succeeds exactly when the first one does and feeds it. -/
theorem bind_ok_iff {α β : Type} {x : Except ε α} {f : α → Except ε β} {b : β} :
    (x >>= f) = .ok b ↔ ∃ a, x = .ok a ∧ f a = .ok b := by
  cases x <;> simp [bind, Except.bind]

/-- A check repeated over a list accepts exactly when it accepts every element. -/
theorem check_forM_ok_iff {check : α → Except ε Unit} {l : List α} :
    l.forM check = .ok () ↔ ∀ x ∈ l, check x = .ok () := by
  induction l with
  | nil => simp [pure, Except.pure]
  | cons a l ih =>
    have hcons : (a :: l).forM check = (check a >>= fun _ => l.forM check) := rfl
    rw [hcons, check_bind_ok_iff, ih, List.forall_mem_cons]

/-- A refusal under a condition accepts exactly when the condition fails. -/
theorem check_refuse_ok_iff {p : Prop} [Decidable p] {e : ε} {x : Except ε α} {a : α} :
    (if p then .error e else x) = .ok a ↔ ¬p ∧ x = .ok a := by
  by_cases h : p <;> simp [h]

/-- A mapped result succeeds exactly when there was one to map. -/
theorem map_eq_ok_iff {ε α β : Type} {f : α → β} {x : Except ε α} {b : β} :
    x.map f = .ok b ↔ ∃ a, x = .ok a ∧ f a = b := by
  cases x <;> simp [Except.map]

/-- A result that gives an option something gave it that. -/
theorem ok_of_toOption {ε α : Type} {r : Except ε α} {a : α} (h : r.toOption = some a) : r = .ok a := by
  cases r with
  | error e => cases h
  | ok b => exact congrArg Except.ok (Option.some.inj h)

/-- A list is decoded exactly when each of its entries is. -/
theorem mapM_ok_iff {ε α β : Type} {f : α → Except ε β} {l : List α} {bs : List β} :
    l.mapM f = .ok bs ↔ (∀ a ∈ l, ∃ b, f a = .ok b) ∧ bs = l.filterMap fun a => (f a).toOption := by
  induction l generalizing bs with
  | nil => simp [pure, Except.pure, eq_comm]
  | cons a l ih =>
    rw [List.mapM_cons, bind_ok_iff, List.forall_mem_cons, List.filterMap_cons]
    cases hfa : f a with
    | error e => simp
    | ok b =>
      simp only [Except.ok.injEq, exists_eq_left', bind_ok_iff, ih, pure, Except.pure, exists_eq', true_and,
        Except.toOption]
      constructor
      · rintro ⟨later, ⟨hall, rfl⟩, rfl⟩
        exact ⟨hall, rfl⟩
      · rintro ⟨hall, rfl⟩
        exact ⟨_, ⟨hall, rfl⟩, rfl⟩

/-- A decoded list is as long as the list. -/
theorem length_of_mapM {ε α β : Type} {f : α → Except ε β} {l : List α} {bs : List β} (h : l.mapM f = .ok bs) :
    bs.length = l.length := by
  induction l generalizing bs with
  | nil =>
    cases h
    rfl
  | cons a l ih =>
    simp only [List.mapM_cons, bind_ok_iff, pure, Except.pure, Except.ok.injEq] at h
    obtain ⟨b, -, bs, hbs, rfl⟩ := h
    rw [List.length_cons, List.length_cons, ih hbs]

end RallyPoint.Lib
