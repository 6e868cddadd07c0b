/-
# RallyPoint.Lib.Settle — a number that is part of what it counts.

A text that states its own length is measured, the length is entered, and the text is measured again, until nothing
changes. `settle` is that loop with a bound on its rounds. When the length enters only with its decimal width, four
rounds are enough (`iterate_width`).
-/
import Mathlib.Algebra.Group.Nat.Defs
import Mathlib.Data.Nat.Log
import Mathlib.Logic.Function.Iterate

namespace RallyPoint.Lib

/-- Iterate until a fixed point is reached, at most so many times. -/
def settle (f : Nat → Nat) : Nat → Nat → Nat
  | 0, n => n
  | rounds + 1, n => if f n = n then n else settle f rounds (f n)

variable {f g : Nat → Nat} {n k rounds : Nat}

theorem settle_fixed (h : f n = n) : settle f rounds n = n := by
  cases rounds with
  | zero => rfl
  | succ rounds => rw [settle, if_pos h]

/-- A fixed point that iteration reaches is reached by as many rounds. -/
theorem settle_of_iterate (hk : f (f^[k] n) = f^[k] n) (hrounds : k ≤ rounds) :
    f (settle f rounds n) = settle f rounds n := by
  induction k generalizing n rounds with
  | zero => rw [Function.iterate_zero_apply] at hk; rwa [settle_fixed hk]
  | succ k ih =>
    obtain ⟨rounds, rfl⟩ := Nat.exists_eq_add_of_le' hrounds
    rw [show rounds + (k + 1) = rounds + k + 1 from rfl, settle]
    split
    case isTrue hfixed => exact hfixed
    case isFalse =>
      rw [Function.iterate_succ_apply] at hk
      exact ih hk (Nat.le_add_left k rounds)

theorem settle_lt {bound : Nat} (hstays : ∀ n < bound, f n < bound) (hn : n < bound) : settle f rounds n < bound := by
  induction rounds generalizing n with
  | zero => exact hn
  | succ rounds ih =>
    rw [settle]
    split
    case isTrue => exact hn
    case isFalse => exact ih (hstays n hn)

/-- Below a number that does not grow, nothing grows past it. -/
theorem settle_le (hf : ∀ a b, a ≤ b → b ≤ n → f a ≤ f b) (h : f n ≤ n) : f (settle f rounds n) ≤ n := by
  induction rounds generalizing n with
  | zero => exact h
  | succ rounds ih =>
    rw [settle]
    split
    case isTrue hfixed => exact h
    case isFalse => exact (ih (fun a b hab hb => hf a b hab (hb.trans h)) (hf _ _ h le_rfl)).trans h

/-! ## The decimal width -/

/-- The number of decimal digits. -/
def width (n : Nat) : Nat := Nat.log 10 n + 1

theorem width_mono : Monotone width := fun _ _ h => Nat.succ_le_succ (Nat.log_mono_right h)

theorem width_pos (n : Nat) : 0 < width n := Nat.succ_pos _

theorem width_le_iff {w : Nat} (hw : 0 < w) : width n ≤ w ↔ n < 10 ^ w := by
  rw [width, Nat.succ_le_iff]
  exact ⟨Nat.lt_pow_of_log_lt (by decide), Nat.log_lt_of_lt_pow' hw.ne'⟩

/-- A small number in front of a large one makes it at most one digit longer. -/
theorem width_add_le {b m : Nat} (hm : m ≤ 20 ∨ m ≤ width (b + 1) + 1) : width (b + m) ≤ width (b + 1) + 1 := by
  have hb : b + 1 < 10 ^ width (b + 1) := (width_le_iff (width_pos _)).mp le_rfl
  have hw : width (b + 1) < 10 ^ width (b + 1) := Nat.lt_pow_self (by decide)
  have hten : 10 ≤ 10 ^ width (b + 1) := Nat.le_self_pow (width_pos _).ne' 10
  rw [width_le_iff (Nat.succ_pos _), Nat.pow_succ]
  omega

/-- **Four rounds settle a length that counts its own digits**, as long as the lengths stay below a bound of at most
twenty digits. -/
theorem iterate_width {b bound : Nat} (hbound : ∀ n < bound, width n ≤ 20) (hf : ∀ n < bound, f n = b + width n)
    (hstays : ∀ n < bound, f n < bound) (hn : n < bound) : f (f^[4] n) = f^[4] n := by
  have hlow : ∀ m, 0 < m → width (b + 1) ≤ width (b + m) := fun m hm => width_mono (by omega)
  have hmono : ∀ x y, x ≤ y → width (b + x) ≤ width (b + y) := fun x y h => width_mono (by omega)
  have h₁ := hstays n hn
  have h₂ := hstays _ h₁
  -- from the second round on, only two widths are possible
  have hsame : width (f (f (f n))) = width (f (f n)) := by
    have hx₁ : width (f n) = width (b + width n) := by rw [hf n hn]
    have hx₂ : width (f (f n)) = width (b + width (f n)) := by rw [hf _ h₁]
    have hx₃ : width (f (f (f n))) = width (b + width (f (f n))) := by rw [hf _ h₂]
    have hle₁ : width (f n) ≤ width (b + 1) + 1 := hx₁ ▸ width_add_le (.inl (hbound n hn))
    have hle₂ : width (f (f n)) ≤ width (b + 1) + 1 := hx₂ ▸ width_add_le (.inr hle₁)
    have hle₃ : width (f (f (f n))) ≤ width (b + 1) + 1 := hx₃ ▸ width_add_le (.inr hle₂)
    have hge₁ : width (b + 1) ≤ width (f n) := hx₁ ▸ hlow _ (width_pos n)
    have hge₂ : width (b + 1) ≤ width (f (f n)) := hx₂ ▸ hlow _ (width_pos _)
    have hge₃ : width (b + 1) ≤ width (f (f (f n))) := hx₃ ▸ hlow _ (width_pos _)
    rcases lt_trichotomy (width (f n)) (width (f (f n))) with hlt | heq | hgt
    · have := hmono _ _ hlt.le
      omega
    · rw [hx₃, ← heq, ← hx₂, heq]
    · have := hmono _ _ hgt.le
      omega
  have hfixed : f (f (f (f n))) = f (f (f n)) := by
    rw [hf _ (hstays _ h₂), hsame, ← hf _ h₂]
  simp only [Function.iterate_succ_apply, Function.iterate_zero_apply]
  rw [hfixed, hfixed]

end RallyPoint.Lib
