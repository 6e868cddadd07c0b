/-
# RallyPoint.Lib.Chain — hash chains.

`check i prev e` accepts entry `e` at position `i` behind the hash `prev` and gives its own hash. A chain
whose hash determines entry, position and predecessor commits to its whole history: two accepted chains that
end in the same hash are equal.
-/
import RallyPoint.Lib.Check
import Mathlib.Data.List.Induction

namespace RallyPoint.Lib

variable {E ε : Type*} {H : Type}

/-- The walk over a chain; it gives the hash it ends in, or the first refusal. -/
def verifyFrom (check : Nat → Option H → E → Except ε H) : Nat → Option H → List E → Except ε (Option H)
  | _, prev, [] => .ok prev
  | i, prev, e :: rest => check i prev e >>= fun h => verifyFrom check (i + 1) (some h) rest

section Chain

variable {check : Nat → Option H → E → Except ε H} {i : Nat} {prev : Option H} {l : List E} {e : E}

/-- The last entry is checked behind the rest. -/
theorem verifyFrom_concat {last : Option H} :
    verifyFrom check i prev (l ++ [e]) = .ok last ↔
      ∃ p h, verifyFrom check i prev l = .ok p ∧ check (i + l.length) p e = .ok h ∧ last = some h := by
  induction l generalizing i prev with
  | nil =>
    simp only [List.nil_append, verifyFrom, bind_ok_iff, List.length_nil, Nat.add_zero, Except.ok.injEq]
    constructor
    · rintro ⟨h, hcheck, rfl⟩
      exact ⟨prev, h, rfl, hcheck, rfl⟩
    · rintro ⟨p, h, rfl, hcheck, rfl⟩
      exact ⟨h, hcheck, rfl⟩
  | cons a rest ih =>
    simp only [List.cons_append, verifyFrom, bind_ok_iff, List.length_cons, ih]
    constructor
    · rintro ⟨g, hg, p, h, hp, hcheck, rfl⟩
      exact ⟨p, h, ⟨g, hg, hp⟩, by rwa [Nat.add_right_comm, Nat.add_assoc] at hcheck, rfl⟩
    · rintro ⟨p, h, ⟨g, hg, hp⟩, hcheck, rfl⟩
      exact ⟨g, hg, p, h, hp, by rwa [Nat.add_right_comm, Nat.add_assoc], rfl⟩

/-- **Commitment.** Where a hash determines entry, position and predecessor, it determines the chain. -/
theorem eq_of_verifyFrom {last : Option H}
    (hcommit : ∀ i p e i' p' e' h, check i p e = .ok h → check i' p' e' = .ok h → i = i' ∧ p = p' ∧ e = e')
    {l l' : List E} (h : verifyFrom check 0 none l = .ok last) (h' : verifyFrom check 0 none l' = .ok last) :
    l = l' := by
  induction l using List.reverseRecOn generalizing l' last with
  | nil =>
    obtain rfl := Except.ok.inj h
    cases l' using List.reverseRecOn with
    | nil => rfl
    | append_singleton rest b =>
      obtain ⟨p, g, -, -, hlast⟩ := verifyFrom_concat.mp h'
      cases hlast
  | append_singleton rest a ih =>
    obtain ⟨p, g, hp, hcheck, rfl⟩ := verifyFrom_concat.mp h
    cases l' using List.reverseRecOn with
    | nil => cases h'
    | append_singleton rest' b =>
      obtain ⟨p', g', hp', hcheck', hlast⟩ := verifyFrom_concat.mp h'
      obtain rfl := Option.some.inj hlast
      obtain ⟨-, rfl, rfl⟩ := hcommit _ _ _ _ _ _ _ hcheck hcheck'
      rw [ih hp hp']

end Chain

end RallyPoint.Lib
