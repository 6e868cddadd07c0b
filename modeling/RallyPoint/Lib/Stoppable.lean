/-
# RallyPoint.Lib.Stoppable — programs that can fail or stop between their operations.

A program acts on a state by operations. Each operation draws its fate: it goes on, it throws an error of the
system, or the process stops there and nothing of the program runs any more, handlers and finalizers included.
`Triple P m Q R` says of a program what holds when it returns and what holds when it does not, wherever it was left;
it has one rule for each way to build a program.
-/
import Mathlib.Tactic.Common

namespace RallyPoint.Lib

/-- What becomes of an operation. -/
inductive Fate (ε : Type)
  | goes
  | fails (e : ε)
  | stops

/-- How a program ends. -/
inductive End (ε α : Type)
  | ok (a : α)
  | threw (e : ε)
  | stopped

/-- The fates are drawn in order; when none is left, operations go on. -/
def Prog (σ ε α : Type) : Type := List (Fate ε) → σ → End ε α × List (Fate ε) × σ

namespace Prog

variable {σ ε α β : Type}

/-! ## Building programs -/

def ret (a : α) : Prog σ ε α := fun fates s => (.ok a, fates, s)

def andThen (m : Prog σ ε α) (f : α → Prog σ ε β) : Prog σ ε β := fun fates s =>
  match m fates s with
  | (.ok a, fates, s) => f a fates s
  | (.threw e, fates, s) => (.threw e, fates, s)
  | (.stopped, fates, s) => (.stopped, fates, s)

instance : Monad (Prog σ ε) where
  pure := ret
  bind := andThen

def throw (e : ε) : Prog σ ε α := fun fates s => (.threw e, fates, s)

/-- A computation that touches no state. -/
def ofExcept : Except ε α → Prog σ ε α
  | .ok a => ret a
  | .error e => throw e

/-- An operation that goes on; an error of its own leaves the state as it was. -/
def perform (act : σ → Except ε (α × σ)) (fates : List (Fate ε)) (s : σ) : End ε α × List (Fate ε) × σ :=
  match act s with
  | .ok (a, s') => (.ok a, fates, s')
  | .error e => (.threw e, fates, s)

def op (act : σ → Except ε (α × σ)) : Prog σ ε α := fun fates s =>
  match fates with
  | [] => perform act [] s
  | .goes :: fates => perform act fates s
  | .fails e :: fates => (.threw e, fates, s)
  | .stops :: fates => (.stopped, fates, s)

/-- `try m catch e => handler e`. -/
def catching (m : Prog σ ε α) (handler : ε → Prog σ ε α) : Prog σ ε α := fun fates s =>
  match m fates s with
  | (.threw e, fates, s) => handler e fates s
  | other => other

/-- The end behind a finalizer: an error of its own takes the place of what went before. -/
def concluded (result : End ε α) : End ε Unit × List (Fate ε) × σ → End ε α × List (Fate ε) × σ
  | (.ok _, fates, s) => (result, fates, s)
  | (.threw e, fates, s) => (.threw e, fates, s)
  | (.stopped, fates, s) => (.stopped, fates, s)

/-- `try m finally fin`. -/
def finally_ (m : Prog σ ε α) (fin : Prog σ ε Unit) : Prog σ ε α := fun fates s =>
  match m fates s with
  | (.ok a, fates, s) => concluded (.ok a) (fin fates s)
  | (.threw e, fates, s) => concluded (.threw e) (fin fates s)
  | (.stopped, fates, s) => (.stopped, fates, s)

/-! ## Triples -/

/-- What must hold at an end: `Q` of what was returned, `R` of the state when nothing was. -/
def Holds (Q : α → σ → Prop) (R : σ → Prop) : End ε α × List (Fate ε) × σ → Prop
  | (.ok a, _, s) => Q a s
  | (.threw _, _, s) => R s
  | (.stopped, _, s) => R s

def Triple (P : σ → Prop) (m : Prog σ ε α) (Q : α → σ → Prop) (R : σ → Prop) : Prop :=
  ∀ fates s, P s → Holds Q R (m fates s)

variable {P P' : σ → Prop} {Q Q' : α → σ → Prop} {R R' : σ → Prop} {m : Prog σ ε α}

theorem Triple.weaken (h : Triple P m Q R) (hP : ∀ s, P' s → P s) (hQ : ∀ a s, Q a s → Q' a s)
    (hR : ∀ s, R s → R' s) : Triple P' m Q' R' := by
  intro fates s hs
  have hend := h fates s (hP s hs)
  rcases hm : m fates s with ⟨_ | _ | _, fates', s'⟩ <;> rw [hm] at hend
  · exact hQ _ _ hend
  · exact hR _ hend
  · exact hR _ hend

/-- What is known of no state is known of the program. -/
theorem triple_of_fact {p : Prop} (h : p → Triple P m Q R) : Triple (fun s => P s ∧ p) m Q R := fun fates s hs =>
  h hs.2 fates s hs.1

theorem triple_ret {a : α} (h : ∀ s, P s → Q a s) : Triple P (pure a : Prog σ ε α) Q R := fun _ s hs => h s hs

theorem triple_throw {e : ε} (h : ∀ s, P s → R s) : Triple P (throw e : Prog σ ε α) Q R := fun _ s hs => h s hs

theorem triple_ofExcept {x : Except ε α} (hok : ∀ a, x = .ok a → ∀ s, P s → Q a s) (herror : ∀ s, P s → R s) :
    Triple P (ofExcept x) Q R := by
  cases x with
  | ok a => exact fun _ s hs => hok a rfl s hs
  | error e => exact fun _ s hs => herror s hs

theorem triple_bind {Q : β → σ → Prop} {M : α → σ → Prop} {f : α → Prog σ ε β} (hm : Triple P m M R)
    (hf : ∀ a, Triple (M a) (f a) Q R) : Triple P (m >>= f) Q R := by
  intro fates s hs
  have hend := hm fates s hs
  show Holds Q R (andThen m f fates s)
  unfold andThen
  rcases hrun : m fates s with ⟨_ | _ | _, fates', s'⟩ <;> rw [hrun] at hend
  · exact hf _ _ _ hend
  · exact hend
  · exact hend

/-- An operation leaves what is asked of an end, and may be the last one that was reached. -/
theorem triple_op {act : σ → Except ε (α × σ)} (hok : ∀ s a s', P s → act s = .ok (a, s') → Q a s')
    (hleft : ∀ s, P s → R s) : Triple P (op act) Q R := by
  have hperform : ∀ fates s, P s → Holds Q R (perform act fates s) := by
    intro fates s hs
    unfold perform
    rcases h : act s with e | ⟨a, s'⟩
    · exact hleft s hs
    · exact hok s a s' hs h
  rintro (_ | ⟨_ | _ | _, fates⟩) s hs
  · exact hperform [] s hs
  · exact hperform fates s hs
  · exact hleft s hs
  · exact hleft s hs

theorem triple_catching {handler : ε → Prog σ ε α} (hm : Triple P m Q R) (hhandler : ∀ e, Triple R (handler e) Q R) :
    Triple P (catching m handler) Q R := by
  intro fates s hs
  have hend := hm fates s hs
  unfold catching
  rcases hrun : m fates s with ⟨_ | _ | _, fates', s'⟩ <;> rw [hrun] at hend
  · exact hend
  · exact hhandler _ _ _ hend
  · exact hend

theorem holds_concluded {result : End ε α} {o : End ε Unit × List (Fate ε) × σ} {M : σ → Prop}
    (h : Holds (fun _ => M) R o) (hresult : ∀ fates s, M s → Holds Q R (result, fates, s)) :
    Holds Q R (concluded result o) := by
  obtain ⟨_ | _ | _, fates, s⟩ := o
  · exact hresult fates s h
  · exact h
  · exact h

/-- The finalizer runs behind a return and behind an error. -/
theorem triple_finally {fin : Prog σ ε Unit} (hm : Triple P m Q R)
    (hok : ∀ a, Triple (Q a) fin (fun _ => Q' a) R') (hthrew : Triple R fin (fun _ => R') R')
    (hstopped : ∀ s, R s → R' s) : Triple P (finally_ m fin) Q' R' := by
  intro fates s hs
  have hend := hm fates s hs
  unfold finally_
  rcases hrun : m fates s with ⟨a | e | _, fates', s'⟩ <;> rw [hrun] at hend
  · exact holds_concluded (hok a fates' s' hend) fun _ _ h => h
  · exact holds_concluded (hthrew fates' s' hend) fun _ _ h => h
  · exact hstopped s' hend

/-- What returned satisfies the postcondition. -/
theorem Triple.returned (h : Triple P m Q R) {fates : List (Fate ε)} {s : σ} (hs : P s) {a : α}
    (hend : (m fates s).1 = .ok a) : Q a (m fates s).2.2 := by
  have hholds := h fates s hs
  rcases hrun : m fates s with ⟨result, fates', s'⟩
  rw [hrun] at hend hholds
  obtain rfl : result = .ok a := hend
  exact hholds

/-- What holds of both kinds of end holds wherever the program was left. -/
theorem Triple.left (h : Triple P m Q R) {fates : List (Fate ε)} {s : σ} (hs : P s) (hQ : ∀ a s, Q a s → R s) :
    R (m fates s).2.2 := by
  have hholds := h fates s hs
  rcases hrun : m fates s with ⟨_ | _ | _, fates', s'⟩ <;> rw [hrun] at hholds
  · exact hQ _ _ hholds
  · exact hholds
  · exact hholds

/-! ## Undisturbed runs -/

/-- The run in which every operation goes on. -/
def run (m : Prog σ ε α) (s : σ) : End ε α × σ := ((m [] s).1, (m [] s).2.2)

section Ran

variable {fates fates' fates'' : List (Fate ε)} {s s' s'' : σ} {a : α}

theorem op_of_ok {act : σ → Except ε (α × σ)} (h : act s = .ok (a, s')) : op act [] s = (.ok a, [], s') := by
  rw [op, perform, h]

theorem bind_of_ok {f : α → Prog σ ε β} (h : m fates s = (.ok a, fates', s')) :
    (m >>= f) fates s = f a fates' s' := by
  show andThen m f fates s = f a fates' s'
  rw [andThen, h]

theorem finally_of_ok {fin : Prog σ ε Unit} (h : m fates s = (.ok a, fates', s'))
    (hfin : fin fates' s' = (.ok (), fates'', s'')) : finally_ m fin fates s = (.ok a, fates'', s'') := by
  rw [finally_, h]
  show concluded (.ok a) (fin fates' s') = _
  rw [hfin]
  rfl

theorem run_of_ok (h : m [] s = (.ok a, [], s')) : m.run s = (.ok a, s') := by rw [run, h]

end Ran

end Prog

end RallyPoint.Lib
