/-
# RallyPoint.Lib.Closure — everything that links lead to, by a worklist.

Items are linked through keys: an item opens some keys, and each key leads to the items of its bucket. A
worklist pops items, opens each key once and takes up every item it has not met. A run is bounded by the number
of items there are, because each of them is taken up once: the worklist is then empty, and what was taken up is
exactly what the links reach (`mem_closure_iff`).

The naive way to the same set takes up, round after round, everything that something taken up leads to; after as many
rounds as there are items nothing is added any more (`widen_naive`).
-/
import Mathlib.Data.List.Perm.Subperm
import Mathlib.Tactic.Common

namespace RallyPoint.Lib

variable {α κ : Type*} [DecidableEq α] [DecidableEq κ]

/-- Links through keys. -/
structure Links (α κ : Type*) where
  keys : α → List κ
  bucket : κ → List α

/-- What the links reach from the starts. -/
inductive Links.Reached (links : Links α κ) (starts : List α) : α → Prop
  | start {x : α} : x ∈ starts → Reached links starts x
  | link {x y : α} {k : κ} :
      Reached links starts x → k ∈ links.keys x → y ∈ links.bucket k → Reached links starts y

/-- The items met so far, those still to be popped, and the keys that were opened. -/
structure Worklist (α κ : Type*) where
  selected : List α
  queue : List α
  opened : List κ

namespace Worklist

def enqueue (w : Worklist α κ) (x : α) : Worklist α κ :=
  if x ∈ w.selected then w else { w with selected := x :: w.selected, queue := w.queue ++ [x] }

def enqueueAll (w : Worklist α κ) (xs : List α) : Worklist α κ := xs.foldl enqueue w

def openKey (links : Links α κ) (w : Worklist α κ) (k : κ) : Worklist α κ :=
  if k ∈ w.opened then w else { w with opened := k :: w.opened }.enqueueAll (links.bucket k)

def openKeys (links : Links α κ) (w : Worklist α κ) (ks : List κ) : Worklist α κ := ks.foldl (openKey links) w

/-- Pops until the queue is empty, or for so many items. -/
def run (links : Links α κ) : Nat → Worklist α κ → Worklist α κ
  | 0, w => w
  | n + 1, w =>
    match w.queue with
    | [] => w
    | x :: rest => run links n ({ w with queue := rest }.openKeys links (links.keys x))

end Worklist

/-- The items that a worklist of so many steps takes up. -/
def closure (links : Links α κ) (fuel : Nat) (starts : List α) : List α :=
  (Worklist.run links fuel ((⟨[], [], []⟩ : Worklist α κ).enqueueAll starts)).selected

namespace Worklist

variable {links : Links α κ} {w w' w'' : Worklist α κ} {x y : α} {k : κ} {xs ys starts domain : List α}

/-! ## What one operation does -/

/-- Some items are taken up: each that is new goes into the queue once, and no other item does. -/
structure Takes (w w' : Worklist α κ) (xs : List α) : Prop where
  selected : ∀ x, x ∈ w'.selected ↔ x ∈ w.selected ∨ x ∈ xs
  queued : ∀ x ∈ w'.selected, x ∈ w.selected ∨ x ∈ w'.queue
  kept : ∀ x ∈ w.queue, x ∈ w'.queue
  fresh : ∀ x ∈ w'.queue, x ∈ w.queue ∨ x ∈ w'.selected
  nodup : w.selected.Nodup → w'.selected.Nodup
  balance : w'.queue.length + w.selected.length = w.queue.length + w'.selected.length

omit [DecidableEq α] [DecidableEq κ] in
theorem Takes.refl (w : Worklist α κ) : Takes w w [] where
  selected x := by simp
  queued _ hx := .inl hx
  kept _ hx := hx
  fresh _ hx := .inl hx
  nodup h := h
  balance := rfl

omit [DecidableEq α] [DecidableEq κ] in
theorem Takes.trans (h : Takes w w' xs) (h' : Takes w' w'' ys) : Takes w w'' (xs ++ ys) where
  selected x := by rw [h'.selected, h.selected, List.mem_append, or_assoc]
  queued x hx := by
    rcases h'.queued x hx with hx' | hx'
    · exact (h.queued x hx').imp id (h'.kept x)
    · exact .inr hx'
  kept x hx := h'.kept x (h.kept x hx)
  fresh x hx := by
    rcases h'.fresh x hx with hx' | hx'
    · exact (h.fresh x hx').imp id fun hsel => (h'.selected x).mpr (.inl hsel)
    · exact .inr hx'
  nodup hw := h'.nodup (h.nodup hw)
  balance := by
    have hfirst := h.balance
    have hsecond := h'.balance
    omega

omit [DecidableEq κ] in
theorem enqueue_takes (w : Worklist α κ) (x : α) : Takes w (w.enqueue x) [x] := by
  unfold enqueue
  split
  case isTrue hx =>
    refine { Takes.refl w with selected := fun y => ?_ }
    rw [List.mem_singleton]
    exact ⟨.inl, fun hy => hy.elim id fun heq => heq ▸ hx⟩
  case isFalse hx =>
    exact {
      selected := by
        intro y
        rw [List.mem_cons, List.mem_singleton, or_comm]
      queued := by
        intro y hy
        apply (List.mem_cons.mp hy).symm.imp id
        intro heq
        exact List.mem_append_right _ (List.mem_singleton.mpr heq)
      kept := by
        intro y hy
        exact List.mem_append_left _ hy
      fresh := by
        intro y hy
        apply (List.mem_append.mp hy).imp id
        intro hnew
        show y ∈ x :: w.selected
        rw [List.mem_singleton.mp hnew]
        exact List.mem_cons_self
      nodup := by
        intro hw
        exact List.nodup_cons.mpr ⟨hx, hw⟩
      balance := by
        show (w.queue ++ [x]).length + w.selected.length = w.queue.length + (x :: w.selected).length
        simp only [List.length_append, List.length_cons, List.length_nil]
        omega }

omit [DecidableEq κ] in
theorem enqueueAll_takes (w : Worklist α κ) (xs : List α) : Takes w (w.enqueueAll xs) xs := by
  induction xs generalizing w with
  | nil => exact Takes.refl w
  | cons x xs ih => exact (enqueue_takes w x).trans (ih (w.enqueue x))

omit [DecidableEq κ] in
@[simp] theorem enqueueAll_opened (w : Worklist α κ) (xs : List α) : (w.enqueueAll xs).opened = w.opened := by
  induction xs generalizing w with
  | nil => rfl
  | cons x xs ih =>
    refine (ih (w.enqueue x)).trans ?_
    unfold enqueue
    split <;> rfl

/-- Every key that was opened has its items among the selected. -/
def KeysDone (links : Links α κ) (w : Worklist α κ) : Prop :=
  ∀ k ∈ w.opened, ∀ y ∈ links.bucket k, y ∈ w.selected

/-- Opening a key takes up what is in its bucket. -/
theorem openKey_takes (hdone : KeysDone links w) (k : κ) :
    Takes w (w.openKey links k) (links.bucket k) ∧ KeysDone links (w.openKey links k) ∧
      ∀ k', k' ∈ (w.openKey links k).opened ↔ k' ∈ w.opened ∨ k' = k := by
  unfold openKey
  split
  case isTrue hk =>
    refine ⟨{ Takes.refl w with selected := fun y => ?_ }, hdone, fun k' => ?_⟩
    · exact ⟨.inl, fun hy => hy.elim id (hdone k hk y)⟩
    · exact ⟨.inl, fun hk' => hk'.elim id fun heq => heq ▸ hk⟩
  case isFalse hk =>
    have htakes := enqueueAll_takes { w with opened := k :: w.opened } (links.bucket k)
    refine ⟨⟨htakes.selected, htakes.queued, htakes.kept, htakes.fresh, htakes.nodup, htakes.balance⟩, ?_,
      fun k' => ?_⟩
    · intro k' hk' y hy
      rw [enqueueAll_opened, List.mem_cons] at hk'
      rw [htakes.selected]
      rcases hk' with rfl | hk'
      · exact .inr hy
      · exact .inl (hdone k' hk' y hy)
    · rw [enqueueAll_opened, List.mem_cons, or_comm]

theorem openKeys_takes (hdone : KeysDone links w) (ks : List κ) :
    Takes w (w.openKeys links ks) (ks.flatMap links.bucket) ∧ KeysDone links (w.openKeys links ks) ∧
      ∀ k', k' ∈ (w.openKeys links ks).opened ↔ k' ∈ w.opened ∨ k' ∈ ks := by
  induction ks generalizing w with
  | nil => exact ⟨Takes.refl w, hdone, fun k' => by simp [openKeys]⟩
  | cons k ks ih =>
    obtain ⟨htakes, hdone', hopened⟩ := openKey_takes hdone k
    obtain ⟨htakes', hdone'', hopened'⟩ := ih hdone'
    refine ⟨htakes.trans htakes', hdone'', fun k' => (hopened' k').trans ?_⟩
    rw [hopened, List.mem_cons, or_assoc]

/-! ## Whole runs -/

/-- What every step of a worklist keeps: it has taken up only what is reached, each item once, and an item whose
keys are not opened waits in the queue. -/
structure Sound (links : Links α κ) (starts : List α) (w : Worklist α κ) : Prop where
  nodup : w.selected.Nodup
  reached : ∀ x ∈ w.selected, links.Reached starts x
  started : ∀ x ∈ starts, x ∈ w.selected
  queued : ∀ x ∈ w.queue, x ∈ w.selected
  pending : ∀ x ∈ w.selected, x ∈ w.queue ∨ ∀ k ∈ links.keys x, k ∈ w.opened
  keysDone : KeysDone links w

omit [DecidableEq κ] in
theorem sound_start (links : Links α κ) (starts : List α) :
    Sound links starts ((⟨[], [], []⟩ : Worklist α κ).enqueueAll starts) := by
  have htakes := enqueueAll_takes (⟨[], [], []⟩ : Worklist α κ) starts
  exact {
    nodup := htakes.nodup List.nodup_nil
    reached := by
      intro x hx
      exact .start (((htakes.selected x).mp hx).resolve_left List.not_mem_nil)
    started := by
      intro x hx
      exact (htakes.selected x).mpr (.inr hx)
    queued := by
      intro x hx
      exact (htakes.fresh x hx).resolve_left List.not_mem_nil
    pending := by
      intro x hx
      exact .inl ((htakes.queued x hx).resolve_left List.not_mem_nil)
    keysDone := by
      intro k hk
      rw [enqueueAll_opened] at hk
      exact absurd hk List.not_mem_nil }

/-- **One pop** keeps the invariant, and takes up as many items as it lengthens the queue by. -/
theorem Sound.pop {rest : List α} (h : Sound links starts w) (hqueue : w.queue = x :: rest) :
    Sound links starts ({ w with queue := rest }.openKeys links (links.keys x)) ∧
      ({ w with queue := rest }.openKeys links (links.keys x)).queue.length + w.selected.length + 1 =
        w.queue.length + ({ w with queue := rest }.openKeys links (links.keys x)).selected.length := by
  have hx : x ∈ w.selected := h.queued x (hqueue ▸ List.mem_cons_self)
  obtain ⟨htakes, hdone, hopened⟩ :=
    @openKeys_takes _ _ _ _ links { w with queue := rest } h.keysDone (links.keys x)
  constructor
  · exact {
      nodup := htakes.nodup h.nodup
      reached := by
        intro y hy
        rcases (htakes.selected y).mp hy with hy | hy
        · exact h.reached y hy
        · obtain ⟨k, hk, hmem⟩ := List.mem_flatMap.mp hy
          exact .link (h.reached x hx) hk hmem
      started := by
        intro y hy
        exact (htakes.selected y).mpr (.inl (h.started y hy))
      queued := by
        intro y hy
        rcases htakes.fresh y hy with hold | hnew
        · exact (htakes.selected y).mpr (.inl (h.queued y (hqueue ▸ List.mem_cons_of_mem x hold)))
        · exact hnew
      pending := by
        intro y hy
        rcases htakes.queued y hy with hold | hnew
        · rcases h.pending y hold with hwait | hkeys
          · rw [hqueue, List.mem_cons] at hwait
            rcases hwait with rfl | hwait
            · right
              intro k hk
              exact (hopened k).mpr (.inr hk)
            · exact .inl (htakes.kept y hwait)
          · right
            intro k hk
            exact (hopened k).mpr (.inl (hkeys k hk))
        · exact .inl hnew
      keysDone := hdone }
  · have hbalance : _ + w.selected.length = rest.length + _ := htakes.balance
    rw [hqueue, List.length_cons]
    omega

/-- **A run with enough fuel** empties the queue. -/
theorem Sound.run {fuel : Nat} (h : Sound links starts w) (hdomain : ∀ x, links.Reached starts x → x ∈ domain)
    (hfuel : w.queue.length + domain.length ≤ fuel + w.selected.length) :
    Sound links starts (w.run links fuel) ∧ (w.run links fuel).queue = [] := by
  induction fuel generalizing w with
  | zero =>
    refine ⟨h, ?_⟩
    have hle : w.selected.length ≤ domain.length :=
      (List.subperm_of_subset h.nodup fun x hx => hdomain x (h.reached x hx)).length_le
    have hempty : w.queue.length = 0 := by omega
    exact List.length_eq_zero_iff.mp hempty
  | succ fuel ih =>
    rw [Worklist.run]
    split
    case _ hqueue => exact ⟨h, hqueue⟩
    case _ x rest hqueue =>
      obtain ⟨hsound, hbalance⟩ := h.pop hqueue
      exact ih hsound (by omega)

end Worklist

variable {links : Links α κ} {starts domain : List α} {x : α}

/-- **The closure** holds what the links reach, when its fuel is the number of items there are. -/
theorem mem_closure_iff (hdomain : ∀ x, links.Reached starts x → x ∈ domain) :
    x ∈ closure links domain.length starts ↔ links.Reached starts x := by
  have hstart := Worklist.sound_start links starts
  have hbalance := (Worklist.enqueueAll_takes (⟨[], [], []⟩ : Worklist α κ) starts).balance
  have hfuel : ((⟨[], [], []⟩ : Worklist α κ).enqueueAll starts).queue.length + domain.length ≤
      domain.length + ((⟨[], [], []⟩ : Worklist α κ).enqueueAll starts).selected.length := by
    simp only [List.length_nil] at hbalance
    omega
  obtain ⟨hsound, hempty⟩ := hstart.run hdomain hfuel
  constructor
  · exact hsound.reached x
  · intro hreached
    induction hreached with
    | start hx => exact hsound.started _ hx
    | link _ hk hy ih =>
      rcases hsound.pending _ ih with hwait | hkeys
      · rw [hempty] at hwait
        exact absurd hwait List.not_mem_nil
      · exact hsound.keysDone _ (hkeys _ hk) _ hy

/-! ## Rounds -/

section Naive

variable {α : Type*} {domain : List α} {step : α → α → Bool} {p q : α → Bool} {x y : α}

/-- One round: what is there, and what something there leads to. -/
def widen (domain : List α) (step : α → α → Bool) (p : α → Bool) (y : α) : Bool :=
  p y || domain.any fun x => p x && step x y

def naive (domain : List α) (step : α → α → Bool) : Nat → (α → Bool) → α → Bool
  | 0, p => p
  | n + 1, p => naive domain step n (widen domain step p)

theorem le_widen (h : p y = true) : widen domain step p y = true := by
  rw [widen, h, Bool.true_or]

theorem le_naive {n : Nat} (h : p y = true) : naive domain step n p y = true := by
  induction n generalizing p with
  | zero => exact h
  | succ n ih => exact ih (le_widen h)

theorem countP_lt_of_new (hle : ∀ x, p x = true → q x = true) (hy : y ∈ domain) (hp : p y = false) (hq : q y = true) :
    domain.countP p < domain.countP q := by
  induction domain with
  | nil => cases hy
  | cons x domain ih =>
    have htail : domain.countP p ≤ domain.countP q := List.countP_mono_left fun x _ => hle x
    rw [List.countP_cons, List.countP_cons]
    rcases List.mem_cons.mp hy with rfl | hmem
    · rw [hp, hq, if_pos rfl, if_neg Bool.false_ne_true]
      omega
    · have hlt := ih hmem
      have hhead : (if p x = true then 1 else 0) ≤ if q x = true then 1 else 0 := by
        split_ifs with h h' h'
        · exact Nat.le_refl 1
        · exact absurd (hle x h) h'
        · exact Nat.zero_le 1
        · exact Nat.le_refl 0
      omega

/-- Rounds that still add something add at least one item each. -/
theorem naive_or_grows (hp : ∀ x, p x = true → x ∈ domain) (hstep : ∀ x y, step x y = true → y ∈ domain) (n : Nat) :
    widen domain step (naive domain step n p) = naive domain step n p ∨
      domain.countP p + n < domain.countP (widen domain step (naive domain step n p)) := by
  have hin : ∀ q : α → Bool, (∀ x, q x = true → x ∈ domain) →
      ∀ x, widen domain step q x = true → x ∈ domain := by
    intro q hq x hx
    rcases Bool.or_eq_true_iff.mp hx with hx | hx
    · exact hq x hx
    · obtain ⟨z, -, hz⟩ := List.any_eq_true.mp hx
      exact hstep z x (Bool.and_eq_true_iff.mp hz).2
  -- a round that changes something adds an item of the domain
  have hone : ∀ q : α → Bool, (∀ x, q x = true → x ∈ domain) →
      widen domain step q = q ∨ domain.countP q < domain.countP (widen domain step q) := by
    intro q hq
    by_cases hsame : ∀ y, widen domain step q y = true → q y = true
    · left
      funext y
      rw [Bool.eq_iff_iff]
      exact ⟨hsame y, le_widen⟩
    · right
      simp only [not_forall, Bool.not_eq_true] at hsame
      obtain ⟨y, hnew, hold⟩ := hsame
      exact countP_lt_of_new (fun x => le_widen) (hin q hq y hnew) hold hnew
  induction n generalizing p with
  | zero => exact hone p hp
  | succ n ih =>
    rcases ih (hin p hp) with hfixed | hgrows
    · exact .inl hfixed
    · rcases hone p hp with hsame | hlt
      · -- nothing was added in the first round, so nothing is added later
        left
        have hconst : ∀ m, naive domain step m p = p := by
          intro m
          induction m with
          | zero => rfl
          | succ m ihm => rw [naive, hsame, ihm]
        rw [hconst, hsame]
      · right
        rw [naive]
        omega

/-- **Nothing is added after as many rounds as there are items.** -/
theorem widen_naive (hp : ∀ x, p x = true → x ∈ domain) (hstep : ∀ x y, step x y = true → y ∈ domain) :
    widen domain step (naive domain step domain.length p) = naive domain step domain.length p := by
  rcases naive_or_grows hp hstep domain.length with hfixed | hgrows
  · exact hfixed
  · have hbound := List.countP_le_length (p := widen domain step (naive domain step domain.length p)) (l := domain)
    omega

/-- **The rounds stay below everything closed.** -/
theorem naive_le {n : Nat} (hp : ∀ x, p x = true → q x = true)
    (hclosed : ∀ x ∈ domain, ∀ y, q x = true → step x y = true → q y = true) (hy : naive domain step n p y = true) :
    q y = true := by
  induction n generalizing p with
  | zero => exact hp y hy
  | succ n ih =>
    refine ih ?_ hy
    intro x hx
    rcases Bool.or_eq_true_iff.mp hx with hx | hx
    · exact hp x hx
    · obtain ⟨z, hz, hboth⟩ := List.any_eq_true.mp hx
      obtain ⟨hpz, hzx⟩ := Bool.and_eq_true_iff.mp hboth
      exact hclosed z hz x (hp z hpz) hzx

/-- What the rounds end with, when one step of theirs is one link. -/
theorem naive_iff_reached {α κ : Type*} {domain : List α} {step : α → α → Bool} {links : Links α κ}
    {starts : List α} {p : α → Bool} {y : α} (hp : ∀ x, p x = true ↔ x ∈ starts) (hstarts : ∀ x ∈ starts, x ∈ domain)
    (hstep : ∀ x ∈ domain, ∀ y, step x y = true ↔ ∃ k ∈ links.keys x, y ∈ links.bucket k)
    (hdomain : ∀ x y, step x y = true → y ∈ domain) :
    naive domain step domain.length p y = true ↔ links.Reached starts y := by
  have hin : ∀ x, p x = true → x ∈ domain := fun x hx => hstarts x ((hp x).mp hx)
  have hfixed := widen_naive hin hdomain
  constructor
  · classical
    intro h
    have hle := naive_le (q := fun z => decide (links.Reached starts z))
      (fun x hx => decide_eq_true (.start ((hp x).mp hx))) ?_ h
    · exact of_decide_eq_true hle
    · intro x hx z hreached hxz
      obtain ⟨k, hk, hz⟩ := (hstep x hx z).mp hxz
      exact decide_eq_true (.link (of_decide_eq_true hreached) hk hz)
  · intro h
    have hboth : y ∈ domain ∧ naive domain step domain.length p y = true := by
      induction h with
      | start hx => exact ⟨hstarts _ hx, le_naive ((hp _).mpr hx)⟩
      | @link x z k _ hk hz ih =>
        have hxz : step x z = true := (hstep x ih.1 z).mpr ⟨k, hk, hz⟩
        refine ⟨hdomain x z hxz, ?_⟩
        rw [← hfixed, widen, Bool.or_eq_true, List.any_eq_true]
        exact .inr ⟨x, ih.1, by rw [ih.2, hxz]; rfl⟩
    exact hboth.2

end Naive

end RallyPoint.Lib
