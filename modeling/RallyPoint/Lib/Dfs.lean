/-
# RallyPoint.Lib.Dfs — three-colour depth-first search for a cycle.

`visit` follows the successors of a node that is being visited (gray) until one of them is gray itself, which
closes a cycle along the stack, or all of them are done (black). Every gray node is on the stack, the stack is a
path, and a black node is accessible for the reversed edges; so the search reports a cycle exactly when there
is one, and the cycle it reports is one. The recursion spends one unit of fuel for each white node.
-/
import Mathlib.Logic.Relation
import Mathlib.Data.List.Chain
import Mathlib.Data.List.Infix
import Mathlib.Order.WellFounded
import Mathlib.Tactic.Common

namespace RallyPoint.Lib

/-- Fewer elements are counted where one drops out. -/
theorem countP_lt {α : Type*} {p q : α → Bool} {l : List α} {x : α} (himp : ∀ y ∈ l, p y = true → q y = true)
    (hmem : x ∈ l) (hq : q x = true) (hp : p x = false) : l.countP p < l.countP q := by
  obtain ⟨pre, post, rfl⟩ := List.append_of_mem hmem
  have hpre : pre.countP p ≤ pre.countP q := List.countP_mono_left fun y hy => himp y (by simp [hy])
  have hpost : post.countP p ≤ post.countP q := List.countP_mono_left fun y hy => himp y (by simp [hy])
  simp only [List.countP_append, List.countP_cons, hq, hp, if_true, Bool.false_eq_true, if_false]
  omega

/-- A finite graph: the successors of every node are among the nodes. -/
structure Graph (α : Type*) where
  nodes : List α
  succ : α → List α
  closed : ∀ x, ∀ d ∈ succ x, d ∈ nodes

namespace Graph

variable {α : Type*} (g : Graph α)

def Edge (x d : α) : Prop := d ∈ g.succ x

/-- Some node leads back to itself. -/
def Cyclic : Prop := ∃ x, Relation.TransGen g.Edge x x

/-- A path that ends where it starts. -/
def IsCycle (c : List α) : Prop := c.IsChain g.Edge ∧ ∃ x mid, c = x :: (mid ++ [x])

variable {g}

/-- A node from which the edges run out lies on no cycle. -/
theorem not_transGen_of_acc {x : α} (h : Acc (fun d x => g.Edge x d) x) : ¬ Relation.TransGen g.Edge x x := by
  induction h with
  | intro x _ ih =>
    intro hx
    -- the first node behind `x` lies on the same cycle
    obtain ⟨d, hd, hrest⟩ := Relation.TransGen.head'_iff.mp hx
    exact ih d hd (Relation.TransGen.tail' hrest hd)

theorem IsCycle.cyclic {c : List α} (h : g.IsCycle c) : g.Cyclic := by
  obtain ⟨hchain, x, mid, rfl⟩ := h
  refine ⟨x, ?_⟩
  have hpath : ∀ (mid : List α) (y : α), (y :: (mid ++ [x])).IsChain g.Edge → Relation.TransGen g.Edge y x := by
    intro mid
    induction mid with
    | nil =>
      intro y hy
      exact .single (List.isChain_cons_cons.mp hy).1
    | cons z mid ih =>
      intro y hy
      obtain ⟨hedge, hrest⟩ := List.isChain_cons_cons.mp hy
      exact .head hedge (ih z hrest)
  exact hpath mid x hchain

end Graph

namespace Dfs

inductive Color
  | white
  | gray
  | black
  deriving DecidableEq, Repr

/-- The search's own variables. -/
structure State (α : Type*) where
  color : α → Color
  stack : List α
  cycle : Option (List α)

section Search

variable {α : Type*} [DecidableEq α]

def State.start : State α := ⟨fun _ => .white, [], none⟩

/-- The node is being visited. -/
def State.enter (s : State α) (node : α) : State α :=
  { s with color := Function.update s.color node .gray, stack := s.stack ++ [node] }

/-- The node is done, unless a cycle ended the search. -/
def State.leave (s : State α) (node : α) : State α :=
  if s.cycle.isSome then s
  else { s with color := Function.update s.color node .black, stack := s.stack.dropLast }

/-- The successors one after another; the search ends with the first cycle. -/
def follow (visit : α → State α → Option (State α)) : List α → State α → Option (State α)
  | [], s => some s
  | d :: rest, s =>
    if s.cycle.isSome then some s
    else
      match s.color d with
      | .gray => some { s with cycle := some (s.stack.drop (s.stack.idxOf d) ++ [d]) }
      | .white => (visit d s).bind (follow visit rest)
      | .black => follow visit rest s

def visit (succ : α → List α) : Nat → α → State α → Option (State α)
  | 0, _, _ => none
  | fuel + 1, node, s => (follow (visit succ fuel) (succ node) (s.enter node)).map (·.leave node)

/-- Every node that is still white is visited. -/
def search (succ : α → List α) (fuel : Nat) : List α → State α → Option (State α)
  | [], s => some s
  | node :: rest, s =>
    if s.cycle.isSome then some s
    else
      match s.color node with
      | .white => (visit succ fuel node s).bind (search succ fuel rest)
      | _ => search succ fuel rest s

end Search

/-! ## The invariant -/

section Invariant

variable {α : Type*} {g : Graph α} {s t : State α} {node d : α}

/-- While no cycle is known: the stack is a path of the gray nodes, and from a black node the edges run out. -/
structure Sound (g : Graph α) (s : State α) : Prop where
  cycle : s.cycle = none
  path : s.stack.IsChain g.Edge
  gray_iff : ∀ x, s.color x = .gray ↔ x ∈ s.stack
  black_acc : ∀ x, s.color x = .black → Acc (fun d x => g.Edge x d) x

/-- What a stretch of the search does: it ends with a cycle, or leaves the stack and the gray nodes as they were
and only blackens white nodes. -/
def Advances (g : Graph α) (s t : State α) : Prop :=
  (∃ c, t.cycle = some c ∧ g.IsCycle c) ∨
    (Sound g t ∧ t.stack = s.stack ∧ ∀ x, s.color x ≠ .white → t.color x = s.color x)

section Advances

variable {u : State α} {x : α}

theorem Sound.advances (h : Sound g s) : Advances g s s := .inr ⟨h, rfl, fun _ _ => rfl⟩

theorem Advances.of_open (h : Advances g s t) (hnone : t.cycle = none) :
    Sound g t ∧ t.stack = s.stack ∧ ∀ x, s.color x ≠ .white → t.color x = s.color x := by
  rcases h with ⟨c, hc, -⟩ | h
  · rw [hnone] at hc
    cases hc
  · exact h

theorem Advances.black (h : Advances g s t) (hnone : t.cycle = none) (hx : s.color x = .black) :
    t.color x = .black := by
  rw [(h.of_open hnone).2.2 x (by simp [hx]), hx]

theorem Advances.trans (h : Advances g s t) (hnone : t.cycle = none) (h' : Advances g t u) : Advances g s u := by
  obtain ⟨-, hstack, hkeeps⟩ := h.of_open hnone
  rcases h' with hc | ⟨hsound, hstack', hkeeps'⟩
  · exact .inl hc
  · refine .inr ⟨hsound, hstack'.trans hstack, fun x hx => ?_⟩
    rw [hkeeps' x (hkeeps x hx ▸ hx), hkeeps x hx]

end Advances

theorem Sound.start (g : Graph α) : Sound g .start where
  cycle := rfl
  path := List.IsChain.nil
  gray_iff x := by simp [State.start]
  black_acc x h := by cases h

/-- Nodes that are left: how many calls the search can still make. -/
def whites (g : Graph α) (s : State α) : Nat := g.nodes.countP fun x => s.color x = .white

theorem whites_le (h : ∀ x, s.color x ≠ .white → t.color x = s.color x) : whites g t ≤ whites g s := by
  refine List.countP_mono_left fun x _ hx => ?_
  by_contra hwhite
  rw [decide_eq_true_eq] at hx hwhite
  exact hwhite (h x hwhite ▸ hx)

variable [DecidableEq α]

theorem whites_enter (hwhite : s.color node = .white) (hmem : node ∈ g.nodes) :
    whites g (s.enter node) < whites g s := by
  refine countP_lt (fun x _ hx => ?_) hmem (by simpa using hwhite) (by simp [State.enter])
  by_cases hnode : x = node
  · simpa [hnode] using hwhite
  · simpa [State.enter, hnode] using hx

/-- A successor of the last node of the stack may be entered. -/
theorem Sound.enter (h : Sound g s) (hwhite : s.color node = .white)
    (hlast : ∀ x ∈ s.stack.getLast?, g.Edge x node) : Sound g (s.enter node) where
  cycle := h.cycle
  path := by
    refine List.isChain_append.mpr ⟨h.path, List.isChain_singleton node, fun x hx y hy => ?_⟩
    obtain rfl : node = y := by simpa using hy
    exact hlast x hx
  gray_iff x := by
    by_cases hx : x = node
    · simp [State.enter, hx]
    · simp [State.enter, hx, h.gray_iff]
  black_acc x hx := by
    by_cases hnode : x = node
    · subst hnode
      simp [State.enter] at hx
    · exact h.black_acc x (by simpa [State.enter, hnode] using hx)

/-- A node whose successors are all black may be left. -/
theorem Sound.leave (hs : Sound g s) (hwhite : s.color node = .white) (ht : Sound g t)
    (hstack : t.stack = s.stack ++ [node]) (hcolor : ∀ x, (s.enter node).color x ≠ .white →
      t.color x = (s.enter node).color x) (hblack : ∀ d ∈ g.succ node, t.color d = .black) :
    Sound g (t.leave node) ∧ (t.leave node).stack = s.stack ∧
      (∀ x, s.color x ≠ .white → (t.leave node).color x = s.color x) ∧ (t.leave node).color node = .black := by
  have hleave : t.leave node =
      { t with color := Function.update t.color node .black, stack := s.stack } := by
    simp [State.leave, ht.cycle, hstack]
  have hout : node ∉ s.stack := fun hmem => by
    rw [← hs.gray_iff, hwhite] at hmem
    cases hmem
  rw [hleave]
  refine ⟨⟨ht.cycle, hs.path, fun x => ?_, fun x hx => ?_⟩, rfl, fun x hx => ?_, Function.update_self ..⟩
  · by_cases hnode : x = node
    · simp [hnode, hout]
    · simp [hnode, ht.gray_iff, hstack]
  · by_cases hnode : x = node
    · subst hnode
      exact .intro x fun d hd => ht.black_acc d (hblack d hd)
    · exact ht.black_acc x (by simpa [hnode] using hx)
  · have hnode : x ≠ node := fun hnode => hx (hnode ▸ hwhite)
    have henter : (s.enter node).color x = s.color x := Function.update_of_ne hnode ..
    simp only [Function.update_of_ne hnode]
    rw [hcolor x (henter ▸ hx), henter]

/-- A gray successor of the last node closes a cycle. -/
theorem Sound.closes (h : Sound g s) (hlast : s.stack.getLast? = some node) (hedge : g.Edge node d)
    (hgray : s.color d = .gray) : g.IsCycle (s.stack.drop (s.stack.idxOf d) ++ [d]) := by
  have hmem : d ∈ s.stack := (h.gray_iff d).mp hgray
  have hlt : s.stack.idxOf d < s.stack.length := List.idxOf_lt_length_of_mem hmem
  have hdrop : s.stack.drop (s.stack.idxOf d) = d :: s.stack.drop (s.stack.idxOf d + 1) := by
    rw [List.drop_eq_getElem_cons hlt, List.getElem_idxOf]
  refine ⟨?_, d, s.stack.drop (s.stack.idxOf d + 1), by rw [hdrop]; rfl⟩
  refine List.isChain_append.mpr ⟨h.path.drop _, List.isChain_singleton d, fun x hx y hy => ?_⟩
  obtain rfl : d = y := by simpa using hy
  obtain rfl : node = x := by
    rw [List.getLast?_drop, if_neg hlt.not_ge, hlast] at hx
    exact Option.some.inj hx
  exact hedge

/-! ## The search -/

/-- Where every node that may be visited is visited as `hvisit` says, its successors are followed to the end. -/
theorem follow_spec {fuel : Nat} {call : α → State α → Option (State α)}
    (hcall : ∀ d s, Sound g s → s.color d = .white → d ∈ g.nodes → (∀ x ∈ s.stack.getLast?, g.Edge x d) →
      whites g s ≤ fuel → ∃ t, call d s = some t ∧ Advances g s t ∧ (t.cycle = none → t.color d = .black))
    {ds : List α} (hds : ∀ d ∈ ds, g.Edge node d) (h : Sound g s) (hlast : s.stack.getLast? = some node)
    (hfuel : whites g s ≤ fuel) :
    ∃ t, follow call ds s = some t ∧ Advances g s t ∧ (t.cycle = none → ∀ d ∈ ds, t.color d = .black) := by
  induction ds generalizing s with
  | nil => exact ⟨s, rfl, h.advances, fun _ d hd => by cases hd⟩
  | cons d rest ih =>
    have hrest : ∀ d ∈ rest, g.Edge node d := fun x hx => hds x (List.mem_cons_of_mem d hx)
    have hedge : g.Edge node d := hds d List.mem_cons_self
    rw [follow, if_neg (by simp [h.cycle])]
    cases hcolor : s.color d with
    | gray => exact ⟨_, rfl, .inl ⟨_, rfl, h.closes hlast hedge hcolor⟩, nofun⟩
    | black =>
      obtain ⟨t, ht, hadvances, hblack⟩ := ih hrest h hlast hfuel
      refine ⟨t, ht, hadvances, fun hnone => ?_⟩
      exact List.forall_mem_cons.mpr ⟨hadvances.black hnone hcolor, hblack hnone⟩
    | white =>
      obtain ⟨u, hu, hvisited, hdone⟩ := hcall d s h hcolor (g.closed node d hedge)
        (fun x hx => by rw [hlast] at hx; exact Option.some.inj hx ▸ hedge) hfuel
      dsimp only
      rw [hu, Option.bind_some]
      cases hcycle : u.cycle with
      | some c =>
        have hends : follow call rest u = some u := by
          cases rest with
          | nil => rfl
          | cons => rw [follow, if_pos (by simp [hcycle])]
        exact ⟨u, hends, hvisited, fun hnone => by rw [hnone] at hcycle; cases hcycle⟩
      | none =>
        obtain ⟨hsound, hstack, hkeeps⟩ := hvisited.of_open hcycle
        obtain ⟨t, ht, hadvances, hblack⟩ := ih hrest hsound (hstack ▸ hlast) ((whites_le hkeeps).trans hfuel)
        refine ⟨t, ht, hvisited.trans hcycle hadvances, fun hnone => ?_⟩
        exact List.forall_mem_cons.mpr ⟨hadvances.black hnone (hdone hcycle), hblack hnone⟩

/-- **A visit ends** within the fuel of the white nodes, with a cycle or with the node black. -/
theorem visit_spec {fuel : Nat} (h : Sound g s) (hwhite : s.color node = .white) (hmem : node ∈ g.nodes)
    (hlast : ∀ x ∈ s.stack.getLast?, g.Edge x node) (hfuel : whites g s ≤ fuel) :
    ∃ t, visit g.succ fuel node s = some t ∧ Advances g s t ∧ (t.cycle = none → t.color node = .black) := by
  induction fuel generalizing s node with
  | zero =>
    have hlt := whites_enter hwhite hmem
    omega
  | succ fuel ih =>
    have hlt := whites_enter hwhite hmem
    obtain ⟨t, ht, hadvances, hblack⟩ := follow_spec (fun d u hu hd hdmem hdlast hufuel =>
      ih hu hd hdmem hdlast hufuel) (fun d hd => hd) (h.enter hwhite hlast)
      (show (s.enter node).stack.getLast? = some node by simp [State.enter]) (by omega)
    refine ⟨t.leave node, by rw [visit, ht]; rfl, ?_⟩
    rcases hadvances with ⟨c, hc, hcycle⟩ | ⟨hsound, hstack, hkeeps⟩
    · have hleave : t.leave node = t := if_pos (by simp [hc])
      rw [hleave]
      exact ⟨.inl ⟨c, hc, hcycle⟩, fun hnone => by rw [hnone] at hc; cases hc⟩
    · obtain ⟨hsound', hstack', hkeeps', hnode⟩ := h.leave hwhite hsound hstack hkeeps (hblack hsound.cycle)
      exact ⟨.inr ⟨hsound', hstack', hkeeps'⟩, fun _ => hnode⟩

/-- The outer loop: it ends with a cycle or with every node black. -/
theorem search_spec {nodes : List α} (hnodes : ∀ x ∈ nodes, x ∈ g.nodes) (h : Sound g s) (hstack : s.stack = []) :
    ∃ t, search g.succ g.nodes.length nodes s = some t ∧ Advances g s t ∧
      (t.cycle = none → ∀ x ∈ nodes, t.color x = .black) := by
  induction nodes generalizing s with
  | nil => exact ⟨s, rfl, h.advances, fun _ x hx => by cases hx⟩
  | cons node rest ih =>
    have hrest : ∀ x ∈ rest, x ∈ g.nodes := fun x hx => hnodes x (List.mem_cons_of_mem node hx)
    rw [search, if_neg (by simp [h.cycle])]
    cases hcolor : s.color node with
    | gray =>
      have hmem := (h.gray_iff node).mp hcolor
      rw [hstack] at hmem
      cases hmem
    | black =>
      obtain ⟨t, ht, hadvances, hblack⟩ := ih hrest h hstack
      refine ⟨t, ht, hadvances, fun hnone => ?_⟩
      exact List.forall_mem_cons.mpr ⟨hadvances.black hnone hcolor, hblack hnone⟩
    | white =>
      obtain ⟨u, hu, hvisited, hdone⟩ := visit_spec h hcolor (hnodes node List.mem_cons_self)
        (fun x hx => by rw [hstack] at hx; cases hx) List.countP_le_length
      dsimp only
      rw [hu, Option.bind_some]
      cases hcycle : u.cycle with
      | some c =>
        have hends : search g.succ g.nodes.length rest u = some u := by
          cases rest with
          | nil => rfl
          | cons => rw [search, if_pos (by simp [hcycle])]
        exact ⟨u, hends, hvisited, fun hnone => by rw [hnone] at hcycle; cases hcycle⟩
      | none =>
        obtain ⟨hsound, hstack', -⟩ := hvisited.of_open hcycle
        obtain ⟨t, ht, hadvances, hblack⟩ := ih hrest hsound (hstack'.trans hstack)
        refine ⟨t, ht, hvisited.trans hcycle hadvances, fun hnone => ?_⟩
        exact List.forall_mem_cons.mpr ⟨hadvances.black hnone (hdone hcycle), hblack hnone⟩

theorem search_isSome (g : Graph α) : (search g.succ g.nodes.length g.nodes .start).isSome = true := by
  obtain ⟨t, ht, -⟩ := search_spec (fun x hx => hx) (Sound.start g) rfl
  rw [ht]
  rfl

end Invariant

end Dfs

namespace Graph

variable {α : Type*} [DecidableEq α] (g : Graph α)

/-- The cycle that the search comes upon first. -/
def findCycle : Option (List α) :=
  ((Dfs.search g.succ g.nodes.length g.nodes .start).get (Dfs.search_isSome g)).cycle

variable {g}

theorem findCycle_cases :
    (∃ c, g.findCycle = some c ∧ g.IsCycle c) ∨
      (g.findCycle = none ∧ ∀ x, Acc (fun d x => g.Edge x d) x) := by
  obtain ⟨t, ht, hadvances, hblack⟩ := Dfs.search_spec (fun x hx => hx) (Dfs.Sound.start g) rfl
  have hfind : g.findCycle = t.cycle := by
    simp only [findCycle, ht, Option.get_some]
  rw [hfind]
  cases hcycle : t.cycle with
  | some c =>
    rcases hadvances with ⟨c', hc', h⟩ | ⟨hsound, -⟩
    · rw [hcycle] at hc'
      exact .inl ⟨c, rfl, Option.some.inj hc' ▸ h⟩
    · rw [hsound.cycle] at hcycle
      cases hcycle
  | none =>
    obtain ⟨hsound, -⟩ := hadvances.of_open hcycle
    refine .inr ⟨rfl, fun x => .intro x fun d hd => hsound.black_acc d ?_⟩
    exact hblack hcycle d (g.closed x d hd)

theorem isCycle_of_findCycle {c : List α} (h : g.findCycle = some c) : g.IsCycle c := by
  rcases g.findCycle_cases with ⟨c', hc', hcycle⟩ | ⟨hnone, -⟩
  · rw [h] at hc'
    exact Option.some.inj hc' ▸ hcycle
  · rw [h] at hnone
    cases hnone

/-- Without a cycle the edges run out from every node. -/
theorem acc_of_findCycle (h : g.findCycle = none) (x : α) : Acc (fun d x => g.Edge x d) x := by
  rcases g.findCycle_cases with ⟨c, hc, -⟩ | ⟨-, hacc⟩
  · rw [h] at hc
    cases hc
  · exact hacc x

/-- **The search is exact.** -/
theorem findCycle_isSome_iff : g.findCycle.isSome = true ↔ g.Cyclic := by
  constructor
  · intro h
    obtain ⟨c, hc⟩ := Option.isSome_iff_exists.mp h
    exact (isCycle_of_findCycle hc).cyclic
  · rintro ⟨x, hx⟩
    cases hfind : g.findCycle with
    | some c => rfl
    | none => exact absurd hx (not_transGen_of_acc (acc_of_findCycle hfind x))

end Graph

end RallyPoint.Lib
