/-
# RallyPoint.Lib.Log — runs of an append-only log, and the two facts every reader of one needs.

A log is a list that only grows at its end; a gate `accept log e` decides which entry may come next.
`Reachable` collects the logs a run from the empty log can produce and `Extends` the logs a run from a
given log can produce; each carries its induction rule, so a safety result is a base case and a step.

Four arguments recur in such developments and are settled here once, over arbitrary entries.

* **Gate plus withdrawal.** If an entry that is active stays active only while nothing withdraws it
  (activity is inherited BACKWARDS along an append), and the gate checks a newcomer against everything
  active, then any two active entries of any reachable log are compatible
  (`Reachable.compatible_of_gate`). The order in which the two arrived does not matter.
* **Latest wins.** `maxByKey` is the fold behind a "latest entry" reading; filtering the log changes
  what it finds only by removing it (`maxByKey_filter`).
* **High-water mark.** In an ascending log the last key bounds them all, however it is computed.
* **Derived copy.** A copy that only ever takes missing entries of its log is the log as soon as the
  two lengths agree (`Mirrors.perm`).
-/
import Mathlib.Data.List.Basic
import Mathlib.Data.List.Induction
import Mathlib.Data.List.Nodup
import Mathlib.Data.List.Perm.Subperm
import Mathlib.Order.MinMax
import Mathlib.Tactic.Common

namespace RallyPoint.Lib

variable {α : Type*}

/-! ## Runs -/

/-- The logs a gated run can produce from the empty log. -/
inductive Reachable (accept : List α → α → Prop) : List α → Prop
  | empty : Reachable accept []
  | append {log : List α} {e : α} :
      Reachable accept log → accept log e → Reachable accept (log ++ [e])

/-- The logs a gated run can produce from `start`. -/
inductive Extends (accept : List α → α → Prop) (start : List α) : List α → Prop
  | refl : Extends accept start start
  | append {log : List α} {e : α} :
      Extends accept start log → accept log e → Extends accept start (log ++ [e])

namespace Reachable

variable {accept : List α → α → Prop}

/-- The invariant rule: true of the empty log, kept by every admitted append. -/
theorem invariant {P : List α → Prop} (h0 : P [])
    (hstep : ∀ log e, Reachable accept log → P log → accept log e → P (log ++ [e]))
    {log : List α} (h : Reachable accept log) : P log := by
  induction h with
  | empty => exact h0
  | append hlog hadm ih => exact hstep _ _ hlog ih hadm

/-- A stricter gate reaches fewer logs. -/
theorem mono {accept' : List α → α → Prop} (himp : ∀ log e, accept log e → accept' log e)
    {log : List α} (h : Reachable accept log) : Reachable accept' log := by
  induction h with
  | empty => exact .empty
  | append _ hadm ih => exact .append ih (himp _ _ hadm)

/-- What the gate asks of an entry alone holds of every entry. -/
theorem forall_mem {P : α → Prop} (hgate : ∀ log e, accept log e → P e) {log : List α}
    (h : Reachable accept log) : ∀ x ∈ log, P x := by
  induction h with
  | empty => simp
  | append hlog hadm ih =>
    intro x hx
    rcases List.mem_append.mp hx with hx | hx
    · exact ih x hx
    · rw [List.mem_singleton.mp hx]
      exact hgate _ _ hadm

/-- **Gate plus withdrawal.** `hback` says activity is inherited backwards along an append; `hgate`
says a newcomer that is active is compatible with everything active before it. -/
theorem compatible_of_gate (active : List α → α → Prop) (R : α → α → Prop)
    (hback : ∀ log e x, Reachable accept log → accept log e → x ∈ log →
      active (log ++ [e]) x → active log x)
    (hgate : ∀ log e x, Reachable accept log → accept log e → x ∈ log → active log x →
      active (log ++ [e]) e → R x e)
    {log : List α} (h : Reachable accept log) :
    ∀ x ∈ log, ∀ y ∈ log, x ≠ y → active log x → active log y → R x y ∨ R y x := by
  refine invariant (P := fun log => ∀ x ∈ log, ∀ y ∈ log, x ≠ y → active log x → active log y →
    R x y ∨ R y x) (by simp) ?_ h
  intro log e hlog ih hadm x hx y hy hne hax hay
  -- at most one of the two is the newcomer; the other was active when it arrived
  rcases List.mem_append.mp hx with hx' | hx' <;> rcases List.mem_append.mp hy with hy' | hy'
  · exact ih x hx' y hy' hne (hback _ _ _ hlog hadm hx' hax) (hback _ _ _ hlog hadm hy' hay)
  · obtain rfl := List.mem_singleton.mp hy'
    exact .inl (hgate _ _ _ hlog hadm hx' (hback _ _ _ hlog hadm hx' hax) hay)
  · obtain rfl := List.mem_singleton.mp hx'
    exact .inr (hgate _ _ _ hlog hadm hy' (hback _ _ _ hlog hadm hy' hay) hax)
  · exact absurd ((List.mem_singleton.mp hx').trans (List.mem_singleton.mp hy').symm) hne

/-- The log before an admitted append, and the admission. -/
theorem of_append_singleton {log : List α} {e : α} (h : Reachable accept (log ++ [e])) :
    Reachable accept log ∧ accept log e := by
  generalize hwhole : log ++ [e] = whole at h
  cases h with
  | empty => simp at hwhole
  | append hlog hadm =>
    obtain ⟨rfl, rfl⟩ := List.append_singleton_inj.mp hwhole
    exact ⟨hlog, hadm⟩

/-- Every earlier log of a run is reached. -/
theorem of_prefix {log earlier : List α} (h : Reachable accept log) (hpre : earlier <+: log) :
    Reachable accept earlier := by
  induction h with
  | empty => rw [List.prefix_nil.mp hpre]; exact .empty
  | append hlog hadm ih =>
    rcases List.prefix_concat_iff.mp hpre with rfl | hpre
    · exact .append hlog hadm
    · exact ih hpre

end Reachable

/-- A measure of the logs of a run grows along the run exactly when no single append lowers it. -/
theorem monotone_along_iff {β : Type*} [Preorder β] {measure : List α → β} {log : List α} :
    (∀ earlier later, earlier <+: later → later <+: log → measure earlier ≤ measure later) ↔
      ∀ before e, before ++ [e] <+: log → measure before ≤ measure (before ++ [e]) := by
  constructor
  · exact fun h before e hpre => h _ _ (List.prefix_append _ _) hpre
  · intro hstep earlier later
    induction later using List.reverseRecOn with
    | nil =>
      intro hpre _
      rw [List.prefix_nil.mp hpre]
    | append_singleton before e ih =>
      intro hpre hlog
      rcases List.prefix_concat_iff.mp hpre with rfl | hpre
      · exact le_rfl
      · exact (ih hpre ((List.prefix_append _ _).trans hlog)).trans (hstep before e hlog)

namespace Extends

variable {accept : List α → α → Prop} {start : List α}

/-- The invariant rule from an arbitrary starting log. -/
theorem invariant {P : List α → Prop} (h0 : P start)
    (hstep : ∀ log e, Extends accept start log → P log → accept log e → P (log ++ [e]))
    {log : List α} (h : Extends accept start log) : P log := by
  induction h with
  | refl => exact h0
  | append hlog hadm ih => exact hstep _ _ hlog ih hadm

theorem reachable {log : List α} (hstart : Reachable accept start)
    (h : Extends accept start log) : Reachable accept log := by
  induction h with
  | refl => exact hstart
  | append _ hadm ih => exact .append ih hadm

end Extends

/-! ## The latest entry -/

section MaxByKey

variable (key : α → Int)

/-- One step of `Iterator::max_by_key`: a later entry wins ties. -/
def maxStep : Option α → α → Option α
  | none, x => some x
  | some y, x => if key y ≤ key x then some x else some y

/-- Rust's `Iterator::max_by_key`, which keeps the LAST of several maxima. -/
def maxByKey (l : List α) : Option α := l.foldl (maxStep key) none

variable {key}

theorem maxByKey_append_singleton (l : List α) (x : α) :
    maxByKey key (l ++ [x]) = maxStep key (maxByKey key l) x := by
  simp [maxByKey, List.foldl_append]

@[simp]
theorem maxByKey_nil : maxByKey key ([] : List α) = none := rfl

/-- The entry found is one of the list and no key of the list exceeds its key. -/
theorem maxByKey_spec (l : List α) :
    (maxByKey key l = none → l = []) ∧
      ∀ x, maxByKey key l = some x → x ∈ l ∧ ∀ y ∈ l, key y ≤ key x := by
  induction l using List.reverseRecOn with
  | nil => simp
  | append_singleton l a ih =>
    rw [maxByKey_append_singleton]
    cases hm : maxByKey key l with
    | none =>
      obtain rfl := ih.1 hm
      simp [maxStep]
    | some b =>
      obtain ⟨hb, hle⟩ := ih.2 b hm
      by_cases hba : key b ≤ key a
      · simp only [maxStep, hba, if_true, reduceCtorEq, false_implies, Option.some.injEq, true_and]
        rintro x rfl
        refine ⟨by simp, fun y hy => ?_⟩
        rcases List.mem_append.mp hy with hy | hy
        · exact Int.le_trans (hle y hy) hba
        · simp [List.mem_singleton.mp hy]
      · simp only [maxStep, hba, if_false, reduceCtorEq, false_implies, Option.some.injEq, true_and]
        rintro x rfl
        refine ⟨by simp [hb], fun y hy => ?_⟩
        rcases List.mem_append.mp hy with hy | hy
        · exact hle y hy
        · rw [List.mem_singleton.mp hy]
          omega

theorem maxByKey_mem {l : List α} {x : α} (h : maxByKey key l = some x) : x ∈ l :=
  ((maxByKey_spec l).2 x h).1

theorem maxByKey_le {l : List α} {x y : α} (h : maxByKey key l = some x) (hy : y ∈ l) :
    key y ≤ key x :=
  ((maxByKey_spec l).2 x h).2 y hy

theorem maxByKey_eq_none_iff {l : List α} : maxByKey key l = none ↔ l = [] := by
  refine ⟨(maxByKey_spec l).1, ?_⟩
  rintro rfl
  rfl

/-- An entry whose key is at least every other is the latest one. -/
theorem maxByKey_append_of_le {l : List α} {x : α} (h : ∀ y ∈ l, key y ≤ key x) :
    maxByKey key (l ++ [x]) = some x := by
  rw [maxByKey_append_singleton]
  cases hm : maxByKey key l with
  | none => rfl
  | some y => simp [maxStep, h y (maxByKey_mem hm)]

/-- **Filtering keeps the latest entry unless it drops it.** -/
theorem maxByKey_filter {l : List α} {p : α → Bool} {x : α} (h : maxByKey key l = some x)
    (hp : p x = true) : maxByKey key (l.filter p) = some x := by
  induction l using List.reverseRecOn with
  | nil => simp at h
  | append_singleton l a ih =>
    rw [List.filter_append, maxByKey_append_singleton] at *
    cases hm : maxByKey key l with
    | none =>
      rw [hm] at h
      obtain rfl : a = x := by simpa [maxStep] using h
      simp [maxByKey_eq_none_iff.mp hm, hp, maxByKey, maxStep]
    | some y =>
      rw [hm] at h
      have hle : ∀ z ∈ l.filter p, key z ≤ key y := fun z hz =>
        maxByKey_le hm (List.mem_filter.mp hz).1
      by_cases hya : key y ≤ key a
      · obtain rfl : a = x := by simpa [maxStep, hya] using h
        rw [show [a].filter p = [a] by simp [hp]]
        exact maxByKey_append_of_le fun z hz => Int.le_trans (hle z hz) hya
      · obtain rfl : y = x := by simpa [maxStep, hya] using h
        have hrest := ih hm
        cases hpa : p a with
        | false => simpa [hpa] using hrest
        | true =>
          rw [show [a].filter p = [a] by simp [hpa], maxByKey_append_singleton, hrest]
          simp [maxStep, hya]

/-- **The latest of the entries a reading takes from an ascending log:** its key is largest, and among the
largest it stands last. -/
theorem maxByKey_filterMap_eq_some_iff {β : Type*} {g : β → Option α} {pos : β → Int} {log : List β}
    (h : log.Pairwise fun a b => pos a < pos b) {y : α} :
    maxByKey key (log.filterMap g) = some y ↔
      ∃ m ∈ log, g m = some y ∧
        ∀ x ∈ log, ∀ z, g x = some z → key z < key y ∨ key z = key y ∧ pos x ≤ pos m := by
  induction log using List.reverseRecOn generalizing y with
  | nil => simp
  | append_singleton log a ih =>
    obtain ⟨hlog, -, hlast⟩ := List.pairwise_append.mp h
    have hbelow : ∀ x ∈ log, pos x < pos a := fun x hx => hlast x hx a (List.mem_singleton.mpr rfl)
    rw [List.filterMap_append]
    cases ha : g a with
    | none =>
      rw [List.filterMap_cons_none ha, List.filterMap_nil, List.append_nil, ih hlog]
      simp only [List.mem_append, List.mem_singleton, or_and_right, exists_or, exists_eq_left, ha, reduceCtorEq,
        false_and, or_false, or_imp, forall_and, forall_eq, false_implies, implies_true, and_true]
    | some z₀ =>
      rw [List.filterMap_cons_some ha, List.filterMap_nil, maxByKey_append_singleton]
      simp only [List.mem_append, List.mem_singleton, or_and_right, exists_or, exists_eq_left, ha,
        Option.some.injEq]
      cases hm : maxByKey key (log.filterMap g) with
      | none =>
        have hskip : ∀ x ∈ log, g x = none := by
          simpa [List.filterMap_eq_nil_iff] using maxByKey_eq_none_iff.mp hm
        rw [maxStep, Option.some.injEq]
        constructor
        · rintro rfl
          refine .inr ⟨rfl, ?_⟩
          rintro x (hx | rfl) z hz
          · simp [hskip x hx] at hz
          · obtain rfl := Option.some.inj (ha.symm.trans hz)
            exact .inr ⟨rfl, le_refl _⟩
        · rintro (⟨m, hmem, hgm, -⟩ | ⟨rfl, -⟩)
          · simp [hskip m hmem] at hgm
          · rfl
      | some y₀ =>
        obtain ⟨m₀, hm₀, hg₀, hmax⟩ := (ih hlog).mp hm
        by_cases hle : key y₀ ≤ key z₀
        · rw [maxStep, if_pos hle, Option.some.injEq]
          constructor
          · rintro rfl
            refine .inr ⟨rfl, ?_⟩
            rintro x (hx | rfl) z hz
            · have hpos := hbelow x hx
              rcases hmax x hx z hz with hlt | ⟨heq, -⟩ <;> omega
            · obtain rfl := Option.some.inj (ha.symm.trans hz)
              exact .inr ⟨rfl, le_refl _⟩
          · rintro (⟨m, hmem, hgm, hlatest⟩ | ⟨rfl, -⟩)
            · -- an older entry would have to be above the newcomer
              have hpos := hbelow m hmem
              have hnew := hlatest a (.inr rfl) z₀ ha
              rcases hmax m hmem y hgm with hlt | ⟨heq, -⟩ <;> omega
            · rfl
        · rw [maxStep, if_neg hle, Option.some.injEq]
          constructor
          · rintro rfl
            refine .inl ⟨m₀, hm₀, hg₀, ?_⟩
            rintro x (hx | rfl) z hz
            · exact hmax x hx z hz
            · obtain rfl := Option.some.inj (ha.symm.trans hz)
              exact .inl (by omega)
          · rintro (⟨m, hmem, hgm, hlatest⟩ | ⟨rfl, hlatest⟩)
            · have hold := (ih hlog).mpr ⟨m, hmem, hgm, fun x hx => hlatest x (.inl hx)⟩
              exact Option.some.inj (hm.symm.trans hold)
            · rcases hlatest m₀ (.inl hm₀) y₀ hg₀ with hlt | ⟨heq, -⟩ <;> omega

end MaxByKey

/-- A part of a log gives a reading all it takes from the log when it leaves out only what the reading skips. -/
theorem filterMap_of_sublist {β : Type*} {f : α → Option β} {part log : List α} (hpart : part.Sublist log)
    (hnodup : log.Nodup) (hall : ∀ x ∈ log, f x ≠ none → x ∈ part) : part.filterMap f = log.filterMap f := by
  induction hpart with
  | slnil => rfl
  | @cons part log x hpart ih =>
    obtain ⟨hx, hnodup⟩ := List.nodup_cons.mp hnodup
    rw [List.forall_mem_cons] at hall
    have hskip : f x = none := by
      by_contra hne
      exact hx (hpart.subset (hall.1 hne))
    rw [List.filterMap_cons_none hskip]
    exact ih hnodup hall.2
  | @cons_cons part log x hpart ih =>
    obtain ⟨hx, hnodup⟩ := List.nodup_cons.mp hnodup
    rw [List.forall_mem_cons] at hall
    have hrest : ∀ y ∈ log, f y ≠ none → y ∈ part := by
      intro y hy hne
      have hyx : y ≠ x := by
        rintro rfl
        exact hx hy
      exact List.mem_of_ne_of_mem hyx (hall.2 y hy hne)
    rw [List.filterMap_cons, List.filterMap_cons, ih hnodup hrest]

/-- Collecting into a map by key keeps, of entries that share a key only when they are equal, exactly those. -/
theorem getLast?_filter_key_eq_some_iff {β : Type*} [BEq β] [LawfulBEq β] {key : α → β} {l : List α} {k : β}
    {x : α} (hinj : ∀ a ∈ l, ∀ b ∈ l, key a = key b → a = b) :
    (l.filter fun a => key a == k).getLast? = some x ↔ x ∈ l ∧ key x = k := by
  constructor
  · intro h
    have hmem := List.mem_filter.mp (List.mem_of_getLast? h)
    exact ⟨hmem.1, by simpa using hmem.2⟩
  · rintro ⟨hx, rfl⟩
    have hin : x ∈ l.filter fun a => key a == key x := List.mem_filter.mpr ⟨hx, by simp⟩
    cases hlast : (l.filter fun a => key a == key x).getLast? with
    | none =>
      rw [List.getLast?_eq_none_iff] at hlast
      rw [hlast] at hin
      cases hin
    | some y =>
      have hy := List.mem_filter.mp (List.mem_of_getLast? hlast)
      rw [hinj y hy.1 x hx (by simpa using hy.2)]

/-! ## The high-water mark -/

section HighWater

variable {key : α → Int} {log : List α}

/-- The last entry of an ascending log has the largest key. -/
theorem le_last_of_ascending (h : log.Pairwise fun a b => key a < key b) :
    ∀ x ∈ log, key x ≤ (log.getLast?.map key).getD 0 := by
  intro x hx
  rcases List.eq_nil_or_concat' log with rfl | ⟨init, last, rfl⟩
  · cases hx
  · rw [List.getLast?_concat, Option.map_some, Option.getD_some]
    rcases List.mem_append.mp hx with hx | hx
    · exact Int.le_of_lt ((List.pairwise_append.mp h).2.2 x hx last (by simp))
    · rw [List.mem_singleton.mp hx]

theorem last_nonneg (h : ∀ x ∈ log, 0 < key x) : 0 ≤ (log.getLast?.map key).getD 0 := by
  rcases List.eq_nil_or_concat' log with rfl | ⟨init, last, rfl⟩
  · simp
  · rw [List.getLast?_concat, Option.map_some, Option.getD_some]
    exact Int.le_of_lt (h last (by simp))

/-- Folding the maximum over an ascending log of positive keys reads the last one. -/
theorem foldl_max_of_ascending (h : log.Pairwise fun a b => key a < key b) (hpos : ∀ x ∈ log, 0 < key x) :
    log.foldl (fun m x => max m (key x)) 0 = (log.getLast?.map key).getD 0 := by
  induction log using List.reverseRecOn with
  | nil => rfl
  | append_singleton log x ih =>
    obtain ⟨hlog, -, hlt⟩ := List.pairwise_append.mp h
    rw [List.foldl_append, ih hlog fun y hy => hpos y (List.mem_append_left _ hy), List.foldl_cons,
      List.foldl_nil, List.getLast?_concat, Option.map_some, Option.getD_some]
    refine max_eq_right ?_
    rcases List.eq_nil_or_concat' log with rfl | ⟨init, last, rfl⟩
    · exact Int.le_of_lt (hpos x (by simp))
    · rw [List.getLast?_concat, Option.map_some, Option.getD_some]
      exact Int.le_of_lt (hlt last (by simp) x (by simp))

end HighWater

/-! ## Derived copies -/

/-- `copy` holds some of the log's entries, each once, in any order. -/
structure Mirrors (log copy : List α) : Prop where
  nodup : copy.Nodup
  subset : copy ⊆ log

namespace Mirrors

variable {log copy : List α}

theorem nil (log : List α) : Mirrors log [] := ⟨List.nodup_nil, List.nil_subset _⟩

theorem refl (h : log.Nodup) : Mirrors log log := ⟨h, List.Subset.refl _⟩

/-- The log may grow under its copy. -/
theorem grow (h : Mirrors log copy) (more : List α) : Mirrors (log ++ more) copy :=
  ⟨h.nodup, List.Subset.trans h.subset (List.subset_append_left _ _)⟩

/-- An entry of the log that the copy misses may be added. -/
theorem insert (h : Mirrors log copy) {x : α} (hlog : x ∈ log) (hnew : x ∉ copy) :
    Mirrors log (copy ++ [x]) where
  nodup := List.nodup_append.mpr ⟨h.nodup, List.nodup_singleton x, by
    rintro y hy z hz rfl
    exact hnew (List.mem_singleton.mp hz ▸ hy)⟩
  subset := List.append_subset.mpr ⟨h.subset, by simpa using hlog⟩

/-- **Counting is enough:** a copy as long as its log is the log up to order. -/
theorem perm (h : Mirrors log copy) (hlength : copy.length = log.length) : copy.Perm log :=
  (List.subperm_of_subset h.nodup h.subset).perm_of_length_le hlength.ge

end Mirrors

end RallyPoint.Lib
