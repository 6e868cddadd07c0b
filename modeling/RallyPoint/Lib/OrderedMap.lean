/-
# RallyPoint.Lib.OrderedMap — a map as the list of its entries in key order, and loops that fill it.

`update m k f` is `entry(k)` with what is then done to the entry: `f` gets the value that is there, or none, and
gives the new one. A loop that updates one entry for each of its elements leaves under a key what the elements of
that key, one after the other, made of the value there (`get_updateAll`). Pushing elements under their keys groups
them (`mem_group`, `perm_group`); raising an entry to a value it has not reached yet leaves the maximum
(`foldl_raise`).
-/
import Mathlib.Data.List.Induction
import Mathlib.Order.MinMax
import RallyPoint.Lib.Merge

namespace RallyPoint.Lib.OrderedMap

variable {κ β γ : Type*} [LinearOrder κ]

def get (m : List (κ × β)) (k : κ) : Option β := (m.find? fun entry => entry.1 = k).map (·.2)

/-- The entry of a key, put in its place when there is none. -/
def update (m : List (κ × β)) (k : κ) (f : Option β → β) : List (κ × β) :=
  match m with
  | [] => [(k, f none)]
  | entry :: rest =>
    if entry.1 = k then (k, f (some entry.2)) :: rest
    else if k < entry.1 then (k, f none) :: entry :: rest
    else entry :: update rest k f

variable {m : List (κ × β)} {k j : κ} {f : Option β → β}

@[simp] theorem get_nil (k : κ) : get ([] : List (κ × β)) k = none := rfl

theorem get_cons (entry : κ × β) (rest : List (κ × β)) (j : κ) :
    get (entry :: rest) j = if entry.1 = j then some entry.2 else get rest j := by
  by_cases h : entry.1 = j <;> simp [get, h]

/-- The entry of a map whose values are replaced one by one. -/
theorem get_map (g : β → γ) (m : List (κ × β)) (k : κ) :
    get (m.map fun entry => (entry.1, g entry.2)) k = (get m k).map g := by
  induction m with
  | nil => rfl
  | cons entry rest ih =>
    rw [List.map_cons, get_cons, get_cons, ih]
    split_ifs <;> rfl

/-- A key below all keys of a map has no entry there. -/
theorem get_eq_none_of_lt (h : ∀ entry ∈ m, k < entry.1) : get m k = none := by
  rw [get, Option.map_eq_none_iff, List.find?_eq_none]
  intro entry hentry
  simpa using (h entry hentry).ne'

/-- **One update** changes what is under its key and nothing else. -/
theorem get_update (hm : KeyOrdered (·.1) m) :
    get (update m k f) j = if j = k then some (f (get m k)) else get m j := by
  induction m with
  | nil =>
    rw [update, get_cons]
    simp [eq_comm (a := j)]
  | cons entry rest ih =>
    obtain ⟨hhead, hrest⟩ := List.pairwise_cons.mp hm
    rw [update]
    by_cases hkey : entry.1 = k
    · rw [if_pos hkey, get_cons, get_cons, get_cons, hkey, if_pos rfl]
      by_cases hj : k = j <;> simp [hj, eq_comm (a := j)]
    · rw [if_neg hkey]
      by_cases hlt : k < entry.1
      · -- every key of the map lies above the new one
        have hnone : get (entry :: rest) k = none := by
          apply get_eq_none_of_lt
          rw [List.forall_mem_cons]
          exact ⟨hlt, fun other hother => hlt.trans (hhead other hother)⟩
        rw [if_pos hlt, get_cons, hnone]
        simp [eq_comm (a := j)]
      · rw [if_neg hlt, get_cons, ih hrest, get_cons, get_cons, if_neg hkey]
        by_cases hj : j = k
        · rw [if_pos hj, if_pos hj, if_neg (by rw [hj]; exact hkey)]
        · rw [if_neg hj, if_neg hj]

theorem mem_keys_update : j ∈ (update m k f).map (·.1) ↔ j = k ∨ j ∈ m.map (·.1) := by
  induction m with
  | nil => simp [update]
  | cons entry rest ih =>
    rw [update]
    split_ifs with hkey hlt
    · simp [hkey]
    · simp
    · rw [List.map_cons, List.map_cons, List.mem_cons, ih, List.mem_cons, or_left_comm]

theorem keyOrdered_update (hm : KeyOrdered (·.1) m) : KeyOrdered (·.1) (update m k f) := by
  induction m with
  | nil => exact List.pairwise_singleton _ _
  | cons entry rest ih =>
    obtain ⟨hhead, hrest⟩ := List.pairwise_cons.mp hm
    rw [update]
    split_ifs with hkey hlt
    · exact List.pairwise_cons.mpr ⟨fun other hother => hkey ▸ hhead other hother, hrest⟩
    · refine List.pairwise_cons.mpr ⟨?_, hm⟩
      rw [List.forall_mem_cons]
      exact ⟨hlt, fun other hother => hlt.trans (hhead other hother)⟩
    · refine List.pairwise_cons.mpr ⟨fun other hother => ?_, ih hrest⟩
      show entry.1 < other.1
      rcases mem_keys_update.mp (List.mem_map_of_mem hother) with heq | hmem
      · rw [heq]
        exact lt_of_le_of_ne (not_lt.mp hlt) hkey
      · obtain ⟨old, hold, heq⟩ := List.mem_map.mp hmem
        rw [← heq]
        exact hhead old hold

/-! ## Loops -/

/-- The loop that updates the entry of each pair. -/
def updateAll (g : γ → Option β → β) (m : List (κ × β)) (pairs : List (κ × γ)) : List (κ × β) :=
  pairs.foldl (fun m pair => update m pair.1 (g pair.2)) m

variable {g : γ → Option β → β} {pairs : List (κ × γ)}

/-- The values of the pairs under one key. -/
def valuesAt (pairs : List (κ × γ)) (k : κ) : List γ := (pairs.filter fun pair => pair.1 = k).map (·.2)

theorem keyOrdered_updateAll (hm : KeyOrdered (·.1) m) : KeyOrdered (·.1) (updateAll g m pairs) := by
  induction pairs generalizing m with
  | nil => exact hm
  | cons pair pairs ih => exact ih (keyOrdered_update hm)

/-- **What the loop leaves under a key:** what the values under it, one after the other, made of the old entry. -/
theorem get_updateAll (hm : KeyOrdered (·.1) m) :
    get (updateAll g m pairs) k = (valuesAt pairs k).foldl (fun o v => some (g v o)) (get m k) := by
  induction pairs generalizing m with
  | nil => rfl
  | cons pair pairs ih =>
    have hstep : updateAll g m (pair :: pairs) = updateAll g (update m pair.1 (g pair.2)) pairs := rfl
    rw [hstep, ih (keyOrdered_update hm), get_update hm]
    by_cases hkey : pair.1 = k
    · simp [valuesAt, hkey]
    · simp [valuesAt, hkey, Ne.symm hkey]

/-- In a loop that only replaces, the last value of a key stays. -/
theorem get_updateAll_last {pairs : List (κ × β)} :
    get (updateAll (fun v _ => v) [] pairs) k = (valuesAt pairs k).getLast? := by
  rw [get_updateAll List.Pairwise.nil, get_nil]
  induction valuesAt pairs k using List.reverseRecOn with
  | nil => rfl
  | append_singleton values v ih =>
    rw [List.foldl_append, List.getLast?_append]
    rfl

/-- A map has at most one value under a key. -/
theorem valuesAt_eq_toList (hm : KeyOrdered (·.1) m) : valuesAt m k = (get m k).toList := by
  induction m with
  | nil => rfl
  | cons entry rest ih =>
    obtain ⟨hhead, hrest⟩ := List.pairwise_cons.mp hm
    rw [get_cons]
    by_cases hkey : entry.1 = k
    · have hnone : get rest k = none := get_eq_none_of_lt fun other hother => hkey ▸ hhead other hother
      have hnil : valuesAt rest k = [] := by rw [ih hrest, hnone, Option.toList_none]
      rw [if_pos hkey, Option.toList_some]
      simpa [valuesAt, hkey] using hnil
    · rw [if_neg hkey, ← ih hrest]
      simp [valuesAt, hkey]

/-- An entry is in a map when it is what the map has under its key. -/
theorem mem_iff_get {v : β} (hm : KeyOrdered (·.1) m) : (k, v) ∈ m ↔ get m k = some v := by
  have hval : (k, v) ∈ m ↔ v ∈ valuesAt m k := by
    rw [valuesAt, List.mem_map]
    constructor
    · intro h
      exact ⟨(k, v), List.mem_filter.mpr ⟨h, by simp⟩, rfl⟩
    · rintro ⟨entry, hentry, rfl⟩
      obtain ⟨hmem, hkey⟩ := List.mem_filter.mp hentry
      rwa [← of_decide_eq_true hkey]
  rw [hval, valuesAt_eq_toList hm, Option.mem_toList]

/-! ## Groups -/

section Group

/-- The loop `entry(key(x)).or_default().push(x)`. -/
def group (key : γ → κ) (l : List γ) : List (κ × List γ) :=
  updateAll (fun x o => o.getD [] ++ [x]) [] (l.map fun x => (key x, x))

variable {key : γ → κ} {l : List γ}

theorem keyOrdered_group : KeyOrdered (·.1) (group key l) := keyOrdered_updateAll List.Pairwise.nil

/-- Pushing one value after the other. -/
theorem foldl_push (values : List γ) (o : Option (List γ)) :
    values.foldl (fun o v => some (o.getD [] ++ [v])) o =
      if values = [] then o else some (o.getD [] ++ values) := by
  induction values generalizing o with
  | nil => rfl
  | cons v values ih =>
    rw [List.foldl_cons, ih, if_neg (List.cons_ne_nil v values), Option.getD_some]
    split_ifs with h
    · rw [h]
    · rw [List.append_assoc, List.singleton_append]

/-- **A group** is what the list has under its key, in the order of the list, and there is none without values. -/
theorem mem_group {values : List γ} :
    (k, values) ∈ group key l ↔ values = (l.filter fun x => key x = k) ∧ values ≠ [] := by
  have hvalues : valuesAt (l.map fun x => (key x, x)) k = l.filter fun x => key x = k := by
    rw [valuesAt, List.filter_map, List.map_map]
    exact List.map_id _
  rw [mem_iff_get keyOrdered_group, group, get_updateAll List.Pairwise.nil, hvalues, get_nil, foldl_push]
  split_ifs with h
  · rw [h]
    constructor
    · intro hnone
      cases hnone
    · rintro ⟨heq, hne⟩
      exact absurd heq hne
  · rw [Option.getD_none, List.nil_append, Option.some_inj]
    constructor
    · intro heq
      exact ⟨heq.symm, heq ▸ h⟩
    · intro heq
      exact heq.1.symm

theorem perm_update_push (m : List (κ × List γ)) (k : κ) (x : γ) :
    ((update m k fun o => o.getD [] ++ [x]).flatMap (·.2)).Perm (x :: m.flatMap (·.2)) := by
  induction m with
  | nil => exact List.Perm.refl _
  | cons entry rest ih =>
    rw [update]
    split_ifs
    · rw [List.flatMap_cons, List.flatMap_cons, Option.getD_some, List.append_assoc]
      exact List.perm_middle
    · exact List.Perm.refl _
    · rw [List.flatMap_cons, List.flatMap_cons]
      exact (ih.append_left entry.2).trans List.perm_middle

/-- **Every element is in one group,** as often as it is in the list. -/
theorem perm_group : ((group key l).flatMap (·.2)).Perm l := by
  have hfold : ∀ m : List (κ × List γ),
      ((updateAll (fun x o => o.getD [] ++ [x]) m (l.map fun x => (key x, x))).flatMap (·.2)).Perm
        (l ++ m.flatMap (·.2)) := by
    induction l with
    | nil => exact fun m => List.Perm.refl _
    | cons x l ih =>
      intro m
      refine (ih (update m (key x) fun o => o.getD [] ++ [x])).trans ?_
      exact ((perm_update_push m (key x) x).append_left l).trans List.perm_middle
  simpa [group] using hfold []

end Group

/-! ## Maxima -/

section Raise

variable [LinearOrder β]

/-- `entry(k).or_insert(zero)`, raised to a value above it. -/
def raise (zero v : β) (o : Option β) : β := if o.getD zero < v then v else o.getD zero

theorem raise_eq (zero v : β) (o : Option β) : raise zero v o = max (o.getD zero) v := by
  rw [raise]
  split_ifs with h
  · exact (max_eq_right h.le).symm
  · exact (max_eq_left (not_lt.mp h)).symm

/-- Raising by several values leaves their maximum with the old entry, which stays missing without values. -/
theorem foldl_raise (zero : β) (values : List β) (o : Option β) :
    values.foldl (fun o v => some (raise zero v o)) o =
      if values = [] then o else some (values.foldl max (o.getD zero)) := by
  induction values generalizing o with
  | nil => rfl
  | cons v values ih =>
    rw [List.foldl_cons, ih, if_neg (List.cons_ne_nil v values), List.foldl_cons, Option.getD_some, raise_eq]
    split_ifs with h
    · rw [h, List.foldl_nil]
    · rfl

theorem le_foldl_max (values : List β) (start : β) : start ≤ values.foldl max start := by
  induction values generalizing start with
  | nil => exact le_rfl
  | cons v values ih => exact (le_max_left start v).trans (ih (max start v))

/-- The maximum a loop finds is the greatest value, or the start where that is greater. -/
theorem foldl_max_eq (values : List β) (start : β) :
    values.foldl max start = (values.max?).elim start fun top => max start top := by
  cases values with
  | nil => rfl
  | cons v values =>
    rw [List.max?_cons', Option.elim_some, List.foldl_cons]
    induction values generalizing v with
    | nil => rfl
    | cons w values ih => rw [List.foldl_cons, List.foldl_cons, max_assoc, ih]

end Raise

end RallyPoint.Lib.OrderedMap
