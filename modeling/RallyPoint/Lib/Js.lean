/-
# RallyPoint.Lib.Js — what a JavaScript program does with parsed JSON.

Member access, `String(value)`, `trim`, the pieces of `split` by runs of separators, and the insertion-ordered
`Map`. Numbers are printed by their JSON text; texts are sequences of characters.
-/
import RallyPoint.Lib.Json

namespace RallyPoint.Lib

/-! ## Texts -/

/-- White space and line terminators, which `trim` and `\s` take. -/
def jsSpaceCodes : List Nat :=
  [0x9, 0xa, 0xb, 0xc, 0xd, 0x20, 0xa0, 0x1680, 0x2000, 0x2001, 0x2002, 0x2003, 0x2004, 0x2005, 0x2006, 0x2007,
    0x2008, 0x2009, 0x200a, 0x2028, 0x2029, 0x202f, 0x205f, 0x3000, 0xfeff]

def isJsSpace (c : Char) : Bool := jsSpaceCodes.contains c.toNat

/-- `s.length`, in UTF-16 units. -/
def utf16Length (s : String) : Nat := sumOf (fun c => if c.toNat < 0x10000 then 1 else 2) s.toList

/-- The pieces between the runs of separators; `inRun` when the character before was one. -/
def splitRuns (sep : Char → Bool) (inRun : Bool) : List Char → List (List Char)
  | [] => [[]]
  | c :: cs =>
    if sep c then
      if inRun then splitRuns sep true cs else [] :: splitRuns sep true cs
    else
      match splitRuns sep false cs with
      | [] => [[c]]
      | w :: ws => (c :: w) :: ws

section SplitRuns

variable {sep : Char → Bool} {w rest : List Char} {c : Char}

/-- The first piece ends with the first separator. -/
theorem splitRuns_append (hw : ∀ x ∈ w, sep x = false) (hc : sep c = true) :
    splitRuns sep false (w ++ c :: rest) = w :: splitRuns sep true rest := by
  induction w with
  | nil => simp [splitRuns, hc]
  | cons x w ih =>
    have hx : sep x = false := hw x List.mem_cons_self
    rw [List.cons_append, splitRuns, ih fun y hy => hw y (List.mem_cons_of_mem x hy)]
    simp [hx]

/-- A run before the text adds no more than an empty piece. -/
theorem mem_splitRuns_true_iff (hw : w ≠ []) : w ∈ splitRuns sep true rest ↔ w ∈ splitRuns sep false rest := by
  cases rest with
  | nil => rfl
  | cons c cs => by_cases hc : sep c = true <;> simp [splitRuns, hc, hw]

end SplitRuns

/-! ## Values -/

namespace Json

/-- The value of a member, or nothing where it is undefined. -/
def member (v : Json) (key : String) : Option Json := v.asObject.bind (getField · key)

def isNull : Json → Bool
  | .null => true
  | _ => false

mutual

/-- `String(value)`. -/
def jsString : Json → String
  | .null => "null"
  | .bool b => if b then "true" else "false"
  | .int n => String.ofList (intText n)
  | .float x => x.text
  | .string s => s
  | .array items => jsItems true items
  | .object _ => "[object Object]"

/-- `items.join(",")`: `null` prints as nothing. -/
def jsItems (first : Bool) : List Json → String
  | [] => ""
  | v :: rest => (if first then "" else ",") ++ (if v.isNull then "" else v.jsString) ++ jsItems false rest

end

end Json

/-! ## Maps -/

section Maps

variable {β : Type*}

/-- `map.get(key)`. -/
def mapGet (m : List (String × β)) (key : String) : Option β := (m.find? (·.1 == key)).map (·.2)

/-- `map.set(key, value)`: a key keeps its place. -/
def mapSet : List (String × β) → String → β → List (String × β)
  | [], key, value => [(key, value)]
  | entry :: rest, key, value => if entry.1 = key then (key, value) :: rest else entry :: mapSet rest key value

/-- `map.has(key)`. -/
def mapHas (m : List (String × β)) (key : String) : Bool := m.any (·.1 == key)

theorem mapHas_iff {m : List (String × β)} {key : String} : mapHas m key = true ↔ key ∈ m.map (·.1) := by
  simp [mapHas]

theorem mapGet_cons (entry : String × β) (rest : List (String × β)) (key : String) :
    mapGet (entry :: rest) key = if entry.1 = key then some entry.2 else mapGet rest key := by
  by_cases h : entry.1 = key <;> simp [mapGet, h]

theorem mapGet_mapSet (m : List (String × β)) (key key' : String) (value : β) :
    mapGet (mapSet m key value) key' = if key = key' then some value else mapGet m key' := by
  induction m with
  | nil => rw [mapSet, mapGet_cons]
  | cons entry rest ih =>
    rw [mapSet]
    split
    · rename_i hkey
      rw [mapGet_cons, mapGet_cons, hkey]
      split <;> rfl
    · rename_i hkey
      rw [mapGet_cons, ih, mapGet_cons]
      by_cases hkey' : entry.1 = key'
      · have hne : key ≠ key' := fun h => hkey (hkey'.trans h.symm)
        rw [if_pos hkey', if_neg hne, if_pos hkey']
      · rw [if_neg hkey', if_neg hkey']

theorem mem_keys_mapSet {m : List (String × β)} {key key' : String} {value : β} :
    key' ∈ (mapSet m key value).map (·.1) ↔ key' = key ∨ key' ∈ m.map (·.1) := by
  induction m with
  | nil => simp [mapSet]
  | cons entry rest ih =>
    rw [mapSet]
    split
    · rename_i hkey
      simp [hkey]
    · rw [List.map_cons, List.mem_cons, ih, List.map_cons, List.mem_cons]
      exact or_left_comm

/-! ## A map filled in a loop -/

variable {α : Type*}

/-- Every element with a key sets its value. -/
def mapOf (key : α → Option String) (value : α → String → β) (l : List α) : List (String × β) :=
  l.foldl (fun m x => (key x).elim m fun k => mapSet m k (value x k)) []

variable {key : α → Option String} {value : α → String → β} {l : List α} {k : String}

theorem mapOf_concat (l : List α) (x : α) : mapOf key value (l ++ [x]) =
    (key x).elim (mapOf key value l) fun k => mapSet (mapOf key value l) k (value x k) := by
  rw [mapOf, List.foldl_append]
  rfl

theorem mem_keys_mapOf : k ∈ (mapOf key value l).map (·.1) ↔ k ∈ l.filterMap key := by
  induction l using List.reverseRecOn with
  | nil => simp [mapOf]
  | append_singleton l x ih =>
    rw [mapOf_concat, List.filterMap_append, List.mem_append, ← ih]
    cases hx : key x with
    | none => simp [hx]
    | some own =>
      rw [Option.elim_some, mem_keys_mapSet]
      simp [hx, or_comm]

/-- The middle of a list with one more element is that element or lies before it. -/
theorem split_concat {l pre post : List α} {a x : α} (h : l ++ [a] = pre ++ x :: post) :
    (l = pre ∧ a = x ∧ post = []) ∨ ∃ mid, post = mid ++ [a] ∧ l = pre ++ x :: mid := by
  cases post using List.reverseRecOn with
  | nil =>
    obtain ⟨rfl, hlast⟩ := List.append_inj' h rfl
    exact .inl ⟨rfl, List.singleton_inj.mp hlast, rfl⟩
  | append_singleton mid b =>
    have hinner : l ++ [a] = (pre ++ x :: mid) ++ [b] := h.trans (by simp)
    obtain ⟨hl, hlast⟩ := List.append_inj' hinner rfl
    obtain rfl := List.singleton_inj.mp hlast
    exact .inr ⟨mid, rfl, hl⟩

/-- The last element under a key decides its value. -/
theorem mapGet_mapOf_eq_some_iff {v : β} : mapGet (mapOf key value l) k = some v ↔
    ∃ pre x post, l = pre ++ x :: post ∧ key x = some k ∧ (∀ y ∈ post, key y ≠ some k) ∧ value x k = v := by
  induction l using List.reverseRecOn with
  | nil => simp [mapOf, mapGet]
  | append_singleton l last ih =>
    have hget : mapGet (mapOf key value (l ++ [last])) k =
        if key last = some k then some (value last k) else mapGet (mapOf key value l) k := by
      rw [mapOf_concat]
      cases hlast : key last with
      | none => simp
      | some own =>
        rw [Option.elim_some, mapGet_mapSet]
        by_cases hown : own = k
        · simp [hown]
        · simp [hown]
    rw [hget]
    by_cases hlast : key last = some k
    · rw [if_pos hlast, Option.some.injEq]
      constructor
      · exact fun h => ⟨l, last, [], rfl, hlast, nofun, h⟩
      · rintro ⟨pre, x, post, hsplit, -, hpost, h⟩
        -- nothing with this key stands behind the element, so it is the last one
        rcases split_concat hsplit with ⟨-, rfl, -⟩ | ⟨mid, rfl, -⟩
        · exact h
        · exact absurd hlast (hpost last (by simp))
    · rw [if_neg hlast, ih]
      constructor
      · rintro ⟨pre, x, post, rfl, hx, hpost, h⟩
        refine ⟨pre, x, post ++ [last], by simp, hx, fun y hy => ?_, h⟩
        rcases List.mem_append.mp hy with hy | hy
        · exact hpost y hy
        · obtain rfl := List.mem_singleton.mp hy
          exact hlast
      · rintro ⟨pre, x, post, hsplit, hx, hpost, h⟩
        rcases split_concat hsplit with ⟨-, rfl, -⟩ | ⟨mid, rfl, rfl⟩
        · exact absurd hx hlast
        · exact ⟨pre, x, mid, rfl, hx, fun y hy => hpost y (by simp [hy]), h⟩

/-- Where keys are distinct, no later element has the same one. -/
theorem key_ne_of_nodup {pre post : List α} {x : α} (hnodup : ((pre ++ x :: post).filterMap key).Nodup)
    (hx : key x = some k) : ∀ y ∈ post, key y ≠ some k := by
  intro y hy hsame
  rw [List.filterMap_append, List.filterMap_cons, hx] at hnodup
  have htail := (List.nodup_cons.mp (List.nodup_append.mp hnodup).2.1).1
  exact htail (List.mem_filterMap.mpr ⟨y, hy, hsame⟩)

theorem mapGet_mapOf_of_nodup {x : α} (hnodup : (l.filterMap key).Nodup) (hmem : x ∈ l) (hx : key x = some k) :
    mapGet (mapOf key value l) k = some (value x k) := by
  obtain ⟨pre, post, rfl⟩ := List.append_of_mem hmem
  exact mapGet_mapOf_eq_some_iff.mpr ⟨pre, x, post, rfl, hx, key_ne_of_nodup hnodup hx, rfl⟩

end Maps

end RallyPoint.Lib
