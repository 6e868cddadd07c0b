/-
# RallyPoint.Lib.JsData — JavaScript values made of data, and their JSON text.

An object lists its own properties in the order in which they are enumerated: array indices by number, the others as
they were added. `JSON.stringify` and `JSON.parse` are given as functions on text; what is written is read back
(`parse_stringify`) up to the numbers JSON has no text for, which `stored` accounts for: what is not finite becomes
null, and a negative zero loses its sign.
-/
import RallyPoint.Lib.Utf16
import RallyPoint.Lib.StableSort
import Mathlib.Data.List.Lex

namespace RallyPoint.Lib.JsData

/-! ## Values -/

/-- The numbers, with what JavaScript guarantees of their texts: a finite number is printed as a JSON numeral that
reads as a number with the same text and the same integer value. -/
structure Numbers where
  Num : Type
  /-- `Number::toString`. -/
  text : Num → List Char
  finite : Num → Bool
  /-- The number a JSON numeral denotes. -/
  ofNumeral : List Char → Num
  /-- The integer that the number is. -/
  integer : Num → Option Int
  isNumeral_text : ∀ n, finite n = true → isNumeral (text n) = true
  text_ofNumeral : ∀ n, finite n = true → text (ofNumeral (text n)) = text n
  finite_ofNumeral : ∀ n, finite n = true → finite (ofNumeral (text n)) = true
  integer_ofNumeral : ∀ n, finite n = true → integer (ofNumeral (text n)) = integer n
  text_of_not_finite : ∀ n, finite n = false → text n ∈ ["NaN".toList, "Infinity".toList, "-Infinity".toList]
  integer_of_not_finite : ∀ n, finite n = false → integer n = none

inductive JsValue (Num : Type)
  | null
  | bool (b : Bool)
  | number (n : Num)
  | string (s : JsString)
  | array (items : List (JsValue Num))
  | object (fields : List (JsString × JsValue Num))

/-- Induction with the hypothesis for every element and every property. -/
@[elab_as_elim]
theorem JsValue.induct {Num : Type} {P : JsValue Num → Prop} (null : P .null) (bool : ∀ b, P (.bool b))
    (number : ∀ n, P (.number n)) (string : ∀ s, P (.string s))
    (array : ∀ items, (∀ v ∈ items, P v) → P (.array items))
    (object : ∀ fields, (∀ f ∈ fields, P f.2) → P (.object fields)) (v : JsValue Num) : P v :=
  @JsValue.rec Num P (fun items => ∀ v ∈ items, P v) (fun fields => ∀ f ∈ fields, P f.2) (fun f => P f.2)
    null bool number string array object
    (fun _ h => absurd h List.not_mem_nil) (fun _ _ hv hrest => List.forall_mem_cons.mpr ⟨hv, hrest⟩)
    (fun _ h => absurd h List.not_mem_nil) (fun _ _ hf hrest => List.forall_mem_cons.mpr ⟨hf, hrest⟩)
    (fun _ _ hv => hv) v

/-! ## Own properties -/

section Properties

variable {α β : Type}

/-- The array index that a key spells. -/
def arrayIndex (key : JsString) : Option Nat :=
  if key ≠ [] ∧ (key.all fun u => 0x30 ≤ u.toNat && u.toNat ≤ 0x39) ∧ (key.length = 1 ∨ key.head? ≠ some 0x30) then
    let n := key.foldl (fun n u => n * 10 + (u.toNat - 0x30)) 0
    if n < 2 ^ 32 - 1 then some n else none
  else none

def isIndex (entry : JsString × α) : Bool := (arrayIndex entry.1).isSome

def indexOf (entry : JsString × α) : Nat := (arrayIndex entry.1).getD 0

/-- Properties added in an order, in the order in which they are enumerated. -/
def ownOrder (entries : List (JsString × α)) : List (JsString × α) :=
  (entries.filter isIndex).insertionSort (fun a b => indexOf a ≤ indexOf b) ++ entries.filter fun e => !isIndex e

/-- A property that is there keeps its place. -/
def define (fields : List (JsString × α)) (entry : JsString × α) : List (JsString × α) :=
  if fields.any fun f => f.1 == entry.1 then fields.map fun f => if f.1 == entry.1 then entry else f
  else fields ++ [entry]

/-- `Object.fromEntries`. -/
def fromEntries (entries : List (JsString × α)) : List (JsString × α) := ownOrder (entries.foldl define [])

theorem ownOrder_perm (entries : List (JsString × α)) : (ownOrder entries).Perm entries :=
  ((List.perm_insertionSort _ _).append_right _).trans (List.filter_append_perm isIndex entries)

/-- Properties in their own order stay in it. -/
theorem ownOrder_ownOrder (entries : List (JsString × α)) : ownOrder (ownOrder entries) = ownOrder entries := by
  have hindex : ∀ e ∈ (entries.filter isIndex).insertionSort (fun a b => indexOf a ≤ indexOf b), isIndex e = true :=
    fun e he => (List.mem_filter.mp ((List.mem_insertionSort _).mp he)).2
  have hrest : ∀ e ∈ entries.filter fun e => !isIndex e, isIndex e = false := fun e he => by
    simpa using (List.mem_filter.mp he).2
  have hnone : (entries.filter fun e => !isIndex e).filter isIndex = [] :=
    List.filter_eq_nil_iff.mpr fun e he => by simp [hrest e he]
  have hnone' : ((entries.filter isIndex).insertionSort (fun a b => indexOf a ≤ indexOf b)).filter
      (fun e => !isIndex e) = [] := List.filter_eq_nil_iff.mpr fun e he => by simp [hindex e he]
  have hfirst : (ownOrder entries).filter isIndex =
      (entries.filter isIndex).insertionSort (fun a b => indexOf a ≤ indexOf b) := by
    rw [ownOrder, List.filter_append, List.filter_eq_self.mpr hindex, hnone, List.append_nil]
  have hsecond : (ownOrder entries).filter (fun e => !isIndex e) = entries.filter fun e => !isIndex e := by
    rw [ownOrder, List.filter_append, hnone', List.nil_append, List.filter_filter]
    simp
  have hsorted : SortedBy indexOf ((entries.filter isIndex).insertionSort fun a b => indexOf a ≤ indexOf b) :=
    sortedBy_insertionSort (fun _ _ => Iff.rfl) _
  rw [ownOrder, hfirst, hsecond, List.Pairwise.insertionSort_eq hsorted]
  rfl

/-- Keys that are no array indices stay as they were added. -/
theorem ownOrder_of_names {entries : List (JsString × α)} (h : ∀ key ∈ entries.map (·.1), arrayIndex key = none) :
    ownOrder entries = entries := by
  have hnames : ∀ e ∈ entries, isIndex e = false := fun e he => by
    rw [isIndex, h e.1 (List.mem_map_of_mem he), Option.isSome_none]
  have hindex : entries.filter isIndex = [] := List.filter_eq_nil_iff.mpr fun e he => by simp [hnames e he]
  have hrest : (entries.filter fun e => !isIndex e) = entries :=
    List.filter_eq_self.mpr fun e he => by simp [hnames e he]
  rw [ownOrder, hindex, hrest, List.insertionSort_nil, List.nil_append]

/-- The order does not look at the values. -/
theorem ownOrder_map (f : α → β) (entries : List (JsString × α)) :
    ownOrder (entries.map fun e => (e.1, f e.2)) = (ownOrder entries).map fun e => (e.1, f e.2) := by
  have hsort := List.map_insertionSort (fun a b : JsString × α => indexOf a ≤ indexOf b)
    (fun a b : JsString × β => indexOf a ≤ indexOf b) (fun e => (e.1, f e.2)) (entries.filter isIndex)
    fun a _ b _ => Iff.rfl
  rw [ownOrder, ownOrder, List.map_append, hsort, List.filter_map, List.filter_map]
  rfl

/-- Among different keys, the property of one is the one that is there. -/
theorem find?_key_eq_some_iff {fields : List (JsString × α)} (h : (fields.map (·.1)).Nodup) {key : JsString}
    {e : JsString × α} : (fields.find? fun f => f.1 == key) = some e ↔ e ∈ fields ∧ e.1 = key := by
  refine ⟨fun hfind => ⟨List.mem_of_find?_eq_some hfind,
    eq_of_beq (@List.find?_some _ (fun f => f.1 == key) e fields hfind)⟩, ?_⟩
  rintro ⟨hmem, rfl⟩
  induction fields with
  | nil => cases hmem
  | cons f fields ih =>
    rw [List.map_cons, List.nodup_cons] at h
    rcases List.mem_cons.mp hmem with rfl | hmem
    · rw [List.find?_cons, beq_self_eq_true]
    · have hne : (f.1 == e.1) = false := beq_eq_false_iff_ne.mpr fun heq =>
        h.1 (List.mem_map.mpr ⟨e, hmem, heq.symm⟩)
      rw [List.find?_cons, hne]
      exact ih h.2 hmem

theorem find?_key_of_perm {fields fields' : List (JsString × α)} (hperm : fields'.Perm fields)
    (h : (fields.map (·.1)).Nodup) (key : JsString) :
    (fields'.find? fun f => f.1 == key) = fields.find? fun f => f.1 == key := by
  have h' : (fields'.map (·.1)).Nodup := (hperm.map _).nodup_iff.mpr h
  apply Option.ext
  intro e
  rw [find?_key_eq_some_iff h', find?_key_eq_some_iff h, hperm.mem_iff]

theorem foldl_define {fields entries : List (JsString × α)} (h : ((fields ++ entries).map (·.1)).Nodup) :
    entries.foldl define fields = fields ++ entries := by
  induction entries generalizing fields with
  | nil => simp
  | cons entry entries ih =>
    have hnew : (fields.any fun f => f.1 == entry.1) = false := by
      rw [List.any_eq_false]
      intro f hf heq
      rw [List.map_append, List.map_cons] at h
      exact (List.nodup_append.mp h).2.2 f.1 (List.mem_map_of_mem hf) entry.1 List.mem_cons_self (by simpa using heq)
    rw [List.foldl_cons, define, if_neg (by rw [hnew]; exact Bool.false_ne_true), ih (by simpa using h)]
    simp

/-- Entries with different keys are the properties. -/
theorem fromEntries_of_nodup {entries : List (JsString × α)} (h : (entries.map (·.1)).Nodup) :
    fromEntries entries = ownOrder entries := by
  rw [fromEntries, foldl_define (by simpa using h), List.nil_append]

end Properties

/-! ## Texts -/

section Texts

variable {N : Numbers}

mutual

/-- `JSON.stringify`. -/
def stringify : JsValue N.Num → List Char
  | .null => ['n', 'u', 'l', 'l']
  | .bool true => ['t', 'r', 'u', 'e']
  | .bool false => ['f', 'a', 'l', 's', 'e']
  | .number n => if N.finite n then N.text n else ['n', 'u', 'l', 'l']
  | .string s => quote s
  | .array items => '[' :: stringifyItems true items
  | .object fields => '{' :: stringifyFields true fields

def stringifyItems (first : Bool) : List (JsValue N.Num) → List Char
  | [] => [']']
  | v :: rest => (if first then [] else [',']) ++ (stringify v ++ stringifyItems false rest)

def stringifyFields (first : Bool) : List (JsString × JsValue N.Num) → List Char
  | [] => ['}']
  | (key, v) :: rest =>
    (if first then [] else [',']) ++ (quote key ++ ':' :: (stringify v ++ stringifyFields false rest))

end

mutual

/-- What comes back of a value that was written. -/
def stored : JsValue N.Num → JsValue N.Num
  | .number n => if N.finite n then .number (N.ofNumeral (N.text n)) else .null
  | .array items => .array (storedItems items)
  | .object fields => .object (storedFields fields)
  | v => v

def storedItems : List (JsValue N.Num) → List (JsValue N.Num)
  | [] => []
  | v :: rest => stored v :: storedItems rest

def storedFields : List (JsString × JsValue N.Num) → List (JsString × JsValue N.Num)
  | [] => []
  | (key, v) :: rest => (key, stored v) :: storedFields rest

end

mutual

/-- Every number is the one that its text denotes: all but a negative zero and what is not finite. -/
def Exact : JsValue N.Num → Prop
  | .number n => N.finite n = true ∧ N.ofNumeral (N.text n) = n
  | .array items => ExactItems items
  | .object fields => ExactFields fields
  | _ => True

def ExactItems : List (JsValue N.Num) → Prop
  | [] => True
  | v :: rest => Exact v ∧ ExactItems rest

def ExactFields : List (JsString × JsValue N.Num) → Prop
  | [] => True
  | (_, v) :: rest => Exact v ∧ ExactFields rest

end

mutual

/-- Every object enumerates its properties in its own order, each key once. -/
def WellFormed : JsValue N.Num → Prop
  | .array items => WellFormedItems items
  | .object fields => ownOrder fields = fields ∧ (fields.map (·.1)).Nodup ∧ WellFormedFields fields
  | _ => True

def WellFormedItems : List (JsValue N.Num) → Prop
  | [] => True
  | v :: rest => WellFormed v ∧ WellFormedItems rest

def WellFormedFields : List (JsString × JsValue N.Num) → Prop
  | [] => True
  | (_, v) :: rest => WellFormed v ∧ WellFormedFields rest

end

/-- The characters of a numeral. -/
def isNumeralChar (c : Char) : Bool := c.isDigit || c == '-' || c == '+' || c == '.' || c == 'e' || c == 'E'

/-- A word behind its first letter. -/
def parseWord (word : List Char) (v : JsValue N.Num) (rest : List Char) : Option (JsValue N.Num × List Char) :=
  if word.isPrefixOf rest then some (v, rest.drop word.length) else none

variable (N) in
mutual

/-- A value at the front of a text, and what stands behind it. -/
def parseValue : Nat → List Char → Option (JsValue N.Num × List Char)
  | 0, _ => none
  | fuel + 1, text =>
    match text.dropWhile isJsonSpace with
    | [] => none
    | c :: rest =>
      if c = '"' then (parseUnits (fuel + 1) rest).map fun p => (.string p.1, p.2)
      else if c = '[' then
        if (rest.dropWhile isJsonSpace).head? = some ']' then some (.array [], (rest.dropWhile isJsonSpace).tail)
        else (parseElements fuel rest).map fun p => (.array p.1, p.2)
      else if c = '{' then
        if (rest.dropWhile isJsonSpace).head? = some '}' then some (.object [], (rest.dropWhile isJsonSpace).tail)
        else (parseMembers fuel rest).map fun p => (.object (fromEntries p.1), p.2)
      else if c = 'n' then parseWord ['u', 'l', 'l'] .null rest
      else if c = 't' then parseWord ['r', 'u', 'e'] (.bool true) rest
      else if c = 'f' then parseWord ['a', 'l', 's', 'e'] (.bool false) rest
      else
        let numeral := (c :: rest).takeWhile isNumeralChar
        if isNumeral numeral then some (.number (N.ofNumeral numeral), (c :: rest).dropWhile isNumeralChar) else none

/-- The elements of an array up to its bracket. -/
def parseElements : Nat → List Char → Option (List (JsValue N.Num) × List Char)
  | 0, _ => none
  | fuel + 1, text =>
    match parseValue fuel text with
    | none => none
    | some (v, rest) =>
      match rest.dropWhile isJsonSpace with
      | ',' :: rest => (parseElements fuel rest).map fun p => (v :: p.1, p.2)
      | ']' :: rest => some ([v], rest)
      | _ => none

/-- The members of an object up to its brace. -/
def parseMembers : Nat → List Char → Option (List (JsString × JsValue N.Num) × List Char)
  | 0, _ => none
  | fuel + 1, text =>
    match text.dropWhile isJsonSpace with
    | '"' :: rest =>
      match parseUnits (fuel + 1) rest with
      | none => none
      | some (key, rest) =>
        match rest.dropWhile isJsonSpace with
        | ':' :: rest =>
          match parseValue fuel rest with
          | none => none
          | some (v, rest) =>
            match rest.dropWhile isJsonSpace with
            | ',' :: rest => (parseMembers fuel rest).map fun p => ((key, v) :: p.1, p.2)
            | '}' :: rest => some ([(key, v)], rest)
            | _ => none
        | _ => none
    | _ => none

end

variable (N) in
/-- `JSON.parse`. -/
def parse (text : List Char) : Option (JsValue N.Num) :=
  match parseValue N (text.length + 1) text with
  | some (v, rest) => if rest.all isJsonSpace then some v else none
  | none => none

/-! ## What code asks of a value

A property that is not there, or of a value without properties, is undefined: `none`. -/

def get : JsValue N.Num → String → Option (JsValue N.Num)
  | .object fields, key => (fields.find? fun f => f.1 == utf16 key).map (·.2)
  | _, _ => none

def isNull : JsValue N.Num → Bool
  | .null => true
  | _ => false

/-- `if (v)`: the falsy numbers are those printed as 0 and NaN. -/
def truthy : Option (JsValue N.Num) → Bool
  | none => false
  | some .null => false
  | some (.bool b) => b
  | some (.number n) => N.text n != ['0'] && N.text n != ['N', 'a', 'N']
  | some (.string s) => s != []
  | some _ => true

/-- `===` between a value and one that was made elsewhere: no two objects are equal, and numbers are equal when they
print alike and are not NaN. -/
def strictEquals : Option (JsValue N.Num) → Option (JsValue N.Num) → Bool
  | none, none => true
  | some .null, some .null => true
  | some (.bool a), some (.bool b) => a == b
  | some (.number m), some (.number n) => N.text m == N.text n && N.text m != ['N', 'a', 'N']
  | some (.string s), some (.string t) => s == t
  | _, _ => false

mutual

/-- `ToString`; an object of which a property takes the place of `toString` has no text. -/
def toText : JsValue N.Num → Option JsString
  | .null => some (utf16 "null")
  | .bool true => some (utf16 "true")
  | .bool false => some (utf16 "false")
  | .number n => some ((N.text n).flatMap encodeChar)
  | .string s => some s
  | .array items => joinTexts true items
  | .object fields => if fields.any fun f => f.1 == utf16 "toString" then none else some (utf16 "[object Object]")

/-- `Array.prototype.join`, in which null is empty. -/
def joinTexts (first : Bool) : List (JsValue N.Num) → Option JsString
  | [] => some []
  | v :: rest =>
    (if isNull v then some [] else toText v).bind fun text =>
      (joinTexts false rest).map fun others => (if first then [] else [0x2c]) ++ (text ++ others)

end

theorem get_eq_some_iff {fields : List (JsString × JsValue N.Num)} (h : (fields.map (·.1)).Nodup) {key : String}
    {v : JsValue N.Num} : get (.object fields) key = some v ↔ (utf16 key, v) ∈ fields := by
  rw [get, Option.map_eq_some_iff]
  constructor
  · rintro ⟨e, hfind, rfl⟩
    obtain ⟨hmem, hkey⟩ := (find?_key_eq_some_iff h).mp hfind
    rwa [← hkey]
  · exact fun hmem => ⟨(utf16 key, v), (find?_key_eq_some_iff h).mpr ⟨hmem, rfl⟩, rfl⟩

/-- A value with a property is an object. -/
theorem object_of_get {v w : JsValue N.Num} {key : String} (h : get v key = some w) :
    ∃ fields, v = .object fields ∧ (utf16 key, w) ∈ fields := by
  cases v with
  | object fields =>
    rw [get, Option.map_eq_some_iff] at h
    obtain ⟨e, hfind, rfl⟩ := h
    have hkey : e.1 = utf16 key := eq_of_beq (@List.find?_some _ (fun f => f.1 == utf16 key) e fields hfind)
    refine ⟨fields, rfl, ?_⟩
    rw [← hkey]
    exact List.mem_of_find?_eq_some hfind
  | _ => cases h

/-! ## Reading what was written -/

theorem storedItems_eq_map (items : List (JsValue N.Num)) : storedItems items = items.map stored := by
  induction items with
  | nil => rfl
  | cons v rest ih => rw [storedItems, ih, List.map_cons]

theorem storedFields_eq_map (fields : List (JsString × JsValue N.Num)) :
    storedFields fields = fields.map fun f => (f.1, stored f.2) := by
  induction fields with
  | nil => rfl
  | cons f rest ih =>
    obtain ⟨key, v⟩ := f
    rw [storedFields, ih, List.map_cons]

/-- What comes back has the text it was read from. -/
theorem stringify_stored (v : JsValue N.Num) : stringify (stored v) = stringify v := by
  induction v using JsValue.induct with
  | null => rfl
  | bool b => rfl
  | number n =>
    rw [stored]
    by_cases hn : N.finite n = true
    · rw [if_pos hn, stringify, stringify, if_pos hn, if_pos (N.finite_ofNumeral n hn), N.text_ofNumeral n hn]
    · rw [if_neg hn, stringify, stringify, if_neg hn]
  | string s => rfl
  | array items ih =>
    have hitems : ∀ first, stringifyItems first (storedItems items) = stringifyItems first items := by
      induction items with
      | nil => exact fun _ => rfl
      | cons v rest ihrest =>
        intro first
        rw [storedItems, stringifyItems, stringifyItems, ih v List.mem_cons_self,
          ihrest fun w hw => ih w (List.mem_cons_of_mem v hw)]
    rw [stored, stringify, stringify, hitems]
  | object fields ih =>
    have hfields : ∀ first, stringifyFields first (storedFields fields) = stringifyFields first fields := by
      induction fields with
      | nil => exact fun _ => rfl
      | cons f rest ihrest =>
        intro first
        obtain ⟨key, v⟩ := f
        rw [storedFields, stringifyFields, stringifyFields, ih (key, v) List.mem_cons_self,
          ihrest fun g hg => ih g (List.mem_cons_of_mem (key, v) hg)]
    rw [stored, stringify, stringify, hfields]

theorem exactItems_iff {items : List (JsValue N.Num)} : ExactItems items ↔ ∀ v ∈ items, Exact v := by
  induction items with
  | nil => simp [ExactItems]
  | cons v rest ih => rw [ExactItems, ih, List.forall_mem_cons]

theorem exactFields_iff {fields : List (JsString × JsValue N.Num)} :
    ExactFields fields ↔ ∀ f ∈ fields, Exact f.2 := by
  induction fields with
  | nil => simp [ExactFields]
  | cons f rest ih =>
    obtain ⟨key, v⟩ := f
    rw [ExactFields, ih, List.forall_mem_cons]

/-- Exact values come back as they were. -/
theorem stored_of_exact {v : JsValue N.Num} (h : Exact v) : stored v = v := by
  induction v using JsValue.induct with
  | number n =>
    rw [stored, if_pos h.1, h.2]
  | array items ih =>
    rw [Exact, exactItems_iff] at h
    rw [stored, storedItems_eq_map]
    exact congrArg JsValue.array ((List.map_congr_left fun v hv => ih v hv (h v hv)).trans (List.map_id _))
  | object fields ih =>
    rw [Exact, exactFields_iff] at h
    rw [stored, storedFields_eq_map]
    exact congrArg JsValue.object
      ((List.map_congr_left fun f hf => congrArg (Prod.mk f.1) (ih f hf (h f hf))).trans (List.map_id _))
  | _ => rfl

theorem wellFormedItems_iff {items : List (JsValue N.Num)} : WellFormedItems items ↔ ∀ v ∈ items, WellFormed v := by
  induction items with
  | nil => simp [WellFormedItems]
  | cons v rest ih => rw [WellFormedItems, ih, List.forall_mem_cons]

theorem wellFormedFields_iff {fields : List (JsString × JsValue N.Num)} :
    WellFormedFields fields ↔ ∀ f ∈ fields, WellFormed f.2 := by
  induction fields with
  | nil => simp [WellFormedFields]
  | cons f rest ih =>
    obtain ⟨key, v⟩ := f
    rw [WellFormedFields, ih, List.forall_mem_cons]

theorem ownOrder_storedFields {fields : List (JsString × JsValue N.Num)} (h : ownOrder fields = fields) :
    ownOrder (storedFields fields) = storedFields fields := by
  rw [storedFields_eq_map, ownOrder_map, h]

theorem keys_storedFields (fields : List (JsString × JsValue N.Num)) :
    (storedFields fields).map (·.1) = fields.map (·.1) := by
  rw [storedFields_eq_map, List.map_map]
  rfl

theorem wellFormed_stored {v : JsValue N.Num} (h : WellFormed v) : WellFormed (stored v) := by
  induction v using JsValue.induct with
  | null => exact h
  | bool b => exact h
  | number n =>
    rw [stored]
    split <;> exact trivial
  | string s => exact h
  | array items ih =>
    rw [WellFormed, wellFormedItems_iff] at h
    rw [stored, WellFormed, wellFormedItems_iff, storedItems_eq_map, List.forall_mem_map]
    exact fun v hv => ih v hv (h v hv)
  | object fields ih =>
    rw [WellFormed, wellFormedFields_iff] at h
    rw [stored, WellFormed, wellFormedFields_iff, keys_storedFields]
    refine ⟨ownOrder_storedFields h.1, h.2.1, ?_⟩
    rw [storedFields_eq_map, List.forall_mem_map]
    exact fun f hf => ih f hf (h.2.2 f hf)

theorem get_stored (v : JsValue N.Num) (key : String) : get (stored v) key = (get v key).map stored := by
  cases v with
  | object fields =>
    rw [stored, get, get, storedFields_eq_map, List.find?_map, Option.map_map, Option.map_map]
    rfl
  | number n =>
    rw [stored]
    split <;> rfl
  | _ => rfl

theorem fromEntries_storedFields {fields : List (JsString × JsValue N.Num)} (horder : ownOrder fields = fields)
    (hkeys : (fields.map (·.1)).Nodup) : fromEntries (storedFields fields) = storedFields fields := by
  rw [fromEntries_of_nodup (by rwa [keys_storedFields]), ownOrder_storedFields horder]

theorem isNumeralChar_of_isDigit {c : Char} (h : c.isDigit = true) : isNumeralChar c = true := by
  simp [isNumeralChar, h]

theorem isNumeralChar_of_isExponent {t : List Char} (h : isExponent t = true) : ∀ c ∈ t, isNumeralChar c = true := by
  match t, h with
  | [], _ => exact fun c hc => absurd hc List.not_mem_nil
  | e :: sign :: digits, h =>
    rw [isExponent, Bool.and_eq_true] at h
    have he : isNumeralChar e = true := by
      rcases Bool.or_eq_true_iff.mp h.1 with he | he <;> rw [eq_of_beq he] <;> decide
    have hdigits : isNumeralChar sign = true ∧ digits.all Char.isDigit = true := by
      by_cases hsign : (sign == '+' || sign == '-') = true
      · have hall := h.2
        rw [if_pos hsign, Bool.and_eq_true] at hall
        refine ⟨?_, hall.2⟩
        rcases Bool.or_eq_true_iff.mp hsign with hs | hs <;> rw [eq_of_beq hs] <;> decide
      · have hall := h.2
        rw [if_neg hsign, List.all_cons, Bool.and_eq_true] at hall
        exact ⟨isNumeralChar_of_isDigit hall.1, hall.2⟩
    intro c hc
    rcases List.mem_cons.mp hc with rfl | hc
    · exact he
    · rcases List.mem_cons.mp hc with rfl | hc
      · exact hdigits.1
      · exact isNumeralChar_of_isDigit (List.all_eq_true.mp hdigits.2 c hc)

theorem isNumeralChar_of_isNumeral {t : List Char} (h : isNumeral t = true) : ∀ c ∈ t, isNumeralChar c = true := by
  rw [isNumeral] at h
  simp only [Bool.and_eq_true] at h
  -- digits, then a fraction or an exponent
  have hunsigned : ∀ {u : List Char}, (if (u.dropWhile Char.isDigit).head? = some '.' then
      (u.dropWhile Char.isDigit).tail.takeWhile Char.isDigit != [] &&
        isExponent ((u.dropWhile Char.isDigit).tail.dropWhile Char.isDigit)
      else isExponent (u.dropWhile Char.isDigit)) = true → ∀ c ∈ u, isNumeralChar c = true := by
    intro u hu c hc
    rw [← List.takeWhile_append_dropWhile (p := Char.isDigit) (l := u)] at hc
    rcases List.mem_append.mp hc with hc | hc
    · exact isNumeralChar_of_isDigit (List.mem_takeWhile_imp hc)
    · by_cases hdot : (u.dropWhile Char.isDigit).head? = some '.'
      · rw [if_pos hdot, Bool.and_eq_true] at hu
        obtain ⟨tail, htail⟩ := List.head?_eq_some_iff.mp hdot
        rw [htail, List.tail_cons] at hu
        rw [htail] at hc
        rcases List.mem_cons.mp hc with rfl | hc
        · decide
        · rw [← List.takeWhile_append_dropWhile (p := Char.isDigit) (l := tail)] at hc
          rcases List.mem_append.mp hc with hc | hc
          · exact isNumeralChar_of_isDigit (List.mem_takeWhile_imp hc)
          · exact isNumeralChar_of_isExponent hu.2 c hc
      · rw [if_neg hdot] at hu
        exact isNumeralChar_of_isExponent hu c hc
  by_cases hminus : t.head? = some '-'
  · rw [if_pos hminus] at h
    obtain ⟨tail, rfl⟩ := List.head?_eq_some_iff.mp hminus
    intro c hc
    rcases List.mem_cons.mp hc with rfl | hc
    · decide
    · exact hunsigned h.2 c hc
  · rw [if_neg hminus] at h
    exact hunsigned h.2

/-- The first character of a value. -/
def StartsValue (c : Char) : Prop := isJsonSpace c = false ∧ c ≠ ']' ∧ c ≠ '}'

theorem startsValue_of_numeral {c : Char} (h : c.isDigit = true ∨ c = '-') : StartsValue c := by
  rcases h with h | rfl
  · have hne : ∀ d : Char, d.isDigit = false → c ≠ d := by
      rintro d hd rfl
      rw [hd] at h
      cases h
    refine ⟨?_, hne _ (by decide), hne _ (by decide)⟩
    simp [isJsonSpace, hne ' ' (by decide), hne '\t' (by decide), hne '\n' (by decide), hne '\r' (by decide)]
  · exact ⟨by decide, by decide, by decide⟩

theorem stringify_head (v : JsValue N.Num) : ∃ c cs, stringify v = c :: cs ∧ StartsValue c := by
  have hnull : StartsValue 'n' := ⟨by decide, by decide, by decide⟩
  cases v with
  | null => exact ⟨'n', _, rfl, hnull⟩
  | bool b =>
    cases b with
    | true => exact ⟨'t', _, rfl, by decide, by decide, by decide⟩
    | false => exact ⟨'f', _, rfl, by decide, by decide, by decide⟩
  | number n =>
    rw [stringify]
    split
    · next hn =>
      obtain ⟨c, cs, htext, hc⟩ := head_of_isNumeral (N.isNumeral_text n hn)
      exact ⟨c, cs, htext, startsValue_of_numeral hc⟩
    · exact ⟨'n', _, rfl, hnull⟩
  | string s => exact ⟨'"', _, rfl, by decide, by decide, by decide⟩
  | array items => exact ⟨'[', _, by rw [stringify], by decide, by decide, by decide⟩
  | object fields => exact ⟨'{', _, by rw [stringify], by decide, by decide, by decide⟩

/-- Nothing behind a value belongs to a numeral. -/
def Ends (r : List Char) : Prop := ∀ c ∈ r.head?, isNumeralChar c = false

theorem ends_cons {c : Char} (hc : isNumeralChar c = false) (r : List Char) : Ends (c :: r) := by
  intro d hd
  obtain rfl : c = d := Option.some.inj hd
  exact hc

theorem dropWhile_space {c : Char} (hc : isJsonSpace c = false) (r : List Char) :
    (c :: r).dropWhile isJsonSpace = c :: r := List.dropWhile_cons_of_neg (by simp [hc])

theorem parseValue_quote {fuel : Nat} {s : JsString} (hfuel : (quote s).length ≤ fuel + 1) (r : List Char) :
    parseValue N (fuel + 1) (quote s ++ r) = some (.string s, r) := by
  have hlen : (quotedUnits s).length < fuel + 1 := by
    simp only [quote, List.length_cons, List.length_append, List.length_nil] at hfuel
    omega
  rw [parseValue, quote, List.cons_append, dropWhile_space (by decide)]
  simp only [if_true, List.append_assoc, List.singleton_append]
  rw [parseUnits_quotedUnits hlen]
  rfl

theorem parseValue_numeral (fuel : Nat) {t r : List Char} (ht : isNumeral t = true) (hr : Ends r) :
    parseValue N (fuel + 1) (t ++ r) = some (.number (N.ofNumeral t), r) := by
  have hchars := isNumeralChar_of_isNumeral ht
  have htake : (t ++ r).takeWhile isNumeralChar = t := by
    rw [List.takeWhile_append_of_pos hchars]
    cases r with
    | nil => simp
    | cons c r => rw [List.takeWhile_cons_of_neg (by simp [hr c rfl]), List.append_nil]
  have hdrop : (t ++ r).dropWhile isNumeralChar = r := by
    rw [List.dropWhile_append_of_pos hchars]
    cases r with
    | nil => rfl
    | cons c r => exact List.dropWhile_cons_of_neg (by simp [hr c rfl])
  obtain ⟨c, cs, rfl, hc⟩ := head_of_isNumeral ht
  have hne : ∀ d : Char, d.isDigit = false → d ≠ '-' → c ≠ d := by
    rintro d hd hminus rfl
    rcases hc with hc | hc
    · rw [hd] at hc
      cases hc
    · exact hminus hc
  rw [List.cons_append] at htake hdrop ⊢
  rw [parseValue, dropWhile_space (startsValue_of_numeral hc).1]
  simp only [if_neg (hne '"' (by decide) (by decide)), if_neg (hne '[' (by decide) (by decide)),
    if_neg (hne '{' (by decide) (by decide)), if_neg (hne 'n' (by decide) (by decide)),
    if_neg (hne 't' (by decide) (by decide)), if_neg (hne 'f' (by decide) (by decide)), htake, hdrop, if_pos ht]

/-- An array with a first element. -/
theorem parseValue_array (fuel : Nat) {c : Char} (hc : StartsValue c) (r : List Char) :
    parseValue N (fuel + 1) ('[' :: c :: r) = (parseElements N fuel (c :: r)).map fun p => (.array p.1, p.2) := by
  have hclose : (c :: r).head? ≠ some ']' := fun h => hc.2.1 (Option.some.inj h)
  rw [parseValue, dropWhile_space (by decide)]
  simp only [if_neg (show '[' ≠ '"' by decide), if_true, dropWhile_space hc.1, if_neg hclose]

/-- An object with a first member. -/
theorem parseValue_object (fuel : Nat) (r : List Char) : parseValue N (fuel + 1) ('{' :: '"' :: r) =
    (parseMembers N fuel ('"' :: r)).map fun p => (.object (fromEntries p.1), p.2) := by
  have hclose : ('"' :: r).head? ≠ some '}' := fun h => absurd (Option.some.inj h) (by decide)
  rw [parseValue, dropWhile_space (by decide)]
  simp only [if_neg (show '{' ≠ '"' by decide), if_neg (show '{' ≠ '[' by decide), if_true,
    dropWhile_space (show isJsonSpace '"' = false by decide), if_neg hclose]

theorem parseElements_more {fuel : Nat} {text r : List Char} {v : JsValue N.Num}
    (h : parseValue N fuel text = some (v, ',' :: r)) :
    parseElements N (fuel + 1) text = (parseElements N fuel r).map fun p => (v :: p.1, p.2) := by
  rw [parseElements, h]
  simp only [dropWhile_space (show isJsonSpace ',' = false by decide)]

theorem parseElements_last {fuel : Nat} {text r : List Char} {v : JsValue N.Num}
    (h : parseValue N fuel text = some (v, ']' :: r)) : parseElements N (fuel + 1) text = some ([v], r) := by
  rw [parseElements, h]
  simp only [dropWhile_space (show isJsonSpace ']' = false by decide)]

theorem parseMembers_more {fuel : Nat} {key : JsString} {text r : List Char} {v : JsValue N.Num}
    (hfuel : (quotedUnits key).length ≤ fuel) (h : parseValue N fuel text = some (v, ',' :: r)) :
    parseMembers N (fuel + 1) (quote key ++ ':' :: text) =
      (parseMembers N fuel r).map fun p => ((key, v) :: p.1, p.2) := by
  rw [parseMembers, quote, List.cons_append, dropWhile_space (by decide)]
  simp only [List.append_assoc, List.singleton_append]
  rw [parseUnits_quotedUnits (Nat.lt_succ_of_le hfuel)]
  simp only [dropWhile_space (show isJsonSpace ':' = false by decide), h,
    dropWhile_space (show isJsonSpace ',' = false by decide)]

theorem parseMembers_last {fuel : Nat} {key : JsString} {text r : List Char} {v : JsValue N.Num}
    (hfuel : (quotedUnits key).length ≤ fuel) (h : parseValue N fuel text = some (v, '}' :: r)) :
    parseMembers N (fuel + 1) (quote key ++ ':' :: text) = some ([(key, v)], r) := by
  rw [parseMembers, quote, List.cons_append, dropWhile_space (by decide)]
  simp only [List.append_assoc, List.singleton_append]
  rw [parseUnits_quotedUnits (Nat.lt_succ_of_le hfuel)]
  simp only [dropWhile_space (show isJsonSpace ':' = false by decide), h,
    dropWhile_space (show isJsonSpace '}' = false by decide)]

theorem stringifyItems_cons (v : JsValue N.Num) (items : List (JsValue N.Num)) :
    stringifyItems true (v :: items) = stringify v ++ stringifyItems false items := by
  rw [stringifyItems, if_pos rfl, List.nil_append]

theorem stringifyItems_more (v : JsValue N.Num) (items : List (JsValue N.Num)) :
    stringifyItems false (v :: items) = ',' :: stringifyItems true (v :: items) := by
  rw [stringifyItems_cons, stringifyItems, if_neg Bool.false_ne_true, List.singleton_append]

theorem stringifyFields_cons (key : JsString) (v : JsValue N.Num) (fields : List (JsString × JsValue N.Num)) :
    stringifyFields true ((key, v) :: fields) =
      quote key ++ ':' :: (stringify v ++ stringifyFields false fields) := by
  rw [stringifyFields, if_pos rfl, List.nil_append]

theorem stringifyFields_more (key : JsString) (v : JsValue N.Num) (fields : List (JsString × JsValue N.Num)) :
    stringifyFields false ((key, v) :: fields) = ',' :: stringifyFields true ((key, v) :: fields) := by
  rw [stringifyFields_cons, stringifyFields, if_neg Bool.false_ne_true, List.singleton_append]

mutual

theorem parseValue_stringify : ∀ (v : JsValue N.Num) {fuel : Nat} {r : List Char}, WellFormed v → Ends r →
    (stringify v).length ≤ fuel → parseValue N fuel (stringify v ++ r) = some (stored v, r)
  | .null, fuel, r, _, _, hfuel => by
    obtain ⟨fuel, rfl⟩ : ∃ n, fuel = n + 1 := ⟨fuel - 1, by simp only [stringify, List.length_cons] at hfuel; omega⟩
    rfl
  | .bool true, fuel, r, _, _, hfuel => by
    obtain ⟨fuel, rfl⟩ : ∃ n, fuel = n + 1 := ⟨fuel - 1, by simp only [stringify, List.length_cons] at hfuel; omega⟩
    rfl
  | .bool false, fuel, r, _, _, hfuel => by
    obtain ⟨fuel, rfl⟩ : ∃ n, fuel = n + 1 := ⟨fuel - 1, by simp only [stringify, List.length_cons] at hfuel; omega⟩
    rfl
  | .number n, fuel, r, _, hr, hfuel => by
    obtain ⟨c, cs, hhead, -⟩ := stringify_head (.number n : JsValue N.Num)
    obtain ⟨fuel, rfl⟩ : ∃ n, fuel = n + 1 := ⟨fuel - 1, by rw [hhead, List.length_cons] at hfuel; omega⟩
    rw [stringify, stored]
    by_cases hn : N.finite n = true
    · rw [if_pos hn, if_pos hn, parseValue_numeral fuel (N.isNumeral_text n hn) hr]
    · rw [if_neg hn, if_neg hn]
      rfl
  | .string s, fuel, r, _, _, hfuel => by
    rw [stringify] at hfuel ⊢
    obtain ⟨fuel, rfl⟩ : ∃ n, fuel = n + 1 := ⟨fuel - 1, by simp only [quote, List.length_cons] at hfuel; omega⟩
    rw [parseValue_quote hfuel, stored]
    all_goals exact fun _ h => by cases h
  | .array [], fuel, r, _, _, hfuel => by
    obtain ⟨fuel, rfl⟩ : ∃ n, fuel = n + 1 :=
      ⟨fuel - 1, by simp only [stringify, stringifyItems, List.length_cons] at hfuel; omega⟩
    rfl
  | .array (v :: items), fuel, r, hwell, _, hfuel => by
    obtain ⟨c, cs, hhead, hc⟩ := stringify_head v
    rw [stringify, List.length_cons] at hfuel
    obtain ⟨fuel, rfl⟩ : ∃ n, fuel = n + 1 := ⟨fuel - 1, by omega⟩
    have helements := @parseElements_stringify (v :: items) fuel r (List.cons_ne_nil _ _) hwell (by omega)
    have hcons : stringifyItems true (v :: items) ++ r = c :: (cs ++ stringifyItems false items ++ r) := by
      rw [stringifyItems_cons, hhead, List.cons_append, List.cons_append]
    rw [stringify, List.cons_append, hcons, parseValue_array fuel hc, ← hcons, helements, stored]
    rfl
  | .object [], fuel, r, _, _, hfuel => by
    obtain ⟨fuel, rfl⟩ : ∃ n, fuel = n + 1 :=
      ⟨fuel - 1, by simp only [stringify, stringifyFields, List.length_cons] at hfuel; omega⟩
    rfl
  | .object ((key, v) :: fields), fuel, r, hwell, _, hfuel => by
    rw [stringify, List.length_cons] at hfuel
    obtain ⟨fuel, rfl⟩ : ∃ n, fuel = n + 1 := ⟨fuel - 1, by omega⟩
    have hmembers := @parseMembers_stringify ((key, v) :: fields) fuel r (List.cons_ne_nil _ _) hwell.2.2 (by omega)
    have hentries : fromEntries (storedFields ((key, v) :: fields)) = storedFields ((key, v) :: fields) :=
      fromEntries_storedFields hwell.1 hwell.2.1
    have hcons : stringifyFields true ((key, v) :: fields) ++ r = '"' :: (quotedUnits key ++ ['"'] ++
        ':' :: (stringify v ++ stringifyFields false fields) ++ r) := by
      rw [stringifyFields_cons, quote, List.cons_append, List.cons_append]
    rw [stringify, List.cons_append, hcons, parseValue_object, ← hcons, hmembers, stored, Option.map_some,
      hentries]

theorem parseElements_stringify : ∀ (items : List (JsValue N.Num)) {fuel : Nat} {r : List Char}, items ≠ [] →
    WellFormedItems items → (stringifyItems true items).length ≤ fuel →
    parseElements N fuel (stringifyItems true items ++ r) = some (storedItems items, r)
  | [], _, _, hne, _, _ => absurd rfl hne
  | [v], fuel, r, _, hitems, hfuel => by
    rw [stringifyItems_cons, stringifyItems] at hfuel ⊢
    rw [List.length_append, List.length_singleton] at hfuel
    obtain ⟨fuel, rfl⟩ : ∃ n, fuel = n + 1 := ⟨fuel - 1, by omega⟩
    rw [List.append_assoc]
    exact parseElements_last (parseValue_stringify v hitems.1 (ends_cons (by decide) r) (by omega))
  | v :: w :: items, fuel, r, _, hitems, hfuel => by
    rw [stringifyItems_cons, stringifyItems_more] at hfuel ⊢
    rw [List.length_append, List.length_cons] at hfuel
    obtain ⟨fuel, rfl⟩ : ∃ n, fuel = n + 1 := ⟨fuel - 1, by omega⟩
    have hrest := @parseElements_stringify (w :: items) fuel r (List.cons_ne_nil _ _) hitems.2 (by omega)
    rw [List.append_assoc, List.cons_append, parseElements_more
      (parseValue_stringify v hitems.1 (ends_cons (by decide) _) (by omega)), hrest]
    rfl

theorem parseMembers_stringify : ∀ (fields : List (JsString × JsValue N.Num)) {fuel : Nat} {r : List Char},
    fields ≠ [] → WellFormedFields fields → (stringifyFields true fields).length ≤ fuel →
    parseMembers N fuel (stringifyFields true fields ++ r) = some (storedFields fields, r)
  | [], _, _, hne, _, _ => absurd rfl hne
  | [(key, v)], fuel, r, _, hfields, hfuel => by
    rw [stringifyFields_cons, stringifyFields] at hfuel ⊢
    simp only [quote, List.length_append, List.length_cons, List.length_nil] at hfuel
    obtain ⟨fuel, rfl⟩ : ∃ n, fuel = n + 1 := ⟨fuel - 1, by omega⟩
    rw [List.append_assoc, List.cons_append, List.append_assoc]
    exact parseMembers_last (by omega) (parseValue_stringify v hfields.1 (ends_cons (by decide) r) (by omega))
  | (key, v) :: (key', w) :: fields, fuel, r, _, hfields, hfuel => by
    rw [stringifyFields_cons, stringifyFields_more] at hfuel ⊢
    simp only [quote, List.length_append, List.length_cons, List.length_nil] at hfuel
    obtain ⟨fuel, rfl⟩ : ∃ n, fuel = n + 1 := ⟨fuel - 1, by omega⟩
    have hrest := @parseMembers_stringify ((key', w) :: fields) fuel r (List.cons_ne_nil _ _) hfields.2 (by omega)
    rw [List.append_assoc, List.cons_append, List.append_assoc, List.cons_append, parseMembers_more (by omega)
      (parseValue_stringify v hfields.1 (ends_cons (by decide) _) (by omega)), hrest]
    rfl

end

/-- **What is written is read back**, also with white space behind it. -/
theorem parse_stringify {v : JsValue N.Num} (h : WellFormed v) {r : List Char} (hr : ∀ c ∈ r, isJsonSpace c = true) :
    parse N (stringify v ++ r) = some (stored v) := by
  have hends : Ends r := by
    intro c hc
    have hspace := hr c (List.mem_of_mem_head? hc)
    by_contra hnum
    rw [Bool.not_eq_false] at hnum
    simp only [isJsonSpace, Bool.or_eq_true, beq_iff_eq] at hspace
    rcases hspace with ((rfl | rfl) | rfl) | rfl <;> exact absurd hnum (by decide)
  rw [parse, parseValue_stringify v h hends (by rw [List.length_append]; omega)]
  exact if_pos (List.all_eq_true.mpr hr)

end Texts

end RallyPoint.Lib.JsData
