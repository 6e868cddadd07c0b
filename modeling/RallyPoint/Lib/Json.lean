/-
# RallyPoint.Lib.Json — JSON values, their compact text, and why the text determines the value.

Objects list their members; `Json.ordered` says that every object lists them in strictly increasing key order,
so ordered values are equal exactly when they are the same JSON value. The compact text is a prefix code:
behind a delimiter or the end, a value's text can be read back in one way only (`render_append_inj`), by the
structure of the value, with one character deciding its kind.

A floating point number is given by its shortest text, which holds a dot or an exponent.
-/
import RallyPoint.Lib.Str
import Mathlib.Data.List.Sort

namespace RallyPoint.Lib

def isNumberChar (c : Char) : Bool := c.isDigit || c == '-' || c == '+' || c == '.' || c == 'e'

structure FloatText where
  text : String
  chars : text.toList.all isNumberChar = true
  marked : (text.toList.any fun c => c == '.' || c == 'e') = true
  deriving DecidableEq, Repr

theorem FloatText.ext_text {x y : FloatText} (h : x.text = y.text) : x = y := by
  cases x
  cases y
  simpa using h

inductive Json
  | null
  | bool (b : Bool)
  | int (n : Int)
  | float (x : FloatText)
  | string (s : String)
  | array (items : List Json)
  | object (fields : List (String × Json))

/-! ## Text -/

/-- Quotes, backslashes and control characters are escaped, everything else is written as it is. -/
def escapeChar (c : Char) : List Char :=
  if c = '"' then ['\\', '"']
  else if c = '\\' then ['\\', '\\']
  else if c.toNat < 0x20 then
    match c.toNat with
    | 8 => ['\\', 'b']
    | 9 => ['\\', 't']
    | 10 => ['\\', 'n']
    | 12 => ['\\', 'f']
    | 13 => ['\\', 'r']
    | n => ['\\', 'u', '0', '0', Nat.digitChar (n / 16), Nat.digitChar (n % 16)]
  else [c]

def renderString (s : String) : List Char := '"' :: (s.toList.flatMap escapeChar ++ ['"'])

def intText (n : Int) : List Char :=
  if n < 0 then '-' :: Nat.toDigits 10 n.natAbs else Nat.toDigits 10 n.natAbs

mutual

def Json.render : Json → List Char
  | .null => ['n', 'u', 'l', 'l']
  | .bool true => ['t', 'r', 'u', 'e']
  | .bool false => ['f', 'a', 'l', 's', 'e']
  | .int n => intText n
  | .float x => x.text.toList
  | .string s => renderString s
  | .array items => '[' :: renderItems true items
  | .object fields => '{' :: renderFields true fields

def renderItems (first : Bool) : List Json → List Char
  | [] => [']']
  | v :: rest => (if first then [] else [',']) ++ (v.render ++ renderItems false rest)

def renderFields (first : Bool) : List (String × Json) → List Char
  | [] => ['}']
  | (key, v) :: rest =>
    (if first then [] else [',']) ++ (renderString key ++ ':' :: (v.render ++ renderFields false rest))

end

mutual

/-- Every object lists its members in increasing key order, each key once. -/
def Json.ordered : Json → Bool
  | .array items => orderedItems items
  | .object fields => orderedFields none fields
  | _ => true

def orderedItems : List Json → Bool
  | [] => true
  | v :: rest => v.ordered && orderedItems rest

def orderedFields (last : Option String) : List (String × Json) → Bool
  | [] => true
  | (key, v) :: rest => last.all (decide <| · < key) && v.ordered && orderedFields (some key) rest

end

namespace Json

/-- `Value::as_str`. -/
def asStr : Json → Option String
  | .string s => some s
  | _ => none

/-- `Value::as_i64`. -/
def asI64 : Json → Option Int
  | .int n => if -i64Bound ≤ n ∧ n < i64Bound then some n else none
  | _ => none

/-- `Value::as_object`. -/
def asObject : Json → Option (List (String × Json))
  | .object fields => some fields
  | _ => none

theorem asStr_eq_some {v : Json} {s : String} : v.asStr = some s ↔ v = .string s := by
  cases v <;> simp [asStr]

theorem asObject_eq_some {v : Json} {fields : List (String × Json)} :
    v.asObject = some fields ↔ v = .object fields := by
  cases v <;> simp [asObject]

end Json

/-- `Map::get`. -/
def getField (fields : List (String × Json)) (key : String) : Option Json :=
  (fields.find? (·.1 == key)).map (·.2)

/-- A JSON value: objects without an order of their own are lists in key order. -/
abbrev JsonValue := { v : Json // v.ordered = true }

/-! ## Ordered members -/

theorem orderedFields_pairwise {fields : List (String × Json)} {last : Option String}
    (h : orderedFields last fields = true) :
    (∀ f ∈ fields, ∀ key ∈ last, key < f.1) ∧ fields.Pairwise fun f g => f.1 < g.1 := by
  induction fields generalizing last with
  | nil => simp
  | cons f rest ih =>
    obtain ⟨key, v⟩ := f
    simp only [orderedFields, Bool.and_eq_true] at h
    obtain ⟨hbehind, hrest⟩ := ih h.2
    have hlast : ∀ k ∈ last, k < key := by
      rintro k rfl
      simpa using h.1.1
    refine ⟨fun f hf k hk => ?_, List.pairwise_cons.mpr ⟨fun f hf => hbehind f hf key rfl, hrest⟩⟩
    obtain rfl | hf := List.mem_cons.mp hf
    · exact hlast k hk
    · exact (hlast k hk).trans (hbehind f hf key rfl)

/-- In an ordered object a member is what its key gives. -/
theorem getField_eq_some_iff {fields : List (String × Json)} {key : String} {v : Json}
    (h : fields.Pairwise fun f g => f.1 < g.1) : getField fields key = some v ↔ (key, v) ∈ fields := by
  simp only [getField, Option.map_eq_some_iff]
  constructor
  · rintro ⟨⟨key', v'⟩, hfind, rfl⟩
    obtain rfl : key' = key := by simpa using List.find?_some hfind
    exact List.mem_of_find?_eq_some hfind
  · intro hmem
    induction fields with
    | nil => cases hmem
    | cons f rest ih =>
      rw [List.pairwise_cons] at h
      obtain rfl | hmem := List.mem_cons.mp hmem
      · exact ⟨(key, v), by simp, rfl⟩
      · have hne : (f.1 == key) = false := by simpa using (h.1 _ hmem).ne
        simpa [List.find?_cons, hne] using ih h.2 hmem

/-- Ordered members are determined by all but one key and the value at that key. -/
theorem eq_of_filter_eq {fields fields' : List (String × Json)} {key : String} {v : Option Json}
    (h : fields.Pairwise fun f g => f.1 < g.1) (h' : fields'.Pairwise fun f g => f.1 < g.1)
    (hrest : fields.filter (·.1 ≠ key) = fields'.filter (·.1 ≠ key)) (hv : getField fields key = v)
    (hv' : getField fields' key = v) : fields = fields' := by
  have hmem : ∀ f : String × Json, f ∈ fields ↔ f ∈ fields' := by
    intro f
    by_cases hkey : f.1 = key
    · obtain ⟨k, w⟩ := f
      subst hkey
      rw [← getField_eq_some_iff h, ← getField_eq_some_iff h', hv, hv']
    · have hone : ∀ l : List (String × Json), f ∈ l ↔ f ∈ l.filter (·.1 ≠ key) := by simp [hkey]
      rw [hone fields, hrest, ← hone]
  have hanti : Std.Antisymm fun f g : String × Json => f.1 < g.1 := ⟨fun _ _ hlt hlt' => absurd hlt hlt'.asymm⟩
  have hirrefl : Std.Irrefl fun f g : String × Json => f.1 < g.1 := ⟨fun _ => lt_irrefl _⟩
  exact h.eq_of_mem_iff h' hmem

/-! ## Strings -/

/-- The characters written as an escape. -/
def escaped : List Char := '"' :: '\\' :: (List.range 32).map Char.ofNat

theorem escapeChar_of_notMem {c : Char} (h : c ∉ escaped) : escapeChar c = [c] := by
  have hctl : ¬c.toNat < 0x20 := by
    intro hlt
    refine h (List.mem_cons_of_mem _ (List.mem_cons_of_mem _ (List.mem_map.mpr ⟨c.toNat, ?_, c.ofNat_toNat⟩)))
    exact List.mem_range.mpr hlt
  simp only [escaped, List.mem_cons, not_or] at h
  rw [escapeChar, if_neg h.1, if_neg h.2.1, if_neg hctl]

/-- No escape begins another. -/
theorem escaped_prefix_free : ∀ c ∈ escaped, ∀ c' ∈ escaped, escapeChar c <+: escapeChar c' → c = c' := by
  have hall : (escaped.all fun c => escaped.all fun c' =>
      !(escapeChar c).isPrefixOf (escapeChar c') || c == c') = true := by decide
  intro c hc c' hc' hpre
  have hpair := List.all_eq_true.mp (List.all_eq_true.mp hall c hc) c' hc'
  rw [List.isPrefixOf_iff_prefix.mpr hpre] at hpair
  simpa using hpair

theorem escaped_head : ∀ c ∈ escaped, (escapeChar c).head? = some '\\' := by
  have hall : (escaped.all fun c => (escapeChar c).head? == some '\\') = true := by decide
  intro c hc
  simpa using List.all_eq_true.mp hall c hc

theorem escapeChar_append_inj {c c' : Char} {r r' : List Char}
    (h : escapeChar c ++ r = escapeChar c' ++ r') : c = c' ∧ r = r' := by
  have hsame : c = c' → c = c' ∧ r = r' := by
    rintro rfl
    exact ⟨rfl, List.append_cancel_left h⟩
  -- an escape begins with a backslash, and a plain character is not one
  have hmixed : ∀ {x y : Char} {s t : List Char}, x ∈ escaped → y ∉ escaped →
      escapeChar x ++ s ≠ escapeChar y ++ t := by
    intro x y s t hx hy heq
    have hhead := congrArg List.head? heq
    rw [escapeChar_of_notMem hy, List.head?_append, escaped_head x hx] at hhead
    obtain rfl : '\\' = y := by simpa using hhead
    exact hy (by decide)
  by_cases hc : c ∈ escaped <;> by_cases hc' : c' ∈ escaped
  · obtain hpre | hpre := List.prefix_or_prefix_of_prefix (List.prefix_append _ r) (h ▸ List.prefix_append _ r')
    · exact hsame (escaped_prefix_free c hc c' hc' hpre)
    · exact hsame (escaped_prefix_free c' hc' c hc hpre).symm
  · exact absurd h (hmixed hc hc')
  · exact absurd h.symm (hmixed hc' hc)
  · rw [escapeChar_of_notMem hc, escapeChar_of_notMem hc'] at h
    exact List.cons.inj h

theorem escapeChar_ne_quote {c : Char} {r r' : List Char} : escapeChar c ++ r ≠ '"' :: r' := by
  intro h
  have hhead := congrArg List.head? h
  by_cases hc : c ∈ escaped
  · rw [List.head?_append, escaped_head c hc] at hhead
    simp at hhead
  · rw [escapeChar_of_notMem hc] at hhead
    obtain rfl : c = '"' := by simpa using hhead
    exact hc (by decide)

theorem flatMap_escapeChar_inj {s s' r r' : List Char}
    (h : s.flatMap escapeChar ++ '"' :: r = s'.flatMap escapeChar ++ '"' :: r') : s = s' ∧ r = r' := by
  induction s generalizing s' with
  | nil =>
    cases s' with
    | nil => exact ⟨rfl, (List.cons.inj h).2⟩
    | cons c' rest' =>
      rw [List.flatMap_cons, List.append_assoc] at h
      exact absurd h.symm escapeChar_ne_quote
  | cons c rest ih =>
    cases s' with
    | nil =>
      rw [List.flatMap_cons, List.append_assoc] at h
      exact absurd h escapeChar_ne_quote
    | cons c' rest' =>
      rw [List.flatMap_cons, List.flatMap_cons, List.append_assoc, List.append_assoc] at h
      obtain ⟨rfl, hrest⟩ := escapeChar_append_inj h
      obtain ⟨rfl, hr⟩ := ih hrest
      exact ⟨rfl, hr⟩

theorem renderString_append_inj {s s' : String} {r r' : List Char}
    (h : renderString s ++ r = renderString s' ++ r') : s = s' ∧ r = r' := by
  simp only [renderString, List.cons_append, List.append_assoc, List.nil_append, List.cons.injEq, true_and] at h
  obtain ⟨hs, hr⟩ := flatMap_escapeChar_inj h
  exact ⟨String.toList_injective hs, hr⟩

/-! ## Numbers -/

/-- The rest of a text behind a value: the end, or a delimiter. -/
def Stops (r : List Char) : Prop := ∀ c ∈ r.head?, c = ',' ∨ c = ']' ∨ c = '}'

theorem isNumberChar_of_digit {c : Char} (h : c.isDigit = true) : isNumberChar c = true := by
  simp [isNumberChar, h]

theorem intText_chars {n : Int} : ∀ c ∈ intText n, isNumberChar c = true := by
  have hdigits : ∀ c ∈ Nat.toDigits 10 n.natAbs, isNumberChar c = true := fun c hc =>
    isNumberChar_of_digit (Nat.isDigit_of_mem_toDigits (by decide) (by decide) hc)
  rw [intText]
  split
  · intro c hc
    obtain rfl | hc := List.mem_cons.mp hc
    · decide
    · exact hdigits c hc
  · exact hdigits

theorem toDigits_inj {n m : Nat} (h : Nat.toDigits 10 n = Nat.toDigits 10 m) : n = m := by
  rw [← Nat.ofDigitChars_ten_toDigits (n := n), h, Nat.ofDigitChars_ten_toDigits]

theorem toDigits_ne_minus {n : Nat} {r : List Char} : Nat.toDigits 10 n ≠ '-' :: r := by
  intro h
  have := Nat.isDigit_of_mem_toDigits (by decide) (by decide) (h ▸ List.mem_cons_self : '-' ∈ Nat.toDigits 10 n)
  exact absurd this (by decide)

theorem intText_inj {n m : Int} (h : intText n = intText m) : n = m := by
  simp only [intText] at h
  split at h <;> split at h
  · have := toDigits_inj (List.cons.inj h).2
    omega
  · exact absurd h.symm toDigits_ne_minus
  · exact absurd h toDigits_ne_minus
  · have := toDigits_inj h
    omega

/-- An integer's text has no dot and no exponent. -/
theorem intText_ne_float {n : Int} {x : FloatText} : intText n ≠ x.text.toList := by
  intro h
  obtain ⟨c, hc, hmark⟩ := List.any_eq_true.mp x.marked
  rw [← h] at hc
  have hdigit : c ∈ Nat.toDigits 10 n.natAbs → False := by
    intro hc
    have := Nat.isDigit_of_mem_toDigits (by decide) (by decide) hc
    obtain rfl | rfl : c = '.' ∨ c = 'e' := by simpa using hmark
    · exact absurd this (by decide)
    · exact absurd this (by decide)
  rw [intText] at hc
  split at hc
  · obtain rfl | hc := List.mem_cons.mp hc
    · exact absurd hmark (by decide)
    · exact hdigit hc
  · exact hdigit hc

/-- The text of a number ends at the delimiter. -/
theorem number_append_inj {t t' r r' : List Char} (ht : ∀ c ∈ t, isNumberChar c = true)
    (ht' : ∀ c ∈ t', isNumberChar c = true) (hr : Stops r) (hr' : Stops r') (h : t ++ r = t' ++ r') :
    t = t' ∧ r = r' := by
  have htake : ∀ {u s : List Char}, (∀ c ∈ u, isNumberChar c = true) → Stops s →
      (u ++ s).takeWhile isNumberChar = u := by
    intro u s hu hs
    rw [List.takeWhile_append_of_pos hu]
    cases s with
    | nil => simp
    | cons c rest =>
      obtain rfl | rfl | rfl := hs c rfl
      all_goals rw [List.takeWhile_cons_of_neg (by decide), List.append_nil]
  have heq : t = t' := by rw [← htake ht hr, h, htake ht' hr']
  exact ⟨heq, List.append_cancel_left (heq ▸ h)⟩

/-! ## Values -/

/-- The kind of a value, which one character of its text shows. -/
inductive Kind
  | null
  | bool
  | number
  | string
  | array
  | object
  deriving DecidableEq

namespace Json

def kind : Json → Kind
  | .null => .null
  | .bool _ => .bool
  | .int _ | .float _ => .number
  | .string _ => .string
  | .array _ => .array
  | .object _ => .object

def kindOfChar (c : Char) : Option Kind :=
  if isNumberChar c then some .number
  else match c with
    | 'n' => some .null
    | 't' | 'f' => some .bool
    | '"' => some .string
    | '[' => some .array
    | '{' => some .object
    | _ => none

theorem number_head {t : List Char} (hne : t ≠ []) (ht : ∀ c ∈ t, isNumberChar c = true) :
    t.head?.bind kindOfChar = some .number := by
  cases t with
  | nil => exact absurd rfl hne
  | cons c rest => exact if_pos (ht c List.mem_cons_self)

theorem intText_ne_nil {n : Int} : intText n ≠ [] := by
  rw [intText]
  split
  · simp
  · exact Nat.toDigits_ne_nil

theorem float_ne_nil {x : FloatText} : x.text.toList ≠ [] := by
  intro h
  have := x.marked
  simp [h] at this

theorem render_head (v : Json) : v.render.head?.bind kindOfChar = some v.kind := by
  cases v with
  | null => rfl
  | bool b => cases b <;> rfl
  | int n =>
    rw [render]
    exact number_head intText_ne_nil intText_chars
  | float x =>
    rw [render]
    exact number_head float_ne_nil (List.all_eq_true.mp x.chars)
  | string s => rfl
  | array items => rw [render]; rfl
  | object fields => rw [render]; rfl

theorem render_append_head (v : Json) (r : List Char) : (v.render ++ r).head?.bind kindOfChar = some v.kind := by
  rw [← render_head v]
  cases h : v.render with
  | nil => simpa [h] using render_head v
  | cons c rest => rfl

theorem kind_eq_of_append {v v' : Json} {r r' : List Char} (h : v.render ++ r = v'.render ++ r') :
    v.kind = v'.kind := by
  rw [← Option.some_inj, ← render_append_head v r, h, render_append_head]

theorem render_append_ne {v : Json} {c : Char} {r r' : List Char} (hc : kindOfChar c = none) :
    v.render ++ r ≠ c :: r' := by
  intro h
  have := render_append_head v r
  rw [h] at this
  exact absurd (hc.symm.trans this) (by simp)

end Json

theorem stops_renderItems (l : List Json) (r : List Char) : Stops (renderItems false l ++ r) := by
  cases l with
  | nil => simp [renderItems, Stops]
  | cons v rest => simp [renderItems, Stops]

theorem stops_renderFields (l : List (String × Json)) (r : List Char) : Stops (renderFields false l ++ r) := by
  cases l with
  | nil => simp [renderFields, Stops]
  | cons v rest => simp [renderFields, Stops]

mutual

/-- **The text of a value determines it**, and where it ends. -/
theorem Json.render_append_inj : ∀ (v v' : Json) {r r' : List Char}, Stops r → Stops r' →
    v.render ++ r = v'.render ++ r' → v = v' ∧ r = r'
  | .null, v', r, r', _, _, h => by
    have hkind := Json.kind_eq_of_append h
    cases v' with
    | null => exact ⟨rfl, List.append_cancel_left h⟩
    | _ => cases hkind
  | .bool b, v', r, r', _, _, h => by
    have hkind := Json.kind_eq_of_append h
    cases v' with
    | bool b' =>
      cases b with
      | true =>
        cases b' with
        | true => exact ⟨rfl, List.append_cancel_left h⟩
        | false => simp [Json.render] at h
      | false =>
        cases b' with
        | true => simp [Json.render] at h
        | false => exact ⟨rfl, List.append_cancel_left h⟩
    | _ => cases hkind
  | .int n, v', r, r', hr, hr', h => by
    have hkind := Json.kind_eq_of_append h
    cases v' with
    | int n' =>
      rw [Json.render, Json.render] at h
      obtain ⟨ht, hr⟩ := number_append_inj intText_chars intText_chars hr hr' h
      exact ⟨congrArg Json.int (intText_inj ht), hr⟩
    | float x =>
      rw [Json.render, Json.render] at h
      exact absurd (number_append_inj intText_chars (List.all_eq_true.mp x.chars) hr hr' h).1 intText_ne_float
    | _ => cases hkind
  | .float x, v', r, r', hr, hr', h => by
    have hkind := Json.kind_eq_of_append h
    cases v' with
    | int n =>
      rw [Json.render, Json.render] at h
      exact absurd (number_append_inj (List.all_eq_true.mp x.chars) intText_chars hr hr' h).1.symm intText_ne_float
    | float x' =>
      rw [Json.render, Json.render] at h
      obtain ⟨ht, hr⟩ := number_append_inj (List.all_eq_true.mp x.chars) (List.all_eq_true.mp x'.chars) hr hr' h
      exact ⟨congrArg Json.float (FloatText.ext_text (String.toList_injective ht)), hr⟩
    | _ => cases hkind
  | .string s, v', r, r', _, _, h => by
    have hkind := Json.kind_eq_of_append h
    cases v' with
    | string s' =>
      rw [Json.render, Json.render] at h
      obtain ⟨rfl, hr⟩ := renderString_append_inj h
      exact ⟨rfl, hr⟩
    | _ => cases hkind
  | .array items, v', r, r', _, _, h => by
    have hkind := Json.kind_eq_of_append h
    cases v' with
    | array items' =>
      rw [Json.render, Json.render] at h
      obtain ⟨rfl, hr⟩ := renderItems_append_inj true items items' (List.cons.inj h).2
      exact ⟨rfl, hr⟩
    | _ => cases hkind
  | .object fields, v', r, r', _, _, h => by
    have hkind := Json.kind_eq_of_append h
    cases v' with
    | object fields' =>
      rw [Json.render, Json.render] at h
      obtain ⟨rfl, hr⟩ := renderFields_append_inj true fields fields' (List.cons.inj h).2
      exact ⟨rfl, hr⟩
    | _ => cases hkind

theorem renderItems_append_inj (first : Bool) : ∀ (l l' : List Json) {r r' : List Char},
    renderItems first l ++ r = renderItems first l' ++ r' → l = l' ∧ r = r'
  | [], [], r, r', h => ⟨rfl, (List.cons.inj h).2⟩
  | [], v :: rest, r, r', h => by
    cases first with
    | true =>
      simp only [renderItems, if_true, List.nil_append, List.append_assoc] at h
      exact absurd h.symm (Json.render_append_ne (by decide))
    | false => simp [renderItems] at h
  | v :: rest, [], r, r', h => by
    cases first with
    | true =>
      simp only [renderItems, if_true, List.nil_append, List.append_assoc] at h
      exact absurd h (Json.render_append_ne (by decide))
    | false => simp [renderItems] at h
  | v :: rest, v' :: rest', r, r', h => by
    simp only [renderItems, List.append_assoc, List.append_cancel_left_eq] at h
    obtain ⟨rfl, hrest⟩ := Json.render_append_inj v v' (stops_renderItems rest r) (stops_renderItems rest' r') h
    obtain ⟨rfl, hr⟩ := renderItems_append_inj false rest rest' hrest
    exact ⟨rfl, hr⟩

theorem renderFields_append_inj (first : Bool) : ∀ (l l' : List (String × Json)) {r r' : List Char},
    renderFields first l ++ r = renderFields first l' ++ r' → l = l' ∧ r = r'
  | [], [], r, r', h => ⟨rfl, (List.cons.inj h).2⟩
  | [], (key, v) :: rest, r, r', h => by
    cases first <;> simp [renderFields, renderString] at h
  | (key, v) :: rest, [], r, r', h => by
    cases first <;> simp [renderFields, renderString] at h
  | (key, v) :: rest, (key', v') :: rest', r, r', h => by
    simp only [renderFields, List.append_assoc, List.cons_append, List.append_cancel_left_eq] at h
    obtain ⟨rfl, hvalue⟩ := renderString_append_inj h
    obtain ⟨rfl, hrest⟩ := Json.render_append_inj v v' (stops_renderFields rest r) (stops_renderFields rest' r')
      (List.cons.inj hvalue).2
    obtain ⟨rfl, hr⟩ := renderFields_append_inj false rest rest' hrest
    exact ⟨rfl, hr⟩

end

/-- Different values have different texts. -/
theorem Json.render_injective {v v' : Json} (h : v.render = v'.render) : v = v' := by
  have hnil : Stops [] := by simp [Stops]
  have happ : v.render ++ [] = v'.render ++ [] := by rw [h]
  exact (Json.render_append_inj v v' hnil hnil happ).1

end RallyPoint.Lib
