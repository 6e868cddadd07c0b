/-
# RallyPoint.Lib.JsonText — the grammar of JSON texts.

`ReadsValue t v`: the text `t` is a JSON value that reads as `v`. The grammar is the usual one, white space, escapes
and repeated keys included: a string is a sequence of items, each a character as it stands or an escape, and of the
members with one key the last one counts. Which number a numeral denotes is left open.
-/
import RallyPoint.Lib.Json

namespace RallyPoint.Lib

/-! ## Strings -/

/-- One item between the quotes. -/
inductive StrItem
  | plain (c : Char)
  | simple (c : Char)
  | unicode (a b c d : Char)
  deriving DecidableEq

def hexValue (c : Char) : Nat :=
  if c.isDigit then c.toNat - 48 else if 'a' ≤ c then c.toNat - 87 else c.toNat - 55

def isHexDigit (c : Char) : Bool := c.isDigit || (decide ('a' ≤ c) && decide (c ≤ 'f')) ||
  (decide ('A' ≤ c) && decide (c ≤ 'F'))

/-- The characters with an escape of one letter, and what they stand for. -/
def simpleEscapes : List (Char × Char) :=
  [('"', '"'), ('\\', '\\'), ('/', '/'), ('b', '\x08'), ('f', '\x0c'), ('n', '\n'), ('r', '\r'), ('t', '\t')]

namespace StrItem

def text : StrItem → List Char
  | plain c => [c]
  | simple c => ['\\', c]
  | unicode a b c d => ['\\', 'u', a, b, c, d]

def valid : StrItem → Bool
  | plain c => c != '"' && c != '\\' && decide (0x20 ≤ c.toNat)
  | simple c => simpleEscapes.any (·.1 == c)
  | unicode a b c d => [a, b, c, d].all isHexDigit

def unit : StrItem → Nat
  | unicode a b c d => ((hexValue a * 16 + hexValue b) * 16 + hexValue c) * 16 + hexValue d
  | _ => 0

end StrItem

/-- What the items spell; nothing where half of a surrogate pair stands alone. -/
def decode : List StrItem → Option (List Char)
  | [] => some []
  | .plain c :: items => (decode items).map (c :: ·)
  | .simple c :: items => (decode items).map (((simpleEscapes.find? (·.1 == c)).map (·.2)).getD c :: ·)
  | .unicode a b c d :: .unicode e f g h :: items =>
    let high := (StrItem.unicode a b c d).unit
    let low := (StrItem.unicode e f g h).unit
    if 0xD800 ≤ high ∧ high < 0xDC00 then
      if 0xDC00 ≤ low ∧ low < 0xE000 then
        (decode items).map (Char.ofNat (0x10000 + (high - 0xD800) * 0x400 + (low - 0xDC00)) :: ·)
      else none
    else if 0xDC00 ≤ high ∧ high < 0xE000 then none
    else (decode (.unicode e f g h :: items)).map (Char.ofNat high :: ·)
  | .unicode a b c d :: items =>
    let unit := (StrItem.unicode a b c d).unit
    if 0xD800 ≤ unit ∧ unit < 0xE000 then none else (decode items).map (Char.ofNat unit :: ·)

/-- The items between their quotes. -/
def literal (items : List StrItem) : List Char := '"' :: (items.flatMap StrItem.text ++ ['"'])

/-- A text spelled without escapes. -/
def spelled (s : List Char) : List StrItem := s.map .plain

theorem decode_spelled (s : List Char) : decode (spelled s) = some s := by
  induction s with
  | nil => rfl
  | cons c s ih =>
    rw [spelled, List.map_cons, decode]
    exact congrArg (Option.map (c :: ·)) ih

theorem text_spelled (s : List Char) : (spelled s).flatMap StrItem.text = s := by
  induction s with
  | nil => rfl
  | cons c s ih =>
    rw [spelled, List.map_cons, List.flatMap_cons]
    exact congrArg (c :: ·) ih

theorem literal_spelled (s : List Char) : literal (spelled s) = '"' :: (s ++ ['"']) := by
  rw [literal, text_spelled]

/-- Items whose text begins with plain characters and the quote behind them spell just these. -/
theorem eq_spelled_of_text {items : List StrItem} {s r r' : List Char} (hvalid : ∀ item ∈ items, item.valid = true)
    (hs : ∀ c ∈ s, c ≠ '"' ∧ c ≠ '\\') (h : items.flatMap StrItem.text ++ '"' :: r = s ++ '"' :: r') :
    items = spelled s := by
  induction items generalizing s with
  | nil =>
    cases s with
    | nil => rfl
    | cons c s => exact absurd (List.cons.inj h).1.symm (hs c List.mem_cons_self).1
  | cons item items ih =>
    rw [List.forall_mem_cons] at hvalid
    rw [List.flatMap_cons, List.append_assoc] at h
    cases s with
    | nil =>
      -- no item begins with a quote
      cases item with
      | plain c =>
        obtain rfl : c = '"' := (List.cons.inj h).1
        simp [StrItem.valid] at hvalid
      | simple c => exact absurd (List.cons.inj h).1 (by decide)
      | unicode a b c d => exact absurd (List.cons.inj h).1 (by decide)
    | cons x s =>
      rw [List.forall_mem_cons] at hs
      cases item with
      | plain c =>
        obtain ⟨rfl, htail⟩ := List.cons.inj h
        rw [spelled, List.map_cons]
        exact congrArg (StrItem.plain c :: ·) (ih hvalid.2 hs.2 htail)
      | simple c => exact absurd (List.cons.inj h).1.symm hs.1.2
      | unicode a b c d => exact absurd (List.cons.inj h).1.symm hs.1.2

/-! ## Numerals -/

def isExponent : List Char → Bool
  | [] => true
  | e :: sign :: digits =>
    (e == 'e' || e == 'E') &&
      if sign == '+' || sign == '-' then digits != [] && digits.all Char.isDigit
      else (sign :: digits).all Char.isDigit
  | _ => false

def isNumeral (t : List Char) : Bool :=
  let t := if t.head? = some '-' then t.tail else t
  let whole := t.takeWhile Char.isDigit
  let rest := t.dropWhile Char.isDigit
  whole != [] && (whole == ['0'] || whole.head? != some '0') &&
    if rest.head? = some '.' then
      rest.tail.takeWhile Char.isDigit != [] && isExponent (rest.tail.dropWhile Char.isDigit)
    else isExponent rest

/-! ## Values -/

def isJsonSpace (c : Char) : Bool := c == ' ' || c == '\t' || c == '\n' || c == '\r'

def Blank (ws : List Char) : Prop := ∀ c ∈ ws, isJsonSpace c = true

/-- The keys as they are spelled, with their values, in the order of the text. -/
abbrev Members := List (List StrItem × Json)

/-- The member a reader keeps: the last one whose key spells the name. -/
def lastMember (members : Members) (key : String) : Option (List StrItem × Json) :=
  (members.filter fun m => decode m.1 == some key.toList).getLast?

theorem exists_of_forall₂ {α β : Type} {P : α → β → Prop} {as : List α} {bs : List β} (h : List.Forall₂ P as bs) :
    ∀ a ∈ as, ∃ b ∈ bs, P a b := by
  induction h with
  | nil => exact fun a ha => absurd ha List.not_mem_nil
  | @cons a b as bs hab _ ih =>
    intro a' ha'
    rcases List.mem_cons.mp ha' with rfl | ha'
    · exact ⟨b, List.mem_cons_self, hab⟩
    · obtain ⟨b', hb', hab'⟩ := ih a' ha'
      exact ⟨b', List.mem_cons_of_mem b hb', hab'⟩

/-- Where no two keys spell one name, every member is found under its name. -/
theorem getField_of_decoded {members : Members} {fields : List (String × Json)}
    (h : List.Forall₂ (fun m f => decode m.1 = some f.1.toList ∧ m.2 = f.2) members fields)
    (hnodup : (fields.map (·.1)).Nodup) (key : String) :
    getField fields key = (lastMember members key).map (·.2) := by
  have hkey : ∀ {m : List StrItem × Json} {f : String × Json}, decode m.1 = some f.1.toList →
      (decode m.1 == some key.toList) = (f.1 == key) := by
    intro m f hm
    rw [hm, Bool.eq_iff_iff, beq_iff_eq, beq_iff_eq, Option.some.injEq, String.toList_inj]
  induction h with
  | nil => rfl
  | @cons m f members fields hm hrest ih =>
    rw [List.map_cons, List.nodup_cons] at hnodup
    rw [getField, List.find?_cons, lastMember, List.filter_cons, hkey hm.1]
    by_cases hf : f.1 = key
    · have hnone : members.filter (fun m => decode m.1 == some key.toList) = [] := by
        rw [List.filter_eq_nil_iff]
        intro m' hm'
        obtain ⟨f', hf', hdecode, -⟩ := exists_of_forall₂ hrest m' hm'
        rw [hkey hdecode, beq_iff_eq]
        rintro rfl
        exact hnodup.1 (hf ▸ List.mem_map_of_mem hf')
      simp [hf, hnone, hm.2]
    · rw [beq_eq_false_iff_ne.mpr hf]
      exact ih hnodup.2

section Grammar

variable (R : List Char → Json → Prop)

/-- The elements of an array and the closing bracket; `first` when none stands before. -/
inductive ReadsElements : Bool → List Char → List Json → Prop
  | close {first : Bool} {ws : List Char} (hws : Blank ws) : ReadsElements first (ws ++ [']']) []
  | first {ws t rest : List Char} {v : Json} {items : List Json} (hws : Blank ws) (hv : R t v)
      (hrest : ReadsElements false rest items) : ReadsElements true (ws ++ t ++ rest) (v :: items)
  | more {ws ws' t rest : List Char} {v : Json} {items : List Json} (hws : Blank ws) (hws' : Blank ws')
      (hv : R t v) (hrest : ReadsElements false rest items) :
      ReadsElements false (ws ++ ',' :: (ws' ++ t ++ rest)) (v :: items)

/-- A member: its key, a colon and its value. -/
inductive ReadsMember : List Char → List StrItem × Json → Prop
  | mk {ws ws₁ ws₂ t : List Char} {key : List StrItem} {v : Json} (hws : Blank ws) (hws₁ : Blank ws₁)
      (hws₂ : Blank ws₂) (hkey : ∀ item ∈ key, item.valid = true) (hname : (decode key).isSome = true)
      (hv : R t v) : ReadsMember (ws ++ literal key ++ (ws₁ ++ ':' :: (ws₂ ++ t))) (key, v)

/-- The members of an object and the closing brace; `first` when none stands before. -/
inductive ReadsMembers : Bool → List Char → Members → Prop
  | close {first : Bool} {ws : List Char} (hws : Blank ws) : ReadsMembers first (ws ++ ['}']) []
  | first {t rest : List Char} {m : List StrItem × Json} {ms : Members} (hm : ReadsMember R t m)
      (hrest : ReadsMembers false rest ms) : ReadsMembers true (t ++ rest) (m :: ms)
  | more {ws t rest : List Char} {m : List StrItem × Json} {ms : Members} (hws : Blank ws)
      (hm : ReadsMember R t m) (hrest : ReadsMembers false rest ms) :
      ReadsMembers false (ws ++ ',' :: (t ++ rest)) (m :: ms)

end Grammar

/-- The text is a value. -/
inductive ReadsValue : List Char → Json → Prop
  | null : ReadsValue ['n', 'u', 'l', 'l'] .null
  | true : ReadsValue ['t', 'r', 'u', 'e'] (.bool true)
  | false : ReadsValue ['f', 'a', 'l', 's', 'e'] (.bool false)
  | int {t : List Char} (n : Int) (ht : isNumeral t = Bool.true) : ReadsValue t (.int n)
  | float {t : List Char} (x : FloatText) (ht : isNumeral t = Bool.true) : ReadsValue t (.float x)
  | string {items : List StrItem} {s : String} (hitems : ∀ item ∈ items, item.valid = Bool.true)
      (hs : decode items = some s.toList) : ReadsValue (literal items) (.string s)
  | array {t : List Char} {items : List Json} (h : ReadsElements ReadsValue Bool.true t items) :
      ReadsValue ('[' :: t) (.array items)
  | object {t : List Char} {members : Members} {fields : List (String × Json)}
      (h : ReadsMembers ReadsValue Bool.true t members)
      (hfields : ∀ key, getField fields key = (lastMember members key).map (·.2)) :
      ReadsValue ('{' :: t) (.object fields)

/-- The text is an object with these members and fields, white space around it. -/
structure ReadsObject (text : List Char) (members : Members) (fields : List (String × Json)) : Prop where
  text : ∃ ws t ws', Blank ws ∧ Blank ws' ∧ text = ws ++ '{' :: (t ++ ws') ∧ ReadsMembers ReadsValue true t members
  fields : ∀ key, getField fields key = (lastMember members key).map (·.2)

/-- Every member stands in the text of its object. -/
theorem member_of_readsMembers {R : List Char → Json → Prop} {first : Bool} {t : List Char} {members : Members}
    (h : ReadsMembers R first t members) :
    ∀ m ∈ members, ∃ pre t' rest, t = pre ++ t' ++ rest ∧ ReadsMember R t' m := by
  induction h with
  | close _ => exact fun m hm => absurd hm List.not_mem_nil
  | @first t rest m ms hm _ ih =>
    intro m' hmem
    rcases List.mem_cons.mp hmem with rfl | hmem
    · exact ⟨[], t, rest, rfl, hm⟩
    · obtain ⟨pre, t', rest', rfl, hm'⟩ := ih m' hmem
      exact ⟨t ++ pre, t', rest', by simp, hm'⟩
  | @more ws t rest m ms _ hm _ ih =>
    intro m' hmem
    rcases List.mem_cons.mp hmem with rfl | hmem
    · exact ⟨ws ++ [','], t, rest, by simp, hm⟩
    · obtain ⟨pre, t', rest', rfl, hm'⟩ := ih m' hmem
      exact ⟨ws ++ ',' :: (t ++ pre), t', rest', by simp, hm'⟩

/-- A numeral begins with a digit or a minus. -/
theorem head_of_isNumeral {t : List Char} (h : isNumeral t = true) :
    ∃ c cs, t = c :: cs ∧ (c.isDigit = true ∨ c = '-') := by
  cases t with
  | nil => exact absurd h (by decide)
  | cons c cs =>
    refine ⟨c, cs, rfl, ?_⟩
    by_cases hminus : c = '-'
    · exact .inr hminus
    · refine .inl ?_
      by_contra hdigit
      have hhead : (c :: cs).head? ≠ some '-' := by simpa using hminus
      rw [isNumeral, if_neg hhead] at h
      simp [hdigit] at h

/-- A value that begins with a quoted word without escapes is that string. -/
theorem string_of_quoted {t r rest word : List Char} {v : Json} (h : ReadsValue t v)
    (hword : ∀ c ∈ word, c ≠ '"' ∧ c ≠ '\\') (ht : t ++ r = '"' :: (word ++ '"' :: rest)) :
    v = .string (String.ofList word) := by
  have hnumeral : ∀ {t}, isNumeral t = Bool.true → t ++ r ≠ '"' :: (word ++ '"' :: rest) := by
    intro t hn heq
    obtain ⟨c, cs, rfl, hc⟩ := head_of_isNumeral hn
    obtain rfl : c = '"' := (List.cons.inj heq).1
    exact absurd hc (by decide)
  cases h with
  | null => exact absurd (List.cons.inj ht).1 (by decide)
  | true => exact absurd (List.cons.inj ht).1 (by decide)
  | false => exact absurd (List.cons.inj ht).1 (by decide)
  | int n hn => exact absurd ht (hnumeral hn)
  | float x hx => exact absurd ht (hnumeral hx)
  | @string items s hitems hs =>
    rw [literal, List.cons_append, List.append_assoc] at ht
    obtain rfl := eq_spelled_of_text hitems hword (List.cons.inj ht).2
    rw [decode_spelled] at hs
    rw [Option.some.inj hs, String.ofList_toList]
  | array _ => exact absurd (List.cons.inj ht).1 (by decide)
  | object _ _ => exact absurd (List.cons.inj ht).1 (by decide)

/-! ## Values without white space and escapes -/

theorem blank_nil : Blank [] := fun _ h => absurd h List.not_mem_nil

theorem valid_spelled {s : List Char} (h : (s.all fun c => (StrItem.plain c).valid) = true) :
    ∀ item ∈ spelled s, item.valid = true := by
  rwa [← List.all_eq_true, spelled, List.all_map]

theorem readsValue_spelled {s : String} (h : (s.toList.all fun c => (StrItem.plain c).valid) = true) :
    ReadsValue (literal (spelled s.toList)) (.string s) :=
  .string (valid_spelled h) (decode_spelled _)

theorem readsMember_compact {key : List StrItem} {t : List Char} {v : Json} (hkey : key.all StrItem.valid = true)
    (hname : (decode key).isSome = true) (hv : ReadsValue t v) :
    ReadsMember ReadsValue (literal key ++ ':' :: t) (key, v) := by
  simpa using ReadsMember.mk blank_nil blank_nil blank_nil (List.all_eq_true.mp hkey) hname hv

theorem readsMember_spelled {s t : List Char} {v : Json} (hkey : (s.all fun c => (StrItem.plain c).valid) = true)
    (hv : ReadsValue t v) : ReadsMember ReadsValue (literal (spelled s) ++ ':' :: t) (spelled s, v) :=
  readsMember_compact (List.all_eq_true.mpr (valid_spelled hkey)) (by rw [decode_spelled]; rfl) hv

theorem readsMembers_close (first : Bool) : ReadsMembers ReadsValue first ['}'] [] := .close blank_nil

end RallyPoint.Lib
