/-
# RallyPoint.Lib.Utf16 — JavaScript strings and their JSON literals.

A JavaScript string is a sequence of UTF-16 units in which surrogates may stand alone. `JSON.stringify` writes a
pair as its character and a lone surrogate as an escape, so that the literal is well-formed text, and `JSON.parse`
reads the units back from either (`parseUnits_quotedUnits`).
-/
import RallyPoint.Lib.JsonText
import Mathlib.Tactic.Common

namespace RallyPoint.Lib

/-- A JavaScript string by its UTF-16 units. -/
abbrev JsString := List UInt16

/-! ## Units and characters -/

def isHigh (u : UInt16) : Bool := decide (0xD800 ≤ u.toNat) && decide (u.toNat < 0xDC00)

def isLow (u : UInt16) : Bool := decide (0xDC00 ≤ u.toNat) && decide (u.toNat < 0xE000)

/-- The character of a surrogate pair. -/
def pairChar (high low : UInt16) : Char := Char.ofNat (0x10000 + (high.toNat - 0xD800) * 0x400 + (low.toNat - 0xDC00))

/-- The units of a character. -/
def encodeChar (c : Char) : JsString :=
  if c.toNat < 0x10000 then [UInt16.ofNat c.toNat]
  else [UInt16.ofNat (0xD800 + (c.toNat - 0x10000) / 0x400), UInt16.ofNat (0xDC00 + (c.toNat - 0x10000) % 0x400)]

/-- A text as a JavaScript string. -/
def utf16 (s : String) : JsString := s.toList.flatMap encodeChar

theorem isHigh_iff {u : UInt16} : isHigh u = true ↔ 0xD800 ≤ u.toNat ∧ u.toNat < 0xDC00 := by simp [isHigh]

theorem isLow_iff {u : UInt16} : isLow u = true ↔ 0xDC00 ≤ u.toNat ∧ u.toNat < 0xE000 := by simp [isLow]

theorem toNat_unit_lt (u : UInt16) : u.toNat < 0x10000 := u.toNat_lt

theorem toNat_ofNat_unit {n : Nat} (h : n < 0x10000) : (UInt16.ofNat n).toNat = n := by
  rw [UInt16.toNat_ofNat']
  exact Nat.mod_eq_of_lt h

theorem toNat_charOfNat {n : Nat} (h : n.isValidChar) : (Char.ofNat n).toNat = n := by
  rw [Char.ofNat, dif_pos h]
  rfl

theorem toNat_pairChar {high low : UInt16} (hhigh : isHigh high = true) (hlow : isLow low = true) :
    (pairChar high low).toNat = 0x10000 + (high.toNat - 0xD800) * 0x400 + (low.toNat - 0xDC00) := by
  obtain ⟨hh, hh'⟩ := isHigh_iff.mp hhigh
  obtain ⟨hl, hl'⟩ := isLow_iff.mp hlow
  have hvalid : (0x10000 + (high.toNat - 0xD800) * 0x400 + (low.toNat - 0xDC00)).isValidChar := by
    unfold Nat.isValidChar
    omega
  exact toNat_charOfNat hvalid

theorem encodeChar_pairChar {high low : UInt16} (hhigh : isHigh high = true) (hlow : isLow low = true) :
    encodeChar (pairChar high low) = [high, low] := by
  have hchar := toNat_pairChar hhigh hlow
  obtain ⟨hh, hh'⟩ := isHigh_iff.mp hhigh
  obtain ⟨hl, hl'⟩ := isLow_iff.mp hlow
  have hhighUnit : UInt16.ofNat (0xD800 + ((pairChar high low).toNat - 0x10000) / 0x400) = high := by
    rw [← UInt16.toNat_inj, toNat_ofNat_unit (by omega)]
    omega
  have hlowUnit : UInt16.ofNat (0xDC00 + ((pairChar high low).toNat - 0x10000) % 0x400) = low := by
    rw [← UInt16.toNat_inj, toNat_ofNat_unit (by omega)]
    omega
  rw [encodeChar, if_neg (by omega), hhighUnit, hlowUnit]

/-- A unit outside the surrogates is a character of its own. -/
theorem toNat_unitChar {u : UInt16} (hhigh : isHigh u = false) (hlow : isLow u = false) :
    (Char.ofNat u.toNat).toNat = u.toNat := by
  have hlt := toNat_unit_lt u
  have hvalid : u.toNat.isValidChar := by
    unfold Nat.isValidChar
    by_contra hnot
    have hrange : 0xD800 ≤ u.toNat ∧ u.toNat < 0xE000 := by omega
    rcases Nat.lt_or_ge u.toNat 0xDC00 with h | h
    · rw [isHigh_iff.mpr ⟨hrange.1, h⟩] at hhigh
      cases hhigh
    · rw [isLow_iff.mpr ⟨h, hrange.2⟩] at hlow
      cases hlow
  exact toNat_charOfNat hvalid

theorem encodeChar_unitChar {u : UInt16} (hhigh : isHigh u = false) (hlow : isLow u = false) :
    encodeChar (Char.ofNat u.toNat) = [u] := by
  have hlt := toNat_unit_lt u
  rw [encodeChar, toNat_unitChar hhigh hlow, if_pos hlt]
  congr 1
  rw [← UInt16.toNat_inj, toNat_ofNat_unit hlt]

/-! ## Literals -/

def hexDigit (n : Nat) : Char := if n < 10 then Char.ofNat (48 + n) else Char.ofNat (87 + n)

/-- `\uXXXX`. -/
def unitEscape (u : UInt16) : List Char :=
  ['\\', 'u', hexDigit (u.toNat / 4096), hexDigit (u.toNat / 256 % 16), hexDigit (u.toNat / 16 % 16),
    hexDigit (u.toNat % 16)]

/-- A unit between the quotes, when it is no half of a pair. -/
def unitText (u : UInt16) : List Char :=
  if u = 0x22 then ['\\', '"']
  else if u = 0x5c then ['\\', '\\']
  else if u = 0x08 then ['\\', 'b']
  else if u = 0x09 then ['\\', 't']
  else if u = 0x0a then ['\\', 'n']
  else if u = 0x0c then ['\\', 'f']
  else if u = 0x0d then ['\\', 'r']
  else if decide (u.toNat < 0x20) || isHigh u || isLow u then unitEscape u
  else [Char.ofNat u.toNat]

def quotedUnits : JsString → List Char
  | [] => []
  | [u] => unitText u
  | u :: v :: rest =>
    if isHigh u && isLow v then pairChar u v :: quotedUnits rest else unitText u ++ quotedUnits (v :: rest)

/-- `QuoteJSONString`. -/
def quote (s : JsString) : List Char := '"' :: (quotedUnits s ++ ['"'])

/-- The unit of an escape of one letter. -/
def simpleUnit (c : Char) : Option UInt16 :=
  (simpleEscapes.find? fun e => e.1 == c).map fun e => UInt16.ofNat e.2.toNat

/-- The units up to the closing quote, and what stands behind it. -/
def parseUnits : Nat → List Char → Option (JsString × List Char)
  | 0, _ => none
  | _ + 1, [] => none
  | fuel + 1, c :: rest =>
    if c = '"' then some ([], rest)
    else if c = '\\' then
      match rest with
      | 'u' :: a :: b :: c :: d :: rest =>
        if [a, b, c, d].all isHexDigit then
          (parseUnits fuel rest).map fun p => (UInt16.ofNat (StrItem.unicode a b c d).unit :: p.1, p.2)
        else none
      | e :: rest =>
        match simpleUnit e with
        | some u => (parseUnits fuel rest).map fun p => (u :: p.1, p.2)
        | none => none
      | [] => none
    else if c.toNat < 0x20 then none
    else (parseUnits fuel rest).map fun p => (encodeChar c ++ p.1, p.2)

/-! ## Reading what was written -/

theorem hexDigit_value : ∀ n < 16, hexValue (hexDigit n) = n ∧ isHexDigit (hexDigit n) = true := by decide

theorem parseUnits_unitEscape (fuel : Nat) (u : UInt16) (r : List Char) :
    parseUnits (fuel + 1) (unitEscape u ++ r) = (parseUnits fuel r).map fun p => (u :: p.1, p.2) := by
  have hlt := toNat_unit_lt u
  have h3 := hexDigit_value (u.toNat / 4096) (by omega)
  have h2 := hexDigit_value (u.toNat / 256 % 16) (by omega)
  have h1 := hexDigit_value (u.toNat / 16 % 16) (by omega)
  have h0 := hexDigit_value (u.toNat % 16) (by omega)
  have hunit : UInt16.ofNat (StrItem.unicode (hexDigit (u.toNat / 4096)) (hexDigit (u.toNat / 256 % 16))
      (hexDigit (u.toNat / 16 % 16)) (hexDigit (u.toNat % 16))).unit = u := by
    rw [StrItem.unit, h3.1, h2.1, h1.1, h0.1, ← UInt16.toNat_inj, toNat_ofNat_unit (by omega)]
    omega
  simp only [unitEscape, List.cons_append, List.nil_append]
  rw [parseUnits.eq_def]
  simp only [List.all_cons, List.all_nil, h3.2, h2.2, h1.2, h0.2, Bool.and_self, if_true, hunit]
  rw [if_neg (by decide)]

/-- A character that needs no escape. -/
theorem parseUnits_plain (fuel : Nat) {c : Char} (hquote : c ≠ '"') (hslash : c ≠ '\\') (hprint : ¬c.toNat < 0x20)
    (r : List Char) : parseUnits (fuel + 1) (c :: r) =
      (parseUnits fuel r).map fun p => (encodeChar c ++ p.1, p.2) := by
  rw [parseUnits.eq_def]
  simp only [if_neg hquote, if_neg hslash, if_neg hprint]

theorem parseUnits_unitText (fuel : Nat) (u : UInt16) (r : List Char) :
    parseUnits (fuel + 1) (unitText u ++ r) = (parseUnits fuel r).map fun p => (u :: p.1, p.2) := by
  unfold unitText
  split_ifs with hquote hslash hb ht hn hf hr hescape
  · subst hquote
    rfl
  · subst hslash
    rfl
  · subst hb
    rfl
  · subst ht
    rfl
  · subst hn
    rfl
  · subst hf
    rfl
  · subst hr
    rfl
  · exact parseUnits_unitEscape fuel u r
  · simp only [Bool.or_eq_true, decide_eq_true_eq, not_or, Bool.not_eq_true] at hescape
    obtain ⟨⟨hprint, hhigh⟩, hlow⟩ := hescape
    have hchar := toNat_unitChar hhigh hlow
    have hne : ∀ v : UInt16, u ≠ v → ∀ c : Char, c.toNat = v.toNat → Char.ofNat u.toNat ≠ c := by
      rintro v huv c hc rfl
      exact huv (UInt16.toNat_inj.mp (hchar.symm.trans hc))
    rw [List.singleton_append, parseUnits_plain fuel (hne _ hquote _ rfl) (hne _ hslash _ rfl) (by omega),
      encodeChar_unitChar hhigh hlow]
    rfl

theorem parseUnits_pairChar (fuel : Nat) {high low : UInt16} (hhigh : isHigh high = true) (hlow : isLow low = true)
    (r : List Char) : parseUnits (fuel + 1) (pairChar high low :: r) =
      (parseUnits fuel r).map fun p => (high :: low :: p.1, p.2) := by
  have hchar := toNat_pairChar hhigh hlow
  have hne : ∀ c : Char, c.toNat < 0x10000 → pairChar high low ≠ c := by
    rintro c hc rfl
    omega
  rw [parseUnits_plain fuel (hne _ (by decide)) (hne _ (by decide)) (by omega), encodeChar_pairChar hhigh hlow]
  rfl

theorem length_unitText_pos (u : UInt16) : 0 < (unitText u).length := by
  unfold unitText unitEscape
  split_ifs <;> simp

/-- **A literal is read back**, whatever surrogates stand in the string. -/
theorem parseUnits_quotedUnits {s : JsString} {fuel : Nat} (hfuel : (quotedUnits s).length < fuel) (r : List Char) :
    parseUnits fuel (quotedUnits s ++ '"' :: r) = some (s, r) := by
  induction s using quotedUnits.induct generalizing fuel with
  | case1 =>
    obtain ⟨fuel, rfl⟩ : ∃ n, fuel = n + 1 := ⟨fuel - 1, by omega⟩
    rfl
  | case2 u =>
    have hpos := length_unitText_pos u
    rw [quotedUnits] at hfuel ⊢
    obtain ⟨fuel, rfl⟩ : ∃ n, fuel = n + 2 := ⟨fuel - 2, by omega⟩
    rw [parseUnits_unitText]
    rfl
  | case3 u v rest hpair ih =>
    rw [quotedUnits, if_pos hpair] at hfuel ⊢
    rw [List.length_cons] at hfuel
    obtain ⟨fuel, rfl⟩ : ∃ n, fuel = n + 1 := ⟨fuel - 1, by omega⟩
    rw [Bool.and_eq_true] at hpair
    rw [List.cons_append, parseUnits_pairChar fuel hpair.1 hpair.2, ih (by omega)]
    rfl
  | case4 u v rest hpair ih =>
    have hpos := length_unitText_pos u
    rw [quotedUnits, if_neg hpair] at hfuel ⊢
    rw [List.length_append] at hfuel
    obtain ⟨fuel, rfl⟩ : ∃ n, fuel = n + 1 := ⟨fuel - 1, by omega⟩
    rw [List.append_assoc, parseUnits_unitText, ih (by omega)]
    rfl

end RallyPoint.Lib
