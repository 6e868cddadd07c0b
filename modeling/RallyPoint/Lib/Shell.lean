/-
# RallyPoint.Lib.Shell — texts as a shell sees them in the C locale: bytes.

Command substitution drops the NUL bytes of what a command printed, which a shell variable cannot hold, and then
every line break at the end. An unquoted expansion is split into fields at runs of blanks. A number in an
arithmetic expansion is octal when it opens with a zero and goes on. `decimal` is how programs print a count; it is
one field, and it is read back (`shellNumber_decimal`).
-/
import RallyPoint.Lib.Str
import Mathlib.Data.List.DropRight

namespace RallyPoint.Lib.Shell

abbrev Bytes := List UInt8

def blank : UInt8 := 32

/-- The bytes of an ASCII text. -/
def ascii (cs : List Char) : Bytes := cs.map fun c => UInt8.ofNat c.toNat

/-! ## Expansion -/

/-- What a variable holds after it was assigned a command substitution. -/
def commandSubstitution (printed : Bytes) : Bytes := (printed.filter (· != 0)).rdropWhile (· == newline)

/-- The default field separators: blank, tab, line break. -/
def isFieldSeparator (b : UInt8) : Bool := b == blank || b == 9 || b == newline

/-- Field splitting, with the field read so far. -/
def splitFields (field : Bytes) : Bytes → List Bytes
  | [] => if field.isEmpty then [] else [field]
  | b :: rest =>
    if isFieldSeparator b then
      if field.isEmpty then splitFields [] rest else field :: splitFields [] rest
    else splitFields (field ++ [b]) rest

/-- The fields of an unquoted expansion, of which none holds a pattern character. -/
def fields (expansion : Bytes) : List Bytes := splitFields [] expansion

section Fields

variable {w rest : Bytes}

theorem splitFields_of_plain (hw : ∀ b ∈ w, isFieldSeparator b = false) (field : Bytes) :
    splitFields field (w ++ rest) = splitFields (field ++ w) rest := by
  induction w generalizing field with
  | nil => simp
  | cons b w ih =>
    rw [List.forall_mem_cons] at hw
    rw [List.cons_append, splitFields, hw.1, if_neg Bool.false_ne_true, ih hw.2, List.append_assoc]
    rfl

/-- A field and the blank behind it. -/
theorem fields_append_blank (hw : ∀ b ∈ w, isFieldSeparator b = false) (hne : w ≠ []) :
    fields (w ++ blank :: rest) = w :: fields rest := by
  rw [fields, splitFields_of_plain hw, List.nil_append, splitFields, if_pos (by decide), if_neg (by simpa using hne)]
  rfl

/-- The last field. -/
theorem fields_of_plain (hw : ∀ b ∈ w, isFieldSeparator b = false) (hne : w ≠ []) : fields w = [w] := by
  have h : splitFields [] (w ++ []) = splitFields ([] ++ w) [] := splitFields_of_plain hw []
  rw [List.append_nil] at h
  rw [fields, h, List.nil_append, splitFields, if_neg (by simpa using hne)]

end Fields

/-! ## Numbers -/

def isDigit (b : UInt8) : Bool := 48 ≤ b && b ≤ 57

/-- The value of digits, in a base up to ten. -/
def digitsValue (base : Nat) (digits : Bytes) : Nat :=
  Nat.ofDigitChars base (digits.map fun b => Char.ofNat b.toNat) 0

/-- A numeral in an arithmetic expansion. -/
def shellNumber (numeral : Bytes) : Option Nat :=
  match numeral with
  | [] => none
  | 48 :: b :: rest =>
    -- a leading zero makes it octal
    if (b :: rest).all fun d => 48 ≤ d && d ≤ 55 then some (digitsValue 8 (b :: rest)) else none
  | numeral => if numeral.all isDigit then some (digitsValue 10 numeral) else none

/-- A count as it is printed. -/
def decimal (n : Nat) : Bytes := ascii (Nat.toDigits 10 n)

theorem mem_decimal {n : Nat} {b : UInt8} (h : b ∈ decimal n) :
    ∃ c ∈ Nat.toDigits 10 n, c.isDigit = true ∧ b = UInt8.ofNat c.toNat := by
  obtain ⟨c, hc, rfl⟩ := List.mem_map.mp h
  exact ⟨c, hc, Nat.isDigit_of_mem_toDigits (by decide) (by decide) hc, rfl⟩

theorem digit_range {c : Char} (h : c.isDigit = true) : 48 ≤ c.toNat ∧ c.toNat ≤ 57 := by
  simp only [Char.isDigit, Bool.and_eq_true, decide_eq_true_eq] at h
  exact ⟨h.1, h.2⟩

theorem toNat_ofNat_digit {c : Char} (h : c.isDigit = true) : (UInt8.ofNat c.toNat).toNat = c.toNat := by
  have := digit_range h
  simp
  omega

theorem isDigit_of_mem_decimal {n : Nat} {b : UInt8} (h : b ∈ decimal n) : isDigit b = true := by
  obtain ⟨c, -, hc, rfl⟩ := mem_decimal h
  have hrange := digit_range hc
  have hval := toNat_ofNat_digit hc
  simp only [isDigit, Bool.and_eq_true, decide_eq_true_eq, UInt8.le_iff_toNat_le, hval]
  exact hrange

theorem decimal_ne_nil (n : Nat) : decimal n ≠ [] := by simp [decimal, ascii, Nat.toDigits_ne_nil]

/-- A printed number above zero does not open with a zero. -/
theorem head_toDigits {n : Nat} (hn : 0 < n) : (Nat.toDigits 10 n).head? ≠ some '0' := by
  induction n using Nat.strong_induction_on with
  | _ n ih =>
    by_cases hlt : n < 10
    · rw [Nat.toDigits_of_lt_base hlt]
      have hdigit : ∀ m < 10, 0 < m → m.digitChar ≠ '0' := by decide
      simpa using hdigit n hlt hn
    · have hdiv : 0 < n / 10 := by omega
      rw [Nat.toDigits_of_base_le (by decide) (by omega)]
      have hhead := ih (n / 10) (by omega) hdiv
      rwa [List.head?_append_of_ne_nil _ Nat.toDigits_ne_nil]

theorem digitsValue_decimal (n : Nat) : digitsValue 10 (decimal n) = n := by
  have hback : (decimal n).map (fun b => Char.ofNat b.toNat) = Nat.toDigits 10 n := by
    rw [decimal, ascii, List.map_map]
    refine (List.map_congr_left fun c hc => ?_).trans (List.map_id _)
    have hdigit := Nat.isDigit_of_mem_toDigits (by decide) (by decide) hc
    simp only [Function.comp_apply, toNat_ofNat_digit hdigit, Char.ofNat_toNat, id]
  rw [digitsValue, hback, Nat.ofDigitChars_ten_toDigits]

/-- **A printed number is read back**, its numeral never being octal. -/
theorem shellNumber_decimal (n : Nat) : shellNumber (decimal n) = some n := by
  have hall : (decimal n).all isDigit = true := List.all_eq_true.mpr fun b hb => isDigit_of_mem_decimal hb
  unfold shellNumber
  split
  case h_1 heq => exact absurd heq (decimal_ne_nil n)
  case h_2 b rest heq =>
    -- an octal numeral has a zero in front of another digit
    rcases Nat.eq_zero_or_pos n with rfl | hn
    · simp [decimal, ascii, Nat.toDigits_zero] at heq
    · refine absurd ?_ (head_toDigits hn)
      cases hdigits : Nat.toDigits 10 n with
      | nil => exact absurd hdigits Nat.toDigits_ne_nil
      | cons c cs =>
        have hc := Nat.isDigit_of_mem_toDigits (by decide) (by decide) (hdigits ▸ List.mem_cons_self : c ∈ _)
        rw [decimal, hdigits, ascii, List.map_cons] at heq
        have hval := toNat_ofNat_digit hc
        rw [(List.cons.inj heq).1] at hval
        rw [List.head?_cons, ← Char.ofNat_toNat c, ← hval]
        rfl
  case h_3 => rw [if_pos hall, digitsValue_decimal]

end RallyPoint.Lib.Shell
