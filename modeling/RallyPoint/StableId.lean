/-
# RallyPoint.StableId — event ids that are derived and not minted (`lib.rs`, `reaper.rs`).

A writer that may have to repeat its write derives the id of the fact from what the write is for: the action, and
the 64-bit FNV-1a hash of action and target. A retry then bears the id of the first attempt, and so does everything
else that is ever written for that action and target.
-/
import RallyPoint.Append

namespace RallyPoint

open Lib

def utf8Bytes (s : String) : List UInt8 := s.toList.flatMap String.utf8EncodeChar

/-- One byte of the 64-bit FNV-1a hash. -/
def fnvStep (hash : Nat) (byte : UInt8) : Nat := (hash ^^^ byte.toNat) * 0x100000001b3 % 2 ^ 64

def hexDigit (n : Nat) : Char := "0123456789abcdef".toList.getD n '0'

/-- Sixteen lower-case digits, zeros in front. -/
def hex16 (n : Nat) : String := String.ofList ((List.range 16).reverse.map fun i => hexDigit (n / 16 ^ i % 16))

def stableOperationId (action target : String) : String :=
  action ++ "-" ++ hex16 ((utf8Bytes action ++ [0] ++ utf8Bytes target).foldl fnvStep 0xcbf29ce484222325)

example : stableOperationId "task-complete-release" "m1:c1" = "task-complete-release-836a4224cf67ecc4" := by
  decide

theorem hexDigit_mem (n : Nat) : hexDigit n ∈ "0123456789abcdef".toList := by
  rw [hexDigit, List.getD_eq_getElem?_getD]
  cases h : "0123456789abcdef".toList[n]? with
  | none => decide
  | some c => exact List.mem_of_getElem? h

theorem hexDigit_plain (n : Nat) : Char.utf8Size (hexDigit n) = 1 ∧ isControl (hexDigit n) = false := by
  have hall : ("0123456789abcdef".toList.all fun c => Char.utf8Size c == 1 && !isControl c) = true := by
    decide
  simpa using List.all_eq_true.mp hall _ (hexDigit_mem n)

theorem byteLen_append (s t : String) : byteLen (s ++ t) = byteLen s + byteLen t := by
  rw [byteLen, String.toList_append, sumOf_append, ← byteLen, ← byteLen]

theorem byteLen_hex16 (n : Nat) : byteLen (hex16 n) = 16 := by
  have hsum : ∀ (is : List Nat),
      sumOf Char.utf8Size (is.map fun i => hexDigit (n / 16 ^ i % 16)) = is.length := by
    intro is
    induction is using List.reverseRecOn with
    | nil => rfl
    | append_singleton is i ih =>
      rw [List.map_append, List.map_singleton, sumOf_append_singleton, ih, (hexDigit_plain _).1,
        List.length_append, List.length_singleton]
  rw [byteLen, hex16, String.toList_ofList, hsum, List.length_reverse, List.length_range]

theorem hex16_plain (n : Nat) : (hex16 n).toList.any isControl = false := by
  simp only [List.any_eq_false, Bool.not_eq_true, hex16, String.toList_ofList, List.mem_map]
  rintro c ⟨i, -, rfl⟩
  exact (hexDigit_plain _).2

/-- Words, a dash and sixteen digits are a legal event id whenever the words are short and plain. -/
theorem validateAppendEventId_hex16 {words : String} {n : Nat} (hlen : byteLen words ≤ 239)
    (hplain : words.toList.any isControl = false) : validateAppendEventId (words ++ "-" ++ hex16 n) = .ok () := by
  have hblank : isBlank (words ++ "-" ++ hex16 n) = false := by
    have hdash : isWhitespace '-' = false := by decide
    simp [isBlank, hdash]
  have hsize : byteLen (words ++ "-" ++ hex16 n) = byteLen words + 1 + 16 := by
    rw [byteLen_append, byteLen_append, byteLen_hex16]
    rfl
  have hcontrol : (words ++ "-" ++ hex16 n).toList.any isControl = false := by
    have hdash : "-".toList.any isControl = false := by decide
    rw [String.toList_append, String.toList_append, List.any_append, List.any_append, hplain, hdash, hex16_plain]
    rfl
  rw [validateAppendEventId, check_refuse_ok_iff, check_refuse_ok_iff, check_refuse_ok_iff]
  simp only [hblank, hsize, hcontrol, maxAppendEventIdBytes, Bool.false_eq_true, not_false_eq_true, true_and,
    and_true]
  omega

/-- A stable id is a legal event id whenever its action is short and free of control characters. -/
theorem validateAppendEventId_stable {action target : String} (hlen : byteLen action ≤ 239)
    (hplain : action.toList.any isControl = false) :
    validateAppendEventId (stableOperationId action target) = .ok () :=
  validateAppendEventId_hex16 hlen hplain

theorem validateAppendEventId_le {eventId : String} (h : validateAppendEventId eventId = .ok ()) :
    byteLen eventId ≤ 256 := by
  rw [validateAppendEventId, check_refuse_ok_iff, check_refuse_ok_iff] at h
  exact Nat.not_lt.mp h.2.1

end RallyPoint
