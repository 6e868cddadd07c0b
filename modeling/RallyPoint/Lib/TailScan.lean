/-
# RallyPoint.Lib.TailScan — the end of a text, found by reading it backwards.

A long text is read from its end, one chunk after another, until the part that has been read shows what is asked for.
Two such loops: one stops at the last separator and gives the tail behind it (`scanBack_eq`), whatever the size of
the chunks; the other goes on until two separators have been read, or everything has (`readBack_spec`).
-/
import RallyPoint.Lib.Frames
import Mathlib.Data.PNat.Basic

namespace RallyPoint.Lib

variable {α : Type*} [DecidableEq α] {sep : α} {text before after : List α}

/-- Where the last separator stands. -/
def lastPosition (sep : α) : List α → Option Nat
  | [] => none
  | c :: cs =>
    match lastPosition sep cs with
    | some i => some (i + 1)
    | none => if c = sep then some 0 else none

theorem lastPosition_of_notMem (h : sep ∉ text) : lastPosition sep text = none := by
  induction text with
  | nil => rfl
  | cons c cs ih =>
    rw [List.mem_cons, not_or] at h
    rw [lastPosition, ih h.2, if_neg (Ne.symm h.1)]

theorem lastPosition_append (before : List α) (h : sep ∉ after) :
    lastPosition sep (before ++ sep :: after) = some before.length := by
  induction before with
  | nil => rw [List.nil_append, lastPosition, lastPosition_of_notMem h, if_pos rfl]; rfl
  | cons c cs ih => rw [List.cons_append, lastPosition, ih]; rfl

/-- A text either has no separator or splits at its last one. -/
theorem exists_last (sep : α) (text : List α) :
    sep ∉ text ∨ ∃ before after, text = before ++ sep :: after ∧ sep ∉ after := by
  induction text with
  | nil => exact .inl List.not_mem_nil
  | cons c cs ih =>
    rcases ih with hfree | ⟨before, after, rfl, hafter⟩
    · by_cases hc : c = sep
      · exact .inr ⟨[], cs, by rw [hc, List.nil_append], hfree⟩
      · exact .inl fun h => (List.mem_cons.mp h).elim (fun h => hc h.symm) hfree
    · exact .inr ⟨c :: before, after, rfl, hafter⟩

/-- The tail of a text is what stands behind its last separator. -/
theorem frames_snd_append (before : List α) (h : sep ∉ after) : (frames sep (before ++ sep :: after)).2 = after := by
  have hboundary : (frames sep (before ++ [sep])).2 = [] := by
    rw [frames_snd_eq_nil_iff, List.getLast?_concat]
    exact .inr rfl
  rw [List.append_cons, frames_append_of_boundary hboundary, frames_of_notMem h]

/-! ## Back to the last separator -/

/-- The loop: the chunk before `stop` is read, and put in front of what has been read if it has no separator. The
result is the tail and where it starts. -/
def scanBack (sep : α) (size : ℕ+) (text : List α) (stop : Nat) (tail : List α) : List α × Nat :=
  let start := stop - size
  let chunk := (text.take stop).drop start
  match lastPosition sep chunk with
  | some i => (chunk.drop (i + 1) ++ tail, start + i + 1)
  | none => if start = 0 then (chunk ++ tail, 0) else scanBack sep size text start (chunk ++ tail)
termination_by stop
decreasing_by
  have := size.pos
  omega

/-- **Reading back to the last separator** finds the tail of the text, whatever the size of the chunks. -/
theorem scanBack_eq (sep : α) (size : ℕ+) (text : List α) (stop : Nat) (tail : List α) (hstop : stop ≤ text.length) :
    scanBack sep size text stop tail =
      ((frames sep (text.take stop)).2 ++ tail, stop - (frames sep (text.take stop)).2.length) := by
  induction stop using Nat.strong_induction_on generalizing tail with
  | h stop ih =>
    -- what has not been read yet, and the chunk that is read now
    have hsplit : text.take stop = text.take (stop - size) ++ (text.take stop).drop (stop - size) := by
      conv_lhs => rw [← List.take_append_drop (stop - size) (text.take stop), List.take_take]
      rw [min_eq_left (Nat.sub_le _ _)]
    have hlen : ((text.take stop).drop (stop - size)).length = stop - (stop - size) := by
      rw [List.length_drop, List.length_take, min_eq_left hstop]
    have hsize := size.pos
    rw [scanBack]
    generalize (text.take stop).drop (stop - size) = chunk at hsplit hlen
    rcases exists_last sep chunk with hfree | ⟨front, rest, rfl, hrest⟩
    · rw [lastPosition_of_notMem hfree]
      dsimp only
      by_cases hstart : stop - size = 0
      · rw [hstart, List.take_zero, List.nil_append] at hsplit
        rw [if_pos hstart, hsplit, frames_of_notMem hfree, hlen, hstart, Nat.sub_zero, Nat.sub_self]
      · rw [if_neg hstart, ih _ (by omega) _ (by omega), hsplit, frames_append_piece hfree, List.append_assoc,
          List.length_append, hlen]
        exact Prod.ext rfl (by show stop - size - _ = stop - (_ + (stop - (stop - size))); omega)
    · rw [lastPosition_append front hrest, hsplit, ← List.append_assoc, frames_snd_append _ hrest]
      have hdrop : (front ++ sep :: rest).drop (front.length + 1) = rest := by
        rw [List.drop_append, List.drop_of_length_le (Nat.le_succ _), List.nil_append, Nat.add_sub_cancel_left]
        rfl
      rw [List.length_append, List.length_cons] at hlen
      show ((front ++ sep :: rest).drop (front.length + 1) ++ tail, stop - size + front.length + 1) = _
      rw [hdrop]
      exact Prod.ext rfl (by show stop - size + front.length + 1 = stop - rest.length; omega)

/-! ## Back until two separators have been read -/

/-- The loop: chunks that double up to a limit, until two separators have been read or the text is. -/
def readBack (sep : α) (limit : ℕ+) (text : List α) (step : ℕ+) (stop : Nat) (tail : List α) : List α :=
  let start := stop - step
  let read := (text.take stop).drop start ++ tail
  if start = 0 ∨ 2 ≤ read.count sep then read else readBack sep limit text (min (step * 2) limit) start read
termination_by stop
decreasing_by
  have := step.pos
  omega

/-- **What has been read back** is the end of the text: all of it, or an end with two separators. -/
theorem readBack_spec (sep : α) (limit : ℕ+) (text : List α) (step : ℕ+) (stop : Nat) :
    ∃ skipped, text = skipped ++ readBack sep limit text step stop (text.drop stop) ∧
      (skipped = [] ∨ 2 ≤ (readBack sep limit text step stop (text.drop stop)).count sep) := by
  induction stop using Nat.strong_induction_on generalizing step with
  | h stop ih =>
    have hread : (text.take stop).drop (stop - step) ++ text.drop stop = text.drop (stop - step) := by
      conv_rhs => rw [← List.take_append_drop stop text, List.drop_append, List.length_take]
      rcases Nat.le_total stop text.length with hle | hle
      · rw [min_eq_left hle, Nat.sub_eq_zero_of_le (Nat.sub_le _ _), List.drop_zero]
      · rw [List.drop_of_length_le hle, List.drop_nil]
    have hstep := step.pos
    rw [readBack, hread]
    split
    case isTrue hdone =>
      refine ⟨text.take (stop - step), (List.take_append_drop _ _).symm, ?_⟩
      rcases hdone with hzero | htwo
      · exact .inl (by rw [hzero, List.take_zero])
      · exact .inr htwo
    case isFalse hmore =>
      rw [not_or] at hmore
      exact ih _ (by omega) _

theorem length_frames (sep : α) (text : List α) : (frames sep text).1.length = text.count sep := by
  induction text with
  | nil => rfl
  | cons c cs ih =>
    rw [frames, List.count_cons]
    split
    case isTrue hc => rw [List.length_cons, ih, if_pos (by rw [hc]; exact beq_self_eq_true sep)]
    case isFalse hc =>
      rw [if_neg (by simpa using hc), ← ih]
      cases (frames sep cs).1 with
      | nil => rfl
      | cons f fs => rfl

/-- **An end with two separators** shows the last frame of the text and its tail. -/
theorem frames_of_two (skipped : List α) {read : List α} (h : 2 ≤ read.count sep) :
    (frames sep (skipped ++ read)).1.getLast? = (frames sep read).1.getLast? ∧
      (frames sep (skipped ++ read)).2 = (frames sep read).2 := by
  rw [← length_frames] at h
  rw [frames_append, frames_append_of_notMem (notMem_frames skipped).2]
  rcases hread : (frames sep read).1 with _ | ⟨f, _ | ⟨g, fs⟩⟩
  · rw [hread, List.length_nil] at h
    omega
  · rw [hread, List.length_singleton] at h
    omega
  · refine ⟨?_, rfl⟩
    show ((frames sep skipped).1 ++ (((frames sep skipped).2 ++ f) :: g :: fs)).getLast? = _
    rw [List.getLast?_append_of_ne_nil _ (List.cons_ne_nil _ _), List.getLast?_cons_cons, List.getLast?_cons_cons]

end RallyPoint.Lib
