/-
# RallyPoint.Lib.BufRead — buffered readers.

A buffered reader hands out some beginning of what is left of its stream, as long as it likes but not empty before the
end, and is told how much of it was used. What it reads is a stream; how it cuts the stream is its own affair, so a
result about every `BufRead` holds however the input arrives. `ofChunks` is the reader of a given list of pieces.
-/
import Mathlib.Data.List.Infix

namespace RallyPoint.Lib

/-- A buffered reader over symbols `α`, with states `σ`. -/
structure BufRead (α σ : Type*) where
  /-- What is buffered, after more was fetched if nothing was. -/
  fillBuf : σ → List α × σ
  consume : σ → Nat → σ
  /-- What was not consumed yet. -/
  stream : σ → List α
  fillBuf_prefix : ∀ s, (fillBuf s).1 <+: stream s
  eq_nil_of_fillBuf : ∀ s, (fillBuf s).1 = [] → stream s = []
  stream_fillBuf : ∀ s, stream (fillBuf s).2 = stream s
  stream_consume : ∀ s n, n ≤ (fillBuf s).1.length → stream (consume (fillBuf s).2 n) = (stream s).drop n

namespace BufRead

variable {α σ : Type*} (R : BufRead α σ) (s : σ)

/-- What is buffered stands in front of a rest. -/
theorem exists_rest : ∃ rest, R.stream s = (R.fillBuf s).1 ++ rest ∧
    ∀ n ≤ (R.fillBuf s).1.length, R.stream (R.consume (R.fillBuf s).2 n) = (R.fillBuf s).1.drop n ++ rest := by
  obtain ⟨rest, hrest⟩ := R.fillBuf_prefix s
  refine ⟨rest, hrest.symm, ?_⟩
  intro n hn
  rw [R.stream_consume s n hn, ← hrest, List.drop_append_of_le_length hn]

/-- Consuming leaves less. -/
theorem length_consume_lt {n : Nat} (hpos : 0 < n) (hn : n ≤ (R.fillBuf s).1.length) :
    (R.stream (R.consume (R.fillBuf s).2 n)).length < (R.stream s).length := by
  have hle := (R.fillBuf_prefix s).length_le
  rw [R.stream_consume s n hn, List.length_drop]
  omega

/-- The reader whose buffer holds one piece after the other. -/
def ofChunks : BufRead α (List (List α)) where
  fillBuf chunks := ((chunks.dropWhile List.isEmpty).head?.getD [], chunks.dropWhile List.isEmpty)
  consume chunks n :=
    match chunks with
    | [] => []
    | chunk :: rest => chunk.drop n :: rest
  stream chunks := chunks.flatten
  fillBuf_prefix chunks := by
    induction chunks with
    | nil => exact List.nil_prefix
    | cons chunk rest ih =>
      cases chunk with
      | nil => exact ih
      | cons a chunk => exact List.prefix_append _ _
  eq_nil_of_fillBuf chunks h := by
    induction chunks with
    | nil => rfl
    | cons chunk rest ih =>
      cases chunk with
      | nil => exact ih h
      | cons a chunk => cases h
  stream_fillBuf chunks := by
    induction chunks with
    | nil => rfl
    | cons chunk rest ih =>
      cases chunk with
      | nil => exact ih
      | cons a chunk => rfl
  stream_consume chunks n hn := by
    induction chunks with
    | nil => simp
    | cons chunk rest ih =>
      cases chunk with
      | nil => exact ih hn
      | cons a chunk => exact (List.drop_append_of_le_length hn).symm

end BufRead

end RallyPoint.Lib
