/-
# RallyPoint.CappedLines — one physical line at a time (`read_line_capped` in `rally-protocol/src/ledger.rs`).

The loop takes what the reader has buffered, looks for a newline in it, stores what the cap still allows and drains
the rest. `RallyPoint.readLineCapped` says of a whole line what the ledger gets to see of it; here is the loop that
gets there over any buffered reader (`readLineLoop_spec`), and the loop around it (`readLines_eq`).
-/
import RallyPoint.Inbox
import RallyPoint.Lib.BufRead

namespace RallyPoint.CappedLines

open Lib

variable {σ : Type*}

/-! ## The loops -/

/-- Outcome of one capped line read. -/
structure LineRead where
  stored : Nat
  hadNewline : Bool
  truncated : Bool
  eof : Bool
  consumed : Nat
  deriving DecidableEq, Repr

def lengthOverflow : IoError := ⟨.invalidData, "ledger line length overflow"⟩

/-- The loop of `read_line_capped`, with its variables; `consumedTotal` is a `u64`. -/
def readLineLoop (R : BufRead UInt8 σ) (cap : Nat) (s : σ) (buf : List UInt8) (truncated any : Bool)
    (consumedTotal : Nat) : Except IoError (LineRead × List UInt8 × σ) :=
  let chunk := (R.fillBuf s).1
  if hend : chunk = [] then
    .ok ({ stored := buf.length, hadNewline := false, truncated, eof := !any, consumed := consumedTotal }, buf,
      (R.fillBuf s).2)
  else
    let nl := chunk.findIdx? (· == newline)
    let storeEnd := nl.getD chunk.length
    let room := cap - buf.length
    let take := min storeEnd room
    let buf' := if 0 < storeEnd then buf ++ chunk.take take else buf
    let truncated' := if 0 < storeEnd ∧ take < storeEnd then true else truncated
    let consumed := (nl.map (· + 1)).getD chunk.length
    let s' := R.consume (R.fillBuf s).2 consumed
    if 2 ^ 64 ≤ consumedTotal + consumed then .error lengthOverflow
    else
      if nl.isSome then
        .ok ({ stored := buf'.length, hadNewline := true, truncated := truncated', eof := false
               consumed := consumedTotal + consumed }, buf', s')
      else readLineLoop R cap s' buf' truncated' true (consumedTotal + consumed)
termination_by (R.stream s).length
decreasing_by
  -- without a newline all of the piece is consumed
  have hnone : (R.fillBuf s).1.findIdx? (· == newline) = none := Option.not_isSome_iff_eq_none.mp ‹_›
  rw [hnone]
  exact R.length_consume_lt s (List.length_pos_iff.mpr hend) le_rfl

/-- `read_line_capped`, which clears the buffer first. -/
def readLineCapped (R : BufRead UInt8 σ) (cap : Nat) (s : σ) : Except IoError (LineRead × List UInt8 × σ) :=
  readLineLoop R cap s [] false false 0

/-! ## One line -/

/-- What stands behind a line: nothing, or a newline and the rest of the stream. -/
def ending : Option (List UInt8) → List UInt8
  | none => []
  | some rest => newline :: rest

/-- The whole physical line, its newline counted. -/
def physical (line : List UInt8) (rest : Option (List UInt8)) : Nat := line.length + if rest.isSome then 1 else 0

theorem position_of_notMem {chunk : List UInt8} (h : newline ∉ chunk) : chunk.findIdx? (· == newline) = none := by
  rw [List.findIdx?_eq_none_iff]
  intro b hb
  exact beq_false_of_ne fun heq => h (heq ▸ hb)

theorem position_append {line rest : List UInt8} (h : newline ∉ line) :
    (line ++ newline :: rest).findIdx? (· == newline) = some line.length := by
  rw [List.findIdx?_append, position_of_notMem h, List.findIdx?_cons]
  simp

section Steps

variable {R : BufRead UInt8 σ} {cap : Nat} {s : σ} {buf line rest : List UInt8} {truncated any : Bool} {total : Nat}

theorem readLineLoop_end (hend : (R.fillBuf s).1 = []) :
    readLineLoop R cap s buf truncated any total =
      .ok ({ stored := buf.length, hadNewline := false, truncated, eof := !any, consumed := total }, buf,
        (R.fillBuf s).2) := by
  rw [readLineLoop, dif_pos hend]

/-- A piece inside the line: stored as far as there is room, consumed whole. -/
theorem readLineLoop_piece (hne : (R.fillBuf s).1 ≠ []) (hpiece : newline ∉ (R.fillBuf s).1) :
    readLineLoop R cap s buf truncated any total =
      if 2 ^ 64 ≤ total + (R.fillBuf s).1.length then .error lengthOverflow
      else readLineLoop R cap (R.consume (R.fillBuf s).2 (R.fillBuf s).1.length)
        (buf ++ (R.fillBuf s).1.take (cap - buf.length))
        (truncated || decide (cap - buf.length < (R.fillBuf s).1.length)) true (total + (R.fillBuf s).1.length) := by
  have hpos : 0 < (R.fillBuf s).1.length := List.length_pos_iff.mpr hne
  have htake : (R.fillBuf s).1.take (min (R.fillBuf s).1.length (cap - buf.length)) =
      (R.fillBuf s).1.take (cap - buf.length) := by
    rw [Nat.min_comm, ← List.take_take, List.take_length]
  have htrunc : (if min (R.fillBuf s).1.length (cap - buf.length) < (R.fillBuf s).1.length then true else truncated) =
      (truncated || decide (cap - buf.length < (R.fillBuf s).1.length)) := by
    by_cases hlong : cap - buf.length < (R.fillBuf s).1.length
    · rw [if_pos (by omega), decide_eq_true hlong, Bool.or_true]
    · rw [if_neg (by omega), decide_eq_false hlong, Bool.or_false]
  conv_lhs => rw [readLineLoop]
  rw [dif_neg hne]
  simp only [position_of_notMem hpiece, Option.getD_none, Option.map_none, hpos, if_true, true_and, htake, htrunc,
    Option.isSome_none, Bool.false_eq_true, if_false]

/-- A piece with the end of the line in it: what stands behind the newline stays in the reader. -/
theorem readLineLoop_line (hpiece : (R.fillBuf s).1 = line ++ newline :: rest) (hline : newline ∉ line) :
    readLineLoop R cap s buf truncated any total =
      if 2 ^ 64 ≤ total + (line.length + 1) then .error lengthOverflow
      else .ok ({ stored := (buf ++ line.take (cap - buf.length)).length, hadNewline := true
                  truncated := truncated || decide (cap - buf.length < line.length), eof := false
                  consumed := total + (line.length + 1) },
        buf ++ line.take (cap - buf.length), R.consume (R.fillBuf s).2 (line.length + 1)) := by
  have hne : (R.fillBuf s).1 ≠ [] := by
    rw [hpiece]
    exact List.append_ne_nil_of_right_ne_nil _ (List.cons_ne_nil _ _)
  have hstore : (if 0 < line.length then
      buf ++ (line ++ newline :: rest).take (min line.length (cap - buf.length)) else buf) =
      buf ++ line.take (cap - buf.length) := by
    split
    case isTrue =>
      rw [List.take_append_of_le_length (Nat.min_le_left _ _), Nat.min_comm, ← List.take_take, List.take_length]
    case isFalse hzero =>
      obtain rfl := List.length_eq_zero_iff.mp (Nat.eq_zero_of_not_pos hzero)
      rw [List.take_nil, List.append_nil]
  have htrunc : (if 0 < line.length ∧ min line.length (cap - buf.length) < line.length then true else truncated) =
      (truncated || decide (cap - buf.length < line.length)) := by
    by_cases hlong : cap - buf.length < line.length
    · rw [if_pos (by omega), decide_eq_true hlong, Bool.or_true]
    · rw [if_neg (by omega), decide_eq_false hlong, Bool.or_false]
  rw [readLineLoop, dif_neg hne]
  simp only [hpiece, position_append hline, Option.getD_some, Option.map_some, hstore, htrunc, Option.isSome_some,
    if_true]

end Steps

/-- **The loop on one line.** However the reader cuts the stream, the line is stored as far as the cap allows, what
exceeds the cap is noticed and drained, and the reader is left behind the line. -/
theorem readLineLoop_spec (R : BufRead UInt8 σ) (cap : Nat) {s : σ} {line : List UInt8} {rest : Option (List UInt8)}
    {buf : List UInt8} {truncated any : Bool} {total : Nat} (hstream : R.stream s = line ++ ending rest)
    (hline : newline ∉ line) (htotal : total < 2 ^ 64) :
    if total + physical line rest < 2 ^ 64 then
      ∃ s', readLineLoop R cap s buf truncated any total =
          .ok ({ stored := (buf ++ line.take (cap - buf.length)).length, hadNewline := rest.isSome
                 truncated := truncated || decide (cap - buf.length < line.length)
                 eof := !any && line.isEmpty && rest.isNone, consumed := total + physical line rest },
            buf ++ line.take (cap - buf.length), s') ∧
        R.stream s' = rest.getD []
    else readLineLoop R cap s buf truncated any total = .error lengthOverflow := by
  induction hlen : line.length using Nat.strong_induction_on generalizing s line buf truncated any total with
  | _ n ih =>
    subst hlen
    obtain ⟨after, hafter, hconsume⟩ := R.exists_rest s
    rw [hstream] at hafter
    by_cases hend : (R.fillBuf s).1 = []
    · -- the end of the stream: no line is left, and nothing stands behind it
      have hempty := R.eq_nil_of_fillBuf s hend
      rw [hstream] at hempty
      obtain ⟨rfl, hrest⟩ := List.append_eq_nil_iff.mp hempty
      cases rest with
      | some rest => cases hrest
      | none =>
        rw [if_pos (by simpa [physical] using htotal)]
        refine ⟨(R.fillBuf s).2, ?_, ?_⟩
        · rw [readLineLoop_end hend]
          simp [physical]
        · rw [R.stream_fillBuf, hstream]
          rfl
    · -- the piece ends inside the line or at its end, or it reaches over the newline
      have hcut : (∃ more, line = (R.fillBuf s).1 ++ more ∧ after = more ++ ending rest) ∨
          ∃ b c, (R.fillBuf s).1 = line ++ b :: c ∧ ending rest = b :: (c ++ after) := by
        rcases List.append_eq_append_iff.mp hafter with ⟨c, hpiece, hbehind⟩ | hinside
        · cases c with
          | nil => exact .inl ⟨[], by rw [hpiece, List.append_nil, List.append_nil], hbehind.symm⟩
          | cons b c => exact .inr ⟨b, c, hpiece, hbehind⟩
        · exact .inl hinside
      rcases hcut with ⟨more, hmore, hbehind⟩ | ⟨b, c, hpiece, hbehind⟩
      · have hpiece : newline ∉ (R.fillBuf s).1 := fun h => hline (hmore ▸ List.mem_append_left _ h)
        have hpos : 0 < (R.fillBuf s).1.length := List.length_pos_iff.mpr hend
        have hlength : line.length = (R.fillBuf s).1.length + more.length := by rw [hmore, List.length_append]
        have hphysical : physical line rest = (R.fillBuf s).1.length + physical more rest := by
          rw [physical, physical, hlength, Nat.add_assoc]
        rw [readLineLoop_piece hend hpiece, hphysical]
        by_cases hover : 2 ^ 64 ≤ total + (R.fillBuf s).1.length
        · rw [if_pos hover, if_neg (by omega)]
        · have hnext := hconsume (R.fillBuf s).1.length le_rfl
          rw [List.drop_length, List.nil_append, hbehind] at hnext
          have hgo := @ih more.length (by omega) _ more (buf ++ (R.fillBuf s).1.take (cap - buf.length))
            (truncated || decide (cap - buf.length < (R.fillBuf s).1.length)) true (total + (R.fillBuf s).1.length)
            hnext (fun h => hline (hmore ▸ List.mem_append_right _ h)) (by omega) rfl
          -- the room that is left for the rest of the line
          have hroom : cap - (buf ++ (R.fillBuf s).1.take (cap - buf.length)).length =
              cap - buf.length - (R.fillBuf s).1.length := by
            rw [List.length_append, List.length_take]
            omega
          have hstored : buf ++ (R.fillBuf s).1.take (cap - buf.length) ++
              more.take (cap - buf.length - (R.fillBuf s).1.length) = buf ++ line.take (cap - buf.length) := by
            rw [hmore, List.take_append, List.append_assoc]
          have htruncated : (truncated || decide (cap - buf.length < (R.fillBuf s).1.length) ||
              decide (cap - buf.length - (R.fillBuf s).1.length < more.length)) =
              (truncated || decide (cap - buf.length < line.length)) := by
            rw [Bool.or_assoc, ← Bool.decide_or]
            congr 2
            rw [hlength, eq_iff_iff]
            omega
          have heof : (!any && line.isEmpty && rest.isNone) = false := by
            rw [hmore, List.isEmpty_eq_false_iff.mpr (List.append_ne_nil_of_left_ne_nil hend _), Bool.and_false,
              Bool.false_and]
          rw [if_neg hover, ← Nat.add_assoc, heof]
          rw [hroom, hstored, htruncated] at hgo
          exact hgo
      · cases rest with
        | none => cases hbehind
        | some rest =>
          obtain ⟨rfl, hrest⟩ := List.cons.inj hbehind
          have hphysical : physical line (some rest) = line.length + 1 := rfl
          rw [readLineLoop_line hpiece hline, hphysical]
          split
          case isTrue hfits =>
            rw [if_neg (by omega)]
            refine ⟨R.consume (R.fillBuf s).2 (line.length + 1), by simp, ?_⟩
            rw [hconsume _ (by rw [hpiece]; simp), hpiece, hrest]
            simp
          case isFalse hover => rw [if_pos (by omega)]

/-- **One call**: the line up to the cap, and the reader behind the line. -/
theorem readLineCapped_spec (R : BufRead UInt8 σ) (cap : Nat) {s : σ} {line : List UInt8}
    {rest : Option (List UInt8)} (hstream : R.stream s = line ++ ending rest) (hline : newline ∉ line) :
    if physical line rest < 2 ^ 64 then
      ∃ s', readLineCapped R cap s =
          .ok ({ stored := (line.take cap).length, hadNewline := rest.isSome, truncated := decide (cap < line.length)
                 eof := line.isEmpty && rest.isNone, consumed := physical line rest }, line.take cap, s') ∧
        R.stream s' = rest.getD []
    else readLineCapped R cap s = .error lengthOverflow := by
  have h := @readLineLoop_spec _ R cap s line rest [] false false 0 hstream hline (by decide)
  simp only [List.nil_append, List.length_nil, Nat.sub_zero, Bool.false_or, Bool.not_false, Bool.true_and,
    Nat.zero_add] at h
  exact h

/-- Every stream begins with a line. -/
theorem exists_line (bytes : List UInt8) : ∃ line rest, bytes = line ++ ending rest ∧ newline ∉ line := by
  by_cases h : newline ∈ bytes
  · obtain ⟨line, rest, hbytes, hline⟩ := List.eq_append_cons_of_mem h
    exact ⟨line, some rest, hbytes, hline⟩
  · exact ⟨bytes, none, (List.append_nil _).symm, h⟩

theorem length_stream_lt {R : BufRead UInt8 σ} {cap : Nat} {s s' : σ} {line : LineRead} {buf : List UInt8}
    (hread : readLineCapped R cap s = .ok (line, buf, s')) (heof : line.eof = false) :
    (R.stream s').length < (R.stream s).length := by
  obtain ⟨text, rest, hstream, hline⟩ := exists_line (R.stream s)
  have hspec := readLineCapped_spec R cap hstream hline
  rw [hread] at hspec
  split at hspec
  case isTrue =>
    obtain ⟨s'', hok, hrest⟩ := hspec
    obtain ⟨rfl, -, rfl⟩ := Prod.mk.injEq .. ▸ Except.ok.inj hok
    rw [hrest, hstream]
    cases rest with
    | some rest => simp [ending]; omega
    | none =>
      cases text with
      | nil => cases heof
      | cons b text => simp [ending]
  case isFalse => cases hspec

/-! ## All lines -/

/-- Calls until the end of the stream; the buffer is the caller's and is read after each of them. -/
def readLines (R : BufRead UInt8 σ) (cap : Nat) (s : σ) : Except IoError (List (LineRead × List UInt8)) :=
  match hread : readLineCapped R cap s with
  | .error e => .error e
  | .ok (line, buf, s') =>
    if heof : line.eof then .ok []
    else
      have : (R.stream s').length < (R.stream s).length := length_stream_lt hread (by simpa using heof)
      (readLines R cap s').map ((line, buf) :: ·)
termination_by (R.stream s).length

theorem readLines_error {R : BufRead UInt8 σ} {cap : Nat} {s : σ} {e : IoError}
    (hread : readLineCapped R cap s = .error e) : readLines R cap s = .error e := by
  rw [readLines]
  split
  case h_1 e' h =>
    rw [hread] at h
    cases h
    rfl
  case h_2 h =>
    rw [hread] at h
    cases h

theorem readLines_ok {R : BufRead UInt8 σ} {cap : Nat} {s s' : σ} {line : LineRead} {buf : List UInt8}
    (hread : readLineCapped R cap s = .ok (line, buf, s')) :
    readLines R cap s = if line.eof then .ok [] else (readLines R cap s').map ((line, buf) :: ·) := by
  conv_lhs => rw [readLines]
  split
  case h_1 h =>
    rw [hread] at h
    cases h
  case h_2 line' buf' s'' h =>
    rw [hread] at h
    cases h
    by_cases heof : line.eof = true
    · rw [dif_pos heof, if_pos heof]
    · rw [dif_neg heof, if_neg heof]

/-- What a line of the stream is read as. -/
def seen (cap : Nat) (hadNewline : Bool) (line : List UInt8) : LineRead × List UInt8 :=
  ({ stored := (line.take cap).length, hadNewline, truncated := decide (cap < line.length), eof := false
     consumed := line.length + if hadNewline then 1 else 0 }, line.take cap)

/-- The lines of a stream, its completed ones and a last one without a newline, if there is one. -/
def splitLines (cap : Nat) (bytes : List UInt8) : List (LineRead × List UInt8) :=
  (frameReads newline bytes).map fun read => seen cap read.1 read.2

/-- The first line of a stream that is not at its end. -/
theorem splitLines_append (cap : Nat) {line : List UInt8} (hline : newline ∉ line) (rest : Option (List UInt8)) :
    splitLines cap (line ++ ending rest) =
      if line.isEmpty && rest.isNone then [] else seen cap rest.isSome line :: splitLines cap (rest.getD []) := by
  cases rest with
  | some rest =>
    rw [Option.isNone_some, Bool.and_false, if_neg Bool.false_ne_true]
    show splitLines cap (line ++ newline :: rest) = _
    rw [splitLines, frameReads, frames_frame_append hline]
    rfl
  | none =>
    rw [Option.isNone_none, Bool.and_true, ending, List.append_nil]
    rw [splitLines, frameReads, frames_of_notMem hline]
    cases line.isEmpty <;> rfl

/-- **The loop around the calls** ends and yields the lines of the stream, up to a line too long to count. -/
theorem readLines_eq (R : BufRead UInt8 σ) (cap : Nat) (s : σ) :
    readLines R cap s =
      if ∀ read ∈ splitLines cap (R.stream s), read.1.consumed < 2 ^ 64 then .ok (splitLines cap (R.stream s))
      else .error lengthOverflow := by
  induction hlen : (R.stream s).length using Nat.strong_induction_on generalizing s with
  | _ n ih =>
    subst hlen
    obtain ⟨line, rest, hstream, hline⟩ := exists_line (R.stream s)
    have hspec := readLineCapped_spec R cap hstream hline
    have hsplit := splitLines_append cap hline rest
    rw [← hstream] at hsplit
    rw [hsplit]
    by_cases hfits : physical line rest < 2 ^ 64
    · rw [if_pos hfits] at hspec
      obtain ⟨s', hread, hrest⟩ := hspec
      have hless := length_stream_lt hread
      rw [readLines_ok hread]
      cases hempty : line.isEmpty && rest.isNone with
      | true => simp
      | false =>
        rw [hempty] at hread hless
        have hagain := ih (R.stream s').length (hless rfl) s' rfl
        rw [hrest] at hagain
        rw [if_neg Bool.false_ne_true, if_neg Bool.false_ne_true, hagain]
        -- the first line fits, so all of them do when the others do
        have hfirst : (seen cap rest.isSome line).1.consumed < 2 ^ 64 := hfits
        simp only [List.forall_mem_cons, hfirst, true_and]
        split
        case isTrue => rfl
        case isFalse => rfl
    · rw [if_neg hfits] at hspec
      rw [readLines_error hspec]
      cases hempty : line.isEmpty && rest.isNone with
      | true =>
        -- the end of the stream fits
        rw [Bool.and_eq_true, List.isEmpty_iff, Option.isNone_iff_eq_none] at hempty
        obtain ⟨rfl, rfl⟩ := hempty
        exact absurd (by decide) hfits
      | false =>
        rw [if_neg Bool.false_ne_true, if_neg]
        intro hall
        exact hfits (hall _ List.mem_cons_self)

/-! ## The plain split -/

/-- Nothing of the stream is counted twice or left out. -/
theorem sumOf_consumed (cap : Nat) (bytes : List UInt8) :
    sumOf (fun read => read.1.consumed) (splitLines cap bytes) = bytes.length := by
  induction hlen : bytes.length using Nat.strong_induction_on generalizing bytes with
  | _ n ih =>
    subst hlen
    obtain ⟨line, rest, rfl, hline⟩ := exists_line bytes
    rw [splitLines_append cap hline]
    cases rest with
    | some rest =>
      have hrest := ih rest.length (by simp [ending]; omega) rest rfl
      rw [Option.isNone_some, Bool.and_false, if_neg Bool.false_ne_true, ← List.singleton_append, sumOf_append,
        Option.getD_some, hrest]
      show sumOf _ [seen cap true line] + rest.length = (line ++ newline :: rest).length
      rw [List.length_append, List.length_cons]
      simp only [sumOf, seen, List.foldl_cons, List.foldl_nil, if_true]
      omega
    | none =>
      cases line with
      | nil => rfl
      | cons b line => simp [sumOf, seen, ending, splitLines, frameReads, frames]

/-- **Capped line reading is the plain split at newlines**, for every stream, cap and way to cut the stream: the
completed lines and a nonempty last one without a newline, each stored up to the cap and marked when it is longer,
whose sizes add up to the stream; a line whose bytes no `u64` counts is refused. -/
theorem readLines_plain_split (R : BufRead UInt8 σ) (cap : Nat) (s : σ) :
    ∃ completed tail, R.stream s = framed newline completed ++ tail ∧ (∀ line ∈ completed, newline ∉ line) ∧
      newline ∉ tail ∧
      ∃ lines, lines = completed.map (seen cap true) ++ (if tail = [] then [] else [seen cap false tail]) ∧
        sumOf (fun read => read.1.consumed) lines = (R.stream s).length ∧
        readLines R cap s =
          if ∀ read ∈ lines, read.1.consumed < 2 ^ 64 then .ok lines else .error lengthOverflow := by
  have hlines : splitLines cap (R.stream s) = (frames newline (R.stream s)).1.map (seen cap true) ++
      (if (frames newline (R.stream s)).2 = [] then [] else [seen cap false (frames newline (R.stream s)).2]) := by
    rw [splitLines, frameReads, List.map_append, List.map_map]
    cases (frames newline (R.stream s)).2 <;> rfl
  refine ⟨(frames newline (R.stream s)).1, (frames newline (R.stream s)).2, (framed_frames _).symm, ?_, ?_, ?_⟩
  · exact (notMem_frames (R.stream s)).1
  · exact (notMem_frames (R.stream s)).2
  · exact ⟨splitLines cap (R.stream s), hlines, sumOf_consumed cap _, readLines_eq R cap s⟩

/-- The ledger's lines are what this loop hands to the reader of records. -/
theorem lineReads_eq (R : BufRead UInt8 σ) (s : σ) {lines : List (LineRead × List UInt8)}
    (hlines : readLines R maxLineBytes s = .ok lines) :
    lineReads (R.stream s) = lines.map fun read =>
      { content := read.2, hadNewline := read.1.hadNewline, truncated := read.1.truncated
        consumed := read.1.consumed } := by
  rw [readLines_eq] at hlines
  split at hlines
  case isTrue =>
    obtain rfl := Except.ok.inj hlines
    rw [lineReads, splitLines, List.map_map]
    rfl
  case isFalse => cases hlines

end RallyPoint.CappedLines
