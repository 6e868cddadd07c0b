/-
# RallyPoint.ActiveTail — the end of the active segment, which a crash may leave torn (`store.rs`).

An append adds one row and its newline to the active segment, and a crash may cut it anywhere. The next append looks
at what stands behind the last newline before it writes: a whole valid row gets the newline it lacks, a torn one is
cut off, and anything else refuses the append. Readers take the segment as it is. However often appends are cut, the
segment stays readable, holds every row whose text got there whole and nothing else, and the next append succeeds
(`canonical_append_crash_safe`).

While the reconcile sidecar vouches for the completed lines, the end is inspected, and the sequence it stands at is
found, by reading backwards. Both agree with reading everything (`inspectActiveSegmentTailBounded_ok_iff`,
`segmentTailSeq_eq`).
-/
import RallyPoint.Segments
import RallyPoint.Lib.TailScan

namespace RallyPoint.ActiveTail

open Lib

inductive ActiveTailRepair
  | none
  | addNewline
  | truncateTo (length : Nat)
  deriving DecidableEq, Repr

/-- The decoding of rows, and the class of its refusals: `isEof` is `serde_json::Error::is_eof`, true of a text that
ended too early. `render` is `serde_json::to_vec`. -/
structure RowCodec extends SegmentCodec where
  isEof : List UInt8 → Bool
  render : SegmentRow → List UInt8

section Inspect

variable (codec : RowCodec) (path : String)

/-- The loop over the completed lines, from a line number on. -/
def inspectCompleted : Nat → List (List UInt8) → Result Unit
  | _, [] => .ok ()
  | lineNumber, raw :: rest =>
    let bytes := stripCr raw
    if isBlankLine bytes then inspectCompleted (lineNumber + 1) rest
    else
      match codec.parseRow bytes with
      | .error e => .error (.message
          s!"completed canonical segment corruption in {path} at line {lineNumber}: {e}")
      | .ok entry =>
        match validateCanonicalLineAt codec.toSegmentCodec entry with
        | .error e => .error (.message
            s!"completed canonical segment corruption in {path} at line {lineNumber}: {e.text}")
        | .ok _ => inspectCompleted (lineNumber + 1) rest

/-- What the last line needs, which starts at an offset; `place` is how a refusal names it. -/
def inspectTail (completedEnd : Nat) (place : String) (tail : List UInt8) : Result ActiveTailRepair :=
  if tail.isEmpty then .ok .none
  else
    match codec.parseRow tail with
    | .ok entry =>
      match validateCanonicalLineAt codec.toSegmentCodec entry with
      | .error e => .error (.message s!"unterminated canonical segment corruption in {path} at {place}: {e.text}")
      | .ok _ => .ok .addNewline
    | .error e =>
      if codec.isEof tail then .ok (.truncateTo completedEnd)
      else .error (.message s!"unterminated canonical segment corruption in {path}: {e}; refusing mutation")

/-- The whole segment is read. An absent file is an empty one. -/
def inspectActiveSegmentTail (content : List UInt8) : Result ActiveTailRepair :=
  let (completed, tail) := frames newline content
  match inspectCompleted codec path 1 completed with
  | .error e => .error e
  | .ok () => inspectTail codec path (content.length - tail.length) s!"line {completed.length + 1}" tail

def tailChunk : ℕ+ := 65536

/-- Only the end of the segment is read, in chunks of 64 KiB. -/
def inspectActiveSegmentTailBounded (content : List UInt8) : Result ActiveTailRepair :=
  let (tail, completedEnd) := scanBack newline tailChunk content content.length []
  inspectTail codec path completedEnd "its final line" tail

/-- The sequence of the last completed line, 0 where there is none. -/
def newestSeq : Option (List UInt8) → Option Int
  | none => some 0
  | some raw => (codec.parseRow raw).toOption.map (·.seq)

/-- Sequence of the newest row, from an end of the segment that holds two newlines; `none` where it does not say. -/
def segmentTailSeq (content : List UInt8) : Option Int :=
  let read := readBack newline (1024 * 1024) content (8 * 1024) content.length []
  let (completed, fragment) := frames newline read
  let newest := newestSeq codec ((completed.map stripCr).reverse.find? fun raw => !isBlankLine raw)
  if isBlankLine fragment then newest
  else
    match codec.parseRow fragment with
    | .ok entry => some entry.seq
    | .error _ => newest

end Inspect

/-! ## An append -/

/-- The segment once `apply_active_tail_repair` has run. -/
def ActiveTailRepair.apply (content : List UInt8) : ActiveTailRepair → List UInt8
  | .none => content
  | .addNewline => content ++ [newline]
  | .truncateTo length => content.take length

section Append

variable (codec : RowCodec) (path : String)

/-- `OutcomeUnknown` of an event at a stage, as far as the file is concerned. -/
def outcomeUnknown (stage detail : String) : RallyError := .message s!"{stage}: {detail}"

/-- The repair and its reading back. -/
def applyActiveTailRepair (content : List UInt8) (repair : ActiveTailRepair) : Result (List UInt8) :=
  let repaired := repair.apply content
  if repair = .none then .ok repaired
  else
    match inspectActiveSegmentTail codec path repaired with
    | .ok .none => .ok repaired
    | .ok _ => .error (outcomeUnknown "tail-repair-readback" "tail still requires repair after sync")
    | .error e => .error (outcomeUnknown "tail-repair-readback" e.text)

/-- The bytes of a row. -/
def renderedRecord (entry : SegmentRow) : List UInt8 := codec.render entry ++ [newline]

/-- The row is written, and read back from where the segment ended before. -/
def appendCanonicalLineAndReadback (content : List UInt8) (entry : SegmentRow) : Result (List UInt8) :=
  let written := content ++ renderedRecord codec entry
  match readSegmentEntriesFrom codec.toSegmentCodec path written content.length with
  | .error e => .error (outcomeUnknown "canonical-readback" e.text)
  | .ok entries =>
    let exactMatches := entries.filter fun observed =>
      observed.seq == entry.seq && observed.eventType == entry.eventType && observed.payload == entry.payload &&
        observed.engagement == entry.engagement
    if exactMatches.length != 1 then
      .error (outcomeUnknown "canonical-readback"
        s!"expected exactly one full event_id/seq row, found {exactMatches.length}")
    else .ok written

/-- What an append does to the active segment. -/
def appendCanonical (content : List UInt8) (entry : SegmentRow) : Result (List UInt8) := do
  let repair ← inspectActiveSegmentTail codec path content
  let repaired ← applyActiveTailRepair codec path content repair
  appendCanonicalLineAndReadback codec path repaired entry

/-- Where an append is cut: before the repair, or behind so many bytes of the record. -/
inductive Cut
  | beforeRepair
  | behind (written : Nat)
  deriving DecidableEq, Repr

/-- The segment after an append that was cut. -/
def attempt (content : List UInt8) (step : SegmentRow × Cut) : List UInt8 :=
  match inspectActiveSegmentTail codec path content, step.2 with
  | .ok repair, .behind written => repair.apply content ++ (renderedRecord codec step.1).take written
  | _, _ => content

/-- Whether the text of the row got to the segment. -/
def landed (step : SegmentRow × Cut) : Bool :=
  match step.2 with
  | .beforeRepair => false
  | .behind written => decide ((codec.render step.1).length ≤ written)

end Append

/-! ## What the inspection says -/

/-- What JSON texts are: white space is not one, and a carriage return behind one does not matter. -/
structure RowCodec.Json (codec : RowCodec) : Prop where
  notBlank : ∀ bytes entry, codec.parseRow bytes = .ok entry → isBlankLine bytes = false
  trailing : ∀ bytes entry, codec.parseRow bytes = .ok entry → codec.parseRow (stripCr bytes) = .ok entry

/-- The codec serves a row: it is valid, its text is one line that reads back, and no cut of that text is whole. -/
structure RowCodec.Serves (codec : RowCodec) (entry : SegmentRow) : Prop where
  valid : validRow codec.toSegmentCodec entry = true
  parse_render : codec.parseRow (codec.render entry) = .ok entry
  oneLine : newline ∉ codec.render entry
  torn : ∀ p, p <+: codec.render entry → p ≠ codec.render entry → p ≠ [] →
    (codec.parseRow p).toOption = none ∧ codec.isEof p = true

section Spec

variable {codec : RowCodec} {path place : String} {content tail : List UInt8} {lines : List (List UInt8)}
variable {repair : ActiveTailRepair} {entry : SegmentRow} {rows : List SegmentRow} {offset n : Nat}

theorem inspectCompleted_ok_iff :
    inspectCompleted codec path n lines = .ok () ↔
      ∃ rows, gather (completedRow codec.toSegmentCodec) lines = some rows := by
  induction lines generalizing n with
  | nil => simp [inspectCompleted, gather]
  | cons line lines ih =>
    rw [inspectCompleted, gather, completedRow]
    cases hblank : isBlankLine (stripCr line) with
    | true => simp [ih]
    | false =>
      cases hparse : codec.parseRow (stripCr line) with
      | error e => simp
      | ok entry =>
        rcases validateCanonicalLineAt_cases codec.toSegmentCodec entry with ⟨fact, hval, hvalid⟩ | ⟨e, hval, hvalid⟩
        · simp [hval, hvalid, ih]
        · simp [hval, hvalid]

/-- **The last line:** there is none, or it is a whole valid row, or it ended too early. -/
theorem inspectTail_ok_iff :
    inspectTail codec path offset place tail = .ok repair ↔
      tail = [] ∧ repair = .none ∨
      tail ≠ [] ∧ (∃ entry, codec.parseRow tail = .ok entry ∧ validRow codec.toSegmentCodec entry = true) ∧
        repair = .addNewline ∨
      tail ≠ [] ∧ (codec.parseRow tail).toOption = none ∧ codec.isEof tail = true ∧ repair = .truncateTo offset := by
  rw [inspectTail]
  cases tail with
  | nil => simp [eq_comm (a := ActiveTailRepair.none)]
  | cons b rest =>
    rw [List.isEmpty_cons, if_neg (by decide)]
    cases hparse : codec.parseRow (b :: rest) with
    | error e =>
      cases heof : codec.isEof (b :: rest) with
      | true => simp [Except.toOption, eq_comm (a := ActiveTailRepair.truncateTo offset)]
      | false => simp [Except.toOption]
    | ok entry =>
      rcases validateCanonicalLineAt_cases codec.toSegmentCodec entry with ⟨fact, hval, hvalid⟩ | ⟨e, hval, hvalid⟩
      · simp [Except.toOption, hval, hvalid, eq_comm (a := ActiveTailRepair.addNewline)]
      · simp [Except.toOption, hval, hvalid]

theorem inspectActiveSegmentTail_ok_iff (place : String) :
    inspectActiveSegmentTail codec path content = .ok repair ↔
      (∃ rows, gather (completedRow codec.toSegmentCodec) (frames newline content).1 = some rows) ∧
        inspectTail codec path (content.length - (frames newline content).2.length) place (frames newline content).2 =
          .ok repair := by
  rw [inspectActiveSegmentTail, inspectTail_ok_iff]
  cases hdone : inspectCompleted codec path 1 (frames newline content).1 with
  | error e =>
    have hnone : ¬∃ rows, gather (completedRow codec.toSegmentCodec) (frames newline content).1 = some rows := by
      intro h
      have hok := hdone.symm.trans (inspectCompleted_ok_iff.mpr h)
      cases hok
    simp [hdone, hnone]
  | ok _ =>
    have hsome := inspectCompleted_ok_iff.mp hdone
    simp only [hdone, inspectTail_ok_iff, hsome, true_and]

/-- **Reading only the end** comes to the same repair, for a segment whose completed lines are all sound. -/
theorem inspectActiveSegmentTailBounded_ok_iff :
    inspectActiveSegmentTail codec path content = .ok repair ↔
      (∃ rows, gather (completedRow codec.toSegmentCodec) (frames newline content).1 = some rows) ∧
        inspectActiveSegmentTailBounded codec path content = .ok repair := by
  rw [inspectActiveSegmentTailBounded, scanBack_eq _ _ _ _ _ le_rfl, List.take_length, List.append_nil]
  exact inspectActiveSegmentTail_ok_iff _

end Spec

namespace TailSample

/-- `{"seq":1,"occurred_at":"2026-01-01T00:00:00Z","event_type":"claim",` and then
`"payload":{"event_id":"c1","kind":"claim"}}`. -/
def line : List UInt8 :=
  [123, 34, 115, 101, 113, 34, 58, 49, 44, 34, 111, 99, 99, 117, 114, 114, 101, 100, 95, 97, 116, 34, 58, 34,
    50, 48, 50, 54, 45, 48, 49, 45, 48, 49, 84, 48, 48, 58, 48, 48, 58, 48, 48, 90, 34, 44, 34, 101, 118, 101,
    110, 116, 95, 116, 121, 112, 101, 34, 58, 34, 99, 108, 97, 105, 109, 34, 44, 34, 112, 97, 121, 108, 111, 97,
    100, 34, 58, 123, 34, 101, 118, 101, 110, 116, 95, 105, 100, 34, 58, 34, 99, 49, 34, 44, 34, 107, 105, 110,
    100, 34, 58, 34, 99, 108, 97, 105, 109, 34, 125, 125]

/-- The text of the row of sequence 1, and the decoding of it and of its cuts. -/
def codec : RowCodec where
  parseRow bytes := if bytes = line then .ok (SegmentSample.row 1) else .error "EOF while parsing an object"
  parseFact := SegmentSample.codec.parseFact
  isEof bytes := decide (bytes <+: line)
  render _ := line

theorem line_of_parse {bytes : List UInt8} {entry : SegmentRow} (h : codec.parseRow bytes = .ok entry) :
    bytes = line := by
  by_contra hne
  have herror : codec.parseRow bytes = .error "EOF while parsing an object" := if_neg hne
  rw [herror] at h
  cases h

theorem json : codec.Json where
  notBlank bytes entry h := by
    rw [line_of_parse h]
    decide +kernel
  trailing bytes entry h := by
    have hstrip : stripCr bytes = bytes := by
      rw [line_of_parse h]
      decide +kernel
    rw [hstrip]
    exact h

theorem serves : codec.Serves (SegmentSample.row 1) where
  valid := by decide +kernel
  parse_render := by decide +kernel
  oneLine := by decide +kernel
  torn p hp hne _ := by
    have hparse : codec.parseRow p = .error "EOF while parsing an object" := if_neg hne
    rw [hparse]
    exact ⟨rfl, decide_eq_true hp⟩

end TailSample

/-! ## Appends that are cut -/

section Crash

variable {codec : RowCodec} {path : String} {content content' p : List UInt8} {lines : List (List UInt8)}
variable {repair : ActiveTailRepair} {entry : SegmentRow} {rows : List SegmentRow} {step : SegmentRow × Cut}

/-- A segment that an append goes on from: its end can be repaired, and it holds these rows. -/
def Recoverable (codec : RowCodec) (path : String) (content : List UInt8) (rows : List SegmentRow) : Prop :=
  (∃ repair, inspectActiveSegmentTail codec path content = .ok repair) ∧
    readSegmentEntries codec.toSegmentCodec path content = .ok rows

/-- Lines without newlines whose rows are these. -/
structure SoundLines (codec : RowCodec) (lines : List (List UInt8)) (rows : List SegmentRow) : Prop where
  oneLine : ∀ line ∈ lines, newline ∉ line
  rows : gather (completedRow codec.toSegmentCodec) lines = some rows

theorem isBlankLine_stripCr (bytes : List UInt8) : isBlankLine (stripCr bytes) = isBlankLine bytes := by
  rw [stripCr]
  split
  case isTrue hlast =>
    obtain ⟨front, rfl⟩ := List.getLast?_eq_some_iff.mp hlast
    rw [List.dropLast_concat, isBlankLine, isBlankLine, List.all_append]
    show _ = (front.all isAsciiWhitespace && true)
    rw [Bool.and_true]
  case isFalse => rfl

/-- A whole valid row is one more sound line. -/
theorem completedRow_of_parse (hjson : codec.Json) (hparse : codec.parseRow p = .ok entry)
    (hvalid : validRow codec.toSegmentCodec entry = true) : completedRow codec.toSegmentCodec p = some [entry] := by
  have hblank := hjson.notBlank p entry hparse
  have htrailing := hjson.trailing p entry hparse
  rw [completedRow, isBlankLine_stripCr, hblank, htrailing]
  simp only [Bool.false_eq_true, if_false, hvalid, if_true]

theorem SoundLines.snoc (h : SoundLines codec lines rows) (hp : newline ∉ p)
    (hrow : completedRow codec.toSegmentCodec p = some [entry]) :
    SoundLines codec (lines ++ [p]) (rows ++ [entry]) where
  oneLine := by
    rw [List.forall_mem_append, List.forall_mem_singleton]
    exact ⟨h.oneLine, hp⟩
  rows := by
    rw [gather_append_eq_some_iff]
    exact ⟨rows, [entry], h.rows, by rw [gather_singleton, hrow], rfl⟩

theorem SoundLines.frames (h : SoundLines codec lines rows) (hp : newline ∉ p) :
    frames newline (framed newline lines ++ p) = (lines, p) := by
  rw [frames_framed_append h.oneLine, frames_of_notMem hp, List.append_nil]

/-- **The repair** leaves sound lines, with just the rows that were there. -/
theorem sound_of_inspect (hjson : codec.Json) (h : inspectActiveSegmentTail codec path content = .ok repair) :
    ∃ lines rows, SoundLines codec lines rows ∧ repair.apply content = framed newline lines ∧
      readSegmentEntries codec.toSegmentCodec path content = .ok rows := by
  obtain ⟨⟨done, hdone⟩, htail⟩ := (inspectActiveSegmentTail_ok_iff "").mp h
  have hcontent := @framed_frames _ _ newline content
  have hfree := @notMem_frames _ _ newline content
  have hread : ¬TailFailsValidation codec.toSegmentCodec (Lib.frames newline content).2 →
      readSegmentEntries codec.toSegmentCodec path content =
        .ok (done ++ tailRow codec.toSegmentCodec (Lib.frames newline content).2) := fun hno =>
    readSegmentEntries_ok_iff.mpr ⟨done, hdone, hno, rfl⟩
  generalize (Lib.frames newline content).1 = lines at *
  generalize (Lib.frames newline content).2 = tail at *
  have hsound : SoundLines codec lines done := ⟨hfree.1, hdone⟩
  rcases inspectTail_ok_iff.mp htail with ⟨rfl, rfl⟩ | ⟨hne, ⟨entry, hparse, hvalid⟩, rfl⟩ | ⟨hne, hnone, heof, rfl⟩
  · refine ⟨lines, done, hsound, ?_, ?_⟩
    · show content = _
      rw [← hcontent, List.append_nil]
    · rw [hread fun hfail => absurd hfail.1 (by decide)]
      exact congrArg Except.ok (List.append_nil done)
  · have hrow := completedRow_of_parse hjson hparse hvalid
    have hblank := hjson.notBlank tail entry hparse
    refine ⟨lines ++ [tail], done ++ [entry], hsound.snoc hfree.2 hrow, ?_, ?_⟩
    · show content ++ [newline] = _
      rw [framed_append, framed_cons, framed_nil, ← hcontent, List.append_assoc]
    · rw [hread, tailRow, hblank, hparse]
      · simp only [Bool.false_eq_true, if_false, hvalid, if_true]
      · rintro ⟨-, other, hother, hinvalid⟩
        rw [hparse] at hother
        rw [← Except.ok.inj hother, hvalid] at hinvalid
        cases hinvalid
  · have hrow : tailRow codec.toSegmentCodec tail = [] := by
      rw [tailRow]
      cases hparse : codec.parseRow tail with
      | ok entry => rw [hparse] at hnone; cases hnone
      | error e => exact ite_self _
    refine ⟨lines, done, hsound, ?_, ?_⟩
    · show content.take _ = _
      rw [← hcontent, List.length_append, Nat.add_sub_cancel, List.take_left]
    · rw [hread, hrow, List.append_nil]
      rintro ⟨-, other, hother, -⟩
      rw [hother] at hnone
      cases hnone

theorem SoundLines.inspect (h : SoundLines codec lines rows) :
    inspectActiveSegmentTail codec path (framed newline lines) = .ok .none := by
  rw [inspectActiveSegmentTail_ok_iff "", ← List.append_nil (framed newline lines),
    h.frames List.not_mem_nil, inspectTail_ok_iff]
  exact ⟨⟨rows, h.rows⟩, .inl ⟨rfl, rfl⟩⟩

theorem SoundLines.recoverable (h : SoundLines codec lines rows) :
    Recoverable codec path (framed newline lines) rows := by
  refine ⟨⟨_, h.inspect⟩, readSegmentEntries_ok_iff.mpr ?_⟩
  rw [← List.append_nil (framed newline lines), h.frames List.not_mem_nil]
  exact ⟨rows, h.rows, fun ⟨hblank, _⟩ => Bool.noConfusion (hblank : true = false), (List.append_nil rows).symm⟩

/-- Behind sound lines, a cut of a row's text is torn and ignored, and the whole text is a row. -/
theorem SoundLines.recoverable_cut (h : SoundLines codec lines rows) (hjson : codec.Json)
    (hserves : codec.Serves entry) (hp : p <+: codec.render entry) :
    Recoverable codec path (framed newline lines ++ p) (rows ++ if p = codec.render entry then [entry] else []) := by
  have hfree : newline ∉ p := fun hmem => hserves.oneLine (hp.subset hmem)
  rcases eq_or_ne p [] with rfl | hne
  · have hrender : [] ≠ codec.render entry := by
      intro hnil
      have hblank := hjson.notBlank _ _ hserves.parse_render
      rw [← hnil] at hblank
      cases hblank
    rw [if_neg hrender, List.append_nil, List.append_nil]
    exact h.recoverable
  · -- the cut is the last line
    have htail : ∃ repair, inspectTail codec path (framed newline lines).length "" p = .ok repair := by
      rcases eq_or_ne p (codec.render entry) with rfl | htorn
      · exact ⟨_, inspectTail_ok_iff.mpr (.inr (.inl ⟨hne, ⟨entry, hserves.parse_render, hserves.valid⟩, rfl⟩))⟩
      · obtain ⟨hnone, heof⟩ := hserves.torn p hp htorn hne
        exact ⟨_, inspectTail_ok_iff.mpr (.inr (.inr ⟨hne, hnone, heof, rfl⟩))⟩
    obtain ⟨repair, htail⟩ := htail
    have hinspect : inspectActiveSegmentTail codec path (framed newline lines ++ p) = .ok repair := by
      rw [inspectActiveSegmentTail_ok_iff "", h.frames hfree, List.length_append, Nat.add_sub_cancel]
      exact ⟨⟨rows, h.rows⟩, htail⟩
    refine ⟨⟨repair, hinspect⟩, ?_⟩
    rw [readSegmentEntries_ok_iff, h.frames hfree]
    refine ⟨rows, h.rows, ?_, ?_⟩
    · rintro ⟨-, other, hother, hinvalid⟩
      rcases eq_or_ne p (codec.render entry) with rfl | htorn
      · rw [hserves.parse_render] at hother
        rw [← Except.ok.inj hother, hserves.valid] at hinvalid
        cases hinvalid
      · have hnone := (hserves.torn p hp htorn hne).1
        rw [hother] at hnone
        cases hnone
    · apply congrArg (rows ++ ·)
      rcases eq_or_ne p (codec.render entry) with rfl | htorn
      · rw [if_pos rfl, tailRow, hjson.notBlank _ _ hserves.parse_render, hserves.parse_render]
        simp only [Bool.false_eq_true, if_false, hserves.valid, if_true]
      · rw [if_neg htorn, tailRow]
        have hnone := (hserves.torn p hp htorn hne).1
        cases hparse : codec.parseRow p with
        | ok other => rw [hparse] at hnone; cases hnone
        | error e => exact (ite_self _).symm

theorem SoundLines.record (h : SoundLines codec lines rows) (hjson : codec.Json) (hserves : codec.Serves entry) :
    SoundLines codec (lines ++ [codec.render entry]) (rows ++ [entry]) :=
  h.snoc hserves.oneLine (completedRow_of_parse hjson hserves.parse_render hserves.valid)

theorem framed_record (lines : List (List UInt8)) (entry : SegmentRow) :
    framed newline lines ++ renderedRecord codec entry = framed newline (lines ++ [codec.render entry]) := by
  rw [renderedRecord, framed_append, framed_cons, framed_nil]

/-- The rows that got to the segment in a run of appends. -/
def landedRows (codec : RowCodec) (steps : List (SegmentRow × Cut)) : List SegmentRow :=
  (steps.filter (landed codec)).map (·.1)

/-- **One append, cut anywhere:** what could be read still can, and the row is there if its text is. -/
theorem Recoverable.attempt (hjson : codec.Json) (h : Recoverable codec path content rows)
    (hserves : codec.Serves step.1) :
    Recoverable codec path (attempt codec path content step) (rows ++ landedRows codec [step]) := by
  obtain ⟨⟨repair, hrepair⟩, hread⟩ := h
  obtain ⟨lines, rows', hsound, happly, hread'⟩ := sound_of_inspect hjson hrepair
  obtain rfl := Except.ok.inj (hread.symm.trans hread')
  obtain ⟨entry, cut⟩ := step
  rw [ActiveTail.attempt, hrepair]
  cases cut with
  | beforeRepair =>
    show Recoverable codec path content (rows ++ [])
    rw [List.append_nil]
    exact ⟨⟨repair, hrepair⟩, hread⟩
  | behind written =>
    show Recoverable codec path (repair.apply content ++ (renderedRecord codec entry).take written) _
    rw [happly]
    rcases Nat.lt_or_ge (codec.render entry).length written with hlong | hshort
    · -- the newline was written too
      have hlanded : landedRows codec [(entry, .behind written)] = [entry] := by
        simp [landedRows, landed, hlong.le]
      rw [List.take_of_length_le (by rw [renderedRecord, List.length_append]; exact hlong), framed_record, hlanded]
      exact (hsound.record hjson hserves).recoverable
    · rw [renderedRecord, List.take_append_of_le_length hshort]
      have hcut : Recoverable codec path (framed newline lines ++ (codec.render entry).take written) _ :=
        hsound.recoverable_cut hjson hserves (List.take_prefix written (codec.render entry))
      have hlanded : landedRows codec [(entry, .behind written)] =
          if (codec.render entry).take written = codec.render entry then [entry] else [] := by
        by_cases hwhole : (codec.render entry).length ≤ written <;>
          simp [landedRows, landed, hwhole, List.take_eq_self_iff]
      rw [hlanded]
      exact hcut

theorem landedRows_append (xs ys : List (SegmentRow × Cut)) :
    landedRows codec (xs ++ ys) = landedRows codec xs ++ landedRows codec ys := by
  rw [landedRows, List.filter_append, List.map_append]
  rfl

/-- A run of appends, each cut somewhere. -/
theorem Recoverable.run (hjson : codec.Json) {steps : List (SegmentRow × Cut)}
    (h : Recoverable codec path content rows) (hserves : ∀ step ∈ steps, codec.Serves step.1) :
    Recoverable codec path (steps.foldl (ActiveTail.attempt codec path) content)
      (rows ++ landedRows codec steps) := by
  induction steps generalizing content rows with
  | nil =>
    show Recoverable codec path content (rows ++ [])
    rwa [List.append_nil]
  | cons step steps ih =>
    rw [List.forall_mem_cons] at hserves
    have hnext := ih (h.attempt hjson hserves.1) hserves.2
    rw [List.append_assoc, ← landedRows_append] at hnext
    exact hnext

/-- **An append that is not cut** succeeds: it leaves completed lines, with its row behind the others. -/
theorem Recoverable.append (hjson : codec.Json) (h : Recoverable codec path content rows)
    (hserves : codec.Serves entry) :
    ∃ content', appendCanonical codec path content entry = .ok content' ∧
      readSegmentEntriesStrict codec.toSegmentCodec path content' = .ok (rows ++ [entry]) := by
  obtain ⟨⟨repair, hrepair⟩, hread⟩ := h
  obtain ⟨lines, rows', hsound, happly, hread'⟩ := sound_of_inspect hjson hrepair
  obtain rfl := Except.ok.inj (hread.symm.trans hread')
  have hrepaired : applyActiveTailRepair codec path content repair = .ok (framed newline lines) := by
    rw [applyActiveTailRepair, happly, hsound.inspect]
    exact ite_self _
  have hrecord := hsound.record hjson hserves
  -- what is read back is what stands behind the old end
  have hback : readSegmentEntriesFrom codec.toSegmentCodec path (framed newline lines ++ renderedRecord codec entry)
      (framed newline lines).length = .ok [entry] := by
    rw [readSegmentEntriesFrom_ok_iff, List.drop_left, renderedRecord, frames_frame_append hserves.oneLine]
    refine ⟨[entry], ?_, rfl⟩
    show gather _ [codec.render entry] = _
    rw [gather_singleton, completedRow_of_parse hjson hserves.parse_render hserves.valid]
  refine ⟨framed newline (lines ++ [codec.render entry]), ?_, ?_⟩
  · rw [appendCanonical, hrepair]
    show (applyActiveTailRepair codec path content repair >>= _) = _
    rw [hrepaired]
    show appendCanonicalLineAndReadback codec path (framed newline lines) entry = _
    rw [appendCanonicalLineAndReadback, hback, framed_record]
    simp
  · rw [readSegmentEntriesStrict_framed hrecord.oneLine]
    exact hrecord.rows

end Crash

section TailSeq

variable {codec : RowCodec} {path : String} {content : List UInt8} {rows : List SegmentRow}

/-- The loop of reading back shows the last completed line and the tail. -/
theorem frames_readBack (limit step : ℕ+) (content : List UInt8) :
    (frames newline (readBack newline limit content step content.length [])).1.getLast? =
        (frames newline content).1.getLast? ∧
      (frames newline (readBack newline limit content step content.length [])).2 = (frames newline content).2 := by
  obtain ⟨skipped, hcontent, hend⟩ := readBack_spec newline limit content step content.length
  rw [List.drop_length] at hcontent hend
  generalize readBack newline limit content step content.length [] = read at *
  rw [hcontent]
  rcases hend with rfl | htwo
  · exact ⟨rfl, rfl⟩
  · have h := frames_of_two skipped htwo
    exact ⟨h.1.symm, h.2.symm⟩

/-- The newest row of completed lines, the last of which is not blank. -/
theorem find_last_line {completed : List (List UInt8)}
    (hlast : ∀ line ∈ completed.getLast?, isBlankLine line = false) :
    ((completed.map stripCr).reverse.find? fun raw => !isBlankLine raw) = completed.getLast?.map stripCr := by
  rcases List.eq_nil_or_concat' completed with rfl | ⟨front, line, rfl⟩
  · rfl
  · have hblank := hlast line (by rw [List.getLast?_concat]; rfl)
    rw [List.map_append, List.map_singleton, List.reverse_concat, List.getLast?_concat, List.find?_cons_of_pos]
    · rfl
    · rw [isBlankLine_stripCr, hblank]
      rfl

/-- The newest row of sound lines that end in one. -/
theorem newest_of_gather {completed : List (List UInt8)} {done : List SegmentRow}
    (hdone : gather (completedRow codec.toSegmentCodec) completed = some done)
    (hlast : ∀ line ∈ completed.getLast?, isBlankLine line = false) :
    newestSeq codec (completed.getLast?.map stripCr) = some ((done.getLast?.map (·.seq)).getD 0) := by
  rcases List.eq_nil_or_concat' completed with rfl | ⟨front, line, rfl⟩
  · obtain rfl := Option.some.inj hdone
    rfl
  · have hblank := hlast line (by rw [List.getLast?_concat]; rfl)
    obtain ⟨before, here, -, hhere, rfl⟩ := gather_append_eq_some_iff.mp hdone
    rw [gather_singleton, completedRow, isBlankLine_stripCr, hblank] at hhere
    rw [List.getLast?_concat]
    show (codec.parseRow (stripCr line)).toOption.map (·.seq) = _
    cases hparse : codec.parseRow (stripCr line) with
    | error e =>
      rw [hparse] at hhere
      cases hhere
    | ok entry =>
      rw [hparse] at hhere
      dsimp only at hhere
      split at hhere
      case isTrue hblank' => cases hblank'
      case isFalse =>
        split at hhere
        case isFalse => cases hhere
        case isTrue =>
          obtain rfl := Option.some.inj hhere
          rw [List.getLast?_concat]
          rfl

/-- **The end of a segment says its sequence**, however far back it has to be read: for a segment that can be read and
whose last completed line is not blank, it is the sequence of its last row, and 0 where there is no row. -/
theorem segmentTailSeq_eq (hread : readSegmentEntries codec.toSegmentCodec path content = .ok rows)
    (hlast : ∀ line ∈ (frames newline content).1.getLast?, isBlankLine line = false) :
    segmentTailSeq codec content = some ((rows.getLast?.map (·.seq)).getD 0) := by
  obtain ⟨done, hdone, hvalid, rfl⟩ := readSegmentEntries_ok_iff.mp hread
  obtain ⟨hline, htail⟩ := frames_readBack (1024 * 1024) (8 * 1024) content
  have hnewest := newest_of_gather hdone hlast
  rw [segmentTailSeq]
  generalize frames newline (readBack newline (1024 * 1024) content (8 * 1024) content.length []) = read at *
  obtain ⟨completed, fragment⟩ := read
  dsimp only at hline htail ⊢
  rw [find_last_line (by rw [hline]; exact hlast), hline, hnewest, htail, tailRow]
  cases hblank : isBlankLine (frames newline content).2 with
  | true =>
    show _ = some (((done ++ []).getLast?.map SegmentRow.seq).getD 0)
    rw [List.append_nil]
    rfl
  | false =>
    cases hparse : codec.parseRow (frames newline content).2 with
    | error e =>
      show _ = some (((done ++ []).getLast?.map SegmentRow.seq).getD 0)
      rw [List.append_nil]
      rfl
    | ok entry =>
      have hentry : validRow codec.toSegmentCodec entry = true := by
        cases hv : validRow codec.toSegmentCodec entry with
        | true => rfl
        | false => exact absurd ⟨hblank, entry, hparse, hv⟩ hvalid
      show some entry.seq = _
      simp [hentry]

end TailSeq

/-- A sound row and a torn one behind it. -/
theorem segmentTailSeq_eq_torn :
    segmentTailSeq TailSample.codec (TailSample.line ++ newline :: TailSample.line.take 20) =
      some (([SegmentSample.row 1].getLast?.map (·.seq)).getD 0) :=
  @segmentTailSeq_eq TailSample.codec "log/a.jsonl" _ _ (by decide +kernel) fun line hline => by
    have hlast : (frames newline (TailSample.line ++ newline :: TailSample.line.take 20)).1.getLast? =
        some TailSample.line := by decide +kernel
    rw [hlast, Option.mem_some_iff] at hline
    rw [← hline]
    decide +kernel

end RallyPoint.ActiveTail
