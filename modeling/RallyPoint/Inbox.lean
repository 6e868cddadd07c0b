/-
# RallyPoint.Inbox — the file-backed inbox: directives and receipts (`rally-protocol/src/ledger.rs`).

Each agent has one JSONL file of directives and one of receipts. A crash may cut an append anywhere, and the
reader forgives exactly one thing: a last line without its newline. What becomes of that line is up to the
next append. `appendDirective` looks at the tail first and completes it or cuts it off, so no directive is
ever lost or unreadable (`appendDirective_crash_safe`). `appendReceipt` writes straight behind it, so the
torn line and the new receipt become one completed line that no reader accepts
(`receipts_survive_torn_write_iff`).

JSON is outside: `RecordCodec` is what the ledger calls, and the laws its results rest on are hypotheses
about the records written.
-/
import RallyPoint.Delivery
import RallyPoint.Lib.Check
import RallyPoint.Lib.Frames

namespace RallyPoint

open Lib

/-! ## Records -/

def maxDirectiveTextBytes : Nat := 64 * 1024

def maxLineBytes : Nat := maxDirectiveTextBytes + 8 * 1024

def u64Max : Nat := 18446744073709551615

/-- The `io::ErrorKind`s the ledger raises itself. -/
inductive IoErrorKind
  | invalidInput | invalidData
  deriving DecidableEq, Repr

structure IoError where
  kind : IoErrorKind
  message : String
  deriving DecidableEq, Repr

/-- A directive as an inbox file holds it. `rest` is the JSON of the fields the ledger only carries. -/
structure InboxDirective extends Directive where
  seq : Nat
  rest : String := ""
  deriving DecidableEq, Repr

inductive DeliveryStatus
  | pending | delivered | seen | acted | failed
  deriving DecidableEq, Repr

/-- What happened to a directive; `refSeq` 0 is a daemon heartbeat. `toAgent` is the source's `to`. -/
structure Receipt where
  refSeq : Nat
  toAgent : String
  status : DeliveryStatus
  postedBy : String
  evidence : Option String := none
  error : Option String := none
  ts : F64
  deriving DecidableEq, Repr

/-- `serde_json::to_string` and `from_utf8` followed by `from_str`. -/
structure RecordCodec (τ : Type) where
  render : τ → List UInt8
  parse : List UInt8 → Except String τ

/-- The codec serves a record: its text is one line that opens an object, and reads back. -/
structure RecordCodec.Serves {τ : Type} (codec : RecordCodec τ) (record : τ) : Prop where
  parse_render : codec.parse (codec.render record) = .ok record
  one_line : newline ∉ codec.render record
  opens : (codec.render record).head? = some 123

/-- A text that opens an object is not blank, however it goes on. -/
theorem isBlankLine_of_opens {bytes : List UInt8} (h : bytes.head? = some 123) : isBlankLine bytes = false := by
  cases bytes with
  | nil => cases h
  | cons b rest =>
    rw [List.head?_cons, Option.some.injEq] at h
    rw [h]
    rfl

theorem RecordCodec.Serves.notBlank {τ : Type} {codec : RecordCodec τ} {record : τ} (h : codec.Serves record) :
    isBlankLine (codec.render record) = false :=
  isBlankLine_of_opens h.opens

/-! ## Agent ids -/

def maxAgentIdLen : Nat := 64

def maxAgentIdProseWords : Nat := 8

def isAsciiAlphabetic (c : Char) : Bool := ('a' ≤ c && c ≤ 'z') || ('A' ≤ c && c ≤ 'Z')

/-- The allowlist `[A-Za-z0-9:_-]`. -/
def allowedInAgentId (c : Char) : Bool :=
  isAsciiAlphabetic c || ('0' ≤ c && c ≤ '9') || [':', '_', '-'].contains c

/-- The loop over the characters: words so far, length of the current run, whether it has a vowel. -/
def proseWordsLoop (words run : Nat) (vowel : Bool) : List Char → Nat
  | [] => words
  | c :: rest =>
    if isAsciiAlphabetic c then
      proseWordsLoop words (run + 1)
        (vowel || ['a', 'e', 'i', 'o', 'u', 'y'].contains (asciiLowerChar c)) rest
    else proseWordsLoop (if run ≥ 3 && vowel then words + 1 else words) 0 false rest

/-- Runs of three or more ASCII letters with a vowel; a final NUL ends the last run. -/
def agentIdProseWords (agent : String) : Nat :=
  proseWordsLoop 0 0 false (agent.toList ++ [Char.ofNat 0])

def validateAgentId (agent : String) : Except IoError Unit :=
  if agent.toList.isEmpty then .error ⟨.invalidInput, "agent id is empty"⟩
  else if byteLen agent > maxAgentIdLen then
    .error ⟨.invalidInput, s!"agent id exceeds {maxAgentIdLen} bytes"⟩
  else if agentIdProseWords agent > maxAgentIdProseWords then
    .error ⟨.invalidInput, s!"agent id reads as prose ({agentIdProseWords agent} words, limit " ++
      s!"{maxAgentIdProseWords}) — an id is rendered into a model context, so it must name an agent, not " ++
      "address one"⟩
  else if startsWith "." agent then .error ⟨.invalidInput, "agent id must not start with '.'"⟩
  else if containsStr ".." agent || agent.toList.contains '/' ||
      agent.toList.contains (Char.ofNat 92) then
    .error ⟨.invalidInput, "agent id must not contain path separators or '..'"⟩
  else
    match agent.toList.find? fun c => !allowedInAgentId c with
    | some bad => .error ⟨.invalidInput,
        s!"agent id contains disallowed character {Char.quote bad} (allowlist [A-Za-z0-9:_-])"⟩
    | none => .ok ()

/-! ## Capped lines -/

/-- One capped line read; `content` is what was stored of the line, its newline left out. -/
structure LineRead where
  content : List UInt8
  hadNewline : Bool
  truncated : Bool
  consumed : Nat

/-- `read_line_capped`: at most `cap` bytes are stored, the whole physical line is consumed. -/
def readLineCapped (cap : Nat) (read : Bool × List UInt8) : LineRead where
  content := read.2.take cap
  hadNewline := read.1
  truncated := cap < read.2.length
  consumed := read.2.length + if read.1 then 1 else 0

section

variable {cap : Nat} {read : Bool × List UInt8}

@[simp] theorem readLineCapped_hadNewline : (readLineCapped cap read).hadNewline = read.1 := rfl

@[simp] theorem readLineCapped_truncated : (readLineCapped cap read).truncated = decide (cap < read.2.length) :=
  rfl

@[simp] theorem readLineCapped_consumed {line : List UInt8} :
    (readLineCapped cap (true, line)).consumed = line.length + 1 := rfl

/-- A line under the cap is stored whole. -/
theorem readLineCapped_content (h : ¬cap < read.2.length) : (readLineCapped cap read).content = read.2 :=
  List.take_of_length_le (Nat.not_lt.mp h)

end

/-- The lines of a file as the ledger reads them. -/
def lineReads (content : List UInt8) : List LineRead :=
  (frameReads newline content).map (readLineCapped maxLineBytes)

def corruptLineError (path reason : String) : IoError :=
  ⟨.invalidData, s!"corrupt jsonl line in {path}: {reason}"⟩

section Reading

variable {τ : Type} (codec : RecordCodec τ) (path : String)

/-- The loop of `read_jsonl_since`. -/
def readRecords (field : τ → Nat) (after : Nat) : List LineRead → Except IoError (List τ)
  | [] => .ok []
  | lr :: rest =>
    if lr.truncated then
      -- an overlong completed line is skipped, an overlong tail ends the reading
      if lr.hadNewline then readRecords field after rest else .ok []
    else if isBlankLine lr.content then readRecords field after rest
    else
      match codec.parse lr.content with
      | .ok record =>
        (readRecords field after rest).map fun out => if field record > after then record :: out else out
      | .error e => if !lr.hadNewline then .ok [] else .error (corruptLineError path e)

def readJsonlSince (field : τ → Nat) (after : Nat) (content : List UInt8) : Except IoError (List τ) :=
  readRecords codec path field after (lineReads content)

/-- The record of a completed line: nothing for a blank or an overlong one, a refusal for a corrupt one. -/
def completedRecord (line : List UInt8) : Option (List τ) :=
  if maxLineBytes < line.length || isBlankLine line then some []
  else
    match codec.parse line with
    | .ok record => some [record]
    | .error _ => none

/-- The record of a last line without its newline, if it is whole. -/
def tailRecord (tail : List UInt8) : List τ :=
  if maxLineBytes < tail.length || isBlankLine tail then []
  else
    match codec.parse tail with
    | .ok record => [record]
    | .error _ => []

section Spec

variable {codec : RecordCodec τ} {path : String} {field : τ → Nat} {after : Nat}
variable {lines : List (List UInt8)} {tail content : List UInt8} {out : List τ}

theorem readRecords_completed (rest : List LineRead) :
    readRecords codec path field after (lines.map (fun l => readLineCapped maxLineBytes (true, l)) ++ rest) =
        .ok out ↔
      ∃ done later, gather (completedRecord codec) lines = some done ∧
        readRecords codec path field after rest = .ok later ∧
        out = done.filter (field · > after) ++ later := by
  induction lines generalizing out with
  | nil => simp [gather]
  | cons line lines ih =>
    rw [List.map_cons, List.cons_append, readRecords, gather, completedRecord]
    by_cases hlong : maxLineBytes < line.length
    case pos => simp [hlong, ih]
    case neg =>
      rw [readLineCapped_content hlong]
      cases hblank : isBlankLine line with
      | true => simp [hlong, ih]
      | false =>
        cases hparse : codec.parse line with
        | error e => simp [hlong]
        | ok record =>
          simp only [readLineCapped_hadNewline, readLineCapped_truncated, hlong, map_eq_ok_iff, ih, decide_false,
            Bool.false_eq_true, if_false, Bool.or_false, Option.bind_some, Option.map_eq_some_iff]
          constructor
          · rintro ⟨_, ⟨done, later, hdone, hlater, rfl⟩, rfl⟩
            refine ⟨record :: done, later, ⟨done, hdone, rfl⟩, hlater, ?_⟩
            by_cases hfield : field record > after <;> simp [hfield]
          · rintro ⟨_, later, ⟨done, hdone, rfl⟩, hlater, rfl⟩
            refine ⟨done.filter (field · > after) ++ later, ⟨done, later, hdone, hlater, rfl⟩, ?_⟩
            by_cases hfield : field record > after <;> simp [hfield]

theorem readRecords_tail :
    readRecords codec path field after
        ((if tail.isEmpty then [] else [(false, tail)]).map (readLineCapped maxLineBytes)) =
      .ok ((tailRecord codec tail).filter (field · > after)) := by
  unfold tailRecord
  cases hempty : tail.isEmpty with
  | true =>
    rw [List.isEmpty_iff] at hempty
    subst hempty
    rfl
  | false =>
    rw [if_neg (by decide), List.map_cons, List.map_nil, readRecords]
    by_cases hlong : maxLineBytes < tail.length
    case pos => simp [hlong]
    case neg =>
      rw [readLineCapped_content hlong]
      cases hblank : isBlankLine tail with
      | true => simp [hlong, readRecords]
      | false =>
        cases hparse : codec.parse tail with
        | error e => simp [hlong]
        | ok record => by_cases hfield : field record > after <;>
            simp [hlong, readRecords, Except.map, hfield]

/-- **The reader:** the records of the completed lines and of the last one, behind the given mark. -/
theorem readJsonlSince_ok_iff :
    readJsonlSince codec path field after content = .ok out ↔
      ∃ done, gather (completedRecord codec) (frames newline content).1 = some done ∧
        out = (done ++ tailRecord codec (frames newline content).2).filter (field · > after) := by
  unfold readJsonlSince lineReads frameReads
  rw [List.map_append, List.map_map]
  have h := @readRecords_completed _ codec path field after (frames newline content).1 out
  simp only [Function.comp_def, h, readRecords_tail, List.filter_append]
  constructor
  · rintro ⟨done, _, hdone, hlater, rfl⟩
    exact ⟨done, hdone, by rw [← Except.ok.inj hlater]⟩
  · rintro ⟨done, hdone, rfl⟩
    exact ⟨done, _, hdone, rfl, rfl⟩

/-- A record that the codec serves and that fits makes a line that reads back. -/
theorem completedRecord_render {record : τ} (h : codec.Serves record)
    (hfits : (codec.render record).length ≤ maxLineBytes) :
    completedRecord codec (codec.render record) = some [record] := by
  have hblank := h.notBlank
  simp [completedRecord, hblank, Nat.not_lt.mpr hfits, h.parse_render]

end Spec

end Reading

/-! ## Directives -/

/-- What an append does to the tail before it writes. -/
inductive TailRepair
  | none
  | truncate (offset : Nat)
  | addNewline
  deriving DecidableEq, Repr

structure DirectiveScan where
  maxSeq : Nat
  repair : TailRepair
  deriving DecidableEq, Repr

section Directives

variable (codec : RecordCodec InboxDirective) (path : String)

/-- The loop of `directive_scan`, from a byte offset and a highest sequence on. -/
def scanLines (offset maxSeq : Nat) : List LineRead → Except IoError DirectiveScan
  | [] => .ok ⟨maxSeq, .none⟩
  | lr :: rest =>
    if lr.truncated then
      if lr.hadNewline then .error (corruptLineError path "line exceeds maximum size")
      else .ok ⟨maxSeq, .truncate offset⟩
    else if isBlankLine lr.content then
      if !lr.hadNewline then .ok ⟨maxSeq, .truncate offset⟩
      else scanLines (offset + lr.consumed) maxSeq rest
    else
      match codec.parse lr.content with
      | .ok directive =>
        if !lr.hadNewline then .ok ⟨max maxSeq directive.seq, .addNewline⟩
        else scanLines (offset + lr.consumed) (max maxSeq directive.seq) rest
      | .error e =>
        if !lr.hadNewline then .ok ⟨maxSeq, .truncate offset⟩ else .error (corruptLineError path e)

def directiveScan (content : List UInt8) : Except IoError DirectiveScan :=
  scanLines codec path 0 0 (lineReads content)

/-- The sequence an append gives its directive. -/
def assignSeq (currentMax : Nat) (directive : InboxDirective) : Except IoError Nat :=
  if directive.seq = 0 || directive.seq ≤ currentMax then
    if currentMax < u64Max then .ok (currentMax + 1) else .error ⟨.invalidData, "directive sequence overflow"⟩
  else .ok directive.seq

/-- An append that was let through: the repair of the tail, the directive as written, and its line. -/
structure DirectiveAppend where
  repair : TailRepair
  written : InboxDirective
  line : List UInt8
  deriving DecidableEq, Repr

/-- The checks on the text before anything is read. -/
def checkDirective (directive : InboxDirective) : Except IoError Unit :=
  match validateAgentId directive.toAgent with
  | .error e => .error e
  | .ok () =>
    match directive.text with
    | some text =>
      if byteLen text > maxDirectiveTextBytes then
        .error ⟨.invalidInput, s!"directive text {byteLen text} bytes exceeds " ++
          s!"MAX_DIRECTIVE_TEXT_BYTES ({maxDirectiveTextBytes})"⟩
      else .ok ()
    | none => .ok ()

/-- Everything `append_directive` decides before it touches the file. -/
def planDirective (content : List UInt8) (directive : InboxDirective) : Except IoError DirectiveAppend :=
  match checkDirective directive with
  | .error e => .error e
  | .ok () =>
    match directiveScan codec path content with
    | .error e => .error e
    | .ok scan =>
      match assignSeq scan.maxSeq directive with
      | .error e => .error e
      | .ok assignedSeq =>
        let written := { directive with seq := assignedSeq }
        let line := codec.render written ++ [newline]
        if line.length > maxLineBytes then
          .error ⟨.invalidInput,
            s!"serialized directive frame {line.length} bytes exceeds MAX_LINE_BYTES ({maxLineBytes})"⟩
        else .ok ⟨scan.repair, written, line⟩

/-- The file once `set_len` has run, if it has to. -/
def TailRepair.base (content : List UInt8) : TailRepair → List UInt8
  | .truncate offset => content.take offset
  | _ => content

/-- What is written before the new line. -/
def TailRepair.lead : TailRepair → List UInt8
  | .addNewline => [newline]
  | _ => []

/-- The bytes an append writes. -/
def DirectiveAppend.bytes (plan : DirectiveAppend) : List UInt8 := plan.repair.lead ++ plan.line

/-- `append_directive`: the sequence given and the file afterwards. -/
def appendDirective (content : List UInt8) (directive : InboxDirective) :
    Except IoError (Nat × List UInt8) :=
  (planDirective codec path content directive).map fun plan =>
    (plan.written.seq, plan.repair.base content ++ plan.bytes)

def readSince (content : List UInt8) (afterSeq : Nat) : Except IoError (List InboxDirective) :=
  readJsonlSince codec path (·.seq) afterSeq content

/-- What the scan makes of a completed line: what the reader makes of it, but an overlong line is refused. -/
def scanRecord (line : List UInt8) : Option (List InboxDirective) :=
  if maxLineBytes < line.length then none else completedRecord codec line

/-- What the scan makes of the last line, from its offset and the sequences before it. -/
def tailScan (offset maxSeq : Nat) (tail : List UInt8) : DirectiveScan :=
  if tail.isEmpty then ⟨maxSeq, .none⟩
  else if maxLineBytes < tail.length || isBlankLine tail then ⟨maxSeq, .truncate offset⟩
  else
    match codec.parse tail with
    | .ok directive => ⟨max maxSeq directive.seq, .addNewline⟩
    | .error _ => ⟨maxSeq, .truncate offset⟩

/-- The highest sequence of a list of directives and a start value. -/
def maxSeqFrom (start : Nat) (directives : List InboxDirective) : Nat :=
  directives.foldl (fun m d => max m d.seq) start

theorem maxSeqFrom_lt_iff {start bound : Nat} {directives : List InboxDirective} :
    maxSeqFrom start directives < bound ↔ start < bound ∧ ∀ d ∈ directives, d.seq < bound := by
  induction directives generalizing start with
  | nil => simp [maxSeqFrom]
  | cons d rest ih =>
    rw [maxSeqFrom, List.foldl_cons, ← maxSeqFrom, ih, Nat.max_lt, List.forall_mem_cons, and_assoc]

section Spec

variable {codec : RecordCodec InboxDirective} {path : String}
variable {lines : List (List UInt8)} {tail content : List UInt8} {scan : DirectiveScan}

theorem scanLines_completed {offset maxSeq : Nat} (rest : List LineRead) :
    scanLines codec path offset maxSeq
        (lines.map (fun l => readLineCapped maxLineBytes (true, l)) ++ rest) = .ok scan ↔
      ∃ done, gather (scanRecord codec) lines = some done ∧
        scanLines codec path (offset + (framed newline lines).length) (maxSeqFrom maxSeq done) rest =
          .ok scan := by
  induction lines generalizing offset maxSeq with
  | nil => simp [gather, maxSeqFrom]
  | cons line lines ih =>
    rw [List.map_cons, List.cons_append, scanLines, gather, scanRecord, completedRecord]
    have hoffset : offset + (framed newline (line :: lines)).length =
        offset + (line.length + 1) + (framed newline lines).length := by
      rw [framed_cons, List.length_append, List.length_cons]
      omega
    rw [hoffset]
    by_cases hlong : maxLineBytes < line.length
    case pos => simp [hlong]
    case neg =>
      rw [readLineCapped_content hlong]
      cases hblank : isBlankLine line with
      | true => simp [hlong, ih]
      | false =>
        cases hparse : codec.parse line with
        | error e => simp [hlong]
        | ok directive => simp [hlong, ih, maxSeqFrom]

theorem scanLines_tail {offset maxSeq : Nat} :
    scanLines codec path offset maxSeq
        ((if tail.isEmpty then [] else [(false, tail)]).map (readLineCapped maxLineBytes)) =
      .ok (tailScan codec offset maxSeq tail) := by
  unfold tailScan
  cases hempty : tail.isEmpty with
  | true => rfl
  | false =>
    rw [if_neg (by decide), List.map_cons, List.map_nil, scanLines]
    by_cases hlong : maxLineBytes < tail.length
    case pos => simp [hlong]
    case neg =>
      rw [readLineCapped_content hlong]
      cases hblank : isBlankLine tail with
      | true => simp [hlong]
      | false => cases hparse : codec.parse tail <;> simp [hlong]

/-- **The scan:** it succeeds when every completed line is sound, and only the last line decides the repair. -/
theorem directiveScan_ok_iff :
    directiveScan codec path content = .ok scan ↔
      ∃ done, gather (scanRecord codec) (frames newline content).1 = some done ∧
        scan = tailScan codec (framed newline (frames newline content).1).length (maxSeqFrom 0 done)
          (frames newline content).2 := by
  unfold directiveScan lineReads frameReads
  rw [List.map_append, List.map_map]
  have h := @scanLines_completed codec path (frames newline content).1 scan 0 0
  simp only [Function.comp_def, h, scanLines_tail, Nat.zero_add]
  exact exists_congr fun done => and_congr_right fun _ =>
    ⟨fun h => (Except.ok.inj h).symm, fun h => by rw [h]⟩

/-- The last line adds its record's sequence, if it has one. -/
theorem tailScan_maxSeq {offset maxSeq : Nat} :
    (tailScan codec offset maxSeq tail).maxSeq = maxSeqFrom maxSeq (tailRecord codec tail) := by
  unfold tailScan tailRecord
  cases hempty : tail.isEmpty with
  | true =>
    rw [List.isEmpty_iff] at hempty
    subst hempty
    rfl
  | false =>
    split
    case isTrue h => cases h
    case isFalse =>
      split
      case isTrue => rfl
      case isFalse => cases codec.parse tail <;> rfl

/-- What the scan accepts, the reader accepts with the same records. -/
theorem gather_completedRecord_of_scan {done : List InboxDirective}
    (h : gather (scanRecord codec) lines = some done) : gather (completedRecord codec) lines = some done := by
  induction lines generalizing done with
  | nil => exact h
  | cons line lines ih =>
    rw [gather, Option.bind_eq_some_iff] at h
    obtain ⟨xs, hxs, hrest⟩ := h
    rw [Option.map_eq_some_iff] at hrest
    obtain ⟨ys, hys, rfl⟩ := hrest
    have hline : completedRecord codec line = some xs := by
      unfold scanRecord at hxs
      split at hxs
      case isTrue => cases hxs
      case isFalse => exact hxs
    rw [gather, hline, ih hys]
    rfl

variable (codec) in
/-- The three tails an append can find: none, one to cut off, and a whole record to complete. -/
theorem tailScan_cases (offset maxSeq : Nat) (tail : List UInt8) :
    (tail = [] ∧ (tailScan codec offset maxSeq tail).repair = .none) ∨
    (tailRecord codec tail = [] ∧ (tailScan codec offset maxSeq tail).repair = .truncate offset) ∨
    ∃ directive, tailRecord codec tail = [directive] ∧ scanRecord codec tail = some [directive] ∧
      (tailScan codec offset maxSeq tail).repair = .addNewline := by
  unfold tailScan tailRecord scanRecord completedRecord
  cases hempty : tail.isEmpty with
  | true => exact .inl ⟨List.isEmpty_iff.mp hempty, rfl⟩
  | false =>
    right
    cases hskip : decide (maxLineBytes < tail.length) || isBlankLine tail with
    | true => exact .inl ⟨rfl, rfl⟩
    | false =>
      have hlong : ¬maxLineBytes < tail.length := by
        rw [Bool.or_eq_false_iff] at hskip
        exact of_decide_eq_false hskip.1
      cases codec.parse tail with
      | error e => exact .inl ⟨rfl, rfl⟩
      | ok directive => exact .inr ⟨directive, rfl, by rw [if_neg hlong]; rfl, rfl⟩

/-- Completed lines that every scan accepts, and the directives in them. -/
structure SoundLines (codec : RecordCodec InboxDirective) (fs : List (List UInt8))
    (readable : List InboxDirective) : Prop where
  oneLine : ∀ f ∈ fs, newline ∉ f
  records : gather (scanRecord codec) fs = some readable

/-- A last line behind sound lines never stops the reader. -/
theorem SoundLines.read {fs : List (List UInt8)} {readable : List InboxDirective}
    (h : SoundLines codec fs readable) (htail : newline ∉ tail) (field : InboxDirective → Nat) (after : Nat) :
    readJsonlSince codec path field after (framed newline fs ++ tail) =
      .ok ((readable ++ tailRecord codec tail).filter (field · > after)) := by
  rw [readJsonlSince_ok_iff, frames_framed_append h.oneLine, frames_of_notMem htail, List.append_nil]
  exact ⟨readable, gather_completedRecord_of_scan h.records, rfl⟩

variable (path) in
/-- Nor does it stop a scan, and its record counts. -/
theorem SoundLines.scans {fs : List (List UInt8)} {readable : List InboxDirective}
    (h : SoundLines codec fs readable) (htail : newline ∉ tail) :
    ∃ scan, directiveScan codec path (framed newline fs ++ tail) = .ok scan ∧
      scan.maxSeq = maxSeqFrom 0 (readable ++ tailRecord codec tail) := by
  refine ⟨_, directiveScan_ok_iff.mpr ⟨readable, ?_, rfl⟩, ?_⟩
  · rw [frames_framed_append h.oneLine, frames_of_notMem htail, List.append_nil]
    exact h.records
  · rw [tailScan_maxSeq, frames_framed_append h.oneLine, frames_of_notMem htail, maxSeqFrom, maxSeqFrom,
      maxSeqFrom, List.foldl_append]

variable {directive : InboxDirective} {plan : DirectiveAppend}

theorem planDirective_ok_iff :
    planDirective codec path content directive = .ok plan ↔
      checkDirective directive = .ok () ∧ ∃ scan, directiveScan codec path content = .ok scan ∧
        ∃ seq, assignSeq scan.maxSeq directive = .ok seq ∧
          (codec.render { directive with seq := seq }).length < maxLineBytes ∧
            plan = ⟨scan.repair, { directive with seq := seq },
              codec.render { directive with seq := seq } ++ [newline]⟩ := by
  unfold planDirective
  cases checkDirective directive with
  | error e => simp
  | ok u =>
    cases directiveScan codec path content with
    | error e => simp
    | ok scan =>
      cases hseq : assignSeq scan.maxSeq directive with
      | error e => simp [hseq]
      | ok seq =>
        simp only [check_refuse_ok_iff, Except.ok.injEq, exists_eq_left', true_and, hseq, List.length_append,
          List.length_singleton, not_lt, Nat.succ_le_iff]
        exact and_congr_right fun _ => eq_comm

/-- A sequence that is given exceeds every one before it. -/
theorem lt_of_assignSeq {maxSeq seq : Nat} (h : assignSeq maxSeq directive = .ok seq) : maxSeq < seq := by
  unfold assignSeq at h
  split at h
  case isTrue =>
    split at h
    case isTrue => exact Except.ok.inj h ▸ Nat.lt_succ_self maxSeq
    case isFalse => cases h
  case isFalse hcond =>
    rw [Bool.or_eq_true, decide_eq_true_eq, decide_eq_true_eq, not_or] at hcond
    rw [← Except.ok.inj h]
    omega

variable (directive) in
/-- Only a full sequence space stops the assignment. -/
theorem assignSeq_of_lt {maxSeq : Nat} (h : maxSeq < u64Max) : ∃ seq, assignSeq maxSeq directive = .ok seq := by
  unfold assignSeq
  rw [if_pos h]
  split
  · exact ⟨_, rfl⟩
  · exact ⟨_, rfl⟩

/-- **The repair:** it leaves sound lines, with just the directives that can be read. -/
theorem directiveScan_repaired (h : directiveScan codec path content = .ok scan) :
    ∃ fs readable, SoundLines codec fs readable ∧ scan.maxSeq = maxSeqFrom 0 readable ∧
      (∀ field after, readJsonlSince codec path field after content =
        .ok (readable.filter (field · > after))) ∧
      scan.repair.base content ++ scan.repair.lead = framed newline fs := by
  obtain ⟨done, hdone, rfl⟩ := directiveScan_ok_iff.mp h
  have hcontent := @framed_frames _ _ newline content
  have hfree := @notMem_frames _ _ newline content
  have hread : ∀ (field : InboxDirective → Nat) after, readJsonlSince codec path field after content =
      .ok ((done ++ tailRecord codec (frames newline content).2).filter (field · > after)) := fun _ _ =>
    readJsonlSince_ok_iff.mpr ⟨done, gather_completedRecord_of_scan hdone, rfl⟩
  have hmax : maxSeqFrom (maxSeqFrom 0 done) (tailRecord codec (frames newline content).2) =
      maxSeqFrom 0 (done ++ tailRecord codec (frames newline content).2) :=
    List.foldl_append.symm
  rw [tailScan_maxSeq, hmax]
  generalize (frames newline content).1 = fs at *
  generalize (frames newline content).2 = tail at *
  rcases tailScan_cases codec (framed newline fs).length (maxSeqFrom 0 done) tail with
    ⟨rfl, hrepair⟩ | ⟨hnone, hrepair⟩ | ⟨last, hlast, hsound, hrepair⟩
  · refine ⟨fs, done ++ tailRecord codec [], ⟨hfree.1, ?_⟩, rfl, hread, ?_⟩
    · rw [hdone]
      exact congrArg some (List.append_nil done).symm
    · simp only [hrepair, ← hcontent, TailRepair.base, TailRepair.lead, List.append_nil]
  · refine ⟨fs, done ++ tailRecord codec tail, ⟨hfree.1, ?_⟩, rfl, hread, ?_⟩
    · rw [hdone, hnone, List.append_nil]
    · simp only [hrepair, ← hcontent, TailRepair.base, TailRepair.lead, List.take_left, List.append_nil]
  · refine ⟨fs ++ [tail], done ++ tailRecord codec tail, ⟨?_, ?_⟩, rfl, hread, ?_⟩
    · rw [List.forall_mem_append, List.forall_mem_singleton]
      exact hfree
    · rw [hlast]
      exact gather_append_eq_some_iff.mpr ⟨done, [last], hdone, by rw [gather_singleton, hsound], rfl⟩
    · simp only [hrepair, ← hcontent, TailRepair.base, TailRepair.lead, framed_append, framed_cons, framed_nil,
        List.append_assoc]

/-- Until the lead is written, a repair has not moved a readable byte. -/
theorem TailRepair.base_append_of_prefix {repair : TailRepair} {p : List UInt8} (hp : p <+: repair.lead)
    (hne : p ≠ repair.lead) : repair.base content ++ p = content := by
  cases repair with
  | none => exact absurd (List.prefix_nil.mp hp) hne
  | truncate offset => exact absurd (List.prefix_nil.mp hp) hne
  | addNewline =>
    rcases List.prefix_cons_iff.mp hp with rfl | ⟨t, rfl, ht⟩
    · exact List.append_nil content
    · rw [List.prefix_nil.mp ht] at hne
      exact absurd rfl hne

/-- **Where an append starts:** behind sound lines, wherever a crash cuts it once it has touched the file. -/
theorem planDirective_repaired (h : planDirective codec path content directive = .ok plan) :
    ∃ fs readable, SoundLines codec fs readable ∧
      assignSeq (maxSeqFrom 0 readable) directive = .ok plan.written.seq ∧
      (∀ field after, readJsonlSince codec path field after content = .ok (readable.filter (field · > after))) ∧
      plan.repair.base content ++ plan.bytes = framed newline fs ++ plan.line ∧
      ∀ p, p <+: plan.bytes → p ≠ plan.bytes → plan.repair.base content ++ p = content ∨
        ∃ q, q <+: plan.line ∧ q ≠ plan.line ∧ plan.repair.base content ++ p = framed newline fs ++ q := by
  obtain ⟨-, scan, hscan, seq, hseq, -, rfl⟩ := planDirective_ok_iff.mp h
  obtain ⟨fs, readable, hsound, hmax, hread, hrepaired⟩ := directiveScan_repaired hscan
  rw [hmax] at hseq
  refine ⟨fs, readable, hsound, hseq, hread, ?_, fun p hp hne => ?_⟩
  · rw [DirectiveAppend.bytes, ← List.append_assoc, hrepaired]
  · -- the cut is inside what completes the tail, or inside the line
    rcases List.prefix_or_prefix_of_prefix hp (List.prefix_append _ _) with hlead | ⟨q, rfl⟩
    · by_cases hwhole : p = scan.repair.lead
      · exact .inr ⟨[], List.nil_prefix, by simp, by rw [hwhole, hrepaired, List.append_nil]⟩
      · exact .inl (TailRepair.base_append_of_prefix hlead hwhole)
    · refine .inr ⟨q, (List.prefix_append_right_inj _).mp hp, fun h => hne (congrArg _ h), ?_⟩
      rw [← List.append_assoc, hrepaired]

/-- A served record makes one more sound line. -/
theorem SoundLines.snoc {fs : List (List UInt8)} {readable : List InboxDirective} {written : InboxDirective}
    (h : SoundLines codec fs readable) (hserves : codec.Serves written)
    (hfits : (codec.render written).length < maxLineBytes) :
    SoundLines codec (fs ++ [codec.render written]) (readable ++ [written]) where
  oneLine := by
    rw [List.forall_mem_append, List.forall_mem_singleton]
    exact ⟨h.oneLine, hserves.one_line⟩
  records := gather_append_eq_some_iff.mpr ⟨readable, [written], h.records, by
    rw [gather_singleton, scanRecord, if_neg (Nat.not_lt.mpr hfits.le), completedRecord_render hserves hfits.le],
    rfl⟩

theorem mem_maxSeqFrom_lt {readable : List InboxDirective} {bound : Nat}
    (h : maxSeqFrom 0 readable < bound) : ∀ x ∈ readable.filter (·.seq > 0), x.seq < bound := fun x hx =>
  (maxSeqFrom_lt_iff.mp h).2 x (List.mem_of_mem_filter hx)

/-- An inbox that goes on: any append that passes its own checks succeeds with a fresh sequence, unless one
of the directives that can be read has the last sequence there is. -/
def InboxGoesOn (codec : RecordCodec InboxDirective) (path : String) (content : List UInt8)
    (readable : List InboxDirective) : Prop :=
  ∀ next, checkDirective next = .ok () → (∀ x ∈ readable, x.seq < u64Max) →
    ∃ seq, (∀ x ∈ readable, x.seq < seq) ∧
      ((codec.render { next with seq := seq }).length < maxLineBytes →
        ∃ content', appendDirective codec path content next = .ok (seq, content'))

theorem inboxGoesOn_of_scan {readable : List InboxDirective} (hread : readSince codec path content 0 = .ok readable)
    (hscan : directiveScan codec path content = .ok scan) : InboxGoesOn codec path content readable := by
  intro next hcheck hroom
  obtain ⟨-, all, -, hmax, hreads, -⟩ := directiveScan_repaired hscan
  rw [readSince, hreads] at hread
  obtain rfl := Except.ok.inj hread
  have hlt : scan.maxSeq < u64Max := by
    rw [hmax, maxSeqFrom_lt_iff]
    refine ⟨by decide, fun x hx => ?_⟩
    by_cases hseq : x.seq > 0
    · exact hroom x (List.mem_filter.mpr ⟨hx, decide_eq_true hseq⟩)
    · rw [Nat.eq_zero_of_not_pos hseq]
      decide
  obtain ⟨seq, hseq⟩ := assignSeq_of_lt next hlt
  refine ⟨seq, mem_maxSeqFrom_lt (hmax ▸ lt_of_assignSeq hseq), fun hfits => ?_⟩
  have hplan := planDirective_ok_iff.mpr ⟨hcheck, scan, hscan, seq, hseq, hfits, rfl⟩
  exact ⟨_, by rw [appendDirective, hplan]; rfl⟩

/-- A crash in the middle of an append: a strict prefix of its bytes reached the file, or none did and the
torn tail was not even cut off. -/
def DirectiveCrash (codec : RecordCodec InboxDirective) (path : String) (content : List UInt8)
    (directive : InboxDirective) (content' : List UInt8) : Prop :=
  ∃ plan, planDirective codec path content directive = .ok plan ∧
    (content' = content ∨
      ∃ p, p <+: plan.bytes ∧ p ≠ plan.bytes ∧ content' = plan.repair.base content ++ p)

/-- **Append and read agree through every crash**, for a file that the reader accepts and a directive whose
JSON reads back. An append adds its directive with a fresh sequence. After a crash everything that could be
read still can, and the inbox goes on. -/
theorem appendDirective_crash_safe {before : List InboxDirective}
    (hread : readSince codec path content 0 = .ok before)
    (hserves : ∀ plan, planDirective codec path content directive = .ok plan → codec.Serves plan.written) :
    (∀ seq content', appendDirective codec path content directive = .ok (seq, content') →
      readSince codec path content' 0 = .ok (before ++ [{ directive with seq := seq }]) ∧
        ∀ x ∈ before, x.seq < seq) ∧
    ∀ content', DirectiveCrash codec path content directive content' →
      ∃ after, readSince codec path content' 0 = .ok after ∧ before <+: after ∧
        InboxGoesOn codec path content' after := by
  constructor
  · intro seq content' happend
    obtain ⟨plan, hplan, hresult⟩ := map_eq_ok_iff.mp happend
    obtain ⟨fs, readable, hsound, hseq, hreads, hwhole, -⟩ := planDirective_repaired hplan
    obtain ⟨-, scan, -, assigned, -, hfits, rfl⟩ := planDirective_ok_iff.mp hplan
    rw [readSince, hreads] at hread
    obtain rfl := Except.ok.inj hread
    rw [Prod.mk.injEq] at hresult
    obtain ⟨rfl, rfl⟩ := hresult
    have hfresh : maxSeqFrom 0 readable < assigned := lt_of_assignSeq hseq
    have hsound' := hsound.snoc (hserves _ hplan) hfits
    refine ⟨?_, mem_maxSeqFrom_lt hfresh⟩
    have hfile : framed newline fs ++ (codec.render { directive with seq := assigned } ++ [newline]) =
        framed newline (fs ++ [codec.render { directive with seq := assigned }]) ++ [] := by
      rw [framed_append, framed_cons, framed_nil, List.append_nil]
    have hnew : [{ directive with seq := assigned }].filter (·.seq > 0) = [{ directive with seq := assigned }] := by
      rw [List.filter_eq_self, List.forall_mem_singleton]
      exact decide_eq_true (Nat.zero_lt_of_lt hfresh)
    rw [hwhole, hfile, readSince, hsound'.read List.not_mem_nil, List.append_assoc, List.filter_append]
    exact congrArg (fun l => Except.ok (readable.filter (·.seq > 0) ++ l)) hnew
  · rintro content' ⟨plan, hplan, hcut⟩
    obtain ⟨-, scan, hscan, -⟩ := planDirective_ok_iff.mp hplan
    -- nothing of the append is in the file
    have hsame : content' = content → ∃ after, readSince codec path content' 0 = .ok after ∧ before <+: after ∧
        InboxGoesOn codec path content' after := by
      rintro rfl
      exact ⟨before, hread, List.prefix_rfl, inboxGoesOn_of_scan hread hscan⟩
    rcases hcut with hcontent | ⟨p, hp, hne, rfl⟩
    · exact hsame hcontent
    · obtain ⟨fs, readable, hsound, -, hreads, -, hcuts⟩ := planDirective_repaired hplan
      rcases hcuts p hp hne with hcontent | ⟨q, hq, hqne, hfile⟩
      · exact hsame hcontent
      · -- sound lines and a cut of the new one, which is one line without its newline
        have hline : plan.line = codec.render plan.written ++ [newline] := by
          obtain ⟨-, _, -, _, -, -, hplan'⟩ := planDirective_ok_iff.mp hplan
          rw [hplan']
        rw [hline] at hq hqne
        have hq' : q <+: codec.render plan.written := (List.prefix_concat_iff.mp hq).resolve_left hqne
        have hfree : newline ∉ q := fun h => (hserves plan hplan).one_line (hq'.subset h)
        rw [readSince, hreads] at hread
        obtain rfl := Except.ok.inj hread
        rw [hfile]
        have hafter : readSince codec path (framed newline fs ++ q) 0 =
            .ok ((readable ++ tailRecord codec q).filter (·.seq > 0)) := hsound.read hfree _ 0
        obtain ⟨scan', hscan', -⟩ := hsound.scans path hfree
        refine ⟨_, hafter, ?_, inboxGoesOn_of_scan hafter hscan'⟩
        rw [List.filter_append]
        exact List.prefix_append _ _

end Spec

end Directives

namespace InboxSample

/-- The JSON text of a directive around its sequence: `{"seq":`, then
`,"to":"codex:a","from":"lead","kind":"stop","type":"addition","urgent":false,"ts":1.0}`. -/
def line (seq : List UInt8) : List UInt8 :=
  [123, 34, 115, 101, 113, 34, 58] ++ seq ++
  [44, 34, 116, 111, 34, 58, 34, 99, 111, 100, 101, 120, 58, 97, 34, 44, 34, 102, 114, 111, 109, 34, 58,
    34, 108, 101, 97, 100, 34, 44, 34, 107, 105, 110, 100, 34, 58, 34, 115, 116, 111, 112, 34, 44, 34,
    116, 121, 112, 101, 34, 58, 34, 97, 100, 100, 105, 116, 105, 111, 110, 34, 44, 34, 117, 114, 103,
    101, 110, 116, 34, 58, 102, 97, 108, 115, 101, 44, 34, 116, 115, 34, 58, 49, 46, 48, 125]

/-- `18446744073709551615`. -/
def lastSeq : List UInt8 :=
  [49, 56, 52, 52, 54, 55, 52, 52, 48, 55, 51, 55, 48, 57, 53, 53, 49, 54, 49, 53]

def directive (seq : Nat) : InboxDirective where
  toAgent := "codex:a"
  fromAgent := "lead"
  seq := seq

/-- The text of the sample's directives and the decoding of their lines and of any cut of them. -/
def codec : RecordCodec InboxDirective where
  render d := line (if d.seq = 1 then [49] else if d.seq = 2 then [50] else lastSeq)
  parse bytes :=
    if bytes = line [49] then .ok (directive 1)
    else if bytes = line [50] then .ok (directive 2)
    else if bytes = line lastSeq then .ok (directive u64Max)
    else .error "EOF while parsing an object"

end InboxSample

section

open InboxSample

/-- An append behind a torn directive: it cuts the tail off, and its own crash leaves a file that goes on. -/
theorem appendDirective_crash_safe_torn :
    (∀ seq content', appendDirective codec "inbox/codex:a.jsonl"
        (line [49] ++ newline :: (line [50]).take 20) (directive 0) = .ok (seq, content') →
      readSince codec "inbox/codex:a.jsonl" content' 0 =
          .ok ([directive 1] ++ [{ directive 0 with seq := seq }]) ∧ ∀ x ∈ [directive 1], x.seq < seq) ∧
    ∀ content', DirectiveCrash codec "inbox/codex:a.jsonl"
        (line [49] ++ newline :: (line [50]).take 20) (directive 0) content' →
      ∃ after, readSince codec "inbox/codex:a.jsonl" content' 0 = .ok after ∧ [directive 1] <+: after ∧
        InboxGoesOn codec "inbox/codex:a.jsonl" content' after :=
  appendDirective_crash_safe (by decide +kernel) fun plan h => by
    have hplan : planDirective codec "inbox/codex:a.jsonl" (line [49] ++ newline :: (line [50]).take 20)
        (directive 0) = .ok ⟨.truncate ((line [49]).length + 1), directive 2, line [50] ++ [newline]⟩ := by
      decide +kernel
    rw [hplan] at h
    rw [← Except.ok.inj h]
    exact ⟨by decide, by decide, by decide⟩

/-- A crash that leaves all but the newline of a directive with the last sequence there is: it can be read,
and no append after it succeeds. -/
theorem appendDirective_crash_counterexample :
    codec.Serves (directive u64Max) ∧
      readSince codec "inbox/codex:a.jsonl" [] 0 = .ok [] ∧
      DirectiveCrash codec "inbox/codex:a.jsonl" [] (directive u64Max) (line lastSeq) ∧
      checkDirective (directive 0) = .ok () ∧
      appendDirective codec "inbox/codex:a.jsonl" (line lastSeq) (directive 0) =
        .error ⟨.invalidData, "directive sequence overflow"⟩ :=
  ⟨⟨by decide, by decide, by decide⟩, by decide,
    ⟨⟨.none, directive u64Max, line lastSeq ++ [newline]⟩, by decide,
      .inr ⟨line lastSeq, by decide, by decide, by decide⟩⟩,
    by decide +kernel, by decide +kernel⟩

end

/-! ## Receipts -/

section Receipts

variable (codec : RecordCodec Receipt) (path : String)

/-- The line `append_receipt` writes. -/
def receiptLine (receipt : Receipt) : Except IoError (List UInt8) :=
  match validateAgentId receipt.toAgent with
  | .error e => .error e
  | .ok () =>
    let line := codec.render receipt ++ [newline]
    if line.length > maxLineBytes then
      .error ⟨.invalidInput,
        s!"serialized receipt frame {line.length} bytes exceeds MAX_LINE_BYTES ({maxLineBytes})"⟩
    else .ok line

def appendReceipt (content : List UInt8) (receipt : Receipt) : Except IoError (List UInt8) :=
  (receiptLine codec receipt).map (content ++ ·)

def readReceiptsSince (content : List UInt8) (afterRefSeq : Nat) : Except IoError (List Receipt) :=
  readJsonlSince codec path (·.refSeq) afterRefSeq content

/-- Appends one after another, all of them successful. -/
def appendReceipts (content : List UInt8) : List Receipt → Except IoError (List UInt8)
  | [] => .ok content
  | receipt :: rest =>
    match appendReceipt codec content receipt with
    | .error e => .error e
    | .ok content' => appendReceipts content' rest

section Spec

variable {codec : RecordCodec Receipt} {path : String} {content content' line : List UInt8}
variable {receipt torn : Receipt} {before after receipts : List Receipt} {p : List UInt8}

theorem receiptLine_ok_iff :
    receiptLine codec receipt = .ok line ↔
      validateAgentId receipt.toAgent = .ok () ∧ (codec.render receipt).length < maxLineBytes ∧
        line = codec.render receipt ++ [newline] := by
  unfold receiptLine
  cases validateAgentId receipt.toAgent with
  | error e => simp
  | ok u =>
    simp only [check_refuse_ok_iff, Except.ok.injEq, true_and, List.length_append, List.length_singleton, not_lt,
      Nat.succ_le_iff]
    exact and_congr_right fun _ => eq_comm

/-- Appends write their lines behind whatever the file ends in. -/
theorem appendReceipts_ok (h : appendReceipts codec content receipts = .ok content') :
    content' = content ++ framed newline (receipts.map codec.render) ∧
      ∀ x ∈ receipts, (codec.render x).length < maxLineBytes := by
  induction receipts generalizing content with
  | nil =>
    refine ⟨?_, fun x hx => absurd hx List.not_mem_nil⟩
    rw [List.map_nil, framed_nil, List.append_nil, ← Except.ok.inj h]
  | cons receipt rest ih =>
    rw [appendReceipts] at h
    split at h
    case _ => cases h
    case _ middle hmiddle =>
      obtain ⟨line, hline, rfl⟩ := map_eq_ok_iff.mp hmiddle
      obtain ⟨-, hfits, rfl⟩ := receiptLine_ok_iff.mp hline
      obtain ⟨rfl, hrest⟩ := ih h
      refine ⟨?_, List.forall_mem_cons.mpr ⟨hfits, hrest⟩⟩
      rw [List.map_cons, framed_cons, List.append_assoc, List.append_assoc, List.singleton_append]

/-- The lines of receipts, as the reader takes them. -/
theorem gather_receipts (hserves : ∀ x ∈ receipts, codec.Serves x)
    (hfits : ∀ x ∈ receipts, (codec.render x).length < maxLineBytes) :
    (∀ f ∈ receipts.map codec.render, newline ∉ f) ∧
      gather (completedRecord codec) (receipts.map codec.render) = some receipts := by
  induction receipts with
  | nil => exact ⟨fun f hf => absurd hf List.not_mem_nil, rfl⟩
  | cons receipt rest ih =>
    rw [List.forall_mem_cons] at hserves hfits
    obtain ⟨hlines, hrest⟩ := ih hserves.2 hfits.2
    rw [List.map_cons, List.forall_mem_cons, gather, completedRecord_render hserves.1 hfits.1.le, hrest]
    exact ⟨⟨hserves.1.one_line, hlines⟩, rfl⟩

/-- A record whose text is JSON only as a whole: no cut of it decodes, nor a cut with another text behind. -/
structure RecordCodec.SelfDelimiting {τ : Type} (codec : RecordCodec τ) (record : τ) : Prop where
  cut : ∀ p decoded, p <+: codec.render record → p ≠ codec.render record → codec.parse p ≠ .ok decoded
  glued : ∀ p next decoded, p <+: codec.render record → p ≠ [] →
    codec.parse (p ++ codec.render next) ≠ .ok decoded

/-- What a receipts file owes after a torn write: every acknowledged receipt is read, in order and once, and
at most the torn one besides. -/
def ReceiptsSurvive (codec : RecordCodec Receipt) (path : String) (content : List UInt8)
    (before : List Receipt) (torn : Receipt) (after : List Receipt) : Prop :=
  ∀ afterRefSeq, ∃ all, (all = before ++ after ∨ all = before ++ torn :: after) ∧
    readReceiptsSince codec path content afterRefSeq = .ok (all.filter (·.refSeq > afterRefSeq))

/-- A cut of a record's line is read as the record when it is whole, and forgiven otherwise. -/
theorem tailRecord_of_cut (hserves : codec.Serves torn) (hdelim : codec.SelfDelimiting torn)
    (hfits : (codec.render torn).length < maxLineBytes) (hp : p <+: codec.render torn) :
    tailRecord codec p = if p = codec.render torn then [torn] else [] := by
  unfold tailRecord
  by_cases hwhole : p = codec.render torn
  case pos =>
    rw [if_pos hwhole, hwhole, hserves.notBlank, hserves.parse_render]
    simp [Nat.not_lt.mpr hfits.le]
  case neg =>
    rw [if_neg hwhole]
    split
    case isTrue => rfl
    case isFalse =>
      cases hparse : codec.parse p with
      | error e => rfl
      | ok decoded => exact absurd hparse (hdelim.cut p decoded hp hwhole)

/-- A cut with the next line behind it is one corrupt line, unless it is too long to be looked at. -/
theorem completedRecord_glued (hserves : codec.Serves torn) (hdelim : codec.SelfDelimiting torn)
    (hp : p <+: codec.render torn) (hne : p ≠ []) (next : Receipt) :
    completedRecord codec (p ++ codec.render next) =
      if maxLineBytes < (p ++ codec.render next).length then some [] else none := by
  have hopens : (p ++ codec.render next).head? = some 123 := by
    obtain ⟨c, cs, rfl⟩ := List.exists_cons_of_ne_nil hne
    obtain ⟨rest, hrest⟩ := hp
    rw [← hserves.opens, ← hrest]
    rfl
  unfold completedRecord
  rw [isBlankLine_of_opens hopens]
  cases hparse : codec.parse (p ++ codec.render next) with
  | error e => simp
  | ok decoded => exact absurd hparse (hdelim.glued p next decoded hp hne)

theorem readReceiptsSince_untorn {afterRefSeq : Nat} (hserves : ∀ x ∈ receipts, codec.Serves x)
    (hfits : ∀ x ∈ receipts, (codec.render x).length < maxLineBytes) :
    readReceiptsSince codec path (framed newline (receipts.map codec.render)) afterRefSeq =
      .ok (receipts.filter (·.refSeq > afterRefSeq)) := by
  obtain ⟨hlines, hgather⟩ := gather_receipts hserves hfits
  have hframes : frames newline (framed newline (receipts.map codec.render)) = (receipts.map codec.render, []) :=
    frames_eq_iff.mpr ⟨(List.append_nil _).symm, hlines, List.not_mem_nil⟩
  rw [readReceiptsSince, readJsonlSince_ok_iff, hframes]
  exact ⟨receipts, hgather, congrArg _ (List.append_nil receipts).symm⟩

/-- Without a later append the torn line is still the last one, and it is forgiven. -/
theorem receiptsSurvive_of_last (hserves : ∀ x ∈ before, codec.Serves x) (htorn : codec.Serves torn)
    (hdelim : codec.SelfDelimiting torn) (hfits : ∀ x ∈ before, (codec.render x).length < maxLineBytes)
    (htornFits : (codec.render torn).length < maxLineBytes) (hp : p <+: codec.render torn) :
    ReceiptsSurvive codec path (framed newline (before.map codec.render) ++ p) before torn [] := by
  obtain ⟨hlines, hgather⟩ := gather_receipts hserves hfits
  have hfree : newline ∉ p := fun h => htorn.one_line (hp.subset h)
  have hread : ∀ afterRefSeq, readReceiptsSince codec path (framed newline (before.map codec.render) ++ p)
      afterRefSeq = .ok ((before ++ tailRecord codec p).filter (·.refSeq > afterRefSeq)) := by
    intro afterRefSeq
    rw [readReceiptsSince, readJsonlSince_ok_iff, frames_framed_append hlines, frames_of_notMem hfree,
      List.append_nil]
    exact ⟨before, hgather, rfl⟩
  intro afterRefSeq
  refine ⟨_, ?_, hread afterRefSeq⟩
  rw [tailRecord_of_cut htorn hdelim htornFits hp]
  split
  · exact .inr rfl
  · exact .inl rfl

/-- With a later append the torn line and the first new one are read as one. -/
theorem readReceiptsSince_glued {next : Receipt} {rest out : List Receipt} {afterRefSeq : Nat}
    (hserves : ∀ x ∈ before ++ next :: rest, codec.Serves x) (htorn : codec.Serves torn)
    (hdelim : codec.SelfDelimiting torn)
    (hfits : ∀ x ∈ before ++ next :: rest, (codec.render x).length < maxLineBytes)
    (hp : p <+: codec.render torn) (hne : p ≠ []) :
    readReceiptsSince codec path (framed newline (before.map codec.render) ++ p ++
        framed newline ((next :: rest).map codec.render)) afterRefSeq = .ok out ↔
      maxLineBytes < (p ++ codec.render next).length ∧
        out = (before ++ rest).filter (·.refSeq > afterRefSeq) := by
  rw [List.forall_mem_append, List.forall_mem_cons] at hserves hfits
  obtain ⟨hlines, hgather⟩ := gather_receipts hserves.1 hfits.1
  obtain ⟨hlines', hgather'⟩ := gather_receipts hserves.2.2 hfits.2.2
  have hfree : newline ∉ p ++ codec.render next := by
    rw [List.mem_append, not_or]
    exact ⟨fun h => htorn.one_line (hp.subset h), hserves.2.1.one_line⟩
  have hframes : frames newline (framed newline (before.map codec.render) ++ p ++
      framed newline ((next :: rest).map codec.render)) =
        (before.map codec.render ++ (p ++ codec.render next) :: rest.map codec.render, []) := by
    rw [frames_eq_iff, List.forall_mem_append, List.forall_mem_cons]
    refine ⟨?_, ⟨hlines, hfree, hlines'⟩, List.not_mem_nil⟩
    rw [List.map_cons, framed_append, framed_cons, framed_cons]
    simp only [List.append_assoc, List.append_nil]
  rw [readReceiptsSince, readJsonlSince_ok_iff, hframes]
  have htail : tailRecord codec ([] : List UInt8) = [] := rfl
  simp only [gather_append_eq_some_iff, gather, completedRecord_glued htorn hdelim hp hne, hgather, hgather',
    htail]
  by_cases hlong : maxLineBytes < (p ++ codec.render next).length
  · simp only [hlong, if_true, true_and, Option.bind_some, Option.map_some, List.nil_append, List.append_nil]
    constructor
    · rintro ⟨_, ⟨xs, ys, hxs, hys, rfl⟩, rfl⟩
      rw [← Option.some.inj hxs, ← Option.some.inj hys]
    · rintro rfl
      exact ⟨_, ⟨before, rest, rfl, rfl, rfl⟩, rfl⟩
  · simp only [hlong, if_false, false_and, iff_false, Option.bind_none]
    rintro ⟨_, ⟨_, _, -, hnone, -⟩, -⟩
    cases hnone

/-- **Receipts survive a torn write** exactly when the crash left nothing, or no receipt is appended after it,
or the two glued lines are too long to be read and the receipt lost in them is a heartbeat, which no reading
returns. -/
theorem receipts_survive_torn_write_iff (hserves : ∀ x ∈ before ++ after, codec.Serves x)
    (htorn : codec.Serves torn) (hdelim : codec.SelfDelimiting torn)
    (hbefore : appendReceipts codec [] before = .ok content) (hline : receiptLine codec torn = .ok line)
    (hp : p <+: line) (hne : p ≠ line) (hafter : appendReceipts codec (content ++ p) after = .ok content') :
    ReceiptsSurvive codec path content' before torn after ↔
      p = [] ∨ after = [] ∨ ∃ next rest, after = next :: rest ∧
        maxLineBytes < (p ++ codec.render next).length ∧ next.refSeq = 0 := by
  obtain ⟨-, htornFits, rfl⟩ := receiptLine_ok_iff.mp hline
  obtain ⟨rfl, hfits⟩ := appendReceipts_ok hbefore
  obtain ⟨rfl, hfits'⟩ := appendReceipts_ok hafter
  rw [List.nil_append]
  have hcut : p <+: codec.render torn := (List.prefix_concat_iff.mp hp).resolve_left hne
  have hall : ∀ x ∈ before ++ after, (codec.render x).length < maxLineBytes :=
    List.forall_mem_append.mpr ⟨hfits, hfits'⟩
  rcases eq_or_ne p [] with rfl | hnonempty
  · -- nothing was written: the file is that of the acknowledged appends
    refine iff_of_true (fun afterRefSeq => ⟨before ++ after, .inl rfl, ?_⟩) (.inl rfl)
    rw [List.append_nil, ← framed_append, ← List.map_append]
    exact readReceiptsSince_untorn hserves hall
  · cases after with
    | nil =>
      rw [List.append_nil] at hserves hall
      refine iff_of_true ?_ (.inr (.inl rfl))
      rw [List.map_nil, framed_nil, List.append_nil]
      exact receiptsSurvive_of_last hserves htorn hdelim hall htornFits hcut
    | cons next rest =>
      have hread := fun {out} {afterRefSeq} => @readReceiptsSince_glued codec path torn before p next rest out
        afterRefSeq hserves htorn hdelim hall hcut hnonempty
      constructor
      · intro hsurvive
        obtain ⟨all, hkept, hok⟩ := hsurvive 0
        obtain ⟨hlong, heq⟩ := hread.mp hok
        refine .inr (.inr ⟨next, rest, rfl, hlong, ?_⟩)
        -- a reading from the start returns one receipt more than the glued file has
        by_contra hseq
        have hpos : next.refSeq > 0 := Nat.pos_of_ne_zero hseq
        have hlen := congrArg List.length heq
        rcases hkept with rfl | rfl
        · simp only [List.filter_append, List.filter_cons, hpos, decide_true, if_true, List.length_append,
            List.length_cons] at hlen
          omega
        · simp only [List.filter_append, List.filter_cons, hpos, decide_true, if_true, List.length_append] at hlen
          split at hlen <;> simp only [List.length_cons] at hlen <;> omega
      · rintro (hnil | hnil | ⟨_, _, heq, hlong, hzero⟩)
        · exact absurd hnil hnonempty
        · cases hnil
        · cases heq
          refine fun afterRefSeq => ⟨before ++ next :: rest, .inl rfl, hread.mpr ⟨hlong, ?_⟩⟩
          simp only [List.filter_append, List.filter_cons, hzero, gt_iff_lt, Nat.not_lt_zero, decide_false,
            Bool.false_eq_true, if_false]

end Spec

end Receipts

namespace ReceiptSample

/-- The JSON text of a receipt around its digit: `{"ref_seq":`, then
`,"to":"codex:a","status":"delivered","by":"rally-termd","ts":1.0}`. -/
def line (digit : UInt8) : List UInt8 :=
  [123, 34, 114, 101, 102, 95, 115, 101, 113, 34, 58] ++ digit ::
  [44, 34, 116, 111, 34, 58, 34, 99, 111, 100, 101, 120, 58, 97, 34, 44, 34, 115, 116, 97, 116, 117,
    115, 34, 58, 34, 100, 101, 108, 105, 118, 101, 114, 101, 100, 34, 44, 34, 98, 121, 34, 58, 34, 114,
    97, 108, 108, 121, 45, 116, 101, 114, 109, 100, 34, 44, 34, 116, 115, 34, 58, 49, 46, 48, 125]

def receipt (refSeq : Nat) : Receipt where
  refSeq := refSeq
  toAgent := "codex:a"
  status := .delivered
  postedBy := "rally-termd"
  ts := .finite 1

/-- The texts of two receipts, and the decoding of them and of any cut of them. -/
def codec : RecordCodec Receipt where
  render r := line (if r.refSeq = 1 then 49 else 50)
  parse bytes :=
    if bytes = line 49 then .ok (receipt 1)
    else if bytes = line 50 then .ok (receipt 2)
    else .error "EOF while parsing an object"

theorem length_line (digit : UInt8) : (line digit).length = 77 := rfl

/-- The sample's texts are all of one length, so no cut or continuation of one is another. -/
theorem parse_of_length {bytes : List UInt8} (h : bytes.length ≠ 77) (decoded : Receipt) :
    codec.parse bytes ≠ .ok decoded := by
  have hne : ∀ digit, bytes ≠ line digit := fun digit heq => h (heq ▸ length_line digit)
  simp [codec, hne]

theorem selfDelimiting (r : Receipt) : codec.SelfDelimiting r where
  cut p decoded hp hne := parse_of_length (fun h => hne (hp.eq_of_length (h.trans (length_line _).symm))) decoded
  glued p next decoded _ hne := by
    refine parse_of_length (fun h => hne ?_) decoded
    rw [List.length_append, codec, length_line] at h
    exact List.eq_nil_of_length_eq_zero (by omega)

theorem serves_one : codec.Serves (receipt 1) := ⟨by decide, by decide, by decide⟩

theorem serves_two : codec.Serves (receipt 2) := ⟨by decide, by decide, by decide⟩

/-- The file after a receipt was torn behind its twentieth byte and another one was appended. -/
def tornFile : List UInt8 := (line 49).take 20 ++ line 50 ++ [newline]

end ReceiptSample

section

open ReceiptSample

theorem receipts_survive_torn_write_iff_cut :
    ReceiptsSurvive codec "receipts/codex:a.jsonl" tornFile [] (receipt 1) [receipt 2] ↔
      (line 49).take 20 = [] ∨ [receipt 2] = [] ∨ ∃ next rest, [receipt 2] = next :: rest ∧
        maxLineBytes < ((line 49).take 20 ++ codec.render next).length ∧ next.refSeq = 0 :=
  receipts_survive_torn_write_iff (List.forall_mem_singleton.mpr serves_two) serves_one (selfDelimiting _)
    (show appendReceipts codec [] [] = .ok [] from rfl)
    (show receiptLine codec (receipt 1) = .ok (line 49 ++ [newline]) by decide)
    (by decide) (by decide) (by decide)

/-- The torn receipt and the next one, which was acknowledged, are one corrupt line: no receipt can be read
any more. -/
theorem receipts_torn_write_counterexample :
    codec.Serves (receipt 1) ∧ codec.Serves (receipt 2) ∧
      receiptLine codec (receipt 1) = .ok (line 49 ++ [newline]) ∧
      (line 49).take 20 <+: line 49 ++ [newline] ∧
      appendReceipts codec ((line 49).take 20) [receipt 2] = .ok tornFile ∧
      readReceiptsSince codec "receipts/codex:a.jsonl" tornFile 0 = .error ⟨.invalidData,
        "corrupt jsonl line in receipts/codex:a.jsonl: EOF while parsing an object"⟩ :=
  ⟨serves_one, serves_two, by decide +kernel, by decide +kernel, by decide +kernel, by decide +kernel⟩

end

end RallyPoint
