/-
# RallyPoint.Segments — reading canonical segment files and folding them into one history (`store.rs`).

A segment is a JSONL file: one canonical row a line, written by appends that a crash may cut. Every replay
reads it by one framing policy: a completed line must decode and validate, blank lines are skipped, and a
last line without its newline is accepted when it is a whole row and ignored when it is torn. Two readers
implement that policy, one over the whole file and one from a byte offset; `readSegmentEntriesFrom_iff` says
where they part. The rows of all segments are then folded by sequence, and what comes out depends on nothing
but which rows there are (`canonicalSegmentEntries_rows`).
-/
import RallyPoint.Fact
import RallyPoint.Lib.Check
import RallyPoint.Lib.Frames
import RallyPoint.Lib.Merge

namespace RallyPoint

open Lib

/-! ## Rows as they are stored -/

namespace Value

mutual

/-- Equality of JSON values, member by member. -/
def decEq : (a b : Value) → Decidable (a = b)
  | .null, .null => isTrue rfl
  | .bool a, .bool b => decidable_of_iff (a = b) (by simp)
  | .number a, .number b => decidable_of_iff (a = b) (by simp)
  | .string a, .string b => decidable_of_iff (a = b) (by simp)
  | .array as, .array bs =>
    match decEqItems as bs with
    | isTrue h => isTrue (by rw [h])
    | isFalse h => isFalse (by simpa using h)
  | .object as, .object bs =>
    match decEqFields as bs with
    | isTrue h => isTrue (by rw [h])
    | isFalse h => isFalse (by simpa using h)
  | .null, .bool _ | .null, .number _ | .null, .string _ | .null, .array _ | .null, .object _
  | .bool _, .null | .bool _, .number _ | .bool _, .string _ | .bool _, .array _ | .bool _, .object _
  | .number _, .null | .number _, .bool _ | .number _, .string _ | .number _, .array _ | .number _, .object _
  | .string _, .null | .string _, .bool _ | .string _, .number _ | .string _, .array _ | .string _, .object _
  | .array _, .null | .array _, .bool _ | .array _, .number _ | .array _, .string _ | .array _, .object _
  | .object _, .null | .object _, .bool _ | .object _, .number _ | .object _, .string _ | .object _, .array _ =>
    isFalse (by simp)

def decEqItems : (as bs : List Value) → Decidable (as = bs)
  | [], [] => isTrue rfl
  | [], _ :: _ | _ :: _, [] => isFalse (by simp)
  | a :: as, b :: bs =>
    match decEq a b, decEqItems as bs with
    | isTrue h, isTrue h' => isTrue (by rw [h, h'])
    | isFalse h, _ => isFalse (by simp [h])
    | _, isFalse h => isFalse (by simp [h])

def decEqFields : (as bs : List (String × Value)) → Decidable (as = bs)
  | [], [] => isTrue rfl
  | [], _ :: _ | _ :: _, [] => isFalse (by simp)
  | (k, a) :: as, (l, b) :: bs =>
    match decEq a b, decEqFields as bs with
    | isTrue h, isTrue h' => decidable_of_iff (k = l) (by simp [h, h'])
    | isFalse h, _ => isFalse (by simp [h])
    | _, isFalse h => isFalse (by simp [h])

end

instance : DecidableEq Value := decEq

/-- `Value::as_str`. -/
def asStr : Value → Option String
  | .string s => some s
  | _ => none

end Value

/-- One canonical row (`LedgerLine`) as a segment stores it: the payload is not decoded yet. -/
structure SegmentRow where
  seq : Int
  occurredAt : String
  eventType : String
  payload : Value
  engagement : Option String := none
  deriving DecidableEq

/-- The JSON decoding of rows and payloads. `parseRow` is `serde_json::from_slice::<LedgerLine>`, `parseFact`
is `serde_json::from_value::<Fact>`; both refuse with a text. -/
structure SegmentCodec where
  parseRow : List UInt8 → Except String SegmentRow
  parseFact : Value → Except String Fact

/-- `Fact::from_segment_value`: the row's sequence overwrites the payload's. -/
def factFromSegmentValue (codec : SegmentCodec) (payload : Value) (seq : Int) : Result Fact :=
  match codec.parseFact payload with
  | .ok fact => .ok { fact with seq := seq }
  | .error e => .error (.message s!"parse fact payload: {e}")

/-- A row's fact has the row's sequence. -/
theorem factFromSegmentValue_seq {codec : SegmentCodec} {payload : Value} {seq : Int} {fact : Fact}
    (h : factFromSegmentValue codec payload seq = .ok fact) : fact.seq = seq := by
  rw [factFromSegmentValue] at h
  split at h
  case _ => rw [← Except.ok.inj h]
  case _ => cases h

/-- The payload's own kind text. -/
def SegmentRow.payloadKind (entry : SegmentRow) : Option String := (entry.payload.get "kind").bind Value.asStr

/-- A kind only a newer program knows: payload and envelope spell it alike and no kind here has the name. -/
def unknownFutureKind (entry : SegmentRow) (fact : Fact) : Option String :=
  if fact.kind != .unknown || (FactKind.parse entry.eventType).isSome then none
  else entry.payloadKind.filter (· == entry.eventType)

def validateCanonicalLineAt (codec : SegmentCodec) (entry : SegmentRow) : Result Fact :=
  if entry.seq ≤ 0 then .error (.message s!"canonical segment row has non-positive seq {entry.seq}")
  else
    match factFromSegmentValue codec entry.payload entry.seq with
    | .error e => .error e
    | .ok fact =>
      if fact.schema != factSchema then
        .error (.message s!"canonical segment row has unsupported fact schema {String.quote fact.schema}")
      else if isBlank fact.eventId then .error (.message "canonical segment row has an empty event_id")
      else if fact.kind == .unknown && entry.eventType == FactKind.unknown.asStr &&
          entry.payloadKind != some entry.eventType then
        let payloadKind := entry.payloadKind.getD "<missing-or-non-string>"
        .error (.message (s!"canonical segment event_type {String.quote entry.eventType} does not match " ++
          s!"payload kind {String.quote payloadKind}"))
      -- a future kind is let through with a warning
      else if entry.eventType != fact.kind.asStr && (unknownFutureKind entry fact).isNone then
        .error (.message (s!"canonical segment event_type {String.quote entry.eventType} does not match " ++
          s!"payload kind {String.quote fact.kind.asStr}"))
      else .ok fact

/-- A completed line without the carriage return of a CRLF ending. -/
def stripCr (bytes : List UInt8) : List UInt8 := if bytes.getLast? = some 13 then bytes.dropLast else bytes

/-! ## The readers -/

def RallyError.text : RallyError → String
  | .usage t => t
  | .message t => t

section Readers

variable (codec : SegmentCodec) (path : String)

/-- The loop of `read_segment_entries_matching_with_policy`, from a line number on. -/
def readLines (ignoreIncompleteTail : Bool) (keep : SegmentRow → Bool) :
    Nat → List (Bool × List UInt8) → Result (List SegmentRow)
  | _, [] => .ok []
  | lineNumber, (hadNewline, line) :: rest =>
    let bytes := if hadNewline then stripCr line else line
    if isBlankLine bytes then readLines ignoreIncompleteTail keep (lineNumber + 1) rest
    else
      match codec.parseRow bytes with
      | .ok entry =>
        match validateCanonicalLineAt codec entry with
        | .error e => .error (.message
            s!"completed canonical segment corruption in {path} at line {lineNumber}: {e.text}")
        | .ok _ =>
          (readLines ignoreIncompleteTail keep (lineNumber + 1) rest).map fun entries =>
            if keep entry then entry :: entries else entries
      | .error e =>
        if !hadNewline && ignoreIncompleteTail then .ok []
        else
          let state := if hadNewline then "completed" else "unterminated"
          .error (.message s!"{state} canonical segment corruption in {path} at line {lineNumber}: {e}")

def readSegmentEntriesMatchingWithPolicy (ignoreIncompleteTail : Bool) (keep : SegmentRow → Bool)
    (content : List UInt8) : Result (List SegmentRow) :=
  readLines codec path ignoreIncompleteTail keep 1 (frameReads newline content)

def readSegmentEntries (content : List UInt8) : Result (List SegmentRow) :=
  readSegmentEntriesMatchingWithPolicy codec path true (fun _ => true) content

def readSegmentEntriesStrict (content : List UInt8) : Result (List SegmentRow) :=
  readSegmentEntriesMatchingWithPolicy codec path false (fun _ => true) content

/-- The loop of `read_segment_entries_from` over the completed lines. -/
def readCompletedFrom (offset : Nat) : List (List UInt8) → Result (List SegmentRow)
  | [] => .ok []
  | raw :: rest =>
    let bytes := stripCr raw
    if isBlankLine bytes then readCompletedFrom offset rest
    else
      match codec.parseRow bytes with
      | .error e => .error (.message
          s!"completed canonical segment corruption in {path} after byte {offset}: {e}")
      | .ok entry =>
        match validateCanonicalLineAt codec entry with
        | .error e => .error e
        | .ok _ => (readCompletedFrom offset rest).map (entry :: ·)

/-- The rows from a byte offset on. Splitting the completed part leaves one more piece, empty and blank. -/
def readSegmentEntriesFrom (content : List UInt8) (offset : Nat) : Result (List SegmentRow) :=
  let bytes := content.drop offset
  match readCompletedFrom codec path offset (frames newline bytes).1 with
  | .error e => .error e
  | .ok entries =>
    let tail := (frames newline bytes).2
    if isBlankLine tail then .ok entries
    else
      match codec.parseRow tail with
      | .error _ => .ok entries
      | .ok entry =>
        match validateCanonicalLineAt codec entry with
        | .error _ => .ok entries
        | .ok _ => .ok (entries ++ [entry])

end Readers

/-! ## What one line contributes -/

section Lines

variable (codec : SegmentCodec)

/-- Whether a row passes the canonical validation. -/
def validRow (entry : SegmentRow) : Bool := (validateCanonicalLineAt codec entry).isOk

/-- The rows of one completed line, none when the line is corrupt. -/
def completedRow (line : List UInt8) : Option (List SegmentRow) :=
  if isBlankLine (stripCr line) then some []
  else
    match codec.parseRow (stripCr line) with
    | .ok entry => if validRow codec entry then some [entry] else none
    | .error _ => none

/-- The row of a last line that is whole and valid without its newline. -/
def tailRow (tail : List UInt8) : List SegmentRow :=
  if isBlankLine tail then []
  else
    match codec.parseRow tail with
    | .ok entry => if validRow codec entry then [entry] else []
    | .error _ => []

/-- A last line that decodes to a row and fails its validation. -/
def TailFailsValidation (tail : List UInt8) : Prop :=
  isBlankLine tail = false ∧ ∃ entry, codec.parseRow tail = .ok entry ∧ validRow codec entry = false

end Lines

section Spec

variable {codec : SegmentCodec} {path : String} {content : List UInt8} {rows : List SegmentRow}
variable {lines : List (List UInt8)}

variable (codec) in
theorem validateCanonicalLineAt_cases (entry : SegmentRow) :
    (∃ fact, validateCanonicalLineAt codec entry = .ok fact ∧ validRow codec entry = true) ∨
      ∃ e, validateCanonicalLineAt codec entry = .error e ∧ validRow codec entry = false := by
  unfold validRow
  cases validateCanonicalLineAt codec entry with
  | ok fact => exact .inl ⟨fact, rfl, rfl⟩
  | error e => exact .inr ⟨e, rfl, rfl⟩

/-- A valid row has a fact. -/
theorem exists_fact_of_validRow {entry : SegmentRow} (h : validRow codec entry = true) :
    ∃ fact, factFromSegmentValue codec entry.payload entry.seq = .ok fact := by
  cases hfact : factFromSegmentValue codec entry.payload entry.seq with
  | ok fact => exact ⟨fact, rfl⟩
  | error e =>
    unfold validRow validateCanonicalLineAt at h
    rw [hfact] at h
    split at h <;> cases h

/-- The loop over completed lines, in either reader, gathers their rows. -/
theorem readCompletedFrom_ok_iff {offset : Nat} :
    readCompletedFrom codec path offset lines = .ok rows ↔ gather (completedRow codec) lines = some rows := by
  induction lines generalizing rows with
  | nil => simp [readCompletedFrom, gather]
  | cons line lines ih =>
    rw [readCompletedFrom, gather, completedRow]
    cases hblank : isBlankLine (stripCr line) with
    | true => simp [ih]
    | false =>
      cases hparse : codec.parseRow (stripCr line) with
      | error e => simp
      | ok entry =>
        rcases validateCanonicalLineAt_cases codec entry with ⟨fact, hval, hvalid⟩ | ⟨e, hval, hvalid⟩
        · simp [hval, hvalid, map_eq_ok_iff, ih]
        · simp [hval, hvalid]

/-- The whole-file loop over completed lines goes on to what follows them. -/
theorem readLines_completed {ignoreTail : Bool} {n : Nat} (rest : List (Bool × List UInt8)) :
    readLines codec path ignoreTail (fun _ => true) n (lines.map (true, ·) ++ rest) = .ok rows ↔
      ∃ done later, gather (completedRow codec) lines = some done ∧
        readLines codec path ignoreTail (fun _ => true) (n + lines.length) rest = .ok later ∧
        rows = done ++ later := by
  induction lines generalizing n rows with
  | nil => simp [gather]
  | cons line lines ih =>
    rw [List.map_cons, List.cons_append, readLines, gather, completedRow]
    have hlen : n + (line :: lines).length = n + 1 + lines.length := by
      rw [List.length_cons]
      omega
    rw [hlen]
    cases hblank : isBlankLine (stripCr line) with
    | true => simp [hblank, ih]
    | false =>
      cases hparse : codec.parseRow (stripCr line) with
      | error e => simp [hblank, hparse]
      | ok entry =>
        rcases validateCanonicalLineAt_cases codec entry with ⟨fact, hval, hvalid⟩ | ⟨e, hval, hvalid⟩
        · simp only [if_true, hblank, hparse, hval, hvalid, map_eq_ok_iff, ih, Bool.false_eq_true, if_false,
            Option.bind_some, Option.map_eq_some_iff]
          constructor
          · rintro ⟨a, ⟨done, later, hdone, hlater, rfl⟩, rfl⟩
            exact ⟨entry :: done, later, ⟨done, hdone, rfl⟩, hlater, rfl⟩
          · rintro ⟨_, later, ⟨done, hdone, rfl⟩, hlater, rfl⟩
            exact ⟨done ++ later, ⟨done, later, hdone, hlater, rfl⟩, rfl⟩
        · simp [hblank, hparse, hval, hvalid]

/-- What the whole-file reader makes of the last line. -/
theorem readLines_tail {n : Nat} {tail : List UInt8} :
    readLines codec path true (fun _ => true) n (if tail.isEmpty then [] else [(false, tail)]) = .ok rows ↔
      rows = tailRow codec tail ∧ ¬TailFailsValidation codec tail := by
  have hok : ∀ x : List SegmentRow, (.ok x : Result (List SegmentRow)) = .ok rows ↔ rows = x := fun x =>
    ⟨fun h => (Except.ok.inj h).symm, fun h => by rw [h]⟩
  cases tail with
  | nil => simp [-Except.ok.injEq, hok, readLines, tailRow, TailFailsValidation, isBlankLine]
  | cons c cs =>
    rw [List.isEmpty_cons, if_neg (by decide), readLines]
    unfold tailRow TailFailsValidation
    cases hblank : isBlankLine (c :: cs) with
    | true => simp [-Except.ok.injEq, hok, hblank, readLines]
    | false =>
      cases hparse : codec.parseRow (c :: cs) with
      | error e => simp [-Except.ok.injEq, hok, hblank, hparse]
      | ok entry =>
        rcases validateCanonicalLineAt_cases codec entry with ⟨fact, hval, hvalid⟩ | ⟨e, hval, hvalid⟩
        · simp only [hblank, hparse, hval, hvalid, readLines, Except.map, hok, Bool.false_eq_true, if_false, if_true]
          exact (and_iff_left fun h => by
            obtain ⟨-, x, hx, hinvalid⟩ := h
            rw [← Except.ok.inj hx, hvalid] at hinvalid
            cases hinvalid).symm
        · simp [hblank, hparse, hval, hvalid]

/-- **The whole-file reader:** the completed rows, and the row of the last line unless it fails. -/
theorem readSegmentEntries_ok_iff :
    readSegmentEntries codec path content = .ok rows ↔
      ∃ done, gather (completedRow codec) (frames newline content).1 = some done ∧
        ¬TailFailsValidation codec (frames newline content).2 ∧
          rows = done ++ tailRow codec (frames newline content).2 := by
  unfold readSegmentEntries readSegmentEntriesMatchingWithPolicy frameReads
  rw [readLines_completed]
  simp only [readLines_tail]
  constructor
  · rintro ⟨done, later, hdone, ⟨rfl, htail⟩, rfl⟩
    exact ⟨done, hdone, htail, rfl⟩
  · rintro ⟨done, hdone, htail, rfl⟩
    exact ⟨done, _, hdone, ⟨rfl, htail⟩, rfl⟩

/-- **The strict reader** over a file whose last line is completed. -/
theorem readSegmentEntriesStrict_framed (hlines : ∀ line ∈ lines, newline ∉ line) :
    readSegmentEntriesStrict codec path (framed newline lines) = .ok rows ↔
      gather (completedRow codec) lines = some rows := by
  have hframes : frames newline (framed newline lines) = (lines, []) := by
    have h := frames_framed_append hlines []
    rwa [List.append_nil, show frames newline [] = ([], []) from rfl, List.append_nil] at h
  unfold readSegmentEntriesStrict readSegmentEntriesMatchingWithPolicy frameReads
  rw [hframes, readLines_completed]
  constructor
  · rintro ⟨done, later, hdone, hlater, rfl⟩
    cases hlater
    rwa [List.append_nil]
  · intro h
    exact ⟨rows, [], h, rfl, (List.append_nil rows).symm⟩

/-- **The reader from an offset:** the same rows, and a last line that fails is ignored. -/
theorem readSegmentEntriesFrom_ok_iff {offset : Nat} :
    readSegmentEntriesFrom codec path content offset = .ok rows ↔
      ∃ done, gather (completedRow codec) (frames newline (content.drop offset)).1 = some done ∧
        rows = done ++ tailRow codec (frames newline (content.drop offset)).2 := by
  unfold readSegmentEntriesFrom tailRow
  dsimp only
  cases hdone : readCompletedFrom codec path offset (frames newline (content.drop offset)).1 with
  | error e =>
    have hnone : ∀ done, gather (completedRow codec) (frames newline (content.drop offset)).1 ≠ some done := by
      intro done h
      have hok := hdone.symm.trans (readCompletedFrom_ok_iff.mpr h)
      cases hok
    simp [hnone]
  | ok done =>
    rw [readCompletedFrom_ok_iff] at hdone
    simp only [hdone, Option.some.injEq, exists_eq_left']
    split
    case isTrue => simp [eq_comm (a := rows)]
    case isFalse =>
      cases hparse : codec.parseRow (frames newline (content.drop offset)).2 with
      | error e => simp [eq_comm (a := rows)]
      | ok entry =>
        rcases validateCanonicalLineAt_cases codec entry with ⟨fact, hval, hvalid⟩ | ⟨e, hval, hvalid⟩
        · simp [hval, hvalid, eq_comm (a := rows)]
        · simp [hval, hvalid, eq_comm (a := rows)]

/-- An offset where a line starts: the file's first, or one right behind a newline. -/
def LineBoundary (content : List UInt8) (offset : Nat) : Prop :=
  offset = 0 ∨ ∃ n, offset = n + 1 ∧ content[n]? = some newline

theorem frames_take_of_lineBoundary {offset : Nat} (h : LineBoundary content offset) :
    (frames newline (content.take offset)).2 = [] := by
  rw [frames_snd_eq_nil_iff]
  rcases h with rfl | ⟨n, rfl, h⟩
  · exact .inl rfl
  · right
    have hlt : n < content.length := (List.getElem?_eq_some_iff.mp h).1
    rw [List.getLast?_eq_getElem?, List.length_take, min_eq_left hlt, Nat.add_sub_cancel,
      List.getElem?_take_of_lt (Nat.lt_succ_self n), h]

/-- What reading from an offset owes to reading the whole file: it succeeds exactly when the rest of the file
can be read, and gives the rows that a whole reading finds behind those of the lines before the offset. -/
def IncrementalMatchesFull (codec : SegmentCodec) (path : String) (content : List UInt8) (offset : Nat) :
    Prop :=
  (∀ rows, readSegmentEntriesFrom codec path content offset = .ok rows ↔
    readSegmentEntries codec path (content.drop offset) = .ok rows) ∧
  ∀ all rows, readSegmentEntries codec path content = .ok all →
    readSegmentEntriesFrom codec path content offset = .ok rows →
      ∃ before, readSegmentEntries codec path (content.take offset) = .ok before ∧ all = before ++ rows

/-- **The two readers agree** unless the completed lines are sound and the last line, without its newline,
decodes to a row that fails validation: the whole reading refuses it, the reading from the offset drops it. -/
theorem readSegmentEntriesFrom_iff {offset : Nat} (h : LineBoundary content offset) :
    IncrementalMatchesFull codec path content offset ↔
      ((gather (completedRow codec) (frames newline (content.drop offset)).1).isSome →
        ¬TailFailsValidation codec (frames newline content).2) := by
  have htake := frames_take_of_lineBoundary h
  -- the frames of the file are those before the offset and those behind it
  have hframes := frames_append_of_boundary htake (content.drop offset)
  rw [List.take_append_drop] at hframes
  rw [hframes]
  constructor
  · rintro ⟨hsame, -⟩ hdone htail
    obtain ⟨done, hdone⟩ := Option.isSome_iff_exists.mp hdone
    obtain ⟨-, -, hsound, -⟩ := readSegmentEntries_ok_iff.mp
      ((hsame _).mp (readSegmentEntriesFrom_ok_iff.mpr ⟨done, hdone, rfl⟩))
    exact hsound htail
  · intro hsound
    refine ⟨fun rows => ?_, fun all rows hall hrows => ?_⟩
    · rw [readSegmentEntriesFrom_ok_iff, readSegmentEntries_ok_iff]
      refine exists_congr fun done => and_congr_right fun hdone => ?_
      exact (and_iff_right (hsound (by rw [hdone]; rfl))).symm
    · obtain ⟨done, hdone, rfl⟩ := readSegmentEntriesFrom_ok_iff.mp hrows
      obtain ⟨doneAll, hdoneAll, -, rfl⟩ := readSegmentEntries_ok_iff.mp hall
      rw [hframes] at hdoneAll
      obtain ⟨before, later, hbefore, hlater, rfl⟩ := gather_append_eq_some_iff.mp hdoneAll
      rw [hdone, Option.some.injEq] at hlater
      refine ⟨before, readSegmentEntries_ok_iff.mpr ⟨before, hbefore, ?_, ?_⟩, ?_⟩
      · rw [htake]
        exact fun hfail => absurd hfail.1 (by decide)
      · rw [htake]
        exact (List.append_nil before).symm
      · rw [hframes, ← hlater, List.append_assoc]

end Spec

namespace SegmentSample

/-- The JSON text of a claim row. -/
def line (seq : String) : List UInt8 :=
  ascii ("\x7b\"seq\":" ++ seq ++ ",\"occurred_at\":\"2026-01-01T00:00:00Z\",\"event_type\":\"claim\"," ++
    "\"payload\":\x7b\"event_id\":\"c1\",\"kind\":\"claim\"\x7d\x7d")

def row (seq : Int) : SegmentRow where
  seq := seq
  occurredAt := "2026-01-01T00:00:00Z"
  eventType := "claim"
  payload := .object [("event_id", .string "c1"), ("kind", .string "claim")]

/-- The decoding of the sample's lines and of any cut of them. -/
def codec : SegmentCodec where
  parseRow bytes :=
    if bytes = line "0" then .ok (row 0)
    else if bytes = line "1" then .ok (row 1)
    else .error "EOF while parsing an object"
  parseFact _ := .ok { eventId := "c1", kind := .claim }

end SegmentSample

open SegmentSample

/-- A torn row behind a sound one: both readers keep the sound row and ignore the rest. -/
theorem readSegmentEntriesFrom_iff_torn :
    IncrementalMatchesFull codec "log/a.jsonl" (line "1" ++ [newline] ++ (line "1").take 20) 0 :=
  (readSegmentEntriesFrom_iff (.inl rfl)).mpr fun _ hfail => by
    obtain ⟨-, entry, hentry, -⟩ := hfail
    have htorn : (codec.parseRow (frames newline (line "1" ++ [newline] ++ (line "1").take 20)).2).isOk =
        false := by decide +kernel
    rw [hentry] at htorn
    cases htorn

/-- A last line that decodes to a row of sequence zero: dropped by the one reader, refused by the other. -/
theorem readSegmentEntriesFrom_counterexample :
    LineBoundary (line "0") 0 ∧
      readSegmentEntriesFrom codec "log/a.jsonl" (line "0") 0 = .ok [] ∧
      readSegmentEntries codec "log/a.jsonl" ((line "0").drop 0) = .error (.message
        ("completed canonical segment corruption in log/a.jsonl at line 1: " ++
          "canonical segment row has non-positive seq 0")) :=
  ⟨.inl rfl, by decide +kernel, by decide +kernel⟩

/-! ## One history from all segments -/

/-- The fold over the replay sources, each read in its turn. -/
def foldSources {F : Type} (read : F → Result (List SegmentRow)) :
    List SegmentRow → List F → Result (List SegmentRow)
  | bySeq, [] => .ok bySeq
  | bySeq, source :: rest =>
    match read source with
    | .error e => .error e
    | .ok entries =>
      match mergeRows (·.seq) bySeq entries with
      | .error seq => .error (.message
          s!"conflicting canonical segment rows at seq {seq}: full LedgerLine values differ")
      | .ok bySeq' => foldSources read bySeq' rest

/-- `canonical_segment_entries`: live segments first, then the archived ones. -/
def canonicalSegmentEntries {F : Type} (read : F → Result (List SegmentRow)) (live archived : List F) :
    Result (List SegmentRow) :=
  foldSources read [] (live ++ archived)

section Canonical

variable {F : Type} {read : F → Result (List SegmentRow)} {sources live archived : List F}
variable {bySeq out : List SegmentRow}

/-- All rows of all sources, none when one of them cannot be read. -/
def sourceRows (read : F → Result (List SegmentRow)) : List F → Option (List SegmentRow)
  | [] => some []
  | source :: rest =>
    match read source with
    | .error _ => none
    | .ok entries => (sourceRows read rest).map (entries ++ ·)

/-- The rows of sources that can all be read. -/
theorem sourceRows_eq_some {rows : List SegmentRow} (h : sourceRows read sources = some rows) :
    (∀ source ∈ sources, ∃ entries, read source = .ok entries) ∧
      ∀ row, row ∈ rows ↔ ∃ source ∈ sources, ∃ entries, read source = .ok entries ∧ row ∈ entries := by
  induction sources generalizing rows with
  | nil =>
    rw [← Option.some.inj h]
    exact ⟨fun source hs => absurd hs List.not_mem_nil, by simp⟩
  | cons source rest ih =>
    rw [sourceRows] at h
    split at h
    case _ => cases h
    case _ entries hread =>
      obtain ⟨later, hlater, rfl⟩ := Option.map_eq_some_iff.mp h
      obtain ⟨hreadable, hmem⟩ := ih hlater
      refine ⟨List.forall_mem_cons.mpr ⟨⟨entries, hread⟩, hreadable⟩, fun row => ?_⟩
      rw [List.mem_append, hmem, List.exists_mem_cons_iff, hread]
      simp only [Except.ok.injEq, exists_eq_left']

theorem exists_sourceRows (h : ∀ source ∈ sources, ∃ entries, read source = .ok entries) :
    ∃ rows, sourceRows read sources = some rows := by
  induction sources with
  | nil => exact ⟨[], rfl⟩
  | cons source rest ih =>
    rw [List.forall_mem_cons] at h
    obtain ⟨⟨entries, hread⟩, hrest⟩ := h
    obtain ⟨rows, hrows⟩ := ih hrest
    exact ⟨entries ++ rows, by rw [sourceRows, hread, hrows]; rfl⟩

theorem foldSources_ok_iff :
    foldSources read bySeq sources = .ok out ↔
      ∃ rows, sourceRows read sources = some rows ∧ mergeRows (·.seq) bySeq rows = .ok out := by
  induction sources generalizing bySeq with
  | nil => simp [foldSources, sourceRows, mergeRows]
  | cons source rest ih =>
    rw [foldSources, sourceRows]
    cases read source with
    | error e => simp
    | ok entries =>
      simp only [Option.map_eq_some_iff]
      constructor
      · intro h
        cases hmerge : mergeRows (·.seq) bySeq entries with
        | error seq =>
          rw [hmerge] at h
          cases h
        | ok bySeq' =>
          rw [hmerge] at h
          obtain ⟨rows, hrows, hout⟩ := ih.mp h
          exact ⟨entries ++ rows, ⟨rows, hrows, rfl⟩, mergeRows_append_ok_iff.mpr ⟨bySeq', hmerge, hout⟩⟩
      · rintro ⟨_, ⟨rows, hrows, rfl⟩, hout⟩
        obtain ⟨bySeq', hmerge, hout⟩ := mergeRows_append_ok_iff.mp hout
        rw [hmerge]
        exact ih.mpr ⟨rows, hrows, hout⟩

/-- **The canonical history** is every row of every source, once, in sequence order. -/
theorem canonicalSegmentEntries_ok_iff :
    canonicalSegmentEntries read live archived = .ok out ↔
      ∃ rows, sourceRows read (live ++ archived) = some rows ∧ Consistent (·.seq) rows ∧
        KeyOrdered (·.seq) out ∧ ∀ row, row ∈ out ↔ row ∈ rows := by
  rw [canonicalSegmentEntries, foldSources_ok_iff]
  simp only [mergeRows_ok_iff]

@[simp] theorem sourceRows_ok (segments : List (List SegmentRow)) :
    sourceRows Except.ok segments = some segments.flatten := by
  induction segments with
  | nil => rfl
  | cons segment segments ih =>
    simp only [sourceRows, ih]
    rfl

/-- **The merge of segments** that are given by their rows. It succeeds exactly when no two rows of one
sequence differ; the result is strictly increasing and has one copy of each row and nothing else; and any
other family with the same rows, however they are spread, copied or ordered, gives the same result. -/
theorem canonicalSegmentEntries_rows (live archived : List (List SegmentRow)) :
    ((∃ out, canonicalSegmentEntries Except.ok live archived = .ok out) ↔
      ∀ x ∈ (live ++ archived).flatten, ∀ y ∈ (live ++ archived).flatten, x.seq = y.seq → x = y) ∧
    (∀ out, canonicalSegmentEntries Except.ok live archived = .ok out →
      (out.Pairwise fun a b => a.seq < b.seq) ∧ out.Nodup ∧
        ∀ row, row ∈ out ↔ row ∈ (live ++ archived).flatten) ∧
    ∀ live' archived', (∀ row, row ∈ (live' ++ archived').flatten ↔ row ∈ (live ++ archived).flatten) →
      ∀ out, canonicalSegmentEntries Except.ok live' archived' = .ok out ↔
        canonicalSegmentEntries Except.ok live archived = .ok out := by
  simp only [canonicalSegmentEntries, foldSources_ok_iff, sourceRows_ok, Option.some.injEq, exists_eq_left']
  refine ⟨⟨fun ⟨out, hout⟩ => (mergeRows_ok_iff.mp hout).1, exists_mergeRows⟩, fun out hout => ?_, ?_⟩
  · obtain ⟨-, hordered, hmem⟩ := mergeRows_ok_iff.mp hout
    exact ⟨hordered, hordered.nodup, hmem⟩
  · exact fun live' archived' hsame out => mergeRows_congr hsame

end Canonical

end RallyPoint
