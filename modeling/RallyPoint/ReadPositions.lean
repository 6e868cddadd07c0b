/-
# RallyPoint.ReadPositions — how far each tool has read (`store.rs`).

A tool's read position is kept twice: as `read` checkpoints on the ledger, and in `cursors.json`, which `enter`
writes and which needs no ledger row. Two readers merge them. `cursor_for` asks the derived database for the
highest checkpoint and looks into the file only when there is none above zero. The receipts take the file and
raise every entry to the highest checkpoint. They agree as long as the file is not ahead.

A checkpoint is appended only when it advances its tool, which the append decides from the canonical rows under
the mutation lock; so the calls of any clients are one sequence of calls.
-/
import RallyPoint.Append
import RallyPoint.DerivedDb
import RallyPoint.Lib.Codec
import RallyPoint.Lib.OrderedMap

namespace RallyPoint

open Lib

/-! ## Checkpoints -/

/-- The position a fact's summary spells. -/
def readSeqOf (fact : Fact) : Option Int := (fact.summary.bind (stripPrefix "read_seq:")).bind parseI64

/-- The position a fact records for a tool, if it is a read checkpoint of that tool. -/
def checkpointOf (tool : String) (fact : Fact) : Option Int :=
  if fact.kind = .read ∧ fact.tool = some tool then readSeqOf fact else none

/-- The positions recorded for a tool. -/
def checkpoints (facts : List Fact) (tool : String) : List Int := facts.filterMap (checkpointOf tool)

/-- `last_checkpoint_seq`, over the rows of the derived database. -/
def lastCheckpointSeq (rows : List DbRow) (tool : String) : Int :=
  let records := rows.filter fun row => row.eventType == "read"
  (records.filterMap fun row => if row.fact.tool = some tool then readSeqOf row.fact else none).max?.getD 0

/-! ## The two readers -/

/-- What is at the path of `cursors.json`. -/
inductive CursorsFile
  | missing
  | unreadable (cause : String)
  | text (content : String)

/-- `read_cursors_at`: a file that is no such object counts as one without cursors. -/
def readCursorsAt (ext : Externals) (path : String) : CursorsFile → Result (List (String × Int))
  | .missing => .ok []
  | .unreadable cause => .error (.message s!"read {path}: {cause}")
  | .text content =>
    match (ext.jsonFromStr content).bind (·.get "cursors") with
    | some (.object cursors) =>
      .ok (OrderedMap.updateAll (fun seq _ => seq) []
        (cursors.filterMap fun cursor => cursor.2.asI64.map (cursor.1, ·)))
    | _ => .ok []

def cursorFor (ext : Externals) (path : String) (rows : List DbRow) (file : CursorsFile) (tool : String) :
    Result Int :=
  let ledgerSeq := lastCheckpointSeq rows tool
  if 0 < ledgerSeq then .ok ledgerSeq
  else (readCursorsAt ext path file).map fun cursors => (OrderedMap.get cursors tool).getD 0

structure ReadReceipt where
  tool : String
  lastReadSeq : Int
  behindBy : Int
  status : String
  deriving DecidableEq, Repr

def readReceipt (maxSeq : Int) (entry : String × Int) : ReadReceipt :=
  let behindBy := max (wrapI64 (maxSeq - entry.2)) 0
  { tool := entry.1
    lastReadSeq := entry.2
    behindBy := behindBy
    status := if behindBy = 0 then "caught_up" else "behind" }

/-- Every checkpoint with its tool. -/
def ledgerReads (facts : List Fact) : List (String × Int) :=
  facts.filterMap fun fact =>
    if fact.kind = .read then fact.tool.bind fun tool => (readSeqOf fact).map (tool, ·) else none

def projectReadReceiptsFromCapturedFacts (facts : List Fact) (maxSeq : Int) (cursors : List (String × Int)) :
    List ReadReceipt :=
  let reads := OrderedMap.updateAll (OrderedMap.raise 0) [] (ledgerReads facts)
  let combined := OrderedMap.updateAll (OrderedMap.raise 0) cursors reads
  combined.map (readReceipt maxSeq)

/-- `project_read_receipts`: a file that cannot be read counts as one without cursors. -/
def projectReadReceipts (ext : Externals) (path : String) (facts : List Fact) (file : CursorsFile) (maxSeq : Int) :
    List ReadReceipt :=
  projectReadReceiptsFromCapturedFacts facts maxSeq ((readCursorsAt ext path file).toOption.getD [])

/-- The position the receipts report for a tool. -/
def reportedPosition (receipts : List ReadReceipt) (tool : String) : Option Int :=
  (receipts.find? fun receipt => receipt.tool = tool).map (·.lastReadSeq)

/-! ## Appending a checkpoint -/

/-- One call of `maybe_append_read_checkpoint`, under the room it finds. -/
structure CheckpointCall where
  env : AppendEnv
  checkpoint : Fact
  readSeq : Codec.I64

/-- `none` when the position did not advance. -/
def maybeAppendReadCheckpoint (facts : List Fact) (call : CheckpointCall) : Result (Option AppendOutcome) := do
  validateAppendIdentity call.checkpoint
  assertFieldBounds call.checkpoint
  if call.checkpoint.kind ≠ .read then .error (.usage "read checkpoint request must carry kind=read")
  else
    match call.checkpoint.tool with
    | none => .error (.usage "read checkpoint request requires tool")
    | some tool =>
      if call.checkpoint.summary ≠ some ("read_seq:" ++ toString call.readSeq.val) then
        .error (.usage "read checkpoint summary does not match requested read_seq")
      else
        match ← resolveCanonicalEventId call.env facts call.checkpoint with
        -- a repeated request resolves to its row
        | some _ => (appendFactUnderLock call.env facts call.checkpoint).map some
        | none =>
          if call.readSeq.val ≤ (checkpoints facts tool).max?.getD 0 then .ok none
          else (appendFactUnderLock call.env facts call.checkpoint).map some

/-- The row a call adds. -/
def appended (facts : List Fact) (call : CheckpointCall) : Option Fact :=
  match maybeAppendReadCheckpoint facts call with
  | .ok (some (.committed fact)) => some fact
  | _ => none

/-- The rows a sequence of calls adds, each call finding the rows of those before it. -/
def admitted (facts : List Fact) : List CheckpointCall → List Fact
  | [] => []
  | call :: rest =>
    match appended facts call with
    | some fact => fact :: admitted (facts ++ [fact]) rest
    | none => admitted facts rest

/-! ## Where the readers agree -/

/-- What the derived database has of a canonical row: the payload, and an event type that tells a checkpoint. -/
def RowMirrors (row : DbRow) (fact : Fact) : Prop :=
  row.payload = fact ∧ (row.eventType = "read" ↔ fact.kind = .read)

/-- A ledger with its derived database. -/
structure ReadRoom where
  facts : List Fact
  rows : List DbRow
  mirrors : List.Forall₂ RowMirrors rows facts

section Readers

variable (ext : Externals) (path : String)

/-- `cursor_for` returns the position that is reported. -/
def OnePosition (room : ReadRoom) (file : CursorsFile) (tool : String) : Prop :=
  ∀ maxSeq n, reportedPosition (projectReadReceipts ext path room.facts file maxSeq) tool = some n →
    cursorFor ext path room.rows file tool = .ok n

/-- The cursor the file has for a tool, 0 when it has none or cannot be read. -/
def fileSeq (file : CursorsFile) (tool : String) : Int :=
  (OrderedMap.get ((readCursorsAt ext path file).toOption.getD []) tool).getD 0

/-- The highest position recorded for a tool, 0 when there is none. -/
def topCheckpoint (facts : List Fact) (tool : String) : Int := (checkpoints facts tool).max?.getD 0

/-- For a tool with a checkpoint the file is not ahead of the ledger: its cursor is at most the highest
checkpoint. Where no checkpoint is above zero, the file can be read and its cursor is not below zero. -/
def FileKeepsUp (facts : List Fact) (file : CursorsFile) (tool : String) : Prop :=
  checkpoints facts tool ≠ [] →
    (0 < topCheckpoint facts tool → fileSeq ext path file tool ≤ topCheckpoint facts tool) ∧
      (topCheckpoint facts tool ≤ 0 →
        0 ≤ fileSeq ext path file tool ∧ ∃ cursors, readCursorsAt ext path file = .ok cursors)

end Readers

section Positions

variable {ext : Externals} {path : String} {facts more : List Fact} {rows : List DbRow} {file : CursorsFile}
variable {tool : String} {cursors : List (String × Int)} {maxSeq : Int} {fact : Fact}

theorem readSeqOf_of_summary {n : Codec.I64} (h : fact.summary = some ("read_seq:" ++ toString n.val)) :
    readSeqOf fact = some n.val := by
  have hbound := n.property
  rw [readSeqOf, h, Option.bind_some, stripPrefix_append, Option.bind_some]
  apply parseI64_toString_int <;> omega

theorem checkpoints_append : checkpoints (facts ++ more) tool = checkpoints facts tool ++ checkpoints more tool :=
  List.filterMap_append

/-- The database's rows give the checkpoints of the ledger. -/
theorem lastCheckpointSeq_eq (h : List.Forall₂ RowMirrors rows facts) :
    lastCheckpointSeq rows tool = topCheckpoint facts tool := by
  have hfact : ∀ row : DbRow, row.fact.tool = row.payload.tool ∧ readSeqOf row.fact = readSeqOf row.payload := by
    intro row
    unfold DbRow.fact
    split <;> exact ⟨rfl, rfl⟩
  have hrecords : (rows.filter fun row => row.eventType == "read").filterMap
      (fun row => if row.fact.tool = some tool then readSeqOf row.fact else none) = checkpoints facts tool := by
    unfold checkpoints
    induction h with
    | nil => rfl
    | @cons row fact rows facts hhead _ ih =>
      obtain ⟨rfl, hkind⟩ := hhead
      rw [List.filterMap_cons, checkpointOf, List.filter_cons]
      by_cases hread : row.payload.kind = .read
      · rw [if_pos (by simpa using hkind.mpr hread), List.filterMap_cons, ih, (hfact row).1, (hfact row).2]
        simp only [hread, true_and]
      · rw [if_neg (by simpa using fun heq => hread (hkind.mp heq)), ih]
        simp only [hread, false_and, if_false]
  rw [lastCheckpointSeq, topCheckpoint, ← hrecords]

theorem valuesAt_ledgerReads : OrderedMap.valuesAt (ledgerReads facts) tool = checkpoints facts tool := by
  induction facts with
  | nil => rfl
  | cons fact facts ih =>
    have hsplit : ledgerReads (fact :: facts) = ledgerReads [fact] ++ ledgerReads facts :=
      @List.filterMap_append _ _ [fact] facts _
    have hhead : OrderedMap.valuesAt (ledgerReads [fact]) tool = checkpoints [fact] tool := by
      unfold OrderedMap.valuesAt ledgerReads checkpoints checkpointOf
      by_cases hread : fact.kind = .read
      · cases htool : fact.tool with
        | none => simp [hread, htool]
        | some t => cases hseq : readSeqOf fact <;> by_cases ht : t = tool <;> simp [hread, htool, hseq, ht]
      · simp [hread]
    rw [hsplit, OrderedMap.valuesAt, List.filter_append, List.map_append, ← OrderedMap.valuesAt,
      ← OrderedMap.valuesAt, ih, hhead, ← checkpoints_append]
    rfl

theorem fileSeq_of_read (h : readCursorsAt ext path file = .ok cursors) :
    fileSeq ext path file tool = (OrderedMap.get cursors tool).getD 0 := by
  rw [fileSeq, h]
  rfl

theorem keyOrdered_readCursorsAt :
    KeyOrdered (·.1) ((readCursorsAt ext path file).toOption.getD []) := by
  cases file with
  | missing | unreadable _ => exact List.Pairwise.nil
  | text content =>
    rw [readCursorsAt]
    split
    · rw [Except.toOption, Option.getD_some]
      exact OrderedMap.keyOrdered_updateAll List.Pairwise.nil
    · exact List.Pairwise.nil

/-- **The reported position:** the file's cursor, raised to the checkpoints and to zero where there are any. -/
theorem reportedPosition_eq :
    reportedPosition (projectReadReceipts ext path facts file maxSeq) tool =
      if checkpoints facts tool = [] then
        OrderedMap.get ((readCursorsAt ext path file).toOption.getD []) tool
      else some (max (fileSeq ext path file tool) (max 0 (topCheckpoint facts tool))) := by
  have hget : ∀ m : List (String × Int), reportedPosition (m.map (readReceipt maxSeq)) tool =
      OrderedMap.get m tool := by
    intro m
    rw [reportedPosition, List.find?_map, Option.map_map, OrderedMap.get]
    rfl
  have hreads := @OrderedMap.keyOrdered_updateAll _ _ _ _ [] (OrderedMap.raise (0 : Int)) (ledgerReads facts)
    List.Pairwise.nil
  rw [projectReadReceipts, projectReadReceiptsFromCapturedFacts, hget,
    OrderedMap.get_updateAll keyOrdered_readCursorsAt, OrderedMap.valuesAt_eq_toList hreads,
    OrderedMap.get_updateAll List.Pairwise.nil, valuesAt_ledgerReads, OrderedMap.get_nil]
  by_cases hnone : checkpoints facts tool = []
  · rw [if_pos hnone, hnone]
    rfl
  · rw [if_neg hnone, OrderedMap.foldl_raise 0 (checkpoints facts tool) none, if_neg hnone, Option.toList_some,
      List.foldl_cons, List.foldl_nil, OrderedMap.raise_eq, Option.getD_none, OrderedMap.foldl_max_eq]
    unfold topCheckpoint
    cases hmax : (checkpoints facts tool).max? with
    | none => exact absurd (List.max?_eq_none_iff.mp hmax) hnone
    | some top => rfl

/-- **One position** for a tool, exactly where the file keeps up with the ledger. -/
theorem onePosition_iff (room : ReadRoom) :
    OnePosition ext path room file tool ↔ FileKeepsUp ext path room.facts file tool := by
  unfold OnePosition FileKeepsUp cursorFor
  simp only [reportedPosition_eq, lastCheckpointSeq_eq room.mirrors]
  by_cases hnone : checkpoints room.facts tool = []
  · -- only the file has a position, and both readers take it
    have htop : topCheckpoint room.facts tool = 0 := by rw [topCheckpoint, hnone]; rfl
    simp only [hnone, htop, if_true, ne_eq, not_true_eq_false, false_imp_iff, iff_true]
    intro maxSeq n hn
    cases hread : readCursorsAt ext path file with
    | error e => simp [hread, Except.toOption] at hn
    | ok cursors =>
      simp only [hread, Except.toOption, Option.getD_some] at hn
      simp [Except.map, hn]
  · simp only [hnone, if_false, ne_eq, not_false_eq_true, true_imp_iff, Option.some.injEq]
    by_cases htop : 0 < topCheckpoint room.facts tool
    · -- the checkpoints answer alone
      simp only [htop, if_true, true_imp_iff, Except.ok.injEq, not_le.mpr htop, false_imp_iff, and_true]
      constructor
      · intro h
        have := h 0 _ rfl
        omega
      · intro hle maxSeq n hn
        omega
    · -- the file answers, and the receipts put it at least at zero
      simp only [htop, if_false, false_imp_iff, true_and, not_lt.mp htop, true_imp_iff, map_eq_ok_iff]
      have hzero : max 0 (topCheckpoint room.facts tool) = 0 := max_eq_left (not_lt.mp htop)
      rw [hzero]
      constructor
      · intro h
        obtain ⟨cursors, hread, heq⟩ := h 0 _ rfl
        refine ⟨?_, cursors, hread⟩
        have hfile := @fileSeq_of_read _ _ _ tool _ hread
        omega
      · rintro ⟨hpos, cursors, hread⟩ maxSeq n hn
        refine ⟨cursors, hread, ?_⟩
        have hfile := @fileSeq_of_read _ _ _ tool _ hread
        omega

end Positions

/-! ## Runs of calls -/

section Calls

variable {ext : Externals} {path : String} {facts more : List Fact} {file : CursorsFile}
variable {tool : String} {maxSeq maxSeq' : Int} {fact : Fact} {call : CheckpointCall}
variable {calls later : List CheckpointCall}

theorem le_topCheckpoint {n : Int} (h : n ∈ checkpoints facts tool) : n ≤ topCheckpoint facts tool := by
  rw [topCheckpoint]
  cases hmax : (checkpoints facts tool).max? with
  | none =>
    rw [List.max?_eq_none_iff.mp hmax] at h
    exact absurd h List.not_mem_nil
  | some top => exact (List.max?_eq_some_iff.mp hmax).2 n h

/-- **One call** adds a row only if it is a checkpoint of a tool that has not read so far. -/
theorem appended_advances (h : appended facts call = some fact) :
    ∃ tool, fact.kind = .read ∧ fact.tool = some tool ∧ readSeqOf fact = some call.readSeq.val ∧
      topCheckpoint facts tool < call.readSeq.val := by
  unfold appended at h
  split at h
  case h_2 => cases h
  case h_1 added hadded =>
    cases h
    unfold maybeAppendReadCheckpoint at hadded
    obtain ⟨-, -, hadded⟩ := bind_ok_iff.mp hadded
    obtain ⟨-, -, hadded⟩ := bind_ok_iff.mp hadded
    rw [check_refuse_ok_iff, not_not] at hadded
    obtain ⟨hkind, hadded⟩ := hadded
    cases htool : call.checkpoint.tool with
    | none => simp [htool] at hadded
    | some tool =>
      simp only [htool, check_refuse_ok_iff, not_not] at hadded
      obtain ⟨hsummary, hadded⟩ := hadded
      obtain ⟨found, hfound, hadded⟩ := bind_ok_iff.mp hadded
      cases found with
      | some existing =>
        -- a repeated request finds its row and appends none
        obtain ⟨outcome, hcommit, heq⟩ := map_eq_ok_iff.mp hadded
        cases heq
        obtain ⟨-, -, hid, -⟩ := appendFactUnderLock_committed_iff.mp hcommit
        rw [← @resolveCanonicalEventId_eq_none_iff call.env, hfound] at hid
        cases hid
      | none =>
        simp only at hadded
        split at hadded
        case isTrue => cases hadded
        case isFalse hnew =>
          obtain ⟨outcome, hcommit, heq⟩ := map_eq_ok_iff.mp hadded
          cases heq
          obtain ⟨-, -, -, -, -, -, rfl⟩ := appendFactUnderLock_committed_iff.mp hcommit
          exact ⟨tool, hkind, htool, readSeqOf_of_summary hsummary, not_le.mp hnew⟩

/-- The position a call admits lies above every position its tool has recorded. -/
theorem lt_of_appended {n w : Int} (h : appended facts call = some fact) (hn : checkpointOf tool fact = some n)
    (hw : w ∈ checkpoints facts tool) : w < n := by
  obtain ⟨tool', -, htool, hseq, hnew⟩ := appended_advances h
  rw [checkpointOf] at hn
  split at hn
  case isFalse => cases hn
  case isTrue hread =>
    cases htool.symm.trans hread.2
    cases hseq.symm.trans hn
    exact (le_topCheckpoint hw).trans_lt hnew

theorem lt_of_admitted {n w : Int} (hfact : fact ∈ admitted facts calls) (hn : checkpointOf tool fact = some n)
    (hw : w ∈ checkpoints facts tool) : w < n := by
  induction calls generalizing facts with
  | nil => exact absurd hfact List.not_mem_nil
  | cons call calls ih =>
    rw [admitted] at hfact
    cases hcall : appended facts call with
    | none =>
      rw [hcall] at hfact
      exact ih hfact hw
    | some added =>
      rw [hcall] at hfact
      rcases List.mem_cons.mp hfact with rfl | hlater
      · exact lt_of_appended hcall hn hw
      · exact ih hlater (checkpoints_append ▸ List.mem_append_left _ hw)

/-- **A run of calls** admits checkpoints of strictly increasing positions. -/
theorem admitted_increasing (facts : List Fact) (calls : List CheckpointCall) (tool : String) :
    (checkpoints (admitted facts calls) tool).Pairwise (· < ·) := by
  induction calls generalizing facts with
  | nil => exact List.Pairwise.nil
  | cons call calls ih =>
    rw [admitted]
    cases hcall : appended facts call with
    | none => exact ih facts
    | some added =>
      show (checkpoints (added :: admitted (facts ++ [added]) calls) tool).Pairwise (· < ·)
      rw [checkpoints, List.filterMap_cons]
      cases hn : checkpointOf tool added with
      | none => exact ih (facts ++ [added])
      | some n =>
        refine List.pairwise_cons.mpr ⟨fun v hv => ?_, ih (facts ++ [added])⟩
        obtain ⟨fact, hfact, hv⟩ := List.mem_filterMap.mp hv
        refine lt_of_admitted hfact hv ?_
        rw [checkpoints_append]
        exact List.mem_append_right _ (List.mem_filterMap.mpr ⟨added, List.mem_singleton.mpr rfl, hn⟩)

theorem admitted_append (facts : List Fact) (calls later : List CheckpointCall) :
    admitted facts (calls ++ later) = admitted facts calls ++ admitted (facts ++ admitted facts calls) later := by
  induction calls generalizing facts with
  | nil => simp [admitted]
  | cons call calls ih =>
    rw [List.cons_append, admitted, admitted]
    cases appended facts call with
    | none => exact ih facts
    | some added =>
      simp only [List.cons_append, ih, List.append_assoc, List.nil_append]

/-- The highest checkpoint of a tool that has one only rises. -/
theorem topCheckpoint_mono (hne : checkpoints facts tool ≠ []) :
    topCheckpoint facts tool ≤ topCheckpoint (facts ++ more) tool := by
  have hmem : topCheckpoint facts tool ∈ checkpoints facts tool := by
    rw [topCheckpoint]
    cases hmax : (checkpoints facts tool).max? with
    | none => exact absurd (List.max?_eq_none_iff.mp hmax) hne
    | some top => exact (List.max?_eq_some_iff.mp hmax).1
  apply le_topCheckpoint
  rw [checkpoints_append]
  exact List.mem_append_left _ hmem

/-- **What is reported never decreases** while the ledger grows. -/
theorem reportedPosition_mono {n : Int}
    (h : reportedPosition (projectReadReceipts ext path facts file maxSeq) tool = some n) :
    ∃ m, reportedPosition (projectReadReceipts ext path (facts ++ more) file maxSeq') tool = some m ∧
      n ≤ m := by
  rw [reportedPosition_eq] at h
  rw [reportedPosition_eq]
  by_cases hnone : checkpoints facts tool = []
  · rw [if_pos hnone] at h
    by_cases hmore : checkpoints (facts ++ more) tool = []
    · rw [if_pos hmore]
      exact ⟨n, h, le_rfl⟩
    · rw [if_neg hmore]
      refine ⟨_, rfl, ?_⟩
      rw [fileSeq, h]
      exact le_max_left n _
  · have hmore : checkpoints (facts ++ more) tool ≠ [] := by
      rw [checkpoints_append]
      exact List.append_ne_nil_of_left_ne_nil hnone _
    rw [if_neg hnone, Option.some.injEq] at h
    rw [if_neg hmore, ← h]
    exact ⟨_, rfl, max_le_max_left _ (max_le_max_left _ (topCheckpoint_mono hnone))⟩

/-- What a run of calls owes: increasing positions for every tool, above those it had before, and reports that
never fall back, whatever the file holds. -/
structure ReadsAdvance (ext : Externals) (path : String) (facts : List Fact) (calls : List CheckpointCall) :
    Prop where
  increasing : ∀ tool, (checkpoints (admitted facts calls) tool).Pairwise (· < ·)
  above : ∀ tool n w, n ∈ checkpoints (admitted facts calls) tool → w ∈ checkpoints facts tool → w < n
  reports : ∀ earlier later, calls = earlier ++ later → ∀ file tool maxSeq maxSeq' n,
    reportedPosition (projectReadReceipts ext path (facts ++ admitted facts earlier) file maxSeq) tool = some n →
      ∃ m, reportedPosition (projectReadReceipts ext path (facts ++ admitted facts calls) file maxSeq') tool =
        some m ∧ n ≤ m

/-- **One read position per tool.** `cursor_for` returns the reported position of a tool exactly where the file is
not ahead of the ledger; and along every run of calls the admitted positions increase and no report falls back. -/
theorem one_read_position_iff (ext : Externals) (path : String) :
    (∀ room file tool, OnePosition ext path room file tool ↔ FileKeepsUp ext path room.facts file tool) ∧
      ∀ facts calls, ReadsAdvance ext path facts calls := by
  refine ⟨fun room file tool => onePosition_iff room, fun facts calls => ?_⟩
  refine ⟨admitted_increasing facts calls, ?_, ?_⟩
  · intro tool n w hn hw
    obtain ⟨fact, hfact, hn⟩ := List.mem_filterMap.mp hn
    exact lt_of_admitted hfact hn hw
  · rintro earlier later rfl file tool maxSeq maxSeq' n h
    rw [admitted_append, ← List.append_assoc]
    exact reportedPosition_mono h

end Calls

namespace ReadPositionsSample

/-- A tool that entered a room whose newest row was a checkpoint: the file has that row, the ledger what it says. -/
def checkpoint : Fact where
  eventId := "r1"
  seq := 6
  kind := .read
  tool := some "tool-a"
  summary := some "read_seq:4"

def room : ReadRoom where
  facts := [checkpoint]
  rows := [⟨1, "read", checkpoint⟩]
  mirrors := .cons ⟨rfl, by decide⟩ .nil

def content : String := "\x7b\"cursors\":\x7b\"tool-a\":5\x7d\x7d"

def ext : Externals :=
  { Externals.sample with
    jsonFromStr := fun text =>
      if text = content then some (.object [("cursors", .object [("tool-a", .number "5")])]) else none }

end ReadPositionsSample

/-- The file is one row ahead of the ledger: the receipts report its cursor, `cursor_for` returns the checkpoint. -/
theorem one_read_position_ahead :
    ¬OnePosition ReadPositionsSample.ext "cursors.json" ReadPositionsSample.room
      (.text ReadPositionsSample.content) "tool-a" := by
  intro h
  have hcursor : cursorFor ReadPositionsSample.ext "cursors.json" ReadPositionsSample.room.rows
      (.text ReadPositionsSample.content) "tool-a" = .ok 4 := by rfl
  have hreported := h 6 5 (by rfl)
  rw [hcursor] at hreported
  cases hreported

end RallyPoint
