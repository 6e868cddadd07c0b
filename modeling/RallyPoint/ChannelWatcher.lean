/-
# RallyPoint.ChannelWatcher — one consumer of a channel's `changes.jsonl` (`watcher.py`, `cursor.py`, `cli.py`).

A sweep loads the cursor, reads the complete lines behind it, dispatches the records that match the consumer's filter
and saves the cursor. A line that does not decode is written to a quarantine ledger and stops the sweep, until an
operator's acknowledgement raises a watermark over it. Cursor, ledger and watermark are files of their own, so the
sweep is a machine of small steps: between any two of them the channel may grow, the operator may acknowledge, and the
process may die.
-/
import RallyPoint.Lib.Distinct
import RallyPoint.Lib.LineFile

namespace RallyPoint.ChannelWatcher

open Lib

/-! ## Files -/

def newline : UInt8 := 10

/-- An entry of the quarantine ledger. -/
structure QuarantineEntry where
  offset : Nat
  length : Nat
  raw : List UInt8
  deriving DecidableEq, Repr

/-- The channel's file and the consumer's three. -/
structure Disk where
  changes : List UInt8
  cursor : Nat
  quarantine : List QuarantineEntry := []
  ack : Nat := 0
  deriving DecidableEq, Repr

/-- One entry for an offset, however often the sweep stalls there. -/
def quarantineLine (ledger : List QuarantineEntry) (lineStart : Nat) (raw : List UInt8) : List QuarantineEntry :=
  if ledger.any (·.offset = lineStart) then ledger else ledger ++ [⟨lineStart, raw.length, raw⟩]

/-- `ack-quarantine` without `--through`: over everything on the ledger. -/
def ackThrough (ledger : List QuarantineEntry) : Nat :=
  ledger.foldl (fun through entry => max through (entry.offset + entry.length)) 0

def ackQuarantine (d : Disk) : Disk :=
  if ackThrough d.quarantine = 0 then d else { d with ack := ackThrough d.quarantine }

/-- `Cursor.advance`. -/
def advance (cursor newOffset : Nat) : Nat := if newOffset < cursor then cursor else newOffset

/-! ## The sweep, step by step -/

variable {Record : Type}

/-- Where the watcher stands. `cursor` is the offset it loaded; a record is kept with the offset of its line. -/
inductive Phase (Record : Type)
  | idle
  | loaded (cursor : Nat)
  | opened (cursor offset : Nat)
  | reading (cursor newOffset acked : Nat) (records : List (Nat × Record))
  | stalled (cursor newOffset : Nat) (raw : List UInt8) (records : List (Nat × Record))
  | dispatching (cursor newOffset : Nat) (records : List (Nat × Record))
  deriving DecidableEq, Repr

/-- What is told of a run. -/
inductive Event (Record : Type)
  | dispatched (line : Nat) (record : Record)
  | saved
  | crashed
  | replaced
  deriving DecidableEq, Repr

structure State (Record : Type) where
  disk : Disk
  phase : Phase Record := .idle
  log : List (Event Record) := []
  deriving DecidableEq, Repr

/-- A sweep that found nothing ends without a save. -/
def endRead (cursor newOffset : Nat) (records : List (Nat × Record)) : Phase Record :=
  if records.isEmpty && newOffset = cursor then .idle else .dispatching cursor newOffset records

section Machine

variable (loads : List UInt8 → Option Record) (filter : Record → Bool)

/-- One round of the loop of `_read_new_lines`; the file position is `newOffset` throughout. -/
def readRound (d : Disk) (cursor newOffset acked : Nat) (records : List (Nat × Record)) : Phase Record :=
  let raw := readLine newline (d.changes.drop newOffset)
  if isComplete newline raw then
    match loads raw with
    | some record => .reading cursor (newOffset + raw.length) acked (records ++ [(newOffset, record)])
    | none =>
      if newOffset < acked then .reading cursor (newOffset + raw.length) acked records
      else .stalled cursor newOffset raw records
  else endRead cursor newOffset records

/-- The next step of `_process_once`. -/
def tick (s : State Record) : State Record :=
  match s.phase with
  | .idle => { s with phase := .loaded s.disk.cursor }
  -- a file shorter than the cursor is read from its start
  | .loaded cursor => { s with phase := .opened cursor (if s.disk.changes.length < cursor then 0 else cursor) }
  | .opened cursor offset => { s with phase := .reading cursor offset s.disk.ack [] }
  | .reading cursor newOffset acked records =>
    { s with phase := readRound loads s.disk cursor newOffset acked records }
  | .stalled cursor newOffset raw records =>
    { s with
      disk := { s.disk with quarantine := quarantineLine s.disk.quarantine newOffset raw }
      phase := endRead cursor newOffset records }
  | .dispatching cursor newOffset ((line, record) :: rest) =>
    { s with
      phase := .dispatching cursor newOffset rest
      log := if filter record then s.log ++ [.dispatched line record] else s.log }
  | .dispatching cursor newOffset [] =>
    { disk := { s.disk with cursor := advance cursor newOffset }, phase := .idle, log := s.log ++ [.saved] }

/-- What can happen next. -/
inductive Act
  | tick
  | append (chunk : List UInt8)
  | ackQuarantine
  | crash
  | replace (content : List UInt8)
  deriving DecidableEq, Repr

/-- A crash loses what the process held; the next tick is that of the restarted watcher. -/
def step (s : State Record) : Act → State Record
  | .tick => tick loads filter s
  | .append chunk => { s with disk := { s.disk with changes := s.disk.changes ++ chunk } }
  | .ackQuarantine => { s with disk := ChannelWatcher.ackQuarantine s.disk }
  | .crash => { s with phase := .idle, log := s.log ++ [.crashed] }
  | .replace content =>
    { s with disk := { s.disk with changes := content }, log := s.log ++ [.replaced] }

def run (s : State Record) (acts : List Act) : State Record := acts.foldl (step loads filter) s

end Machine

/-- A consumer that starts at an offset, with an empty ledger. -/
def fresh (changes : List UInt8) (start : Nat) : State Record := { disk := { changes := changes, cursor := start } }

/-! ## Lines that decode -/

section Lines

variable {loads : List UInt8 → Option Record} {file chunk : List UInt8} {a b o : Nat} {record : Record}

/-- A complete line that decodes. -/
def GoodLine (loads : List UInt8 → Option Record) (file : List UInt8) (o : Nat) (record : Record) : Prop :=
  ∃ raw, LineAt newline file o raw ∧ loads raw = some record

/-- A complete line that does not. -/
def BadLine (loads : List UInt8 → Option Record) (file : List UInt8) (o : Nat) : Prop :=
  ∃ raw, LineAt newline file o raw ∧ loads raw = none

theorem goodLine_append_iff (hb : Boundary newline file b) (ho : o < b) :
    GoodLine loads (file ++ chunk) o record ↔ GoodLine loads file o record :=
  exists_congr fun _ => and_congr_left' (lineAt_append_iff hb ho chunk)

theorem badLine_append_iff (hb : Boundary newline file b) (ho : o < b) :
    BadLine loads (file ++ chunk) o ↔ BadLine loads file o :=
  exists_congr fun _ => and_congr_left' (lineAt_append_iff hb ho chunk)

theorem GoodLine.notBad (h : GoodLine loads file o record) : ¬BadLine loads file o := by
  rintro ⟨raw, hraw, hnone⟩
  obtain ⟨raw', hraw', hsome⟩ := h
  rw [hraw'.unique hraw, hnone] at hsome
  cases hsome

/-- **What a sweep has read** between two offsets: the lines that decode, in order. -/
structure Collected (loads : List UInt8 → Option Record) (file : List UInt8) (a b : Nat)
    (records : List (Nat × Record)) : Prop where
  sorted : (records.map (·.1)).Pairwise (· < ·)
  mem_iff : ∀ o record, (o, record) ∈ records ↔ a ≤ o ∧ o < b ∧ GoodLine loads file o record

namespace Collected

variable {records : List (Nat × Record)}

theorem nil (a : Nat) : Collected loads file a a [] := by
  refine ⟨List.Pairwise.nil, fun o record => ?_⟩
  constructor
  · exact fun h => absurd h List.not_mem_nil
  · exact fun h => absurd h.2.1 (Nat.not_lt.mpr h.1)

theorem append (h : Collected loads file a b records) (hb : Boundary newline file b) (chunk : List UInt8) :
    Collected loads (file ++ chunk) a b records := by
  refine ⟨h.sorted, fun o record => ?_⟩
  rw [h.mem_iff]
  exact and_congr_right fun _ => and_congr_right fun ho => (goodLine_append_iff hb ho).symm

/-- A line that decodes is collected. -/
theorem push {raw : List UInt8} (h : Collected loads file a b records) (hab : a ≤ b)
    (hline : LineAt newline file b raw) (hload : loads raw = some record) :
    Collected loads file a (b + raw.length) (records ++ [(b, record)]) := by
  constructor
  · rw [List.map_append, List.pairwise_append]
    refine ⟨h.sorted, List.pairwise_singleton _ _, fun o ho o' ho' => ?_⟩
    obtain ⟨⟨o, record⟩, hmem, rfl⟩ := List.mem_map.mp ho
    obtain rfl : o' = b := by simpa using ho'
    exact ((h.mem_iff o record).mp hmem).2.1
  · intro o record'
    have hpos := hline.pos
    rw [List.mem_append, List.mem_singleton, h.mem_iff, Prod.mk.injEq]
    constructor
    · rintro (⟨hao, hob, hgood⟩ | ⟨rfl, rfl⟩)
      · exact ⟨hao, by omega, hgood⟩
      · exact ⟨hab, by omega, raw, hline, hload⟩
    · rintro ⟨hao, hob, raw', hline', hload'⟩
      rcases lt_or_eq_of_lineAt hline hline' hob with hlt | rfl
      · exact .inl ⟨hao, hlt, raw', hline', hload'⟩
      · rw [hline'.unique hline, hload] at hload'
        exact .inr ⟨rfl, (Option.some.inj hload').symm⟩

/-- A line that does not decode is passed over. -/
theorem skip {raw : List UInt8} (h : Collected loads file a b records) (hline : LineAt newline file b raw)
    (hload : loads raw = none) : Collected loads file a (b + raw.length) records := by
  refine ⟨h.sorted, fun o record => ?_⟩
  rw [h.mem_iff]
  refine and_congr_right fun _ => ?_
  constructor
  · rintro ⟨hob, hgood⟩
    exact ⟨by omega, hgood⟩
  · rintro ⟨hob, hgood⟩
    obtain ⟨raw', hline', hload'⟩ := hgood
    rcases lt_or_eq_of_lineAt hline hline' hob with hlt | rfl
    · exact ⟨hlt, raw', hline', hload'⟩
    · rw [hline'.unique hline, hload] at hload'
      cases hload'

end Collected

end Lines

/-! ## The log -/

section Log

/-- The lines that were dispatched, in the order they were. -/
def dispatches (log : List (Event Record)) : List (Nat × Record) :=
  log.filterMap fun
    | .dispatched line record => some (line, record)
    | _ => none

/-- Each dispatched line where it was dispatched first. -/
def firstDispatches (log : List (Event Record)) : List Nat := pushNewAll [] ((dispatches log).map (·.1))

theorem dispatches_append (log log' : List (Event Record)) :
    dispatches (log ++ log') = dispatches log ++ dispatches log' := List.filterMap_append

end Log

end RallyPoint.ChannelWatcher
