/-
# RallyPoint.ChannelRotation — a channel that is truncated or replaced (`watcher.py`, `cursor.py`).

The reader starts over when the file is shorter than the cursor, and the cursor never moves back. A sweep that starts
over therefore leaves the cursor where it was, unless the new file has grown past it before the sweep ends, and a
sweep that finds the new file longer than the cursor begins in the middle. `follows_rotations` says that a consumer for
which neither happens keeps up with the file.
-/
import RallyPoint.ChannelWatcher
import Mathlib.Data.List.Pairwise
import Mathlib.Order.Nat

namespace RallyPoint.ChannelWatcher

open Lib

variable {Record : Type}

/-! ## Whole lines -/

section WholeLines

/-- A text of whole lines that decode. -/
def WholeLines (loads : List UInt8 → Option Record) (text : List UInt8) : Prop :=
  ∃ lines : List (List UInt8), text = lines.flatten ∧
    ∀ line ∈ lines, (loads line).isSome = true ∧ ∃ body, newline ∉ body ∧ line = body ++ [newline]

variable {loads : List UInt8 → Option Record} {text more : List UInt8}

theorem WholeLines.append (h : WholeLines loads text) (h' : WholeLines loads more) :
    WholeLines loads (text ++ more) := by
  obtain ⟨lines, rfl, hlines⟩ := h
  obtain ⟨lines', rfl, hlines'⟩ := h'
  refine ⟨lines ++ lines', List.flatten_append.symm, fun line hline => ?_⟩
  rcases List.mem_append.mp hline with hline | hline
  · exact hlines line hline
  · exact hlines' line hline

theorem boundary_line (body : List UInt8) : Boundary newline (body ++ [newline]) (body ++ [newline]).length := by
  refine ⟨Nat.le_refl _, fun a ha => ?_⟩
  rw [List.take_length, List.getLast?_concat] at ha
  exact (Option.some.inj ha).symm

theorem WholeLines.boundary (h : WholeLines loads text) : Boundary newline text text.length := by
  obtain ⟨lines, rfl, hlines⟩ := h
  induction lines with
  | nil => exact boundary_zero
  | cons line lines ih =>
    obtain ⟨-, body, -, rfl⟩ := hlines _ List.mem_cons_self
    rw [List.flatten_cons]
    exact boundary_length_append (boundary_line body)
      (ih fun line hline => hlines line (List.mem_cons_of_mem _ hline))

/-- Every line of such a text decodes. -/
theorem WholeLines.decodes (h : WholeLines loads text) {o : Nat} {raw : List UInt8}
    (hline : LineAt newline text o raw) : ∃ record, loads raw = some record := by
  obtain ⟨lines, rfl, hlines⟩ := h
  induction lines generalizing o with
  | nil =>
    have hpos := hline.pos
    have hend := hline.end_le_length
    rw [List.flatten_nil, List.length_nil] at hend
    omega
  | cons line lines ih =>
    obtain ⟨hload, body, hbody, rfl⟩ := hlines _ List.mem_cons_self
    rw [List.flatten_cons] at hline
    rcases lineAt_append_cases (boundary_line body) hline with hfirst | ⟨k, -, hrest⟩
    · -- the only line of one line is itself
      have hread : readLine newline (body ++ [newline]) = body ++ [newline] := by
        obtain ⟨rest, hrest⟩ := readLine_prefix newline (body ++ [newline])
        obtain ⟨body', -, heq⟩ := isComplete_readLine_iff.mp
          (isComplete_of_mem (List.mem_append_right body (List.mem_singleton_self newline)))
        rw [heq] at hrest ⊢
        rcases List.eq_nil_or_concat rest with rfl | ⟨front, last, rfl⟩
        · rwa [List.append_nil] at hrest
        · rw [List.concat_eq_append, ← List.append_assoc] at hrest
          have hfront := (List.append_inj' hrest rfl).1
          rw [← hfront] at hbody
          exact absurd (List.mem_append_left _ (List.mem_append_right _ (List.mem_singleton_self _))) hbody
      have hself : LineAt newline (body ++ [newline]) 0 (body ++ [newline]) :=
        ⟨boundary_zero, hread, decide_eq_true (List.getLast?_concat)⟩
      have hend := hfirst.end_le_length
      have hpos := hfirst.pos
      rcases lt_or_eq_of_lineAt hself hfirst (by omega) with hlt | rfl
      · exact absurd hlt (Nat.not_lt_zero _)
      · rw [hfirst.unique hself]
        exact Option.isSome_iff_exists.mp hload
    · exact ih (fun line hline => hlines line (List.mem_cons_of_mem _ hline)) hrest

end WholeLines

/-! ## The log of the current file -/

section Current

/-- What was told since the file was replaced last. -/
def current (log : List (Event Record)) : List (Event Record) :=
  log.foldl (fun since event => match event with
    | .replaced => []
    | event => since ++ [event]) []

/-- Whether the file was replaced after the cursor had been saved last. -/
def stale (log : List (Event Record)) : Bool :=
  log.foldl (fun replaced event => match event with
    | .replaced => true
    | .saved => false
    | _ => replaced) false

variable (log : List (Event Record))

theorem current_concat {event : Event Record} (h : event ≠ .replaced) :
    current (log ++ [event]) = current log ++ [event] := by
  rw [current, List.foldl_append]
  cases event <;> first | rfl | exact absurd rfl h

theorem current_replaced : current (log ++ [.replaced]) = [] := by
  rw [current, List.foldl_append]
  rfl

theorem stale_dispatched (line : Nat) (record : Record) : stale (log ++ [.dispatched line record]) = stale log := by
  rw [stale, List.foldl_append]
  rfl

theorem stale_saved : stale (log ++ [.saved]) = false := by
  rw [stale, List.foldl_append]
  rfl

theorem stale_replaced : stale (log ++ [.replaced]) = true := by
  rw [stale, List.foldl_append]
  rfl

/-- A file that was saved after is not stale. -/
theorem notMem_saved_of_stale (h : stale log = true) : .saved ∉ current log := by
  induction log using List.reverseRecOn with
  | nil => cases h
  | append_singleton log event ih =>
    by_cases hevent : event = .replaced
    · rw [hevent, current_replaced]
      exact List.not_mem_nil
    · rw [current_concat log hevent, List.mem_append, List.mem_singleton, not_or]
      cases event with
      | saved =>
        rw [stale_saved] at h
        cases h
      | replaced => exact absurd rfl hevent
      | dispatched line record =>
        rw [stale_dispatched] at h
        exact ⟨ih h, by simp⟩
      | crashed =>
        rw [stale, List.foldl_append] at h
        exact ⟨ih h, by simp⟩

/-- Where the consumer begins in the current file. -/
def lowest (start : Nat) : Nat :=
  log.foldl (fun low event => match event with
    | .replaced => 0
    | _ => low) start

theorem lowest_concat (start : Nat) {event : Event Record} (h : event ≠ .replaced) :
    lowest (log ++ [event]) start = lowest log start := by
  rw [lowest, List.foldl_append]
  cases event <;> first | rfl | exact absurd rfl h

theorem lowest_replaced (start : Nat) : lowest (log ++ [.replaced]) start = 0 := by
  rw [lowest, List.foldl_append]
  rfl

end Current

/-! ## Runs -/

section Runs

variable (loads : List UInt8 → Option Record) (filter : Record → Bool) (start : Nat)

/-- What may happen to the file: whole lines are appended, and between two sweeps it may be replaced by a shorter one
than what the cursor has read. -/
def Allowed (s : State Record) : Act → Prop
  | .tick => True
  | .append chunk => WholeLines loads chunk
  | .ackQuarantine => True
  | .crash => False
  | .replace content => s.phase = .idle ∧ WholeLines loads content ∧ content.length < s.disk.cursor

/-- A step that loses nothing: a sweep that opens a replaced file finds it still shorter than the cursor, and what a
sweep saves is not behind the cursor. -/
def KeepsUp (s : State Record) : Act → Prop
  | .tick =>
    (∀ cursor, s.phase = .loaded cursor → stale s.log = true → s.disk.changes.length < cursor) ∧
      ∀ cursor newOffset, s.phase = .dispatching cursor newOffset [] → cursor ≤ newOffset
  | _ => True

/-- Each step of a run satisfies a condition on the state before it. -/
def Along (p : State Record → Act → Prop) : State Record → List Act → Prop
  | _, [] => True
  | s, act :: acts => p s act ∧ Along p (step loads filter s act) acts

/-- **The consumer follows the file**: of the current one it dispatches each line once and in order, and once a sweep
has read it the cursor is a boundary of it with nothing left out before. -/
structure FollowsFile (s : State Record) : Prop where
  inOrder : ((dispatches (current s.log)).map (·.1)).Pairwise (· < ·)
  genuine : ∀ p ∈ dispatches (current s.log), GoodLine loads s.disk.changes p.1 p.2 ∧ filter p.2 = true
  boundary : .saved ∈ current s.log → Boundary newline s.disk.changes s.disk.cursor
  all : .saved ∈ current s.log → ∀ o record, GoodLine loads s.disk.changes o record → filter record = true →
    lowest s.log start ≤ o → o < s.disk.cursor → (o, record) ∈ dispatches (current s.log)

end Runs

/-! ## What was served -/

section Served

variable {loads : List UInt8 → Option Record} {filter : Record → Bool} {file : List UInt8} {a b n : Nat}
  {sent : List (Nat × Record)}

/-- The dispatches so far are the matching lines between two offsets, in order. -/
structure Served (loads : List UInt8 → Option Record) (filter : Record → Bool) (file : List UInt8) (a b : Nat)
    (sent : List (Nat × Record)) : Prop where
  sorted : (sent.map (·.1)).Pairwise (· < ·)
  mem_iff : ∀ o record, (o, record) ∈ sent ↔ a ≤ o ∧ o < b ∧ GoodLine loads file o record ∧ filter record = true

theorem Served.nil (a : Nat) : Served loads filter file a a [] := by
  refine ⟨List.Pairwise.nil, fun o record => ?_⟩
  constructor
  · exact fun h => absurd h List.not_mem_nil
  · exact fun h => absurd h.2.1 (Nat.not_lt.mpr h.1)

theorem Served.append (h : Served loads filter file a b sent) (hn : Boundary newline file n) (hle : b ≤ n)
    (chunk : List UInt8) : Served loads filter (file ++ chunk) a b sent := by
  refine ⟨h.sorted, fun o record => ?_⟩
  rw [h.mem_iff]
  exact and_congr_right fun _ => and_congr_right fun ho =>
    and_congr_left' (goodLine_append_iff hn (Nat.lt_of_lt_of_le ho hle)).symm

/-- The head of what was read is the next line there is. -/
theorem Collected.tail {record : Record} {line : Nat} {rest : List (Nat × Record)}
    (h : Collected loads file b n ((line, record) :: rest)) :
    Collected loads file (line + 1) n rest ∧ b ≤ line ∧ line < n ∧ GoodLine loads file line record ∧
      ∀ o record', b ≤ o → o < line + 1 → GoodLine loads file o record' → o = line ∧ record' = record := by
  have hsorted := h.sorted
  rw [List.map_cons, List.pairwise_cons] at hsorted
  obtain ⟨hle, hlt, hgood⟩ := (h.mem_iff line record).mp List.mem_cons_self
  have hfirst : ∀ o record', b ≤ o → o < line + 1 → GoodLine loads file o record' →
      o = line ∧ record' = record := by
    intro o record' ho ho' hgood'
    rcases List.mem_cons.mp ((h.mem_iff o record').mpr ⟨ho, by omega, hgood'⟩) with heq | hmem
    · exact Prod.mk.inj heq
    · have hgt := hsorted.1 o (List.mem_map_of_mem hmem)
      omega
  refine ⟨⟨hsorted.2, fun o record' => ?_⟩, hle, hlt, hgood, hfirst⟩
  constructor
  · intro hmem
    have hgt := hsorted.1 o (List.mem_map_of_mem hmem)
    obtain ⟨-, ho, hgood'⟩ := (h.mem_iff o record').mp (List.mem_cons_of_mem _ hmem)
    exact ⟨hgt, ho, hgood'⟩
  · rintro ⟨hgt, ho, hgood'⟩
    rcases List.mem_cons.mp ((h.mem_iff o record').mpr ⟨by omega, ho, hgood'⟩) with heq | hmem
    · have heq' := (Prod.mk.inj heq).1
      omega
    · exact hmem

/-- **A dispatch** serves the next line. -/
theorem Served.push {record : Record} {line : Nat} {rest : List (Nat × Record)}
    (h : Served loads filter file a b sent) (hab : a ≤ b)
    (hread : Collected loads file b n ((line, record) :: rest)) :
    Served loads filter file a (line + 1) (if filter record then sent ++ [(line, record)] else sent) := by
  obtain ⟨-, hle, -, hgood, hfirst⟩ := hread.tail
  have hbelow : ∀ p ∈ sent, p.1 < line := fun p hp => Nat.lt_of_lt_of_le ((h.mem_iff p.1 p.2).mp hp).2.1 hle
  constructor
  · split_ifs
    · rw [List.map_append, List.pairwise_append]
      refine ⟨h.sorted, List.pairwise_singleton _ _, fun o ho o' ho' => ?_⟩
      obtain ⟨p, hp, rfl⟩ := List.mem_map.mp ho
      obtain rfl : o' = line := by simpa using ho'
      exact hbelow p hp
    · exact h.sorted
  · intro o record'
    have hmem : (o, record') ∈ (if filter record then sent ++ [(line, record)] else sent) ↔
        (o, record') ∈ sent ∨ (filter record = true ∧ o = line ∧ record' = record) := by
      split_ifs with hmatch
      · simp [hmatch]
      · simp [hmatch]
    rw [hmem, h.mem_iff]
    constructor
    · rintro (⟨hao, hob, hgood', hmatch⟩ | ⟨hmatch, rfl, rfl⟩)
      · exact ⟨hao, by omega, hgood', hmatch⟩
      · exact ⟨hab.trans hle, Nat.lt_succ_self _, hgood, hmatch⟩
    · rintro ⟨hao, hlt, hgood', hmatch⟩
      rcases Nat.lt_or_ge o b with hob | hbo
      · exact .inl ⟨hao, hob, hgood', hmatch⟩
      · obtain ⟨rfl, rfl⟩ := hfirst o record' hbo hlt hgood'
        exact .inr ⟨hmatch, rfl, rfl⟩

/-- With nothing left to dispatch everything read is served. -/
theorem Served.finish (h : Served loads filter file a b sent) (hbn : b ≤ n) (hread : Collected loads file b n []) :
    Served loads filter file a n sent := by
  refine ⟨h.sorted, fun o record => ?_⟩
  rw [h.mem_iff]
  refine and_congr_right fun _ => ?_
  constructor
  · rintro ⟨ho, hgood, hmatch⟩
    exact ⟨by omega, hgood, hmatch⟩
  · rintro ⟨ho, hgood, hmatch⟩
    refine ⟨?_, hgood, hmatch⟩
    by_contra hge
    exact absurd ((hread.mem_iff o record).mpr ⟨Nat.le_of_not_lt hge, ho, hgood⟩) List.not_mem_nil

end Served

/-! ## One step -/

section Steps

variable (loads : List UInt8 → Option Record) (filter : Record → Bool) (start : Nat)

/-- Where the next sweep begins in the current file. -/
def readFrom (log : List (Event Record)) (cursor : Nat) : Nat := if stale log then 0 else cursor

/-- What each phase holds continues what was served of the current file. -/
inductive RotPhase (d : Disk) (log : List (Event Record)) : Phase Record → Prop
  | idle (h : Served loads filter d.changes (lowest log start) (readFrom log d.cursor) (dispatches (current log))) :
      RotPhase d log .idle
  | loaded (h : Served loads filter d.changes (lowest log start) (readFrom log d.cursor) (dispatches (current log))) :
      RotPhase d log (.loaded d.cursor)
  | opened (h : Served loads filter d.changes (lowest log start) (readFrom log d.cursor) (dispatches (current log))) :
      RotPhase d log (.opened d.cursor (readFrom log d.cursor))
  | reading {n acked : Nat} {records : List (Nat × Record)} (hle : readFrom log d.cursor ≤ n)
      (hn : Boundary newline d.changes n) (hread : Collected loads d.changes (readFrom log d.cursor) n records)
      (h : Served loads filter d.changes (lowest log start) (readFrom log d.cursor) (dispatches (current log))) :
      RotPhase d log (.reading d.cursor n acked records)
  | dispatching {n cut : Nat} {rest : List (Nat × Record)} (hcut : readFrom log d.cursor ≤ cut) (hle : cut ≤ n)
      (hn : Boundary newline d.changes n) (hread : Collected loads d.changes cut n rest)
      (h : Served loads filter d.changes (lowest log start) cut (dispatches (current log))) :
      RotPhase d log (.dispatching d.cursor n rest)

structure RotInv (s : State Record) : Prop where
  whole : WholeLines loads s.disk.changes
  ledger : s.disk.quarantine = []
  low : lowest s.log start ≤ readFrom s.log s.disk.cursor
  boundary : Boundary newline s.disk.changes (readFrom s.log s.disk.cursor)
  phase : RotPhase loads filter start s.disk s.log s.phase

variable {loads filter start} {d : Disk} {log : List (Event Record)} {phase : Phase Record}

theorem RotPhase.append (h : RotPhase loads filter start d log phase)
    (hboundary : Boundary newline d.changes (readFrom log d.cursor)) (chunk : List UInt8) :
    RotPhase loads filter start { d with changes := d.changes ++ chunk } log phase := by
  cases h with
  | idle h => exact .idle (h.append hboundary (Nat.le_refl _) chunk)
  | loaded h => exact .loaded (h.append hboundary (Nat.le_refl _) chunk)
  | opened h => exact .opened (h.append hboundary (Nat.le_refl _) chunk)
  | reading hle hn hread h =>
    exact .reading hle (hn.append chunk) (hread.append hn chunk) (h.append hboundary (Nat.le_refl _) chunk)
  | dispatching hcut hle hn hread h =>
    exact .dispatching hcut hle (hn.append chunk) (hread.append hn chunk) (h.append hn hle chunk)

theorem RotInv.append (h : RotInv loads filter start ⟨d, phase, log⟩) {chunk : List UInt8}
    (hchunk : WholeLines loads chunk) :
    RotInv loads filter start ⟨{ d with changes := d.changes ++ chunk }, phase, log⟩ where
  whole := h.whole.append hchunk
  ledger := h.ledger
  low := h.low
  boundary := h.boundary.append chunk
  phase := h.phase.append h.boundary chunk

/-- **A replacement** leaves nothing served and the whole file to read. -/
theorem RotInv.replace (h : RotInv loads filter start ⟨d, .idle, log⟩) {content : List UInt8}
    (hcontent : WholeLines loads content) :
    RotInv loads filter start ⟨{ d with changes := content }, .idle, log ++ [.replaced]⟩ := by
  have hfrom : readFrom (log ++ [.replaced]) d.cursor = 0 := if_pos (stale_replaced log)
  constructor
  · exact hcontent
  · exact h.ledger
  · rw [lowest_replaced]
    exact Nat.zero_le _
  · rw [hfrom]
    exact boundary_zero
  · refine .idle ?_
    rw [hfrom, lowest_replaced, current_replaced]
    exact .nil 0

/-- Reading goes on while there is a line, and each line decodes. -/
theorem readRound_of_whole (hwhole : WholeLines loads d.changes) {c n acked : Nat} {records : List (Nat × Record)}
    (hn : Boundary newline d.changes n) :
    (n = d.changes.length ∧ readRound loads d c n acked records = endRead c n records) ∨
      ∃ raw record, LineAt newline d.changes n raw ∧ loads raw = some record ∧
        readRound loads d c n acked records = .reading c (n + raw.length) acked (records ++ [(n, record)]) := by
  rcases Nat.lt_or_eq_of_le hn.1 with hlt | rfl
  · right
    have hcomplete := isComplete_of_lt hwhole.boundary hlt
    obtain ⟨hline, -⟩ := lineAt_readLine hn hcomplete
    obtain ⟨record, hload⟩ := hwhole.decodes hline
    refine ⟨_, record, hline, hload, ?_⟩
    simp only [readRound, hcomplete, if_true, hload]
  · left
    refine ⟨rfl, ?_⟩
    rw [readRound, List.drop_length]
    rfl

theorem RotInv.tick {s : State Record} (h : RotInv loads filter start s) (hkeeps : KeepsUp s .tick) :
    RotInv loads filter start (ChannelWatcher.tick loads filter s) := by
  obtain ⟨d, phase, log⟩ := s
  have hphase : RotPhase loads filter start d log phase := h.phase
  cases hphase with
  | idle hserved => exact { h with phase := .loaded hserved }
  | loaded hserved =>
    have hopen : (if d.changes.length < d.cursor then 0 else d.cursor) = readFrom log d.cursor := by
      rw [readFrom]
      cases hstale : stale log with
      | true => exact if_pos (hkeeps.1 d.cursor rfl hstale)
      | false =>
        have hboundary : Boundary newline d.changes (readFrom log d.cursor) := h.boundary
        rw [readFrom, hstale, if_neg Bool.false_ne_true] at hboundary
        exact if_neg (Nat.not_lt.mpr hboundary.1)
    simp only [ChannelWatcher.tick, hopen]
    exact { h with phase := .opened hserved }
  | opened hserved => exact { h with phase := .reading (Nat.le_refl _) h.boundary (.nil _) hserved }
  | @reading n acked records hle hn hread hserved =>
    rcases @readRound_of_whole _ loads d h.whole d.cursor n acked records hn with
      ⟨-, hend⟩ | ⟨raw, record, hline, hload, hnext⟩
    · simp only [ChannelWatcher.tick, hend, endRead]
      split_ifs
      · exact { h with phase := .idle hserved }
      · exact { h with phase := .dispatching (Nat.le_refl _) hle hn hread hserved }
    · simp only [ChannelWatcher.tick, hnext]
      exact { h with
        phase := .reading (Nat.le_add_right_of_le hle) hline.boundary_end (hread.push hle hline hload) hserved }
  | @dispatching n cut rest hcut hle hn hread hserved =>
    cases rest with
    | nil =>
      have hadvance : advance d.cursor n = n := if_neg (Nat.not_lt.mpr (hkeeps.2 d.cursor n rfl))
      have hfrom : readFrom (log ++ [.saved]) n = n := if_neg (by rw [stale_saved]; exact Bool.false_ne_true)
      have hlow : lowest (log ++ [.saved]) start = lowest log start := lowest_concat log start (by simp)
      have hsent : dispatches (current (log ++ [.saved])) = dispatches (current log) := by
        rw [current_concat log (by simp), dispatches_append]
        exact List.append_nil _
      simp only [ChannelWatcher.tick, hadvance]
      constructor
      · exact h.whole
      · exact h.ledger
      · rw [hfrom, hlow]
        exact h.low.trans (hcut.trans hle)
      · rw [hfrom]
        exact hn
      · refine .idle ?_
        rw [hfrom, hlow, hsent]
        exact hserved.finish hle hread
    | cons p rest =>
      obtain ⟨line, record⟩ := p
      obtain ⟨hrest, hcutle, hlt, -, -⟩ := hread.tail
      have hpush := hserved.push (h.low.trans hcut) hread
      simp only [ChannelWatcher.tick]
      split_ifs with hmatch
      · have hfrom : readFrom (log ++ [.dispatched line record]) d.cursor = readFrom log d.cursor := by
          rw [readFrom, readFrom, stale_dispatched]
        have hlow : lowest (log ++ [.dispatched line record]) start = lowest log start :=
          lowest_concat log start (by simp)
        have hsent : dispatches (current (log ++ [.dispatched line record])) =
            dispatches (current log) ++ [(line, record)] := by
          rw [current_concat log (by simp), dispatches_append]
          rfl
        rw [if_pos hmatch] at hpush
        constructor
        · exact h.whole
        · exact h.ledger
        · rw [hfrom, hlow]
          exact h.low
        · rw [hfrom]
          exact h.boundary
        · refine .dispatching ?_ hlt hn hrest ?_
          · rw [hfrom]
            exact (hcut.trans hcutle).trans (Nat.le_succ line)
          · rw [hlow, hsent]
            exact hpush
      · rw [if_neg hmatch] at hpush
        exact { h with
          phase := .dispatching ((hcut.trans hcutle).trans (Nat.le_succ line)) hlt hn hrest hpush }

theorem RotInv.step {s : State Record} (h : RotInv loads filter start s) {act : Act}
    (hallowed : Allowed loads s act) (hkeeps : KeepsUp s act) :
    RotInv loads filter start (ChannelWatcher.step loads filter s act) := by
  cases act with
  | tick => exact h.tick hkeeps
  | append chunk => exact h.append hallowed
  | ackQuarantine =>
    have hnone : ChannelWatcher.ackQuarantine s.disk = s.disk := if_pos (by rw [h.ledger]; rfl)
    rw [ChannelWatcher.step, hnone]
    exact h
  | crash => exact hallowed.elim
  | replace content =>
    obtain ⟨hidle, hcontent, -⟩ := hallowed
    obtain ⟨d, phase, log⟩ := s
    obtain rfl : phase = .idle := hidle
    exact h.replace hcontent

/-- What the invariant says of the file the consumer follows. -/
theorem RotInv.follows {s : State Record} (h : RotInv loads filter start s) : FollowsFile loads filter start s := by
  obtain ⟨d, phase, log⟩ := s
  have hphase : RotPhase loads filter start d log phase := h.phase
  have hserved : ∃ b, readFrom log d.cursor ≤ b ∧
      Served loads filter d.changes (lowest log start) b (dispatches (current log)) := by
    cases hphase with
    | idle hserved => exact ⟨_, Nat.le_refl _, hserved⟩
    | loaded hserved => exact ⟨_, Nat.le_refl _, hserved⟩
    | opened hserved => exact ⟨_, Nat.le_refl _, hserved⟩
    | reading hle hn hread hserved => exact ⟨_, Nat.le_refl _, hserved⟩
    | dispatching hcut hle hn hread hserved => exact ⟨_, hcut, hserved⟩
  obtain ⟨b, hb, hserved⟩ := hserved
  have hfrom : .saved ∈ current log → readFrom log d.cursor = d.cursor := fun hsaved =>
    if_neg fun hstale => notMem_saved_of_stale log hstale hsaved
  constructor
  · exact hserved.sorted
  · exact fun p hp => ((hserved.mem_iff p.1 p.2).mp hp).2.2
  · intro hsaved
    rw [← hfrom hsaved]
    exact h.boundary
  · intro hsaved o record hgood hmatch hlow hlt
    rw [← hfrom hsaved] at hlt
    exact (hserved.mem_iff o record).mpr ⟨hlow, Nat.lt_of_lt_of_le hlt hb, hgood, hmatch⟩

end Steps

/-! ## Whole runs -/

section Whole

variable {loads : List UInt8 → Option Record} {filter : Record → Bool} {start : Nat} {d : Disk}
  {log : List (Event Record)}

theorem RotInv.run {s : State Record} (h : RotInv loads filter start s) {acts : List Act}
    (hallowed : Along loads filter (Allowed loads) s acts) (hkeeps : Along loads filter KeepsUp s acts) :
    RotInv loads filter start (ChannelWatcher.run loads filter s acts) := by
  induction acts generalizing s with
  | nil => exact h
  | cons act acts ih => exact ih (h.step hallowed.1 hkeeps.1) hallowed.2 hkeeps.2

theorem along_append {p : State Record → Act → Prop} {s : State Record} {acts acts' : List Act} :
    Along loads filter p s (acts ++ acts') ↔
      Along loads filter p s acts ∧ Along loads filter p (ChannelWatcher.run loads filter s acts) acts' := by
  induction acts generalizing s with
  | nil => exact (true_and _).symm.to_iff
  | cons act acts ih => exact (and_congr_right fun _ => ih).trans and_assoc.symm

theorem along_ticks (s : State Record) (n : Nat) :
    Along loads filter (Allowed loads) s (List.replicate n .tick) := by
  induction n generalizing s with
  | zero => trivial
  | succ n ih => exact ⟨trivial, ih _⟩

theorem stale_tick {s : State Record} (h : stale s.log = false) :
    stale (ChannelWatcher.tick loads filter s).log = false := by
  rw [ChannelWatcher.tick]
  split
  case h_6 =>
    split_ifs
    · rw [stale_dispatched]
      exact h
    · exact h
  case h_7 => exact stale_saved s.log
  all_goals exact h

/-- A file that was not replaced since the last save is kept up with. -/
theorem RotInv.keepsUp {s : State Record} (h : RotInv loads filter start s) (hstale : stale s.log = false) :
    KeepsUp s .tick := by
  obtain ⟨d, phase, log⟩ := s
  refine ⟨fun cursor _ hstale' => absurd (hstale.symm.trans hstale') Bool.false_ne_true, fun c n hphase => ?_⟩
  obtain rfl : phase = .dispatching c n [] := hphase
  have hphase : RotPhase loads filter start d log (.dispatching c n []) := h.phase
  cases hphase with
  | dispatching hcut hle hn hread hserved =>
    rw [readFrom, show stale log = false from hstale, if_neg Bool.false_ne_true] at hcut
    exact hcut.trans hle

/-- **Without a replacement** every sweep loses nothing. -/
theorem RotInv.keepsUp_ticks {s : State Record} (h : RotInv loads filter start s) (hstale : stale s.log = false)
    (n : Nat) : Along loads filter KeepsUp s (List.replicate n .tick) := by
  induction n generalizing s with
  | zero => trivial
  | succ n ih => exact ⟨h.keepsUp hstale, ih (h.tick (h.keepsUp hstale)) (stale_tick hstale)⟩

/-- What some ticks make of a state. -/
def Ticks (loads : List UInt8 → Option Record) (filter : Record → Bool) (s s' : State Record) : Prop :=
  ∃ n, ChannelWatcher.run loads filter s (List.replicate n .tick) = s'

theorem Ticks.head {s s' : State Record} (h : Ticks loads filter (ChannelWatcher.tick loads filter s) s') :
    Ticks loads filter s s' := by
  obtain ⟨n, hn⟩ := h
  exact ⟨n + 1, hn⟩

theorem Ticks.trans {s s' s'' : State Record} (h : Ticks loads filter s s') (h' : Ticks loads filter s' s'') :
    Ticks loads filter s s'' := by
  obtain ⟨n, rfl⟩ := h
  obtain ⟨m, rfl⟩ := h'
  exact ⟨n + m, by rw [List.replicate_add, ChannelWatcher.run, List.foldl_append]; rfl⟩

/-- Undisturbed, a sweep reads to the end of the file. -/
theorem ticks_reading (hwhole : WholeLines loads d.changes) (c acked : Nat) {k n : Nat}
    (hk : d.changes.length = n + k) (hn : Boundary newline d.changes n) (records : List (Nat × Record)) :
    ∃ records', Ticks loads filter ⟨d, .reading c n acked records, log⟩
      ⟨d, endRead c d.changes.length records', log⟩ := by
  induction k using Nat.strongRecOn generalizing n records with
  | ind k ih =>
    rcases @readRound_of_whole _ loads d hwhole c n acked records hn with
      ⟨heq, hround⟩ | ⟨raw, record, hline, -, hround⟩
    · refine ⟨records, 1, ?_⟩
      rw [← heq, ← hround]
      rfl
    · have hpos := hline.pos
      have hle := hline.end_le_length
      obtain ⟨records', hread⟩ := ih (k - raw.length) (by omega) (by omega) hline.boundary_end
        (records ++ [(n, record)])
      refine ⟨records', Ticks.head ?_⟩
      simp only [ChannelWatcher.tick, hround]
      exact hread

/-- Undisturbed, it dispatches what it holds and saves the cursor. -/
theorem ticks_dispatching (c n : Nat) (rest : List (Nat × Record)) (log : List (Event Record)) :
    ∃ log', Ticks loads filter ⟨d, .dispatching c n rest, log⟩ ⟨{ d with cursor := advance c n }, .idle, log'⟩ := by
  induction rest generalizing log with
  | nil => exact ⟨log ++ [.saved], 1, rfl⟩
  | cons p rest ih =>
    obtain ⟨log', hlog'⟩ := ih (if filter p.2 then log ++ [.dispatched p.1 p.2] else log)
    exact ⟨log', hlog'.head⟩

/-- **An undisturbed sweep** of a file that is not stale leaves the cursor at its end. -/
theorem RotInv.sweep {s : State Record} (h : RotInv loads filter start s) (hidle : s.phase = .idle)
    (hstale : stale s.log = false) :
    ∃ s', Ticks loads filter s s' ∧ s'.phase = .idle ∧ s'.disk.changes = s.disk.changes ∧
      s'.disk.cursor = s.disk.changes.length := by
  obtain ⟨d, phase, log⟩ := s
  obtain rfl : phase = .idle := hidle
  have hcursor : Boundary newline d.changes d.cursor := by
    have hboundary : Boundary newline d.changes (readFrom log d.cursor) := h.boundary
    rwa [readFrom, show stale log = false from hstale, if_neg Bool.false_ne_true] at hboundary
  have hopen : (if d.changes.length < d.cursor then 0 else d.cursor) = d.cursor := if_neg (Nat.not_lt.mpr hcursor.1)
  have hbegin : Ticks loads filter ⟨d, .idle, log⟩ ⟨d, .reading d.cursor d.cursor d.ack [], log⟩ := by
    refine ⟨3, ?_⟩
    simp only [ChannelWatcher.run, List.replicate_succ, List.replicate_zero, List.foldl_cons, List.foldl_nil,
      ChannelWatcher.step, ChannelWatcher.tick, hopen]
  obtain ⟨k, hk⟩ := Nat.exists_eq_add_of_le hcursor.1
  obtain ⟨records, hread⟩ := @ticks_reading _ loads filter d log h.whole d.cursor d.ack k d.cursor hk hcursor []
  have hend := hbegin.trans hread
  rw [endRead] at hend
  split_ifs at hend with hnothing
  · rw [Bool.and_eq_true, decide_eq_true_iff] at hnothing
    exact ⟨_, hend, rfl, rfl, hnothing.2.symm⟩
  · obtain ⟨log', hsave⟩ := @ticks_dispatching _ loads filter d d.cursor d.changes.length records log
    have hadvance : advance d.cursor d.changes.length = d.changes.length := if_neg (Nat.not_lt.mpr hcursor.1)
    exact ⟨_, hend.trans hsave, rfl, rfl, hadvance⟩

theorem rotInv_fresh {changes : List UInt8} (hwhole : WholeLines loads changes)
    (hstart : Boundary newline changes start) : RotInv loads filter start (fresh changes start : State Record) :=
  ⟨hwhole, rfl, Nat.le_refl _, hstart, .idle (.nil start)⟩

end Whole

namespace RotationSample

/-- Every line decodes to its first byte. -/
def loads (raw : List UInt8) : Option UInt8 := raw.head?

/-- Two lines. -/
def before : List UInt8 := [1, 10, 2, 10]

/-- The file is truncated and grows by one line, and two sweeps follow. -/
def acts : List Act := List.replicate 9 .tick ++ [.replace [], .append [3, 10]] ++ List.replicate 14 .tick

theorem wholeLines_before : WholeLines loads before := by
  refine ⟨[[1, 10], [2, 10]], rfl, fun line hline => ?_⟩
  simp only [List.mem_cons, List.not_mem_nil, or_false] at hline
  rcases hline with rfl | rfl
  · exact ⟨rfl, [1], by decide, rfl⟩
  · exact ⟨rfl, [2], by decide, rfl⟩

end RotationSample

end RallyPoint.ChannelWatcher
