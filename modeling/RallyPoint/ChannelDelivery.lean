/-
# RallyPoint.ChannelDelivery — a consumer of a growing channel is served at least once (`watcher.py`, `cursor.py`).

The channel is only appended to. Whatever the chunks, the acknowledgements and the crashes fall between, what stands
before the saved cursor has been dispatched or quarantined: `watcher_delivers` follows from one invariant about the
files, what the sweep holds in its hands and what was told of the run, which each step preserves.
-/
import RallyPoint.ChannelWatcher
import Mathlib.Order.MinMax
import Mathlib.Order.Nat

namespace RallyPoint.ChannelWatcher

open Lib

variable {Record : Type}

/-! ## Growth -/

/-- The files after an append, a quarantined line or an acknowledgement. -/
structure Grows (d d' : Disk) : Prop where
  changes : ∃ chunk, d'.changes = d.changes ++ chunk
  cursor : d'.cursor = d.cursor
  quarantine : ∀ o ∈ d.quarantine.map (·.offset), o ∈ d'.quarantine.map (·.offset)
  ack : d.ack ≤ d'.ack

section Acknowledged

theorem foldl_through_cases (ledger : List QuarantineEntry) (through : Nat) :
    through ≤ ledger.foldl (fun through entry => max through (entry.offset + entry.length)) through ∧
      (∀ e ∈ ledger, e.offset + e.length ≤
        ledger.foldl (fun through entry => max through (entry.offset + entry.length)) through) ∧
      (ledger.foldl (fun through entry => max through (entry.offset + entry.length)) through = through ∨
        ∃ e ∈ ledger, ledger.foldl (fun through entry => max through (entry.offset + entry.length)) through =
          e.offset + e.length) := by
  induction ledger generalizing through with
  | nil => exact ⟨Nat.le_refl _, fun _ he => absurd he List.not_mem_nil, .inl rfl⟩
  | cons entry rest ih =>
    obtain ⟨hle, hall, hcases⟩ := ih (max through (entry.offset + entry.length))
    rw [List.foldl_cons]
    refine ⟨(le_max_left _ _).trans hle, fun e he => ?_, ?_⟩
    · rcases List.mem_cons.mp he with rfl | he
      · exact (le_max_right _ _).trans hle
      · exact hall e he
    · rcases hcases with heq | ⟨e, he, heq⟩
      · rcases max_choice through (entry.offset + entry.length) with hmax | hmax
        · exact .inl (heq.trans hmax)
        · exact .inr ⟨entry, List.mem_cons_self, heq.trans hmax⟩
      · exact .inr ⟨e, List.mem_cons_of_mem _ he, heq⟩

theorem le_ackThrough {ledger : List QuarantineEntry} {e : QuarantineEntry} (he : e ∈ ledger) :
    e.offset + e.length ≤ ackThrough ledger := (foldl_through_cases ledger 0).2.1 e he

theorem ackThrough_cases (ledger : List QuarantineEntry) :
    ackThrough ledger = 0 ∨ ∃ e ∈ ledger, ackThrough ledger = e.offset + e.length :=
  (foldl_through_cases ledger 0).2.2

end Acknowledged

/-! ## The ledger -/

section Ledger

variable (loads : List UInt8 → Option Record) (start : Nat)

/-- The ledger holds, once each, the malformed lines from the consumer's start up to the last it holds, and the
watermark stands at the end of one of them. -/
structure LedgerOk (d : Disk) : Prop where
  nodup : (d.quarantine.map (·.offset)).Nodup
  line : ∀ e ∈ d.quarantine, ∃ raw, LineAt newline d.changes e.offset raw ∧ e.length = raw.length
  closed : ∀ e ∈ d.quarantine, ∀ o, start ≤ o → o ≤ e.offset → BadLine loads d.changes o →
    o ∈ d.quarantine.map (·.offset)
  ackEnd : d.ack = 0 ∨ ∃ e ∈ d.quarantine, d.ack = e.offset + e.length

/-- An offset a sweep may reach: what is malformed before it is on the ledger and acknowledged. -/
structure Passed (d : Disk) (n : Nat) : Prop where
  boundary : Boundary newline d.changes n
  bad : ∀ o, start ≤ o → o < n → BadLine loads d.changes o → o ∈ d.quarantine.map (·.offset) ∧ o < d.ack

variable {loads start} {d d' : Disk} {n : Nat} {raw : List UInt8}

theorem Passed.grow (h : Passed loads start d n) (hd : Grows d d') : Passed loads start d' n := by
  obtain ⟨chunk, hchunk⟩ := hd.changes
  constructor
  · rw [hchunk]
    exact h.boundary.append chunk
  · intro o ho hlt hbad
    rw [hchunk, badLine_append_iff h.boundary hlt] at hbad
    obtain ⟨hmem, hack⟩ := h.bad o ho hlt hbad
    exact ⟨hd.quarantine o hmem, hack.trans_le hd.ack⟩

/-- What is acknowledged is on the ledger. -/
theorem LedgerOk.mem_of_lt_ack (h : LedgerOk loads start d) {o : Nat} (ho : start ≤ o) (hlt : o < d.ack)
    (hbad : BadLine loads d.changes o) : o ∈ d.quarantine.map (·.offset) := by
  rcases h.ackEnd with hzero | ⟨e, he, hend⟩
  · omega
  · obtain ⟨raw, hline, hlen⟩ := h.line e he
    obtain ⟨raw', hline', -⟩ := id hbad
    rw [hend, hlen] at hlt
    rcases lt_or_eq_of_lineAt hline hline' hlt with hlt | heq
    · exact h.closed e he o ho hlt.le hbad
    · exact h.closed e he o ho heq.le hbad

theorem LedgerOk.append (h : LedgerOk loads start d) (chunk : List UInt8) :
    LedgerOk loads start { d with changes := d.changes ++ chunk } := by
  refine ⟨h.nodup, fun e he => ?_, fun e he o ho hle hbad => ?_, h.ackEnd⟩
  · obtain ⟨raw, hline, hlen⟩ := h.line e he
    exact ⟨raw, hline.append chunk, hlen⟩
  · obtain ⟨raw, hline, -⟩ := h.line e he
    have hlt : o < e.offset + raw.length := by
      have := hline.pos
      omega
    exact h.closed e he o ho hle ((badLine_append_iff hline.boundary_end hlt).mp hbad)

theorem ackQuarantine_eq (d : Disk) :
    ackQuarantine d = { d with ack := if ackThrough d.quarantine = 0 then d.ack else ackThrough d.quarantine } := by
  rw [ackQuarantine]
  split_ifs <;> rfl

theorem LedgerOk.ackQuarantine (h : LedgerOk loads start d) :
    LedgerOk loads start (ackQuarantine d) ∧ Grows d (ackQuarantine d) := by
  rw [ackQuarantine_eq]
  split_ifs with hzero
  · exact ⟨h, ⟨[], (List.append_nil _).symm⟩, rfl, fun _ ho => ho, Nat.le_refl _⟩
  · refine ⟨⟨h.nodup, h.line, h.closed, ackThrough_cases d.quarantine⟩, ⟨[], (List.append_nil _).symm⟩, rfl,
      fun _ ho => ho, ?_⟩
    rcases h.ackEnd with hack | ⟨e, he, hack⟩
    · exact hack ▸ Nat.zero_le _
    · exact hack ▸ le_ackThrough he

/-- **A stall** puts its line on the ledger. -/
theorem LedgerOk.stall (h : LedgerOk loads start d) (hpassed : Passed loads start d n)
    (hline : LineAt newline d.changes n raw) :
    LedgerOk loads start { d with quarantine := quarantineLine d.quarantine n raw } ∧
      Grows d { d with quarantine := quarantineLine d.quarantine n raw } := by
  rw [quarantineLine]
  split_ifs with hany
  · exact ⟨h, ⟨[], (List.append_nil _).symm⟩, rfl, fun _ ho => ho, Nat.le_refl _⟩
  · have hfresh : n ∉ d.quarantine.map (·.offset) := by
      intro hmem
      obtain ⟨e, he, hoffset⟩ := List.mem_map.mp hmem
      exact hany (List.any_eq_true.mpr ⟨e, he, decide_eq_true hoffset⟩)
    have hmap : (d.quarantine ++ [(⟨n, raw.length, raw⟩ : QuarantineEntry)]).map (·.offset) =
        d.quarantine.map (·.offset) ++ [n] := by
      rw [List.map_append, List.map_singleton]
    refine ⟨⟨?_, fun e he => ?_, fun e he o ho hle hbad => ?_, ?_⟩, ⟨[], (List.append_nil _).symm⟩, rfl, ?_,
      Nat.le_refl _⟩
    · rw [hmap]
      exact List.nodup_append'.mpr ⟨h.nodup, List.nodup_singleton n, List.disjoint_singleton.mpr hfresh⟩
    · rcases List.mem_append.mp he with he | he
      · exact h.line e he
      · obtain rfl := List.mem_singleton.mp he
        exact ⟨raw, hline, rfl⟩
    · rw [hmap, List.mem_append, List.mem_singleton]
      rcases List.mem_append.mp he with he | he
      · exact .inl (h.closed e he o ho hle hbad)
      · obtain rfl := List.mem_singleton.mp he
        rcases Nat.lt_or_eq_of_le hle with hlt | heq
        · exact .inl (hpassed.bad o ho hlt hbad).1
        · exact .inr heq
    · rcases h.ackEnd with hzero | ⟨e, he, hend⟩
      · exact .inl hzero
      · exact .inr ⟨e, List.mem_append_left _ he, hend⟩
    · intro o ho
      rw [hmap]
      exact List.mem_append_left _ ho

/-- A line that decodes is passed. -/
theorem Passed.good (h : Passed loads start d n) {record : Record} (hline : LineAt newline d.changes n raw)
    (hload : loads raw = some record) : Passed loads start d (n + raw.length) := by
  refine ⟨hline.boundary_end, fun o ho hlt hbad => ?_⟩
  obtain ⟨raw', hline', -⟩ := id hbad
  rcases lt_or_eq_of_lineAt hline hline' hlt with hlt | rfl
  · exact h.bad o ho hlt hbad
  · exact absurd hbad (GoodLine.notBad ⟨raw, hline, hload⟩)

/-- A malformed line that was acknowledged is passed. -/
theorem Passed.acknowledged (h : Passed loads start d n) (hledger : LedgerOk loads start d)
    (hline : LineAt newline d.changes n raw) (hack : n < d.ack) : Passed loads start d (n + raw.length) := by
  refine ⟨hline.boundary_end, fun o ho hlt hbad => ?_⟩
  obtain ⟨raw', hline', -⟩ := id hbad
  rcases lt_or_eq_of_lineAt hline hline' hlt with hlt | rfl
  · exact h.bad o ho hlt hbad
  · exact ⟨hledger.mem_of_lt_ack ho hack hbad, hack⟩

end Ledger

/-! ## What the sweep holds -/

section Phases

variable (loads : List UInt8 → Option Record) (filter : Record → Bool) (start : Nat)

/-- What each phase holds is what stands between the cursor and the offset it has read to; of that, what is not held
any more was dispatched. -/
inductive PhaseOk (d : Disk) (log : List (Event Record)) : Phase Record → Prop
  | idle : PhaseOk d log .idle
  | loaded : PhaseOk d log (.loaded d.cursor)
  | opened : PhaseOk d log (.opened d.cursor d.cursor)
  | reading {n acked : Nat} {records : List (Nat × Record)} (hle : d.cursor ≤ n) (hpassed : Passed loads start d n)
      (hack : acked ≤ d.ack) (hread : Collected loads d.changes d.cursor n records) :
      PhaseOk d log (.reading d.cursor n acked records)
  | stalled {n : Nat} {raw : List UInt8} {records : List (Nat × Record)} (hle : d.cursor ≤ n)
      (hpassed : Passed loads start d n) (hline : LineAt newline d.changes n raw)
      (hread : Collected loads d.changes d.cursor n records) : PhaseOk d log (.stalled d.cursor n raw records)
  | dispatching {n : Nat} {front rest : List (Nat × Record)} (hle : d.cursor ≤ n) (hpassed : Passed loads start d n)
      (hread : Collected loads d.changes d.cursor n (front ++ rest))
      (hsent : ∀ p ∈ front, filter p.2 = true → p ∈ dispatches log) : PhaseOk d log (.dispatching d.cursor n rest)

/-- What is dispatched: lines of the channel that decode and match, none behind a malformed line that was not
acknowledged, each after all that come before it in the file. -/
structure LogOk (d : Disk) (log : List (Event Record)) : Prop where
  reached : ∀ o record, start ≤ o → o < d.cursor → GoodLine loads d.changes o record → filter record = true →
    (o, record) ∈ dispatches log
  sent : ∀ p ∈ dispatches log, GoodLine loads d.changes p.1 p.2
  stopped : ∀ p ∈ dispatches log, ∀ o, start ≤ o → o < p.1 → BadLine loads d.changes o → o < d.ack
  earlier : ∀ front p back, dispatches log = front ++ p :: back → ∀ o record, start ≤ o → o < p.1 →
    GoodLine loads d.changes o record → filter record = true → (o, record) ∈ front
  matching : ∀ p ∈ dispatches log, start ≤ p.1 ∧ filter p.2 = true

variable {loads filter start} {d d' : Disk} {log : List (Event Record)} {phase : Phase Record}

theorem PhaseOk.grow (h : PhaseOk loads filter start d log phase) (hd : Grows d d') :
    PhaseOk loads filter start d' log phase := by
  obtain ⟨chunk, hchunk⟩ := id hd.changes
  have hcursor := hd.cursor
  cases h with
  | idle => exact .idle
  | loaded =>
    rw [← hcursor]
    exact .loaded
  | opened =>
    rw [← hcursor]
    exact .opened
  | reading hle hpassed hack hread =>
    have hread' := hread.append hpassed.boundary chunk
    rw [← hchunk] at hread'
    rw [← hcursor] at hle hread' ⊢
    exact .reading hle (hpassed.grow hd) (hack.trans hd.ack) hread'
  | stalled hle hpassed hline hread =>
    have hread' := hread.append hpassed.boundary chunk
    have hline' := hline.append chunk
    rw [← hchunk] at hread' hline'
    rw [← hcursor] at hle hread' ⊢
    exact .stalled hle (hpassed.grow hd) hline' hread'
  | dispatching hle hpassed hread hsent =>
    have hread' := hread.append hpassed.boundary chunk
    rw [← hchunk] at hread'
    rw [← hcursor] at hle hread' ⊢
    exact .dispatching hle (hpassed.grow hd) hread' hsent

theorem LogOk.grow (h : LogOk loads filter start d log) (hcursor : Boundary newline d.changes d.cursor)
    (hd : Grows d d') : LogOk loads filter start d' log := by
  obtain ⟨chunk, hchunk⟩ := hd.changes
  have hsent : ∀ p ∈ dispatches log, Boundary newline d.changes p.1 := by
    intro p hp
    obtain ⟨raw, hline, -⟩ := h.sent p hp
    exact hline.start
  constructor
  · intro o record ho hlt hgood hmatch
    rw [hd.cursor] at hlt
    rw [hchunk, goodLine_append_iff hcursor hlt] at hgood
    exact h.reached o record ho hlt hgood hmatch
  · intro p hp
    obtain ⟨raw, hline, hload⟩ := h.sent p hp
    rw [hchunk]
    exact ⟨raw, hline.append chunk, hload⟩
  · intro p hp o ho hlt hbad
    rw [hchunk, badLine_append_iff (hsent p hp) hlt] at hbad
    exact (h.stopped p hp o ho hlt hbad).trans_le hd.ack
  · intro front p back heq o record ho hlt hgood hmatch
    have hp : p ∈ dispatches log := heq ▸ List.mem_append_right front List.mem_cons_self
    rw [hchunk, goodLine_append_iff (hsent p hp) hlt] at hgood
    exact h.earlier front p back heq o record ho hlt hgood hmatch
  · exact h.matching

/-- An event that is no dispatch changes nothing. -/
theorem LogOk.of_dispatches_eq {log' : List (Event Record)} (h : LogOk loads filter start d log)
    (heq : dispatches log' = dispatches log) : LogOk loads filter start d log' := by
  constructor
  · rw [heq]
    exact h.reached
  · rw [heq]
    exact h.sent
  · rw [heq]
    exact h.stopped
  · rw [heq]
    exact h.earlier
  · rw [heq]
    exact h.matching

end Phases

/-! ## No second dispatch without a crash -/

/-- A crash before any save. -/
def CrashedBeforeSave (events : List (Event Record)) : Prop :=
  ∃ before after, events = before ++ .crashed :: after ∧ .saved ∉ before

section Once

/-- Since a dispatch of a line: a crash before any save, or the saved cursor is past the line, or the sweep that
dispatched it still goes on behind it. -/
inductive Settled (cursor : Nat) (phase : Phase Record) (o : Nat) (since : List (Event Record)) : Prop
  | crashed (h : CrashedBeforeSave since) : Settled cursor phase o since
  | saved (h : o < cursor) : Settled cursor phase o since
  | inFlight {c n : Nat} {rest : List (Nat × Record)} (hphase : phase = .dispatching c n rest) (hlt : o < n)
      (hrest : ∀ p ∈ rest, o < p.1) (hsince : .saved ∉ since) : Settled cursor phase o since

/-- Every dispatch is settled, and a line was dispatched again only after a crash. -/
structure OnceOk (cursor : Nat) (phase : Phase Record) (log : List (Event Record)) : Prop where
  settled : ∀ before o record since, log = before ++ .dispatched o record :: since → Settled cursor phase o since
  again : ∀ before o record between record' after,
    log = before ++ .dispatched o record :: (between ++ .dispatched o record' :: after) → CrashedBeforeSave between

theorem CrashedBeforeSave.append {events : List (Event Record)} (h : CrashedBeforeSave events)
    (more : List (Event Record)) : CrashedBeforeSave (events ++ more) := by
  obtain ⟨before, after, rfl, hsaved⟩ := h
  exact ⟨before, after ++ more, by rw [List.append_assoc, List.cons_append], hsaved⟩

/-- Where an element of a list with one more at its end stands. -/
theorem eq_concat_cases {α : Type*} {l before after : List α} {e x : α} (h : l ++ [e] = before ++ x :: after) :
    (before = l ∧ x = e ∧ after = []) ∨ ∃ after', after = after' ++ [e] ∧ l = before ++ x :: after' := by
  rcases List.eq_nil_or_concat after with rfl | ⟨after', last, rfl⟩
  · obtain ⟨rfl, hx⟩ := List.append_inj' h rfl
    exact .inl ⟨rfl, (List.singleton_inj.mp hx).symm, rfl⟩
  · rw [List.concat_eq_append, ← List.cons_append, ← List.append_assoc] at h
    obtain ⟨hl, hlast⟩ := List.append_inj' h rfl
    obtain rfl := List.singleton_inj.mp hlast
    exact .inr ⟨after', List.concat_eq_append, hl⟩

variable {cursor : Nat} {phase phase' : Phase Record} {log : List (Event Record)}

/-- A step that tells nothing, into or out of phases that hold no record to dispatch. -/
theorem OnceOk.of_phase (h : OnceOk cursor phase log) (hphase : ∀ c n rest, phase ≠ .dispatching c n rest) :
    OnceOk cursor phase' log := by
  refine ⟨fun before o record since heq => ?_, h.again⟩
  cases h.settled before o record since heq with
  | crashed hcrash => exact .crashed hcrash
  | saved hlt => exact .saved hlt
  | inFlight heq => exact absurd heq (hphase _ _ _)

theorem OnceOk.of_concat {cursor' : Nat} {e : Event Record} (h : OnceOk cursor phase log)
    (he : ∀ o record, e ≠ .dispatched o record)
    (hsettled : ∀ o since, Settled cursor phase o since → Settled cursor' phase' o (since ++ [e])) :
    OnceOk cursor' phase' (log ++ [e]) := by
  constructor
  · intro before o record since heq
    rcases eq_concat_cases heq with ⟨-, hlast, -⟩ | ⟨since', rfl, hlog⟩
    · exact absurd hlast.symm (he o record)
    · exact hsettled o since' (h.settled before o record since' hlog)
  · intro before o record between record' after heq
    rw [← List.cons_append, ← List.append_assoc] at heq
    rcases eq_concat_cases heq with ⟨-, hlast, -⟩ | ⟨after', rfl, hlog⟩
    · exact absurd hlast.symm (he o record')
    · rw [List.append_assoc, List.cons_append] at hlog
      exact h.again before o record between record' after' hlog

/-- **A crash** settles what was in flight. -/
theorem OnceOk.crash (h : OnceOk cursor phase log) : OnceOk cursor .idle (log ++ [.crashed]) := by
  refine h.of_concat (fun _ _ => by simp) fun o since hsettled => ?_
  cases hsettled with
  | crashed hcrash => exact .crashed (hcrash.append _)
  | saved hlt => exact .saved hlt
  | inFlight _ _ _ hsince => exact .crashed ⟨since, [], rfl, hsince⟩

/-- **A save** settles it too. -/
theorem OnceOk.save {n : Nat} (h : OnceOk cursor (.dispatching cursor n []) log) (hle : cursor ≤ n) :
    OnceOk n .idle (log ++ [.saved]) := by
  refine h.of_concat (fun _ _ => by simp) fun o since hsettled => ?_
  cases hsettled with
  | crashed hcrash => exact .crashed (hcrash.append _)
  | saved hlt => exact .saved (hlt.trans_le hle)
  | inFlight hphase hlt =>
    cases hphase
    exact .saved hlt

/-- A record that is not sent. -/
theorem OnceOk.drop {c n : Nat} {p : Nat × Record} {rest : List (Nat × Record)}
    (h : OnceOk cursor (.dispatching c n (p :: rest)) log) : OnceOk cursor (.dispatching c n rest) log := by
  refine ⟨fun before o record since heq => ?_, h.again⟩
  cases h.settled before o record since heq with
  | crashed hcrash => exact .crashed hcrash
  | saved hlt => exact .saved hlt
  | inFlight hphase hlt hrest hsince =>
    cases hphase
    exact .inFlight rfl hlt (fun q hq => hrest q (List.mem_cons_of_mem _ hq)) hsince

/-- **A dispatch** is the first of its line, or there was a crash. -/
theorem OnceOk.dispatch {c n line : Nat} {record : Record} {rest : List (Nat × Record)}
    (h : OnceOk cursor (.dispatching c n ((line, record) :: rest)) log) (hcursor : cursor ≤ line) (hlt : line < n)
    (hrest : ∀ p ∈ rest, line < p.1) : OnceOk cursor (.dispatching c n rest) (log ++ [.dispatched line record]) := by
  have hkept : ∀ o since, Settled cursor (.dispatching c n ((line, record) :: rest)) o since →
      Settled cursor (.dispatching c n rest) o (since ++ [.dispatched line record]) := by
    intro o since hsettled
    cases hsettled with
    | crashed hcrash => exact .crashed (hcrash.append _)
    | saved hlt => exact .saved hlt
    | inFlight hphase hlt hrest hsince =>
      cases hphase
      refine .inFlight rfl hlt (fun q hq => hrest q (List.mem_cons_of_mem _ hq)) ?_
      simpa using hsince
  constructor
  · intro before o record' since heq
    rcases eq_concat_cases heq with ⟨-, hlast, rfl⟩ | ⟨since', rfl, hlog⟩
    · cases hlast
      exact .inFlight rfl hlt hrest List.not_mem_nil
    · exact hkept o since' (h.settled before o record' since' hlog)
  · intro before o record₁ between record₂ after heq
    rw [← List.cons_append, ← List.append_assoc] at heq
    rcases eq_concat_cases heq with ⟨hlog, hlast, -⟩ | ⟨after', rfl, hlog⟩
    · cases hlast
      -- the line is the one the sweep holds, so its earlier dispatch was cut off by a crash
      cases h.settled before line record₁ between hlog.symm with
      | crashed hcrash => exact hcrash
      | saved hlt => exact absurd hcursor (Nat.not_le.mpr hlt)
      | inFlight hphase _ hrest =>
        cases hphase
        exact absurd (hrest (line, record) List.mem_cons_self) (Nat.lt_irrefl _)
    · rw [List.append_assoc, List.cons_append] at hlog
      exact h.again before o record₁ between record₂ after' hlog

end Once

/-! ## One step -/

section Steps

variable (loads : List UInt8 → Option Record) (filter : Record → Bool) (start : Nat)

/-- The files, what the sweep holds, and what was told of the run agree. -/
structure Inv (s : State Record) : Prop where
  ledger : LedgerOk loads start s.disk
  cursor : Passed loads start s.disk s.disk.cursor
  start_le : start ≤ s.disk.cursor
  phase : PhaseOk loads filter start s.disk s.log s.phase
  log : LogOk loads filter start s.disk s.log
  once : OnceOk s.disk.cursor s.phase s.log

variable {loads filter start} {d d' : Disk} {log : List (Event Record)} {phase : Phase Record}

/-- The channel grows, or an acknowledgement comes, whatever the sweep is doing. -/
theorem Inv.grow (h : Inv loads filter start ⟨d, phase, log⟩) (hledger : LedgerOk loads start d')
    (hd : Grows d d') : Inv loads filter start ⟨d', phase, log⟩ where
  ledger := hledger
  cursor := by
    have hcursor := h.cursor.grow hd
    rwa [← hd.cursor] at hcursor
  start_le := by
    have hle := h.start_le
    rwa [← hd.cursor] at hle
  phase := h.phase.grow hd
  log := h.log.grow h.cursor.boundary hd
  once := by
    have honce := h.once
    rwa [← hd.cursor] at honce

theorem Inv.append (h : Inv loads filter start ⟨d, phase, log⟩) (chunk : List UInt8) :
    Inv loads filter start ⟨{ d with changes := d.changes ++ chunk }, phase, log⟩ :=
  h.grow (h.ledger.append chunk) ⟨⟨chunk, rfl⟩, rfl, fun _ ho => ho, Nat.le_refl _⟩

theorem Inv.ackQuarantine (h : Inv loads filter start ⟨d, phase, log⟩) :
    Inv loads filter start ⟨ChannelWatcher.ackQuarantine d, phase, log⟩ :=
  h.grow h.ledger.ackQuarantine.1 h.ledger.ackQuarantine.2

theorem Inv.crash (h : Inv loads filter start ⟨d, phase, log⟩) :
    Inv loads filter start ⟨d, .idle, log ++ [.crashed]⟩ where
  ledger := h.ledger
  cursor := h.cursor
  start_le := h.start_le
  phase := .idle
  log := h.log.of_dispatches_eq (by rw [dispatches_append]; exact List.append_nil _)
  once := h.once.crash

/-- A step that only changes what the sweep holds. -/
theorem Inv.of_phase {phase' : Phase Record} (h : Inv loads filter start ⟨d, phase, log⟩)
    (hphase : PhaseOk loads filter start d log phase')
    (hheld : ∀ c n rest, phase ≠ .dispatching c n rest) : Inv loads filter start ⟨d, phase', log⟩ :=
  { h with phase := hphase, once := h.once.of_phase hheld }

theorem phaseOk_endRead {n : Nat} {records : List (Nat × Record)} (hle : d.cursor ≤ n)
    (hpassed : Passed loads start d n) (hread : Collected loads d.changes d.cursor n records) :
    PhaseOk loads filter start d log (endRead d.cursor n records) := by
  rw [endRead]
  split_ifs
  · exact .idle
  · exact .dispatching hle hpassed (by rwa [List.nil_append]) (fun p hp => absurd hp List.not_mem_nil)

/-- **One round of reading.** -/
theorem phaseOk_readRound {n acked : Nat} {records : List (Nat × Record)} (hledger : LedgerOk loads start d)
    (hle : d.cursor ≤ n) (hpassed : Passed loads start d n) (hack : acked ≤ d.ack)
    (hread : Collected loads d.changes d.cursor n records) :
    PhaseOk loads filter start d log (readRound loads d d.cursor n acked records) := by
  rw [readRound]
  by_cases hcomplete : isComplete newline (readLine newline (d.changes.drop n)) = true
  · obtain ⟨hline, -⟩ := lineAt_readLine hpassed.boundary hcomplete
    simp only [hcomplete, if_true]
    cases hload : loads (readLine newline (d.changes.drop n)) with
    | some record =>
      exact .reading (Nat.le_add_right_of_le hle) (hpassed.good hline hload) hack (hread.push hle hline hload)
    | none =>
      dsimp only
      split_ifs with hacked
      · exact .reading (Nat.le_add_right_of_le hle)
          (hpassed.acknowledged hledger hline (Nat.lt_of_lt_of_le hacked hack)) hack (hread.skip hline hload)
      · exact .stalled hle hpassed hline hread
  · simp only [hcomplete, Bool.false_eq_true, if_false]
    exact phaseOk_endRead hle hpassed hread

/-- **A dispatch** comes after those of all earlier lines. -/
theorem LogOk.dispatch {n line : Nat} {record : Record} {front rest : List (Nat × Record)}
    (h : LogOk loads filter start d log) (hstart : start ≤ d.cursor) (hpassed : Passed loads start d n)
    (hread : Collected loads d.changes d.cursor n (front ++ (line, record) :: rest))
    (hsent : ∀ p ∈ front, filter p.2 = true → p ∈ dispatches log) (hmatch : filter record = true) :
    LogOk loads filter start d (log ++ [.dispatched line record]) := by
  have hlog : dispatches (log ++ [.dispatched line record]) = dispatches log ++ [(line, record)] :=
    dispatches_append _ _
  obtain ⟨hle, hlt, hgood⟩ := (hread.mem_iff line record).mp (List.mem_append_right front List.mem_cons_self)
  have hsorted := hread.sorted
  rw [List.map_append, List.map_cons, List.pairwise_append] at hsorted
  -- what precedes the line in the file was dispatched by this sweep or by one before it
  have hbefore : ∀ o record', start ≤ o → o < line → GoodLine loads d.changes o record' → filter record' = true →
      (o, record') ∈ dispatches log := by
    intro o record' ho ho' hgood' hmatch'
    rcases Nat.lt_or_ge o d.cursor with hbefore | hafter
    · exact h.reached o record' ho hbefore hgood' hmatch'
    · have hmem := (hread.mem_iff o record').mpr ⟨hafter, ho'.trans hlt, hgood'⟩
      rcases List.mem_append.mp hmem with hfront | hrest
      · exact hsent _ hfront hmatch'
      · rcases List.mem_cons.mp hrest with heq | hrest
        · cases heq
          exact absurd ho' (Nat.lt_irrefl _)
        · have hgt := (List.pairwise_cons.mp hsorted.2.1).1 o (List.mem_map_of_mem hrest)
          omega
  constructor
  · intro o record' ho ho' hgood' hmatch'
    rw [hlog]
    exact List.mem_append_left _ (h.reached o record' ho ho' hgood' hmatch')
  · intro p hp
    rw [hlog, List.mem_append, List.mem_singleton] at hp
    rcases hp with hp | rfl
    · exact h.sent p hp
    · exact hgood
  · intro p hp o ho ho' hbad
    rw [hlog, List.mem_append, List.mem_singleton] at hp
    rcases hp with hp | rfl
    · exact h.stopped p hp o ho ho' hbad
    · exact (hpassed.bad o ho (ho'.trans hlt) hbad).2
  · intro front' p back heq o record' ho ho' hgood' hmatch'
    rw [hlog] at heq
    rcases eq_concat_cases heq with ⟨rfl, rfl, -⟩ | ⟨back', -, heq⟩
    · exact hbefore o record' ho ho' hgood' hmatch'
    · exact h.earlier front' p back' heq o record' ho ho' hgood' hmatch'
  · intro p hp
    rw [hlog, List.mem_append, List.mem_singleton] at hp
    rcases hp with hp | rfl
    · exact h.matching p hp
    · exact ⟨hstart.trans hle, hmatch⟩

/-- **One tick** of the sweep keeps the invariant, whatever it is about to do. -/
theorem Inv.tick {s : State Record} (h : Inv loads filter start s) :
    Inv loads filter start (ChannelWatcher.tick loads filter s) := by
  obtain ⟨d, phase, log⟩ := s
  have hphase : PhaseOk loads filter start d log phase := h.phase
  cases hphase with
  | idle => exact h.of_phase .loaded (by simp)
  | loaded =>
    have hsize : ¬d.changes.length < d.cursor := Nat.not_lt.mpr h.cursor.boundary.1
    have hopened : PhaseOk loads filter start d log (.opened d.cursor d.cursor) := .opened
    have hphase := h.of_phase hopened (by simp)
    simpa only [ChannelWatcher.tick, if_neg hsize] using hphase
  | opened => exact h.of_phase (.reading (Nat.le_refl _) h.cursor (Nat.le_refl _) (.nil _)) (by simp)
  | reading hle hpassed hack hread => exact h.of_phase (phaseOk_readRound h.ledger hle hpassed hack hread) (by simp)
  | stalled hle hpassed hline hread =>
    obtain ⟨hledger, hgrows⟩ := h.ledger.stall hpassed hline
    exact (h.grow hledger hgrows).of_phase (phaseOk_endRead hle (hpassed.grow hgrows) hread) (by simp)
  | @dispatching n front rest hle hpassed hread hsent =>
    cases rest with
    | nil =>
      have hadvance : advance d.cursor n = n := if_neg (Nat.not_lt.mpr hle)
      simp only [ChannelWatcher.tick, hadvance]
      have hlog : dispatches (log ++ [.saved]) = dispatches log := by
        rw [dispatches_append]
        exact List.append_nil _
      rw [List.append_nil] at hread
      exact
        { ledger := ⟨h.ledger.nodup, h.ledger.line, h.ledger.closed, h.ledger.ackEnd⟩
          cursor := ⟨hpassed.boundary, hpassed.bad⟩
          start_le := h.start_le.trans hle
          phase := .idle
          log :=
            { h.log.of_dispatches_eq hlog with
              reached := fun o record ho hlt hgood hmatch => by
                rw [hlog]
                rcases Nat.lt_or_ge o d.cursor with hbefore | hafter
                · exact h.log.reached o record ho hbefore hgood hmatch
                · exact hsent _ ((hread.mem_iff o record).mpr ⟨hafter, hlt, hgood⟩) hmatch }
          once := h.once.save hle }
    | cons p rest =>
      obtain ⟨line, record⟩ := p
      have hassoc : front ++ (line, record) :: rest = (front ++ [(line, record)]) ++ rest := by
        rw [List.append_assoc, List.singleton_append]
      have hread' := hassoc ▸ hread
      simp only [ChannelWatcher.tick]
      split_ifs with hmatch
      · have hlog : dispatches (log ++ [.dispatched line record]) = dispatches log ++ [(line, record)] :=
          dispatches_append _ _
        have hsent' : ∀ q ∈ front ++ [(line, record)], filter q.2 = true →
            q ∈ dispatches (log ++ [.dispatched line record]) := by
          intro q hq hfilter
          rw [hlog, List.mem_append]
          rcases List.mem_append.mp hq with hq | hq
          · exact .inl (hsent q hq hfilter)
          · exact .inr hq
        obtain ⟨hcursor, hlt, -⟩ := (hread.mem_iff line record).mp (List.mem_append_right front List.mem_cons_self)
        have hsorted := hread.sorted
        rw [List.map_append, List.map_cons, List.pairwise_append] at hsorted
        exact
          { ledger := h.ledger
            cursor := h.cursor
            start_le := h.start_le
            phase := .dispatching hle hpassed hread' hsent'
            log := h.log.dispatch h.start_le hpassed hread hsent hmatch
            once := h.once.dispatch hcursor hlt fun q hq =>
              (List.pairwise_cons.mp hsorted.2.1).1 q.1 (List.mem_map_of_mem hq) }
      · have hsent' : ∀ q ∈ front ++ [(line, record)], filter q.2 = true → q ∈ dispatches log := by
          intro q hq hfilter
          rcases List.mem_append.mp hq with hq | hq
          · exact hsent q hq hfilter
          · obtain rfl := List.mem_singleton.mp hq
            exact absurd hfilter hmatch
        exact { h with phase := .dispatching hle hpassed hread' hsent', once := h.once.drop }

end Steps

/-! ## Whole runs -/

section Runs

variable {loads : List UInt8 → Option Record} {filter : Record → Bool} {start : Nat} {changes : List UInt8}

theorem inv_fresh (hstart : Boundary newline changes start) :
    Inv loads filter start (fresh changes start : State Record) where
  ledger :=
    ⟨List.nodup_nil, fun _ he => absurd he List.not_mem_nil, fun _ he => absurd he List.not_mem_nil, .inl rfl⟩
  cursor := ⟨hstart, fun _ ho hlt _ => absurd hlt (Nat.not_lt.mpr ho)⟩
  start_le := Nat.le_refl _
  phase := .idle
  log :=
    { reached := fun _ _ ho hlt => absurd hlt (Nat.not_lt.mpr ho)
      sent := fun _ hp => absurd hp List.not_mem_nil
      stopped := fun _ hp => absurd hp List.not_mem_nil
      earlier := fun front p back heq => by simp [fresh, dispatches] at heq
      matching := fun _ hp => absurd hp List.not_mem_nil }
  once :=
    { settled := fun before _ _ _ heq => by simp [fresh] at heq
      again := fun before _ _ _ _ _ heq => by simp [fresh] at heq }

theorem Inv.step {s : State Record} (h : Inv loads filter start s) {act : Act}
    (hact : ∀ content, act ≠ .replace content) : Inv loads filter start (ChannelWatcher.step loads filter s act) := by
  cases act with
  | tick => exact h.tick
  | append chunk => exact h.append chunk
  | ackQuarantine => exact h.ackQuarantine
  | crash => exact h.crash
  | replace content => exact absurd rfl (hact content)

theorem Inv.run {s : State Record} (h : Inv loads filter start s) {acts : List Act}
    (hacts : ∀ content, .replace content ∉ acts) :
    Inv loads filter start (ChannelWatcher.run loads filter s acts) := by
  induction acts generalizing s with
  | nil => exact h
  | cons act acts ih =>
    refine ih (h.step fun content heq => hacts content ?_) fun content hmem => hacts content ?_
    · rw [heq]
      exact List.mem_cons_self
    · exact List.mem_cons_of_mem _ hmem

variable (loads filter start)

/-- What a consumer that started at an offset can rely on. -/
structure Delivers (s : State Record) : Prop where
  reached : ∀ o raw record, LineAt newline s.disk.changes o raw → loads raw = some record → filter record = true →
    start ≤ o → o < s.disk.cursor → (o, record) ∈ dispatches s.log
  inOrder : (firstDispatches s.log).Pairwise (· < ·)
  onceUnlessCrashed : ∀ before o record between record' after,
    s.log = before ++ .dispatched o record :: (between ++ .dispatched o record' :: after) → CrashedBeforeSave between
  quarantined : ∀ o raw, LineAt newline s.disk.changes o raw → loads raw = none → start ≤ o → o < s.disk.cursor →
    (s.disk.quarantine.map (·.offset)).count o = 1
  stopped : ∀ o raw, LineAt newline s.disk.changes o raw → loads raw = none → start ≤ o →
    ∀ p ∈ dispatches s.log, o < p.1 → o < s.disk.ack

variable {loads filter start}

theorem Inv.delivers {s : State Record} (h : Inv loads filter start s) : Delivers loads filter start s where
  reached o raw record hline hload hmatch ho hlt := h.log.reached o record ho hlt ⟨raw, hline, hload⟩ hmatch
  inOrder := by
    refine pairwise_pushNewAll fun front x back heq y hy hlt => ?_
    obtain ⟨sent, more, hsplit, hfront, hmore⟩ := List.map_eq_append_iff.mp heq
    obtain ⟨p, later, rfl, rfl, -⟩ := List.map_eq_cons_iff.mp hmore
    obtain ⟨q, hq, rfl⟩ := List.mem_map.mp hy
    obtain ⟨hstart, hmatch⟩ := h.log.matching q hq
    have hmem := h.log.earlier sent p later hsplit q.1 q.2 hstart hlt (h.log.sent q hq) hmatch
    rw [← hfront]
    exact List.mem_map_of_mem hmem
  onceUnlessCrashed := h.once.again
  quarantined o raw hline hload ho hlt :=
    List.count_eq_one_of_mem h.ledger.nodup (h.cursor.bad o ho hlt ⟨raw, hline, hload⟩).1
  stopped o raw hline hload ho p hp hlt := h.log.stopped p hp o ho hlt ⟨raw, hline, hload⟩

/-- **The channel watcher delivers at least once and never skips silently,** whatever is appended, acknowledged and
cut off by a crash between any two steps of its sweeps. -/
theorem watcher_delivers (hstart : Boundary newline changes start) {acts : List Act}
    (hacts : ∀ content, .replace content ∉ acts) :
    Delivers loads filter start (ChannelWatcher.run loads filter (fresh changes start) acts) :=
  ((inv_fresh hstart).run hacts).delivers

end Runs

namespace WatcherSample

/-- A channel with a record, a line that does not decode, and another record. -/
def channel : List UInt8 := [1, 10, 0, 10, 2, 10]

/-- Lines that begin with a zero byte do not decode. -/
def loads (raw : List UInt8) : Option UInt8 := raw.head?.filter (· ≠ 0)

def acts : List Act := List.replicate 7 .tick ++ [.crash] ++ List.replicate 8 .tick ++ [.ackQuarantine] ++
  List.replicate 8 .tick

/-- After a crash, a stall and an acknowledgement. -/
theorem channel_delivers : Delivers loads (fun _ => true) 0 (run loads (fun _ => true) (fresh channel 0) acts) :=
  watcher_delivers boundary_zero (by simp [acts])

/-- The first record went out again after the crash. -/
example : dispatches (run loads (fun _ => true) (fresh channel 0) acts).log = [(0, 1), (0, 1), (4, 2)] := by decide

end WatcherSample

end RallyPoint.ChannelWatcher
