/-
# RallyPoint.ReapReport — what the report of a pass says (`reaper.rs`).

A pass reports what it closed, counts what it kept, what it left for another pass and what failed, and calls itself
complete. Whatever others write meanwhile, and whichever answers are lost, the counts cover every item once
(`report_accounts`): what is reported closed has its row in the ledger, and a complete pass has left nothing that
was over.
-/
import RallyPoint.Reaper

namespace RallyPoint.Reaper

open Lib

/-! ## What one item does -/

section Items

/-- An answered append leaves a row of that id in the ledger. -/
theorem exists_row_of_append {env : AppendEnv} {facts : List Fact} {fact : Fact} {outcome : AppendOutcome}
    (hkind : fact.kind ≠ .handoff) (h : appendFactUnderLock env facts fact = .ok outcome) :
    ∃ x ∈ outcome.ledger facts, x.eventId = fact.eventId := by
  cases outcome with
  | committed f =>
    obtain ⟨-, -, -, -, -, -, rfl⟩ := appendFactUnderLock_committed_iff.mp h
    exact ⟨_, List.mem_append_right _ (List.mem_singleton_self _), rfl⟩
  | recorded existing =>
    unfold appendFactUnderLock at h
    obtain ⟨_, -, h⟩ := bind_ok_iff.mp h
    obtain ⟨_, -, h⟩ := bind_ok_iff.mp h
    obtain ⟨found, hfound, h⟩ := bind_ok_iff.mp h
    cases found with
    | none =>
      -- only a handoff is answered from a row of another id
      obtain ⟨handoff, hhandoff, h⟩ := bind_ok_iff.mp h
      obtain rfl : none = handoff := by simpa [resolveHandoff, hkind] using hhandoff
      obtain ⟨_, -, h⟩ := bind_ok_iff.mp h
      obtain ⟨_, -, h⟩ := bind_ok_iff.mp h
      simp at h
    | some row =>
      obtain rfl : row = existing := by simpa using h
      unfold resolveCanonicalEventId at hfound
      split at hfound
      · simp at hfound
      · rename_i x hfilter
        split at hfound
        · obtain rfl : x = row := by simpa using hfound
          have hmem : x ∈ facts.filter fun entry => entry.eventId == fact.eventId := by simp [hfilter]
          exact ⟨x, (List.mem_filter.mp hmem).1, beq_iff_eq.mp (List.mem_filter.mp hmem).2⟩
        · simp at hfound
      · simp at hfound

/-- The ledger and the rows after at most one write. -/
structure Grown (pass : ReapPass) (ledger rows : List Fact) : Prop where
  ledger : ∀ x ∈ pass.ledger, x ∈ ledger
  rows : rows.length ≤ pass.rows.length + 1

/-- What one item does to a pass: it is kept, left, reported done, counted as a failure, or refused for its age. -/
inductive Acted (env : ReapEnv) (apply : Bool) (mode : ReapMode) (decided refused : Prop) (id : String)
    (report : ReapPass → ReapPass) (pass : ReapPass) : ReapPass → Prop
  | kept (h : ¬decided) : Acted env apply mode decided refused id report pass
      { pass with preserved := pass.preserved + 1 }
  | left (h : decided) : Acted env apply mode decided refused id report pass
      { pass with remaining := pass.remaining + 1 }
  | done (h : decided) (hnow : leftForLater env mode pass.attemptedActions = false) (ledger rows : List Fact)
      (hgrown : Grown pass ledger rows) (hrow : apply = true → ∃ x ∈ ledger, x.eventId = id) :
      Acted env apply mode decided refused id report pass
        (report { pass with ledger := ledger, rows := rows, attemptedActions := pass.attemptedActions + 1 })
  | failed (h : decided) (hnow : leftForLater env mode pass.attemptedActions = false) (ledger rows : List Fact)
      (hgrown : Grown pass ledger rows) : Acted env apply mode decided refused id report pass
      { pass with
        ledger := ledger, rows := rows
        attemptedActions := pass.attemptedActions + 1, writeFailures := pass.writeFailures + 1 }
  | refused (h : decided) (hnow : leftForLater env mode pass.attemptedActions = false) (ledger rows : List Fact)
      (hgrown : Grown pass ledger rows) (hrefused : refused) : Acted env apply mode decided refused id report pass
      { pass with
        ledger := ledger, rows := rows
        attemptedActions := pass.attemptedActions + 1, preserved := pass.preserved + 1 }

variable {env : ReapEnv} {apply : Bool} {mode : ReapMode} {room : RoomSnapshot}

theorem appendRow_cases {pass written : ReapPass} {row : String → Fact} {disposition : ReaperAppendDisposition}
    (hkind : ∀ createdAt, (row createdAt).kind ≠ .handoff)
    (h : appendRow env pass row = (written, disposition)) :
    ∃ ledger rows, written = { pass with ledger := ledger, rows := rows } ∧ Grown pass ledger rows ∧
      (disposition = .committed →
        ∃ x ∈ ledger, x.eventId = (row (env.createdAt pass.attemptedActions)).eventId) ∧
      ∀ e, disposition = .refused e → ∃ k facts,
        appendFactUnderLock (env.boundary k) facts (row (env.createdAt k)) = .error e := by
  have hgrown : Grown pass (pass.ledger ++ env.meanwhile pass.attemptedActions pass.ledger) pass.rows :=
    ⟨fun x hx => List.mem_append_left _ hx, by omega⟩
  unfold appendRow at h
  dsimp only at h
  cases happend : appendFactUnderLock (env.boundary pass.attemptedActions)
      (pass.ledger ++ env.meanwhile pass.attemptedActions pass.ledger)
      (row (env.createdAt pass.attemptedActions)) with
  | error e =>
    rw [happend] at h
    obtain ⟨rfl, rfl⟩ := Prod.mk.inj h
    refine ⟨_, _, rfl, hgrown, ?_, ?_⟩
    · intro hcommitted
      cases hcommitted
    · rintro e' ⟨⟩
      exact ⟨_, _, happend⟩
  | ok outcome =>
    have hlanded : Grown pass (outcome.ledger (pass.ledger ++ env.meanwhile pass.attemptedActions pass.ledger))
        (pass.rows ++ committedRows outcome) := by
      cases outcome with
      | recorded _ => exact ⟨hgrown.ledger, by rw [committedRows, List.append_nil]; omega⟩
      | committed f =>
        refine ⟨fun x hx => List.mem_append_left _ (hgrown.ledger x hx), ?_⟩
        rw [committedRows, List.length_append]
        rfl
    rw [happend] at h
    cases hlost : env.outcomeUnknown pass.attemptedActions with
    | none =>
      rw [hlost] at h
      obtain ⟨rfl, rfl⟩ := Prod.mk.inj h
      refine ⟨_, _, rfl, hlanded, fun _ => exists_row_of_append (hkind _) happend, ?_⟩
      intro e hrefused
      cases hrefused
    | some landed =>
      rw [hlost] at h
      cases landed with
      | true =>
        obtain ⟨rfl, rfl⟩ := Prod.mk.inj h
        refine ⟨_, _, rfl, hlanded, fun hd => ?_, fun _ hd => ?_⟩ <;> cases hd
      | false =>
        obtain ⟨rfl, rfl⟩ := Prod.mk.inj h
        refine ⟨_, _, rfl, hgrown, fun hd => ?_, fun _ hd => ?_⟩ <;> cases hd

/-- An attempted write that is reported done when it is answered and counts as a failure otherwise. -/
theorem Acted.of_append {decided refused : Prop} {id : String} {report : ReapPass → ReapPass} {pass : ReapPass}
    {row : String → Fact} (hdecided : decided) (hnow : leftForLater env mode pass.attemptedActions = false)
    (hkind : ∀ createdAt, (row createdAt).kind ≠ .handoff) (hid : ∀ createdAt, (row createdAt).eventId = id) :
    Acted env apply mode decided refused id report pass
      (match appendRow env { pass with attemptedActions := pass.attemptedActions + 1 } row with
        | (written, .committed) => report written
        | (written, _) => { written with writeFailures := written.writeFailures + 1 }) := by
  cases happend : appendRow env { pass with attemptedActions := pass.attemptedActions + 1 } row with
  | mk written disposition =>
    obtain ⟨ledger, rows, rfl, hgrown, hrow, -⟩ := appendRow_cases hkind happend
    have hgrown : Grown pass ledger rows := ⟨hgrown.ledger, hgrown.rows⟩
    cases disposition with
    | committed =>
      refine Acted.done hdecided hnow ledger rows hgrown fun _ => ?_
      rw [← hid]
      exact hrow rfl
    | outcomeUnknown => exact Acted.failed hdecided hnow ledger rows hgrown
    | refused e => exact Acted.failed hdecided hnow ledger rows hgrown

/-- The boundary refused the closing row of a claim for its age rule. -/
def RefusedForAge (env : ReapEnv) (mode : ReapMode) (room : RoomSnapshot) (claim : Fact) : Prop :=
  (reapVerdict env room mode claim).reason = "no-lease-over-age" ∧ ∃ k facts e,
    appendFactUnderLock (env.boundary k) facts
        (claimExpiredFact env mode (reapVerdict env room mode claim) claim (env.createdAt k)) = .error e ∧
      containsStr "reap refused:" e.text = true

/-- What a pass may do to a claim it meets. -/
def ClaimOver (env : ReapEnv) (mode : ReapMode) (room : RoomSnapshot) (claim : Fact) : Prop :=
  (reapVerdict env room mode claim).eligible mode = true ∧
    observedVerdict (reapVerdict env room mode claim).observed ≠ .live

def reportClaim (env : ReapEnv) (mode : ReapMode) (room : RoomSnapshot) (claim : Fact) (pass : ReapPass) : ReapPass :=
  { pass with
    claimsReaped := pass.claimsReaped ++ [reapedClaim env mode (reapVerdict env room mode claim) claim] }

def reportHandoff (ageSecs : Int) (handoff : Fact) (pass : ReapPass) : ReapPass :=
  { pass with handoffsExpired := pass.handoffsExpired ++ [reapedHandoff ageSecs handoff] }

theorem reapClaim_acted (pass : ReapPass) (claim : Fact) :
    Acted env apply mode (ClaimOver env mode room claim) (RefusedForAge env mode room claim)
      (stableReaperEventId "claim-expired" claim.eventId) (reportClaim env mode room claim) pass
      (reapClaim env apply mode room pass claim) := by
  unfold reapClaim
  dsimp only
  split
  · rename_i hkept
    refine Acted.kept fun hover => ?_
    simp only [Bool.or_eq_true, beq_iff_eq, Bool.not_eq_true'] at hkept
    rcases hkept with hlive | hineligible
    · exact hover.2 hlive
    · exact Bool.false_ne_true (hineligible.symm.trans hover.1)
  · rename_i hdecided
    simp only [Bool.or_eq_true, beq_iff_eq, Bool.not_eq_true', not_or, Bool.not_eq_false] at hdecided
    have hover : ClaimOver env mode room claim := ⟨hdecided.2, hdecided.1⟩
    split
    · exact Acted.left hover
    · rename_i hnow
      have hnow := Bool.of_not_eq_true hnow
      cases apply with
      | false => exact Acted.done hover hnow pass.ledger pass.rows ⟨fun _ hx => hx, Nat.le_succ _⟩ nofun
      | true =>
        rw [if_pos rfl, writeClaimExpired]
        cases happend : appendRow env { pass with attemptedActions := pass.attemptedActions + 1 }
            (claimExpiredFact env mode (reapVerdict env room mode claim) claim) with
        | mk written disposition =>
          obtain ⟨ledger, rows, rfl, hgrown, hrow, hrefused⟩ :=
            appendRow_cases (fun _ => by simp [claimExpiredFact]) happend
          have hgrown : Grown pass ledger rows := ⟨hgrown.ledger, hgrown.rows⟩
          cases disposition with
          | committed => exact Acted.done hover hnow ledger rows hgrown fun _ => hrow rfl
          | outcomeUnknown => exact Acted.failed hover hnow ledger rows hgrown
          | refused e =>
            dsimp only
            split
            · rename_i hage
              obtain ⟨k, facts, hrefuse⟩ := hrefused e rfl
              exact Acted.refused hover hnow ledger rows hgrown ⟨hage.1, k, facts, e, hrefuse, hage.2⟩
            · exact Acted.failed hover hnow ledger rows hgrown

theorem reapHandoff_acted (pass : ReapPass) (handoff : Fact) :
    Acted env apply mode ((expiredHandoffAge env handoff).isSome = true) False
      (stableReaperEventId "handoff-expired" handoff.eventId)
      (reportHandoff ((expiredHandoffAge env handoff).getD 0) handoff) pass
      (reapHandoff env apply mode pass handoff) := by
  unfold reapHandoff
  cases hage : expiredHandoffAge env handoff with
  | none => exact Acted.kept (by simp)
  | some ageSecs =>
    dsimp only [Option.getD_some]
    split
    · exact Acted.left rfl
    · rename_i hnow
      have hnow := Bool.of_not_eq_true hnow
      cases apply with
      | false => exact Acted.done rfl hnow pass.ledger pass.rows ⟨fun _ hx => hx, Nat.le_succ _⟩ nofun
      | true =>
        rw [if_pos rfl]
        exact Acted.of_append rfl hnow (fun _ => by simp [handoffExpiredFact]) fun _ => rfl

theorem relinquishLead_acted (pass : ReapPass) {lead : String} (hlead : staleLead env room = some lead) :
    Acted env apply mode True False
      (stableReaperEventId "lead-relinquished" (lead ++ ":" ++ toString (room.leadEpoch.getD 0)))
      (fun pass => { pass with leadRelinquished := some lead }) pass
      (relinquishLead env apply mode room pass) := by
  unfold relinquishLead
  rw [hlead]
  dsimp only
  split
  · exact Acted.left trivial
  · rename_i hnow
    have hnow := Bool.of_not_eq_true hnow
    cases apply with
    | false => exact Acted.done trivial hnow pass.ledger pass.rows ⟨fun _ hx => hx, Nat.le_succ _⟩ nofun
    | true =>
      rw [if_pos rfl]
      exact Acted.of_append trivial hnow (fun _ => by simp [leadRelinquishFact]) fun _ => rfl

/-- A list the report does not touch. -/
theorem Acted.keeps {decided refused : Prop} {id : String} {report : ReapPass → ReapPass} {pass pass' : ReapPass}
    (hact : Acted env apply mode decided refused id report pass pass') {α : Type} {field : ReapPass → α}
    (hsame : ∀ p : ReapPass, p.claimsReaped = pass.claimsReaped → p.handoffsExpired = pass.handoffsExpired →
      p.leadRelinquished = pass.leadRelinquished → field p = field pass)
    (hreport : ∀ p, field (report p) = field p) : field pass' = field pass := by
  rcases hact with _ | _ | _ | _ | _
  · exact hsame _ rfl rfl rfl
  · exact hsame _ rfl rfl rfl
  · rw [hreport]
    exact hsame _ rfl rfl rfl
  · exact hsame _ rfl rfl rfl
  · exact hsame _ rfl rfl rfl

end Items

/-! ## The counts -/

/-- Everything a report lists or counts. -/
def ReapPass.accounted (pass : ReapPass) : Nat :=
  pass.claimsReaped.length + pass.handoffsExpired.length + pass.leadRelinquished.toList.length + pass.preserved +
    pass.remaining + pass.writeFailures

structure Counted (mode : ReapMode) (n : Nat) (pass : ReapPass) : Prop where
  accounted : pass.accounted = n
  rows : pass.rows.length ≤ pass.attemptedActions
  capped : mode = .leaseOnly → pass.attemptedActions ≤ autoReapMaxFacts

/-- A report of one more item, and of nothing else. -/
structure ReportsOne (report : ReapPass → ReapPass) (pass : ReapPass) : Prop where
  accounted : (report pass).accounted = pass.accounted + 1
  ledger : (report pass).ledger = pass.ledger
  rows : (report pass).rows = pass.rows
  attemptedActions : (report pass).attemptedActions = pass.attemptedActions
  remaining : (report pass).remaining = pass.remaining
  writeFailures : (report pass).writeFailures = pass.writeFailures

section Steps

variable {env : ReapEnv} {apply : Bool} {mode : ReapMode} {decided refused : Prop} {id : String}
  {report : ReapPass → ReapPass} {pass pass' : ReapPass}
  (hact : Acted env apply mode decided refused id report pass pass')
  (hreport : ∀ p : ReapPass, p.leadRelinquished = pass.leadRelinquished → ReportsOne report p)
include hact hreport

/-- Each item is counted once, and an automatic pass stays within its cap. -/
theorem Counted.acted {n : Nat} (h : Counted mode n pass) : Counted mode (n + 1) pass' := by
  have hcap : leftForLater env mode pass.attemptedActions = false → mode = .leaseOnly →
      pass.attemptedActions + 1 ≤ autoReapMaxFacts := by
    intro hnow hmode
    simp only [leftForLater, autoCandidateLimitReached, hmode, Bool.or_eq_false_iff, beq_self_eq_true, Bool.true_and,
      decide_eq_false_iff_not] at hnow
    omega
  have hcount := h.accounted
  have hrows := h.rows
  unfold ReapPass.accounted at hcount
  rcases hact with _ | _ | ⟨_, hnow, ledger, rows, hgrown, _⟩ | ⟨_, hnow, ledger, rows, hgrown⟩ |
    ⟨_, hnow, ledger, rows, hgrown, _⟩
  · exact ⟨by simp only [ReapPass.accounted]; omega, hrows, h.capped⟩
  · exact ⟨by simp only [ReapPass.accounted]; omega, hrows, h.capped⟩
  · have hone := hreport
      { pass with ledger := ledger, rows := rows, attemptedActions := pass.attemptedActions + 1 } rfl
    refine ⟨?_, ?_, ?_⟩
    · rw [hone.accounted, ← h.accounted]
      rfl
    · rw [hone.rows, hone.attemptedActions]
      exact hgrown.rows.trans (Nat.succ_le_succ hrows)
    · rw [hone.attemptedActions]
      exact hcap hnow
  · exact ⟨by simp only [ReapPass.accounted]; omega, hgrown.rows.trans (Nat.succ_le_succ hrows), hcap hnow⟩
  · exact ⟨by simp only [ReapPass.accounted]; omega, hgrown.rows.trans (Nat.succ_le_succ hrows), hcap hnow⟩

/-- An item adds to the ledger, and takes back no count of what was left or failed. -/
theorem Acted.grows : (∀ x ∈ pass.ledger, x ∈ pass'.ledger) ∧ pass.remaining ≤ pass'.remaining ∧
    pass.writeFailures ≤ pass'.writeFailures := by
  rcases hact with _ | _ | ⟨_, hnow, ledger, rows, hgrown, _⟩ | ⟨_, hnow, ledger, rows, hgrown⟩ |
    ⟨_, hnow, ledger, rows, hgrown, _⟩
  · exact ⟨fun _ hx => hx, le_refl _, le_refl _⟩
  · exact ⟨fun _ hx => hx, Nat.le_succ _, le_refl _⟩
  · have hone := hreport
      { pass with ledger := ledger, rows := rows, attemptedActions := pass.attemptedActions + 1 } rfl
    rw [hone.ledger, hone.remaining, hone.writeFailures]
    exact ⟨hgrown.ledger, le_refl _, le_refl _⟩
  · exact ⟨hgrown.ledger, le_refl _, Nat.le_succ _⟩
  · exact ⟨hgrown.ledger, le_refl _, le_refl _⟩

end Steps

/-! ## What is listed, and what a complete pass has done -/

/-- One list of a report against the items it is about: an entry stands for an item that was over, whose row is in
the ledger if rows were to be written, and with nothing left and nothing failed no item that was over is missing. -/
structure Told {ι ρ : Type} (past refused : ι → Prop) (entry : ι → ρ) (id : ι → String) (apply : Bool)
    (items : List ι) (reported : List ρ) (pass : ReapPass) : Prop where
  told : ∀ r ∈ reported, ∃ i ∈ items, past i ∧ r = entry i ∧
    (apply = true → ∃ x ∈ pass.ledger, x.eventId = id i)
  done : pass.remaining = 0 → pass.writeFailures = 0 → ∀ i ∈ items, past i → entry i ∈ reported ∨ refused i

namespace Told

variable {ι ρ : Type} {past refused : ι → Prop} {entry : ι → ρ} {id : ι → String} {apply : Bool} {items : List ι}
  {reported : List ρ} {pass pass' : ReapPass}

/-- An item of another list leaves a list as it was. -/
theorem other (h : Told past refused entry id apply items reported pass)
    (hgrows : (∀ x ∈ pass.ledger, x ∈ pass'.ledger) ∧ pass.remaining ≤ pass'.remaining ∧
      pass.writeFailures ≤ pass'.writeFailures) :
    Told past refused entry id apply items reported pass' where
  told r hr := by
    obtain ⟨i, hi, hover, hentry, hrow⟩ := h.told r hr
    refine ⟨i, hi, hover, hentry, fun happly => ?_⟩
    obtain ⟨x, hx, hid⟩ := hrow happly
    exact ⟨x, hgrows.1 x hx, hid⟩
  done hremaining hfailures := by
    have := hgrows.2
    exact h.done (by omega) (by omega)

/-- One more item of the list. -/
theorem acted {env : ReapEnv} {mode : ReapMode} {report : ReapPass → ReapPass} {i : ι}
    (h : Told past refused entry id apply items reported pass)
    (hact : Acted env apply mode (past i) (refused i) (id i) report pass pass')
    (hreport : ∀ p : ReapPass, p.leadRelinquished = pass.leadRelinquished → ReportsOne report p)
    (field : ReapPass → List ρ)
    (hsame : ∀ p : ReapPass, p.claimsReaped = pass.claimsReaped → p.handoffsExpired = pass.handoffsExpired →
      p.leadRelinquished = pass.leadRelinquished → field p = reported)
    (hfield : ∀ p : ReapPass, p.leadRelinquished = pass.leadRelinquished → field (report p) = field p ++ [entry i]) :
    Told past refused entry id apply (items ++ [i]) (field pass') pass' := by
  have hold := h.other (hact.grows hreport)
  -- a list that did not grow: an item that was over was left, failed or was refused
  have hkept : (past i → 0 < pass'.remaining ∨ 0 < pass'.writeFailures ∨ refused i) →
      Told past refused entry id apply (items ++ [i]) reported pass' := by
    intro hlast
    refine ⟨fun r hr => ?_, fun hremaining hfailures j hj hover => ?_⟩
    · obtain ⟨j, hj, hrest⟩ := hold.told r hr
      exact ⟨j, List.mem_append_left _ hj, hrest⟩
    · rcases List.mem_append.mp hj with hj | hj
      · exact hold.done hremaining hfailures j hj hover
      · obtain rfl := List.mem_singleton.mp hj
        rcases hlast hover with hpos | hpos | hrefused
        · omega
        · omega
        · exact Or.inr hrefused
  rcases hact with hnot | _ | ⟨hover, hnow, ledger, rows, hgrown, hrow⟩ | ⟨_, hnow, ledger, rows, hgrown⟩ |
    ⟨_, hnow, ledger, rows, hgrown, hrefused⟩
  · rw [hsame]
    exacts [hkept fun hover => absurd hover hnot, rfl, rfl, rfl]
  · rw [hsame]
    exacts [hkept fun _ => Or.inl (Nat.succ_pos _), rfl, rfl, rfl]
  · have hone := hreport
      { pass with ledger := ledger, rows := rows, attemptedActions := pass.attemptedActions + 1 } rfl
    have hlonger : Told past refused entry id apply (items ++ [i]) (reported ++ [entry i])
        (report { pass with ledger := ledger, rows := rows, attemptedActions := pass.attemptedActions + 1 }) := by
      refine ⟨fun r hr => ?_, fun hremaining hfailures j hj hj' => ?_⟩
      · rcases List.mem_append.mp hr with hr | hr
        · obtain ⟨j, hj, hrest⟩ := hold.told r hr
          exact ⟨j, List.mem_append_left _ hj, hrest⟩
        · refine ⟨i, List.mem_append_right _ (List.mem_singleton_self i), hover, List.mem_singleton.mp hr, ?_⟩
          rw [hone.ledger]
          exact hrow
      · rcases List.mem_append.mp hj with hj | hj
        · rcases hold.done hremaining hfailures j hj hj' with hin | hrefused
          · exact Or.inl (List.mem_append_left _ hin)
          · exact Or.inr hrefused
        · obtain rfl := List.mem_singleton.mp hj
          exact Or.inl (List.mem_append_right _ (List.mem_singleton_self _))
    rw [hfield, hsame]
    exacts [hlonger, rfl, rfl, rfl, rfl]
  · rw [hsame]
    exacts [hkept fun _ => Or.inr (Or.inl (Nat.succ_pos _)), rfl, rfl, rfl]
  · rw [hsame]
    exacts [hkept fun _ => Or.inr (Or.inr hrefused), rfl, rfl, rfl]

end Told

/-! ## The pass -/

/-- The counts and the three lists of a pass against the items it has met. -/
structure Tally (env : ReapEnv) (apply : Bool) (mode : ReapMode) (room : RoomSnapshot) (claims handoffs : List Fact)
    (leads : List String) (pass : ReapPass) : Prop where
  counted : Counted mode (claims.length + handoffs.length + leads.length) pass
  claims : Told (ClaimOver env mode room) (RefusedForAge env mode room)
    (fun claim => reapedClaim env mode (reapVerdict env room mode claim) claim)
    (fun claim => stableReaperEventId "claim-expired" claim.eventId) apply claims pass.claimsReaped pass
  handoffs : Told (fun handoff => (expiredHandoffAge env handoff).isSome = true) (fun _ => False)
    (fun handoff => reapedHandoff ((expiredHandoffAge env handoff).getD 0) handoff)
    (fun handoff => stableReaperEventId "handoff-expired" handoff.eventId) apply handoffs pass.handoffsExpired pass
  leads : Told (fun _ => True) (fun _ => False) id
    (fun lead => stableReaperEventId "lead-relinquished" (lead ++ ":" ++ toString (room.leadEpoch.getD 0))) apply
    leads pass.leadRelinquished.toList pass

namespace Tally

variable {env : ReapEnv} {apply : Bool} {mode : ReapMode} {room : RoomSnapshot} {claims handoffs : List Fact}
  {leads : List String} {pass : ReapPass}

theorem start (F : List Fact) : Tally env apply mode room [] [] [] { ledger := F } := by
  refine ⟨⟨rfl, le_refl _, fun _ => Nat.zero_le _⟩, ?_, ?_, ?_⟩ <;>
    exact ⟨fun _ hr => absurd hr List.not_mem_nil, fun _ _ _ hi => absurd hi List.not_mem_nil⟩

theorem reapClaim (h : Tally env apply mode room claims handoffs leads pass) (claim : Fact) :
    Tally env apply mode room (claims ++ [claim]) handoffs leads (reapClaim env apply mode room pass claim) := by
  have hact := @reapClaim_acted env apply mode room pass claim
  have hreport : ∀ p : ReapPass, ReportsOne (reportClaim env mode room claim) p := by
    refine fun p => ⟨?_, rfl, rfl, rfl, rfl, rfl⟩
    simp only [ReapPass.accounted, reportClaim, List.length_append, List.length_singleton]
    omega
  have hgrows := hact.grows fun p _ => hreport p
  refine ⟨?_, ?_, ?_, ?_⟩
  · have hcounted := h.counted.acted hact fun p _ => hreport p
    rw [List.length_append, List.length_singleton, show claims.length + 1 + handoffs.length + leads.length =
      claims.length + handoffs.length + leads.length + 1 by omega]
    exact hcounted
  · exact h.claims.acted hact (fun p _ => hreport p) (·.claimsReaped) (fun p hp _ _ => hp) fun p _ => rfl
  · rw [hact.keeps (fun p _ hp _ => hp) fun p => rfl]
    exact h.handoffs.other hgrows
  · rw [hact.keeps (fun p _ _ hp => hp) fun p => rfl]
    exact h.leads.other hgrows

theorem reapHandoff (h : Tally env apply mode room claims handoffs leads pass) (handoff : Fact) :
    Tally env apply mode room claims (handoffs ++ [handoff]) leads (reapHandoff env apply mode pass handoff) := by
  have hact := @reapHandoff_acted env apply mode pass handoff
  have hreport : ∀ p : ReapPass, ReportsOne (reportHandoff ((expiredHandoffAge env handoff).getD 0) handoff) p := by
    refine fun p => ⟨?_, rfl, rfl, rfl, rfl, rfl⟩
    simp only [ReapPass.accounted, reportHandoff, List.length_append, List.length_singleton]
    omega
  have hgrows := hact.grows fun p _ => hreport p
  refine ⟨?_, ?_, ?_, ?_⟩
  · have hcounted := h.counted.acted hact fun p _ => hreport p
    rw [List.length_append, List.length_singleton, show claims.length + (handoffs.length + 1) + leads.length =
      claims.length + handoffs.length + leads.length + 1 by omega]
    exact hcounted
  · rw [hact.keeps (fun p hp _ _ => hp) fun p => rfl]
    exact h.claims.other hgrows
  · exact h.handoffs.acted hact (fun p _ => hreport p) (·.handoffsExpired) (fun p _ hp _ => hp) fun p _ => rfl
  · rw [hact.keeps (fun p _ _ hp => hp) fun p => rfl]
    exact h.leads.other hgrows

theorem relinquishLead (h : Tally env apply mode room claims handoffs [] pass) :
    Tally env apply mode room claims handoffs (staleLead env room).toList
      (relinquishLead env apply mode room pass) := by
  cases hlead : staleLead env room with
  | none =>
    unfold Reaper.relinquishLead
    rw [hlead]
    exact h
  | some lead =>
    have hact := @relinquishLead_acted env apply mode room pass lead hlead
    -- no lead has been reported yet
    have hnone : pass.leadRelinquished = none := by
      refine Option.eq_none_iff_forall_not_mem.mpr fun other hother => ?_
      obtain ⟨i, hi, -⟩ := h.leads.told other (Option.mem_toList.mpr hother)
      exact List.not_mem_nil hi
    have hreport : ∀ p : ReapPass, p.leadRelinquished = pass.leadRelinquished →
        ReportsOne (fun pass => { pass with leadRelinquished := some lead }) p := by
      intro p hp
      refine ⟨?_, rfl, rfl, rfl, rfl, rfl⟩
      simp only [ReapPass.accounted, hp, hnone, Option.toList_none, Option.toList_some, List.length_nil,
        List.length_singleton]
      omega
    have hgrows := hact.grows hreport
    refine ⟨?_, ?_, ?_, ?_⟩
    · exact h.counted.acted hact hreport
    · rw [hact.keeps (fun p hp _ _ => hp) fun p => rfl]
      exact h.claims.other hgrows
    · rw [hact.keeps (fun p _ hp _ => hp) fun p => rfl]
      exact h.handoffs.other hgrows
    · refine h.leads.acted hact hreport (·.leadRelinquished.toList) (fun p _ _ hp => by rw [hp]) fun p hp => ?_
      rw [hp, hnone]
      rfl

theorem foldl_reapClaim (F claims : List Fact) :
    Tally env apply mode room claims [] [] (claims.foldl (Reaper.reapClaim env apply mode room) { ledger := F }) := by
  induction claims using List.reverseRecOn with
  | nil => exact start F
  | append_singleton claims claim ih =>
    rw [List.foldl_append]
    exact ih.reapClaim claim

theorem foldl_reapHandoff (h : Tally env apply mode room claims [] [] pass) (handoffs : List Fact) :
    Tally env apply mode room claims handoffs [] (handoffs.foldl (Reaper.reapHandoff env apply mode) pass) := by
  induction handoffs using List.reverseRecOn with
  | nil => exact h
  | append_singleton handoffs handoff ih =>
    rw [List.foldl_append]
    exact ih.reapHandoff handoff

end Tally

/-- The handoffs a pass looks at. -/
def handoffsMet (env : ReapEnv) (mode : ReapMode) (room : RoomSnapshot) : List Fact :=
  if mode = .full ∧ 0 < env.handoffExpirySecs then room.openHandoffs else []

/-- The leads a pass looks at. -/
def leadsMet (env : ReapEnv) (mode : ReapMode) (room : RoomSnapshot) : List String :=
  if mode = .full then (staleLead env room).toList else []

theorem tally_reapPass (env : ReapEnv) (apply : Bool) (mode : ReapMode) (F : List Fact) :
    Tally env apply mode (env.append.snapshot F) (env.append.snapshot F).activeClaims
      (handoffsMet env mode (env.append.snapshot F)) (leadsMet env mode (env.append.snapshot F))
      (reapPass env apply mode F) := by
  have hclaims := @Tally.foldl_reapClaim env apply mode (env.append.snapshot F) F
    (env.append.snapshot F).activeClaims
  unfold reapPass handoffsMet leadsMet
  dsimp only
  cases mode with
  | leaseOnly => exact hclaims
  | full =>
    simp only [true_and, if_true]
    by_cases hlifetime : 0 < env.handoffExpirySecs
    · rw [if_pos hlifetime, if_pos hlifetime]
      exact (hclaims.foldl_reapHandoff _).relinquishLead
    · rw [if_neg hlifetime, if_neg hlifetime]
      exact hclaims.relinquishLead

end RallyPoint.Reaper
