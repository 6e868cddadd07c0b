/-
# RallyPoint.LeadSeat — how the lead seat moves, and how stable a freeze is.

Two gates guard the seat. A lead decision is checked against the incumbent; a retraction is checked by
deriving the seat twice, with and without its target. Both ask `projectedLead`, and the room asks the same
body over the resolved facts, so what the gates guard is what the room shows (`projectedLead_eq`), and a
single accepted write moves the seat through one of three arms only (`lead_moves_by_allowed_arm`).

A freeze is judged differently: the author of an unscoped blocker is compared with the seat AS OF the
blocker, re-derived at every read from what is left of the ledger. The retraction gate looks at the
current seat, so it lets anybody withdraw a superseded lead decision, and with it the verdict on every
blocker written under it. `isLeadFreeze_append_iff` says exactly which writes keep the verdict.
-/
import RallyPoint.Append

namespace RallyPoint

open Lib

/-! ## The seat -/

theorem projectedLeadWithRetraction_eq (F : List Fact) (also : Option String) :
    projectedLeadWithRetraction F also = leadOf (dropIds also.toList (resolvedFacts F)) := by
  rw [projectedLeadWithRetraction, resolvedFacts_eq, dropIds_dropIds]

/-- The seat the gates consult is the seat of the resolved facts. -/
theorem projectedLead_eq (F : List Fact) : projectedLead F = leadOf (resolvedFacts F) := by
  rw [projectedLead, projectedLeadWithRetraction_eq]
  simp [dropIds]

/-- A fact that is no lead decision adds nothing to the seat. -/
theorem leadOf_append_of_not_lead {X : List Fact} {f : Fact} (ids : List String)
    (h : isLeadDecision f = false) : leadOf (X ++ dropIds ids [f]) = leadOf X := by
  have hnone : (dropIds ids [f]).filter isLeadDecision = [] := by
    rw [List.filter_eq_nil_iff]
    intro x hx
    rw [mem_dropIds, List.mem_singleton] at hx
    simp [hx.1, h]
  rw [leadOf, latestLeadDecision, List.filter_append, hnone, List.append_nil]
  rfl

/-- The seat after a write that is no lead decision is the seat without what the write withdraws. -/
theorem projectedLead_append_of_not_lead {F : List Fact} {f : Fact} (h : isLeadDecision f = false) :
    projectedLead (F ++ [f]) = projectedLeadWithRetraction F (targetOf f) := by
  rw [projectedLead_eq, resolvedFacts_append_singleton, leadOf_append_of_not_lead _ h,
    projectedLeadWithRetraction_eq]

/-- **The seat moves by an allowed arm only.** If `L` holds the seat and an accepted write of any kind
leaves it elsewhere, the writer is `L`, or `L` is stale, or the write carries the seizure marker; and the
lead the room shows is always the lead the gates consult. -/
theorem lead_moves_by_allowed_arm {ext : Externals} {coord : CoordinationConfig} {now : Int}
    {F : List Fact} {f : Fact} {L : String} (hlead : projectedLead F = some L)
    (hok : assertWriteAuthorized ext (snapshotFromFactsWithPolicy ext F coord false now) coord now f F =
      .ok ()) :
    (projectedLead (F ++ [f]) ≠ some L →
      f.tool = some L ∨
        leadIsStale ext (snapshotFromFactsWithPolicy ext F coord false now) coord now L = true ∨
        ∃ item ∈ f.evidence, trim item = leadForceMarker) ∧
      ∀ (G : List Fact) (includeArchived : Bool) (now' : Int),
        (snapshotFromFactsWithPolicy ext G coord includeArchived now').lead = projectedLead G := by
  refine ⟨fun hmoved => ?_, fun G _ _ => (projectedLead_eq G).symm⟩
  obtain ⟨-, -, -, -, -, -, hretract, htransfer⟩ := assertWriteAuthorized_ok_iff.mp hok
  have hallowed : leadSeatChangeAllowed ext (snapshotFromFactsWithPolicy ext F coord false now) coord now
      f L = true := by
    cases hdecision : isLeadDecision f with
    | true =>
      -- a lead decision is gated as a transfer, whatever it withdraws besides
      simp only [assertLeadTransferAuthorized, hdecision, Bool.not_true, Bool.false_eq_true, if_false,
        hlead] at htransfer
      by_contra hnot
      simp [hnot] at htransfer
    | false =>
      -- any other write moves the seat by what it withdraws, and the gate derived that same seat
      rw [projectedLead_append_of_not_lead hdecision] at hmoved
      cases htarget : targetOf f with
      | none => exact absurd (htarget ▸ hlead) hmoved
      | some target =>
        rw [htarget] at hmoved
        simp only [assertLeadRetractionAuthorized, htarget, hlead, beq_iff_eq, hmoved,
          if_false] at hretract
        by_contra hnot
        simp [hnot] at hretract
  simp only [leadSeatChangeAllowed] at hallowed
  by_cases htool : f.tool = some L
  · exact .inl htool
  · by_cases hstale : leadIsStale ext (snapshotFromFactsWithPolicy ext F coord false now) coord now L = true
    · exact .inr (.inl hstale)
    · simp only [beq_iff_eq, htool, if_false, hstale, Bool.false_eq_true, List.any_eq_true] at hallowed
      exact .inr (.inr hallowed)

/-- Alice takes the empty seat. -/
def aliceLeads : Fact :=
  { eventId := "d1", seq := 1, kind := .decision, tool := some "alice", target := some "alice"
    subject := "role:lead", createdAt := "2026-01-01T00:00:00Z" }

/-- Alice hands the seat to Bob. -/
def aliceHandsOff : Fact :=
  { eventId := "d2", seq := 3, kind := .decision, tool := some "alice", target := some "bob"
    subject := "role:lead", createdAt := "2026-01-01T00:00:00Z" }

/-- A handoff by the holder: the seat moves, and the writer is the incumbent. -/
theorem lead_moves_by_allowed_arm_handoff :
    projectedLead ([aliceLeads] ++ [aliceHandsOff]) = some "bob" ∧
      (aliceHandsOff.tool = some "alice" ∨
        leadIsStale .sample (AppendEnv.sample.snapshot [aliceLeads]) {} AppendEnv.sample.now "alice" =
          true ∨
        ∃ item ∈ aliceHandsOff.evidence, trim item = leadForceMarker) :=
  ⟨by decide, (lead_moves_by_allowed_arm (by decide)
    (by decide : assertWriteAuthorized .sample (AppendEnv.sample.snapshot [aliceLeads]) {}
      AppendEnv.sample.now aliceHandsOff [aliceLeads] = .ok ())).1 (by decide)⟩

/-! ## Freezes -/

/-- The lead decision in force as of a blocker. -/
def decisionInForce (F : List Fact) (b : Fact) : Option Fact :=
  latestLeadDecision ((resolvedFacts F).filter fun x => decide (x.seq ≤ b.seq))

/-- The lead decision that would be in force as of a blocker were `id` withdrawn. -/
def fallbackDecision (F : List Fact) (b : Fact) (id : String) : Option Fact :=
  latestLeadDecision ((dropIds [id] (resolvedFacts F)).filter fun x => decide (x.seq ≤ b.seq))

/-- Whether a lead decision seats the author of a blocker. -/
def seatsAuthor (decision : Option Fact) (b : Fact) : Bool :=
  b.tool.isSome && b.tool == decision.bind seatAfter

section Freeze

variable {F : List Fact} {f b : Fact}

theorem isLeadFreeze_eq : isLeadFreeze (resolvedFacts F) b = seatsAuthor (decisionInForce F b) b := rfl

/-- A later write touches the seat as of `b` only by what it withdraws. -/
theorem isLeadFreeze_append (hseq : b.seq < f.seq) :
    isLeadFreeze (resolvedFacts (F ++ [f])) b =
      seatsAuthor (latestLeadDecision ((dropIds (targetOf f).toList (resolvedFacts F)).filter
        fun x => decide (x.seq ≤ b.seq))) b := by
  have hlater : (dropIds (retractedIds (F ++ [f])) [f]).filter (fun x => decide (x.seq ≤ b.seq)) = [] := by
    rw [List.filter_eq_nil_iff]
    intro x hx
    rw [mem_dropIds, List.mem_singleton] at hx
    simp only [hx.1, decide_eq_true_eq]
    omega
  rw [isLeadFreeze, leadAsOf, resolvedFacts_append_singleton, List.filter_append, hlater,
    List.append_nil]
  rfl

/-- Withdrawing anything but the decision in force leaves it in force. -/
theorem decisionInForce_dropIds (F : List Fact) (b : Fact) (ids : List String)
    (h : ∀ d, decisionInForce F b = some d → d.eventId ∉ ids) :
    latestLeadDecision ((dropIds ids (resolvedFacts F)).filter fun x => decide (x.seq ≤ b.seq)) =
      decisionInForce F b := by
  have hcomm : (((dropIds ids (resolvedFacts F)).filter fun x => decide (x.seq ≤ b.seq)).filter
      isLeadDecision) = ((((resolvedFacts F).filter fun x => decide (x.seq ≤ b.seq)).filter
        isLeadDecision).filter fun x => !ids.contains x.eventId) := by
    simp only [dropIds, List.filter_filter]
    refine List.filter_congr fun x _ => ?_
    cases isLeadDecision x <;> cases decide (x.seq ≤ b.seq) <;> simp
  cases hd : decisionInForce F b with
  | none =>
    have hnil := maxByKey_eq_none_iff.mp hd
    rw [latestLeadDecision, hcomm, hnil]
    rfl
  | some d =>
    rw [latestLeadDecision, hcomm]
    exact maxByKey_filter hd (by simpa using h d hd)

/-- **When a freeze verdict is stable.** A write after `b` keeps the verdict on `b` exactly when it does
not withdraw the lead decision in force as of `b`, or the decision it falls back to seats the author of
`b` just as well or just as little. -/
theorem isLeadFreeze_append_iff (hseq : b.seq < f.seq) :
    isLeadFreeze (resolvedFacts (F ++ [f])) b = isLeadFreeze (resolvedFacts F) b ↔
      ∀ d, decisionInForce F b = some d → targetOf f = some d.eventId →
        seatsAuthor (fallbackDecision F b d.eventId) b = seatsAuthor (some d) b := by
  rw [isLeadFreeze_append hseq, isLeadFreeze_eq]
  by_cases hwithdraws : ∃ d, decisionInForce F b = some d ∧ targetOf f = some d.eventId
  · obtain ⟨d, hd, htarget⟩ := hwithdraws
    rw [htarget, hd]
    constructor
    · rintro h d' hd' -
      obtain rfl := Option.some.inj hd'
      exact h
    · intro h
      exact h d rfl rfl
  · have hkept := decisionInForce_dropIds F b (targetOf f).toList fun d hd hmem =>
      hwithdraws ⟨d, hd, by simpa [eq_comm] using hmem⟩
    rw [hkept]
    exact iff_of_true rfl fun d hd htarget => absurd ⟨d, hd, htarget⟩ hwithdraws

end Freeze

/-- The lead freezes the room. -/
def aliceFreeze : Fact :=
  { eventId := "b1", seq := 2, kind := .blocker, tool := some "alice", subject := "hold all writes"
    createdAt := "2026-01-01T00:00:00Z" }

def withdrawal (target : String) : Fact :=
  { eventId := "x1", seq := 4, kind := .artifact, tool := some "carol", subject := "retract: " ++ target
    refId := some target, createdAt := "2026-01-01T00:00:00Z" }

/-- Withdrawing the decision that came after the freeze leaves the verdict alone. -/
theorem isLeadFreeze_append_iff_later_decision :
    isLeadFreeze (resolvedFacts ([aliceLeads, aliceFreeze, aliceHandsOff] ++ [withdrawal "d2"]))
        aliceFreeze =
      isLeadFreeze (resolvedFacts [aliceLeads, aliceFreeze, aliceHandsOff]) aliceFreeze := by
  refine (isLeadFreeze_append_iff (by decide)).mpr fun d hd htarget => ?_
  obtain rfl : d = aliceLeads := by
    have hforce : decisionInForce [aliceLeads, aliceFreeze, aliceHandsOff] aliceFreeze =
        some aliceLeads := by decide
    exact Option.some.inj (hd.symm.trans hforce)
  exact absurd htarget (by decide)

/-- Anybody may withdraw a superseded lead decision, and that disarms the freeze declared under it. -/
theorem freeze_disarmed_by_withdrawal :
    assertWriteAuthorized .sample
        (AppendEnv.sample.snapshot [aliceLeads, aliceFreeze, aliceHandsOff]) {} AppendEnv.sample.now
        (withdrawal "d1") [aliceLeads, aliceFreeze, aliceHandsOff] = .ok () ∧
      (withdrawal "d1").kind = .artifact ∧ targetOf (withdrawal "d1") ≠ some aliceFreeze.eventId ∧
      isLeadFreeze (resolvedFacts [aliceLeads, aliceFreeze, aliceHandsOff]) aliceFreeze = true ∧
      isLeadFreeze (resolvedFacts ([aliceLeads, aliceFreeze, aliceHandsOff] ++ [withdrawal "d1"]))
        aliceFreeze = false ∧
      (AppendEnv.sample.snapshot [aliceLeads, aliceFreeze, aliceHandsOff]).roomFreezeId = some "b1" ∧
      (AppendEnv.sample.snapshot
        ([aliceLeads, aliceFreeze, aliceHandsOff] ++ [withdrawal "d1"])).roomFreezeId = none := by
  decide

end RallyPoint
