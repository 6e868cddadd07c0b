/-
# RallyPoint.ObligationGate — who can make an open obligation disappear.

The projection closes an obligation by the receiver's own answer and by nothing else, except that a withdrawn
fact is in no bucket at all. The rule on who may withdraw an obligation is enforced by the `retract` command;
the append boundary, which a daemon client reaches without that command, gates retractions of claims,
renewals and the seat only. So an obligation leaves the room by its answer or by a retraction, whoever
writes it, and `erasuresJustified_iff` says when every one of those is one the design allows.
-/
import RallyPoint.Append

namespace RallyPoint

open Lib

/-- An answer to `o` by the agent that owes it: an answering kind or typed response with `ref` on `o`,
later than `o`, by its target, not written by the system, from the session `o` strictly names if any. -/
structure AnswersAsReceiver (f o : Fact) : Prop where
  answering : isAnswerKind f = true
  later : o.seq < f.seq
  refersTo : f.refId = some o.eventId
  byTarget : f.tool = o.target
  notSystem : isSystemAuthored f = false
  fromSession : ∀ session, strictHandoffTargetSession o = some session → f.fromSessionId = some session

theorem answersAsReceiver_iff {f o : Fact} :
    AnswersAsReceiver f o ↔ receiverAckClosesObligation o f = true := by
  rw [receiverAckClosesObligation_iff]
  exact ⟨fun h => ⟨h.1, h.2, h.3, h.4, h.5, h.6⟩, fun h => ⟨h.1, h.2.1, h.2.2.1, h.2.2.2.1, h.2.2.2.2.1,
    h.2.2.2.2.2⟩⟩

/-- The two agents an obligation names. -/
def isAuthorOrAddressee (f o : Fact) : Bool := f.tool.isSome && (f.tool == o.tool || f.tool == o.target)

/-- Why `f` may make obligation `o` disappear. -/
inductive ErasureJustified (f o : Fact) : Prop
  | answered (h : AnswersAsReceiver f o)
  | withdrawn (htarget : targetOf f = some o.eventId) (hwho : isAuthorOrAddressee f o = true)

/-- Every open obligation that is missing after `f` left for an allowed reason. -/
def ErasuresJustified (ext : Externals) (coord : CoordinationConfig) (now : Int) (F : List Fact)
    (f : Fact) : Prop :=
  ∀ o ∈ (snapshotFromFactsWithPolicy ext F coord false now).openObligations,
    o ∉ (snapshotFromFactsWithPolicy ext (F ++ [f]) coord false now).openObligations →
    ErasureJustified f o

/-- An open obligation leaves by the receiver's answer or by being withdrawn. -/
theorem erasure_cases {ext : Externals} {F : List Fact} {f o : Fact}
    (ho : o ∈ projectOpenObligations ext (resolvedFacts F))
    (hgone : o ∉ projectOpenObligations ext (resolvedFacts (F ++ [f]))) :
    targetOf f = some o.eventId ∨ AnswersAsReceiver f o := by
  obtain ⟨hmem, haddressed, hopen⟩ := mem_projectOpenObligations.mp ho
  have hF := (mem_resolvedFacts.mp hmem).1
  by_cases htarget : targetOf f = some o.eventId
  · exact .inl htarget
  · refine .inr (answersAsReceiver_iff.mpr ?_)
    by_contra hnot
    refine hgone (mem_projectOpenObligations.mpr
      ⟨(mem_resolvedFacts_append_of_mem hF).mpr ⟨hmem, htarget⟩, haddressed, fun closer hcloser => ?_⟩)
    -- an old answer would have closed it before, and the new fact is no answer
    rcases List.mem_append.mp (mem_resolvedFacts.mp hcloser).1 with hold | hnew
    · exact hopen closer ((mem_resolvedFacts_append_of_mem hold).mp hcloser).1
    · rw [List.mem_singleton.mp hnew]
      simpa using hnot

/-- **Who erases obligations.** On any append, every obligation that disappears was answered by its
receiver or withdrawn by its author or addressee, exactly when the appended fact does not withdraw an open
obligation of two other agents. -/
theorem erasuresJustified_iff (ext : Externals) (coord : CoordinationConfig) (now : Int) (F : List Fact)
    (f : Fact) :
    ErasuresJustified ext coord now F f ↔
      ∀ o ∈ (snapshotFromFactsWithPolicy ext F coord false now).openObligations,
        targetOf f = some o.eventId → isAuthorOrAddressee f o = true := by
  constructor
  · intro h o ho htarget
    have hgone : o ∉ projectOpenObligations ext (resolvedFacts (F ++ [f])) := fun hstill =>
      (mem_resolvedFacts_append.mp (mem_projectOpenObligations.mp hstill).1).2.2 htarget
    cases h o ho hgone with
    | withdrawn _ hwho => exact hwho
    | answered hanswer =>
      -- the receiver is the addressee, and an obligation always has one
      obtain ⟨-, haddressed, -⟩ := mem_projectOpenObligations.mp ho
      have htarget' : o.target.isSome = true := by
        by_contra hnone
        rw [Bool.not_eq_true, Option.isSome_eq_false_iff, Option.isNone_iff_eq_none] at hnone
        simp [factIsAddressedObligation, hnone] at haddressed
      simp [isAuthorOrAddressee, hanswer.byTarget, htarget']
  · intro h o ho hgone
    rcases erasure_cases ho hgone with htarget | hanswer
    · exact .withdrawn htarget (h o ho htarget)
    · exact .answered hanswer

/-- Alice asks Bob for something. -/
def aliceRequest : Fact :=
  { eventId := "h1", seq := 1, kind := .handoff, tool := some "alice", target := some "bob"
    subject := "please review", createdAt := "2026-01-01T00:00:00Z" }

/-- Carol withdraws Alice's request. -/
def carolWithdraws : Fact :=
  { eventId := "x1", seq := 2, kind := .artifact, tool := some "carol", subject := "retract: h1"
    refId := some "h1", createdAt := "2026-01-01T00:00:00Z" }

/-- The append boundary commits a stranger's withdrawal, and the obligation is gone unanswered. -/
theorem obligation_erased_by_stranger :
    appendFactUnderLock .sample [aliceRequest] carolWithdraws = .ok (.committed carolWithdraws) ∧
      (AppendEnv.sample.snapshot [aliceRequest]).openObligations = [aliceRequest] ∧
      (AppendEnv.sample.snapshot ([aliceRequest] ++ [carolWithdraws])).openObligations = [] ∧
      ¬ErasuresJustified .sample {} AppendEnv.sample.now [aliceRequest] carolWithdraws := by
  refine ⟨by decide, by decide, by decide, fun h => ?_⟩
  cases h aliceRequest (by decide) (by decide) with
  | answered h => exact absurd h.byTarget (by decide)
  | withdrawn _ h => exact absurd h (by decide)

end RallyPoint
