/-
# RallyPoint.Positions — the sequence maxima of the room along a run (`store.rs`, `retraction.rs`).

The projection drops the withdrawn facts first and takes `maxSeq` and `contentMaxSeq` over what is left. A
reader records the `contentMaxSeq` it saw, so a maximum that falls behind a recorded position hides facts.
The source argues that a retraction is always appended after its target. That covers a target below the
retraction and says nothing of a retraction that is itself not shown: one whose own id was withdrawn before
it was written, or, for the content maximum, a retraction of kind `read`.

Both maxima are the last sequence of a part of the resolved ledger, chosen by a test on the fact; everything
is proved once for that.
-/
import RallyPoint.Append

namespace RallyPoint

open Lib

/-- The facts a snapshot position is taken over: shown, and chosen by `keep`. -/
def positionFacts (keep : Fact → Bool) (facts : List Fact) : List Fact := (resolvedFacts facts).filter keep

/-- The test behind `max_seq`. -/
def anyFact : Fact → Bool := fun _ => true

/-- The test behind `content_max_seq`: read checkpoints do not count. -/
def isContent (f : Fact) : Bool := f.kind != .read

/-- An append that does not withdraw the newest chosen fact, unless it takes its place. -/
def KeepsPosition (keep : Fact → Bool) (facts : List Fact) (f : Fact) : Prop :=
  ∀ newest, (positionFacts keep facts).getLast? = some newest → targetOf f = some newest.eventId →
    f.eventId ∉ retractedIds facts ∧ keep f = true

section Position

variable {keep : Fact → Bool} {F G H : List Fact} {f : Fact}

/-- Part of a ledger is a ledger. -/
theorem IsLedger.sublist (h : IsLedger F) (hsub : G.Sublist F) : IsLedger G where
  ascending := h.ascending.sublist hsub
  positive := fun x hx => h.positive x (hsub.subset hx)
  distinctIds := h.distinctIds.sublist (hsub.map _)

theorem positionFacts_sublist (keep : Fact → Bool) (F : List Fact) : (positionFacts keep F).Sublist F :=
  List.filter_sublist.trans (resolvedFacts_sublist F)

theorem IsLedger.positionFacts (h : IsLedger F) (keep : Fact → Bool) : IsLedger (positionFacts keep F) :=
  h.sublist (positionFacts_sublist keep F)

/-- The chosen facts after one append: the old ones but the target, then the new fact if it is shown. -/
theorem mem_positionFacts_append {x : Fact} :
    x ∈ positionFacts keep (F ++ [f]) ↔
      (x ∈ F ∨ x = f) ∧ x.eventId ∉ retractedIds F ∧ targetOf f ≠ some x.eventId ∧ keep x = true := by
  simp only [positionFacts, List.mem_filter, mem_resolvedFacts_append, and_assoc]

theorem mem_positionFacts {x : Fact} :
    x ∈ positionFacts keep F ↔ x ∈ F ∧ x.eventId ∉ retractedIds F ∧ keep x = true := by
  simp only [positionFacts, List.mem_filter, mem_resolvedFacts, and_assoc]

/-- The newest chosen fact carries the position. -/
theorem IsLedger.canonicalMaxSeq_eq_iff (h : IsLedger F) {x : Fact} (hx : x ∈ F) :
    x.seq = canonicalMaxSeq F ↔ F.getLast? = some x := by
  obtain ⟨init, last, rfl⟩ := (List.eq_nil_or_concat' F).resolve_left (List.ne_nil_of_mem hx)
  rw [canonicalMaxSeq_append_singleton, List.getLast?_concat, Option.some.injEq]
  refine ⟨fun heq => ?_, fun heq => by rw [heq]⟩
  -- everything before the last fact lies strictly below it
  rcases List.mem_append.mp hx with hinit | hlast
  · have := (List.pairwise_append.mp h.ascending).2.2 x hinit last (by simp)
    omega
  · exact (List.mem_singleton.mp hlast).symm

theorem IsLedger.target_ne_self (h : IsLedger (F ++ [f])) {newest : Fact} (hmem : newest ∈ F)
    (htarget : targetOf f = some newest.eventId) : targetOf f ≠ some f.eventId := by
  have hnodup := h.distinctIds
  rw [List.map_append, List.nodup_append] at hnodup
  rw [htarget]
  intro heq
  exact hnodup.2.2 newest.eventId (List.mem_map_of_mem hmem) f.eventId (by simp) (Option.some.inj heq)

/-- A withdrawal of the newest chosen fact that is not chosen itself leaves only lower ones. -/
theorem position_lt_of_lost (hF : IsLedger F) {newest : Fact}
    (hlast : (positionFacts keep F).getLast? = some newest) (htarget : targetOf f = some newest.eventId)
    (hlost : ¬(f.eventId ∉ retractedIds F ∧ keep f = true)) :
    canonicalMaxSeq (positionFacts keep (F ++ [f])) < newest.seq := by
  have hold := hF.positionFacts keep
  have hmem := List.mem_of_getLast? hlast
  have hmax := (hold.canonicalMaxSeq_eq_iff hmem).mpr hlast
  cases hlast' : (positionFacts keep (F ++ [f])).getLast? with
  | none =>
    have := hold.positive newest hmem
    simpa [canonicalMaxSeq, hlast'] using this
  | some x =>
    simp only [canonicalMaxSeq, hlast', Option.map_some, Option.getD_some]
    obtain ⟨hfrom, hshown, hspared, hkeep⟩ := mem_positionFacts_append.mp (List.mem_of_getLast? hlast')
    rcases hfrom with hx | rfl
    · -- an old chosen fact other than the newest one
      have hxmem := mem_positionFacts.mpr ⟨hx, hshown, hkeep⟩
      have hle := hold.le_canonicalMaxSeq x hxmem
      rw [← hmax] at hle
      refine lt_of_le_of_ne hle fun heq => hspared ?_
      have hsame := (hold.canonicalMaxSeq_eq_iff hxmem).mp (heq.trans hmax)
      rw [htarget, Option.some.inj (hsame.symm.trans hlast)]
    · exact absurd ⟨hshown, hkeep⟩ hlost

/-- The newest chosen fact stays, or its withdrawal takes its place from above. -/
theorem position_le_of_keeps (hF' : IsLedger (F ++ [f])) (hseq : ∀ x ∈ F, x.seq < f.seq)
    {newest : Fact} (hlast : (positionFacts keep F).getLast? = some newest) (hkeeps : KeepsPosition keep F f) :
    newest.seq ≤ canonicalMaxSeq (positionFacts keep (F ++ [f])) := by
  have hnew := hF'.positionFacts keep
  obtain ⟨hmem, hshown, hkeep⟩ := mem_positionFacts.mp (List.mem_of_getLast? hlast)
  by_cases htarget : targetOf f = some newest.eventId
  · obtain ⟨hfree, hfkeep⟩ := hkeeps newest hlast htarget
    have hfmem := mem_positionFacts_append.mpr
      ⟨.inr rfl, hfree, hF'.target_ne_self hmem htarget, hfkeep⟩
    have := hnew.le_canonicalMaxSeq f hfmem
    have := hseq newest hmem
    omega
  · exact hnew.le_canonicalMaxSeq newest
      (mem_positionFacts_append.mpr ⟨.inl hmem, hshown, htarget, hkeep⟩)

/-- **One append** keeps a position exactly when the newest chosen fact stays or is replaced. -/
theorem position_append_iff (hF : IsLedger F) (hF' : IsLedger (F ++ [f])) (hseq : ∀ x ∈ F, x.seq < f.seq) :
    canonicalMaxSeq (positionFacts keep F) ≤ canonicalMaxSeq (positionFacts keep (F ++ [f])) ↔
      KeepsPosition keep F f := by
  cases hlast : (positionFacts keep F).getLast? with
  | none =>
    refine iff_of_true ?_ fun newest hnewest => by simp [hlast] at hnewest
    simpa [canonicalMaxSeq, hlast] using (hF'.positionFacts keep).canonicalMaxSeq_nonneg
  | some newest =>
    have hmax := ((hF.positionFacts keep).canonicalMaxSeq_eq_iff (List.mem_of_getLast? hlast)).mpr hlast
    rw [← hmax]
    constructor
    · intro hle newest' hnewest' htarget
      obtain rfl := Option.some.inj (hlast.symm.trans hnewest')
      by_contra hlost
      exact absurd hle (not_le_of_gt (position_lt_of_lost hF hlast htarget hlost))
    · exact position_le_of_keeps hF' hseq hlast

end Position

/-! ## Runs -/

/-- What an admitted append is to the positions: any fact at all, under a fresh id, with the next sequence. -/
def FreshAppend (facts : List Fact) (f : Fact) : Prop :=
  f.eventId ∉ facts.map (·.eventId) ∧ f.seq = canonicalMaxSeq facts + 1

theorem AppendStep.freshAppend {ext : Externals} {facts : List Fact} {f : Fact} (h : AppendStep ext facts f) :
    FreshAppend facts f := by
  obtain ⟨env, fact, -, hok⟩ := h
  obtain ⟨-, -, hid, -, -, -, rfl⟩ := appendFactUnderLock_committed_iff.mp hok
  exact ⟨hid, rfl⟩

theorem FreshAppend.seq_lt {facts : List Fact} {f : Fact} (h : FreshAppend facts f) (hF : IsLedger facts) :
    ∀ x ∈ facts, x.seq < f.seq := by
  intro x hx
  have := hF.le_canonicalMaxSeq x hx
  rw [h.2]
  omega

theorem isLedger_of_fresh {facts : List Fact} (h : Reachable FreshAppend facts) : IsLedger facts := by
  refine Reachable.invariant IsLedger.nil (fun facts f _ hF hstep => ?_) h
  have := hF.canonicalMaxSeq_nonneg
  exact hF.append hstep.1 (hstep.seq_lt hF) (by rw [hstep.2]; omega)

/-- One append keeps both maxima: it neither drops the newest shown fact nor the newest shown content. -/
def KeepsPositions (facts : List Fact) (f : Fact) : Prop :=
  KeepsPosition anyFact facts f ∧ KeepsPosition isContent facts f

/-- The two positions a snapshot reports, compared. -/
structure PositionsLe (earlier later : RoomSnapshot) : Prop where
  maxSeq : earlier.maxSeq ≤ later.maxSeq
  contentMaxSeq : earlier.contentMaxSeq ≤ later.contentMaxSeq
  /-- A reader records the content maximum it saw. -/
  recorded : earlier.contentMaxSeq ≤ later.maxSeq

section Runs

variable {ext : Externals} {F G H : List Fact} {f : Fact}
variable {coord coord' : CoordinationConfig} {archived archived' : Bool} {now now' : Int}

theorem snapshot_maxSeq (hF : IsLedger F) :
    (snapshotFromFactsWithPolicyAt ext F coord archived now).maxSeq =
      canonicalMaxSeq (positionFacts anyFact F) := by
  have hall : positionFacts anyFact F = resolvedFacts F := List.filter_eq_self.mpr fun _ _ => rfl
  rw [← (hF.positionFacts anyFact).max_seq, hall]
  rfl

theorem snapshot_contentMaxSeq (hF : IsLedger F) :
    (snapshotFromFactsWithPolicyAt ext F coord archived now).contentMaxSeq =
      canonicalMaxSeq (positionFacts isContent F) :=
  (hF.positionFacts isContent).max_seq

theorem content_le_maxSeq (hF : IsLedger F) :
    canonicalMaxSeq (positionFacts isContent F) ≤ canonicalMaxSeq (positionFacts anyFact F) := by
  cases hlast : (positionFacts isContent F).getLast? with
  | none =>
    have := (hF.positionFacts anyFact).canonicalMaxSeq_nonneg
    simpa [canonicalMaxSeq, hlast] using this
  | some x =>
    obtain ⟨hx, hshown, -⟩ := mem_positionFacts.mp (List.mem_of_getLast? hlast)
    have := (hF.positionFacts anyFact).le_canonicalMaxSeq x (mem_positionFacts.mpr ⟨hx, hshown, rfl⟩)
    simpa [canonicalMaxSeq, hlast] using this

/-- The snapshot comparison, on the positions themselves. -/
theorem positionsLe_iff (hF : IsLedger F) (hG : IsLedger G) :
    PositionsLe (snapshotFromFactsWithPolicyAt ext F coord archived now)
        (snapshotFromFactsWithPolicyAt ext G coord' archived' now') ↔
      canonicalMaxSeq (positionFacts anyFact F) ≤ canonicalMaxSeq (positionFacts anyFact G) ∧
        canonicalMaxSeq (positionFacts isContent F) ≤ canonicalMaxSeq (positionFacts isContent G) := by
  constructor
  · rintro ⟨hmax, hcontent, -⟩
    rw [snapshot_maxSeq hF, snapshot_maxSeq hG] at hmax
    rw [snapshot_contentMaxSeq hF, snapshot_contentMaxSeq hG] at hcontent
    exact ⟨hmax, hcontent⟩
  · rintro ⟨hmax, hcontent⟩
    refine ⟨?_, ?_, ?_⟩
    · rwa [snapshot_maxSeq hF, snapshot_maxSeq hG]
    · rwa [snapshot_contentMaxSeq hF, snapshot_contentMaxSeq hG]
    · rw [snapshot_contentMaxSeq hF, snapshot_maxSeq hG]
      exact (content_le_maxSeq hF).trans hmax

variable (ext F) in
/-- Along the appends that wrote the ledger no snapshot position exceeds a later one, under whatever policy and at
whatever time the two snapshots are taken. -/
def NeverRegresses : Prop :=
  ∀ G H, G <+: H → H <+: F → ∀ coord coord' archived archived' now now',
    PositionsLe (snapshotFromFactsWithPolicyAt ext G coord archived now)
      (snapshotFromFactsWithPolicyAt ext H coord' archived' now')

/-- **Positions along a run.** No snapshot position of a ledger exceeds that of a later one exactly when no
append withdraws the newest shown fact, or the newest shown content, without taking its place. -/
theorem positions_never_regress_iff (hF : Reachable FreshAppend F) :
    NeverRegresses ext F ↔ ∀ G f, G ++ [f] <+: F → KeepsPositions G f := by
  have hledger : ∀ G, G <+: F → IsLedger G := fun G hpre => isLedger_of_fresh (hF.of_prefix hpre)
  constructor
  · intro h G f hpre
    have hG := (List.prefix_append G [f]).trans hpre
    have hstep := (hF.of_prefix hpre).of_append_singleton.2
    have hle := (positionsLe_iff (hledger G hG) (hledger _ hpre)).mp
      (h G (G ++ [f]) (List.prefix_append _ _) hpre {} {} false false 0 0)
    have hseq := hstep.seq_lt (hledger G hG)
    exact ⟨(position_append_iff (hledger G hG) (hledger _ hpre) hseq).mp hle.1,
      (position_append_iff (hledger G hG) (hledger _ hpre) hseq).mp hle.2⟩
  · intro h
    have hmono : ∀ keep, (∀ G f, G ++ [f] <+: F → KeepsPosition keep G f) → ∀ G H, G <+: H → H <+: F →
        canonicalMaxSeq (positionFacts keep G) ≤ canonicalMaxSeq (positionFacts keep H) := by
      intro keep hkeeps
      refine monotone_along_iff.mpr fun G f hpre => ?_
      have hG := (List.prefix_append G [f]).trans hpre
      have hstep := (hF.of_prefix hpre).of_append_singleton.2
      exact (position_append_iff (hledger G hG) (hledger _ hpre) (hstep.seq_lt (hledger G hG))).mpr
        (hkeeps G f hpre)
    intro G H hGH hHF coord coord' archived archived' now now'
    exact (positionsLe_iff (hledger G (hGH.trans hHF)) (hledger H hHF)).mpr
      ⟨hmono anyFact (fun G f hpre => (h G f hpre).1) G H hGH hHF,
        hmono isContent (fun G f hpre => (h G f hpre).2) G H hGH hHF⟩

end Runs

/-! ## A withdrawal that was withdrawn beforehand -/

namespace SilencedWithdrawal

def note (id subject : String) (n : Int) : Fact :=
  { eventId := id, seq := n, kind := .artifact, tool := some "alice", subject := subject
    createdAt := "2026-01-01T00:00:00Z" }

/-- Alice withdraws an id nobody has written yet, records her work, and withdraws the work under that id. -/
def ledger : List Fact := [note "x1" "retract: z1" 1, note "a1" "parser done" 2, note "z1" "retract: a1" 3]

def room (facts : List Fact) : RoomSnapshot := AppendEnv.sample.snapshot facts

end SilencedWithdrawal

open SilencedWithdrawal in
/-- A withdrawal written after its target takes its place. -/
theorem positions_never_regress_plain :
    NeverRegresses .sample [note "a1" "parser done" 1, note "x1" "retract: a1" 2] := by
  have hrun : Reachable FreshAppend [note "a1" "parser done" 1, note "x1" "retract: a1" 2] :=
    @Reachable.append _ _ [note "a1" "parser done" 1] _ (Reachable.empty.append ⟨by decide, rfl⟩)
      ⟨by decide, rfl⟩
  refine (positions_never_regress_iff hrun).mpr fun G f hpre => ?_
  match G, hpre with
  | [], hpre =>
    obtain rfl : f = note "a1" "parser done" 1 := by simpa using hpre
    exact ⟨fun _ _ _ => ⟨by decide, rfl⟩, fun _ _ _ => ⟨by decide, rfl⟩⟩
  | [g], hpre =>
    obtain ⟨rfl, rfl⟩ : g = note "a1" "parser done" 1 ∧ f = note "x1" "retract: a1" 2 := by simpa using hpre
    exact ⟨fun _ _ _ => ⟨by decide, rfl⟩, fun _ _ _ => ⟨by decide, rfl⟩⟩
  | _ :: _ :: _, hpre => simp at hpre

open SilencedWithdrawal in
/-- Every append is accepted, and the last one takes both maxima from 2 back to 1. -/
theorem positions_regress :
    Reachable (AppendStep .sample) ledger ∧ (room (ledger.take 2)).maxSeq = 2 ∧
      (room (ledger.take 2)).contentMaxSeq = 2 ∧ (room ledger).maxSeq = 1 ∧ (room ledger).contentMaxSeq = 1 := by
  have hstep : ∀ facts f, appendFactUnderLock .sample facts f = .ok (.committed f) →
      AppendStep .sample facts f := fun facts f hok => ⟨.sample, f, rfl, hok⟩
  refine ⟨?_, by decide, by decide, by decide, by decide⟩
  exact ((Reachable.empty.append (hstep [] _ (by decide))).append
    (hstep [note "x1" "retract: z1" 1] _ (by decide))).append
      (hstep [note "x1" "retract: z1" 1, note "a1" "parser done" 2] _ (by decide))

end RallyPoint
