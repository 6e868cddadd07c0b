/-
# RallyPoint.LastSeen — who can move an owner's last-seen time.

Silence is authority: an owner that has not written for long enough may lose its claims to a peer. The
last-seen row of a tool is folded from the resolved facts it authored itself, so nothing a peer writes can
add to it. A peer can take away, though: withdrawn facts count as evidence of nothing, liveness included,
and withdrawing prose is free. The exact law is therefore about ONE fact, the latest the tool authored: a
peer's write leaves the last-seen time alone unless it withdraws that fact, in which case the one before it
speaks.
-/
import RallyPoint.Append

namespace RallyPoint

open Lib

/-- A fact the tool wrote itself, not one the system wrote in its name. -/
def isAuthoredBy (tool : String) (fact : Fact) : Bool := fact.tool == some tool && !isSystemAuthored fact

/-- The latest fact of a ledger that the tool authored. -/
def lastAuthored (facts : List Fact) (tool : String) : Option Fact :=
  (facts.filter (isAuthoredBy tool)).getLast?

/-! ## The fold finds the latest authored fact -/

section Fold

variable {facts : List Fact} {tool : String}

theorem toolLast_append_singleton (facts : List Fact) (tool : String) (x : Fact) :
    toolLast (facts ++ [x]) tool = toolLastStep tool (toolLast facts tool) x := by
  simp [toolLast]

theorem lastAuthored_append_singleton (facts : List Fact) (tool : String) (x : Fact) :
    lastAuthored (facts ++ [x]) tool =
      if isAuthoredBy tool x then some x else lastAuthored facts tool := by
  rw [lastAuthored, List.filter_append]
  cases hx : isAuthoredBy tool x <;> simp [hx, lastAuthored]

/-- Over ascending positive sequences the fold keeps the last authored row. -/
theorem toolLast_eq (hasc : facts.Pairwise fun a b => a.seq < b.seq) (hpos : ∀ x ∈ facts, 0 < x.seq) :
    toolLast facts tool = (lastAuthored facts tool).map fun d => (d.seq, d.createdAt) := by
  induction facts using List.reverseRecOn with
  | nil => rfl
  | append_singleton facts x ih =>
    obtain ⟨hasc', -, hlast⟩ := List.pairwise_append.mp hasc
    have ih := ih hasc' fun y hy => hpos y (by simp [hy])
    rw [toolLast_append_singleton, ih, lastAuthored_append_singleton]
    cases hx : isAuthoredBy tool x with
    | false =>
      have hstep : (x.tool == some tool && !isSystemAuthored x) = false := hx
      simp [toolLastStep, hstep]
    | true =>
      -- an authored row replaces the entry because its sequence is strictly larger
      have hstep : (x.tool == some tool && !isSystemAuthored x) = true := hx
      have hnew : ((Option.map (fun d : Fact => (d.seq, d.createdAt)) (lastAuthored facts tool)).getD
          (0, "")).1 < x.seq := by
        cases hd : lastAuthored facts tool with
        | none => exact hpos x (by simp)
        | some d => exact hlast d (List.mem_filter.mp (List.mem_of_getLast? hd)).1 x (by simp)
      simp [toolLastStep, hstep, hnew]

theorem authorLastSeen_eq (h : facts.Pairwise fun a b => a.seq < b.seq) (hpos : ∀ x ∈ facts, 0 < x.seq) :
    authorLastSeen facts tool = (lastAuthored facts tool).map (·.createdAt) := by
  rw [authorLastSeen, toolLast_eq h hpos, Option.map_map]
  rfl

end Fold

/-! ## One write by a peer -/

section Peer

variable {F : List Fact} {f : Fact} {t : String}

theorem IsLedger.authorLastSeen_resolved (h : IsLedger F) (ids : List String) :
    authorLastSeen (dropIds ids (resolvedFacts F)) t =
      (lastAuthored (dropIds ids (resolvedFacts F)) t).map (·.createdAt) := by
  have hsub : (dropIds ids (resolvedFacts F)).Sublist F :=
    (dropIds_sublist _ _).trans (resolvedFacts_sublist F)
  exact authorLastSeen_eq (h.ascending.sublist hsub) fun x hx => h.positive x (hsub.subset hx)

/-- A peer's write reaches the last-seen row only through what it withdraws. -/
theorem authorLastSeen_append_peer (hpeer : f.tool ≠ some t) :
    authorLastSeen (resolvedFacts (F ++ [f])) t =
      authorLastSeen (dropIds (targetOf f).toList (resolvedFacts F)) t := by
  rw [resolvedFacts_append_singleton, authorLastSeen, authorLastSeen]
  cases hself : dropIds (retractedIds (F ++ [f])) [f] with
  | nil => simp
  | cons x rest =>
    have hsub : (x :: rest).Sublist [f] := hself ▸ dropIds_sublist _ _
    obtain ⟨rfl, rfl⟩ : x = f ∧ rest = [] := by simpa using hsub.eq_of_length_le (by simp)
    rw [toolLast_append_singleton]
    simp [toolLastStep, hpeer]

/-- Dropping anything but the latest authored fact keeps it the latest. -/
theorem lastAuthored_dropIds {facts : List Fact} {ids : List String}
    (h : ∀ d, lastAuthored facts t = some d → d.eventId ∉ ids) :
    lastAuthored (dropIds ids facts) t = lastAuthored facts t := by
  have hcomm : (dropIds ids facts).filter (isAuthoredBy t) =
      (facts.filter (isAuthoredBy t)).filter fun x => !ids.contains x.eventId := by
    simp only [dropIds, List.filter_filter]
    exact List.filter_congr fun x _ => Bool.and_comm _ _
  unfold lastAuthored at *
  rw [hcomm]
  rcases List.eq_nil_or_concat' (facts.filter (isAuthoredBy t)) with hnil | ⟨init, d, hd⟩
  · simp [hnil]
  · have hkeep := h d (by simp [hd])
    rw [hd, List.filter_append]
    simp [hkeep]

theorem authorLastSeen_append_of_spared (hledger : IsLedger F) (hpeer : f.tool ≠ some t)
    (hspared : ∀ d, lastAuthored (resolvedFacts F) t = some d → targetOf f ≠ some d.eventId) :
    authorLastSeen (resolvedFacts (F ++ [f])) t = authorLastSeen (resolvedFacts F) t := by
  have hall := hledger.authorLastSeen_resolved (t := t) []
  rw [show dropIds [] (resolvedFacts F) = resolvedFacts F by simp [dropIds]] at hall
  rw [authorLastSeen_append_peer hpeer, hledger.authorLastSeen_resolved, hall,
    lastAuthored_dropIds fun d hd hmem => hspared d hd (by simpa [eq_comm] using hmem)]

end Peer

/-! ## Runs of peers -/

/-- An accepted write by somebody else that does not withdraw the latest fact of `t`. -/
structure PeerStep (ext : Externals) (coord : CoordinationConfig) (t : String) (log : List Fact)
    (e : Fact) : Prop where
  accepted : ∃ now, assertWriteAuthorized ext (snapshotFromFactsWithPolicy ext log coord false now) coord
    now e log = .ok ()
  freshId : e.eventId ∉ log.map (·.eventId)
  later : ∀ x ∈ log, x.seq < e.seq
  positive : 0 < e.seq
  peer : e.tool ≠ some t
  spares : ∀ d, lastAuthored (resolvedFacts log) t = some d → targetOf e ≠ some d.eventId

section Run

variable {ext : Externals} {coord : CoordinationConfig} {t : String} {F G : List Fact}

/-- Along such a run the ledger stays one and the last-seen time never moves. -/
theorem PeerStep.run_invariant (hF : IsLedger F) (h : Extends (PeerStep ext coord t) F G) :
    IsLedger G ∧ authorLastSeen (resolvedFacts G) t = authorLastSeen (resolvedFacts F) t := by
  refine Extends.invariant (P := fun G => IsLedger G ∧
    authorLastSeen (resolvedFacts G) t = authorLastSeen (resolvedFacts F) t) ⟨hF, rfl⟩ ?_ h
  intro log e _ ih hstep
  exact ⟨ih.1.append hstep.freshId hstep.later hstep.positive,
    (authorLastSeen_append_of_spared ih.1 hstep.peer hstep.spares).trans ih.2⟩

/-- An owner is reclaimable only when its own last authored row is older than the timeout. -/
theorem eligible_cases {room : RoomSnapshot} {c : Fact} {now : Int} (howner : c.tool = some t)
    (hsquads : room.authorLastSeen t = none → room.squadFor t = none)
    (h : (room.claimReclaimEligible ext c coord now).1 = true) :
    ∃ ts seen, room.authorLastSeen t = some ts ∧ ext.parseFromRfc3339 ts = some seen ∧
      unixSecs now - timestamp seen > reclaimTimeoutSecs
        (classifyWorkSize (claimScopes c) c.scope.length) coord.reclaimSmallMinutes
        coord.reclaimLargeMinutes := by
  simp only [RoomSnapshot.claimReclaimEligible, howner] at h
  cases hts : room.authorLastSeen t with
  | none => simp [hts, hsquads hts] at h
  | some ts =>
    simp only [hts, Option.some_or, Option.bind_some] at h
    cases hseen : ext.parseFromRfc3339 ts with
    | none => simp [hseen] at h
    | some seen => exact ⟨ts, seen, rfl, hseen, by simpa [hseen] using h⟩

/-- The roster lists authors only. -/
theorem squadFor_eq_none {facts : List Fact} {includeArchived : Bool} {now : Int}
    (h : (snapshotFromFactsWithPolicy ext facts coord includeArchived now).authorLastSeen t = none) :
    (snapshotFromFactsWithPolicy ext facts coord includeArchived now).squadFor t = none := by
  have hlast : toolLast (resolvedFacts facts) t = none := Option.map_eq_none_iff.mp h
  refine List.find?_eq_none.mpr fun sq hsq => ?_
  obtain ⟨tool, -, hsq⟩ := List.mem_filterMap.mp hsq
  unfold squadOf at hsq
  cases htool : toolLast (resolvedFacts facts) tool with
  | none => simp [htool] at hsq
  | some row =>
    have hname : sq.tool = tool := by
      simp only [htool, Option.bind_some] at hsq
      split at hsq
      · simp at hsq
      · rw [← Option.some.inj hsq]
    rw [hname]
    rintro htt
    rw [beq_iff_eq.mp htt, hlast] at htool
    exact absurd htool (by simp)

end Run

/-- **What a peer can do to an owner's age.** A write by another tool leaves the last-seen time of `t`
alone unless it withdraws the latest fact `t` authored, and then the one before it speaks. So along any run
of accepted writes by others that spare that fact, a claim of `t` becomes reclaimable only once the window
has passed since `t` last wrote. -/
theorem peer_cannot_age_owner {ext : Externals} {coord : CoordinationConfig} {F : List Fact} {t : String}
    (hledger : IsLedger F) :
    (∀ f now, f.tool ≠ some t →
      (∀ d, lastAuthored (resolvedFacts F) t = some d → targetOf f ≠ some d.eventId) →
      (snapshotFromFactsWithPolicy ext (F ++ [f]) coord false now).authorLastSeen t =
        (snapshotFromFactsWithPolicy ext F coord false now).authorLastSeen t) ∧
    (∀ f now d, f.tool ≠ some t → lastAuthored (resolvedFacts F) t = some d →
      targetOf f = some d.eventId →
      (snapshotFromFactsWithPolicy ext (F ++ [f]) coord false now).authorLastSeen t =
        (lastAuthored (dropIds [d.eventId] (resolvedFacts F)) t).map (·.createdAt)) ∧
    ∀ G, Extends (PeerStep ext coord t) F G → ∀ c now, c.tool = some t →
      ((snapshotFromFactsWithPolicy ext G coord false now).claimReclaimEligible ext c coord now).1 = true →
      ∃ d seen, lastAuthored (resolvedFacts F) t = some d ∧
        ext.parseFromRfc3339 d.createdAt = some seen ∧
        unixSecs now - timestamp seen > reclaimTimeoutSecs
          (classifyWorkSize (claimScopes c) c.scope.length) coord.reclaimSmallMinutes
          coord.reclaimLargeMinutes := by
  refine ⟨fun f now hpeer hspared => ?_, fun f now d hpeer _ htarget => ?_, fun G hrun c now howner h => ?_⟩
  · exact authorLastSeen_append_of_spared hledger hpeer hspared
  · rw [snapshot_authorLastSeen, authorLastSeen_append_peer hpeer, htarget]
    exact hledger.authorLastSeen_resolved [d.eventId]
  · -- the last-seen row at the end of the run is the one at its start
    obtain ⟨ts, seen, hts, hseen, hold⟩ := eligible_cases howner squadFor_eq_none h
    rw [snapshot_authorLastSeen, (PeerStep.run_invariant hledger hrun).2] at hts
    have hlast := hledger.authorLastSeen_resolved (t := t) []
    rw [show dropIds [] (resolvedFacts F) = resolvedFacts F by simp [dropIds], hts] at hlast
    obtain ⟨d, hd, rfl⟩ := Option.map_eq_some_iff.mp hlast.symm
    exact ⟨d, seen, hd, hseen, hold⟩

/-- Alice claims a file at midnight and is seen at noon. -/
def midnightClaim : Fact :=
  { eventId := "c1", seq := 1, kind := .claim, tool := some "alice", fromSessionId := some "sess:alice"
    subject := "parser", scope := ["file:src/parser.rs"], createdAt := "2026-01-01T00:00:00Z" }

def noonPresence : Fact :=
  { eventId := "p1", seq := 2, kind := .presence, tool := some "alice"
    fromSessionId := some "sess:alice", subject := "presence", createdAt := "2026-01-01T12:00:00Z" }

def peerWithdrawal (target : String) : Fact :=
  { eventId := "x1", seq := 3, kind := .artifact, tool := some "carol", subject := "retract: " ++ target
    refId := some target, createdAt := "2026-01-01T12:00:00Z" }

def noon : AppendEnv := { AppendEnv.sample with now := 1767268800000000000 }

theorem isLedger_midnightClaim : IsLedger [midnightClaim, noonPresence] :=
  ⟨by decide, by decide, by decide⟩

/-- A withdrawal of something else leaves alice seen at noon. -/
theorem peer_cannot_age_owner_spared :
    (noon.snapshot ([midnightClaim, noonPresence] ++ [peerWithdrawal "other"])).authorLastSeen "alice" =
      some "2026-01-01T12:00:00Z" := by
  have hspared : ∀ d, lastAuthored (resolvedFacts [midnightClaim, noonPresence]) "alice" = some d →
      targetOf (peerWithdrawal "other") ≠ some d.eventId := by
    intro d hd
    have hlast : lastAuthored (resolvedFacts [midnightClaim, noonPresence]) "alice" =
        some noonPresence := by decide
    obtain rfl := Option.some.inj (hd.symm.trans hlast)
    decide
  have hkept := (@peer_cannot_age_owner .sample {} _ "alice" isLedger_midnightClaim).1
    (peerWithdrawal "other") noon.now (by decide) hspared
  exact hkept.trans (by decide)

/-- A peer's accepted withdrawal of the noon presence moves alice back to midnight and makes her claim
reclaimable at noon. -/
theorem peer_ages_owner :
    assertWriteAuthorized .sample (noon.snapshot [midnightClaim, noonPresence]) {} noon.now
        (peerWithdrawal "p1") [midnightClaim, noonPresence] = .ok () ∧
      (peerWithdrawal "p1").tool ≠ some "alice" ∧
      (noon.snapshot [midnightClaim, noonPresence]).authorLastSeen "alice" =
        some "2026-01-01T12:00:00Z" ∧
      (noon.snapshot ([midnightClaim, noonPresence] ++ [peerWithdrawal "p1"])).authorLastSeen "alice" =
        some "2026-01-01T00:00:00Z" ∧
      ((noon.snapshot [midnightClaim, noonPresence]).claimReclaimEligible .sample midnightClaim {}
        noon.now).1 = false ∧
      ((noon.snapshot ([midnightClaim, noonPresence] ++ [peerWithdrawal "p1"])).claimReclaimEligible
        .sample midnightClaim {} noon.now).1 = true := by
  decide

end RallyPoint
