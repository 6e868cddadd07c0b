/-
# RallyPoint.ClaimIndex — the sidecar of active claims that the append path refreshes (`claim_authority.rs`).

The index is written whole, from the ledger as it stands, after an append of a kind that names claims. Two
things set it apart from the room. It is computed before withdrawals are resolved, so a refresh can disagree
with the room wherever a renewal can (`RallyPoint.Renewal`). And an append of any other kind leaves it alone,
although a receipt, the close of a session or a withdrawal can end a claim, reopen one or move a lease. The
step lemmas say exactly which appends keep index and room together; a run of such appends never parts them.
-/
import RallyPoint.Renewal
import Mathlib.Logic.Relation

namespace RallyPoint

open Lib

/-! ## The index -/

/-- Records by claim id. -/
abbrev ActiveClaimIndex := String → Option ActiveClaimRecord

/-- Records collected into the map; a later record of an id replaces an earlier one. -/
def indexOfRecords (records : List ActiveClaimRecord) : ActiveClaimIndex := fun claimId =>
  (records.filter fun record => record.claimId == claimId).getLast?

def indexFromFacts (ext : Externals) (facts : List Fact) : ActiveClaimIndex :=
  indexOfRecords (activeClaimRecords ext facts)

/-- The index of the resource-scoped claims a room shows, with the leases it shows them with. -/
def roomClaimIndex (room : RoomSnapshot) : ActiveClaimIndex :=
  indexOfRecords (room.activeClaims.filterMap activeClaimRecordFromFact)

/-- The kinds after which the append path writes the index anew. -/
def refreshesClaimIndex (kind : FactKind) : Bool :=
  match kind with
  | .claim | .claimRenewed | .release | .resolve | .claimExpired => true
  | _ => false

/-- A room directory as the append path leaves it: the canonical facts and the index file. -/
structure IndexedRoom where
  facts : List Fact
  index : ActiveClaimIndex

namespace IndexedRoom

def empty : IndexedRoom := ⟨[], fun _ => none⟩

/-- Projecting one canonical fact refreshes the index, or leaves the file as it is. -/
def project (ext : Externals) (facts : List Fact) (index : ActiveClaimIndex) (fact : Fact) : IndexedRoom :=
  { facts := facts, index := if refreshesClaimIndex fact.kind then indexFromFacts ext facts else index }

/-- An append projects the row it committed, or the recorded row it repeats. -/
def after (ext : Externals) (s : IndexedRoom) : AppendOutcome → IndexedRoom
  | .recorded existing => project ext s.facts s.index existing
  | .committed f => project ext (s.facts ++ [f]) s.index f

/-- The index is the one of the claims the room shows. -/
def FollowsRoom (ext : Externals) (s : IndexedRoom) : Prop :=
  ∀ coord includeArchived now,
    s.index = roomClaimIndex (snapshotFromFactsWithPolicy ext s.facts coord includeArchived now)

end IndexedRoom

/-- One successful append without warnings, under any clock, policy and observation. -/
def IndexStep (ext : Externals) (s s' : IndexedRoom) : Prop :=
  ∃ env fact outcome, env.ext = ext ∧ appendFactUnderLock env s.facts fact = .ok outcome ∧
    s' = s.after ext outcome

/-! ## Which appends keep index and room together -/

/-- A refresh reads the room's claims: no withdrawal comes between the ledger and a resource-scoped claim. -/
def IndexReadsRoom (ext : Externals) (facts : List Fact) : Prop :=
  ∀ claim ∈ facts, isLocalClaim claim = true → claimScopes claim ≠ [] → RenewalReadsRoom ext facts claim

/-- Appending `f` changes nothing the room shows of `claim`. -/
structure KeepsShown (ext : Externals) (F : List Fact) (f claim : Fact) : Prop where
  /-- It does not end a shown claim. -/
  notEnded : ActiveIn F claim → targetOf f ≠ some claim.eventId ∧ closesOnAppend F f claim = false
  /-- It does not withdraw the last fact that closes a standing claim. -/
  notReopened : claim ∈ resolvedFacts F → (∃ x ∈ resolvedFacts F, closesClaim x claim = true) →
    (∃ x ∈ resolvedFacts F, closesClaim x claim = true ∧ targetOf f ≠ some x.eventId) ∨
      targetOf f = some claim.eventId ∨ closesOnAppend F f claim = true
  /-- It does not withdraw the renewal a shown claim has its lease from. -/
  notShortened : ActiveIn F claim → LeaseSurvives ext (resolvedFacts F) (targetOf f).toList claim

/-- The condition on an append under which the index still follows the room. -/
def KeepsClaimIndex (ext : Externals) (F : List Fact) : AppendOutcome → Prop
  | .recorded existing => refreshesClaimIndex existing.kind = true → IndexReadsRoom ext F
  | .committed f =>
    if refreshesClaimIndex f.kind then IndexReadsRoom ext (F ++ [f])
    else ∀ claim ∈ F, isLocalClaim claim = true → claimScopes claim ≠ [] → KeepsShown ext F f claim

/-- An append that keeps index and room together. -/
def KeepingIndexStep (ext : Externals) (s s' : IndexedRoom) : Prop :=
  ∃ env fact outcome, env.ext = ext ∧ appendFactUnderLock env s.facts fact = .ok outcome ∧
    s' = s.after ext outcome ∧ KeepsClaimIndex ext s.facts outcome

/-! ## Reading an index -/

section Reading

variable {ext : Externals} {facts : List Fact} {claim : Fact}

/-- The record of a claim with a given lease. -/
def claimRecordWith (claim : Fact) (lease : Option String) : ActiveClaimRecord where
  claimId := claim.eventId
  ownerTool := claim.tool
  fromSessionId := claim.fromSessionId
  rawScope := claim.scope
  resourceScopes := claimScopes claim
  leaseExpiresAt := lease

theorem claimRecordWith_injective {lease lease' : Option String} :
    claimRecordWith claim lease = claimRecordWith claim lease' ↔ lease = lease' := by
  simp [claimRecordWith]

/-- The record of an active claim carries the lease the claim is shown with. -/
theorem activeClaimRecordFromFacts_eq :
    activeClaimRecordFromFacts ext claim facts =
      if claimScopes claim = [] then none
      else some (claimRecordWith claim (leaseExpiresAt (projectEffectiveClaim ext claim facts))) := by
  rw [leaseExpiresAt_projectEffectiveClaim, activeClaimRecordFromFacts, activeClaimRecordFromFact]
  by_cases hscopes : claimScopes claim = []
  · simp [hscopes]
  · simp only [List.isEmpty_iff, hscopes, if_false, Option.map_some]
    cases latestRenewedLease ext claim facts <;> rfl

theorem activeClaimRecordFromFact_effective :
    activeClaimRecordFromFact (projectEffectiveClaim ext claim facts) =
      activeClaimRecordFromFacts ext claim facts := by
  rw [activeClaimRecordFromFacts_eq, activeClaimRecordFromFact]
  by_cases hscopes : claimScopes claim = []
  · simp [hscopes]
  · simp only [claimScopes_projectEffectiveClaim, List.isEmpty_iff, hscopes, if_false, claimRecordWith,
      projectEffectiveClaim_eventId, projectEffectiveClaim_tool, projectEffectiveClaim_fromSessionId,
      projectEffectiveClaim_scope]

/-- The room's own index is the index of the resolved ledger. -/
theorem roomClaimIndex_snapshot (coord : CoordinationConfig) (includeArchived : Bool) (now : Int) :
    roomClaimIndex (snapshotFromFactsWithPolicy ext facts coord includeArchived now) =
      indexFromFacts ext (resolvedFacts facts) := by
  rw [roomClaimIndex, indexFromFacts, snapshot_activeClaims, projectActiveClaims, activeClaimRecords,
    List.filterMap_map]
  refine congrArg indexOfRecords (List.filterMap_congr fun claim _ => ?_)
  exact activeClaimRecordFromFact_effective

theorem followsRoom_iff {s : IndexedRoom} :
    s.FollowsRoom ext ↔ s.index = indexFromFacts ext (resolvedFacts s.facts) := by
  simp only [IndexedRoom.FollowsRoom, roomClaimIndex_snapshot]
  exact ⟨fun h => h {} false 0, fun h _ _ _ => h⟩

/-- Some facts show `claim` as active with effective lease `lease`. -/
def ShownWith (ext : Externals) (facts : List Fact) (claim : Fact) (lease : Option String) : Prop :=
  (claim ∈ facts ∧ isActiveClaimFact claim facts = true) ∧
    leaseExpiresAt (projectEffectiveClaim ext claim facts) = lease

theorem mem_activeClaimRecords {record : ActiveClaimRecord} :
    record ∈ activeClaimRecords ext facts ↔
      ∃ claim, claimScopes claim ≠ [] ∧ ∃ lease, ShownWith ext facts claim lease ∧
        record = claimRecordWith claim lease := by
  simp only [activeClaimRecords, List.mem_filterMap, List.mem_filter, ClaimClosers.isActive_eq,
    activeClaimRecordFromFacts_eq, ShownWith]
  refine exists_congr fun claim => ?_
  by_cases hscopes : claimScopes claim = []
  · simp [hscopes]
  · simp only [hscopes, if_false, Option.some.injEq, not_false_eq_true, true_and, ne_eq]
    constructor
    · rintro ⟨hactive, rfl⟩
      exact ⟨_, ⟨hactive, rfl⟩, rfl⟩
    · rintro ⟨lease, ⟨hactive, rfl⟩, rfl⟩
      exact ⟨hactive, rfl⟩

/-- With distinct ids an index answers for an id with the record of the claim that bears it. -/
theorem indexFromFacts_eq_some_iff (hids : (facts.map (·.eventId)).Nodup) {claimId : String}
    {record : ActiveClaimRecord} :
    indexFromFacts ext facts claimId = some record ↔
      ∃ claim, claimScopes claim ≠ [] ∧ claim.eventId = claimId ∧ ∃ lease, ShownWith ext facts claim lease ∧
        record = claimRecordWith claim lease := by
  have hinj : ∀ a ∈ activeClaimRecords ext facts, ∀ b ∈ activeClaimRecords ext facts,
      a.claimId = b.claimId → a = b := by
    intro a ha b hb hid
    obtain ⟨claim, -, lease, hshown, rfl⟩ := mem_activeClaimRecords.mp ha
    obtain ⟨claim', -, lease', hshown', rfl⟩ := mem_activeClaimRecords.mp hb
    obtain rfl : claim = claim' := List.inj_on_of_nodup_map hids hshown.1.1 hshown'.1.1 hid
    rw [← hshown.2, ← hshown'.2]
  rw [indexFromFacts, indexOfRecords, getLast?_filter_key_eq_some_iff hinj, mem_activeClaimRecords]
  constructor
  · rintro ⟨⟨claim, hscopes, lease, hshown, rfl⟩, rfl⟩
    exact ⟨claim, hscopes, rfl, lease, hshown, rfl⟩
  · rintro ⟨claim, hscopes, rfl, lease, hshown, rfl⟩
    exact ⟨⟨claim, hscopes, lease, hshown, rfl⟩, rfl⟩

/-- **Two parts of a ledger have one index** exactly when they show the same resource-scoped claims with the
same leases. -/
theorem indexFromFacts_eq_iff {G G' whole : List Fact} (hids : (whole.map (·.eventId)).Nodup)
    (hG : G.Sublist whole) (hG' : G'.Sublist whole) :
    indexFromFacts ext G = indexFromFacts ext G' ↔
      ∀ claim ∈ whole, isLocalClaim claim = true → claimScopes claim ≠ [] →
        ∀ lease, ShownWith ext G claim lease ↔ ShownWith ext G' claim lease := by
  have hidsG : (G.map (·.eventId)).Nodup := hids.sublist (hG.map _)
  have hidsG' : (G'.map (·.eventId)).Nodup := hids.sublist (hG'.map _)
  have hread : ∀ {part : List Fact}, (part.map (·.eventId)).Nodup → part.Sublist whole → ∀ claim ∈ whole,
      claimScopes claim ≠ [] → ∀ lease, indexFromFacts ext part claim.eventId =
        some (claimRecordWith claim lease) ↔ ShownWith ext part claim lease := by
    intro part hidsPart hpart claim hmem hscopes lease
    rw [indexFromFacts_eq_some_iff hidsPart]
    constructor
    · rintro ⟨claim', -, hid, lease', hshown, hrecord⟩
      obtain rfl : claim' = claim :=
        List.inj_on_of_nodup_map hids (hpart.subset hshown.1.1) hmem hid
      rwa [claimRecordWith_injective.mp hrecord]
    · exact fun hshown => ⟨claim, hscopes, rfl, lease, hshown, rfl⟩
  constructor
  · intro heq claim hmem _ hscopes lease
    rw [← hread hidsG hG claim hmem hscopes, ← hread hidsG' hG' claim hmem hscopes, heq]
  · intro h
    funext claimId
    refine Option.ext fun record => ?_
    rw [indexFromFacts_eq_some_iff hidsG, indexFromFacts_eq_some_iff hidsG']
    refine exists_congr fun claim => and_congr_right fun hscopes => and_congr_right fun _ =>
      exists_congr fun lease => and_congr_left fun _ => ⟨fun hshown => ?_, fun hshown => ?_⟩
    · exact (h claim (hG.subset hshown.1.1) (isActiveClaimFact_iff.mp hshown.1.2).1 hscopes lease).mp hshown
    · exact (h claim (hG'.subset hshown.1.1) (isActiveClaimFact_iff.mp hshown.1.2).1 hscopes lease).mpr hshown

end Reading

/-! ## One append -/

section Step

variable {ext : Externals} {F : List Fact} {f claim : Fact}

/-- A refresh writes the room's index exactly when no withdrawal comes between ledger and room. -/
theorem indexFromFacts_resolved_iff (hF : IsLedger F) :
    indexFromFacts ext F = indexFromFacts ext (resolvedFacts F) ↔ IndexReadsRoom ext F := by
  rw [indexFromFacts_eq_iff hF.distinctIds (List.Sublist.refl F) (resolvedFacts_sublist F)]
  refine forall_congr' fun claim => forall_congr' fun hmem => forall_congr' fun hlocal =>
    forall_congr' fun _ => ?_
  rw [renewalReadsRoom_iff hF.ascending hmem hlocal]
  simp only [ShownWith, ActiveIn, hmem, true_and]

/-- A fact that is no renewal leaves the leases to what it withdraws. -/
theorem lease_append (hkind : f.kind ≠ .claimRenewed) :
    leaseExpiresAt (projectEffectiveClaim ext claim (resolvedFacts (F ++ [f]))) =
      leaseExpiresAt (projectEffectiveClaim ext claim (dropIds (targetOf f).toList (resolvedFacts F))) := by
  have hnone : (dropIds (retractedIds (F ++ [f])) [f]).filterMap (renewalOf ext claim) = [] := by
    refine List.filterMap_eq_nil_iff.mpr fun x hx => ?_
    rw [List.mem_singleton.mp (mem_dropIds.mp hx).1]
    simp [renewalOf, hkind]
  rw [leaseExpiresAt_projectEffectiveClaim, leaseExpiresAt_projectEffectiveClaim, latestRenewedLease,
    latestRenewedLease, latestRenewal, latestRenewal, resolvedFacts_append_singleton, List.filterMap_append,
    hnone, List.append_nil]

/-- **What one more fact changes of a shown claim.** -/
theorem keepsShown_iff (hF : IsLedger F) (hmem : claim ∈ F) (hlocal : isLocalClaim claim = true)
    (hkind : f.kind ≠ .claimRenewed) :
    KeepsShown ext F f claim ↔
      ∀ lease, ShownWith ext (resolvedFacts F) claim lease ↔
        ShownWith ext (resolvedFacts (F ++ [f])) claim lease := by
  have hres : (resolvedFacts F).Pairwise fun a b => a.seq < b.seq :=
    hF.ascending.sublist (resolvedFacts_sublist F)
  have hnew := activeIn_append_of_mem (f := f) hmem
  have hclosed : claim ∈ resolvedFacts F → ¬ActiveIn F claim →
      ∃ x ∈ resolvedFacts F, closesClaim x claim = true := by
    intro hresolved hnot
    by_contra hnone
    exact hnot ⟨hresolved, isActiveClaimFact_iff.mpr ⟨hlocal, by simpa using hnone⟩⟩
  constructor
  · rintro ⟨hended, hreopened, hshortened⟩ lease
    by_cases hactive : ActiveIn F claim
    · obtain ⟨htarget, hcloses⟩ := hended hactive
      have hopen := (isActiveClaimFact_iff.mp hactive.2).2
      have hactive' : ActiveIn (F ++ [f]) claim := hnew.mpr
        ⟨hactive.1, htarget, hlocal, hcloses, fun x hx hx' => by simp [hopen x hx] at hx'⟩
      rw [ShownWith, ShownWith, lease_append hkind, ← (leaseSurvives_iff hres).mp (hshortened hactive)]
      exact and_congr_left' (iff_of_true hactive hactive')
    · refine iff_of_false (fun h => hactive h.1) (fun h => ?_)
      obtain ⟨hresolved, htarget, -, hcloses, hwithdrawn⟩ := hnew.mp h.1
      rcases hreopened hresolved (hclosed hresolved hactive) with ⟨x, hx, hx', hother⟩ | hself | hself
      · exact hother (hwithdrawn x hx hx')
      · exact htarget hself
      · simp [hself] at hcloses
  · intro h
    refine ⟨fun hactive => ?_, fun hresolved hany => ?_, fun hactive => ?_⟩
    · have hactive' := hnew.mp ((h _).mp ⟨hactive, rfl⟩).1
      exact ⟨hactive'.2.1, hactive'.2.2.2.1⟩
    · by_contra hnone
      simp only [not_or, not_exists, not_and, not_not] at hnone
      have hactive' : ActiveIn (F ++ [f]) claim := hnew.mpr
        ⟨hresolved, hnone.2.1, hlocal, by simpa using hnone.2.2, fun x hx hx' => hnone.1 x hx hx'⟩
      have hactive : ActiveIn F claim := ((h _).mpr ⟨hactive', rfl⟩).1
      obtain ⟨x, hx, hx'⟩ := hany
      simp [(isActiveClaimFact_iff.mp hactive.2).2 x hx] at hx'
    · rw [leaseSurvives_iff hres, ← lease_append hkind]
      exact ((h _).mp ⟨hactive, rfl⟩).2.symm

/-- An append of a kind that refreshes nothing leaves the room's index alone exactly when it leaves every
resource-scoped claim alone. -/
theorem roomIndex_append_iff (hF : IsLedger F) (hF' : IsLedger (F ++ [f]))
    (hkind : refreshesClaimIndex f.kind = false) :
    indexFromFacts ext (resolvedFacts F) = indexFromFacts ext (resolvedFacts (F ++ [f])) ↔
      ∀ claim ∈ F, isLocalClaim claim = true → claimScopes claim ≠ [] → KeepsShown ext F f claim := by
  have hrenewal : f.kind ≠ .claimRenewed := fun h => by simp [h, refreshesClaimIndex] at hkind
  have hclaim : isLocalClaim f = false := by
    have hne : f.kind ≠ .claim := fun h => by simp [h, refreshesClaimIndex] at hkind
    simp [isLocalClaim, hne]
  rw [indexFromFacts_eq_iff hF'.distinctIds ((resolvedFacts_sublist F).trans (List.sublist_append_left F [f]))
    (resolvedFacts_sublist _)]
  constructor
  · intro h claim hmem hlocal hscopes
    exact (keepsShown_iff hF hmem hlocal hrenewal).mpr (h claim (List.mem_append_left _ hmem) hlocal hscopes)
  · intro h claim hmem hlocal hscopes
    rcases List.mem_append.mp hmem with hmem | hmem
    · exact (keepsShown_iff hF hmem hlocal hrenewal).mp (h claim hmem hlocal hscopes)
    · rw [List.mem_singleton.mp hmem, hclaim] at hlocal
      cases hlocal

/-- Successful appends keep a ledger a ledger. -/
theorem isLedger_after {env : AppendEnv} {s : IndexedRoom} {fact : Fact} {outcome : AppendOutcome}
    (hF : IsLedger s.facts) (hok : appendFactUnderLock env s.facts fact = .ok outcome) :
    IsLedger (s.after ext outcome).facts := by
  cases outcome with
  | recorded existing => exact hF
  | committed f => exact (AppendStep.isLedger ⟨env, fact, rfl, hok⟩ hF).1

/-- **One append, exactly:** while the index follows the room, it still does afterwards if and only if the
append keeps the two together. -/
theorem followsRoom_after_iff {env : AppendEnv} {s : IndexedRoom} {fact : Fact} {outcome : AppendOutcome}
    (hF : IsLedger s.facts) (hbefore : s.FollowsRoom ext)
    (hok : appendFactUnderLock env s.facts fact = .ok outcome) :
    (s.after ext outcome).FollowsRoom ext ↔ KeepsClaimIndex ext s.facts outcome := by
  have hF' : IsLedger (s.after ext outcome).facts := isLedger_after hF hok
  rw [followsRoom_iff] at hbefore ⊢
  cases outcome with
  | recorded existing =>
    simp only [IndexedRoom.after, IndexedRoom.project, KeepsClaimIndex]
    cases hkind : refreshesClaimIndex existing.kind with
    | true => simpa using indexFromFacts_resolved_iff hF
    | false => simpa using hbefore
  | committed f =>
    have hledger : IsLedger (s.facts ++ [f]) := hF'
    simp only [IndexedRoom.after, IndexedRoom.project, KeepsClaimIndex]
    cases hkind : refreshesClaimIndex f.kind with
    | true => simpa using indexFromFacts_resolved_iff hledger
    | false =>
      rw [if_neg Bool.false_ne_true, if_neg Bool.false_ne_true, hbefore]
      exact roomIndex_append_iff hF hledger hkind

end Step

/-! ## Runs -/

section Runs

variable {ext : Externals} {s : IndexedRoom}

theorem isLedger_of_run (hrun : Relation.ReflTransGen (IndexStep ext) .empty s) : IsLedger s.facts := by
  induction hrun with
  | refl => exact IsLedger.nil
  | tail _ hstep ih =>
    obtain ⟨env, fact, outcome, -, hok, rfl⟩ := hstep
    exact isLedger_after ih hok

/-- An empty room shows no claim, and its index has no file. -/
theorem followsRoom_empty : IndexedRoom.empty.FollowsRoom ext := by
  rw [followsRoom_iff]
  rfl

/-- **The claim index follows the room** along every run of appends that keep the two together; and such an
append is needed at every step: one that is not parts index and room. -/
theorem claim_index_follows_room (ext : Externals) {s : IndexedRoom} :
    (Relation.ReflTransGen (KeepingIndexStep ext) .empty s → s.FollowsRoom ext) ∧
      (Relation.ReflTransGen (IndexStep ext) .empty s → s.FollowsRoom ext → ∀ env fact outcome,
        appendFactUnderLock env s.facts fact = .ok outcome →
        ((s.after ext outcome).FollowsRoom ext ↔ KeepsClaimIndex ext s.facts outcome)) := by
  have hforget : ∀ a b, KeepingIndexStep ext a b → IndexStep ext a b := by
    rintro a b ⟨env, fact, outcome, henv, hok, hnext, -⟩
    exact ⟨env, fact, outcome, henv, hok, hnext⟩
  refine ⟨fun hrun => ?_, fun hrun hfollows env fact outcome hok =>
    followsRoom_after_iff (isLedger_of_run hrun) hfollows hok⟩
  induction hrun with
  | refl => exact followsRoom_empty
  | tail hrun hstep ih =>
    obtain ⟨env, fact, outcome, -, hok, rfl, hkeeps⟩ := hstep
    have hledger := isLedger_of_run (Relation.ReflTransGen.mono hforget _ _ hrun)
    exact (followsRoom_after_iff hledger ih hok).mpr hkeeps

end Runs

namespace ClaimIndex

/-- Alice claims a file. -/
def held : Fact :=
  { eventId := "c1", seq := 1, kind := .claim, tool := some "alice", scope := ["file:src/lib.rs"]
    subject := "editing", createdAt := "2026-01-01T00:00:00Z" }

/-- Alice records the outcome of her claim, which closes it. -/
def recordedOutcome : Fact :=
  { eventId := "r1", seq := 2, kind := .receipt, tool := some "alice", refId := some "c1"
    subject := "done", createdAt := "2026-01-01T01:00:00Z" }

/-- The room after Alice's claim. -/
def heldRoom : IndexedRoom := IndexedRoom.empty.after .sample (.committed held)

theorem held_committed : appendFactUnderLock .sample IndexedRoom.empty.facts held = .ok (.committed held) := by
  decide

theorem recordedOutcome_committed :
    appendFactUnderLock .sample heldRoom.facts recordedOutcome = .ok (.committed recordedOutcome) := by
  decide

theorem held_keeps : KeepsClaimIndex .sample IndexedRoom.empty.facts (.committed held) := by
  have hnone : retractedIds (IndexedRoom.empty.facts ++ [held]) = [] := by decide
  have hresolved : resolvedFacts (IndexedRoom.empty.facts ++ [held]) = IndexedRoom.empty.facts ++ [held] := by
    decide
  simp only [KeepsClaimIndex, held, refreshesClaimIndex, if_true]
  intro claim _ _ _
  refine ⟨fun h => ?_, fun _ hclosed => ?_, fun _ _ m _ hm => ?_⟩
  · exact absurd h (by rw [← held, hnone]; exact List.not_mem_nil)
  · rwa [← held, hresolved]
  · exact absurd hm (by rw [← held, hnone]; exact List.not_mem_nil)

end ClaimIndex

/-- Alice's claim is indexed as the room shows it. -/
theorem claim_index_follows_room_held : ClaimIndex.heldRoom.FollowsRoom .sample :=
  (claim_index_follows_room .sample).1 (.single
    ⟨.sample, ClaimIndex.held, .committed ClaimIndex.held, rfl, ClaimIndex.held_committed, rfl,
      ClaimIndex.held_keeps⟩)

/-- A receipt ends the claim in the room, and the index still lists it. -/
theorem claim_index_outlives_receipt :
    Relation.ReflTransGen (IndexStep .sample) .empty
        (ClaimIndex.heldRoom.after .sample (.committed ClaimIndex.recordedOutcome)) ∧
      ¬(ClaimIndex.heldRoom.after .sample (.committed ClaimIndex.recordedOutcome)).FollowsRoom .sample := by
  have hheld : IndexStep .sample .empty ClaimIndex.heldRoom :=
    ⟨.sample, ClaimIndex.held, .committed ClaimIndex.held, rfl, ClaimIndex.held_committed, rfl⟩
  refine ⟨.tail (.single hheld) ?_, fun h => ?_⟩
  · exact ⟨.sample, ClaimIndex.recordedOutcome, _, rfl, ClaimIndex.recordedOutcome_committed, rfl⟩
  · have hc1 := congrFun (h {} false AppendEnv.sample.now) "c1"
    exact absurd hc1 (by decide)

end RallyPoint
