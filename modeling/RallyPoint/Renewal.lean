/-
# RallyPoint.Renewal — the claims a renewal finds, and the claims the room shows.

A renewal resolves its claim by `renewableClaimRecord` over the facts as they stand in the ledger; the room
resolves withdrawals first and projects claims from what is left. The two read the same rules of activity and
of the effective lease, so they part only where a withdrawal is between them: a withdrawn claim that nothing
closes can still be renewed, a claim whose closer was withdrawn is shown and cannot be, and the withdrawal of
the latest renewal takes the lease back in the room only. `renewalAgrees_iff` states the extent exactly.
-/
import RallyPoint.Append

namespace RallyPoint

open Lib

/-! ## The effective lease -/

section Lease

variable {ext : Externals} {facts : List Fact} {claim : Fact}

/-- No text starts with both lease markers. -/
theorem granted_not_expires {item : String} (h : startsWith leaseGrantedPrefix item = true) :
    startsWith leaseEvidencePrefix item = false := by
  by_contra hboth
  have hexpires := Bool.of_not_eq_false hboth
  obtain ⟨rest, hrest⟩ := List.isPrefixOf_iff_prefix.mp h
  obtain ⟨rest', hrest'⟩ := List.isPrefixOf_iff_prefix.mp hexpires
  rw [← hrest] at hrest'
  -- the two prefixes differ at their seventh character
  have hseventh := congrArg (fun l : List Char => l[6]?) hrest'
  have hlong : ∀ (pre l : List Char), 6 < pre.length → (pre ++ l)[6]? = pre[6]? := fun pre l hlt =>
    List.getElem?_append_left hlt
  simp only [hlong leaseEvidencePrefix.toList rest' (by decide),
    hlong leaseGrantedPrefix.toList rest (by decide)] at hseventh
  exact absurd hseventh (by decide)

theorem findSome_lease_skip_granted (evidence : List String) :
    (evidence.filter fun item => !startsWith leaseGrantedPrefix item).findSome?
        (stripPrefix leaseEvidencePrefix) = evidence.findSome? (stripPrefix leaseEvidencePrefix) := by
  induction evidence with
  | nil => rfl
  | cons item rest ih =>
    cases hgranted : startsWith leaseGrantedPrefix item with
    | false => simp [hgranted, List.findSome?_cons, ih]
    | true => simp [hgranted, ih, stripPrefix_eq_none (granted_not_expires hgranted)]

theorem stripPrefix_lease_granted (grantedAt : String) :
    stripPrefix leaseEvidencePrefix (leaseGrantedPrefix ++ grantedAt) = none := by
  refine stripPrefix_eq_none (granted_not_expires ?_)
  rw [startsWith, String.toList_append]
  exact List.isPrefixOf_iff_prefix.mpr (List.prefix_append _ _)

/-- The lease a claim is shown with: its latest renewal's, else its own. -/
theorem leaseExpiresAt_projectEffectiveClaim :
    leaseExpiresAt (projectEffectiveClaim ext claim facts) =
      (latestRenewedLease ext claim facts).or (leaseExpiresAt claim) := by
  unfold projectEffectiveClaim latestRenewedLease
  cases latestRenewal ext claim facts with
  | none =>
    simp only [leaseExpiresAt, List.findSome?_append, findSome_lease_skip_granted, List.findSome?_cons,
      stripPrefix_lease_granted, List.findSome?_nil, Option.or_none, Option.map_none, Option.none_or]
  | some renewal =>
    have hdropped : ∀ evidence : List String,
        (evidence.filter fun item => !startsWith leaseEvidencePrefix item).findSome?
          (stripPrefix leaseEvidencePrefix) = none := by
      intro evidence
      refine List.findSome?_eq_none_iff.mpr fun item hitem => stripPrefix_eq_none ?_
      simpa using (List.mem_filter.mp hitem).2
    simp only [leaseExpiresAt, List.findSome?_append, hdropped, List.findSome?_cons, stripPrefix_append,
      Option.none_or, Option.map_some, Option.some_or]

end Lease

/-! ## The latest renewal -/

/-- `m` renews `claim` last in `facts`: to the latest expiry, and of the renewals to that expiry as the last
one written. -/
def IsLatestRenewal (ext : Externals) (facts : List Fact) (claim m : Fact) : Prop :=
  m ∈ facts ∧ ∃ renewal, renewalOf ext claim m = some renewal ∧
    ∀ x ∈ facts, ∀ other, renewalOf ext claim x = some other →
      other.1 < renewal.1 ∨ other.1 = renewal.1 ∧ x.seq ≤ m.seq

section Latest

variable {ext : Externals} {facts : List Fact} {claim m : Fact}

theorem leaseExpiresAt_of_renewalOf {renewal : Int × String × String}
    (h : renewalOf ext claim m = some renewal) : leaseExpiresAt m = some renewal.2.1 := by
  unfold renewalOf at h
  split at h
  · obtain ⟨lease, hlease, h⟩ := Option.bind_eq_some_iff.mp h
    obtain ⟨parsed, -, rfl⟩ := Option.map_eq_some_iff.mp h
    exact hlease
  · cases h

theorem latestRenewedLease_eq_some_iff (hasc : facts.Pairwise fun a b => a.seq < b.seq) {lease : String} :
    latestRenewedLease ext claim facts = some lease ↔
      ∃ m, IsLatestRenewal ext facts claim m ∧ leaseExpiresAt m = some lease := by
  have hlatest : latestRenewedLease ext claim facts = some lease ↔
      ∃ renewal, maxByKey (fun r : Int × String × String => r.1) (facts.filterMap (renewalOf ext claim)) =
        some renewal ∧ renewal.2.1 = lease := by
    simp [latestRenewedLease, latestRenewal, Option.map_eq_some_iff]
  rw [hlatest]
  constructor
  · rintro ⟨renewal, hmax, rfl⟩
    obtain ⟨m, hm, hrenewal, hall⟩ := (maxByKey_filterMap_eq_some_iff hasc).mp hmax
    exact ⟨m, ⟨hm, renewal, hrenewal, hall⟩, leaseExpiresAt_of_renewalOf hrenewal⟩
  · rintro ⟨m, ⟨hm, renewal, hrenewal, hall⟩, hlease⟩
    refine ⟨renewal, (maxByKey_filterMap_eq_some_iff hasc).mpr ⟨m, hm, hrenewal, hall⟩, ?_⟩
    exact Option.some.inj ((leaseExpiresAt_of_renewalOf hrenewal).symm.trans hlease)

theorem latestRenewedLease_eq_none_iff :
    latestRenewedLease ext claim facts = none ↔ ∀ x ∈ facts, renewalOf ext claim x = none := by
  simp [latestRenewedLease, latestRenewal, maxByKey_eq_none_iff, List.filterMap_eq_nil_iff]

/-- A ledger has one latest renewal. -/
theorem IsLatestRenewal.unique (hseqs : ∀ x ∈ facts, ∀ y ∈ facts, x.seq = y.seq → x = y) {m' : Fact}
    (h : IsLatestRenewal ext facts claim m) (h' : IsLatestRenewal ext facts claim m') : m = m' := by
  obtain ⟨hm, renewal, hrenewal, hall⟩ := h
  obtain ⟨hm', renewal', hrenewal', hall'⟩ := h'
  refine hseqs m hm m' hm' ?_
  have hle := hall m' hm' renewal' hrenewal'
  have hge := hall' m hm renewal hrenewal
  omega

/-- Leaving other facts out does not change which renewal is latest. -/
theorem IsLatestRenewal.of_subset {part : List Fact} (h : IsLatestRenewal ext facts claim m)
    (hsub : part ⊆ facts) (hm : m ∈ part) : IsLatestRenewal ext part claim m := by
  obtain ⟨-, renewal, hrenewal, hall⟩ := h
  exact ⟨hm, renewal, hrenewal, fun x hx => hall x (hsub hx)⟩

end Latest

/-! ## Where the two derivations agree -/

/-- The lease of `claim` does not hang on a renewal that `ids` take away: the latest renewal stays, or the
latest one that stays (the claim itself, when none does) names the same expiry. -/
def LeaseSurvives (ext : Externals) (facts : List Fact) (ids : List String) (claim : Fact) : Prop :=
  ∀ m, IsLatestRenewal ext facts claim m → m.eventId ∈ ids →
    (∃ m', IsLatestRenewal ext (dropIds ids facts) claim m' ∧ leaseExpiresAt m' = leaseExpiresAt m) ∨
      (∀ x ∈ dropIds ids facts, renewalOf ext claim x = none) ∧ leaseExpiresAt claim = leaseExpiresAt m

/-- Withdrawals do not come between the renewal of `claim` and the room. -/
structure RenewalReadsRoom (ext : Externals) (F : List Fact) (claim : Fact) : Prop where
  /-- A withdrawn claim is closed besides. -/
  withdrawn : claim.eventId ∈ retractedIds F → ∃ x ∈ F, closesClaim x claim = true
  /-- A standing claim that is closed is closed by a standing fact. -/
  closed : claim.eventId ∉ retractedIds F → (∃ x ∈ F, closesClaim x claim = true) →
    ∃ x ∈ resolvedFacts F, closesClaim x claim = true
  /-- The lease of a standing claim that nothing closes stands. -/
  lease : claim.eventId ∉ retractedIds F → (∀ x ∈ F, closesClaim x claim = false) →
    LeaseSurvives ext F (retractedIds F) claim

/-- The renewal path finds `claimId` with effective lease `x` exactly when the room shows it with `x`. -/
def RenewalAgrees (ext : Externals) (room : RoomSnapshot) (F : List Fact) (claimId : String) : Prop :=
  ∀ x : Option String,
    (∃ record, renewableClaimRecord ext F claimId = some record ∧ record.leaseExpiresAt = x) ↔
      ∃ claim ∈ room.activeClaims, claim.eventId = claimId ∧ leaseExpiresAt claim = x

section Agreement

variable {ext : Externals} {F : List Fact} {claim : Fact}

/-- Taking facts away leaves a claim its lease exactly when the lease survives. -/
theorem leaseSurvives_iff {facts : List Fact} {ids : List String}
    (hasc : facts.Pairwise fun a b => a.seq < b.seq) :
    LeaseSurvives ext facts ids claim ↔
      leaseExpiresAt (projectEffectiveClaim ext claim facts) =
        leaseExpiresAt (projectEffectiveClaim ext claim (dropIds ids facts)) := by
  have hseqs : ∀ x ∈ facts, ∀ y ∈ facts, x.seq = y.seq → x = y := by
    refine fun x hx y hy => List.inj_on_of_nodup_map (List.nodup_iff_pairwise_ne.mpr ?_) hx hy
    exact List.pairwise_map.mpr (hasc.imp fun hlt => Int.ne_of_lt hlt)
  have hkept : (dropIds ids facts).Pairwise fun a b => a.seq < b.seq := hasc.sublist (dropIds_sublist ids facts)
  have hsub : dropIds ids facts ⊆ facts := (dropIds_sublist ids facts).subset
  rw [leaseExpiresAt_projectEffectiveClaim, leaseExpiresAt_projectEffectiveClaim]
  cases hlease : latestRenewedLease ext claim facts with
  | none =>
    have hskip := latestRenewedLease_eq_none_iff.mp hlease
    have hnone : latestRenewedLease ext claim (dropIds ids facts) = none :=
      latestRenewedLease_eq_none_iff.mpr fun x hx => hskip x (hsub hx)
    rw [hnone]
    refine iff_of_true (fun m hm => ?_) rfl
    obtain ⟨hmem, renewal, hrenewal, -⟩ := hm
    simp [hskip m hmem] at hrenewal
  | some lease =>
    obtain ⟨m, hm, hmlease⟩ := (latestRenewedLease_eq_some_iff hasc).mp hlease
    rw [Option.some_or]
    by_cases hgone : m.eventId ∈ ids
    · have hunique : LeaseSurvives ext facts ids claim ↔
          (∃ m', IsLatestRenewal ext (dropIds ids facts) claim m' ∧ leaseExpiresAt m' = leaseExpiresAt m) ∨
            (∀ x ∈ dropIds ids facts, renewalOf ext claim x = none) ∧
              leaseExpiresAt claim = leaseExpiresAt m := by
        refine ⟨fun h => h m hm hgone, fun h m₂ hm₂ _ => ?_⟩
        rwa [hm₂.unique hseqs hm]
      rw [hunique, hmlease]
      cases hlease' : latestRenewedLease ext claim (dropIds ids facts) with
      | some lease' =>
        obtain ⟨m', hm', hmlease'⟩ := (latestRenewedLease_eq_some_iff hkept).mp hlease'
        rw [Option.some_or]
        constructor
        · rintro (⟨m₂, hm₂, h⟩ | ⟨hskip, -⟩)
          · exact ((latestRenewedLease_eq_some_iff hkept).mpr ⟨m₂, hm₂, h⟩).symm.trans hlease'
          · rw [latestRenewedLease_eq_none_iff.mpr hskip] at hlease'
            cases hlease'
        · exact fun h => .inl ⟨m', hm', hmlease'.trans h.symm⟩
      | none =>
        rw [Option.none_or]
        constructor
        · rintro (⟨m₂, hm₂, h⟩ | ⟨-, h⟩)
          · rw [(latestRenewedLease_eq_some_iff hkept).mpr ⟨m₂, hm₂, h⟩] at hlease'
            cases hlease'
          · exact h.symm
        · exact fun h => .inr ⟨latestRenewedLease_eq_none_iff.mp hlease', h.symm⟩
    · -- a latest renewal that stays is the latest of those that stay
      have hm' := hm.of_subset hsub (mem_dropIds.mpr ⟨hm.1, hgone⟩)
      rw [(latestRenewedLease_eq_some_iff hkept).mpr ⟨m, hm', hmlease⟩, Option.some_or]
      refine iff_of_true (fun m₂ hm₂ hgone₂ => ?_) rfl
      rw [hm₂.unique hseqs hm] at hgone₂
      exact absurd hgone₂ hgone

/-- The lease the ledger gives is the lease the room gives. -/
theorem leaseSurvives_retracted_iff (hF : F.Pairwise fun a b => a.seq < b.seq) :
    LeaseSurvives ext F (retractedIds F) claim ↔
      leaseExpiresAt (projectEffectiveClaim ext claim F) =
        leaseExpiresAt (projectEffectiveClaim ext claim (resolvedFacts F)) := by
  rw [leaseSurvives_iff hF, resolvedFacts_eq]

/-- The claim a renewal finds, with distinct ids. -/
theorem renewableClaimRecord_lease_iff (hids : (F.map (·.eventId)).Nodup) (hmem : claim ∈ F) {x : Option String} :
    (∃ record, renewableClaimRecord ext F claim.eventId = some record ∧ record.leaseExpiresAt = x) ↔
      isActiveClaimFact claim F = true ∧ leaseExpiresAt (projectEffectiveClaim ext claim F) = x := by
  simp only [renewableClaimRecord, Option.map_eq_some_iff]
  constructor
  · rintro ⟨record, ⟨found, hfound, rfl⟩, rfl⟩
    have hfound' := List.find?_some hfound
    simp only [Bool.and_eq_true, beq_iff_eq] at hfound'
    obtain rfl := List.inj_on_of_nodup_map hids (List.mem_of_find?_eq_some hfound) hmem hfound'.1
    exact ⟨hfound'.2, rfl⟩
  · rintro ⟨hactive, rfl⟩
    have hsome : (F.find? fun fact => fact.eventId == claim.eventId && isActiveClaimFact fact F).isSome := by
      rw [List.find?_isSome]
      exact ⟨claim, hmem, by simp [hactive]⟩
    obtain ⟨found, hfound⟩ := Option.isSome_iff_exists.mp hsome
    have hfound' := List.find?_some hfound
    simp only [Bool.and_eq_true, beq_iff_eq] at hfound'
    obtain rfl := List.inj_on_of_nodup_map hids (List.mem_of_find?_eq_some hfound) hmem hfound'.1
    exact ⟨_, ⟨found, hfound, rfl⟩, rfl⟩

theorem mem_activeClaims_lease_iff (hids : (F.map (·.eventId)).Nodup) (hmem : claim ∈ F) {x : Option String} :
    (∃ c ∈ projectActiveClaims ext (resolvedFacts F), c.eventId = claim.eventId ∧ leaseExpiresAt c = x) ↔
      ActiveIn F claim ∧ leaseExpiresAt (projectEffectiveClaim ext claim (resolvedFacts F)) = x := by
  constructor
  · rintro ⟨c, hc, hid, rfl⟩
    obtain ⟨found, hfound, hactive, rfl⟩ := mem_projectActiveClaims.mp hc
    rw [projectEffectiveClaim_eventId] at hid
    obtain rfl := List.inj_on_of_nodup_map hids (mem_resolvedFacts.mp hfound).1 hmem hid
    exact ⟨⟨hfound, hactive⟩, rfl⟩
  · rintro ⟨⟨hresolved, hactive⟩, rfl⟩
    exact ⟨_, mem_projectActiveClaims.mpr ⟨claim, hresolved, hactive, rfl⟩, by simp, rfl⟩

/-- One claim: renewal and room agree exactly where no withdrawal comes between them. -/
theorem renewalReadsRoom_iff (hF : F.Pairwise fun a b => a.seq < b.seq) (hmem : claim ∈ F)
    (hlocal : isLocalClaim claim = true) :
    RenewalReadsRoom ext F claim ↔
      ∀ x, isActiveClaimFact claim F = true ∧ leaseExpiresAt (projectEffectiveClaim ext claim F) = x ↔
        ActiveIn F claim ∧ leaseExpiresAt (projectEffectiveClaim ext claim (resolvedFacts F)) = x := by
  have hraw : isActiveClaimFact claim F = true ↔ ∀ x ∈ F, closesClaim x claim = false := by
    simp [isActiveClaimFact_iff, hlocal]
  have hroom : ActiveIn F claim ↔
      claim.eventId ∉ retractedIds F ∧ ∀ x ∈ resolvedFacts F, closesClaim x claim = false := by
    rw [ActiveIn, mem_resolvedFacts, isActiveClaimFact_iff]
    simp only [hmem, hlocal, true_and]
  have hsub : resolvedFacts F ⊆ F := (resolvedFacts_sublist F).subset
  constructor
  · rintro ⟨hwithdrawn, hclosed, hlease⟩ x
    by_cases hgone : claim.eventId ∈ retractedIds F
    · obtain ⟨y, hy, hcloses⟩ := hwithdrawn hgone
      refine iff_of_false (fun h => ?_) (fun h => (hroom.mp h.1).1 hgone)
      simp [hraw.mp h.1 y hy] at hcloses
    · by_cases hopen : ∀ x ∈ F, closesClaim x claim = false
      · rw [(leaseSurvives_retracted_iff hF).mp (hlease hgone hopen)]
        exact and_congr_left' (iff_of_true (hraw.mpr hopen)
          (hroom.mpr ⟨hgone, fun y hy => hopen y (hsub hy)⟩))
      · obtain ⟨y, hy, hcloses⟩ : ∃ y ∈ F, closesClaim y claim = true := by simpa using hopen
        obtain ⟨z, hz, hcloses'⟩ := hclosed hgone ⟨y, hy, hcloses⟩
        refine iff_of_false (fun h => hopen (hraw.mp h.1)) (fun h => ?_)
        simp [(hroom.mp h.1).2 z hz] at hcloses'
  · intro h
    refine ⟨fun hgone => ?_, fun hgone hany => ?_, fun hgone hopen => ?_⟩
    · by_contra hnone
      have hactive : isActiveClaimFact claim F = true := hraw.mpr (by simpa using hnone)
      exact (hroom.mp ((h _).mp ⟨hactive, rfl⟩).1).1 hgone
    · by_contra hnone
      have hactive : ActiveIn F claim := hroom.mpr ⟨hgone, by simpa using hnone⟩
      obtain ⟨y, hy, hcloses⟩ := hany
      simp [hraw.mp ((h _).mpr ⟨hactive, rfl⟩).1 y hy] at hcloses
    · exact (leaseSurvives_retracted_iff hF).mpr ((h _).mp ⟨hraw.mpr hopen, rfl⟩).2.symm

end Agreement

/-- **Renewal sees the room's claims.** Over a ledger, the renewal path finds a claim id with exactly the
lease the room shows it with, and with none when the room does not show it, if and only if no withdrawal
comes between them for the local claim of that id. -/
theorem renewalAgrees_iff (ext : Externals) {F : List Fact} (coord : CoordinationConfig)
    (includeArchived : Bool) (now : Int) (claimId : String) (hF : IsLedger F) :
    RenewalAgrees ext (snapshotFromFactsWithPolicy ext F coord includeArchived now) F claimId ↔
      ∀ claim ∈ F, claim.eventId = claimId → isLocalClaim claim = true → RenewalReadsRoom ext F claim := by
  constructor
  · rintro h claim hmem rfl hlocal
    rw [renewalReadsRoom_iff hF.ascending hmem hlocal]
    intro x
    rw [← renewableClaimRecord_lease_iff hF.distinctIds hmem, ← mem_activeClaims_lease_iff hF.distinctIds hmem]
    exact h x
  · intro h x
    by_cases hclaim : ∃ claim ∈ F, claim.eventId = claimId ∧ isLocalClaim claim = true
    · obtain ⟨claim, hmem, rfl, hlocal⟩ := hclaim
      rw [renewableClaimRecord_lease_iff hF.distinctIds hmem, snapshot_activeClaims,
        mem_activeClaims_lease_iff hF.distinctIds hmem]
      exact (renewalReadsRoom_iff hF.ascending hmem hlocal).mp (h claim hmem rfl hlocal) x
    · -- neither side shows an id that no local claim bears
      refine iff_of_false ?_ ?_
      · rintro ⟨record, hrecord, -⟩
        obtain ⟨found, hfound, -⟩ := Option.map_eq_some_iff.mp hrecord
        have hfound' := List.find?_some hfound
        simp only [Bool.and_eq_true, beq_iff_eq] at hfound'
        exact hclaim ⟨found, List.mem_of_find?_eq_some hfound, hfound'.1, (isActiveClaimFact_iff.mp hfound'.2).1⟩
      · rintro ⟨c, hc, hid, -⟩
        obtain ⟨found, hfound, hactive, rfl⟩ := mem_projectActiveClaims.mp hc
        rw [projectEffectiveClaim_eventId] at hid
        exact hclaim ⟨found, (mem_resolvedFacts.mp hfound).1, hid, (isActiveClaimFact_iff.mp hactive).1⟩

namespace Renewal

/-- Alice claims a file until one o'clock. -/
def leasedClaim : Fact :=
  { eventId := "c1", seq := 1, kind := .claim, tool := some "alice", scope := ["src/lib.rs"]
    evidence := ["lease_expires_at:2026-01-01T01:00:00Z"], subject := "editing"
    createdAt := "2026-01-01T00:00:00Z" }

def withdrawal : Fact :=
  { eventId := "x1", seq := 2, kind := .artifact, tool := some "alice", subject := "retract: c1"
    createdAt := "2026-01-01T00:00:00Z" }

def renewal : Fact :=
  { eventId := "n1", kind := .claimRenewed, tool := some "alice", refId := some "c1", scope := ["src/lib.rs"]
    evidence := ["lease_expires_at:2026-01-01T12:00:00Z"], subject := "claim lease renewed: c1"
    createdAt := "2026-01-01T00:00:00Z" }

end Renewal

/-- The room does not show a withdrawn claim, and its renewal is committed. -/
theorem withdrawn_claim_renewed :
    appendFactUnderLock .sample [Renewal.leasedClaim, Renewal.withdrawal] Renewal.renewal =
        .ok (.committed { Renewal.renewal with seq := 3 }) ∧
      (AppendEnv.sample.snapshot [Renewal.leasedClaim, Renewal.withdrawal]).activeClaims = [] ∧
      ¬RenewalAgrees .sample (AppendEnv.sample.snapshot [Renewal.leasedClaim, Renewal.withdrawal])
        [Renewal.leasedClaim, Renewal.withdrawal] "c1" := by
  have hgone : (AppendEnv.sample.snapshot [Renewal.leasedClaim, Renewal.withdrawal]).activeClaims = [] := by
    decide
  refine ⟨by decide, hgone, fun h => ?_⟩
  have hfound : ∃ record, renewableClaimRecord .sample [Renewal.leasedClaim, Renewal.withdrawal] "c1" =
      some record ∧ record.leaseExpiresAt = some "2026-01-01T01:00:00Z" :=
    ⟨_, rfl, by decide⟩
  obtain ⟨claim, hclaim, -⟩ := (h _).mp hfound
  simp [hgone] at hclaim

/-- With the claim alone, renewal and room agree. -/
theorem renewalAgrees_iff_leased :
    RenewalAgrees .sample (AppendEnv.sample.snapshot [Renewal.leasedClaim]) [Renewal.leasedClaim] "c1" ↔
      ∀ claim ∈ [Renewal.leasedClaim], claim.eventId = "c1" → isLocalClaim claim = true →
        RenewalReadsRoom .sample [Renewal.leasedClaim] claim :=
  renewalAgrees_iff .sample {} false AppendEnv.sample.now "c1"
    ⟨List.pairwise_singleton _ _, by decide, by decide⟩

end RallyPoint
