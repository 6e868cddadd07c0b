/-
# RallyPoint.LeaseRuns — leases over whole runs: what the append gate compares and what the room shows.

A renewal is admitted when its expiry lies after the current one of the claim, and the room shows a claim
with its latest renewal. Over a run that withdraws nothing the two meet: the shown lease moves only by
renewals of the claim's owner, each of them forward (`leasesForward_of_run`), whatever marker the claim
itself was written with.

The gate parses the text of the current lease as it stands, and the room's reader trims it first. A lease
written with a blank after its marker is therefore a lease to the room and none to the gate, which then
admits a renewal to an earlier time.
-/
import RallyPoint.Exclusivity
import RallyPoint.Renewal

namespace RallyPoint

open Lib

/-! ## The shown lease -/

/-- A room shown over the ledger `F`, under some policy and at some instant. -/
def ShownOver (ext : Externals) (F : List Fact) (room : RoomSnapshot) : Prop :=
  ∃ coord includeArchived now, room = snapshotFromFactsWithPolicy ext F coord includeArchived now

/-- The expiry a renewal asks for, as the gate parses it. -/
def requestedLease (ext : Externals) (f : Fact) : Option Int :=
  (leaseExpiresAt f).bind ext.parseFromRfc3339

/-- `f` renews the claim `c`. -/
def RenewsClaim (f c : Fact) : Prop := f.kind = .claimRenewed ∧ f.refId = some c.eventId

/-- The author of `f` owns the claim `c`. -/
def OwnsClaim (f c : Fact) : Prop :=
  claimOwnerMatchesCaller c.tool c.fromSessionId f.tool f.fromSessionId = true

/-- Leases move forward along the ledger `F`, read off the claims of the rooms by `lease`. -/
structure LeasesForward (ext : Externals) (lease : Fact → Option Int) (F : List Fact) : Prop where
  /-- A claim shown at two times has not lost lease. -/
  advances : ∀ earlier later room room' c c', earlier <+: later → later <+: F → ShownOver ext earlier room →
    ShownOver ext later room' → c ∈ room.activeClaims → c' ∈ room'.activeClaims →
    c'.eventId = c.eventId → ∀ e, lease c = some e → ∃ e', lease c' = some e' ∧ e ≤ e'
  /-- Only its owner's renewals change the lease of a claim. -/
  changed : ∀ before f room room' c c', before ++ [f] <+: F → ShownOver ext before room →
    ShownOver ext (before ++ [f]) room' → c ∈ room.activeClaims → c' ∈ room'.activeClaims →
    c'.eventId = c.eventId → lease c' ≠ lease c → RenewsClaim f c ∧ OwnsClaim f c
  /-- Every renewal is later than what it renews, and is what the room then shows. -/
  renewed : ∀ before f room room' c c', before ++ [f] <+: F → ShownOver ext before room →
    ShownOver ext (before ++ [f]) room' → c ∈ room.activeClaims → c' ∈ room'.activeClaims →
    c'.eventId = c.eventId → RenewsClaim f c →
    ∃ t, requestedLease ext f = some t ∧ lease c' = some t ∧ ∀ e, lease c = some e → e < t

section Shown

variable {ext : Externals} {F : List Fact} {room : RoomSnapshot} {c : Fact}

/-- Where nothing is withdrawn, a shown claim is an active claim of the ledger with its effective lease. -/
theorem mem_activeClaims_of_shownOver (hroom : ShownOver ext F room) (hkept : resolvedFacts F = F) :
    c ∈ room.activeClaims ↔
      ∃ x ∈ F, isActiveClaimFact x F = true ∧ c = projectEffectiveClaim ext x F := by
  obtain ⟨coord, includeArchived, now, rfl⟩ := hroom
  rw [snapshot_activeClaims, hkept, mem_projectActiveClaims]

end Shown

/-! ## The gate of a renewal -/

section Gate

variable {ext : Externals} {F : List Fact} {f x : Fact}

/-- **What an admitted renewal has passed.** The claim is an active one of its author, the requested expiry
parses, and it is after the current one where that parses as it stands. -/
theorem AppendStep.renewal (hstep : AppendStep ext F f) (hkind : f.kind = .claimRenewed) :
    ∃ claimId current t, f.refId = some claimId ∧ renewableClaimRecord ext F claimId = some current ∧
      claimOwnerMatchesCaller current.ownerTool current.fromSessionId f.tool f.fromSessionId = true ∧
      requestedLease ext f = some t ∧
      ∀ e, current.leaseExpiresAt.bind ext.parseFromRfc3339 = some e → e < t := by
  obtain ⟨env, fact, rfl, hok⟩ := hstep
  obtain ⟨-, -, -, -, happend, -, rfl⟩ := appendFactUnderLock_committed_iff.mp hok
  have hgate := (assertAppendable_ok_iff.mp happend).2.2.2.1
  have hkind' : fact.kind = .claimRenewed := hkind
  simp only [assertRenewal, hkind', bne_self_eq_false, Bool.false_eq_true, if_false] at hgate
  cases href : fact.refId with
  | none => simp [href] at hgate
  | some claimId =>
    simp only [href] at hgate
    cases hcurrent : renewableClaimRecord env.ext F claimId with
    | none => simp [hcurrent] at hgate
    | some current =>
      simp only [hcurrent] at hgate
      cases howner : claimOwnerMatchesCaller current.ownerTool current.fromSessionId fact.tool
          fact.fromSessionId with
      | false => simp [howner] at hgate
      | true =>
        simp only [howner, Bool.not_true, Bool.false_eq_true, if_false] at hgate
        cases hraw : leaseExpiresAt fact with
        | none => simp [hraw] at hgate
        | some raw =>
          simp only [hraw] at hgate
          cases hrequested : env.ext.parseFromRfc3339 raw with
          | none => simp [hrequested] at hgate
          | some t =>
            simp only [hrequested] at hgate
            have hlease : requestedLease env.ext fact = some t := by
              rw [requestedLease, hraw, Option.bind_some, hrequested]
            refine ⟨claimId, current, t, rfl, hcurrent, howner, hlease, fun e he => ?_⟩
            simp only [he] at hgate
            by_contra hle
            simp [Int.not_lt.mp hle] at hgate

/-- A renewal that the projection counts is one of the claim by its owner, and parses. -/
theorem renewalOf_eq_some_iff {renewal : Int × String × String} :
    renewalOf ext x f = some renewal ↔
      RenewsClaim f x ∧ OwnsClaim f x ∧ leaseExpiresAt f = some renewal.2.1 ∧
        ext.parseFromRfc3339 renewal.2.1 = some renewal.1 ∧ f.createdAt = renewal.2.2 := by
  obtain ⟨parsed, raw, grantedAt⟩ := renewal
  unfold renewalOf RenewsClaim OwnsClaim
  split
  case isTrue h =>
    simp only [Bool.and_eq_true, beq_iff_eq] at h
    simp only [h, and_self, true_and, Option.bind_eq_some_iff, Option.map_eq_some_iff, Prod.mk.injEq,
      parseTime]
    constructor
    · rintro ⟨lease, hlease, parsed', hparsed, rfl, rfl, rfl⟩
      exact ⟨hlease, hparsed, rfl⟩
    · rintro ⟨hlease, hparsed, rfl⟩
      exact ⟨raw, hlease, parsed, hparsed, rfl, rfl, rfl⟩
  case isFalse h =>
    refine iff_of_false (by simp) fun hrenews => h ?_
    simp [hrenews.1.1, hrenews.1.2, hrenews.2.1]

end Gate

/-! ## The effective lease after one more fact -/

/-- The text of the lease `x` has over `F`: its latest renewal's, else its own. -/
def leaseText (ext : Externals) (F : List Fact) (x : Fact) : Option String :=
  leaseExpiresAt (projectEffectiveClaim ext x F)

section Text

variable {ext : Externals} {F : List Fact} {f x : Fact}

/-- A fact that does not renew the claim leaves its lease alone. -/
theorem leaseText_append_of_none (h : renewalOf ext x f = none) :
    leaseText ext (F ++ [f]) x = leaseText ext F x := by
  have hsame : latestRenewal ext x (F ++ [f]) = latestRenewal ext x F := by
    simp [latestRenewal, List.filterMap_append, h]
  simp only [leaseText, leaseExpiresAt_projectEffectiveClaim, latestRenewedLease, hsame]

/-- Every renewal of a claim is within the lease the claim has. -/
theorem renewal_le_leaseText (hF : F.Pairwise fun a b => a.seq < b.seq) {m : Fact} (hm : m ∈ F)
    {renewal : Int × String × String} (hrenewal : renewalOf ext x m = some renewal) :
    ∃ e, (leaseText ext F x).bind ext.parseFromRfc3339 = some e ∧ renewal.1 ≤ e := by
  rw [leaseText, leaseExpiresAt_projectEffectiveClaim]
  cases hlatest : latestRenewedLease ext x F with
  | none =>
    rw [latestRenewedLease_eq_none_iff.mp hlatest m hm] at hrenewal
    cases hrenewal
  | some lease =>
    obtain ⟨m', ⟨-, renewal', hrenewal', hall⟩, hlease⟩ := (latestRenewedLease_eq_some_iff hF).mp hlatest
    obtain ⟨-, -, hraw, hparsed, -⟩ := renewalOf_eq_some_iff.mp hrenewal'
    obtain rfl : renewal'.2.1 = lease := Option.some.inj (hraw.symm.trans hlease)
    refine ⟨renewal'.1, by simp [hparsed], ?_⟩
    have hle := hall m hm renewal hrenewal
    omega

/-- A renewal after the lease a claim has becomes its lease. -/
theorem leaseText_append_of_renewal (hF : (F ++ [f]).Pairwise fun a b => a.seq < b.seq)
    {renewal : Int × String × String} (hrenewal : renewalOf ext x f = some renewal)
    (hlater : ∀ e, (leaseText ext F x).bind ext.parseFromRfc3339 = some e → e < renewal.1) :
    leaseText ext (F ++ [f]) x = some renewal.2.1 := by
  have hasc : F.Pairwise fun a b => a.seq < b.seq := (List.pairwise_append.mp hF).1
  have hlatest : IsLatestRenewal ext (F ++ [f]) x f := by
    refine ⟨by simp, renewal, hrenewal, fun m hm other hother => ?_⟩
    rcases List.mem_append.mp hm with hm | hm
    · obtain ⟨e, he, hle⟩ := renewal_le_leaseText hasc hm hother
      exact .inl (lt_of_le_of_lt hle (hlater e he))
    · obtain rfl := List.mem_singleton.mp hm
      obtain rfl := Option.some.inj (hother.symm.trans hrenewal)
      exact .inr ⟨rfl, le_rfl⟩
  rw [leaseText, leaseExpiresAt_projectEffectiveClaim,
    (latestRenewedLease_eq_some_iff hF).mpr ⟨f, hlatest, leaseExpiresAt_of_renewalOf hrenewal⟩, Option.some_or]

end Text

/-! ## One admitted append -/

/-- Where `f` renews a claim whose lease parses only as `read` reads it, it is later than that reading. -/
def ComparesLease (ext : Externals) (read : String → Option Int) (F : List Fact) (f : Fact) : Prop :=
  ∀ claimId current raw e t, f.kind = .claimRenewed → f.refId = some claimId →
    renewableClaimRecord ext F claimId = some current → current.leaseExpiresAt = some raw →
    ext.parseFromRfc3339 raw = none → read raw = some e → requestedLease ext f = some t → e < t

section Step

variable {ext : Externals} {read : String → Option Int} {F : List Fact} {f x : Fact}

theorem renewableClaimRecord_eq_some {claimId : String} {current : ActiveClaimRecord}
    (h : renewableClaimRecord ext F claimId = some current) :
    ∃ x ∈ F, x.eventId = claimId ∧ isActiveClaimFact x F = true ∧ current.ownerTool = x.tool ∧
      current.fromSessionId = x.fromSessionId ∧ current.leaseExpiresAt = leaseText ext F x := by
  obtain ⟨x, hfind, rfl⟩ := Option.map_eq_some_iff.mp h
  have hfound := List.find?_some hfind
  simp only [Bool.and_eq_true, beq_iff_eq] at hfound
  exact ⟨x, List.mem_of_find?_eq_some hfind, hfound.1, hfound.2, by simp, by simp, rfl⟩

/-- **One admitted renewal.** The author owns the claim, and the lease becomes the requested one, later than
what it was. -/
theorem leaseText_append_of_renews (hstep : AppendStep ext F f) (hF : IsLedger F)
    (hread : ∀ raw t, ext.parseFromRfc3339 raw = some t → read raw = some t)
    (hcompares : ComparesLease ext read F f) (hx : x ∈ F) (hrenews : RenewsClaim f x) :
    OwnsClaim f x ∧ ∃ t, requestedLease ext f = some t ∧
      (leaseText ext (F ++ [f]) x).bind read = some t ∧
      ∀ e, (leaseText ext F x).bind read = some e → e < t := by
  obtain ⟨hkind, href⟩ := hrenews
  obtain ⟨claimId, current, t, href', hcurrent, howner, hrequested, hlater⟩ := hstep.renewal hkind
  obtain ⟨x', hx', hid, -, htool, hsession, hlease⟩ := renewableClaimRecord_eq_some hcurrent
  -- the claim the gate found is the claim that is renewed
  obtain rfl : x' = x := by
    refine List.inj_on_of_nodup_map hF.distinctIds hx' hx ?_
    rw [hid]
    exact Option.some.inj (href'.symm.trans href)
  rw [htool, hsession] at howner
  rw [hlease] at hlater
  obtain ⟨raw, hraw, hparsed⟩ := Option.bind_eq_some_iff.mp hrequested
  have hrenewal : renewalOf ext x' f = some (t, raw, f.createdAt) :=
    renewalOf_eq_some_iff.mpr ⟨⟨hkind, href⟩, howner, hraw, hparsed, rfl⟩
  refine ⟨howner, t, hrequested, ?_, fun e he => ?_⟩
  · rw [leaseText_append_of_renewal (hstep.isLedger hF).1.ascending hrenewal hlater, Option.bind_some]
    exact hread raw t hparsed
  · obtain ⟨current', hcurrent', hreads⟩ := Option.bind_eq_some_iff.mp he
    cases hstands : ext.parseFromRfc3339 current' with
    | some e' =>
      obtain rfl : e' = e := Option.some.inj ((hread current' e' hstands).symm.trans hreads)
      exact hlater e' (by rw [hcurrent', Option.bind_some, hstands])
    | none =>
      exact hcompares claimId current current' e t hkind href' hcurrent (hlease.trans hcurrent') hstands
        hreads hrequested

/-- What renews nothing changes nothing. -/
theorem leaseText_append_of_not_renews (h : ¬(RenewsClaim f x ∧ OwnsClaim f x)) :
    leaseText ext (F ++ [f]) x = leaseText ext F x := by
  refine leaseText_append_of_none ?_
  by_contra hsome
  obtain ⟨renewal, hrenewal⟩ := Option.ne_none_iff_exists'.mp hsome
  obtain ⟨hrenews, howns, -⟩ := renewalOf_eq_some_iff.mp hrenewal
  exact h ⟨hrenews, howns⟩

/-- An admitted append never takes lease from a claim. -/
theorem leaseText_append_le (hstep : AppendStep ext F f) (hF : IsLedger F)
    (hread : ∀ raw t, ext.parseFromRfc3339 raw = some t → read raw = some t)
    (hcompares : ComparesLease ext read F f) (hx : x ∈ F) {e : Int}
    (he : (leaseText ext F x).bind read = some e) :
    ∃ e', (leaseText ext (F ++ [f]) x).bind read = some e' ∧ e ≤ e' := by
  by_cases hrenews : RenewsClaim f x ∧ OwnsClaim f x
  · obtain ⟨-, t, -, hlease, hlater⟩ := leaseText_append_of_renews hstep hF hread hcompares hx hrenews.1
    exact ⟨t, hlease, (hlater e he).le⟩
  · exact ⟨e, by rw [leaseText_append_of_not_renews hrenews, he], le_rfl⟩

end Step

/-! ## Whole runs -/

/-- One admitted append that withdraws nothing. -/
def LeaseStep (ext : Externals) (F : List Fact) (f : Fact) : Prop := AppendStep ext F f ∧ targetOf f = none

section Runs

variable {ext : Externals} {read : String → Option Int} {F : List Fact}

theorem isLedger_of_leaseRun (h : Reachable (LeaseStep ext) F) : IsLedger F :=
  isLedger_of_reachable (h.mono fun _ _ hstep => hstep.1)

theorem resolvedFacts_of_leaseRun (h : Reachable (LeaseStep ext) F) : resolvedFacts F = F :=
  resolvedFacts_of_none (h.forall_mem fun _ _ hstep => hstep.2)

/-- Along a run whose renewals are all later, the lease of a claim is never taken back. -/
theorem leaseText_mono (hread : ∀ raw t, ext.parseFromRfc3339 raw = some t → read raw = some t)
    (hrun : Reachable (LeaseStep ext) F)
    (hcompares : ∀ before f, before ++ [f] <+: F → ComparesLease ext read before f)
    {earlier : List Fact} (hpre : earlier <+: F) {x : Fact} (hx : x ∈ earlier) {e : Int}
    (he : (leaseText ext earlier x).bind read = some e) :
    ∃ e', (leaseText ext F x).bind read = some e' ∧ e ≤ e' := by
  induction hrun with
  | empty =>
    rw [List.prefix_nil.mp hpre] at hx
    cases hx
  | append hlog hstep ih =>
    rcases List.prefix_concat_iff.mp hpre with rfl | hpre
    · exact ⟨e, he, le_rfl⟩
    · obtain ⟨e₁, he₁, hle₁⟩ :=
        ih (fun before f hbefore => hcompares before f (hbefore.trans (List.prefix_append _ _))) hpre
      obtain ⟨e₂, he₂, hle₂⟩ := leaseText_append_le hstep.1 (isLedger_of_leaseRun hlog) hread
        (hcompares _ _ (List.prefix_refl _)) (hpre.subset hx) he₁
      exact ⟨e₂, he₂, hle₁.trans hle₂⟩

/-- The claim two rooms of one run show under an id is one claim of the ledger. -/
theorem shown_claims_eq {earlier later : List Fact} {room room' : RoomSnapshot} {c c' : Fact}
    (hrun : Reachable (LeaseStep ext) later) (hpre : earlier <+: later)
    (hroom : ShownOver ext earlier room) (hroom' : ShownOver ext later room')
    (hc : c ∈ room.activeClaims) (hc' : c' ∈ room'.activeClaims) (hid : c'.eventId = c.eventId) :
    ∃ x ∈ earlier, c = projectEffectiveClaim ext x earlier ∧ c' = projectEffectiveClaim ext x later := by
  have hkept := resolvedFacts_of_leaseRun (hrun.of_prefix hpre)
  obtain ⟨x, hx, -, rfl⟩ := (mem_activeClaims_of_shownOver hroom hkept).mp hc
  obtain ⟨x', hx', -, rfl⟩ :=
    (mem_activeClaims_of_shownOver hroom' (resolvedFacts_of_leaseRun hrun)).mp hc'
  simp only [projectEffectiveClaim_eventId] at hid
  obtain rfl : x' = x :=
    List.inj_on_of_nodup_map (isLedger_of_leaseRun hrun).distinctIds hx' (hpre.subset hx) hid
  exact ⟨x', hx, rfl, rfl⟩

/-- A renewal keeps the claim it renews active. -/
theorem isActiveClaimFact_append_of_renews {f x : Fact} (hkind : f.kind = .claimRenewed)
    (hactive : isActiveClaimFact x F = true) : isActiveClaimFact x (F ++ [f]) = true := by
  obtain ⟨hlocal, hopen⟩ := isActiveClaimFact_iff.mp hactive
  refine isActiveClaimFact_iff.mpr ⟨hlocal, fun y hy => ?_⟩
  rcases List.mem_append.mp hy with hy | hy
  · exact hopen y hy
  · rw [List.mem_singleton.mp hy]
    simp [closesClaim, laterFactRefsClaim, laterReleaseOverlapsClaimScope, laterSessionCloseMatchesClaim,
      isSessionCloseFact, isSessionCloseAttempt, closesActiveClaim, hkind]

/-- **When leases move forward.** Under a reading of lease texts that agrees with the parser where that reads
one, the leases of a run move forward exactly when every renewal is later than what the reading sees and
the parser does not. -/
theorem leasesForward_iff (hread : ∀ raw t, ext.parseFromRfc3339 raw = some t → read raw = some t)
    (hrun : Reachable (LeaseStep ext) F) :
    LeasesForward ext (fun c => (leaseExpiresAt c).bind read) F ↔
      ∀ before f, before ++ [f] <+: F → ComparesLease ext read before f := by
  constructor
  · intro hforward before f hpre claimId current raw e t hkind href hcurrent hraw _ hreads hrequested
    obtain ⟨x, hx, rfl, hactive, -, -, hlease⟩ := renewableClaimRecord_eq_some hcurrent
    have hafter := hrun.of_prefix hpre
    have hbefore := hafter.of_append_singleton.1
    -- the claim is shown before the renewal and after it
    have hroom : ShownOver ext before (snapshotFromFactsWithPolicy ext before {} false 0) := ⟨_, _, _, rfl⟩
    have hroom' : ShownOver ext (before ++ [f]) (snapshotFromFactsWithPolicy ext (before ++ [f]) {} false 0) :=
      ⟨_, _, _, rfl⟩
    have hc := (mem_activeClaims_of_shownOver hroom (resolvedFacts_of_leaseRun hbefore)).mpr
      ⟨x, hx, hactive, rfl⟩
    have hc' := (mem_activeClaims_of_shownOver hroom' (resolvedFacts_of_leaseRun hafter)).mpr
      ⟨x, List.mem_append_left _ hx, isActiveClaimFact_append_of_renews hkind hactive, rfl⟩
    obtain ⟨t', hrequested', -, hlater⟩ := hforward.renewed before f _ _ _ _ hpre hroom hroom' hc hc'
      (by simp) ⟨hkind, by simpa using href⟩
    obtain rfl : t' = t := Option.some.inj (hrequested'.symm.trans hrequested)
    refine hlater e ?_
    have htext : leaseText ext before x = some raw := hlease.symm.trans hraw
    exact (congrArg (fun text : Option String => text.bind read) htext).trans hreads
  · intro hcompares
    refine ⟨?_, ?_, ?_⟩
    · intro earlier later room room' c c' hpre hlater hroom hroom' hc hc' hid e he
      obtain ⟨x, hx, rfl, rfl⟩ := shown_claims_eq (hrun.of_prefix hlater) hpre hroom hroom' hc hc' hid
      exact leaseText_mono hread (hrun.of_prefix hlater)
        (fun before f hbefore => hcompares before f (hbefore.trans hlater)) hpre hx he
    · intro before f room room' c c' hpre hroom hroom' hc hc' hid hne
      obtain ⟨x, hx, rfl, rfl⟩ :=
        shown_claims_eq (hrun.of_prefix hpre) (List.prefix_append _ _) hroom hroom' hc hc' hid
      by_contra hrenews
      have hsame := @leaseText_append_of_not_renews ext before f x
        (by simpa [RenewsClaim, OwnsClaim] using hrenews)
      exact hne (congrArg (fun text : Option String => text.bind read) hsame)
    · intro before f room room' c c' hpre hroom hroom' hc hc' hid hrenews
      have hafter := hrun.of_prefix hpre
      obtain ⟨hbefore, hstep, -⟩ := hafter.of_append_singleton
      obtain ⟨x, hx, rfl, rfl⟩ := shown_claims_eq hafter (List.prefix_append _ _) hroom hroom' hc hc' hid
      have hrenews' : RenewsClaim f x := by simpa [RenewsClaim] using hrenews
      exact (leaseText_append_of_renews hstep (isLedger_of_leaseRun hbefore) hread (hcompares before f hpre)
        hx hrenews').2

/-- **As the gate parses them, leases only move forward**, along every run that withdraws nothing. -/
theorem leasesForward_as_parsed (hrun : Reachable (LeaseStep ext) F) :
    LeasesForward ext (fun c => (leaseExpiresAt c).bind ext.parseFromRfc3339) F := by
  refine (leasesForward_iff (fun _ _ hparsed => hparsed) hrun).mpr fun before f _ => ?_
  intro claimId current raw e t _ _ _ _ hstands hreads
  rw [hstands] at hreads
  cases hreads

end Runs

/-- **As the room reads them, leases move forward** along a run that withdraws nothing exactly when every
renewal of a lease written with blanks around it is later than that lease. The parser takes no text with
blanks around it. -/
theorem leases_only_forward (ext : Externals)
    (hext : ∀ raw t, ext.parseFromRfc3339 raw = some t → trim raw = raw) {F : List Fact}
    (hrun : Reachable (LeaseStep ext) F) :
    LeasesForward ext (leaseExpiresAtTime ext) F ↔
      ∀ before f, before ++ [f] <+: F →
        ComparesLease ext (fun raw => ext.parseFromRfc3339 (trim raw)) before f := by
  have hread : ∀ raw t, ext.parseFromRfc3339 raw = some t → ext.parseFromRfc3339 (trim raw) = some t := by
    intro raw t hparsed
    rw [hext raw t hparsed, hparsed]
  exact leasesForward_iff hread hrun

namespace LeaseRuns

/-- The sample parser takes three texts, none with a blank at an end. -/
theorem sample_parses_trimmed :
    ∀ raw t, Externals.sample.parseFromRfc3339 raw = some t → trim raw = raw := by
  intro raw t h
  simp only [Externals.sample] at h
  split_ifs at h with h₁ h₂ h₃
  · subst h₁; decide
  · subst h₂; decide
  · subst h₃; decide

/-- Alice's lease until one o'clock, and her renewal of it until noon of the same day. -/
def leasedRun : List Fact := [Renewal.leasedClaim, { Renewal.renewal with seq := 2 }]

theorem reachable_leasedRun : Reachable (LeaseStep .sample) leasedRun :=
  .append (.append .empty ⟨⟨.sample, { Renewal.leasedClaim with seq := 0 }, rfl, by decide⟩, by decide⟩)
    ⟨⟨.sample, Renewal.renewal, rfl, by decide⟩, by decide⟩

/-- Alice's lease until noon, with a blank after the marker. -/
def blankLeaseClaim : Fact :=
  { eventId := "c1", seq := 1, kind := .claim, tool := some "alice", scope := ["src/lib.rs"]
    evidence := ["lease_expires_at: 2026-01-01T12:00:00Z"], subject := "editing"
    createdAt := "2026-01-01T00:00:00Z" }

/-- Her renewal of it until one o'clock. -/
def earlierRenewal : Fact :=
  { eventId := "n1", seq := 2, kind := .claimRenewed, tool := some "alice", refId := some "c1"
    scope := ["src/lib.rs"], evidence := ["lease_expires_at:2026-01-01T01:00:00Z"]
    subject := "claim lease renewed: c1", createdAt := "2026-01-01T00:00:00Z" }

theorem reachable_blankLease : Reachable (LeaseStep .sample) [blankLeaseClaim, earlierRenewal] :=
  .append (.append .empty ⟨⟨.sample, { blankLeaseClaim with seq := 0 }, rfl, by decide⟩, by decide⟩)
    ⟨⟨.sample, { earlierRenewal with seq := 0 }, rfl, by decide⟩, by decide⟩

end LeaseRuns

/-- A renewal of a lease written without blanks moves it forward. -/
theorem leases_only_forward_leased :
    LeasesForward .sample (leaseExpiresAtTime .sample) LeaseRuns.leasedRun := by
  refine (leases_only_forward .sample LeaseRuns.sample_parses_trimmed
    LeaseRuns.reachable_leasedRun).mpr fun before f hpre => ?_
  intro claimId current raw e t hkind href hcurrent hraw hstands
  -- the renewal is the second fact, and the lease it finds parses as it stands
  have hsplit : before = [Renewal.leasedClaim] ∧ f = { Renewal.renewal with seq := 2 } := by
    rcases List.prefix_concat_iff.mp (show before ++ [f] <+: [Renewal.leasedClaim] ++
      [{ Renewal.renewal with seq := 2 }] from hpre) with heq | hpre
    · exact List.append_singleton_inj.mp heq
    · rcases List.prefix_concat_iff.mp (show before ++ [f] <+: [] ++ [Renewal.leasedClaim] from hpre) with heq | h
      · obtain ⟨rfl, rfl⟩ := List.append_singleton_inj.mp heq
        exact absurd hkind (by decide)
      · simp at h
  obtain ⟨rfl, rfl⟩ := hsplit
  obtain rfl : "c1" = claimId := Option.some.inj href
  have hfound : (renewableClaimRecord .sample [Renewal.leasedClaim] "c1").bind (·.leaseExpiresAt) =
      some "2026-01-01T01:00:00Z" := by decide
  rw [hcurrent, Option.bind_some, hraw] at hfound
  obtain rfl := Option.some.inj hfound
  exact absurd hstands (by decide)

/-- The renewal to one o'clock is committed, and takes the lease until noon back. -/
theorem leases_only_forward_counterexample :
    Reachable (LeaseStep .sample) [LeaseRuns.blankLeaseClaim, LeaseRuns.earlierRenewal] ∧
      ((AppendEnv.sample.snapshot [LeaseRuns.blankLeaseClaim]).activeClaims.map
          (leaseExpiresAtTime .sample) = [some 1767268800000000000] ∧
        (AppendEnv.sample.snapshot [LeaseRuns.blankLeaseClaim, LeaseRuns.earlierRenewal]).activeClaims.map
          (leaseExpiresAtTime .sample) = [some 1767229200000000000]) ∧
      ¬LeasesForward .sample (leaseExpiresAtTime .sample)
        [LeaseRuns.blankLeaseClaim, LeaseRuns.earlierRenewal] := by
  refine ⟨LeaseRuns.reachable_blankLease, by decide, fun h => ?_⟩
  have hless := h.advances [LeaseRuns.blankLeaseClaim] _ _ _
    (projectEffectiveClaim .sample LeaseRuns.blankLeaseClaim [LeaseRuns.blankLeaseClaim])
    (projectEffectiveClaim .sample LeaseRuns.blankLeaseClaim
      [LeaseRuns.blankLeaseClaim, LeaseRuns.earlierRenewal])
    ⟨_, rfl⟩ (List.prefix_refl _) ⟨{}, false, 0, rfl⟩ ⟨{}, false, 0, rfl⟩ (by decide) (by decide) (by decide)
    1767268800000000000 (by decide)
  obtain ⟨e', he', hle⟩ := hless
  have hshown : leaseExpiresAtTime .sample (projectEffectiveClaim .sample LeaseRuns.blankLeaseClaim
      [LeaseRuns.blankLeaseClaim, LeaseRuns.earlierRenewal]) = some 1767229200000000000 := by decide
  rw [hshown] at he'
  obtain rfl := Option.some.inj he'
  exact absurd hle (by decide)

end RallyPoint
