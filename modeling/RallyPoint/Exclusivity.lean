/-
# RallyPoint.Exclusivity — two active claims never share a resource, and what a retraction does to that.

The append gate compares a newcomer with every claim active in the resolved ledger, and nothing in a run
without retractions makes a closed claim active again. Together with the symmetry of scope conflict that is
exclusivity over whole runs (`claims_exclusive`), whichever of the two claims came first.

Retraction is the operation that can revive a claim: withdrawing the one fact that closed it. The authority
gate asks about a withdrawn claim, a withdrawn renewal and a withdrawn seat, and about nothing else, so a
withdrawn CLOSER is admitted from anybody. `roomExclusive_append_iff` says exactly when the room
stays exclusive across a retraction.
-/
import RallyPoint.Append

namespace RallyPoint

open Lib

/-! ## Exclusivity -/

/-- One principal: the lease owner of either is the lease owner of the other. -/
def samePrincipal (c₁ c₂ : Fact) : Prop :=
  sameSessionOwner c₁.tool c₁.fromSessionId c₂.tool c₂.fromSessionId = true ∨
    sameSessionOwner c₂.tool c₂.fromSessionId c₁.tool c₁.fromSessionId = true

/-- No scope parsed from one conflicts with a scope parsed from the other. -/
def scopesDisjoint (c₁ c₂ : Fact) : Prop :=
  ∀ s₁ ∈ claimScopes c₁, ∀ s₂ ∈ claimScopes c₂, s₁.conflictsWith s₂ = false

/-- Two claims that may be active at once. -/
def compatible (c₁ c₂ : Fact) : Prop := samePrincipal c₁ c₂ ∨ scopesDisjoint c₁ c₂

/-- Every two distinct claims active in `facts` are compatible. -/
def Exclusive (facts : List Fact) : Prop :=
  ∀ c₁ ∈ facts, ∀ c₂ ∈ facts, c₁ ≠ c₂ → (ClaimClosers.new facts).isActive c₁ = true →
    (ClaimClosers.new facts).isActive c₂ = true → compatible c₁ c₂

theorem scopesDisjoint_comm {c₁ c₂ : Fact} : scopesDisjoint c₁ c₂ ↔ scopesDisjoint c₂ c₁ := by
  constructor <;> intro h s hs s' hs' <;> rw [conflictsWith_comm] <;> exact h s' hs' s hs

theorem compatible_comm {c₁ c₂ : Fact} : compatible c₁ c₂ ↔ compatible c₂ c₁ := by
  unfold compatible samePrincipal
  rw [scopesDisjoint_comm, or_comm (a := sameSessionOwner _ _ _ _ = true)]

/-! ## Runs without retractions -/

/-- One admitted append of such a run, as far as exclusivity is concerned. -/
structure ClaimStep (ext : Externals) (facts : List Fact) (f : Fact) : Prop where
  noConflict : f.kind = .claim → detectConflict ext facts f = none
  freshId : f.eventId ∉ facts.map (·.eventId)
  nextSeq : f.seq = ((facts.map (·.seq)).max?).getD 0 + 1
  notRetraction : targetOf f = none

/-- No fact of such a run withdraws anything, so the resolved ledger is the ledger. -/
theorem reachable_resolvedFacts {ext : Externals} {F : List Fact} (h : Reachable (ClaimStep ext) F) :
    resolvedFacts F = F :=
  resolvedFacts_of_none (h.forall_mem fun _ _ hstep => hstep.notRetraction)

/-- Two active claims of a retraction-free run are compatible: the later one passed the gate while the
earlier one was already active. -/
theorem compatible_of_claimSteps {ext : Externals} {F : List Fact} (h : Reachable (ClaimStep ext) F)
    {c₁ c₂ : Fact} (h₁ : c₁ ∈ F) (h₂ : c₂ ∈ F) (hne : c₁ ≠ c₂) (ha₁ : isActiveClaimFact c₁ F = true)
    (ha₂ : isActiveClaimFact c₂ F = true) : compatible c₁ c₂ := by
  have hpair := Reachable.compatible_of_gate (fun F x => isActiveClaimFact x F = true)
    (fun x e => sameSessionOwner x.tool x.fromSessionId e.tool e.fromSessionId = true ∨
      scopesDisjoint e x) ?_ ?_ h c₁ h₁ c₂ h₂ hne ha₁ ha₂
  · rcases hpair with (howner | hscopes) | (howner | hscopes)
    · exact .inl (.inl howner)
    · exact .inr (scopesDisjoint_comm.mp hscopes)
    · exact .inl (.inr howner)
    · exact .inr hscopes
  · intro log e x _ _ _ hact
    exact isActiveClaimFact_antitone (List.subset_append_left _ _) hact
  · intro log e x hlog hstep hx hact hact'
    -- the newcomer is active, hence a claim, hence it passed the conflict gate
    have hkind : e.kind = .claim := by
      have hlocal := (isActiveClaimFact_iff.mp hact').1
      simp only [isLocalClaim, Bool.and_eq_true, beq_iff_eq] at hlocal
      exact hlocal.1
    have hgate := (detectConflict_eq_none_iff ext hkind).mp (hstep.noConflict hkind)
    rw [reachable_resolvedFacts hlog] at hgate
    exact hgate x hx hact

/-- **Claims are exclusive over whole runs.** In every ledger a retraction-free run can reach, any two
distinct active claims belong to one principal or hold no conflicting scopes. -/
theorem claims_exclusive (ext : Externals) {F : List Fact} (h : Reachable (ClaimStep ext) F) :
    Exclusive F := by
  intro c₁ h₁ c₂ h₂ hne ha₁ ha₂
  rw [ClaimClosers.isActive_eq] at ha₁ ha₂
  exact compatible_of_claimSteps h h₁ h₂ hne ha₁ ha₂

def aliceClaim : Fact :=
  { eventId := "c1", seq := 1, kind := .claim, tool := some "alice", subject := "parser"
    scope := ["file:src/parser.rs"], createdAt := "2026-01-01T00:00:00Z" }

def bobClaim : Fact :=
  { eventId := "c2", seq := 2, kind := .claim, tool := some "bob", subject := "printer"
    scope := ["exclusive:dir:src/printer/"], createdAt := "2026-01-01T00:00:00Z" }

/-- Two claims side by side, both active. -/
theorem claims_exclusive_two_claims :
    Reachable (ClaimStep .sample) [aliceClaim, bobClaim] ∧ Exclusive [aliceClaim, bobClaim] := by
  have h : Reachable (ClaimStep .sample) [aliceClaim, bobClaim] := by
    refine .append (.append .empty ?_) ?_
    · exact ⟨by decide, by decide, by decide, by decide⟩
    · exact ⟨by decide, by decide, by decide, by decide⟩
  exact ⟨h, claims_exclusive .sample h⟩

/-- A committed append that withdraws nothing is such a step. -/
theorem AppendStep.claimStep {ext : Externals} {F : List Fact} {f : Fact} (hstep : AppendStep ext F f)
    (hledger : IsLedger F) (htarget : targetOf f = none) : ClaimStep ext F f := by
  obtain ⟨env, fact, rfl, hok⟩ := hstep
  obtain ⟨-, -, hid, -, happend, -, rfl⟩ := appendFactUnderLock_committed_iff.mp hok
  obtain ⟨-, -, -, -, -, -, -, -, hclaim⟩ := assertAppendable_ok_iff.mp happend
  refine ⟨fun hkind => ?_, hid, ?_, htarget⟩
  · -- the sequence number given at commit is no input of the conflict gate
    have hfact : detectConflict env.ext F fact = none := detectConflict_of_admissible hkind hclaim
    exact hfact
  · rw [hledger.max_seq]

/-- **The append boundary keeps claims exclusive**, as long as nothing is withdrawn. -/
theorem appendRun_exclusive {ext : Externals} {F : List Fact}
    (h : Reachable (fun F f => AppendStep ext F f ∧ targetOf f = none) F) : Exclusive F := by
  have hledger : IsLedger F := isLedger_of_reachable (h.mono fun _ _ hstep => hstep.1)
  have hclaim : Reachable (ClaimStep ext) F := by
    induction h with
    | empty => exact .empty
    | append hlog hstep ih =>
      have hlog' : IsLedger _ := isLedger_of_reachable (hlog.mono fun _ _ hstep => hstep.1)
      exact .append (ih hlog') (hstep.1.claimStep hlog' hstep.2)
  intro c₁ h₁ c₂ h₂ hne ha₁ ha₂
  rw [ClaimClosers.isActive_eq] at ha₁ ha₂
  exact compatible_of_claimSteps hclaim h₁ h₂ hne ha₁ ha₂

/-! ## Retractions -/

instance (c₁ c₂ : Fact) : Decidable (samePrincipal c₁ c₂) := inferInstanceAs (Decidable (_ ∨ _))

instance (c₁ c₂ : Fact) : Decidable (scopesDisjoint c₁ c₂) :=
  inferInstanceAs
    (Decidable (∀ s₁ ∈ claimScopes c₁, ∀ s₂ ∈ claimScopes c₂, s₁.conflictsWith s₂ = false))

instance (c₁ c₂ : Fact) : Decidable (compatible c₁ c₂) := inferInstanceAs (Decidable (_ ∨ _))

/-- No two active claims of different principals hold conflicting scopes in the projected room. -/
def RoomExclusive (room : RoomSnapshot) : Prop :=
  ∀ c₁ ∈ room.activeClaims, ∀ c₂ ∈ room.activeClaims, c₁.eventId ≠ c₂.eventId → compatible c₁ c₂

instance (room : RoomSnapshot) : Decidable (RoomExclusive room) :=
  inferInstanceAs (Decidable (∀ c₁ ∈ room.activeClaims, ∀ c₂ ∈ room.activeClaims,
    c₁.eventId ≠ c₂.eventId → compatible c₁ c₂))

/-- A claim that is active and that `r` neither withdraws nor closes. -/
def Keeps (F : List Fact) (r c : Fact) : Prop :=
  ActiveIn F c ∧ targetOf r ≠ some c.eventId ∧ closesOnAppend F r c = false

/-- A closed claim all of whose closers are the fact `r` withdraws. -/
def Revives (F : List Fact) (r c : Fact) : Prop :=
  c ∈ resolvedFacts F ∧ isLocalClaim c = true ∧ targetOf r ≠ some c.eventId ∧
    closesOnAppend F r c = false ∧ (∃ x ∈ resolvedFacts F, closesClaim x c = true) ∧
    ∀ x ∈ resolvedFacts F, closesClaim x c = true → targetOf r = some x.eventId

/-- The new fact is a claim itself; a retraction's kind is free. -/
def Enters (F : List Fact) (r c : Fact) : Prop :=
  c = r ∧ survivesAppend F r = true ∧ isLocalClaim r = true

section Retraction

variable {F : List Fact} {r : Fact}

/-- The claims active after an append: kept, revived or entering. -/
theorem activeIn_append_iff (hseq : ∀ x ∈ F, x.seq < r.seq) {c : Fact} :
    ActiveIn (F ++ [r]) c ↔ Keeps F r c ∨ Revives F r c ∨ Enters F r c := by
  by_cases hcr : c = r
  · -- the newcomer is above every old fact, so it was in no earlier room
    subst hcr
    have hfresh : c ∉ resolvedFacts F := fun hc => by
      have := hseq c (mem_resolvedFacts.mp hc).1
      omega
    rw [activeIn_append_self hseq]
    simp [Keeps, Revives, Enters, ActiveIn, hfresh]
  · by_cases hcF : c ∈ F
    · rw [activeIn_append_of_mem hcF]
      constructor
      · rintro ⟨hmem, htarget, hlocal, hself, hclosers⟩
        -- closed before the append, an active claim is a revived one; otherwise it was kept
        by_cases hclosed : ∃ x ∈ resolvedFacts F, closesClaim x c = true
        · exact .inr (.inl ⟨hmem, hlocal, htarget, hself, hclosed, hclosers⟩)
        · refine .inl ⟨⟨hmem, isActiveClaimFact_iff.mpr ⟨hlocal, fun x hx => ?_⟩⟩, htarget, hself⟩
          by_contra hclose
          exact hclosed ⟨x, hx, by simpa using hclose⟩
      · rintro (⟨⟨hmem, hact⟩, htarget, hself⟩ |
          ⟨hmem, hlocal, htarget, hself, -, hclosers⟩ | ⟨h, -⟩)
        · obtain ⟨hlocal, hopen⟩ := isActiveClaimFact_iff.mp hact
          refine ⟨hmem, htarget, hlocal, hself, fun x hx hclose => ?_⟩
          simp [hopen x hx] at hclose
        · exact ⟨hmem, htarget, hlocal, hself, hclosers⟩
        · exact absurd h hcr
    · simp [Keeps, Revives, Enters, ActiveIn, hcF, hcr]

/-- With distinct ids, exclusivity of the room is exclusivity of the claims active in the ledger. -/
theorem roomExclusive_iff {ext : Externals} {coord : CoordinationConfig} {now : Int}
    (hids : (F.map (·.eventId)).Nodup) :
    RoomExclusive (snapshotFromFactsWithPolicy ext F coord false now) ↔
      ∀ c₁ c₂, ActiveIn F c₁ → ActiveIn F c₂ → c₁ ≠ c₂ → compatible c₁ c₂ := by
  have hcompat : ∀ c₁ c₂ : Fact,
      compatible (projectEffectiveClaim ext c₁ (resolvedFacts F))
        (projectEffectiveClaim ext c₂ (resolvedFacts F)) ↔ compatible c₁ c₂ := by
    intro c₁ c₂
    simp [compatible, samePrincipal, scopesDisjoint]
  have hmemF : ∀ {c}, ActiveIn F c → c ∈ F := fun h => (mem_resolvedFacts.mp h.1).1
  constructor
  · intro h c₁ c₂ h₁ h₂ hne
    refine (hcompat c₁ c₂).mp (h _ (mem_projectActiveClaims.mpr ⟨c₁, h₁.1, h₁.2, rfl⟩) _
      (mem_projectActiveClaims.mpr ⟨c₂, h₂.1, h₂.2, rfl⟩) ?_)
    simp only [projectEffectiveClaim_eventId]
    exact fun hid => hne (List.inj_on_of_nodup_map hids (hmemF h₁) (hmemF h₂) hid)
  · intro h c₁ h₁ c₂ h₂ hne
    obtain ⟨x₁, hx₁, hact₁, rfl⟩ := mem_projectActiveClaims.mp h₁
    obtain ⟨x₂, hx₂, hact₂, rfl⟩ := mem_projectActiveClaims.mp h₂
    refine (hcompat x₁ x₂).mpr (h x₁ x₂ ⟨hx₁, hact₁⟩ ⟨hx₂, hact₂⟩ ?_)
    rintro rfl
    exact hne rfl

/-- **When a retraction keeps the room exclusive.** Across the append of any fact `r`, withdrawing
whatever it withdraws, an exclusive room stays exclusive exactly when no claim that `r` revives, nor `r`
itself if it is a claim, collides with a claim that is active afterwards. -/
theorem roomExclusive_append_iff {ext : Externals} {coord : CoordinationConfig} {now now' : Int}
    (hids : ((F ++ [r]).map (·.eventId)).Nodup) (hseq : ∀ x ∈ F, x.seq < r.seq)
    (hroom : RoomExclusive (snapshotFromFactsWithPolicy ext F coord false now)) :
    RoomExclusive (snapshotFromFactsWithPolicy ext (F ++ [r]) coord false now') ↔
      ∀ c c', (Revives F r c ∨ Enters F r c) → (Keeps F r c' ∨ Revives F r c' ∨ Enters F r c') →
        c ≠ c' → compatible c c' := by
  have hidsF : (F.map (·.eventId)).Nodup := by
    rw [List.map_append] at hids
    exact (List.nodup_append.mp hids).1
  rw [roomExclusive_iff hidsF] at hroom
  rw [roomExclusive_iff hids]
  simp only [activeIn_append_iff hseq]
  constructor
  · intro h c c' hc hc' hne
    exact h c c' (.inr hc) hc' hne
  · rintro h c c' hc hc' hne
    -- two kept claims were together before; a pair with a new one is what the condition is about
    rcases hc with hkeep | hnew
    · rcases hc' with hkeep' | hnew'
      · exact hroom c c' hkeep.1 hkeep'.1 hne
      · exact compatible_comm.mp (h c' c hnew' (.inl hkeep) hne.symm)
    · exact h c c' hnew hc' hne

end Retraction

def aliceRelease : Fact :=
  { eventId := "r1", seq := 2, kind := .release, tool := some "alice", subject := "done"
    refId := some "c1", createdAt := "2026-01-01T00:00:00Z" }

/-- The same file, claimed by another agent after the release. -/
def bobReclaim : Fact :=
  { eventId := "c3", seq := 3, kind := .claim, tool := some "bob", subject := "parser"
    scope := ["file:src/parser.rs"], createdAt := "2026-01-01T00:00:00Z" }

/-- A third agent withdraws the release. -/
def carolRetraction : Fact :=
  { eventId := "x1", seq := 4, kind := .artifact, tool := some "carol", subject := "retract: r1"
    refId := some "r1", createdAt := "2026-01-01T00:00:00Z" }

/-- Withdrawing the release of a claim nobody took over is harmless. -/
theorem roomExclusive_append_iff_unclaimed :
    RoomExclusive (AppendEnv.sample.snapshot ([aliceClaim, aliceRelease] ++ [carolRetraction])) ∧
      ∀ c c', (Revives [aliceClaim, aliceRelease] carolRetraction c ∨
          Enters [aliceClaim, aliceRelease] carolRetraction c) →
        (Keeps [aliceClaim, aliceRelease] carolRetraction c' ∨
          Revives [aliceClaim, aliceRelease] carolRetraction c' ∨
          Enters [aliceClaim, aliceRelease] carolRetraction c') → c ≠ c' → compatible c c' := by
  have hafter : RoomExclusive
      (AppendEnv.sample.snapshot ([aliceClaim, aliceRelease] ++ [carolRetraction])) := by decide
  exact ⟨hafter, (roomExclusive_append_iff (by decide) (by decide)
    (by decide : RoomExclusive (AppendEnv.sample.snapshot [aliceClaim, aliceRelease]))).mp hafter⟩

/-- The append boundary commits the withdrawal of a release after the file changed hands, and both
agents then hold it. -/
theorem roomExclusive_lost_by_retraction :
    targetOf carolRetraction = some "r1" ∧
      assertWriteAuthorized .sample (AppendEnv.sample.snapshot [aliceClaim, aliceRelease, bobReclaim]) {}
        AppendEnv.sample.now carolRetraction [aliceClaim, aliceRelease, bobReclaim] = .ok () ∧
      appendFactUnderLock .sample [aliceClaim, aliceRelease, bobReclaim] carolRetraction =
        .ok (.committed carolRetraction) ∧
      RoomExclusive (AppendEnv.sample.snapshot [aliceClaim, aliceRelease, bobReclaim]) ∧
      ¬RoomExclusive
        (AppendEnv.sample.snapshot ([aliceClaim, aliceRelease, bobReclaim] ++ [carolRetraction])) := by
  decide

end RallyPoint
