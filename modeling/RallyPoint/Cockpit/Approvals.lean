/-
# RallyPoint.Cockpit.Approvals — is an approval's first resolution final.

`ApprovalManager::resolve` leaves an answered row alone. The server's own path does not go through it: an
Approve command checks the owner and writes later, a sweep collects ids and writes later, and both write with
an UPDATE that does not look at the row. So the first resolution stands exactly as long as every such write
finds the row pending or repeats what it finds.
-/
import RallyPoint.Cockpit.Daemon

namespace RallyPoint.Cockpit

open Lib

/-- Every resolution there is stays. -/
def ResolutionsStand (d d' : Daemon) : Prop :=
  ∀ id r, d.resolutionOf id = some r → d'.resolutionOf id = some r

/-- A write of `r` changes no answer. -/
def Repeats (d : Daemon) (id : Uuid) (r : Resolution) : Prop :=
  d.resolutionOf id = none ∨ d.resolutionOf id = some r

instance (d : Daemon) (id : Uuid) (r : Resolution) : Decidable (Repeats d id r) :=
  inferInstanceAs (Decidable (_ ∨ _))

/-- The ids a pass is about to write. -/
def SweepPass.toWrite : SweepPass → List Uuid
  | .collected ids => ids
  | _ => []

/-- A write finds its rows pending, or answered the way it answers. -/
def KeepsResolution (d : Daemon) : Action → Prop
  | .approveWrite t => ∀ call ∈ d.calls t, Repeats d call.approvalId call.decision.resolution
  | .sweepWrite t => ∀ pass ∈ d.sweeps t, ∀ id ∈ pass.toWrite, Repeats d id .autoDenied
  | _ => True

instance (d : Daemon) (a : Action) : Decidable (KeepsResolution d a) :=
  match a with
  | .approveWrite t =>
    inferInstanceAs (Decidable (∀ call ∈ d.calls t, Repeats d call.approvalId call.decision.resolution))
  | .sweepWrite t => inferInstanceAs (Decidable (∀ pass ∈ d.sweeps t, ∀ id ∈ pass.toWrite, Repeats d id .autoDenied))
  | .launch .. | .requestApproval .. | .registerGate .. | .resume .. | .removeGate .. | .readResolution ..
  | .auditGate .. | .exit .. | .approveLookup .. | .approveAudit .. | .approveFindGate .. | .approveNotify ..
  | .sweepCollect .. | .sweepFindGates .. | .sweepNotify .. => .isTrue trivial

/-- Clients, pumps, audit log and rows tell the same decision. -/
structure DecisionsAgree (d : Daemon) : Prop where
  answered : ∀ t call, d.calls t = some call → call.stage ≠ .owned →
    d.resolutionOf call.approvalId = some call.decision.resolution
  audited : ∀ actor session id decision, AuditEntry.approvalResolved actor session id decision ∈ d.audit →
    d.resolutionOf id = some decision.resolution
  acting : ∀ s id r, d.pumps s = some (.decided id r) → r.isSome ∧ d.resolutionOf id = r
  acted : ∀ s id r, AuditEntry.toolGate s id r ∈ d.audit → r.isSome ∧ d.resolutionOf id = r

section Step

variable {d d' : Daemon} {a : Action}

theorem ResolutionsStand.of_eq (h : d'.approvals = d.approvals) : ResolutionsStand d d' := by
  intro id r hr
  rwa [Daemon.resolutionOf, Daemon.getApproval, h]

theorem ResolutionsStand.trans {d'' : Daemon} (h : ResolutionsStand d d') (h' : ResolutionsStand d' d'') :
    ResolutionsStand d d'' :=
  fun id r hr => h' id r (h id r hr)

/-- An UPDATE of one row. -/
theorem resolutionsStand_resolveApproval_iff {id : Uuid} {r : Resolution} :
    ResolutionsStand d (d.resolveApproval id r) ↔ Repeats d id r := by
  constructor
  · intro h
    cases hr : d.resolutionOf id with
    | none => exact .inl hr
    | some r' =>
      have hafter := h id r' hr
      rw [Daemon.resolutionOf_resolveApproval, if_pos rfl] at hafter
      obtain ⟨-, -, rfl⟩ := Option.map_eq_some_iff.mp hafter
      exact .inr hr
  · intro h id' r' hr'
    rw [Daemon.resolutionOf_resolveApproval]
    split
    · subst id'
      obtain hnone | hsame := h
      · simp [hnone] at hr'
      · obtain rfl := Option.some.inj (hsame.symm.trans hr')
        obtain ⟨row, hrow, -⟩ := Option.bind_eq_some_iff.mp hr'
        rw [hrow]
        rfl
    · exact hr'

/-- The loop of UPDATEs of a sweep. -/
theorem resolutionsStand_resolveAll_iff {ids : List Uuid} {r : Resolution} :
    ResolutionsStand d (d.resolveAll ids r) ↔ ∀ id ∈ ids, Repeats d id r := by
  constructor
  · intro h id hid
    cases hr : d.resolutionOf id with
    | none => exact .inl hr
    | some r' =>
      have hafter := h id r' hr
      rw [Daemon.resolutionOf_resolveAll, if_pos hid] at hafter
      obtain ⟨-, -, rfl⟩ := Option.map_eq_some_iff.mp hafter
      exact .inr hr
  · intro h id' r' hr'
    rw [Daemon.resolutionOf_resolveAll]
    split
    · obtain hnone | hsame := h id' ‹_›
      · simp [hnone] at hr'
      · obtain rfl := Option.some.inj (hsame.symm.trans hr')
        obtain ⟨row, hrow, -⟩ := Option.bind_eq_some_iff.mp hr'
        rw [hrow]
        rfl
    · exact hr'

/-- **One action.** The resolutions there are survive it exactly when it repeats those it writes over. -/
theorem Move.resolutionsStand_iff (h : Move d a d') : ResolutionsStand d d' ↔ KeepsResolution d a := by
  cases h with
  | @inserted s id native createdAt hpump hnew =>
    refine iff_of_true (fun id' r hr => ?_) trivial
    obtain ⟨row, hrow, hres⟩ := Option.bind_eq_some_iff.mp hr
    have hne : id' ≠ id := by
      rintro rfl
      simp [hnew] at hrow
    refine Option.bind_eq_some_iff.mpr ⟨row, ?_, hres⟩
    exact (Daemon.getApproval_addApproval hnew).trans (by rw [if_neg hne, hrow])
  | @approveWrite t p id dec aud hcall =>
    refine Iff.trans (b := ResolutionsStand d (d.resolveApproval id dec.resolution)) Iff.rfl ?_
    rw [resolutionsStand_resolveApproval_iff]
    simp [KeepsResolution, hcall]
  | @sweepWrite t ids hpass =>
    refine Iff.trans (b := ResolutionsStand d (d.resolveAll ids .autoDenied)) Iff.rfl ?_
    rw [resolutionsStand_resolveAll_iff]
    simp [KeepsResolution, hpass, SweepPass.toWrite]
  | dropped | refused | nothingExpired => exact iff_of_true (fun _ _ hr => hr) trivial
  | _ => exact iff_of_true (.of_eq rfl) trivial

theorem Move.answered (h : Move d a d') (hstand : ResolutionsStand d d') (hs : Sound d)
    (hagree : DecisionsAgree d) : ∀ t call, d'.calls t = some call → call.stage ≠ .owned →
      d'.resolutionOf call.approvalId = some call.decision.resolution := by
  have hold : ∀ t call, d.calls t = some call → call.stage ≠ .owned →
      d'.resolutionOf call.approvalId = some call.decision.resolution :=
    fun t call hc hstage => hstand _ _ (hagree.answered t call hc hstage)
  intro t call hc hstage
  cases h with
  | lookup =>
    obtain ⟨-, hnew⟩ | ⟨-, hc⟩ := update_eq_some hc
    · obtain rfl := Option.some.inj hnew
      exact absurd rfl hstage
    · exact hold t call hc hstage
  | @approveWrite t' p id dec aud hcall =>
    obtain ⟨-, hnew⟩ | ⟨-, hc⟩ := update_eq_some hc
    · obtain rfl := Option.some.inj hnew
      obtain ⟨row, hrow⟩ := Option.isSome_iff_exists.mp (hasRow_of_owner (hs.calls t' _ hcall).owner)
      refine (Daemon.resolutionOf_resolveApproval (d := d)).trans ?_
      rw [if_pos rfl, hrow]
      rfl
    · exact hold t call hc hstage
  | @approveAudit t' p id dec aud hcall =>
    obtain ⟨-, hnew⟩ | ⟨-, hc⟩ := update_eq_some hc
    · obtain rfl := Option.some.inj hnew
      exact hold t' ⟨p, id, dec, aud, .written⟩ hcall (by simp)
    · exact hold t call hc hstage
  | @foundGate t' p id dec aud n hcall hgate =>
    obtain ⟨-, hnew⟩ | ⟨-, hc⟩ := update_eq_some hc
    · obtain rfl := Option.some.inj hnew
      exact hold t' ⟨p, id, dec, aud, .audited⟩ hcall (by simp)
    · exact hold t call hc hstage
  | noGate | approveNotify =>
    obtain ⟨-, hnew⟩ | ⟨-, hc⟩ := update_eq_some hc
    · cases hnew
    · exact hold t call hc hstage
  | _ => exact hold t call hc hstage

theorem Move.acting (h : Move d a d') (hstand : ResolutionsStand d d') (hs : Sound d)
    (hagree : DecisionsAgree d) : ∀ s id r, d'.pumps s = some (.decided id r) →
      r.isSome ∧ d'.resolutionOf id = r := by
  have hold : ∀ s id r, d.pumps s = some (.decided id r) → r.isSome ∧ d'.resolutionOf id = r := by
    intro s id r hp
    obtain ⟨hsome, hr⟩ := hagree.acting s id r hp
    obtain ⟨x, rfl⟩ := Option.isSome_iff_exists.mp hsome
    exact ⟨hsome, hstand id x hr⟩
  intro s id r hp
  cases h with
  | launch | inserted | tolerated | registerGate | resume | removeGate | auditGate | exit =>
    obtain ⟨-, hnew⟩ | ⟨-, hp⟩ := update_eq_some hp
    · cases hnew
    · exact hold s id r hp
  | @readResolution s' id' hpump =>
    obtain ⟨-, hnew⟩ | ⟨-, hp⟩ := update_eq_some hp
    · obtain ⟨rfl, rfl⟩ := PumpPhase.decided.inj (Option.some.inj hnew)
      exact ⟨hs.pumps s' _ hpump, rfl⟩
    · exact hold s id r hp
  | _ => exact hold s id r hp

theorem Move.audited (h : Move d a d') (hstand : ResolutionsStand d d') (hagree : DecisionsAgree d) :
    ∀ actor session id decision, AuditEntry.approvalResolved actor session id decision ∈ d'.audit →
      d'.resolutionOf id = some decision.resolution := by
  intro actor session id decision hin
  cases h with
  | @approveAudit t p id' dec aud hcall =>
    obtain hold | hnew := List.mem_append.mp hin
    · exact hstand _ _ (hagree.audited actor session id decision hold)
    · obtain ⟨rfl, rfl, rfl, rfl⟩ := AuditEntry.approvalResolved.inj (List.mem_singleton.mp hnew)
      exact hagree.answered t _ hcall (by simp)
  | auditGate =>
    obtain hold | hnew := List.mem_append.mp hin
    · exact hstand _ _ (hagree.audited actor session id decision hold)
    · cases List.mem_singleton.mp hnew
  | _ => exact hstand _ _ (hagree.audited actor session id decision hin)

theorem Move.acted (h : Move d a d') (hstand : ResolutionsStand d d') (hagree : DecisionsAgree d) :
    ∀ s id r, AuditEntry.toolGate s id r ∈ d'.audit → r.isSome ∧ d'.resolutionOf id = r := by
  have hold : ∀ s id r, AuditEntry.toolGate s id r ∈ d.audit → r.isSome ∧ d'.resolutionOf id = r := by
    intro s id r hin
    obtain ⟨hsome, hr⟩ := hagree.acted s id r hin
    obtain ⟨x, rfl⟩ := Option.isSome_iff_exists.mp hsome
    exact ⟨hsome, hstand id x hr⟩
  intro s id r hin
  cases h with
  | @auditGate s' id' r' hpump =>
    obtain hin | hnew := List.mem_append.mp hin
    · exact hold s id r hin
    · obtain ⟨rfl, rfl, rfl⟩ := AuditEntry.toolGate.inj (List.mem_singleton.mp hnew)
      exact hagree.acting s id r hpump
  | approveAudit =>
    obtain hin | hnew := List.mem_append.mp hin
    · exact hold s id r hin
    · cases List.mem_singleton.mp hnew
  | _ => exact hold s id r hin

end Step

section Runs

variable {d : Daemon} {sessions : List Session} {approvals : List Approval}

theorem decisionsAgree_boot : DecisionsAgree (.boot sessions approvals) where
  answered := by simp [Daemon.boot]
  audited := by simp [Daemon.boot]
  acting := by simp [Daemon.boot]
  acted := by simp [Daemon.boot]

theorem decisionsAgree_of_reaches (hrun : Reaches step KeepsResolution (.boot sessions approvals) d) :
    Sound d ∧ DecisionsAgree d := by
  refine hrun.invariant (P := fun d => Sound d ∧ DecisionsAgree d)
    ⟨sound_boot sessions approvals, decisionsAgree_boot⟩ ?_
  rintro d a d' ⟨hs, hagree⟩ hkeeps hnext
  have hmove := step_cases hnext
  have hstand := hmove.resolutionsStand_iff.mpr hkeeps
  exact ⟨hmove.sound hs, hmove.answered hstand hs hagree, hmove.audited hstand hagree,
    hmove.acting hstand hs hagree, hmove.acted hstand hagree⟩

theorem resolutionsStand_of_reaches {d' : Daemon} (hrun : Reaches step KeepsResolution d d') :
    ResolutionsStand d d' :=
  hrun.invariant (fun _ _ hr => hr) fun _ _ _ hstand hkeeps hnext =>
    hstand.trans ((step_cases hnext).resolutionsStand_iff.mpr hkeeps)

/-- **The first resolution is final** along every run whose writes repeat the resolutions they find: it never
changes, and clients, pumps, audit log and rows agree on it. Whether one action changes a resolution is
exactly whether it is such a write. -/
theorem first_resolution_final (sessions : List Session) (approvals : List Approval) {d : Daemon} :
    (Reaches step KeepsResolution (.boot sessions approvals) d →
      DecisionsAgree d ∧ ∀ d', Reaches step KeepsResolution d d' → ResolutionsStand d d') ∧
    ∀ a d', step d a = some d' → (ResolutionsStand d d' ↔ KeepsResolution d a) :=
  ⟨fun hrun => ⟨(decisionsAgree_of_reaches hrun).2, fun _ hrun' => resolutionsStand_of_reaches hrun'⟩,
    fun _ _ hnext => (step_cases hnext).resolutionsStand_iff⟩

end Runs

namespace Approvals

/-- Alice launches a session, its agent asks for a tool and parks. -/
def asked : List Action := [.launch 1 "alice", .requestApproval 1 7 false 0, .registerGate 1 0]

/-- Alice's Approve from its owner check to the pump's decision. -/
def allowed : List Action :=
  [.approveLookup 0 "alice" 7 .allow, .approveWrite 0, .approveAudit 0, .approveFindGate 0, .approveNotify 0,
    .resume 1, .removeGate 1, .readResolution 1]

end Approvals

/-- An Approve that nothing races: row, audit log and pump say allow. -/
theorem first_resolution_final_allowed :
    ∃ d, Reaches step KeepsResolution (.boot [] []) d ∧ d.resolutionOf 7 = some .allow ∧ DecisionsAgree d := by
  have hrun : ((runActions step KeepsResolution (.boot [] []) (Approvals.asked ++ Approvals.allowed)).map
      fun d => d.resolutionOf 7) = some (some .allow) := by decide
  obtain ⟨d, hd, hres⟩ := Option.map_eq_some_iff.mp hrun
  have hreach := reaches_of_run hd
  exact ⟨d, hreach, hres, ((first_resolution_final [] []).1 hreach).1⟩

/-- A sweep collects the expired row, Alice allows it and the pump acts on that, and the sweep then writes
its denial over it. -/
theorem sweep_overwrites_allow :
    ∃ d d', Reaches step (fun _ _ => True) (.boot [] []) d ∧ step d (.sweepWrite 1) = some d' ∧
      ¬ResolutionsStand d d' ∧ ¬DecisionsAgree d' := by
  have hrun : ((runActions step (fun _ _ => True) (.boot [] [])
      (Approvals.asked ++ [.sweepCollect 1 300000000000] ++ Approvals.allowed)).map fun d =>
        (d.resolutionOf 7, (step d (.sweepWrite 1)).map fun d' => (d'.resolutionOf 7, d'.audit))) =
      some (some .allow, some (some .autoDenied, [.approvalResolved "alice" (some 1) 7 .allow])) := by
    decide
  obtain ⟨d, hd, hread⟩ := Option.map_eq_some_iff.mp hrun
  obtain ⟨hres, hnext⟩ := Prod.mk.inj hread
  obtain ⟨d', hd', hread'⟩ := Option.map_eq_some_iff.mp hnext
  obtain ⟨hres', haudit⟩ := Prod.mk.inj hread'
  refine ⟨d, d', reaches_of_run hd, hd', fun h => ?_, fun h => ?_⟩
  · simpa [hres'] using h 7 .allow hres
  · have := h.audited "alice" (some 1) 7 .allow (by simp [haudit])
    simp [hres', ApproveDecision.resolution] at this

end RallyPoint.Cockpit
