/-
# RallyPoint.Cockpit.ApprovalGate — a parked pump is woken, and by the owner's command.

A pump inserts its approval row in one lock section and registers its `Notify` in a later one, and the map of
gates is keyed by an id that a native request may choose. Two things must not happen: a request under an id
that has a row already, and a look into the map between a row and its gate (`KeepsWakeups`). Where they do
not, rows, gates and parked pumps stay coupled (`Gated`): every pump with an approval in hand is the pump of
that approval's session, its gate is the one in the map, and an answered row is known to a task that has yet
to look, held by a task that has yet to notify, or behind a permit.
-/
import RallyPoint.Cockpit.Daemon

namespace RallyPoint.Cockpit

open Lib

/-! ## Tasks between their write and their notify -/

section Defs

variable (d : Daemon) (id : Uuid) (n : NotifyId)

/-- A task has written the row and not looked for the gate yet. -/
def Unnoticed : Prop :=
  (∃ t call, d.calls t = some call ∧ call.approvalId = id ∧ (call.stage = .written ∨ call.stage = .audited)) ∨
    ∃ t ids, d.sweeps t = some (.written ids) ∧ id ∈ ids

/-- A task holds that gate and has not notified it yet. -/
def Held : Prop :=
  (∃ t call, d.calls t = some call ∧ call.approvalId = id ∧ call.stage = .notifying n) ∨
    ∃ t handles, d.sweeps t = some (.notifying handles) ∧ (id, n) ∈ handles

/-- An Approve or sweep call for that approval is between its write and its notify. -/
def InFlight : Prop := Unnoticed d id ∨ ∃ n, Held d id n

def HasPermit : Prop := ∃ nt, d.notifies n = some nt ∧ nt.permit.isSome

end Defs

/-- Whoever is parked on an answered row, with no call under way for it, can go on. -/
def NoLostWakeup (d : Daemon) : Prop :=
  ∀ s id n, d.pumps s = some (.parked id n) → Resolved d id → ¬InFlight d id → HasPermit d n

/-- A pump that a command resumed was resumed by its session's owner. -/
def ResumedByOwner (d : Daemon) : Prop :=
  ∀ s id p, (s, id, Waker.approve p) ∈ d.resumed → (d.getSession s).map (·.ownerId) = some p

/-! ## The condition -/

/-- The pump that the row belongs to is not between the row and its gate. -/
def Registered (d : Daemon) (id : Uuid) : Prop :=
  ∀ row ∈ d.getApproval id, d.pumps row.sessionId ≠ some (.inserted id)

instance (d : Daemon) (id : Uuid) : Decidable (Registered d id) :=
  inferInstanceAs (Decidable (∀ row ∈ d.getApproval id, d.pumps row.sessionId ≠ some (.inserted id)))

/-- The ids a pass is about to look up. -/
def SweepPass.toLookUp : SweepPass → List Uuid
  | .written ids => ids
  | _ => []

/-- A native request brings an id without a row, and no gate is looked up before it is registered. -/
def KeepsWakeups (d : Daemon) : Action → Prop
  | .requestApproval _ id native _ => native = true → d.getApproval id = none
  | .approveFindGate t => ∀ call ∈ d.calls t, Registered d call.approvalId
  | .sweepFindGates t => ∀ pass ∈ d.sweeps t, ∀ id ∈ pass.toLookUp, Registered d id
  | _ => True

instance (d : Daemon) (a : Action) : Decidable (KeepsWakeups d a) :=
  match a with
  | .requestApproval _ id native _ => inferInstanceAs (Decidable (native = true → d.getApproval id = none))
  | .approveFindGate t => inferInstanceAs (Decidable (∀ call ∈ d.calls t, Registered d call.approvalId))
  | .sweepFindGates t => inferInstanceAs (Decidable (∀ pass ∈ d.sweeps t, ∀ id ∈ pass.toLookUp, Registered d id))
  | .launch .. | .registerGate .. | .resume .. | .removeGate .. | .readResolution .. | .auditGate .. | .exit ..
  | .approveLookup .. | .approveWrite .. | .approveAudit .. | .approveNotify .. | .sweepCollect ..
  | .sweepWrite .. | .sweepNotify .. => .isTrue trivial

/-! ## How news of an answer travels -/

section Travel

variable {d d' : Daemon} {a : Action} {id : Uuid} {n : NotifyId}

/-- The action looks for the gate of that approval. -/
def LooksUp (d : Daemon) (a : Action) (id : Uuid) : Prop :=
  (∃ t call, a = .approveFindGate t ∧ d.calls t = some call ∧ call.approvalId = id ∧ call.stage = .audited) ∨
    ∃ t ids, a = .sweepFindGates t ∧ d.sweeps t = some (.written ids) ∧ id ∈ ids

theorem registered_of_looksUp (hkeeps : KeepsWakeups d a) (h : LooksUp d a id) : Registered d id := by
  obtain ⟨t, call, rfl, hc, rfl, -⟩ | ⟨t, ids, rfl, hw, hid⟩ := h
  · exact hkeeps call hc
  · exact hkeeps _ hw id hid

/-- A row becomes answered by a write that has not been noticed. -/
theorem Move.resolved_or (h : Move d a d') (hres : Resolved d' id) : Resolved d id ∨ Unnoticed d' id := by
  cases h with
  | @inserted s id' native createdAt hpump hnew =>
    obtain ⟨row, hrow, hsome⟩ := resolved_iff.mp hres
    have hrow := (Daemon.getApproval_addApproval hnew).symm.trans hrow
    split at hrow
    · obtain rfl := Option.some.inj hrow
      cases hsome
    · exact .inl (resolved_iff.mpr ⟨row, hrow, hsome⟩)
  | @approveWrite t p id' dec aud hcall =>
    by_cases hid : id = id'
    · exact .inr (.inl ⟨t, _, Function.update_self .., hid.symm, .inl rfl⟩)
    · have hsame : (d.resolveApproval id' dec.resolution).resolutionOf id = _ :=
        Daemon.resolutionOf_resolveApproval
      rw [if_neg hid] at hsame
      exact .inl (by rw [Resolved, ← hsame]; exact hres)
  | @sweepWrite t ids hpass =>
    by_cases hid : id ∈ ids
    · exact .inr (.inr ⟨t, ids, Function.update_self .., hid⟩)
    · have hsame : (d.resolveAll ids .autoDenied).resolutionOf id = _ := Daemon.resolutionOf_resolveAll
      rw [if_neg hid] at hsame
      exact .inl (by rw [Resolved, ← hsame]; exact hres)
  | _ => exact .inl hres

/-- What an action does to an Approve command: nothing, or the command's own next step. -/
theorem Move.call_next {t : TaskId} {call : ApproveCall} (h : Move d a d') (hc : d.calls t = some call) :
    d'.calls t = some call ∨ call.stage = .owned ∨
      (call.stage = .written ∧ d'.calls t = some { call with stage := .audited }) ∨
      (call.stage = .audited ∧ a = .approveFindGate t) ∨
      ∃ m, call.stage = .notifying m ∧ d' = (d.notifyOne m (.approve call.principal)).setCall t none := by
  have hother : ∀ {t' : TaskId} {next : Option ApproveCall}, t ≠ t' →
      Function.update d.calls t' next t = some call := fun hne => (Function.update_of_ne hne ..).trans hc
  cases h with
  | @lookup t' p id' dec hfree howner =>
    refine .inl (hother ?_)
    rintro rfl
    simp [hfree] at hc
  | @approveWrite t' p id' dec aud hcall =>
    by_cases ht : t = t'
    · subst ht
      obtain rfl := Option.some.inj (hcall.symm.trans hc)
      exact .inr (.inl rfl)
    · exact .inl (hother ht)
  | @approveAudit t' p id' dec aud hcall =>
    by_cases ht : t = t'
    · subst ht
      obtain rfl := Option.some.inj (hcall.symm.trans hc)
      exact .inr (.inr (.inl ⟨rfl, Function.update_self ..⟩))
    · exact .inl (hother ht)
  | @foundGate t' p id' dec aud m hcall _ | @noGate t' p id' dec aud hcall _ =>
    by_cases ht : t = t'
    · subst ht
      obtain rfl := Option.some.inj (hcall.symm.trans hc)
      exact .inr (.inr (.inr (.inl ⟨rfl, rfl⟩)))
    · exact .inl (hother ht)
  | @approveNotify t' p id' dec aud m hcall =>
    by_cases ht : t = t'
    · subst ht
      obtain rfl := Option.some.inj (hcall.symm.trans hc)
      exact .inr (.inr (.inr (.inr ⟨m, rfl, rfl⟩)))
    · exact .inl (hother ht)
  | _ => exact .inl hc

/-- What an action does to a pass of the sweep: nothing, or the pass's own next step. -/
theorem Move.sweep_next {t : TaskId} {pass : SweepPass} (h : Move d a d') (hw : d.sweeps t = some pass) :
    d'.sweeps t = some pass ∨ (∃ ids, pass = .collected ids) ∨
      (∃ ids, pass = .written ids ∧ a = .sweepFindGates t) ∨
      (∃ id m rest, pass = .notifying ((id, m) :: rest) ∧
        d' = (d.notifyOne m .sweep).setSweep t (some (.notifying rest))) ∨
      pass = .notifying [] := by
  have hother : ∀ {t' : TaskId} {next : Option SweepPass}, t ≠ t' →
      Function.update d.sweeps t' next t = some pass := fun hne => (Function.update_of_ne hne ..).trans hw
  cases h with
  | @collect t' now ids' hfree hids =>
    refine .inl (hother ?_)
    rintro rfl
    simp [hfree] at hw
  | @sweepWrite t' ids' hpass =>
    by_cases ht : t = t'
    · subst ht
      exact .inr (.inl ⟨ids', Option.some.inj (hw.symm.trans hpass)⟩)
    · exact .inl (hother ht)
  | @sweepFindGates t' ids' hpass =>
    by_cases ht : t = t'
    · subst ht
      exact .inr (.inr (.inl ⟨ids', Option.some.inj (hw.symm.trans hpass), rfl⟩))
    · exact .inl (hother ht)
  | @sweepNotify t' id' m rest hpass =>
    by_cases ht : t = t'
    · subst ht
      exact .inr (.inr (.inr (.inl ⟨id', m, rest, Option.some.inj (hw.symm.trans hpass), rfl⟩)))
    · exact .inl (hother ht)
  | @sweepDone t' hpass =>
    by_cases ht : t = t'
    · subst ht
      exact .inr (.inr (.inr (.inr (Option.some.inj (hw.symm.trans hpass)))))
    · exact .inl (hother ht)
  | _ => exact .inl hw

/-- A task that has not looked still has not, unless it looks now. -/
theorem Move.unnoticed_or (h : Move d a d') (hnews : Unnoticed d id) : Unnoticed d' id ∨ LooksUp d a id := by
  obtain ⟨t, call, hc, hid, hstage⟩ | ⟨t, ids, hw, hid⟩ := hnews
  · obtain hkept | howned | ⟨-, haudited⟩ | ⟨haudited, rfl⟩ | ⟨m, hnotifying, -⟩ := h.call_next hc
    · exact .inl (.inl ⟨t, call, hkept, hid, hstage⟩)
    · simp [howned] at hstage
    · exact .inl (.inl ⟨t, _, haudited, hid, .inr rfl⟩)
    · exact .inr (.inl ⟨t, call, rfl, hc, hid, haudited⟩)
    · simp [hnotifying] at hstage
  · obtain hkept | ⟨ids', hcollected⟩ | ⟨ids', -, rfl⟩ | ⟨id', m, rest, hnotifying, -⟩ | hdone := h.sweep_next hw
    · exact .inl (.inr ⟨t, ids, hkept, hid⟩)
    · cases hcollected
    · exact .inr (.inr ⟨t, ids, rfl, hw, hid⟩)
    · cases hnotifying
    · cases hdone

/-- A look finds the gate that is in the map. -/
theorem Move.held_of_looksUp (h : Move d a d') (hgate : d.gates id = some n) (hlook : LooksUp d a id) :
    Held d' id n := by
  obtain ⟨t, call, rfl, hc, rfl, hstage⟩ | ⟨t, ids, rfl, hw, hid⟩ := hlook
  · cases h with
    | foundGate hcall hfound =>
      obtain rfl := Option.some.inj (hcall.symm.trans hc)
      obtain rfl := Option.some.inj (hgate.symm.trans hfound)
      exact .inl ⟨t, _, Function.update_self .., rfl, rfl⟩
    | noGate hcall hnone =>
      obtain rfl := Option.some.inj (hcall.symm.trans hc)
      simp [hnone] at hgate
  · cases h with
    | sweepFindGates hpass =>
      obtain ⟨rfl⟩ := SweepPass.written.inj (Option.some.inj (hpass.symm.trans hw))
      exact .inr ⟨t, _, Function.update_self .., List.mem_filterMap.mpr ⟨id, hid, by rw [hgate]; rfl⟩⟩

theorem hasPermit_notifyOne {waker : Waker} (hn : ∃ nt, d.notifies n = some nt) :
    HasPermit (d.notifyOne n waker) n := by
  obtain ⟨nt, hnt⟩ := hn
  refine ⟨nt.notifyOne waker, by rw [notifies_notifyOne, if_pos rfl, hnt]; rfl, ?_⟩
  cases h : nt.permit <;> simp [Notify.notifyOne, h]

/-- A held gate is still held, or has just been notified. -/
theorem Move.held_or (h : Move d a d') (hgate : GateFor d n id) (hheld : Held d id n) :
    Held d' id n ∨ HasPermit d' n := by
  have hexists : ∃ nt, d.notifies n = some nt := ⟨hgate.choose, hgate.choose_spec.1⟩
  obtain ⟨t, call, hc, hid, hstage⟩ | ⟨t, handles, hw, hin⟩ := hheld
  · obtain hkept | howned | ⟨hwritten, -⟩ | ⟨haudited, -⟩ | ⟨m, hnotifying, rfl⟩ := h.call_next hc
    · exact .inl (.inl ⟨t, call, hkept, hid, hstage⟩)
    · simp [howned] at hstage
    · simp [hwritten] at hstage
    · simp [haudited] at hstage
    · obtain rfl := ApproveStage.notifying.inj (hnotifying.symm.trans hstage)
      exact .inr (hasPermit_notifyOne hexists)
  · obtain hkept | ⟨ids, hcollected⟩ | ⟨ids, hwritten, -⟩ | ⟨id', m, rest, hnotifying, rfl⟩ | hdone :=
      h.sweep_next hw
    · exact .inl (.inr ⟨t, handles, hkept, hin⟩)
    · cases hcollected
    · cases hwritten
    · obtain rfl := SweepPass.notifying.inj hnotifying
      obtain hhead | hrest := List.mem_cons.mp hin
      · obtain ⟨rfl, rfl⟩ := Prod.mk.inj hhead
        exact .inr (hasPermit_notifyOne hexists)
      · exact .inl (.inr ⟨t, rest, Function.update_self .., hrest⟩)
    · obtain rfl := SweepPass.notifying.inj hdone
      cases hin

/-- A permit stays until a pump takes it. -/
theorem Move.hasPermit_or (h : Move d a d') (hpermit : HasPermit d n) :
    HasPermit d' n ∨ ∃ s id', a = .resume s ∧ d.pumps s = some (.parked id' n) := by
  obtain ⟨nt, hnt, hsome⟩ := hpermit
  cases h with
  | @registerGate s id' m hpump hfresh =>
    have hne : n ≠ m := by
      rintro rfl
      simp [hfresh] at hnt
    exact .inl ⟨nt, (Function.update_of_ne hne ..).trans hnt, hsome⟩
  | @resume s id' m b waker hpump hm =>
    by_cases hn : n = m
    · exact .inr ⟨s, id', rfl, hn ▸ hpump⟩
    · exact .inl ⟨nt, (Function.update_of_ne hn ..).trans hnt, hsome⟩
  | @approveNotify t p id' dec aud m hcall =>
    by_cases hn : n = m
    · subst hn
      exact .inl (hasPermit_notifyOne ⟨nt, hnt⟩)
    · exact .inl ⟨nt, (Function.update_of_ne hn ..).trans hnt, hsome⟩
  | @sweepNotify t id' m rest hpass =>
    by_cases hn : n = m
    · subst hn
      exact .inl (hasPermit_notifyOne ⟨nt, hnt⟩)
    · exact .inl ⟨nt, (Function.update_of_ne hn ..).trans hnt, hsome⟩
  | _ => exact .inl ⟨nt, hnt, hsome⟩

end Travel

/-! ## The coupling -/

/-- The approval a pump has in hand. -/
def PumpPhase.approvalId : PumpPhase → Option Uuid
  | .reading => none
  | .inserted id | .parked id _ | .woken id | .released id | .decided id _ => some id

/-- The row belongs to the session. -/
def RowOf (d : Daemon) (id s : Uuid) : Prop := ∃ row, d.getApproval id = some row ∧ row.sessionId = s

structure Gated (d : Daemon) : Prop where
  session : ∀ s phase, d.pumps s = some phase → (d.getSession s).isSome
  own : ∀ s phase id, d.pumps s = some phase → phase.approvalId = some id → RowOf d id s
  gate : ∀ s id n, d.pumps s = some (.parked id n) → d.gates id = some n
  inserted : ∀ s id, d.pumps s = some (.inserted id) → Resolved d id → Unnoticed d id
  parked : ∀ s id n, d.pumps s = some (.parked id n) → Resolved d id →
    Unnoticed d id ∨ Held d id n ∨ HasPermit d n
  waker : ∀ n nt p, d.notifies n = some nt → nt.permit = some (.approve p) →
    d.approvalOwner nt.approvalId = some p
  resumed : ResumedByOwner d

section Gated

variable {d d' : Daemon} {a : Action}

theorem RowOf.mono {id s : Uuid} (h : RowOf d id s) (hext : Extends d d') : RowOf d' id s := by
  obtain ⟨row, hrow, rfl⟩ := h
  obtain ⟨row', hrow', hsession, -⟩ := hext.approvals id row hrow
  exact ⟨row', hrow', hsession⟩

/-- One approval is in the hands of one pump. -/
theorem Gated.unique (hg : Gated d) {s s' id : Uuid} {phase phase' : PumpPhase}
    (h : d.pumps s = some phase) (hid : phase.approvalId = some id)
    (h' : d.pumps s' = some phase') (hid' : phase'.approvalId = some id) : s = s' := by
  obtain ⟨row, hrow, rfl⟩ := hg.own s phase id h hid
  obtain ⟨row', hrow', rfl⟩ := hg.own s' phase' id h' hid'
  rw [Option.some.inj (hrow.symm.trans hrow')]

/-- A pump that has inserted its row keeps every task from looking for its gate. -/
theorem Gated.not_looksUp (hg : Gated d) (hkeeps : KeepsWakeups d a) {s id : Uuid}
    (hpump : d.pumps s = some (.inserted id)) : ¬LooksUp d a id := by
  intro hlook
  obtain ⟨row, hrow, rfl⟩ := hg.own s _ id hpump rfl
  exact registered_of_looksUp hkeeps hlook row hrow hpump

/-- A native request under the guard inserts its row, for its session has one. -/
theorem Gated.not_tolerated (hg : Gated d) {s id : Uuid} {createdAt : Int} (hpump : d.pumps s = some .reading)
    (hkeeps : KeepsWakeups d (.requestApproval s id true createdAt)) :
    d.insertApproval { id := id, sessionId := s, createdAt := createdAt } ≠ none := by
  have hnone := hkeeps rfl
  obtain ⟨row, hrow⟩ := Option.isSome_iff_exists.mp (hg.session s _ hpump)
  simp [Daemon.insertApproval, hnone, hrow]

theorem getSession_addSession_self {s : Session} (hnew : d.getSession s.id = none) :
    (d.addSession s).getSession s.id = some s := by
  rw [Daemon.getSession] at hnew
  simp [Daemon.getSession, Daemon.addSession, List.find?_append, hnew]

theorem Move.session (h : Move d a d') (hg : Gated d) :
    ∀ s phase, d'.pumps s = some phase → (d'.getSession s).isSome := by
  have hold : ∀ s phase, d.pumps s = some phase → (d'.getSession s).isSome := by
    intro s phase hp
    obtain ⟨row, hrow⟩ := Option.isSome_iff_exists.mp (hg.session s phase hp)
    exact Option.isSome_iff_exists.mpr ⟨row, h.extends.sessions s row hrow⟩
  intro s phase hp
  cases h with
  | @launch s' owner hnew =>
    obtain ⟨rfl, -⟩ | ⟨-, hp⟩ := update_eq_some hp
    · exact Option.isSome_iff_exists.mpr ⟨_, getSession_addSession_self (s := ⟨s, owner⟩) hnew⟩
    · exact hold s phase hp
  | inserted hpump _ | tolerated hpump _ | registerGate hpump _ | resume hpump _ | removeGate hpump
  | readResolution hpump | auditGate hpump | exit hpump =>
    obtain ⟨rfl, -⟩ | ⟨-, hp⟩ := update_eq_some hp
    · exact hold s _ hpump
    · exact hold s phase hp
  | _ => exact hold s phase hp

theorem Move.own (h : Move d a d') (hg : Gated d) (hkeeps : KeepsWakeups d a) :
    ∀ s phase id, d'.pumps s = some phase → phase.approvalId = some id → RowOf d' id s := by
  have hext := h.extends
  have hold : ∀ s phase id, d.pumps s = some phase → phase.approvalId = some id → RowOf d' id s :=
    fun s phase id hp hid => (hg.own s phase id hp hid).mono hext
  intro s phase id hp hid
  cases h with
  | launch | auditGate =>
    obtain ⟨-, hnew⟩ | ⟨-, hp⟩ := update_eq_some hp
    · obtain rfl := Option.some.inj hnew
      cases hid
    · exact hold s phase id hp hid
  | exit =>
    obtain ⟨-, hnew⟩ | ⟨-, hp⟩ := update_eq_some hp
    · cases hnew
    · exact hold s phase id hp hid
  | @inserted s' id' native createdAt hpump hnew =>
    obtain ⟨rfl, hnew'⟩ | ⟨-, hp⟩ := update_eq_some hp
    · obtain rfl := Option.some.inj hnew'
      obtain rfl := Option.some.inj hid
      exact ⟨_, (Daemon.getApproval_addApproval hnew).trans (if_pos rfl), rfl⟩
    · exact hold s phase id hp hid
  | tolerated hpump hfail => exact absurd hfail (hg.not_tolerated hpump hkeeps)
  | registerGate hpump _ | resume hpump _ | removeGate hpump | readResolution hpump =>
    obtain ⟨rfl, hnew⟩ | ⟨-, hp⟩ := update_eq_some hp
    · obtain rfl := Option.some.inj hnew
      exact hold s _ id hpump hid
    · exact hold s phase id hp hid
  | _ => exact hold s phase id hp hid

theorem Move.gate (h : Move d a d') (hg : Gated d) :
    ∀ s id n, d'.pumps s = some (.parked id n) → d'.gates id = some n := by
  have hold := hg.gate
  intro s id n hp
  cases h with
  | launch | inserted | tolerated | resume | readResolution | auditGate | exit =>
    obtain ⟨-, hnew⟩ | ⟨-, hp⟩ := update_eq_some hp
    · cases hnew
    · exact hold s id n hp
  | @registerGate s' id' m hpump hfresh =>
    obtain ⟨-, hnew⟩ | ⟨hs, hp⟩ := update_eq_some hp
    · obtain ⟨rfl, rfl⟩ := PumpPhase.parked.inj (Option.some.inj hnew)
      exact Function.update_self ..
    · have hne : id ≠ id' := by
        rintro rfl
        exact hs (hg.unique hp rfl hpump rfl)
      exact (Function.update_of_ne hne ..).trans (hold s id n hp)
  | @removeGate s' id' hpump =>
    obtain ⟨-, hnew⟩ | ⟨hs, hp⟩ := update_eq_some hp
    · cases hnew
    · have hne : id ≠ id' := by
        rintro rfl
        exact hs (hg.unique hp rfl hpump rfl)
      exact (Function.update_of_ne hne ..).trans (hold s id n hp)
  | _ => exact hold s id n hp

theorem Move.inserted_unnoticed (h : Move d a d') (hg : Gated d) (hkeeps : KeepsWakeups d a) :
    ∀ s id, d'.pumps s = some (.inserted id) → Resolved d' id → Unnoticed d' id := by
  intro s id hp hres
  have hold : d.pumps s = some (.inserted id) → Unnoticed d' id := by
    intro hp
    obtain hres | hnews := h.resolved_or hres
    · exact (h.unnoticed_or (hg.inserted s id hp hres)).resolve_right (hg.not_looksUp hkeeps hp)
    · exact hnews
  cases h with
  | launch | registerGate | resume | removeGate | readResolution | auditGate | exit =>
    obtain ⟨-, hnew⟩ | ⟨-, hp⟩ := update_eq_some hp
    · cases hnew
    · exact hold hp
  | @inserted s' id' native createdAt hpump hnew =>
    obtain ⟨-, hnew'⟩ | ⟨-, hp⟩ := update_eq_some hp
    · -- a fresh row is pending
      obtain rfl := PumpPhase.inserted.inj (Option.some.inj hnew')
      obtain ⟨row, hrow, hsome⟩ := resolved_iff.mp hres
      have hfresh := (Daemon.getApproval_addApproval hnew).symm.trans hrow
      rw [if_pos rfl] at hfresh
      obtain rfl := Option.some.inj hfresh
      cases hsome
    · exact hold hp
  | tolerated hpump hfail => exact absurd hfail (hg.not_tolerated hpump hkeeps)
  | _ => exact hold hp

/-- What a parked pump counts on reaches the next state, unless the pump goes on. -/
theorem Move.awaits (h : Move d a d') (hs : Sound d) (hg : Gated d) {s id : Uuid} {n : NotifyId}
    (hpump : d.pumps s = some (.parked id n)) (hstays : a ≠ .resume s) (hres : Resolved d id) :
    Unnoticed d' id ∨ Held d' id n ∨ HasPermit d' n := by
  have hgate := hg.gate s id n hpump
  obtain hnews | hheld | hpermit := hg.parked s id n hpump hres
  · obtain hnews | hlook := h.unnoticed_or hnews
    · exact .inl hnews
    · exact .inr (.inl (h.held_of_looksUp hgate hlook))
  · exact .inr (h.held_or (hs.pumps s _ hpump) hheld)
  · obtain hpermit | ⟨s', id', rfl, hpump'⟩ := h.hasPermit_or hpermit
    · exact .inr (.inr hpermit)
    · -- the handle was made for one approval, which one pump has in hand
      obtain ⟨nt, hnt, rfl⟩ := hs.pumps s _ hpump
      obtain ⟨nt', hnt', rfl⟩ := hs.pumps s' _ hpump'
      obtain rfl := Option.some.inj (hnt.symm.trans hnt')
      exact absurd (congrArg Action.resume (hg.unique hpump' rfl hpump rfl)) hstays

theorem Move.parked_awaits (h : Move d a d') (hs : Sound d) (hg : Gated d) :
    ∀ s id n, d'.pumps s = some (.parked id n) → Resolved d' id →
      Unnoticed d' id ∨ Held d' id n ∨ HasPermit d' n := by
  intro s id n hp hres
  have hold : d.pumps s = some (.parked id n) → a ≠ .resume s →
      Unnoticed d' id ∨ Held d' id n ∨ HasPermit d' n := by
    intro hp hstays
    obtain hres | hnews := h.resolved_or hres
    · exact h.awaits hs hg hp hstays hres
    · exact .inl hnews
  cases h with
  | launch | inserted | tolerated | removeGate | readResolution | auditGate | exit =>
    obtain ⟨-, hnew⟩ | ⟨-, hp⟩ := update_eq_some hp
    · cases hnew
    · exact hold hp (by simp)
  | @registerGate s' id' m hpump hfresh =>
    obtain ⟨-, hnew⟩ | ⟨-, hp⟩ := update_eq_some hp
    · obtain ⟨rfl, rfl⟩ := PumpPhase.parked.inj (Option.some.inj hnew)
      exact .inl (hg.inserted s' _ hpump hres)
    · exact hold hp (by simp)
  | @resume s' id' m b waker hpump hpermit =>
    obtain ⟨-, hnew⟩ | ⟨hs', hp⟩ := update_eq_some hp
    · cases hnew
    · exact hold hp (by simpa using fun h => hs' h.symm)
  | _ => exact hold hp (by simp)

/-- A permit that a command stored is a permit of the approval's owner. -/
theorem Move.waker (h : Move d a d') (hs : Sound d) (hg : Gated d) :
    ∀ n nt p, d'.notifies n = some nt → nt.permit = some (.approve p) →
      d'.approvalOwner nt.approvalId = some p := by
  have hext := h.extends
  have hold : ∀ n nt p, d.notifies n = some nt → nt.permit = some (.approve p) →
      d'.approvalOwner nt.approvalId = some p :=
    fun n nt p hn hp => hext.approvalOwner (hg.waker n nt p hn hp)
  intro n nt p hn hp
  cases h with
  | registerGate | resume =>
    obtain ⟨-, hnew⟩ | ⟨-, hn⟩ := update_eq_some hn
    · obtain rfl := Option.some.inj hnew
      cases hp
    · exact hold n nt p hn hp
  | @approveNotify t q id dec aud m hcall =>
    obtain ⟨-, hnew⟩ | ⟨-, hn⟩ := update_eq_some hn
    · have hcall := hs.calls t _ hcall
      obtain ⟨nt₀, hnt₀, hid⟩ := hcall.gate m rfl
      rw [hnt₀] at hnew
      obtain rfl := Option.some.inj hnew
      cases hperm : nt₀.permit with
      | none =>
        obtain rfl : q = p := by simpa [Notify.notifyOne, hperm] using hp
        exact hext.approvalOwner (hid ▸ hcall.owner)
      | some w =>
        refine hold m nt₀ p hnt₀ ?_
        simpa [Notify.notifyOne, hperm] using hp
    · exact hold n nt p hn hp
  | @sweepNotify t id m rest hpass =>
    obtain ⟨-, hnew⟩ | ⟨-, hn⟩ := update_eq_some hn
    · obtain ⟨nt₀, hnt₀, rfl⟩ := Option.map_eq_some_iff.mp hnew
      cases hperm : nt₀.permit with
      | none => simp [Notify.notifyOne, hperm] at hp
      | some w =>
        refine hold m nt₀ p hnt₀ ?_
        simpa [Notify.notifyOne, hperm] using hp
    · exact hold n nt p hn hp
  | _ => exact hold n nt p hn hp

theorem Move.resumedByOwner (h : Move d a d') (hs : Sound d) (hg : Gated d) : ResumedByOwner d' := by
  have hold : ∀ s id p, (s, id, Waker.approve p) ∈ d.resumed → (d'.getSession s).map (·.ownerId) = some p := by
    intro s id p hin
    obtain ⟨row, hrow, hp⟩ := Option.map_eq_some_iff.mp (hg.resumed s id p hin)
    exact Option.map_eq_some_iff.mpr ⟨row, h.extends.sessions s row hrow, hp⟩
  intro s id p hin
  cases h with
  | @resume s' id' n b waker hpump hpermit =>
    obtain hin | hnew := List.mem_append.mp hin
    · exact hold s id p hin
    · obtain ⟨rfl, rfl, rfl⟩ : s = s' ∧ id = id' ∧ Waker.approve p = waker := by simpa using hnew
      obtain ⟨nt, hnt, hid⟩ := hs.pumps s _ hpump
      obtain rfl := Option.some.inj (hpermit.symm.trans hnt)
      have howner := hg.waker n _ p hpermit rfl
      obtain ⟨row, hrow, hsession⟩ := hg.own s _ id hpump rfl
      obtain ⟨row', session, hrow', hs', hp⟩ := approvalOwner_eq_some_iff.mp howner
      obtain rfl := Option.some.inj (hrow.symm.trans (hid ▸ hrow'))
      exact Option.map_eq_some_iff.mpr ⟨session, hsession ▸ hs', hp⟩
  | _ => exact hold s id p hin

theorem Move.gated (h : Move d a d') (hs : Sound d) (hg : Gated d) (hkeeps : KeepsWakeups d a) : Gated d' :=
  ⟨h.session hg, h.own hg hkeeps, h.gate hg, h.inserted_unnoticed hg hkeeps, h.parked_awaits hs hg,
    h.waker hs hg, h.resumedByOwner hs hg⟩

theorem gated_boot (sessions : List Session) (approvals : List Approval) : Gated (.boot sessions approvals) where
  session := by simp [Daemon.boot]
  own := by simp [Daemon.boot]
  gate := by simp [Daemon.boot]
  inserted := by simp [Daemon.boot]
  parked := by simp [Daemon.boot]
  waker := by simp [Daemon.boot]
  resumed := by simp [ResumedByOwner, Daemon.boot]

end Gated

/-! ## Runs -/

section Runs

variable {d : Daemon} {sessions : List Session} {approvals : List Approval}

theorem gated_of_reaches (hrun : Reaches step KeepsWakeups (.boot sessions approvals) d) : Gated d := by
  refine (hrun.invariant (P := fun d => Sound d ∧ Gated d)
    ⟨sound_boot sessions approvals, gated_boot sessions approvals⟩ ?_).2
  rintro d a d' ⟨hs, hg⟩ hkeeps hnext
  have hmove := step_cases hnext
  exact ⟨hmove.sound hs, hmove.gated hs hg hkeeps⟩

/-- **No wakeup is lost, and only the owner resumes a pump**, along every run whose native requests bring
fresh ids and in which no gate is looked up between its row and its registration. -/
theorem approval_gates_hold (hrun : Reaches step KeepsWakeups (.boot sessions approvals) d) :
    NoLostWakeup d ∧ ResumedByOwner d := by
  have hg := gated_of_reaches hrun
  refine ⟨fun s id n hpump hres hidle => ?_, hg.resumed⟩
  obtain hnews | hheld | hpermit := hg.parked s id n hpump hres
  · exact absurd (.inl hnews) hidle
  · exact absurd (.inr ⟨n, hheld⟩) hidle
  · exact hpermit

end Runs

/-! ## Lost and foreign wakeups -/

section Frame

variable {d d' : Daemon}

/-- The handler or pass an action belongs to. -/
def Action.task : Action → Option TaskId
  | .approveLookup t .. | .approveWrite t | .approveAudit t | .approveFindGate t | .approveNotify t
  | .sweepCollect t _ | .sweepWrite t | .sweepFindGates t | .sweepNotify t => some t
  | _ => none

/-- An action leaves the other tasks alone. -/
theorem Move.frame {a : Action} {t : TaskId} (h : Move d a d') (ht : a.task ≠ some t) :
    d'.calls t = d.calls t ∧ d'.sweeps t = d.sweeps t := by
  have hne : ∀ {t' : TaskId}, some t' ≠ some t → t ≠ t' := fun h heq => h (congrArg some heq.symm)
  cases h with
  | lookup | approveWrite | approveAudit | foundGate | noGate | approveNotify =>
    exact ⟨Function.update_of_ne (hne ht) .., rfl⟩
  | collect | sweepWrite | sweepFindGates | sweepNotify | sweepDone =>
    exact ⟨rfl, Function.update_of_ne (hne ht) ..⟩
  | _ => exact ⟨rfl, rfl⟩

/-- A task that no action of a run belongs to stays idle. -/
theorem idle_of_run {t : TaskId} {acts : List Action} (hrun : runActions step (fun _ _ => True) d acts = some d')
    (hacts : ∀ a ∈ acts, a.task ≠ some t) (hidle : d.calls t = none ∧ d.sweeps t = none) :
    d'.calls t = none ∧ d'.sweeps t = none := by
  induction acts generalizing d with
  | nil =>
    obtain rfl := Option.some.inj hrun
    exact hidle
  | cons a rest ih =>
    rw [runActions, if_pos trivial] at hrun
    obtain ⟨d₁, hstep, hrest⟩ := Option.bind_eq_some_iff.mp hrun
    obtain ⟨hc, hw⟩ := (step_cases hstep).frame (hacts a List.mem_cons_self)
    exact ih hrest (fun b hb => hacts b (List.mem_cons_of_mem _ hb)) ⟨hc.trans hidle.1, hw.trans hidle.2⟩

end Frame

namespace ApprovalGate

/-- Alice's whole Approve of approval 7. -/
def approve : List Action :=
  [.approveLookup 0 "alice" 7 .allow, .approveWrite 0, .approveAudit 0, .approveFindGate 0, .approveNotify 0]

/-- She approves what she sees requested, before the pump has registered its gate. -/
def early : List Action :=
  [.launch 1 "alice", .requestApproval 1 7 true 0, .approveLookup 0 "alice" 7 .allow, .approveWrite 0,
    .approveAudit 0, .approveFindGate 0, .registerGate 1 0]

/-- Two sessions whose agents name the same approval. -/
def shared : List Action :=
  [.launch 1 "alice", .launch 2 "bob", .requestApproval 1 7 true 0, .registerGate 1 0,
    .requestApproval 2 7 true 0, .registerGate 2 1] ++ approve ++ [.resume 2]

end ApprovalGate

/-- One agent, one approval: Alice's pump goes on. -/
theorem approval_gates_hold_resumed :
    ∃ d, Reaches step KeepsWakeups (.boot [] []) d ∧ d.resumed = [(1, 7, .approve "alice")] ∧
      NoLostWakeup d ∧ ResumedByOwner d := by
  have hrun : ((runActions step KeepsWakeups (.boot [] [])
      ([.launch 1 "alice", .requestApproval 1 7 true 0, .registerGate 1 0] ++ ApprovalGate.approve ++
        [.resume 1])).map fun d => d.resumed) = some [(1, 7, .approve "alice")] := by decide
  obtain ⟨d, hd, hres⟩ := Option.map_eq_some_iff.mp hrun
  have hreach := reaches_of_run hd
  exact ⟨d, hreach, hres, approval_gates_hold hreach⟩

/-- Her look between row and gate leaves the pump parked on an answered row for good, and an agent that names
an approval of hers lets her resume Bob's pump. -/
theorem approval_gates_fail :
    (∃ d, Reaches step (fun _ _ => True) (.boot [] []) d ∧ ¬NoLostWakeup d) ∧
      ∃ d, Reaches step (fun _ _ => True) (.boot [] []) d ∧ ¬ResumedByOwner d := by
  constructor
  · have hrun : ((runActions step (fun _ _ => True) (.boot [] []) ApprovalGate.early).map fun d =>
        (d.pumps 1, d.resolutionOf 7, d.notifies 0, (d.calls 0).isNone && (d.sweeps 0).isNone)) =
        some (some (.parked 7 0), some .allow, some ⟨7, none⟩, true) := by decide
    obtain ⟨d, hd, hread⟩ := Option.map_eq_some_iff.mp hrun
    simp only [Prod.mk.injEq, Bool.and_eq_true, Option.isNone_iff_eq_none] at hread
    obtain ⟨hpump, hres, hnt, hzero⟩ := hread
    have hidle : ∀ t, d.calls t = none ∧ d.sweeps t = none := by
      intro t
      by_cases ht : t = 0
      · exact ht ▸ hzero
      · exact idle_of_run hd (by simp [ApprovalGate.early, Action.task, Ne.symm ht]) ⟨rfl, rfl⟩
    refine ⟨d, reaches_of_run hd, fun h => ?_⟩
    obtain ⟨nt, hnt', hpermit⟩ := h 1 7 0 hpump (by rw [Resolved, hres]; rfl) (by
      simp [InFlight, Unnoticed, Held, hidle])
    obtain rfl := Option.some.inj (hnt.symm.trans hnt')
    cases hpermit
  · have hrun : ((runActions step (fun _ _ => True) (.boot [] []) ApprovalGate.shared).map fun d =>
        (d.resumed, d.sessions)) = some ([(2, 7, .approve "alice")], [⟨1, "alice"⟩, ⟨2, "bob"⟩]) := by
      decide
    obtain ⟨d, hd, hread⟩ := Option.map_eq_some_iff.mp hrun
    obtain ⟨hres, hsessions⟩ := Prod.mk.inj hread
    refine ⟨d, reaches_of_run hd, fun h => ?_⟩
    have := h 2 7 "alice" (by simp [hres])
    simp [Daemon.getSession, hsessions] at this

end RallyPoint.Cockpit
