/-
# RallyPoint.Cockpit.Daemon — approval rows, parked pumps, Approve commands and the sweep of the cockpit daemon.

A pump that meets a tool call inserts a pending row, registers a `Notify` under the row's id, parks on it,
and reads the row once it is woken. An Approve command and `sweep_once` look, write, audit and notify in
separate lock sections. Every lock section is one action here, so a run is any interleaving of any number of
pumps, clients and sweeps.

The tables are lists of rows, as the store scans them. What a run can never take back (`Extends`) and what
every state satisfies (`Sound`) are here; the properties of runs are in the modules that import this one.
-/
import RallyPoint.Lib.Steps

namespace RallyPoint.Cockpit

open Lib

abbrev Uuid := Nat

/-- The address of an `Arc<Notify>`. -/
abbrev NotifyId := Nat

/-- Which handler task or sweep pass an action belongs to. -/
abbrev TaskId := Nat

/-! ## Rows and tasks -/

structure Session where
  id : Uuid
  ownerId : String
  deriving DecidableEq, Repr

inductive Resolution
  | allow
  | deny
  | autoDenied
  deriving DecidableEq, Repr

/-- The text the store keeps. -/
def Resolution.asStr : Resolution → String
  | .allow => "allow"
  | .deny => "deny"
  | .autoDenied => "auto_denied"

inductive ApproveDecision
  | allow
  | deny
  deriving DecidableEq, Repr

/-- `decision_str`. -/
def ApproveDecision.resolution : ApproveDecision → Resolution
  | .allow => .allow
  | .deny => .deny

/-- An approval row; instants are in nanoseconds. -/
structure Approval where
  id : Uuid
  sessionId : Uuid
  createdAt : Int
  ttlSecs : Nat := 300
  resolution : Option Resolution := none
  deriving DecidableEq, Repr

/-- The instant from which the sweep denies a pending row. -/
def Approval.deadline (a : Approval) : Int := a.createdAt + a.ttlSecs * 1000000000

inductive Waker
  | approve (principal : String)
  | sweep
  deriving DecidableEq, Repr

/-- A one-permit semaphore. `approvalId` and who stored the permit are bookkeeping. -/
structure Notify where
  approvalId : Uuid
  permit : Option Waker := none
  deriving DecidableEq, Repr

/-- `notify_one`: a permit that is already there stays. -/
def Notify.notifyOne (nt : Notify) (waker : Waker) : Notify := { nt with permit := nt.permit.or (some waker) }

/-- Where a session's pump stands. -/
inductive PumpPhase
  /-- At `rx.recv`. -/
  | reading
  /-- Behind `insert_approval`, before the gate is registered. -/
  | inserted (id : Uuid)
  /-- Registered, at `notified().await` or on the way to it. -/
  | parked (id : Uuid) (n : NotifyId)
  /-- Woken, the gate still in the map. -/
  | woken (id : Uuid)
  /-- The gate removed, the row not read yet. -/
  | released (id : Uuid)
  /-- Acting on the resolution it read. -/
  | decided (id : Uuid) (resolution : Option Resolution)
  deriving DecidableEq, Repr

inductive ApproveStage
  /-- The owner check passed. -/
  | owned
  | written
  | audited
  /-- Holding the gate it found. -/
  | notifying (n : NotifyId)
  deriving DecidableEq, Repr

/-- An Approve command that passed its owner check. -/
structure ApproveCall where
  principal : String
  approvalId : Uuid
  decision : ApproveDecision
  sessionIdForAudit : Option Uuid
  stage : ApproveStage := .owned
  deriving DecidableEq, Repr

/-- A pass of `sweep_once`. -/
inductive SweepPass
  | collected (ids : List Uuid)
  | written (ids : List Uuid)
  | notifying (handles : List (Uuid × NotifyId))
  deriving DecidableEq, Repr

inductive AuditEntry
  | approvalResolved (actor : String) (sessionId : Option Uuid) (approvalId : Uuid) (decision : ApproveDecision)
  | toolGate (sessionId : Uuid) (approvalId : Uuid) (resolution : Option Resolution)
  deriving DecidableEq, Repr

/-- The daemon: its store, its gates, its tasks. `resumed` records which pump left which gate and why. -/
structure Daemon where
  sessions : List Session
  approvals : List Approval
  gates : Uuid → Option NotifyId
  notifies : NotifyId → Option Notify
  pumps : Uuid → Option PumpPhase
  calls : TaskId → Option ApproveCall
  sweeps : TaskId → Option SweepPass
  audit : List AuditEntry
  resumed : List (Uuid × Uuid × Waker)

namespace Daemon

/-- The daemon as it starts, over the rows an earlier process left. -/
def boot (sessions : List Session) (approvals : List Approval) : Daemon where
  sessions := sessions
  approvals := approvals
  gates := fun _ => none
  notifies := fun _ => none
  pumps := fun _ => none
  calls := fun _ => none
  sweeps := fun _ => none
  audit := []
  resumed := []

/-! ## Store calls -/

def getSession (d : Daemon) (id : Uuid) : Option Session := d.sessions.find? (·.id == id)

def getApproval (d : Daemon) (id : Uuid) : Option Approval := d.approvals.find? (·.id == id)

def resolutionOf (d : Daemon) (id : Uuid) : Option Resolution := (d.getApproval id).bind (·.resolution)

def addSession (d : Daemon) (s : Session) : Daemon := { d with sessions := d.sessions ++ [s] }

def addApproval (d : Daemon) (a : Approval) : Daemon := { d with approvals := d.approvals ++ [a] }

/-- The primary key of `sessions` refuses a second row. -/
def createSession (d : Daemon) (s : Session) : Option Daemon :=
  if (d.getSession s.id).isSome then none else some (d.addSession s)

/-- The primary key and the foreign key of `approvals`. -/
def insertApproval (d : Daemon) (a : Approval) : Option Daemon :=
  if (d.getApproval a.id).isSome || (d.getSession a.sessionId).isNone then none
  else some (d.addApproval a)

/-- `UPDATE approvals SET resolution = ?1 WHERE id = ?2`. -/
def resolveRows (r : Resolution) (rows : List Approval) (id : Uuid) : List Approval :=
  rows.map fun a => if a.id == id then { a with resolution := some r } else a

def resolveApproval (d : Daemon) (id : Uuid) (r : Resolution) : Daemon :=
  { d with approvals := resolveRows r d.approvals id }

/-- The sweep's loop over its ids, under one lock. -/
def resolveAll (d : Daemon) (ids : List Uuid) (r : Resolution) : Daemon :=
  { d with approvals := ids.foldl (resolveRows r) d.approvals }

def listPendingApprovals (d : Daemon) : List Approval := d.approvals.filter (·.resolution.isNone)

/-- The owner of the session an approval belongs to. -/
def approvalOwner (d : Daemon) (id : Uuid) : Option String :=
  (d.getApproval id).bind fun a => (d.getSession a.sessionId).map (·.ownerId)

end Daemon

inductive OwnerVerdict
  | owned
  | notFound
  | forbidden
  deriving DecidableEq, Repr

def judgeOwner (owner : Option String) (principal : String) : OwnerVerdict :=
  match owner with
  | none => .notFound
  | some o => if o = principal then .owned else .forbidden

theorem judgeOwner_eq_owned_iff {owner : Option String} {principal : String} :
    judgeOwner owner principal = .owned ↔ owner = some principal := by
  cases owner with
  | none => simp [judgeOwner]
  | some o => by_cases h : o = principal <;> simp [judgeOwner, h]

/-! ## Actions -/

inductive Action
  /-- `launch_session`: the row, then the pump. -/
  | launch (s : Uuid) (owner : String)
  /-- A tool call with a fresh id, or a native approval request with the id the adapter sent. -/
  | requestApproval (s : Uuid) (id : Uuid) (native : Bool) (createdAt : Int)
  | registerGate (s : Uuid) (n : NotifyId)
  | resume (s : Uuid)
  | removeGate (s : Uuid)
  | readResolution (s : Uuid)
  | auditGate (s : Uuid)
  /-- The adapter's channel ended. -/
  | exit (s : Uuid)
  | approveLookup (t : TaskId) (principal : String) (id : Uuid) (decision : ApproveDecision)
  | approveWrite (t : TaskId)
  | approveAudit (t : TaskId)
  | approveFindGate (t : TaskId)
  | approveNotify (t : TaskId)
  | sweepCollect (t : TaskId) (now : Int)
  | sweepWrite (t : TaskId)
  | sweepFindGates (t : TaskId)
  | sweepNotify (t : TaskId)
  deriving DecidableEq, Repr

namespace Daemon

def setPump (d : Daemon) (s : Uuid) (phase : Option PumpPhase) : Daemon :=
  { d with pumps := Function.update d.pumps s phase }

def setCall (d : Daemon) (t : TaskId) (call : Option ApproveCall) : Daemon :=
  { d with calls := Function.update d.calls t call }

def setSweep (d : Daemon) (t : TaskId) (pass : Option SweepPass) : Daemon :=
  { d with sweeps := Function.update d.sweeps t pass }

def setGate (d : Daemon) (id : Uuid) (n : Option NotifyId) : Daemon :=
  { d with gates := Function.update d.gates id n }

def setNotify (d : Daemon) (n : NotifyId) (nt : Notify) : Daemon :=
  { d with notifies := Function.update d.notifies n (some nt) }

def logAudit (d : Daemon) (entry : AuditEntry) : Daemon := { d with audit := d.audit ++ [entry] }

/-- `notify_one` on a handle. -/
def notifyOne (d : Daemon) (n : NotifyId) (waker : Waker) : Daemon :=
  { d with notifies := Function.update d.notifies n ((d.notifies n).map (·.notifyOne waker)) }

end Daemon

/-- One lock section of one task, where it is enabled. -/
def step (d : Daemon) : Action → Option Daemon
  | .launch s owner => (d.createSession ⟨s, owner⟩).map (·.setPump s (some .reading))
  | .requestApproval s id native createdAt =>
    match d.pumps s with
    | some .reading =>
      match d.insertApproval { id := id, sessionId := s, createdAt := createdAt } with
      | some d' => some (d'.setPump s (some (.inserted id)))
      -- a tool call is dropped when its row cannot be inserted, a native request is gated all the same
      | none => some (if native then d.setPump s (some (.inserted id)) else d)
    | _ => none
  | .registerGate s n =>
    match d.pumps s, d.notifies n with
    | some (.inserted id), none =>
      some (((d.setNotify n ⟨id, none⟩).setGate id (some n)).setPump s (some (.parked id n)))
    | _, _ => none
  | .resume s =>
    match d.pumps s with
    | some (.parked id n) =>
      match d.notifies n with
      | some ⟨a, some waker⟩ =>
        some { (d.setNotify n ⟨a, none⟩).setPump s (some (.woken id)) with
          resumed := d.resumed ++ [(s, id, waker)] }
      | _ => none
    | _ => none
  | .removeGate s =>
    match d.pumps s with
    | some (.woken id) => some ((d.setGate id none).setPump s (some (.released id)))
    | _ => none
  | .readResolution s =>
    match d.pumps s with
    | some (.released id) => some (d.setPump s (some (.decided id (d.resolutionOf id))))
    | _ => none
  | .auditGate s =>
    match d.pumps s with
    | some (.decided id r) => some ((d.logAudit (.toolGate s id r)).setPump s (some .reading))
    | _ => none
  | .exit s =>
    match d.pumps s with
    | some .reading => some (d.setPump s none)
    | _ => none
  | .approveLookup t principal id decision =>
    match d.calls t with
    | some _ => none
    | none =>
      match judgeOwner (d.approvalOwner id) principal with
      | .owned => some (d.setCall t (some
          { principal := principal, approvalId := id, decision := decision
            sessionIdForAudit := (d.getApproval id).map (·.sessionId) }))
      | _ => some d
  | .approveWrite t =>
    match d.calls t with
    | some ⟨p, id, dec, aud, .owned⟩ =>
      some ((d.resolveApproval id dec.resolution).setCall t (some ⟨p, id, dec, aud, .written⟩))
    | _ => none
  | .approveAudit t =>
    match d.calls t with
    | some ⟨p, id, dec, aud, .written⟩ =>
      some ((d.logAudit (.approvalResolved p aud id dec)).setCall t (some ⟨p, id, dec, aud, .audited⟩))
    | _ => none
  | .approveFindGate t =>
    match d.calls t with
    | some ⟨p, id, dec, aud, .audited⟩ =>
      match d.gates id with
      | some n => some (d.setCall t (some ⟨p, id, dec, aud, .notifying n⟩))
      | none => some (d.setCall t none)
    | _ => none
  | .approveNotify t =>
    match d.calls t with
    | some ⟨p, _, _, _, .notifying n⟩ => some ((d.notifyOne n (.approve p)).setCall t none)
    | _ => none
  | .sweepCollect t now =>
    match d.sweeps t with
    | some _ => none
    | none =>
      match (d.listPendingApprovals.filter fun a => decide (a.deadline ≤ now)).map (·.id) with
      | [] => some d
      | ids => some (d.setSweep t (some (.collected ids)))
  | .sweepWrite t =>
    match d.sweeps t with
    | some (.collected ids) =>
      some ((d.resolveAll ids .autoDenied).setSweep t (some (.written ids)))
    | _ => none
  | .sweepFindGates t =>
    match d.sweeps t with
    | some (.written ids) =>
      some (d.setSweep t (some (.notifying (ids.filterMap fun id => (d.gates id).map fun n => (id, n)))))
    | _ => none
  | .sweepNotify t =>
    match d.sweeps t with
    | some (.notifying ((_, n) :: rest)) =>
      some ((d.notifyOne n .sweep).setSweep t (some (.notifying rest)))
    | some (.notifying []) => some (d.setSweep t none)
    | _ => none

/-! ## Rows under the store calls -/

section Rows

variable {d : Daemon} {id id' : Uuid}

namespace Daemon

theorem getApproval_isSome_of_mem {a : Approval} (h : a ∈ d.approvals) : (d.getApproval a.id).isSome := by
  rw [getApproval, List.find?_isSome]
  exact ⟨a, h, by simp⟩

theorem getSession_addSession {s t : Session} (h : d.getSession id = some s) :
    (d.addSession t).getSession id = some s := by
  rw [getSession] at h
  simp [getSession, addSession, List.find?_append, h]

theorem getApproval_addApproval {a : Approval} (hnew : d.getApproval a.id = none) :
    (d.addApproval a).getApproval id = if id = a.id then some a else d.getApproval id := by
  rw [getApproval] at hnew
  by_cases h : id = a.id
  · subst h
    simp [getApproval, addApproval, List.find?_append, hnew]
  · have hne : (a.id == id) = false := by simpa using fun heq => h heq.symm
    simp [getApproval, addApproval, List.find?_append, hne, h]

theorem find?_resolveRows {r : Resolution} {rows : List Approval} :
    (resolveRows r rows id).find? (·.id == id') =
      if id' = id then (rows.find? (·.id == id')).map fun a => { a with resolution := some r }
      else rows.find? (·.id == id') := by
  induction rows with
  | nil => simp [resolveRows]
  | cons a rest ih =>
    rw [resolveRows, List.map_cons, List.find?_cons, List.find?_cons]
    by_cases ha : a.id = id'
    · by_cases hid : id' = id <;> simp [ha, hid]
    · have hne : (a.id == id') = false := by simpa using ha
      have hne' : ((if (a.id == id) = true then { a with resolution := some r } else a).id == id') = false := by
        split <;> exact hne
      rw [hne, hne']
      exact ih

/-- An update writes the row of its id and no other. -/
theorem getApproval_resolveApproval {r : Resolution} :
    (d.resolveApproval id r).getApproval id' =
      if id' = id then (d.getApproval id').map fun a => { a with resolution := some r } else d.getApproval id' :=
  find?_resolveRows

/-- A pass writes the rows of its ids and no others. -/
theorem getApproval_resolveAll {ids : List Uuid} {r : Resolution} :
    (d.resolveAll ids r).getApproval id' =
      if id' ∈ ids then (d.getApproval id').map fun a => { a with resolution := some r }
      else d.getApproval id' := by
  simp only [getApproval, resolveAll]
  generalize d.approvals = rows
  induction ids generalizing rows with
  | nil => simp
  | cons id rest ih =>
    rw [List.foldl_cons, ih, find?_resolveRows]
    by_cases hid : id' = id <;> simp [hid, Function.comp_def]

theorem resolutionOf_resolveApproval {r : Resolution} :
    (d.resolveApproval id r).resolutionOf id' =
      if id' = id then (d.getApproval id').map fun _ => r else d.resolutionOf id' := by
  rw [resolutionOf, getApproval_resolveApproval]
  split
  · cases d.getApproval id' <;> rfl
  · rfl

@[simp] theorem getSession_resolveApproval {r : Resolution} {s : Uuid} :
    (d.resolveApproval id r).getSession s = d.getSession s := rfl

theorem resolutionOf_resolveAll {ids : List Uuid} {r : Resolution} :
    (d.resolveAll ids r).resolutionOf id' =
      if id' ∈ ids then (d.getApproval id').map fun _ => r else d.resolutionOf id' := by
  rw [resolutionOf, getApproval_resolveAll]
  split
  · cases d.getApproval id' <;> rfl
  · rfl

end Daemon

end Rows

/-! ## What one action does -/

/-- The transitions, one for each branch an action can take. -/
inductive Move (d : Daemon) : Action → Daemon → Prop
  | launch {s owner} (hnew : d.getSession s = none) :
      Move d (.launch s owner) ((d.addSession ⟨s, owner⟩).setPump s (some .reading))
  | inserted {s id native createdAt} (hpump : d.pumps s = some .reading) (hnew : d.getApproval id = none) :
      Move d (.requestApproval s id native createdAt)
        ((d.addApproval { id := id, sessionId := s, createdAt := createdAt }).setPump s (some (.inserted id)))
  | tolerated {s id createdAt} (hpump : d.pumps s = some .reading)
      (hfail : d.insertApproval { id := id, sessionId := s, createdAt := createdAt } = none) :
      Move d (.requestApproval s id true createdAt) (d.setPump s (some (.inserted id)))
  | dropped {s id createdAt} : Move d (.requestApproval s id false createdAt) d
  | registerGate {s id n} (hpump : d.pumps s = some (.inserted id)) (hfresh : d.notifies n = none) :
      Move d (.registerGate s n)
        (((d.setNotify n ⟨id, none⟩).setGate id (some n)).setPump s (some (.parked id n)))
  | resume {s id n a waker} (hpump : d.pumps s = some (.parked id n))
      (hpermit : d.notifies n = some ⟨a, some waker⟩) :
      Move d (.resume s)
        { (d.setNotify n ⟨a, none⟩).setPump s (some (.woken id)) with resumed := d.resumed ++ [(s, id, waker)] }
  | removeGate {s id} (hpump : d.pumps s = some (.woken id)) :
      Move d (.removeGate s) ((d.setGate id none).setPump s (some (.released id)))
  | readResolution {s id} (hpump : d.pumps s = some (.released id)) :
      Move d (.readResolution s) (d.setPump s (some (.decided id (d.resolutionOf id))))
  | auditGate {s id r} (hpump : d.pumps s = some (.decided id r)) :
      Move d (.auditGate s) ((d.logAudit (.toolGate s id r)).setPump s (some .reading))
  | exit {s} (hpump : d.pumps s = some .reading) : Move d (.exit s) (d.setPump s none)
  | lookup {t p id dec} (hfree : d.calls t = none) (howner : d.approvalOwner id = some p) :
      Move d (.approveLookup t p id dec)
        (d.setCall t (some ⟨p, id, dec, (d.getApproval id).map (·.sessionId), .owned⟩))
  | refused {t p id dec} : Move d (.approveLookup t p id dec) d
  | approveWrite {t p id dec aud} (hcall : d.calls t = some ⟨p, id, dec, aud, .owned⟩) :
      Move d (.approveWrite t)
        ((d.resolveApproval id dec.resolution).setCall t (some ⟨p, id, dec, aud, .written⟩))
  | approveAudit {t p id dec aud} (hcall : d.calls t = some ⟨p, id, dec, aud, .written⟩) :
      Move d (.approveAudit t)
        ((d.logAudit (.approvalResolved p aud id dec)).setCall t (some ⟨p, id, dec, aud, .audited⟩))
  | foundGate {t p id dec aud n} (hcall : d.calls t = some ⟨p, id, dec, aud, .audited⟩)
      (hgate : d.gates id = some n) :
      Move d (.approveFindGate t) (d.setCall t (some ⟨p, id, dec, aud, .notifying n⟩))
  | noGate {t p id dec aud} (hcall : d.calls t = some ⟨p, id, dec, aud, .audited⟩) (hgate : d.gates id = none) :
      Move d (.approveFindGate t) (d.setCall t none)
  | approveNotify {t p id dec aud n} (hcall : d.calls t = some ⟨p, id, dec, aud, .notifying n⟩) :
      Move d (.approveNotify t) ((d.notifyOne n (.approve p)).setCall t none)
  | collect {t now ids} (hfree : d.sweeps t = none)
      (hids : ∀ id ∈ ids, ∃ a ∈ d.approvals, a.id = id ∧ a.resolution = none ∧ a.deadline ≤ now) :
      Move d (.sweepCollect t now) (d.setSweep t (some (.collected ids)))
  | nothingExpired {t now} : Move d (.sweepCollect t now) d
  | sweepWrite {t ids} (hpass : d.sweeps t = some (.collected ids)) :
      Move d (.sweepWrite t)
        ((d.resolveAll ids .autoDenied).setSweep t (some (.written ids)))
  | sweepFindGates {t ids} (hpass : d.sweeps t = some (.written ids)) :
      Move d (.sweepFindGates t)
        (d.setSweep t (some (.notifying (ids.filterMap fun id => (d.gates id).map fun n => (id, n)))))
  | sweepNotify {t id n rest} (hpass : d.sweeps t = some (.notifying ((id, n) :: rest))) :
      Move d (.sweepNotify t) ((d.notifyOne n .sweep).setSweep t (some (.notifying rest)))
  | sweepDone {t} (hpass : d.sweeps t = some (.notifying [])) : Move d (.sweepNotify t) (d.setSweep t none)

theorem insertApproval_eq_some {d d' : Daemon} {a : Approval} (h : d.insertApproval a = some d') :
    d.getApproval a.id = none ∧ d' = d.addApproval a := by
  rw [Daemon.insertApproval] at h
  split at h
  · cases h
  · rename_i hfree
    simp only [Bool.or_eq_true, not_or, Bool.not_eq_true, Option.isSome_eq_false_iff,
      Option.isNone_iff_eq_none] at hfree
    exact ⟨hfree.1, (Option.some.inj h).symm⟩

/-- Every step is one of the transitions. -/
theorem step_cases {d d' : Daemon} {a : Action} (h : step d a = some d') : Move d a d' := by
  cases a with
  | launch s owner =>
    obtain ⟨d₁, hcreate, rfl⟩ := Option.map_eq_some_iff.mp h
    rw [Daemon.createSession] at hcreate
    split at hcreate
    · cases hcreate
    · obtain rfl := Option.some.inj hcreate
      exact .launch (Option.not_isSome_iff_eq_none.mp ‹_›)
  | requestApproval s id native createdAt =>
    simp only [step] at h
    split at h
    · rename_i hpump
      split at h
      · rename_i d₁ hinsert
        obtain ⟨hnew, rfl⟩ := insertApproval_eq_some hinsert
        obtain rfl := Option.some.inj h
        exact .inserted hpump hnew
      · rename_i hfail
        obtain rfl := Option.some.inj h
        cases native with
        | true => exact .tolerated hpump hfail
        | false => exact .dropped
    · cases h
  | registerGate s n =>
    simp only [step] at h
    split at h
    · obtain rfl := Option.some.inj h
      exact .registerGate ‹_› ‹_›
    · cases h
  | resume s =>
    simp only [step] at h
    split at h
    · split at h
      · obtain rfl := Option.some.inj h
        exact .resume ‹_› ‹_›
      · cases h
    · cases h
  | removeGate s =>
    simp only [step] at h
    split at h
    · obtain rfl := Option.some.inj h
      exact .removeGate ‹_›
    · cases h
  | readResolution s =>
    simp only [step] at h
    split at h
    · obtain rfl := Option.some.inj h
      exact .readResolution ‹_›
    · cases h
  | auditGate s =>
    simp only [step] at h
    split at h
    · obtain rfl := Option.some.inj h
      exact .auditGate ‹_›
    · cases h
  | exit s =>
    simp only [step] at h
    split at h
    · obtain rfl := Option.some.inj h
      exact .exit ‹_›
    · cases h
  | approveLookup t p id dec =>
    simp only [step] at h
    split at h
    · cases h
    · split at h
      · obtain rfl := Option.some.inj h
        exact .lookup ‹_› (judgeOwner_eq_owned_iff.mp ‹_›)
      · obtain rfl := Option.some.inj h
        exact .refused
  | approveWrite t =>
    simp only [step] at h
    split at h
    · obtain rfl := Option.some.inj h
      exact .approveWrite ‹_›
    · cases h
  | approveAudit t =>
    simp only [step] at h
    split at h
    · obtain rfl := Option.some.inj h
      exact .approveAudit ‹_›
    · cases h
  | approveFindGate t =>
    simp only [step] at h
    split at h
    · split at h
      · obtain rfl := Option.some.inj h
        exact .foundGate ‹_› ‹_›
      · obtain rfl := Option.some.inj h
        exact .noGate ‹_› ‹_›
    · cases h
  | approveNotify t =>
    simp only [step] at h
    split at h
    · obtain rfl := Option.some.inj h
      exact .approveNotify ‹_›
    · cases h
  | sweepCollect t now =>
    simp only [step] at h
    split at h
    · cases h
    · split at h
      · obtain rfl := Option.some.inj h
        exact .nothingExpired
      · obtain rfl := Option.some.inj h
        refine .collect ‹_› fun id hid => ?_
        obtain ⟨a, ha, rfl⟩ := List.mem_map.mp hid
        simp only [List.mem_filter, decide_eq_true_eq, Daemon.listPendingApprovals,
          Option.isNone_iff_eq_none] at ha
        exact ⟨a, ha.1.1, rfl, ha.1.2, ha.2⟩
  | sweepWrite t =>
    simp only [step] at h
    split at h
    · obtain rfl := Option.some.inj h
      exact .sweepWrite ‹_›
    · cases h
  | sweepFindGates t =>
    simp only [step] at h
    split at h
    · obtain rfl := Option.some.inj h
      exact .sweepFindGates ‹_›
    · cases h
  | sweepNotify t =>
    simp only [step] at h
    split at h
    · obtain rfl := Option.some.inj h
      exact .sweepNotify ‹_›
    · obtain rfl := Option.some.inj h
      exact .sweepDone ‹_›
    · cases h

/-! ## What no run takes back -/

/-- Rows stay, an answered one stays answered, and a `Notify` keeps its address. -/
structure Extends (d d' : Daemon) : Prop where
  sessions : ∀ id s, d.getSession id = some s → d'.getSession id = some s
  approvals : ∀ id a, d.getApproval id = some a → ∃ a', d'.getApproval id = some a' ∧
    a'.sessionId = a.sessionId ∧ (a.resolution.isSome → a'.resolution.isSome)
  notifies : ∀ n nt, d.notifies n = some nt → ∃ nt', d'.notifies n = some nt' ∧ nt'.approvalId = nt.approvalId

section Extends

variable {d d' : Daemon} {id : Uuid}

theorem Extends.refl (d : Daemon) : Extends d d :=
  ⟨fun _ _ h => h, fun _ a h => ⟨a, h, rfl, fun h => h⟩, fun _ nt h => ⟨nt, h, rfl⟩⟩

/-- An action that touches neither rows nor handles. -/
theorem Extends.of_eq (hsessions : d'.sessions = d.sessions) (happrovals : d'.approvals = d.approvals)
    (hnotifies : d'.notifies = d.notifies) : Extends d d' where
  sessions _ _ h := by rwa [Daemon.getSession, hsessions]
  approvals _ a h := ⟨a, by rwa [Daemon.getApproval, happrovals], rfl, fun h => h⟩
  notifies _ nt h := ⟨nt, by rwa [hnotifies], rfl⟩

/-- A row there is, answered or not. -/
def HasRow (d : Daemon) (id : Uuid) : Prop := (d.getApproval id).isSome

def Resolved (d : Daemon) (id : Uuid) : Prop := (d.resolutionOf id).isSome

/-- The handle was made for that approval. -/
def GateFor (d : Daemon) (n : NotifyId) (id : Uuid) : Prop := ∃ nt, d.notifies n = some nt ∧ nt.approvalId = id

theorem resolved_iff : Resolved d id ↔ ∃ a, d.getApproval id = some a ∧ a.resolution.isSome := by
  cases h : d.getApproval id <;> simp [Resolved, Daemon.resolutionOf, h]

theorem Extends.hasRow (hext : Extends d d') (h : HasRow d id) : HasRow d' id := by
  obtain ⟨a, ha⟩ := Option.isSome_iff_exists.mp h
  obtain ⟨a', ha', -⟩ := hext.approvals id a ha
  exact Option.isSome_iff_exists.mpr ⟨a', ha'⟩

theorem Extends.resolved (hext : Extends d d') (h : Resolved d id) : Resolved d' id := by
  obtain ⟨a, ha, hres⟩ := resolved_iff.mp h
  obtain ⟨a', ha', -, hres'⟩ := hext.approvals id a ha
  exact resolved_iff.mpr ⟨a', ha', hres' hres⟩

theorem Extends.gateFor {n : NotifyId} (hext : Extends d d') (h : GateFor d n id) : GateFor d' n id := by
  obtain ⟨nt, hnt, rfl⟩ := h
  exact hext.notifies n nt hnt

theorem approvalOwner_eq_some_iff {p : String} :
    d.approvalOwner id = some p ↔
      ∃ a s, d.getApproval id = some a ∧ d.getSession a.sessionId = some s ∧ s.ownerId = p := by
  simp only [Daemon.approvalOwner, Option.bind_eq_some_iff, Option.map_eq_some_iff]
  grind

theorem Extends.approvalOwner {p : String} (hext : Extends d d') (h : d.approvalOwner id = some p) :
    d'.approvalOwner id = some p := by
  obtain ⟨a, s, ha, hs, hp⟩ := approvalOwner_eq_some_iff.mp h
  obtain ⟨a', ha', hsession, -⟩ := hext.approvals id a ha
  exact approvalOwner_eq_some_iff.mpr ⟨a', s, ha', by rw [hsession]; exact hext.sessions _ _ hs, hp⟩

theorem hasRow_of_owner {p : String} (h : d.approvalOwner id = some p) : HasRow d id := by
  obtain ⟨a, -, ha, -⟩ := approvalOwner_eq_some_iff.mp h
  exact Option.isSome_iff_exists.mpr ⟨a, ha⟩

theorem resolved_resolveApproval {r : Resolution} (h : HasRow d id) : Resolved (d.resolveApproval id r) id := by
  obtain ⟨a, ha⟩ := Option.isSome_iff_exists.mp h
  rw [Resolved, Daemon.resolutionOf_resolveApproval, if_pos rfl, ha]
  rfl

theorem resolved_resolveAll {ids : List Uuid} {r : Resolution} (hid : id ∈ ids) (h : HasRow d id) :
    Resolved (d.resolveAll ids r) id := by
  obtain ⟨a, ha⟩ := Option.isSome_iff_exists.mp h
  rw [Resolved, Daemon.resolutionOf_resolveAll, if_pos hid, ha]
  rfl

theorem notifies_notifyOne {n m : NotifyId} {waker : Waker} :
    (d.notifyOne n waker).notifies m =
      if m = n then (d.notifies n).map (·.notifyOne waker) else d.notifies m :=
  Function.update_apply ..

theorem extends_notifyOne (n : NotifyId) (waker : Waker) : Extends d (d.notifyOne n waker) := by
  refine ⟨fun _ _ h => h, fun _ a h => ⟨a, h, rfl, fun h => h⟩, fun m nt h => ?_⟩
  rw [notifies_notifyOne]
  by_cases hm : m = n
  · subst hm
    exact ⟨nt.notifyOne waker, by simp [h], rfl⟩
  · exact ⟨nt, by rw [if_neg hm, h], rfl⟩

/-- An action keeps what is there. -/
theorem Move.extends {a : Action} (h : Move d a d') : Extends d d' := by
  cases h with
  | launch hnew =>
    exact ⟨fun _ _ h => Daemon.getSession_addSession h, fun _ a h => ⟨a, h, rfl, fun h => h⟩,
      fun _ nt h => ⟨nt, h, rfl⟩⟩
  | @inserted s id native createdAt hpump hnew =>
    refine ⟨fun _ _ h => h, fun id' a h => ⟨a, ?_, rfl, fun h => h⟩, fun _ nt h => ⟨nt, h, rfl⟩⟩
    have hne : id' ≠ id := by
      rintro rfl
      simp [hnew] at h
    exact (Daemon.getApproval_addApproval hnew).trans (by rw [if_neg hne, h])
  | @registerGate s id n hpump hfresh =>
    refine ⟨fun _ _ h => h, fun _ a h => ⟨a, h, rfl, fun h => h⟩, fun m nt h => ⟨nt, ?_, rfl⟩⟩
    have hne : m ≠ n := by
      rintro rfl
      simp [hfresh] at h
    exact (Function.update_of_ne hne ..).trans h
  | @resume s id n a waker hpump hpermit =>
    refine ⟨fun _ _ h => h, fun _ a h => ⟨a, h, rfl, fun h => h⟩, fun m nt h => ?_⟩
    by_cases hm : m = n
    · subst hm
      obtain rfl := Option.some.inj (hpermit.symm.trans h)
      exact ⟨⟨a, none⟩, Function.update_self .., rfl⟩
    · exact ⟨nt, (Function.update_of_ne hm ..).trans h, rfl⟩
  | @approveWrite t p id dec aud hcall =>
    refine ⟨fun _ _ h => h, fun id' a h => ?_, fun _ nt h => ⟨nt, h, rfl⟩⟩
    have hrow : (d.resolveApproval id dec.resolution).getApproval id' = _ := Daemon.getApproval_resolveApproval
    by_cases hid : id' = id
    · exact ⟨{ a with resolution := some dec.resolution }, by rw [if_pos hid, h] at hrow; exact hrow, rfl,
        fun _ => rfl⟩
    · exact ⟨a, by rw [if_neg hid, h] at hrow; exact hrow, rfl, fun h => h⟩
  | @sweepWrite t ids hpass =>
    refine ⟨fun _ _ h => h, fun id' a h => ?_, fun _ nt h => ⟨nt, h, rfl⟩⟩
    have hrow : (d.resolveAll ids .autoDenied).getApproval id' = _ := Daemon.getApproval_resolveAll
    by_cases hid : id' ∈ ids
    · exact ⟨{ a with resolution := some .autoDenied }, by rw [if_pos hid, h] at hrow; exact hrow, rfl,
        fun _ => rfl⟩
    · exact ⟨a, by rw [if_neg hid, h] at hrow; exact hrow, rfl, fun h => h⟩
  | @approveNotify t p id dec aud n hcall =>
    have hext := extends_notifyOne (d := d) n (.approve p)
    exact ⟨hext.sessions, hext.approvals, hext.notifies⟩
  | @sweepNotify t id n rest hpass =>
    have hext := extends_notifyOne (d := d) n .sweep
    exact ⟨hext.sessions, hext.approvals, hext.notifies⟩
  | dropped => exact .refl d
  | refused => exact .refl d
  | nothingExpired => exact .refl d
  | _ => exact .of_eq rfl rfl rfl

end Extends

/-! ## What every state satisfies -/

/-- A pump parks on its own handle, and goes on only behind an answered row. -/
def PumpSound (d : Daemon) : PumpPhase → Prop
  | .reading | .inserted _ => True
  | .parked id n => GateFor d n id
  | .woken id | .released id => Resolved d id
  | .decided _ r => r.isSome

/-- An Approve command acts for the owner, and a found gate is one of its approval. -/
structure CallSound (d : Daemon) (call : ApproveCall) : Prop where
  owner : d.approvalOwner call.approvalId = some call.principal
  written : call.stage ≠ .owned → Resolved d call.approvalId
  gate : ∀ n, call.stage = .notifying n → GateFor d n call.approvalId

def SweepSound (d : Daemon) : SweepPass → Prop
  | .collected ids => ∀ id ∈ ids, HasRow d id
  | .written ids => ∀ id ∈ ids, Resolved d id
  | .notifying handles => ∀ h ∈ handles, Resolved d h.1 ∧ GateFor d h.2 h.1

/-- A permit is stored only behind a resolution. -/
def NotifySound (d : Daemon) (nt : Notify) : Prop := nt.permit.isSome → Resolved d nt.approvalId

structure Sound (d : Daemon) : Prop where
  pumps : ∀ s phase, d.pumps s = some phase → PumpSound d phase
  gates : ∀ id n, d.gates id = some n → GateFor d n id
  notifies : ∀ n nt, d.notifies n = some nt → NotifySound d nt
  calls : ∀ t call, d.calls t = some call → CallSound d call
  sweeps : ∀ t pass, d.sweeps t = some pass → SweepSound d pass

section Sound

variable {d d' : Daemon} {a : Action}

theorem PumpSound.mono {phase : PumpPhase} (h : PumpSound d phase) (hext : Extends d d') :
    PumpSound d' phase := by
  cases phase with
  | reading | inserted _ => trivial
  | parked id n => exact hext.gateFor h
  | woken id | released id => exact hext.resolved h
  | decided id r => exact h

theorem CallSound.mono {call : ApproveCall} (h : CallSound d call) (hext : Extends d d') : CallSound d' call :=
  ⟨hext.approvalOwner h.owner, fun hs => hext.resolved (h.written hs), fun n hs => hext.gateFor (h.gate n hs)⟩

theorem SweepSound.mono {pass : SweepPass} (h : SweepSound d pass) (hext : Extends d d') :
    SweepSound d' pass := by
  cases pass with
  | collected ids => exact fun id hid => hext.hasRow (h id hid)
  | written ids => exact fun id hid => hext.resolved (h id hid)
  | notifying handles => exact fun p hp => ⟨hext.resolved (h p hp).1, hext.gateFor (h p hp).2⟩

theorem NotifySound.mono {nt : Notify} (h : NotifySound d nt) (hext : Extends d d') : NotifySound d' nt :=
  fun hp => hext.resolved (h hp)

theorem sound_boot (sessions : List Session) (approvals : List Approval) : Sound (.boot sessions approvals) where
  pumps := by simp [Daemon.boot]
  gates := by simp [Daemon.boot]
  notifies := by simp [Daemon.boot]
  calls := by simp [Daemon.boot]
  sweeps := by simp [Daemon.boot]

/-- The row a permit speaks of is that of the parked pump. -/
theorem Sound.resolved_of_permit {s id : Uuid} {n : NotifyId} {nt : Notify} (hs : Sound d)
    (hpump : d.pumps s = some (.parked id n)) (hnt : d.notifies n = some nt) (hpermit : nt.permit.isSome) :
    Resolved d id := by
  obtain ⟨nt', hnt', hid⟩ := hs.pumps s _ hpump
  obtain rfl := Option.some.inj (hnt.symm.trans hnt')
  exact hid ▸ hs.notifies n nt hnt hpermit

theorem Move.pumpSound (h : Move d a d') (hs : Sound d) :
    ∀ s phase, d'.pumps s = some phase → PumpSound d' phase := by
  have hold : ∀ s phase, d.pumps s = some phase → PumpSound d' phase :=
    fun s phase hp => (hs.pumps s phase hp).mono h.extends
  intro s phase hp
  cases h with
  | launch | inserted | tolerated | auditGate =>
    obtain ⟨-, hnew⟩ | ⟨-, hp⟩ := update_eq_some hp
    · obtain rfl := Option.some.inj hnew
      trivial
    · exact hold s phase hp
  | @registerGate s' id n hpump hfresh =>
    obtain ⟨-, hnew⟩ | ⟨-, hp⟩ := update_eq_some hp
    · obtain rfl := Option.some.inj hnew
      exact ⟨⟨id, none⟩, Function.update_self .., rfl⟩
    · exact hold s phase hp
  | @resume s' id n b waker hpump hpermit =>
    obtain ⟨-, hnew⟩ | ⟨-, hp⟩ := update_eq_some hp
    · obtain rfl := Option.some.inj hnew
      exact hs.resolved_of_permit hpump hpermit rfl
    · exact hold s phase hp
  | @removeGate s' id hpump =>
    obtain ⟨-, hnew⟩ | ⟨-, hp⟩ := update_eq_some hp
    · obtain rfl := Option.some.inj hnew
      exact hs.pumps s' _ hpump
    · exact hold s phase hp
  | @readResolution s' id hpump =>
    obtain ⟨-, hnew⟩ | ⟨-, hp⟩ := update_eq_some hp
    · obtain rfl := Option.some.inj hnew
      exact hs.pumps s' _ hpump
    · exact hold s phase hp
  | exit =>
    obtain ⟨-, hnew⟩ | ⟨-, hp⟩ := update_eq_some hp
    · cases hnew
    · exact hold s phase hp
  | _ => exact hold s phase hp

theorem Move.gateSound (h : Move d a d') (hs : Sound d) : ∀ id n, d'.gates id = some n → GateFor d' n id := by
  have hold : ∀ id n, d.gates id = some n → GateFor d' n id :=
    fun id n hg => h.extends.gateFor (hs.gates id n hg)
  intro id n hg
  cases h with
  | @registerGate s' id' m hpump hfresh =>
    obtain ⟨rfl, hnew⟩ | ⟨-, hg⟩ := update_eq_some hg
    · obtain rfl := Option.some.inj hnew
      exact ⟨⟨id, none⟩, Function.update_self .., rfl⟩
    · exact hold id n hg
  | removeGate =>
    obtain ⟨-, hnew⟩ | ⟨-, hg⟩ := update_eq_some hg
    · cases hnew
    · exact hold id n hg
  | _ => exact hold id n hg

/-- Only a task whose write is done stores a permit. -/
theorem notifySound_notifyOne {n m : NotifyId} {id : Uuid} {nt : Notify} {waker : Waker} (hs : Sound d)
    (hgate : GateFor d n id) (hres : Resolved d id) (h : (d.notifyOne n waker).notifies m = some nt) :
    NotifySound d nt := by
  rw [notifies_notifyOne] at h
  split at h
  · obtain ⟨nt₀, hnt₀, hid⟩ := hgate
    rw [hnt₀] at h
    obtain rfl := Option.some.inj h
    exact fun _ => hid ▸ hres
  · exact hs.notifies m nt h

theorem Move.notifySound (h : Move d a d') (hs : Sound d) :
    ∀ n nt, d'.notifies n = some nt → NotifySound d' nt := by
  have hext := h.extends
  have hold : ∀ n nt, d.notifies n = some nt → NotifySound d' nt :=
    fun n nt hn => (hs.notifies n nt hn).mono hext
  intro n nt hn
  cases h with
  | registerGate | resume =>
    obtain ⟨-, hnew⟩ | ⟨-, hn⟩ := update_eq_some hn
    · obtain rfl := Option.some.inj hnew
      intro hp
      cases hp
    · exact hold n nt hn
  | @approveNotify t p id dec aud m hcall =>
    have hcall := hs.calls t _ hcall
    exact (notifySound_notifyOne hs (hcall.gate m rfl) (hcall.written (by simp)) hn).mono hext
  | @sweepNotify t id m rest hpass =>
    obtain ⟨hres, hgate⟩ := hs.sweeps t _ hpass (id, m) List.mem_cons_self
    exact (notifySound_notifyOne hs hgate hres hn).mono hext
  | _ => exact hold n nt hn

theorem Move.callSound (h : Move d a d') (hs : Sound d) :
    ∀ t call, d'.calls t = some call → CallSound d' call := by
  have hext := h.extends
  have hold : ∀ t call, d.calls t = some call → CallSound d' call :=
    fun t call hc => (hs.calls t call hc).mono hext
  intro t call hc
  cases h with
  | @lookup t' p id dec hfree howner =>
    obtain ⟨-, hnew⟩ | ⟨-, hc⟩ := update_eq_some hc
    · obtain rfl := Option.some.inj hnew
      exact ⟨howner, fun h => absurd rfl h, fun _ h => by cases h⟩
    · exact hold t call hc
  | @approveWrite t' p id dec aud hcall =>
    obtain ⟨-, hnew⟩ | ⟨-, hc⟩ := update_eq_some hc
    · obtain rfl := Option.some.inj hnew
      have howner := (hs.calls t' _ hcall).owner
      exact ⟨hext.approvalOwner howner, fun _ => resolved_resolveApproval (hasRow_of_owner howner),
        fun _ h => by cases h⟩
    · exact hold t call hc
  | @approveAudit t' p id dec aud hcall =>
    obtain ⟨-, hnew⟩ | ⟨-, hc⟩ := update_eq_some hc
    · obtain rfl := Option.some.inj hnew
      have hcall := hold t' _ hcall
      exact ⟨hcall.owner, fun _ => hcall.written (by simp), fun _ h => by cases h⟩
    · exact hold t call hc
  | @foundGate t' p id dec aud n hcall hgate =>
    obtain ⟨-, hnew⟩ | ⟨-, hc⟩ := update_eq_some hc
    · obtain rfl := Option.some.inj hnew
      have hcall := hold t' _ hcall
      refine ⟨hcall.owner, fun _ => hcall.written (by simp), fun m h => ?_⟩
      obtain rfl := ApproveStage.notifying.inj h
      exact hext.gateFor (hs.gates id n hgate)
    · exact hold t call hc
  | noGate | approveNotify =>
    obtain ⟨-, hnew⟩ | ⟨-, hc⟩ := update_eq_some hc
    · cases hnew
    · exact hold t call hc
  | _ => exact hold t call hc

theorem Move.sweepSound (h : Move d a d') (hs : Sound d) :
    ∀ t pass, d'.sweeps t = some pass → SweepSound d' pass := by
  have hext := h.extends
  have hold : ∀ t pass, d.sweeps t = some pass → SweepSound d' pass :=
    fun t pass hw => (hs.sweeps t pass hw).mono hext
  intro t pass hw
  cases h with
  | @collect t' now ids hfree hids =>
    obtain ⟨-, hnew⟩ | ⟨-, hw⟩ := update_eq_some hw
    · obtain rfl := Option.some.inj hnew
      intro id hid
      obtain ⟨row, hrow, rfl, -⟩ := hids id hid
      exact Daemon.getApproval_isSome_of_mem hrow
    · exact hold t pass hw
  | @sweepWrite t' ids hpass =>
    obtain ⟨-, hnew⟩ | ⟨-, hw⟩ := update_eq_some hw
    · obtain rfl := Option.some.inj hnew
      exact fun id hid => resolved_resolveAll hid (hs.sweeps t' _ hpass id hid)
    · exact hold t pass hw
  | @sweepFindGates t' ids hpass =>
    obtain ⟨-, hnew⟩ | ⟨-, hw⟩ := update_eq_some hw
    · obtain rfl := Option.some.inj hnew
      intro handle hh
      obtain ⟨id, hid, hfound⟩ := List.mem_filterMap.mp hh
      obtain ⟨n, hn, rfl⟩ := Option.map_eq_some_iff.mp hfound
      exact ⟨hext.resolved (hs.sweeps t' _ hpass id hid), hext.gateFor (hs.gates id n hn)⟩
    · exact hold t pass hw
  | @sweepNotify t' id n rest hpass =>
    obtain ⟨-, hnew⟩ | ⟨-, hw⟩ := update_eq_some hw
    · obtain rfl := Option.some.inj hnew
      exact fun handle hh => hold t' _ hpass handle (List.mem_cons_of_mem _ hh)
    · exact hold t pass hw
  | sweepDone =>
    obtain ⟨-, hnew⟩ | ⟨-, hw⟩ := update_eq_some hw
    · cases hnew
    · exact hold t pass hw
  | _ => exact hold t pass hw

theorem Move.sound (h : Move d a d') (hs : Sound d) : Sound d' :=
  ⟨h.pumpSound hs, h.gateSound hs, h.notifySound hs, h.callSound hs, h.sweepSound hs⟩

/-- Every run, guarded or not, stays sound. -/
theorem sound_of_reaches {may : Daemon → Action → Prop} {sessions : List Session} {approvals : List Approval}
    (hrun : Reaches step may (.boot sessions approvals) d) : Sound d :=
  hrun.invariant (sound_boot sessions approvals) fun _ _ _ hs _ hnext => (step_cases hnext).sound hs

end Sound

end RallyPoint.Cockpit
