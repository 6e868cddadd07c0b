/-
# RallyPoint.Limiter — the concurrency limiter of the fan-out hosts (`dynamic-workflows/core/limiter.mjs`).

Callers hand task functions to one function; it starts them, or queues a waiter while as many are active as the limit
allows. JavaScript runs one piece of code to its end and then the microtasks in the order they were queued, so a slot
is given back in one microtask and taken in a later one. In between the count says that a slot is free although a
woken waiter is on its way to it. A call that lands there starts beside the waiter (`limiter_overcommits`); in runs
without such a call the limit holds (`limiter_bounded_of_unreserved`). The order of the waiters and their wakeups do
not depend on it (`keeps_of_reaches`).
-/
import RallyPoint.Delivery
import RallyPoint.Lib.Steps

namespace RallyPoint.Limiter

open Lib

/-! ## The limit -/

/-- `Math.max(1, Math.floor(limit) || 1)`; nothing where that is `Infinity`. -/
def maxOf : F64 → Option Nat
  | .finite value => some (max 1 (if value.floor = 0 then 1 else value.floor)).toNat
  | .infinite false => none
  | .infinite true => some 1
  | .nan => some 1

/-- `active >= max`. -/
def atLimit (limit : Option Nat) (active : Int) : Bool :=
  match limit with
  | none => false
  | some m => m ≤ active

/-! ## The state -/

/-- A job of the microtask queue. -/
inductive Microtask
  /-- A resolved waiter, behind `await new Promise`. -/
  | resume (id : Nat)
  /-- A settled task, behind `await fn()`. -/
  | release (id : Nat)
  /-- Code of a caller. -/
  | callback
  deriving DecidableEq, Repr

/-- A running piece of code: a caller's, at the bottom of the stack, or a task function that has not returned. -/
inductive Frame
  | script
  | task (id : Nat)
  deriving DecidableEq, Repr

/-- The limiter, its tasks and the queue they run on. Calls are numbered; `queued` and `resumed` record in which order
waiters were queued and went on. -/
structure State where
  active : Int := 0
  queue : List Nat := []
  microtasks : List Microtask := []
  stack : List Frame := []
  /-- Started tasks whose promise is pending. -/
  awaiting : List Nat := []
  calls : Nat := 0
  queued : List Nat := []
  resumed : List Nat := []
  deriving DecidableEq, Repr

/-- What a promise sets off when it settles: a caller's code, or the settling of a task's promise. -/
inductive Reaction
  | callback
  | settles (id : Nat)
  deriving DecidableEq, Repr

inductive Action
  /-- A new turn of the event loop, with code of a caller. -/
  | macrotask
  /-- The next microtask; `reactions` are those of the limiter's promise if it settles there. -/
  | microtask (reactions : List Reaction)
  /-- The running code calls the limiter. -/
  | call
  /-- The running code settles a promise or queues a microtask. -/
  | resolve (reaction : Reaction)
  /-- The running task function returns, a pending promise or something that is settled. -/
  | returns (settled : Bool)
  /-- The running task function throws before it returns. -/
  | throws (reactions : List Reaction)
  /-- The running code of a caller ends. -/
  | endTurn
  deriving DecidableEq, Repr

namespace State

/-- A queued reaction. -/
def react (s : State) : List Reaction → State
  | [] => s
  | .callback :: rest => react { s with microtasks := s.microtasks ++ [.callback] } rest
  | .settles id :: rest =>
    if id ∈ s.awaiting then
      react { s with awaiting := s.awaiting.erase id, microtasks := s.microtasks ++ [.release id] } rest
    else react s rest

/-- `next`: the slot is given back, and the first waiter's promise is resolved. -/
def next (s : State) : State :=
  match s.queue with
  | [] => { s with active := s.active - 1 }
  | waiter :: rest =>
    { s with active := s.active - 1, queue := rest, microtasks := s.microtasks ++ [.resume waiter] }

end State

/-- One action under the given maximum. -/
def step (limit : Option Nat) (s : State) : Action → Option State
  | .macrotask => if s.stack = [] ∧ s.microtasks = [] then some { s with stack := [.script] } else none
  | .microtask reactions =>
    match s.stack, s.microtasks with
    | [], .callback :: rest => some { s with microtasks := rest, stack := [.script] }
    | [], .resume id :: rest =>
      some { s with active := s.active + 1, microtasks := rest, stack := [.task id], resumed := s.resumed ++ [id] }
    | [], .release _ :: rest => some ({ s with microtasks := rest }.next.react reactions)
    | _, _ => none
  | .call =>
    if s.stack = [] then none
    else if atLimit limit s.active then
      some { s with queue := s.queue ++ [s.calls], queued := s.queued ++ [s.calls], calls := s.calls + 1 }
    else some { s with active := s.active + 1, stack := .task s.calls :: s.stack, calls := s.calls + 1 }
  | .resolve reaction => if s.stack = [] then none else some (s.react [reaction])
  | .returns settled =>
    match s.stack with
    | .task id :: rest =>
      if settled then some { s with stack := rest, microtasks := s.microtasks ++ [.release id] }
      else some { s with stack := rest, awaiting := s.awaiting ++ [id] }
    | _ => none
  | .throws reactions =>
    match s.stack with
    | .task _ :: rest => some ({ s with stack := rest }.next.react reactions)
    | _ => none
  | .endTurn => if s.stack = [.script] then some { s with stack := [] } else none

/-! ## What is counted -/

def Microtask.resumed : Microtask → Option Nat
  | .resume id => some id
  | _ => none

@[simp] def Microtask.isRelease : Microtask → Bool
  | .release _ => true
  | _ => false

@[simp] def Frame.isTask : Frame → Bool
  | .task _ => true
  | .script => false

namespace State

/-- The woken waiters that did not go on yet. -/
def woken (s : State) : List Nat := s.microtasks.filterMap Microtask.resumed

/-- The settled tasks whose slot was not given back yet. -/
def unreleased (s : State) : Nat := s.microtasks.countP Microtask.isRelease

/-- The task functions that are started and unsettled. -/
def running (s : State) : Nat := s.awaiting.length + s.stack.countP Frame.isTask

end State

/-- What the limiter promises of a state. -/
structure Promised (limit : Option Nat) (s : State) : Prop where
  bounded : ∀ m, limit = some m → s.running ≤ m
  fifo : s.resumed <+: s.queued
  settled : s.microtasks = [] → s.active = s.running ∧ (s.queue = [] ∨ ∃ m, limit = some m ∧ m ≤ s.running)

/-! ## What every run keeps -/

/-- The count is the running tasks, the unreleased ones and `owed` more; waiters go on in the order they came, none is
lost, and while one waits there is somebody to wake it. -/
structure Keeps (limit : Option Nat) (owed : Nat) (s : State) : Prop where
  counted : s.active = s.running + s.unreleased + owed
  order : s.queued = s.resumed ++ s.woken ++ s.queue
  waiting : s.queue ≠ [] → ∃ m, limit = some m ∧ m ≤ s.active + s.woken.length

/-- No more slots are taken or promised to a woken waiter than there are. -/
def Reserved (limit : Option Nat) (s : State) : Prop := ∀ m, limit = some m → s.active + s.woken.length ≤ m

section Kept

variable {limit : Option Nat} {owed : Nat} {s t : State} {id : Nat} {rest : List Microtask}

@[simp] theorem resumed_callback :
    (Microtask.callback :: rest).filterMap Microtask.resumed = rest.filterMap Microtask.resumed := rfl

@[simp] theorem resumed_release :
    (Microtask.release id :: rest).filterMap Microtask.resumed = rest.filterMap Microtask.resumed := rfl

@[simp] theorem resumed_resume :
    (Microtask.resume id :: rest).filterMap Microtask.resumed = id :: rest.filterMap Microtask.resumed := rfl

/-- The three in terms of the queues and the stack. -/
theorem keeps_iff : Keeps limit owed s ↔
    s.active = s.awaiting.length + s.stack.countP Frame.isTask + s.microtasks.countP Microtask.isRelease + owed ∧
    s.queued = s.resumed ++ s.microtasks.filterMap Microtask.resumed ++ s.queue ∧
    (s.queue ≠ [] → ∃ m, limit = some m ∧ m ≤ s.active + (s.microtasks.filterMap Microtask.resumed).length) := by
  constructor
  · rintro ⟨hcounted, horder, hwaiting⟩
    exact ⟨by simpa [State.running, State.unreleased] using hcounted, horder, hwaiting⟩
  · rintro ⟨hcounted, horder, hwaiting⟩
    exact ⟨by simpa [State.running, State.unreleased] using hcounted, horder, hwaiting⟩

theorem Keeps.next (h : Keeps limit (owed + 1) s) : Keeps limit owed s.next := by
  rw [keeps_iff] at h ⊢
  obtain ⟨hcounted, horder, hwaiting⟩ := h
  cases hqueue : s.queue with
  | nil =>
    rw [hqueue] at horder
    simp only [State.next, hqueue]
    exact ⟨by omega, horder, fun h => absurd rfl h⟩
  | cons waiter rest =>
    rw [hqueue] at horder hwaiting
    obtain ⟨m, hm, hle⟩ := hwaiting (List.cons_ne_nil _ _)
    simp only [State.next, hqueue, List.filterMap_append, List.countP_append, List.length_append]
    refine ⟨?_, ?_, fun _ => ⟨m, hm, ?_⟩⟩
    · simp
      omega
    · simpa using horder
    · simp
      omega

/-- A settled task is unreleased instead of running; a caller's code is neither. -/
theorem Keeps.react (h : Keeps limit owed s) (reactions : List Reaction) : Keeps limit owed (s.react reactions) := by
  induction reactions generalizing s with
  | nil => exact h
  | cons reaction rest ih =>
    cases reaction with
    | callback =>
      refine ih ?_
      rw [keeps_iff] at h ⊢
      simpa using h
    | settles id =>
      rw [State.react]
      split
      case isTrue hmem =>
        have hlength := List.length_erase_of_mem hmem
        have hpos := List.length_pos_of_mem hmem
        refine ih ?_
        rw [keeps_iff] at h ⊢
        obtain ⟨hcounted, horder, hwaiting⟩ := h
        refine ⟨?_, by simpa using horder, by simpa using hwaiting⟩
        simp
        omega
      case isFalse => exact ih h

/-- **One action keeps the count, the order and the wakeups.** -/
theorem Keeps.step {a : Action} (h : Keeps limit 0 s) (hstep : step limit s a = some t) : Keeps limit 0 t := by
  have hkeeps := keeps_iff.mp h
  cases a with
  | macrotask =>
    simp only [Limiter.step, Option.ite_none_right_eq_some, Option.some.injEq] at hstep
    obtain ⟨⟨hstack, htasks⟩, rfl⟩ := hstep
    rw [keeps_iff]
    simpa [hstack] using hkeeps
  | microtask reactions =>
    simp only [Limiter.step] at hstep
    split at hstep
    case h_1 rest hstack htasks =>
      obtain rfl := Option.some.inj hstep
      rw [keeps_iff]
      simpa [hstack, htasks, List.countP_cons] using hkeeps
    case h_2 id rest hstack htasks =>
      -- the waiter is no longer woken, it is running
      obtain rfl := Option.some.inj hstep
      rw [keeps_iff]
      rw [hstack, htasks] at hkeeps
      obtain ⟨hcounted, horder, hwaiting⟩ := hkeeps
      refine ⟨?_, by simpa using horder, ?_⟩
      · simp [List.countP_cons] at hcounted ⊢
        omega
      · intro hne
        obtain ⟨m, hm, hle⟩ := hwaiting hne
        refine ⟨m, hm, ?_⟩
        simp at hle ⊢
        omega
    case h_3 id rest hstack htasks =>
      -- the slot of a settled task is owed until `next`
      obtain rfl := Option.some.inj hstep
      refine Keeps.react (Keeps.next ?_) reactions
      rw [keeps_iff]
      rw [htasks] at hkeeps
      obtain ⟨hcounted, horder, hwaiting⟩ := hkeeps
      refine ⟨?_, by simpa using horder, by simpa using hwaiting⟩
      simp [List.countP_cons] at hcounted ⊢
      omega
    case h_4 => cases hstep
  | call =>
    simp only [Limiter.step] at hstep
    split at hstep
    case isTrue => cases hstep
    case isFalse =>
      obtain ⟨hcounted, horder, hwaiting⟩ := hkeeps
      split at hstep
      case isTrue hfull =>
        obtain rfl := Option.some.inj hstep
        rw [keeps_iff]
        refine ⟨hcounted, by simp [horder], fun _ => ?_⟩
        cases limit with
        | none => cases hfull
        | some m =>
          have hle : (m : Int) ≤ s.active := of_decide_eq_true hfull
          exact ⟨m, rfl, by simp; omega⟩
      case isFalse hfree =>
        obtain rfl := Option.some.inj hstep
        rw [keeps_iff]
        refine ⟨?_, horder, ?_⟩
        · simp [List.countP_cons]
          omega
        · intro hne
          obtain ⟨m, hm, hle⟩ := hwaiting hne
          exact ⟨m, hm, by simp at hle ⊢; omega⟩
  | resolve reaction =>
    simp only [Limiter.step, Option.ite_none_left_eq_some, Option.some.injEq] at hstep
    obtain ⟨-, rfl⟩ := hstep
    exact h.react _
  | returns settled =>
    simp only [Limiter.step] at hstep
    split at hstep
    case h_1 id rest hstack =>
      rw [hstack] at hkeeps
      obtain ⟨hcounted, horder, hwaiting⟩ := hkeeps
      split at hstep
      all_goals
        obtain rfl := Option.some.inj hstep
        rw [keeps_iff]
        refine ⟨?_, by simpa using horder, by simpa using hwaiting⟩
        simp [List.countP_cons] at hcounted ⊢
        omega
    case h_2 => cases hstep
  | throws reactions =>
    simp only [Limiter.step] at hstep
    split at hstep
    case h_1 id rest hstack =>
      obtain rfl := Option.some.inj hstep
      refine Keeps.react (Keeps.next ?_) reactions
      rw [hstack] at hkeeps
      obtain ⟨hcounted, horder, hwaiting⟩ := hkeeps
      rw [keeps_iff]
      refine ⟨?_, horder, hwaiting⟩
      simp [List.countP_cons] at hcounted ⊢
      omega
    case h_2 => cases hstep
  | endTurn =>
    simp only [Limiter.step, Option.ite_none_right_eq_some, Option.some.injEq] at hstep
    obtain ⟨hstack, rfl⟩ := hstep
    rw [keeps_iff]
    simpa [hstack] using hkeeps

theorem keeps_initial (limit : Option Nat) : Keeps limit 0 {} := ⟨rfl, rfl, fun h => absurd rfl h⟩

/-- **In every run** the count is right, waiters go on in the order they came, and none is forgotten. -/
theorem keeps_of_reaches {may : State → Action → Prop} (h : Reaches (step limit) may {} s) : Keeps limit 0 s :=
  h.invariant (keeps_initial limit) fun _ _ _ hkeeps _ hstep => hkeeps.step hstep

end Kept

/-! ## The limit -/

/-- The action is no call into a slot that a woken waiter is on its way to: a call is made while the limit is reached,
or while a slot is left beside the woken waiters'. -/
def Unreserved (limit : Option Nat) (s : State) (a : Action) : Prop :=
  a = .call → atLimit limit s.active = true ∨ ∀ m, limit = some m → s.active + s.woken.length < m

section Bounded

variable {limit : Option Nat} {s t : State}

/-- The slot that is given back is the waiter's, if one waits. -/
theorem Reserved.next (h : Reserved limit s) : Reserved limit s.next := by
  intro m hm
  have hle := h m hm
  rw [State.woken] at hle
  rw [State.next, State.woken]
  split
  case h_1 =>
    dsimp only
    omega
  case h_2 => simp; omega

theorem Reserved.react (h : Reserved limit s) (reactions : List Reaction) : Reserved limit (s.react reactions) := by
  induction reactions generalizing s with
  | nil => exact h
  | cons reaction rest ih =>
    cases reaction with
    | callback => exact ih fun m hm => by simpa [State.woken] using h m hm
    | settles id =>
      rw [State.react]
      split
      case isTrue => exact ih fun m hm => by simpa [State.woken] using h m hm
      case isFalse => exact ih h

/-- **One action that takes no promised slot** leaves no more than there are taken or promised. -/
theorem Reserved.step {a : Action} (h : Reserved limit s) (hmay : Unreserved limit s a)
    (hstep : step limit s a = some t) : Reserved limit t := by
  cases a with
  | macrotask =>
    simp only [Limiter.step, Option.ite_none_right_eq_some, Option.some.injEq] at hstep
    obtain ⟨-, rfl⟩ := hstep
    exact h
  | microtask reactions =>
    simp only [Limiter.step] at hstep
    split at hstep
    case h_1 rest hstack htasks =>
      obtain rfl := Option.some.inj hstep
      exact fun m hm => by simpa [State.woken, htasks] using h m hm
    case h_2 id rest hstack htasks =>
      obtain rfl := Option.some.inj hstep
      intro m hm
      have hle := h m hm
      simp [State.woken, htasks] at hle ⊢
      omega
    case h_3 id rest hstack htasks =>
      obtain rfl := Option.some.inj hstep
      refine Reserved.react (Reserved.next ?_) reactions
      exact fun m hm => by simpa [State.woken, htasks] using h m hm
    case h_4 => cases hstep
  | call =>
    simp only [Limiter.step] at hstep
    split at hstep
    case isTrue => cases hstep
    case isFalse =>
      split at hstep
      case isTrue =>
        obtain rfl := Option.some.inj hstep
        exact h
      case isFalse hfree =>
        obtain rfl := Option.some.inj hstep
        intro m hm
        have hless := (hmay rfl).resolve_left hfree m hm
        rw [State.woken] at hless ⊢
        dsimp only
        omega
  | resolve reaction =>
    simp only [Limiter.step, Option.ite_none_left_eq_some, Option.some.injEq] at hstep
    obtain ⟨-, rfl⟩ := hstep
    exact h.react _
  | returns settled =>
    simp only [Limiter.step] at hstep
    split at hstep
    case h_1 id rest hstack =>
      split at hstep
      all_goals
        obtain rfl := Option.some.inj hstep
        exact fun m hm => by simpa [State.woken] using h m hm
    case h_2 => cases hstep
  | throws reactions =>
    simp only [Limiter.step] at hstep
    split at hstep
    case h_1 id rest hstack =>
      obtain rfl := Option.some.inj hstep
      refine Reserved.react (Reserved.next ?_) reactions
      exact h
    case h_2 => cases hstep
  | endTurn =>
    simp only [Limiter.step, Option.ite_none_right_eq_some, Option.some.injEq] at hstep
    obtain ⟨-, rfl⟩ := hstep
    exact h

/-- A call that takes a promised slot leaves more taken or promised than there are. -/
theorem reserved_call_iff (h : Reserved limit s) (hstep : step limit s .call = some t) :
    Reserved limit t ↔ Unreserved limit s .call := by
  refine ⟨fun ht _ => ?_, fun hmay => h.step hmay hstep⟩
  by_cases hfull : atLimit limit s.active = true
  · exact .inl hfull
  · simp only [Limiter.step, if_neg hfull, Option.ite_none_left_eq_some, Option.some.injEq] at hstep
    obtain ⟨-, rfl⟩ := hstep
    refine .inr fun m hm => ?_
    have hle := ht m hm
    rw [State.woken] at hle ⊢
    dsimp only at hle
    omega

/-- Order and wakeups ask nothing of the run. -/
theorem Keeps.promised (h : Keeps limit 0 s) (hbounded : ∀ m, limit = some m → s.running ≤ m) :
    Promised limit s where
  bounded := hbounded
  fifo := by
    rw [h.order, List.append_assoc]
    exact List.prefix_append _ _
  settled hquiet := by
    have hcounted := h.counted
    have hwaiting := h.waiting
    rw [State.unreleased, hquiet] at hcounted
    rw [State.woken, hquiet] at hwaiting
    have hactive : s.active = s.running := by simpa using hcounted
    refine ⟨hactive, ?_⟩
    by_cases hqueue : s.queue = []
    · exact .inl hqueue
    · obtain ⟨m, hm, hle⟩ := hwaiting hqueue
      rw [hactive] at hle
      exact .inr ⟨m, hm, by simpa using hle⟩

/-- **The limiter keeps its promise in every run that takes no promised slot**: at most so many task functions are
started and unsettled, waiters go on in the order they queued, and when no microtask is pending the count is the number
of running tasks and nobody waits below the limit. -/
theorem limiter_bounded_of_unreserved (limit : F64) (s : State)
    (hrun : Reaches (step (maxOf limit)) (Unreserved (maxOf limit)) {} s) : Promised (maxOf limit) s := by
  have hkeeps := keeps_of_reaches hrun
  have hreserved : Reserved (maxOf limit) s := by
    refine hrun.invariant ?_ fun _ _ _ h hmay hstep => h.step hmay hstep
    intro m hm
    simp [State.woken]
  refine hkeeps.promised ?_
  intro m hm
  have hcounted := hkeeps.counted
  have hle := hreserved m hm
  omega

end Bounded

/-- Whether a call may be made is decided by the state. -/
instance (limit : Option Nat) (s : State) (a : Action) : Decidable (Unreserved limit s a) :=
  match limit with
  | none => .isTrue fun _ => .inr nofun
  | some m =>
    decidable_of_iff (a = .call → atLimit (some m) s.active = true ∨ s.active + s.woken.length < m)
      (by simp [Unreserved])

/-- One slot: a task runs, a second one waits, is woken when the first settles, and goes on. -/
def handover : List Action :=
  [.macrotask, .call, .returns false, .call, .resolve (.settles 0), .endTurn, .microtask [.callback], .microtask []]

/-- The first task settles in the turn that also queues a callback, and the callback calls. -/
def overtaking : List Action :=
  [.macrotask, .call, .returns false, .call, .resolve (.settles 0), .resolve .callback, .endTurn, .microtask [],
    .microtask [], .call, .returns false, .endTurn, .microtask []]

theorem limiter_bounded_of_unreserved_handover :
    ∃ s, Reaches (step (maxOf (.finite 1))) (Unreserved (maxOf (.finite 1))) {} s ∧ s.resumed = [1] ∧
      s.running = 1 ∧ Promised (maxOf (.finite 1)) s := by
  have hrun : (runActions (step (maxOf (.finite 1))) (Unreserved (maxOf (.finite 1))) {} handover).map
      (fun s => (s.resumed, s.running)) = some ([1], 1) := by decide
  obtain ⟨s, hs, hseen⟩ := Option.map_eq_some_iff.mp hrun
  obtain ⟨hresumed, hrunning⟩ := Prod.mk.inj hseen
  have hreaches := reaches_of_run hs
  exact ⟨s, hreaches, hresumed, hrunning, limiter_bounded_of_unreserved _ s hreaches⟩

/-- **The limit can be exceeded**: a call between the microtask that gives the only slot back and the one in which the
woken waiter takes it starts a second task beside the waiter's. -/
theorem limiter_overcommits :
    ¬∀ (limit : F64) (s : State), Reaches (step (maxOf limit)) (fun _ _ => True) {} s → Promised (maxOf limit) s := by
  intro hall
  have hrun : (runActions (step (maxOf (.finite 1))) (fun _ _ => True) {} overtaking).map
      (fun s => (s.running, maxOf (.finite 1))) = some (2, some 1) := by decide
  obtain ⟨s, hs, hseen⟩ := Option.map_eq_some_iff.mp hrun
  obtain ⟨hrunning, hmax⟩ := Prod.mk.inj hseen
  have hle := (hall (.finite 1) s (reaches_of_run hs)).bounded 1 hmax
  rw [hrunning] at hle
  exact absurd hle (by decide)

end RallyPoint.Limiter
