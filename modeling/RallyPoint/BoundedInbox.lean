/-
# RallyPoint.BoundedInbox — the inbox of one tool over a room cut to a row limit (`store.rs`, `obligations.rs`).

`for_obligation_target` narrows a room to one caller: it keeps that caller's obligations from the oldest on, as many
as a row limit and a byte budget let through, and carries the totals of all of them beside the rows. `build_inbox`
takes the carried totals where the room is the caller's own. The age of the oldest obligation is not carried: it
is taken over the rows that are left, which are the first ones by sequence number and not by timestamp.
-/
import RallyPoint.Lib.Budget
import RallyPoint.Lib.StableSort
import RallyPoint.Offers

namespace RallyPoint

open Lib

/-! ## The room of one caller -/

/-- The room with the projections that only one caller's inbox reads. -/
structure CallerRoom extends RoomSnapshot where
  pendingWakes : List Fact := []
  /-- `open_queue_signals.rejected_named`. -/
  rejectedNamed : List String := []
  openObligationsTarget : Option String := none
  openObligationsTotal : Nat := 0
  openObligationsHandoffs : Nat := 0
  openObligationsArtifacts : Nat := 0
  openObligationsOmitted : Nat := 0
  openObligationsAcceptedOpen : Option Nat := none

/-- What the projection leaves: no caller, no carried totals. -/
def CallerRoom.projected (room : RoomSnapshot) (pendingWakes : List Fact) (rejectedNamed : List String) :
    CallerRoom :=
  { toRoomSnapshot := room, pendingWakes, rejectedNamed }

/-- The clock of one call and what it calls outside the repository: `serde_json::to_vec` with the bytes it gives,
and `shlex`. -/
structure InboxEnv where
  ext : Externals
  /-- Whole seconds since the epoch, none on a clock before it. -/
  now : Option Int
  toVec : Fact → Option Nat
  shellQuote : String → String

/-- Where a handoff addressed to this tool by name stands. -/
inductive NamedState
  | unanswered | acceptedOpen | incomplete
  deriving DecidableEq, Repr

def factSeqLe (a b : Fact) : Prop := a.seq ≤ b.seq

instance : DecidableRel factSeqLe := fun a b => inferInstanceAs (Decidable (a.seq ≤ b.seq))

def bySeq (facts : List Fact) : List Fact := facts.insertionSort factSeqLe

/-- The obligations of a tool, oldest first. -/
def owedBy (room : CallerRoom) (tool : String) : List Fact :=
  bySeq (room.openObligations.filter fun fact => fact.target == some tool)

/-- The state of a named handoff that is no obligation any more. -/
def answeredState (room : CallerRoom) (tool : String) : NamedState :=
  if room.openObligationsTarget = some tool ∧ 0 < room.openObligationsOmitted then .incomplete else .acceptedOpen

/-- `named_work`. -/
def namedWork (room : CallerRoom) (tool : String) : List (Fact × NamedState) :=
  let work := (room.openObligations.filter fun fact => fact.kind == .handoff && fact.target == some tool).map
    fun fact => (fact, NamedState.unanswered)
  let owed := work.map fun entry => entry.1.eventId
  let answered := (room.openHandoffs.filter fun fact =>
      handoffAddress fact tool == .named && !owed.contains fact.eventId &&
        !room.rejectedNamed.contains fact.eventId).map
    fun fact => (fact, answeredState room tool)
  (work ++ answered).insertionSort fun a b => a.1.seq ≤ b.1.seq

def acceptedOpenCount (room : CallerRoom) (tool : String) : Nat :=
  ((namedWork room tool).filter fun entry => entry.2 == .acceptedOpen).length

/-! ## The cut -/

def maxTargetObligationBytes : Nat := 256 * 1024

def maxCallerRows : Nat := 1024

def maxCallerWakes : Nat := 1024

section Model

variable (env : InboxEnv)

def wireBytes (fact : Fact) : Nat := (env.toVec fact).getD maxTargetObligationBytes

/-- The rows of the reply. -/
def emittedRows (rowLimit : Nat) (mine : List Fact) : List Fact :=
  takeWithin (wireBytes env) maxTargetObligationBytes 0 (mine.take (min rowLimit maxCallerRows))

/-- The caller's wakes, the newest of them where there are too many. -/
def callerWakes (wakes : List Fact) (tool : String) : List Fact :=
  let mine := wakes.filter fun wake => wake.target == some tool
  if mine.length > maxCallerWakes then (bySeq mine).drop (mine.length - maxCallerWakes) else mine

/-- `for_obligation_target`. -/
def forObligationTarget (room : CallerRoom) (tool : String) (rowLimit : Nat) : CallerRoom :=
  let room := { room with pendingWakes := callerWakes room.pendingWakes tool }
  let acceptedOpen := acceptedOpenCount room tool
  let mine := owedBy room tool
  let emitted := emittedRows env rowLimit mine
  { room with
    openObligationsOmitted := mine.length - emitted.length
    openObligations := emitted
    openObligationsTarget := some tool
    openObligationsAcceptedOpen := some acceptedOpen
    openObligationsTotal := mine.length
    openObligationsHandoffs := (mine.filter fun fact => fact.kind == .handoff).length
    openObligationsArtifacts := (mine.filter fun fact => fact.kind == .artifact).length }

/-! ## The inbox -/

structure InboxItem where
  eventId : String
  kind : FactKind
  subject : String
  sender : String
  ageSecs : Int
  stale : Bool
  ackCommand : String
  ackBy : Option String
  ackByMs : Option Int
  deriving DecidableEq, Repr

/-- An open-queue item, as the inbox carries it. -/
structure QueuedItem where
  eventId : String
  subject : String
  sender : String
  ageSecs : Int
  revalidateBeforeClaiming : Bool
  deriving DecidableEq, Repr

structure OpenQueueSummary where
  count : Nat
  revalidate : Nat
  items : List QueuedItem
  deriving DecidableEq, Repr

structure InboxResult where
  count : Nat
  handoffs : Nat
  artifacts : Nat
  oldestAgeSecs : Int
  staleWindowSecs : Int
  items : List InboxItem
  acceptedOpen : Nat
  acceptedOpenIncomplete : Bool
  openQueue : OpenQueueSummary
  deriving DecidableEq, Repr

/-- `fact_age_secs` of the inbox: 0 where a timestamp or the clock cannot be read, and never below it. -/
def obligationAge (fact : Fact) : Int :=
  match env.ext.parseFromRfc3339 fact.createdAt, env.now with
  | some created, some now => max (now - timestamp created) 0
  | _, _ => 0

/-- `ack_by_from_evidence`: the first marker decides. -/
def ackByFromEvidence (evidence : List String) : Option (String × Int) :=
  (evidence.findSome? fun item => stripPrefix "ack-by:" item).bind fun raw =>
    (env.ext.parseFromRfc3339 raw).map fun instant => (raw, instant)

/-- The deadline of a handoff in milliseconds, which an instant before the epoch does not have. -/
def ackDeadline (fact : Fact) : Option (String × Int) :=
  if fact.kind = .handoff then
    ((ackByFromEvidence env fact.evidence).map fun deadline => (deadline.1, deadline.2 / 1000000)).filter
      fun deadline => decide (0 ≤ deadline.2)
  else none

/-- `ack_command`. -/
def ackCommand (tool eventId : String) : String :=
  "rally say receipt --tool " ++ env.shellQuote tool ++ " --ref " ++ env.shellQuote eventId ++
    " --subject \"acked\" --json"

/-- `obligation_ack_command`. -/
def obligationAckCommand (tool : String) (fact : Fact) : String :=
  match fact.kind, fact.tool with
  | .handoff, some sender =>
    "rally say handoff --tool " ++ env.shellQuote tool ++ " --ref " ++ env.shellQuote fact.eventId ++
      " --target " ++ env.shellQuote sender ++ " --handoff-state accepted --subject \"accepted\" --json"
  | _, _ => ackCommand env tool fact.eventId

def inboxItem (tool : String) (staleWaitSecs : Int) (fact : Fact) : InboxItem where
  eventId := fact.eventId
  kind := fact.kind
  subject := fact.subject
  sender := fact.tool.getD ""
  ageSecs := obligationAge env fact
  stale := decide (staleWaitSecs < obligationAge env fact)
  ackCommand := obligationAckCommand env tool fact
  ackBy := (ackDeadline env fact).map (·.1)
  ackByMs := (ackDeadline env fact).map (·.2)

/-- `build_inbox`. -/
def buildInbox (room : CallerRoom) (tool : String) (limit : Nat) (staleWaitSecs : Int) (openQueue : List QueuedItem) :
    InboxResult :=
  let mine := owedBy room tool
  let targetScoped := room.openObligationsTarget == some tool
  let acceptedOpenIncomplete :=
    targetScoped && room.openObligationsAcceptedOpen.isNone && decide (0 < room.openObligationsOmitted)
  { count := if targetScoped then room.openObligationsTotal else mine.length
    handoffs :=
      if targetScoped then room.openObligationsHandoffs
      else (mine.filter fun fact => fact.kind == .handoff).length
    artifacts :=
      if targetScoped then room.openObligationsArtifacts
      else (mine.filter fun fact => fact.kind == .artifact).length
    oldestAgeSecs := largest (obligationAge env) mine
    staleWindowSecs := staleWaitSecs
    items := (mine.take limit).map (inboxItem env tool staleWaitSecs)
    acceptedOpen :=
      (if targetScoped then room.openObligationsAcceptedOpen else none).getD
        (if acceptedOpenIncomplete then 0 else acceptedOpenCount room tool)
    acceptedOpenIncomplete
    openQueue :=
      { count := openQueue.length
        revalidate := (openQueue.filter (·.revalidateBeforeClaiming)).length
        items := openQueue.take limit } }

end Model

/-! ## What the cut keeps -/

section Spec

variable {env : InboxEnv} {room : CallerRoom} {tool : String} {rowLimit : Nat} {mine : List Fact}

theorem sortedBy_bySeq (facts : List Fact) : SortedBy (·.seq) (bySeq facts) :=
  sortedBy_insertionSort (fun _ _ => Iff.rfl) facts

theorem bySeq_eq_self (h : SortedBy (·.seq) mine) : bySeq mine = mine := List.Pairwise.insertionSort_eq h

/-- The obligation at one place is among the rows of the reply. -/
def Fits (env : InboxEnv) (rowLimit : Nat) (mine : List Fact) (i : Nat) : Prop :=
  i < min rowLimit maxCallerRows ∧ sumOf (wireBytes env) (mine.take (i + 1)) ≤ maxTargetObligationBytes

theorem emittedRows_isInitial : emittedRows env rowLimit mine <+: mine :=
  takeWithin_prefix.trans (List.take_prefix _ _)

theorem lt_length_emittedRows_iff {i : Nat} :
    i < (emittedRows env rowLimit mine).length ↔ i < mine.length ∧ Fits env rowLimit mine i := by
  rw [emittedRows, lt_length_takeWithin_iff, List.length_take, Nat.zero_add, Fits, List.take_take]
  constructor
  · rintro ⟨hlt, hsum⟩
    have hmin : min (i + 1) (min rowLimit maxCallerRows) = i + 1 := by omega
    rw [hmin] at hsum
    exact ⟨by omega, by omega, hsum⟩
  · rintro ⟨hlen, hrow, hsum⟩
    have hmin : min (i + 1) (min rowLimit maxCallerRows) = i + 1 := by omega
    rw [hmin]
    exact ⟨by omega, hsum⟩

theorem owedBy_forObligationTarget :
    owedBy (forObligationTarget env room tool rowLimit) tool = emittedRows env rowLimit (owedBy room tool) := by
  have hprefix : emittedRows env rowLimit (owedBy room tool) <+: owedBy room tool := emittedRows_isInitial
  have hmine : ∀ fact ∈ emittedRows env rowLimit (owedBy room tool), (fact.target == some tool) = true := by
    intro fact hmem
    have howed : fact ∈ bySeq (room.openObligations.filter fun fact => fact.target == some tool) :=
      hprefix.subset hmem
    rw [bySeq, List.mem_insertionSort, List.mem_filter] at howed
    exact howed.2
  have hsorted : SortedBy (·.seq) (emittedRows env rowLimit (owedBy room tool)) :=
    (sortedBy_bySeq _).sublist hprefix.sublist
  show bySeq ((emittedRows env rowLimit (owedBy room tool)).filter _) = _
  rw [List.filter_eq_self.mpr hmine, bySeq_eq_self hsorted]

/-- Every obligation that does not fit is covered by one that does, or has no age. -/
def OldestKept (env : InboxEnv) (rowLimit : Nat) (mine : List Fact) : Prop :=
  ∀ i (hi : i < mine.length), ¬Fits env rowLimit mine i →
    obligationAge env mine[i] = 0 ∨
      ∃ j, ∃ hj : j < mine.length, Fits env rowLimit mine j ∧ obligationAge env mine[i] ≤ obligationAge env mine[j]

theorem obligationAge_nonneg (fact : Fact) : 0 ≤ obligationAge env fact := by
  rw [obligationAge]
  split
  · exact le_max_right _ _
  · exact le_rfl

/-- **The oldest age of the reply** is the oldest of all exactly when no older obligation was cut. -/
theorem largest_emittedRows_iff :
    largest (obligationAge env) (emittedRows env rowLimit mine) = largest (obligationAge env) mine ↔
      OldestKept env rowLimit mine := by
  obtain ⟨rest, hrest⟩ := (emittedRows_isInitial : emittedRows env rowLimit mine <+: mine)
  generalize hkept : emittedRows env rowLimit mine = kept at hrest
  have hfits : ∀ i, i < kept.length ↔ i < mine.length ∧ Fits env rowLimit mine i := by
    intro i
    rw [← hkept]
    exact lt_length_emittedRows_iff
  have hiff := @largest_append_eq_iff _ (obligationAge env) kept rest obligationAge_nonneg
  rw [hrest] at hiff
  rw [hiff]
  subst hrest
  constructor
  · intro hcover i hi hnot
    have hle : kept.length ≤ i := by
      by_contra hlt
      exact hnot ((hfits i).mp (by omega)).2
    have hget : (kept ++ rest)[i] ∈ rest := by
      rw [List.getElem_append_right hle]
      exact List.getElem_mem _
    rcases hcover _ hget with hzero | ⟨e, he, hage⟩
    · exact Or.inl hzero
    · obtain ⟨j, hj, rfl⟩ := List.getElem_of_mem he
      obtain ⟨hlen, hfit⟩ := (hfits j).mp hj
      refine Or.inr ⟨j, hlen, hfit, ?_⟩
      rw [List.getElem_append_left hj]
      exact hage
  · intro hcover x hx
    obtain ⟨i, hi, rfl⟩ := List.getElem_of_mem hx
    have hlen : kept.length + i < (kept ++ rest).length := by
      rw [List.length_append]
      omega
    have hnot : ¬Fits env rowLimit (kept ++ rest) (kept.length + i) := by
      intro hfit
      have hlt := (hfits _).mpr ⟨hlen, hfit⟩
      omega
    have hget : (kept ++ rest)[kept.length + i] = rest[i] := by
      rw [List.getElem_append_right (Nat.le_add_right _ _)]
      congr 1
      omega
    rcases hcover _ hlen hnot with hzero | ⟨j, hj, hfit, hage⟩
    · exact Or.inl (hget ▸ hzero)
    · have hjk : j < kept.length := (hfits j).mpr ⟨hj, hfit⟩
      refine Or.inr ⟨kept[j], List.getElem_mem hjk, ?_⟩
      rw [hget, List.getElem_append_left hjk] at hage
      exact hage

end Spec

/-! ## Which inboxes are exact -/

section Exact

variable (env : InboxEnv) (room : CallerRoom) (tool : String) (rowLimit limit : Nat) (staleWaitSecs : Int)
  (openQueue : List QueuedItem)

def boundedInbox : InboxResult :=
  buildInbox env (forObligationTarget env room tool rowLimit) tool limit staleWaitSecs openQueue

/-- What a bounded inbox promises of the unbounded one. -/
structure InboxExact (bounded full : InboxResult) : Prop where
  count : bounded.count = full.count
  handoffs : bounded.handoffs = full.handoffs
  artifacts : bounded.artifacts = full.artifacts
  oldestAgeSecs : bounded.oldestAgeSecs = full.oldestAgeSecs
  acceptedOpen : bounded.acceptedOpen = full.acceptedOpen
  /-- Over the room itself at this limit and at any greater one. -/
  items : ∀ limit', limit ≤ limit' →
    bounded.items <+: (buildInbox env room tool limit' staleWaitSecs openQueue).items
  omitted : ∃ rest, owedBy room tool = (forObligationTarget env room tool rowLimit).openObligations ++ rest ∧
    (forObligationTarget env room tool rowLimit).openObligationsOmitted = rest.length

end Exact

/-- **A bounded inbox is exact** exactly when the oldest obligation by timestamp is among the rows kept. -/
theorem bounded_inbox_exact_iff (env : InboxEnv) (base : RoomSnapshot) (wakes : List Fact) (rejected : List String)
    (tool : String) (rowLimit limit : Nat) (staleWaitSecs : Int) (openQueue : List QueuedItem) :
    let room := CallerRoom.projected base wakes rejected
    InboxExact env room tool rowLimit limit staleWaitSecs openQueue
        (boundedInbox env room tool rowLimit limit staleWaitSecs openQueue)
        (buildInbox env room tool limit staleWaitSecs openQueue) ↔
      OldestKept env rowLimit (owedBy room tool) := by
  intro room
  have howed := @owedBy_forObligationTarget env room tool rowLimit
  have hscoped : ((forObligationTarget env room tool rowLimit).openObligationsTarget == some tool) = true :=
    beq_self_eq_true (some tool)
  have holdest : (boundedInbox env room tool rowLimit limit staleWaitSecs openQueue).oldestAgeSecs =
      largest (obligationAge env) (emittedRows env rowLimit (owedBy room tool)) := by
    rw [← howed]
    rfl
  constructor
  · intro hexact
    exact largest_emittedRows_iff.mp (holdest.symm.trans hexact.oldestAgeSecs)
  · intro hkept
    obtain ⟨rest, hrest⟩ := (emittedRows_isInitial : emittedRows env rowLimit (owedBy room tool) <+: owedBy room tool)
    refine ⟨?_, ?_, ?_, holdest.trans (largest_emittedRows_iff.mpr hkept), ?_, ?_, ⟨rest, hrest.symm, ?_⟩⟩
    · exact if_pos hscoped
    · exact if_pos hscoped
    · exact if_pos hscoped
    · show (if _ then some (acceptedOpenCount room tool) else none).getD _ = acceptedOpenCount room tool
      rw [if_pos hscoped, Option.getD_some]
    · intro limit' hle
      show ((owedBy (forObligationTarget env room tool rowLimit) tool).take limit).map _ <+:
        ((owedBy room tool).take limit').map _
      rw [howed]
      refine List.IsPrefix.map _ ?_
      have htake : (owedBy room tool).take limit <+: (owedBy room tool).take limit' := List.take_prefix_take_left hle
      exact (List.IsPrefix.take emittedRows_isInitial limit).trans htake
    · show (owedBy room tool).length - (emittedRows env rowLimit (owedBy room tool)).length = rest.length
      have hlen := congrArg List.length hrest
      rw [List.length_append] at hlen
      omega

namespace BoundedInboxSample

def env : InboxEnv where
  ext := Externals.sample
  now := some 1767268800
  toVec _ := some 600
  shellQuote text := text

/-- A request to `codex` that is still owed. -/
def request (seq : Int) (eventId createdAt : String) : Fact :=
  { kind := .handoff, seq, eventId, subject := "review", tool := some "lead", target := some "codex", createdAt }

/-- The later row says that it was written an hour before the earlier one. -/
def room : RoomSnapshot :=
  AppendEnv.sample.snapshot
    [request 1 "first" "2026-01-01T01:00:00Z", request 2 "second" "2026-01-01T00:00:00Z"]

/-- One row is kept, and the age of the other one is lost. -/
theorem bounded_inbox_not_exact :
    ¬ InboxExact env (CallerRoom.projected room [] []) "codex" 1 1 300 []
        (boundedInbox env (CallerRoom.projected room [] []) "codex" 1 1 300 [])
        (buildInbox env (CallerRoom.projected room [] []) "codex" 1 300 []) ∧
      (boundedInbox env (CallerRoom.projected room [] []) "codex" 1 1 300 []).oldestAgeSecs = 39600 ∧
      (buildInbox env (CallerRoom.projected room [] []) "codex" 1 300 []).oldestAgeSecs = 43200 := by
  have hbounded : (boundedInbox env (CallerRoom.projected room [] []) "codex" 1 1 300 []).oldestAgeSecs = 39600 := by
    decide
  have hfull : (buildInbox env (CallerRoom.projected room [] []) "codex" 1 300 []).oldestAgeSecs = 43200 := by
    decide
  refine ⟨fun hexact => ?_, hbounded, hfull⟩
  have heq := hexact.oldestAgeSecs
  rw [hbounded, hfull] at heq
  exact absurd heq (by decide)

end BoundedInboxSample

end RallyPoint
