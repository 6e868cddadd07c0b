/-
# RallyPoint.Dag — the fan-out graph of a run (`dag.rs`).

A run's facts are grouped by their `step:` marker; each group becomes a node with a status, and each `parent-step:`
marker and each reference across groups an edge into the step of its fact. The status is documented by the order of
events (a standby is stalled when its wake time has passed and no later wake answers it), but it is decided on the
group as a set: one wake anywhere in the step silences every standby of it. `documentedStatus` states the
documented rule; `followsEvents_iff` says for which runs the graph agrees with it.
-/
import RallyPoint.Fact
import RallyPoint.Lib.Distinct
import RallyPoint.Lib.OrderedMap
import RallyPoint.Lib.Pieces

namespace RallyPoint.Dag

open Lib

/-! ## Markers -/

/-- `run:<id>` of a fact's scope. -/
def extractRunId (fact : Fact) : Option String := fact.scope.findSome? (stripPrefix "run:")

/-- `step:<id>` of a fact's scope. -/
def extractStepId (fact : Fact) : Option String := fact.scope.findSome? (stripPrefix "step:")

/-- Every `parent-step:<id>` of a fact's scope; an empty id is skipped. -/
def extractParentStepIds (fact : Fact) : List String :=
  (fact.scope.filterMap (stripPrefix "parent-step:")).filter (· != "")

/-- `wake_after:<iso>` of a standby's summary. -/
def extractWakeAfter (fact : Fact) : Option String :=
  fact.summary.bind fun s => (splitWhitespace s).findSome? (stripPrefix "wake_after:")

/-- Whether a wake time lies in the past; one that does not parse does not. -/
def wakeAfterIsPast (ext : Externals) (now : Int) (wakeAfter : String) : Bool :=
  (ext.parseFromRfc3339 wakeAfter).any (· < now)

/-! ## The graph -/

inductive NodeStatus
  | landed | inFlight | stalled
  deriving DecidableEq, Repr

structure DagNode where
  stepId : String
  runId : String
  eventIds : List String
  status : NodeStatus
  tool : Option String
  subjects : List String
  deriving DecidableEq, Repr

structure DagEdge where
  fromStep : String
  toStep : String
  kind : String
  deriving DecidableEq, Repr

structure DagOutput where
  runId : String
  nodes : List DagNode
  edges : List DagEdge
  factsScanned : Nat
  deriving DecidableEq, Repr

/-- The facts of a run. -/
def runFacts (facts : List Fact) (runId : String) : List Fact :=
  facts.filter fun f => extractRunId f == some runId

/-- The step a fact is grouped under; a fact without one goes to a synthetic step. -/
def stepOf (fact : Fact) : String := (extractStepId fact).getD "root"

/-- `step_facts`: the run's facts by step, in the order of the steps' names. -/
def stepFacts (run : List Fact) : List (String × List Fact) := OrderedMap.group stepOf run

/-- `event_to_step`: the step that an event's id stands in. -/
def eventToStep (steps : List (String × List Fact)) : List (String × String) :=
  OrderedMap.updateAll (fun step _ => step) []
    (steps.flatMap fun entry => entry.2.map fun fact => (fact.eventId, entry.1))

/-- A standby whose wake time has passed. -/
def overdue (ext : Externals) (now : Int) (fact : Fact) : Bool :=
  fact.kind == .standby && (extractWakeAfter fact).any (wakeAfterIsPast ext now)

/-- The status of a step's facts. -/
def nodeStatus (ext : Externals) (now : Int) (facts : List Fact) : NodeStatus :=
  let hasArtifact := facts.any (·.kind == .artifact)
  let hasWake := facts.any (·.kind == .wake)
  let stalled := !hasArtifact && !hasWake && facts.any (overdue ext now)
  if hasArtifact then .landed else if stalled then .stalled else .inFlight

def buildNode (ext : Externals) (now : Int) (runId : String) (entry : String × List Fact) : DagNode where
  stepId := entry.1
  runId := runId
  eventIds := entry.2.map (·.eventId)
  status := nodeStatus ext now entry.2
  tool := entry.2.head?.bind (·.tool)
  subjects := entry.2.map (·.subject)

/-- The edges that one fact of a step asks for, in the order of the loop. -/
def factEdges (events : List (String × String)) (stepId : String) (fact : Fact) : List DagEdge :=
  (extractParentStepIds fact).map (fun parent => ⟨parent, stepId, "parent_step"⟩) ++
    match fact.refId.bind (OrderedMap.get events) with
    | some refStep => if refStep = stepId then [] else [⟨refStep, stepId, "ref"⟩]
    | none => []

/-- The loop over the steps and their facts. An edge is its own key in `seen_edges`. -/
def buildEdges (steps : List (String × List Fact)) : List DagEdge :=
  pushNewAll [] (steps.flatMap fun entry => entry.2.flatMap (factEdges (eventToStep steps) entry.1))

/-- The graph of a run, at one reading of the clock. -/
def buildDag (ext : Externals) (now : Int) (facts : List Fact) (runId : String) : DagOutput :=
  let run := runFacts facts runId
  let steps := stepFacts run
  { runId := runId
    nodes := steps.map (buildNode ext now runId)
    edges := buildEdges steps
    factsScanned := run.length }

/-! ## What is documented -/

/-- The facts of one step of a run. -/
def factsOfStep (facts : List Fact) (runId step : String) : List Fact :=
  (runFacts facts runId).filter fun f => stepOf f = step

/-- The documented status: a standby is stalled when its time has passed and no later wake answers it. -/
def documentedStatus (ext : Externals) (now : Int) (facts : List Fact) : NodeStatus :=
  if facts.any (·.kind == .artifact) then .landed
  else if facts.any fun s => overdue ext now s && !facts.any fun w => w.kind == .wake && s.seq < w.seq then .stalled
  else .inFlight

/-- What makes an edge: a lineage marker of a fact, or its reference to a fact of another step of the run. -/
inductive Produces (run : List Fact) (fact : Fact) (edge : DagEdge) : Prop
  | parent (hmarker : edge.fromStep ∈ extractParentStepIds fact) (hkind : edge.kind = "parent_step")
  | ref (other : Fact) (hother : other ∈ run) (href : fact.refId = some other.eventId)
      (hfrom : stepOf other = edge.fromStep) (hacross : edge.fromStep ≠ edge.toStep) (hkind : edge.kind = "ref")

/-- A graph that shows a run as documented. -/
structure FollowsEvents (ext : Externals) (now : Int) (facts : List Fact) (runId : String) (dag : DagOutput) :
    Prop where
  status : ∀ node ∈ dag.nodes, node.status = documentedStatus ext now (factsOfStep facts runId node.stepId)
  members : ∀ node ∈ dag.nodes, node.eventIds = (factsOfStep facts runId node.stepId).map (·.eventId)
  one : ∀ f ∈ runFacts facts runId, ∃! node, node ∈ dag.nodes ∧ node.stepId = stepOf f
  once : (dag.nodes.flatMap (·.eventIds)).Perm ((runFacts facts runId).map (·.eventId))
  produced : ∀ edge ∈ dag.edges, ∃ f ∈ runFacts facts runId, stepOf f = edge.toStep ∧
    Produces (runFacts facts runId) f edge
  distinct : dag.edges.Nodup

/-- A step that goes on standby after its last wake and oversleeps, with nothing landed. -/
def OversleptAfterWake (ext : Externals) (now : Int) (facts : List Fact) : Prop :=
  (∀ f ∈ facts, f.kind ≠ .artifact) ∧ (∃ w ∈ facts, w.kind = .wake) ∧
    ∃ s ∈ facts, overdue ext now s = true ∧ ∀ w ∈ facts, w.kind = .wake → w.seq ≤ s.seq

/-! ## Nodes -/

section Nodes

variable {ext : Externals} {now : Int} {facts : List Fact} {runId step : String} {group : List Fact}

theorem mem_stepFacts :
    (step, group) ∈ stepFacts (runFacts facts runId) ↔ group = factsOfStep facts runId step ∧ group ≠ [] :=
  OrderedMap.mem_group

/-- **Where the rule and the code part:** on the steps with an unanswered standby after their last wake. -/
theorem nodeStatus_eq_documented_iff :
    nodeStatus ext now group = documentedStatus ext now group ↔ ¬OversleptAfterWake ext now group := by
  rw [nodeStatus, documentedStatus]
  by_cases hart : group.any (·.kind == .artifact) = true
  · have hno : ¬OversleptAfterWake ext now group := by
      rintro ⟨hnone, -⟩
      obtain ⟨f, hf, hkind⟩ := List.any_eq_true.mp hart
      exact hnone f hf (by simpa using hkind)
    simp [hart, hno]
  have hnone : ∀ f ∈ group, f.kind ≠ .artifact := by simpa using hart
  by_cases hwake : group.any (·.kind == .wake) = true
  · -- with a wake the code never finds the step stalled
    have hoverslept : (group.any fun s => overdue ext now s &&
        !group.any fun w => w.kind == .wake && s.seq < w.seq) = true ↔ OversleptAfterWake ext now group := by
      have hsome : ∃ w ∈ group, w.kind = .wake := by simpa using hwake
      rw [OversleptAfterWake, and_iff_right hnone, and_iff_right hsome]
      simp
    simp only [hart, hwake, Bool.not_true, Bool.and_false, Bool.false_and, Bool.false_eq_true, if_false]
    rw [← hoverslept]
    split_ifs with h <;> simp [h]
  · have hno : ¬OversleptAfterWake ext now group := by
      rintro ⟨-, ⟨w, hw, hkind⟩, -⟩
      exact hwake (List.any_eq_true.mpr ⟨w, hw, by simpa using hkind⟩)
    have hlater : ∀ s : Fact, (group.any fun w => w.kind == .wake && s.seq < w.seq) = false := by
      intro s
      rw [List.any_eq_false]
      intro w hw hboth
      exact hwake (List.any_eq_true.mpr ⟨w, hw, (Bool.and_eq_true_iff.mp hboth).1⟩)
    simp only [hart, hwake, hlater, Bool.not_false, Bool.true_and, Bool.and_true, Bool.false_eq_true, if_false]
    exact iff_of_true trivial hno

theorem nodes_status_iff :
    (∀ node ∈ (buildDag ext now facts runId).nodes,
        node.status = documentedStatus ext now (factsOfStep facts runId node.stepId)) ↔
      ∀ step, ¬OversleptAfterWake ext now (factsOfStep facts runId step) := by
  constructor
  · intro h step hover
    -- a step that overslept has facts, and so a node
    have hne : factsOfStep facts runId step ≠ [] := by
      obtain ⟨-, ⟨w, hw, -⟩, -⟩ := hover
      exact List.ne_nil_of_mem hw
    have hnode := h _ (List.mem_map_of_mem (mem_stepFacts.mpr ⟨rfl, hne⟩))
    exact nodeStatus_eq_documented_iff.mp hnode hover
  · intro h node hnode
    obtain ⟨⟨step, group⟩, hentry, rfl⟩ := List.mem_map.mp hnode
    obtain ⟨rfl, -⟩ := mem_stepFacts.mp hentry
    exact nodeStatus_eq_documented_iff.mpr (h step)

theorem nodes_members : ∀ node ∈ (buildDag ext now facts runId).nodes,
    node.eventIds = (factsOfStep facts runId node.stepId).map (·.eventId) := by
  intro node hnode
  obtain ⟨⟨step, group⟩, hentry, rfl⟩ := List.mem_map.mp hnode
  obtain ⟨rfl, -⟩ := mem_stepFacts.mp hentry
  rfl

/-- A fact of the run has its step's node, and the node is determined by the step. -/
theorem nodes_one : ∀ f ∈ runFacts facts runId,
    ∃! node, node ∈ (buildDag ext now facts runId).nodes ∧ node.stepId = stepOf f := by
  intro f hf
  have hmem : f ∈ factsOfStep facts runId (stepOf f) := List.mem_filter.mpr ⟨hf, by simp⟩
  have hentry := mem_stepFacts.mpr ⟨rfl, List.ne_nil_of_mem hmem⟩
  refine ⟨_, ⟨List.mem_map_of_mem hentry, rfl⟩, ?_⟩
  rintro node ⟨hnode, hstep⟩
  obtain ⟨⟨step, group⟩, hother, rfl⟩ := List.mem_map.mp hnode
  obtain ⟨rfl, -⟩ := mem_stepFacts.mp hother
  obtain rfl : step = stepOf f := hstep
  rfl

theorem nodes_once :
    ((buildDag ext now facts runId).nodes.flatMap (·.eventIds)).Perm ((runFacts facts runId).map (·.eventId)) := by
  have hnodes : (buildDag ext now facts runId).nodes.flatMap (·.eventIds) =
      ((stepFacts (runFacts facts runId)).flatMap (·.2)).map (·.eventId) := by
    rw [List.map_flatMap]
    exact List.flatMap_map ..
  rw [hnodes]
  exact OrderedMap.perm_group.map _

end Nodes

/-! ## Edges -/

section Edges

variable {ext : Externals} {now : Int} {facts : List Fact} {runId : String} {edge : DagEdge}

/-- The step of an event id is the step of a fact with that id. -/
theorem get_eventToStep {ref step : String}
    (h : OrderedMap.get (eventToStep (stepFacts (runFacts facts runId))) ref = some step) :
    ∃ f ∈ runFacts facts runId, f.eventId = ref ∧ stepOf f = step := by
  rw [eventToStep, OrderedMap.get_updateAll_last] at h
  have hmem := List.mem_of_getLast? h
  obtain ⟨pair, hpair, rfl⟩ := List.mem_map.mp hmem
  obtain ⟨hpair, hkey⟩ := List.mem_filter.mp hpair
  obtain ⟨⟨step, group⟩, hentry, hfact⟩ := List.mem_flatMap.mp hpair
  obtain ⟨f, hf, rfl⟩ := List.mem_map.mp hfact
  obtain ⟨rfl, -⟩ := mem_stepFacts.mp hentry
  obtain ⟨hrun, hstep⟩ := List.mem_filter.mp hf
  exact ⟨f, hrun, of_decide_eq_true hkey, of_decide_eq_true hstep⟩

/-- **The edges** are those the facts of their target step ask for. -/
theorem mem_edges :
    edge ∈ (buildDag ext now facts runId).edges ↔ ∃ f ∈ runFacts facts runId,
      edge ∈ factEdges (eventToStep (stepFacts (runFacts facts runId))) (stepOf f) f := by
  have hedges : edge ∈ (buildDag ext now facts runId).edges ↔
      ∃ entry ∈ stepFacts (runFacts facts runId), ∃ f ∈ entry.2,
        edge ∈ factEdges (eventToStep (stepFacts (runFacts facts runId))) entry.1 f := by
    simp [buildDag, buildEdges, mem_pushNewAll]
  rw [hedges]
  constructor
  · rintro ⟨⟨step, group⟩, hentry, f, hf, hedge⟩
    obtain ⟨rfl, -⟩ := mem_stepFacts.mp hentry
    obtain ⟨hrun, hstep⟩ := List.mem_filter.mp hf
    obtain rfl := of_decide_eq_true hstep
    exact ⟨f, hrun, hedge⟩
  · rintro ⟨f, hf, hedge⟩
    have hmem : f ∈ factsOfStep facts runId (stepOf f) := List.mem_filter.mpr ⟨hf, by simp⟩
    exact ⟨_, mem_stepFacts.mpr ⟨rfl, List.ne_nil_of_mem hmem⟩, f, hmem, hedge⟩

theorem edges_produced : ∀ edge ∈ (buildDag ext now facts runId).edges,
    ∃ f ∈ runFacts facts runId, stepOf f = edge.toStep ∧ Produces (runFacts facts runId) f edge := by
  intro edge hedge
  obtain ⟨f, hf, hasked⟩ := mem_edges.mp hedge
  rcases List.mem_append.mp hasked with hparent | href
  · obtain ⟨parent, hmarker, rfl⟩ := List.mem_map.mp hparent
    exact ⟨f, hf, rfl, .parent hmarker rfl⟩
  · cases hstep : f.refId.bind (OrderedMap.get (eventToStep (stepFacts (runFacts facts runId)))) with
    | none =>
      rw [hstep] at href
      cases href
    | some refStep =>
      rw [hstep] at href
      obtain ⟨ref, hrefId, hget⟩ := Option.bind_eq_some_iff.mp hstep
      obtain ⟨other, hother, rfl, hfrom⟩ := get_eventToStep hget
      dsimp only at href
      split_ifs at href with hsame
      · cases href
      · obtain rfl := List.mem_singleton.mp href
        exact ⟨f, hf, rfl, .ref other hother hrefId hfrom hsame rfl⟩

end Edges

/-! ## The documented reading -/

/-- **The graph follows the order of events exactly when no step of the run oversleeps after its last wake.** There
the code reports a step in flight that has nobody to wake it. Grouping and edges are as documented in every run. -/
theorem followsEvents_iff (ext : Externals) (now : Int) (facts : List Fact) (runId : String) :
    FollowsEvents ext now facts runId (buildDag ext now facts runId) ↔
      ∀ step, ¬OversleptAfterWake ext now (factsOfStep facts runId step) := by
  constructor
  · intro h
    exact nodes_status_iff.mp h.status
  · intro h
    exact
      { status := nodes_status_iff.mpr h
        members := nodes_members
        one := nodes_one
        once := nodes_once
        produced := edges_produced
        distinct := nodup_pushNewAll List.nodup_nil }

/-! ## A second standby -/

namespace DagSample

/-- An agent woken once that goes on standby again. -/
def twice : List Fact :=
  [{ eventId := "e1", seq := 1, kind := .wake, scope := ["run:r", "step:s"] },
   { eventId := "e2", seq := 2, kind := .standby, scope := ["run:r", "step:s"],
     summary := some "wake_after:2026-01-01T00:00:00Z reason:ci" }]

/-- Its second standby is an hour overdue, no wake follows it, and the step is shown in flight. -/
theorem second_standby_unnoticed :
    (twice.map (·.seq)).Nodup ∧
      ¬FollowsEvents Externals.sample 1767229200000000000 twice "r"
        (buildDag Externals.sample 1767229200000000000 twice "r") := by
  refine ⟨by decide, fun h => ?_⟩
  have hstatus : (buildDag Externals.sample 1767229200000000000 twice "r").nodes.all (fun node =>
      node.status == documentedStatus Externals.sample 1767229200000000000
        (factsOfStep twice "r" node.stepId)) = false := by decide +kernel
  rw [List.all_eq_false] at hstatus
  obtain ⟨node, hnode, hdiff⟩ := hstatus
  exact hdiff (by simpa using h.status node hnode)

end DagSample

end RallyPoint.Dag
