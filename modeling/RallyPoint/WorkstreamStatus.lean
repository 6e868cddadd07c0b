/-
# RallyPoint.WorkstreamStatus — how far a workstream has come (`workstream-status.mjs`).

Progress is read out of the room: a task is done when an artifact's subject mentions its id, claimed when an active
claim mentions it or covers one of its paths, active when its own tool is. What is left and waits for nothing may be
dispatched.

Acyclic dependencies always leave something to dispatch, so a linted workstream comes to its end. What the packets
of finished and claimed tasks posted is read back exactly as long as the words of one task do not name another.
-/
import RallyPoint.Workstream

namespace RallyPoint.Workstream

open Lib

/-! ## The room as it is read -/

structure Artifact where
  subject : Option String
  deriving DecidableEq

structure ActiveClaim where
  subject : Option String
  scope : List String
  deriving DecidableEq

structure Squad where
  tool : Option String
  status : Option String
  deriving DecidableEq

structure RoomView where
  recent_artifacts : List Artifact
  active_claims : List ActiveClaim
  squads : List Squad

def isTokenChar (c : Char) : Bool := isIdentifierChar c || c == ':'

/-- The words of a subject: runs of token characters. -/
def tokens (subject : String) : List (List Char) := splitRuns (!isTokenChar ·) false subject.toList

def mentions (subject : Option String) (id : String) : Bool :=
  match subject with
  | none => false
  | some subject => id != "" &&
      ((tokens subject).contains id.toList || startsWith (id ++ ":") subject || startsWith (id ++ " ") subject)

/-- The status's `norm`: a `file:` in front and slashes at the end go. -/
def normScope (p : String) : String :=
  String.ofList ((((stripPrefix "file:" p).getD p).toList.reverse.dropWhile (· == '/')).reverse)

def scopesOverlap (scope : List String) (owns : Option Json) : Bool :=
  match owns with
  | some (.array items) => scope.any fun s => items.any fun o => normScope s == normScope o.jsString
  | _ => false

/-! ## The report -/

inductive TaskState
  | done
  | claimed
  | active
  | pending
  deriving DecidableEq, Repr

/-- A task with a truthy id. -/
def taskKey (task : Json) : Option String := ((task.member "id").bind Json.asStr).filter (· ≠ "")

def classify (room : RoomView) (toolPrefix : String) (task : Json) (id : String) : TaskState :=
  if room.recent_artifacts.any fun a => mentions a.subject id then .done
  else if !isReadOnly task && room.active_claims.any fun c =>
      mentions c.subject id || scopesOverlap c.scope (task.member "owns") then .claimed
  else if isReadOnly task && room.squads.any fun s =>
      s.tool == some s!"{toolPrefix}:{id}" && s.status == some "active" then .active
  else .pending

structure StatusReport where
  workstream : Json
  thread : Json
  total : Nat
  done : List String
  claimed : List String
  active : List String
  pending : List String
  to_dispatch : List String
  complete : Bool
  status : List (String × TaskState)

/-- The task is pending and everything it depends on is done. -/
def isReady (status : List (String × TaskState)) (task : Json) : Bool :=
  ((taskKey task).any fun id => mapGet status id == some .pending) &&
    (dependsOn task).all fun d => mapGet status d.jsString == some .done

/-- The ids of the tasks in a state. -/
def StatusReport.ids (report : StatusReport) : TaskState → List String
  | .done => report.done
  | .claimed => report.claimed
  | .active => report.active
  | .pending => report.pending

/-- The `status` object: each task's state under its id. -/
def statusOf (tasks : List Json) (room : RoomView) (toolPrefix : String) : List (String × TaskState) :=
  mapOf taskKey (classify room toolPrefix) tasks

def workstreamStatus (descriptor : Json) (room : RoomView) (toolPrefix : String) : Except String StatusReport :=
  match descriptor.member "tasks" with
  | some (.array tasks) =>
    if !isIdentifier toolPrefix then .error "toolPrefix must match /^[A-Za-z0-9._-]+$/"
    else
      let status := statusOf tasks room toolPrefix
      let ids := tasks.filterMap taskKey
      let inState (state : TaskState) := ids.filter fun id => mapGet status id == some state
      .ok {
        workstream := (descriptor.member "workstream").getD .null
        thread := (descriptor.member "thread").getD .null
        total := ids.length
        done := inState .done
        claimed := inState .claimed
        active := inState .active
        pending := inState .pending
        to_dispatch := (tasks.filter (isReady status)).filterMap taskKey
        complete := (inState .pending).isEmpty && (inState .claimed).isEmpty && (inState .active).isEmpty
        status }
  | _ => .error "descriptor must have a tasks array"

/-! ## The report on a linted descriptor -/

section Report

variable {tasks : List Json} {task : Json} {id d toolPrefix : String} {room : RoomView} {state : TaskState}

theorem taskKey_of_taskId (h : taskId task = some id) : taskKey task = some id := by
  simp only [taskId, nonEmptyString, Option.filter_eq_some_iff] at h
  simp only [taskKey, Option.filter_eq_some_iff, decide_eq_true_eq]
  refine ⟨h.1, ?_⟩
  rintro rfl
  simp at h

theorem Linted.filterMap_taskKey (hl : Linted tasks) : tasks.filterMap taskKey = taskIds tasks := by
  refine List.filterMap_congr fun t ht => ?_
  obtain ⟨id, hid, -⟩ := (hl.task t ht).id
  rw [hid, taskKey_of_taskId hid]

theorem Linted.mapGet_statusOf (hl : Linted tasks) (ht : task ∈ tasks) (hid : taskId task = some id) :
    mapGet (statusOf tasks room toolPrefix) id = some (classify room toolPrefix task id) :=
  mapGet_mapOf_of_nodup (hl.filterMap_taskKey ▸ hl.nodup) ht (taskKey_of_taskId hid)

/-- Some task under the id is in the state. -/
def InState (tasks : List Json) (room : RoomView) (toolPrefix : String) (state : TaskState) (id : String) : Prop :=
  ∃ task ∈ tasks, taskId task = some id ∧ classify room toolPrefix task id = state

theorem Linted.inState_iff (hl : Linted tasks) (ht : task ∈ tasks) (hid : taskId task = some id) :
    InState tasks room toolPrefix state id ↔ classify room toolPrefix task id = state := by
  constructor
  · rintro ⟨t, ht', hid', hstate⟩
    have hget : mapGet (statusOf tasks room toolPrefix) id = some (classify room toolPrefix task id) :=
      hl.mapGet_statusOf ht hid
    rw [hl.mapGet_statusOf ht' hid'] at hget
    exact (Option.some.inj hget).symm.trans hstate
  · exact fun hstate => ⟨task, ht, hid, hstate⟩

theorem Linted.mem_states (hl : Linted tasks) :
    id ∈ ((taskIds tasks).filter fun id => mapGet (statusOf tasks room toolPrefix) id == some state) ↔
      InState tasks room toolPrefix state id := by
  rw [List.mem_filter, beq_iff_eq]
  constructor
  · rintro ⟨hmem, hget⟩
    obtain ⟨t, ht, hid⟩ := List.mem_filterMap.mp hmem
    rw [hl.mapGet_statusOf ht hid] at hget
    exact ⟨t, ht, hid, Option.some.inj hget⟩
  · rintro ⟨t, ht, hid, hstate⟩
    exact ⟨List.mem_filterMap.mpr ⟨t, ht, hid⟩, by rw [hl.mapGet_statusOf ht hid, hstate]⟩

/-- What a report says: the ids by state, the tasks that are pending behind finished ones, and whether nothing is
left. -/
structure Reports (tasks : List Json) (room : RoomView) (toolPrefix : String) (report : StatusReport) : Prop where
  sublist : ∀ state, (report.ids state).Sublist (taskIds tasks)
  mem : ∀ state id, id ∈ report.ids state ↔ InState tasks room toolPrefix state id
  dispatch_sublist : report.to_dispatch.Sublist (taskIds tasks)
  mem_dispatch : ∀ id, id ∈ report.to_dispatch ↔ ∃ task ∈ tasks, taskId task = some id ∧
    classify room toolPrefix task id = .pending ∧ ∀ d, Json.string d ∈ dependsOn task → d ∈ report.done
  complete_iff : report.complete = true ↔ report.pending = [] ∧ report.claimed = [] ∧ report.active = []

theorem Linted.isReady_iff (hl : Linted tasks) (ht : task ∈ tasks) (hid : taskId task = some id) :
    isReady (statusOf tasks room toolPrefix) task = true ↔ classify room toolPrefix task id = .pending ∧
      ∀ d, Json.string d ∈ dependsOn task → InState tasks room toolPrefix .done d := by
  rw [isReady, taskKey_of_taskId hid, Option.any_some, hl.mapGet_statusOf ht hid, Bool.and_eq_true, beq_iff_eq,
    Option.some.injEq, List.all_eq_true]
  refine and_congr_right fun _ => ?_
  constructor
  · intro h d hd
    obtain ⟨u, hu, huid⟩ : ∃ u ∈ tasks, taskId u = some d := by
      obtain ⟨d', hd', heq⟩ := hl.declared task ht (.string d) hd
      obtain rfl := Json.string.inj heq
      exact List.mem_filterMap.mp hd'
    have hdone := h (.string d) hd
    rw [Json.jsString, hl.mapGet_statusOf hu huid, beq_iff_eq, Option.some.injEq] at hdone
    exact ⟨u, hu, huid, hdone⟩
  · intro h v hv
    obtain ⟨d, -, rfl⟩ := hl.declared task ht v hv
    obtain ⟨u, hu, huid, hdone⟩ := h d hv
    rw [Json.jsString, hl.mapGet_statusOf hu huid, hdone]
    rfl

/-- **The report on a linted descriptor.** -/
theorem report_spec {doc : Json} (hlint : lintWorkstream doc = []) (hpre : isIdentifier toolPrefix = true)
    (room : RoomView) :
    ∃ report, workstreamStatus doc room toolPrefix = .ok report ∧
      Reports (tasksOf doc) room toolPrefix report := by
  obtain ⟨hne, hl⟩ := linted_of_lint hlint
  obtain ⟨tasks, hdoc⟩ : ∃ tasks, doc.member "tasks" = some (.array tasks) := by
    unfold tasksOf at hne
    split at hne
    · exact ⟨_, ‹_›⟩
    · exact absurd rfl hne
  have hof : tasksOf doc = tasks := by simp [tasksOf, hdoc]
  rw [hof] at hl ⊢
  unfold workstreamStatus
  rw [hdoc]
  dsimp only
  rw [hpre, hl.filterMap_taskKey]
  refine ⟨_, rfl, ?_⟩
  have hmem : ∀ state id, id ∈ ((taskIds tasks).filter fun id =>
      mapGet (statusOf tasks room toolPrefix) id == some state) ↔ InState tasks room toolPrefix state id :=
    fun state id => hl.mem_states
  refine ⟨fun state => ?_, fun state id => ?_, ?_, fun id => ?_, ?_⟩
  · cases state <;> exact List.filter_sublist
  · cases state <;> exact hmem _ id
  · rw [← hl.filterMap_taskKey]
    exact List.filter_sublist.filterMap taskKey
  · rw [List.mem_filterMap]
    constructor
    · rintro ⟨t, ht, hkey⟩
      obtain ⟨htmem, hready⟩ := List.mem_filter.mp ht
      obtain ⟨own, hid, -⟩ := (hl.task t htmem).id
      rw [taskKey_of_taskId hid] at hkey
      obtain rfl := Option.some.inj hkey
      obtain ⟨hpending, hdeps⟩ := (hl.isReady_iff htmem hid).mp hready
      exact ⟨t, htmem, hid, hpending, fun d hd => (hmem .done d).mpr (hdeps d hd)⟩
    · rintro ⟨t, ht, hid, hpending, hdeps⟩
      have hready := (hl.isReady_iff ht hid).mpr ⟨hpending, fun d hd => (hmem .done d).mp (hdeps d hd)⟩
      exact ⟨t, List.mem_filter.mpr ⟨ht, hready⟩, taskKey_of_taskId hid⟩
  · simp only [Bool.and_eq_true, List.isEmpty_iff, and_assoc]

end Report

/-! ## Rounds -/

/-- The room with an artifact for each of the ids, as a packet's last step posts it. -/
def RoomView.finish (room : RoomView) (ids : List String) (result : String → String) : RoomView :=
  { room with recent_artifacts := room.recent_artifacts ++ ids.map fun id => ⟨some s!"{id}: {result id}"⟩ }

/-- Rounds one after another: in each some of the tasks to dispatch are finished. -/
inductive Rounds (doc : Json) (toolPrefix : String) (room : RoomView) : Nat → RoomView → Prop
  | start : Rounds doc toolPrefix room 0 room
  | round {n : Nat} {room' : RoomView} {report : StatusReport} {ids : List String} {result : String → String} :
    Rounds doc toolPrefix room n room' → workstreamStatus doc room' toolPrefix = .ok report → ids ≠ [] →
      ids ⊆ report.to_dispatch → Rounds doc toolPrefix room (n + 1) (room'.finish ids result)

/-- The room in which no task is claimed or active. -/
def Idle (doc : Json) (toolPrefix : String) (room : RoomView) : Prop :=
  ∃ report, workstreamStatus doc room toolPrefix = .ok report ∧ report.claimed = [] ∧ report.active = []

/-- Everything is done, or there is something to dispatch. -/
def Progresses (doc : Json) (toolPrefix : String) (room : RoomView) : Prop :=
  ∃ report, workstreamStatus doc room toolPrefix = .ok report ∧
    (report.complete = true ∨ report.to_dispatch ≠ [])

section Rounds

variable {doc : Json} {tasks : List Json} {task : Json} {id toolPrefix : String} {room room' : RoomView} {n : Nat}
  {ids : List String} {result : String → String} {report : StatusReport}

/-- A subject that starts with an id mentions it. -/
theorem mentions_prefix (hid : id ≠ "") (rest : String) : mentions (some s!"{id}: {rest}") id = true := by
  have hpre : startsWith (id ++ ":") s!"{id}: {rest}" = true := by
    simp [startsWith, String.toList_append, toString]
  simp [mentions, hid, hpre]

theorem classify_eq_done_iff : classify room toolPrefix task id = .done ↔
    ∃ a ∈ room.recent_artifacts, mentions a.subject id = true := by
  unfold classify
  by_cases hdone : (room.recent_artifacts.any fun a => mentions a.subject id) = true
  · simpa [hdone] using List.any_eq_true.mp hdone
  · rw [if_neg hdone]
    refine ⟨fun h => ?_, fun h => absurd (List.any_eq_true.mpr h) hdone⟩
    split at h
    · cases h
    · split at h <;> cases h

theorem classify_finish_of_mem (hid : id ≠ "") (hmem : id ∈ ids) :
    classify (room.finish ids result) toolPrefix task id = .done := by
  refine classify_eq_done_iff.mpr ⟨⟨some s!"{id}: {result id}"⟩, ?_, mentions_prefix hid _⟩
  exact List.mem_append_right _ (List.mem_map.mpr ⟨id, hmem, rfl⟩)

/-- What is not done behind a round is in the state it was in. -/
theorem classify_finish (h : classify (room.finish ids result) toolPrefix task id ≠ .done) :
    classify (room.finish ids result) toolPrefix task id = classify room toolPrefix task id := by
  rw [ne_eq, classify_eq_done_iff] at h
  have hold : ¬ (room.recent_artifacts.any fun a => mentions a.subject id) = true := fun hany => by
    obtain ⟨a, ha, hmentions⟩ := List.any_eq_true.mp hany
    exact h ⟨a, List.mem_append_left _ ha, hmentions⟩
  have hnew : ¬ ((room.finish ids result).recent_artifacts.any fun a => mentions a.subject id) = true :=
    fun hany => h (List.any_eq_true.mp hany)
  unfold classify
  rw [if_neg hold, if_neg hnew]
  rfl

/-- **Acyclic dependencies leave something to dispatch** while a task is pending. -/
theorem Linted.exists_ready (hl : Linted tasks)
    (hidle : ∀ id, ¬ InState tasks room toolPrefix .claimed id ∧ ¬ InState tasks room toolPrefix .active id)
    (hpending : InState tasks room toolPrefix .pending id) :
    ∃ task ∈ tasks, ∃ id, taskId task = some id ∧ classify room toolPrefix task id = .pending ∧
      ∀ d, Json.string d ∈ dependsOn task → InState tasks room toolPrefix .done d := by
  -- towards the dependencies, which run out
  have hacc := Graph.acc_of_findCycle hl.acyclic id
  induction hacc with
  | intro id _ ih =>
    obtain ⟨task, htask, hid, hstate⟩ := hpending
    by_cases hdeps : ∀ d, Json.string d ∈ dependsOn task → InState tasks room toolPrefix .done d
    · exact ⟨task, htask, id, hid, hstate, hdeps⟩
    · push Not at hdeps
      obtain ⟨d, hd, hnot⟩ := hdeps
      obtain ⟨d', hd', heq⟩ := hl.declared task htask (.string d) hd
      obtain rfl := Json.string.inj heq
      obtain ⟨u, hu, huid⟩ := List.mem_filterMap.mp hd'
      have hupending : classify room toolPrefix u d = .pending := by
        cases hclass : classify room toolPrefix u d with
        | done => exact absurd ⟨u, hu, huid, hclass⟩ hnot
        | claimed => exact absurd ⟨u, hu, huid, hclass⟩ (hidle d).1
        | active => exact absurd ⟨u, hu, huid, hclass⟩ (hidle d).2
        | pending => rfl
      refine ih d ?_ ⟨u, hu, huid, hupending⟩
      exact edge_iff_dependsOn.mpr ((dependsOn_iff_of_nodup hl.nodup).mpr ⟨hd', task, htask, hid, hd⟩)

/-- How many tasks are pending. -/
def pendingCount (tasks : List Json) (room : RoomView) (toolPrefix : String) : Nat :=
  (taskIds tasks).countP fun id => mapGet (statusOf tasks room toolPrefix) id == some .pending

theorem idle_iff (hlint : lintWorkstream doc = []) (hpre : isIdentifier toolPrefix = true) :
    Idle doc toolPrefix room ↔ ∀ id, ¬ InState (tasksOf doc) room toolPrefix .claimed id ∧
      ¬ InState (tasksOf doc) room toolPrefix .active id := by
  obtain ⟨report, hreport, hspec⟩ := report_spec hlint hpre room
  have hclaimed := hspec.mem .claimed
  have hactive := hspec.mem .active
  simp only [StatusReport.ids] at hclaimed hactive
  simp only [Idle, hreport, Except.ok.injEq, exists_eq_left', List.eq_nil_iff_forall_not_mem, hclaimed, hactive,
    forall_and]

/-- In an idle room everything is done or something may be dispatched. -/
theorem progresses_of_idle (hlint : lintWorkstream doc = []) (hpre : isIdentifier toolPrefix = true)
    (hidle : Idle doc toolPrefix room) : Progresses doc toolPrefix room := by
  obtain ⟨report, hreport, hspec⟩ := report_spec hlint hpre room
  obtain ⟨-, hl⟩ := linted_of_lint hlint
  refine ⟨report, hreport, ?_⟩
  by_cases hpending : report.pending = []
  · obtain ⟨report', hreport', hclaimed, hactive⟩ := hidle
    obtain rfl := Except.ok.inj (hreport.symm.trans hreport')
    exact .inl (hspec.complete_iff.mpr ⟨hpending, hclaimed, hactive⟩)
  · right
    obtain ⟨id, hid⟩ := List.exists_mem_of_ne_nil _ hpending
    obtain ⟨task, htask, id', hid', hstate, hdeps⟩ :=
      hl.exists_ready ((idle_iff hlint hpre).mp hidle) ((hspec.mem .pending id).mp hid)
    exact List.ne_nil_of_mem ((hspec.mem_dispatch id').mpr
      ⟨task, htask, hid', hstate, fun d hd => (hspec.mem .done d).mpr (hdeps d hd)⟩)

/-- A round keeps the room idle and leaves fewer tasks pending. -/
theorem idle_finish (hlint : lintWorkstream doc = []) (hpre : isIdentifier toolPrefix = true)
    (hidle : Idle doc toolPrefix room) (hreport : workstreamStatus doc room toolPrefix = .ok report)
    (hne : ids ≠ []) (hids : ids ⊆ report.to_dispatch) :
    Idle doc toolPrefix (room.finish ids result) ∧
      pendingCount (tasksOf doc) (room.finish ids result) toolPrefix <
        pendingCount (tasksOf doc) room toolPrefix := by
  obtain ⟨-, hl⟩ := linted_of_lint hlint
  obtain ⟨report', hreport', hspec⟩ := report_spec hlint hpre room
  obtain rfl := Except.ok.inj (hreport.symm.trans hreport')
  have hstays : ∀ state, state ≠ .done → ∀ id, InState (tasksOf doc) (room.finish ids result) toolPrefix state id →
      InState (tasksOf doc) room toolPrefix state id := by
    rintro state hstate id ⟨task, htask, hid, rfl⟩
    exact ⟨task, htask, hid, (classify_finish hstate).symm⟩
  constructor
  · rw [idle_iff hlint hpre] at hidle ⊢
    exact fun id => ⟨fun h => (hidle id).1 (hstays .claimed nofun id h),
      fun h => (hidle id).2 (hstays .active nofun id h)⟩
  · obtain ⟨id, hid⟩ := List.exists_mem_of_ne_nil _ hne
    obtain ⟨task, htask, htaskId, hpending, -⟩ := (hspec.mem_dispatch id).mp (hids hid)
    have hnonempty : id ≠ "" := by
      have hkey := taskKey_of_taskId htaskId
      rw [taskKey, Option.filter_eq_some_iff] at hkey
      simpa using hkey.2
    refine countP_lt (fun x hx hpost => ?_) (List.mem_filterMap.mpr ⟨task, htask, htaskId⟩) ?_ ?_
    · obtain ⟨u, hu, hux⟩ := List.mem_filterMap.mp hx
      rw [hl.mapGet_statusOf hu hux, beq_iff_eq, Option.some.injEq] at hpost ⊢
      rw [← classify_finish (by rw [hpost]; decide), hpost]
    · rw [hl.mapGet_statusOf htask htaskId, hpending]
      rfl
    · rw [hl.mapGet_statusOf htask htaskId, classify_finish_of_mem hnonempty hid]
      rfl

theorem idle_of_rounds (hlint : lintWorkstream doc = []) (hpre : isIdentifier toolPrefix = true)
    (hidle : Idle doc toolPrefix room) (h : Rounds doc toolPrefix room n room') :
    Idle doc toolPrefix room' ∧
      n + pendingCount (tasksOf doc) room' toolPrefix ≤ pendingCount (tasksOf doc) room toolPrefix := by
  induction h with
  | start => exact ⟨hidle, by omega⟩
  | round _ hreport hne hids ih =>
    obtain ⟨hidle', hcount⟩ := ih
    obtain ⟨hnext, hlt⟩ := idle_finish hlint hpre hidle' hreport hne hids
    exact ⟨hnext, by omega⟩

/-- Rounds can be gone on with until everything is done. -/
theorem exists_complete (hlint : lintWorkstream doc = []) (hpre : isIdentifier toolPrefix = true)
    (hidle : Idle doc toolPrefix room) (h : Rounds doc toolPrefix room n room') :
    ∃ n room' report, Rounds doc toolPrefix room n room' ∧
      workstreamStatus doc room' toolPrefix = .ok report ∧ report.complete = true := by
  -- the pending tasks get fewer with every round
  induction hcount : pendingCount (tasksOf doc) room' toolPrefix using Nat.strong_induction_on
    generalizing n room' with
  | _ count ih =>
    obtain ⟨hidle', -⟩ := idle_of_rounds hlint hpre hidle h
    obtain ⟨report, hreport, hcomplete | hdispatch⟩ := progresses_of_idle hlint hpre hidle'
    · exact ⟨n, room', report, h, hreport, hcomplete⟩
    · have hids : report.to_dispatch ⊆ report.to_dispatch := List.Subset.refl _
      have hlt : pendingCount (tasksOf doc) (room'.finish report.to_dispatch fun _ => "") toolPrefix <
          pendingCount (tasksOf doc) room' toolPrefix := (idle_finish hlint hpre hidle' hreport hdispatch hids).2
      exact ih _ (hcount ▸ hlt) (h.round hreport hdispatch hids) rfl

/-- The search for a cycle comes to an end on every descriptor. -/
def SearchEnds (doc : Json) : Prop :=
  let graph := depsGraph (depsOf (tasksOf doc))
  ∃ state, Dfs.search graph.succ graph.nodes.length graph.nodes .start = some state

def parserTask (id intent output path : String) (deps : List String) : Json := .object
  [("id", .string id), ("intent", .string intent), ("owns", .array [.string path]),
    ("validation", .string "npm test"), ("output", .string output), ("depends_on", .array (deps.map .string))]

/-- A parser and its tests: `b` waits for `a`, which says what it makes. -/
def parserDoc (output : String) : Json := .object
  [("workstream", .string "parser"), ("description", .string "a parser and its tests"),
    ("tasks", .array [parserTask "a" "write the parser" output "src/a" [],
      parserTask "b" "test the parser" "a test file" "src/b" ["a"]])]

theorem lint_parserDoc : lintWorkstream (parserDoc "the parser") = [] :=
  List.isEmpty_iff.mp (by decide)

end Rounds

/-! ## What the packets posted -/

/-- A field that is rendered as a text. -/
def textOf (task : Json) (field : String) : String := ((task.member field).bind Json.asStr).getD ""

/-- The artifact at the end of a task's packet. -/
def artifactOf (task : Json) (id : String) : Artifact :=
  let output := textOf task "output"
  ⟨some s!"{id}: {output}"⟩

/-- The claim at the start of a write task's packet. -/
def claimOf (task : Json) : ActiveClaim :=
  ⟨some (textOf task "intent"), (ownedPaths (task.member "owns")).map ("file:" ++ ·)⟩

/-- The room shows just the artifacts of the finished tasks and the claims of the claimed ones. -/
structure PostedBy (tasks : List Json) (finished inFlight : String → Prop) (room : RoomView) : Prop where
  artifacts : ∀ a, a ∈ room.recent_artifacts ↔
    ∃ task ∈ tasks, ∃ id, taskId task = some id ∧ finished id ∧ a = artifactOf task id
  claims : ∀ c, c ∈ room.active_claims ↔
    ∃ task ∈ tasks, ∃ id, taskId task = some id ∧ inFlight id ∧ isReadOnly task = false ∧ c = claimOf task

/-- The room holds a read-only task in flight. -/
def ReadActive (room : RoomView) (toolPrefix : String) (task : Json) (id : String) : Prop :=
  isReadOnly task = true ∧ ∃ s ∈ room.squads, s.tool = some s!"{toolPrefix}:{id}" ∧ s.status = some "active"

/-- **Resume reads back what was posted:** the finished tasks, the claimed write tasks, and to dispatch those that
remain, are not read-active and depend on finished tasks only. -/
structure ReadsBack (tasks : List Json) (finished inFlight : String → Prop) (room : RoomView) (toolPrefix : String)
    (report : StatusReport) : Prop where
  done : ∀ id, id ∈ report.done ↔ id ∈ taskIds tasks ∧ finished id
  claimed : ∀ id, id ∈ report.claimed ↔
    ∃ task ∈ tasks, taskId task = some id ∧ inFlight id ∧ isReadOnly task = false
  to_dispatch : ∀ id, id ∈ report.to_dispatch ↔ ∃ task ∈ tasks, taskId task = some id ∧ ¬ finished id ∧
    ¬ (inFlight id ∧ isReadOnly task = false) ∧ ¬ ReadActive room toolPrefix task id ∧
    ∀ d, Json.string d ∈ dependsOn task → finished d

/-- No output of a finished task has the id of another unfinished task among its words, and no intent of a claimed
write task mentions a write task that is neither finished nor claimed. -/
structure WordsApart (tasks : List Json) (finished inFlight : String → Prop) : Prop where
  outputs : ∀ u ∈ tasks, ∀ uid, taskId u = some uid → finished uid →
    ∀ id ∈ taskIds tasks, ¬ finished id → id.toList ∉ tokens (textOf u "output")
  intents : ∀ u ∈ tasks, ∀ uid, taskId u = some uid → inFlight uid → isReadOnly u = false →
    ∀ t ∈ tasks, ∀ id, taskId t = some id → isReadOnly t = false → ¬ finished id → ¬ inFlight id →
      mentions (some (textOf u "intent")) id = false

section Resume

variable {tasks : List Json} {task u : Json} {id uid toolPrefix : String} {room : RoomView}
  {finished inFlight : String → Prop}

theorem isIdentifier_iff : isIdentifier id = true ↔ id ≠ "" ∧ ∀ c ∈ id.toList, isIdentifierChar c = true := by
  simp [isIdentifier]

theorem takeWhile_identifier {rest : List Char} {c : Char} (hid : ∀ c ∈ id.toList, isIdentifierChar c = true)
    (hc : isIdentifierChar c = false) : (id.toList ++ c :: rest).takeWhile isIdentifierChar = id.toList := by
  rw [List.takeWhile_append_of_pos hid, List.takeWhile_cons_of_neg (by simp [hc]), List.append_nil]

/-- What an artifact's subject mentions: its own task, and the words of its output. -/
theorem mentions_artifact_iff (hid : isIdentifier id = true) (huid : isIdentifier uid = true) (out : String) :
    mentions (some s!"{uid}: {out}") id = true ↔ id = uid ∨ id.toList ∈ tokens out := by
  obtain ⟨hne, hchars⟩ := isIdentifier_iff.mp hid
  obtain ⟨-, huchars⟩ := isIdentifier_iff.mp huid
  have hsubject : (s!"{uid}: {out}").toList = uid.toList ++ ':' :: ' ' :: out.toList := by
    simp [String.toList_append, toString]
  have htake : (uid.toList ++ ':' :: ' ' :: out.toList).takeWhile isIdentifierChar = uid.toList :=
    takeWhile_identifier huchars (by decide)
  have htokens : id.toList ∈ tokens s!"{uid}: {out}" ↔ id.toList ∈ tokens out := by
    have hfirst : splitRuns (!isTokenChar ·) false (uid.toList ++ ':' :: ' ' :: out.toList) =
        (uid.toList ++ [':']) :: splitRuns (!isTokenChar ·) true out.toList := by
      rw [show uid.toList ++ ':' :: ' ' :: out.toList = (uid.toList ++ [':']) ++ ' ' :: out.toList by simp]
      refine splitRuns_append (fun c hc => ?_) (by decide)
      rcases List.mem_append.mp hc with hc | hc
      · simp [isTokenChar, huchars c hc]
      · obtain rfl := List.mem_singleton.mp hc
        decide
    rw [tokens, hsubject, hfirst, List.mem_cons, mem_splitRuns_true_iff (by simpa using hne), tokens]
    refine or_iff_right fun hcolon => ?_
    have hbad := hchars ':' (hcolon ▸ by simp)
    exact absurd hbad (by decide)
  have hstarts : ∀ c : Char, isIdentifierChar c = false →
      (startsWith (id ++ String.singleton c) s!"{uid}: {out}" = true ↔ id = uid ∧ c = ':') := by
    intro c hc
    rw [startsWith, List.isPrefixOf_iff_prefix, hsubject, String.toList_append]
    constructor
    · rintro ⟨rest, hrest⟩
      have hsplit : id.toList ++ c :: rest = uid.toList ++ ':' :: ' ' :: out.toList := by simpa using hrest
      have hsame := congrArg (List.takeWhile isIdentifierChar) hsplit
      rw [takeWhile_identifier hchars hc, htake] at hsame
      rw [hsame, List.append_cancel_left_eq] at hsplit
      exact ⟨String.toList_inj.mp hsame, (List.cons.inj hsplit).1⟩
    · rintro ⟨rfl, rfl⟩
      exact ⟨' ' :: out.toList, by simp⟩
  have hcolon := hstarts ':' (by decide)
  have hspace := hstarts ' ' (by decide)
  have hmentions : mentions (some s!"{uid}: {out}") id = true ↔ id.toList ∈ tokens s!"{uid}: {out}" ∨
      startsWith (id ++ String.singleton ':') s!"{uid}: {out}" = true ∨
      startsWith (id ++ String.singleton ' ') s!"{uid}: {out}" = true := by
    simp [mentions, hne, or_assoc]
  rw [hmentions, htokens, hcolon, hspace]
  constructor
  · rintro (h | ⟨h, -⟩ | ⟨-, h⟩)
    · exact .inr h
    · exact .inl h
    · exact absurd h (by decide)
  · rintro (h | h)
    · exact .inr (.inl ⟨h, rfl⟩)
    · exact .inl h

/-- An owned path stays what it is, with and without the scheme of a claim's scope. -/
theorem normScope_owned {p : String} (h : ownsPathProblem p = none) :
    normScope p = p ∧ normScope ("file:" ++ p) = p := by
  obtain ⟨-, hchars, hlast, -⟩ := ownsPath_chars h
  have hslashes : ∀ q : String, q = p → String.ofList ((q.toList.reverse.dropWhile (· == '/')).reverse) = p := by
    rintro q rfl
    have hkeep : q.toList.reverse.dropWhile (· == '/') = q.toList.reverse := by
      cases hrev : q.toList.reverse with
      | nil => rfl
      | cons c rest =>
        have hc : c ≠ '/' := by
          rintro rfl
          rw [← List.head?_reverse, hrev] at hlast
          exact hlast rfl
        simp [hc]
    rw [hkeep, List.reverse_reverse, String.ofList_toList]
  have hplain : stripPrefix "file:" p = none := by
    cases hstrip : stripPrefix "file:" p with
    | none => rfl
    | some rest =>
      rw [stripPrefix_eq_some_iff] at hstrip
      have hcolon := hchars ':' (by rw [hstrip, String.toList_append]; simp)
      exact absurd hcolon (by decide)
  exact ⟨hslashes _ (by rw [hplain]; rfl), hslashes _ (by rw [stripPrefix_append]; rfl)⟩

/-- The scope of a claim covers a path of a write task exactly when both own it. -/
theorem scopesOverlap_claimOf_iff (hu : LintedTask u) (ht : LintedTask task) (hwrite : isReadOnly task = false) :
    scopesOverlap (claimOf u).scope (task.member "owns") = true ↔
      ∃ p ∈ ownedPaths (u.member "owns"), p ∈ ownedPaths (task.member "owns") := by
  obtain ⟨items, hitems, -, hmem⟩ := ht.write_owns hwrite
  have hscope : scopesOverlap (claimOf u).scope (task.member "owns") =
      (claimOf u).scope.any fun s => items.any fun o => normScope s == normScope o.jsString := by
    rw [hitems]
    rfl
  rw [hscope]
  simp only [claimOf, List.any_eq_true, List.mem_map, beq_iff_eq]
  constructor
  · rintro ⟨_, ⟨p, hp, rfl⟩, v, hv, hsame⟩
    obtain ⟨q, hq, rfl⟩ := (hmem v).mp hv
    rw [(normScope_owned (hu.paths p hp)).2, Json.jsString, (normScope_owned (ht.paths q hq)).1] at hsame
    exact ⟨p, hp, hsame ▸ hq⟩
  · rintro ⟨p, hp, hq⟩
    refine ⟨_, ⟨p, hp, rfl⟩, .string p, (hmem _).mpr ⟨p, hq, rfl⟩, ?_⟩
    rw [(normScope_owned (hu.paths p hp)).2, Json.jsString, (normScope_owned (ht.paths p hq)).1]

/-- Some claim mentions the task or covers one of its paths. -/
def IsClaimed (room : RoomView) (task : Json) (id : String) : Prop :=
  isReadOnly task = false ∧ ∃ c ∈ room.active_claims,
    mentions c.subject id = true ∨ scopesOverlap c.scope (task.member "owns") = true

/-- The states, in the order in which they are tested. -/
theorem classify_cases (room : RoomView) (toolPrefix : String) (task : Json) (id : String) :
    classify room toolPrefix task id = .done ∨
      (classify room toolPrefix task id = .claimed ∧ IsClaimed room task id) ∨
      (classify room toolPrefix task id = .active ∧ ¬ IsClaimed room task id ∧ ReadActive room toolPrefix task id) ∨
      (classify room toolPrefix task id = .pending ∧ ¬ IsClaimed room task id ∧
        ¬ ReadActive room toolPrefix task id) := by
  have hclaimed : (!isReadOnly task && room.active_claims.any fun c =>
      mentions c.subject id || scopesOverlap c.scope (task.member "owns")) = true ↔ IsClaimed room task id := by
    simp [IsClaimed]
  have hactive : (isReadOnly task && room.squads.any fun s =>
      s.tool == some s!"{toolPrefix}:{id}" && s.status == some "active") = true ↔
        ReadActive room toolPrefix task id := by
    simp [ReadActive]
  rw [← hclaimed, ← hactive]
  unfold classify
  split
  · exact .inl rfl
  · split
    · rename_i h
      exact .inr (.inl ⟨rfl, h⟩)
    · rename_i hnot
      split
      · rename_i h
        exact .inr (.inr (.inl ⟨rfl, hnot, h⟩))
      · rename_i h
        exact .inr (.inr (.inr ⟨rfl, hnot, h⟩))

/-- Which tasks the posted artifacts mark as done. -/
theorem PostedBy.done_iff (hl : Linted tasks) (h : PostedBy tasks finished inFlight room) (ht : task ∈ tasks)
    (hid : taskId task = some id) : classify room toolPrefix task id = .done ↔
      finished id ∨ ∃ u ∈ tasks, ∃ uid, taskId u = some uid ∧ finished uid ∧
        id.toList ∈ tokens (textOf u "output") := by
  have hvalid : ∀ u ∈ tasks, ∀ uid, taskId u = some uid → isIdentifier uid = true := by
    intro u hu uid huid
    obtain ⟨uid', huid', hident⟩ := (hl.task u hu).id
    rw [huid] at huid'
    exact Option.some.inj huid' ▸ hident
  rw [classify_eq_done_iff]
  constructor
  · rintro ⟨a, ha, hmentions⟩
    obtain ⟨u, hu, uid, huid, hfinished, rfl⟩ := (h.artifacts a).mp ha
    rcases (mentions_artifact_iff (hvalid task ht id hid) (hvalid u hu uid huid) _).mp hmentions with rfl | htoken
    · exact .inl hfinished
    · exact .inr ⟨u, hu, uid, huid, hfinished, htoken⟩
  · rintro (hfinished | ⟨u, hu, uid, huid, hfinished, htoken⟩)
    · refine ⟨artifactOf task id, (h.artifacts _).mpr ⟨task, ht, id, hid, hfinished, rfl⟩, ?_⟩
      exact (mentions_artifact_iff (hvalid task ht id hid) (hvalid task ht id hid) _).mpr (.inl rfl)
    · refine ⟨artifactOf u uid, (h.artifacts _).mpr ⟨u, hu, uid, huid, hfinished, rfl⟩, ?_⟩
      exact (mentions_artifact_iff (hvalid task ht id hid) (hvalid u hu uid huid) _).mpr (.inr htoken)

/-- Which tasks the posted claims hold: those that were claimed, and the write tasks that an intent mentions. -/
theorem PostedBy.isClaimed_iff (hl : Linted tasks) (h : PostedBy tasks finished inFlight room) (ht : task ∈ tasks)
    (hid : taskId task = some id) : IsClaimed room task id ↔ isReadOnly task = false ∧
      (inFlight id ∨ ∃ u ∈ tasks, ∃ uid, taskId u = some uid ∧ inFlight uid ∧ isReadOnly u = false ∧
        mentions (some (textOf u "intent")) id = true) := by
  refine and_congr_right fun hwrite => ?_
  constructor
  · rintro ⟨c, hc, hclaims⟩
    obtain ⟨u, hu, uid, huid, hflight, huwrite, rfl⟩ := (h.claims c).mp hc
    rcases hclaims with hmentions | hoverlap
    · exact .inr ⟨u, hu, uid, huid, hflight, huwrite, hmentions⟩
    · -- a path that two tasks own is one task's
      obtain ⟨p, hp, hq⟩ := (scopesOverlap_claimOf_iff (hl.task u hu) (hl.task task ht) hwrite).mp hoverlap
      by_cases hsame : id = uid
      · exact .inl (hsame ▸ hflight)
      · exact absurd rfl (hl.path_ne ht hu hid huid hsame hq hp)
  · rintro (hflight | ⟨u, hu, uid, huid, hflight, huwrite, hmentions⟩)
    · refine ⟨claimOf task, (h.claims _).mpr ⟨task, ht, id, hid, hflight, hwrite, rfl⟩, .inr ?_⟩
      obtain ⟨items, -, hne, hmem⟩ := (hl.task task ht).write_owns hwrite
      obtain ⟨v, hv⟩ := List.exists_mem_of_ne_nil items hne
      obtain ⟨p, hp, -⟩ := (hmem v).mp hv
      exact (scopesOverlap_claimOf_iff (hl.task task ht) (hl.task task ht) hwrite).mpr ⟨p, hp, hp⟩
    · exact ⟨claimOf u, (h.claims _).mpr ⟨u, hu, uid, huid, hflight, huwrite, rfl⟩, .inl hmentions⟩

/-- Where the words are apart, each task is in the state its packet put it in. -/
theorem WordsApart.states (toolPrefix : String) (hl : Linted tasks) (hwords : WordsApart tasks finished inFlight)
    (h : PostedBy tasks finished inFlight room) (ht : task ∈ tasks) (hid : taskId task = some id) :
    (classify room toolPrefix task id = .done ↔ finished id) ∧
      (¬ finished id → (IsClaimed room task id ↔ isReadOnly task = false ∧ inFlight id)) := by
  constructor
  · rw [h.done_iff hl ht hid]
    refine or_iff_left_of_imp fun ⟨u, hu, uid, huid, hfinished, htoken⟩ => ?_
    by_contra hnot
    exact hwords.outputs u hu uid huid hfinished id (List.mem_filterMap.mpr ⟨task, ht, hid⟩) hnot htoken
  · intro hnot
    rw [h.isClaimed_iff hl ht hid]
    refine and_congr_right fun hwrite =>
      or_iff_left_of_imp fun ⟨u, hu, uid, huid, hflight, huwrite, hmentions⟩ => ?_
    by_contra hfree
    rw [hwords.intents u hu uid huid hflight huwrite task ht id hid hwrite hnot hfree] at hmentions
    cases hmentions

theorem WordsApart.claimed_iff (hl : Linted tasks) (hwords : WordsApart tasks finished inFlight)
    (h : PostedBy tasks finished inFlight room) (hdisjoint : ∀ id, finished id → ¬ inFlight id)
    (ht : task ∈ tasks) (hid : taskId task = some id) :
    classify room toolPrefix task id = .claimed ↔ inFlight id ∧ isReadOnly task = false := by
  obtain ⟨hdone, hheld⟩ := hwords.states toolPrefix hl h ht hid
  constructor
  · intro hclass
    have hnot : ¬ finished id := fun hfinished => by
      rw [hdone.mpr hfinished] at hclass
      cases hclass
    rcases classify_cases room toolPrefix task id with hc | ⟨-, hyes⟩ | ⟨hc, -⟩ | ⟨hc, -⟩
    · exact absurd (hdone.mp hc) hnot
    · exact ((hheld hnot).mp hyes).symm
    · rw [hclass] at hc
      cases hc
    · rw [hclass] at hc
      cases hc
  · rintro ⟨hflight, hwrite⟩
    have hnot : ¬ finished id := fun hfinished => hdisjoint id hfinished hflight
    have hyes := (hheld hnot).mpr ⟨hwrite, hflight⟩
    rcases classify_cases room toolPrefix task id with hc | ⟨hc, -⟩ | ⟨-, hno, -⟩ | ⟨-, hno, -⟩
    · exact absurd (hdone.mp hc) hnot
    · exact hc
    · exact absurd hyes hno
    · exact absurd hyes hno

theorem WordsApart.pending_iff (hl : Linted tasks) (hwords : WordsApart tasks finished inFlight)
    (h : PostedBy tasks finished inFlight room) (ht : task ∈ tasks) (hid : taskId task = some id) :
    classify room toolPrefix task id = .pending ↔ ¬ finished id ∧ ¬ (inFlight id ∧ isReadOnly task = false) ∧
      ¬ ReadActive room toolPrefix task id := by
  obtain ⟨hdone, hheld⟩ := hwords.states toolPrefix hl h ht hid
  by_cases hfinished : finished id
  · rw [hdone.mpr hfinished]
    simp [hfinished]
  · have hheld' := hheld hfinished
    rcases classify_cases room toolPrefix task id with hc | ⟨hc, hyes⟩ | ⟨hc, hno, hact⟩ | ⟨hc, hno, hact⟩
    · exact absurd (hdone.mp hc) hfinished
    · have hboth := (hheld'.mp hyes).symm
      simp [hc, hboth]
    · simp [hc, hact]
    · rw [hheld', and_comm] at hno
      simp only [hc, true_iff]
      exact ⟨hfinished, hno, hact⟩

/-- **Resume reads back what the packets wrote exactly as long as the words are apart.** -/
theorem resume_reads_back_iff (doc : Json) (toolPrefix : String) (room : RoomView)
    (finished inFlight : String → Prop) (hlint : lintWorkstream doc = []) (hpre : isIdentifier toolPrefix = true)
    (hdisjoint : ∀ id, finished id → ¬ inFlight id) (hposted : PostedBy (tasksOf doc) finished inFlight room) :
    (∃ report, workstreamStatus doc room toolPrefix = .ok report ∧
      ReadsBack (tasksOf doc) finished inFlight room toolPrefix report) ↔
      WordsApart (tasksOf doc) finished inFlight := by
  obtain ⟨-, hl⟩ := linted_of_lint hlint
  obtain ⟨report, hreport, hspec⟩ := report_spec hlint hpre room
  have hdone := hspec.mem .done
  have hclaimed := hspec.mem .claimed
  simp only [StatusReport.ids] at hdone hclaimed
  rw [hreport]
  simp only [Except.ok.injEq, exists_eq_left']
  constructor
  · intro hback
    have hstate : ∀ t ∈ tasksOf doc, ∀ id, taskId t = some id → ¬ finished id →
        classify room toolPrefix t id ≠ .done := fun t ht id hid hnot hclass =>
      hnot ((hback.done id).mp ((hdone id).mpr ⟨t, ht, hid, hclass⟩)).2
    refine ⟨fun u hu uid huid hfinished id hid hnot htoken => ?_,
      fun u hu uid huid hflight huwrite t ht id hid hwrite hnot hfree => ?_⟩
    · obtain ⟨t, ht, htid⟩ := List.mem_filterMap.mp hid
      exact hstate t ht id htid hnot
        ((hposted.done_iff hl ht htid).mpr (.inr ⟨u, hu, uid, huid, hfinished, htoken⟩))
    · by_contra hmentions
      have hheld : IsClaimed room t id := (hposted.isClaimed_iff hl ht hid).mpr
        ⟨hwrite, .inr ⟨u, hu, uid, huid, hflight, huwrite, by simpa using hmentions⟩⟩
      rcases classify_cases room toolPrefix t id with hclass | ⟨hclass, -⟩ | ⟨-, hno, -⟩ | ⟨-, hno, -⟩
      · exact hstate t ht id hid hnot hclass
      · obtain ⟨-, -, -, hin, -⟩ := (hback.claimed id).mp ((hclaimed id).mpr ⟨t, ht, hid, hclass⟩)
        exact hfree hin
      · exact hno hheld
      · exact hno hheld
  · intro hwords
    have hdone' : ∀ id, id ∈ report.done ↔ id ∈ taskIds (tasksOf doc) ∧ finished id := by
      intro id
      rw [hdone]
      constructor
      · rintro ⟨t, ht, hid, hclass⟩
        exact ⟨List.mem_filterMap.mpr ⟨t, ht, hid⟩, (hwords.states toolPrefix hl hposted ht hid).1.mp hclass⟩
      · rintro ⟨hmem, hfinished⟩
        obtain ⟨t, ht, hid⟩ := List.mem_filterMap.mp hmem
        exact ⟨t, ht, hid, (hwords.states toolPrefix hl hposted ht hid).1.mpr hfinished⟩
    refine ⟨hdone', fun id => ?_, fun id => ?_⟩
    · rw [hclaimed]
      refine exists_congr fun t => and_congr_right fun ht => and_congr_right fun hid => ?_
      exact hwords.claimed_iff hl hposted hdisjoint ht hid
    · rw [hspec.mem_dispatch]
      refine exists_congr fun t => and_congr_right fun ht => and_congr_right fun hid => ?_
      rw [hwords.pending_iff hl hposted ht hid, and_assoc, and_assoc]
      refine and_congr_right fun _ => and_congr_right fun _ => and_congr_right fun _ =>
        forall_congr' fun d => imp_congr_right fun hd => ?_
      obtain ⟨d', hmem, heq⟩ := hl.declared t ht (.string d) hd
      obtain rfl := Json.string.inj heq
      exact (hdone' d).trans (and_iff_right hmem)

/-- The room in which `a` is finished. -/
def parserRoom (output : String) : RoomView :=
  ⟨[artifactOf (parserTask "a" "write the parser" output "src/a" []) "a"], [], []⟩

theorem tasksOf_parserDoc (output : String) : tasksOf (parserDoc output) =
    [parserTask "a" "write the parser" output "src/a" [],
      parserTask "b" "test the parser" "a test file" "src/b" ["a"]] := rfl

theorem taskId_parserTask_a (output : String) :
    taskId (parserTask "a" "write the parser" output "src/a" []) = some "a" := by rfl

theorem taskId_parserTask_b : taskId (parserTask "b" "test the parser" "a test file" "src/b" ["a"]) = some "b" := by
  rfl

theorem postedBy_parserRoom (output : String) :
    PostedBy (tasksOf (parserDoc output)) (· = "a") (fun _ => False) (parserRoom output) := by
  constructor
  · simp [tasksOf_parserDoc, taskId_parserTask_a, taskId_parserTask_b, parserRoom]
  · simp [parserRoom]

/-- The parser is done and its tests are not begun: resume says so. -/
theorem resume_reads_back_two_tasks : ∃ report,
    workstreamStatus (parserDoc "the parser") (parserRoom "the parser") "agent" = .ok report ∧
      ReadsBack (tasksOf (parserDoc "the parser")) (· = "a") (fun _ => False) (parserRoom "the parser") "agent"
        report := by
  refine (resume_reads_back_iff (parserDoc "the parser") "agent" (parserRoom "the parser") (· = "a")
    (fun _ => False) lint_parserDoc (by decide) (fun _ _ => id) (postedBy_parserRoom _)).mpr ⟨?_, nofun⟩
  rintro u hu uid huid rfl id hid hother
  have hu' : u = parserTask "a" "write the parser" "the parser" "src/a" [] := by
    rw [tasksOf_parserDoc, List.mem_cons, List.mem_singleton] at hu
    rcases hu with rfl | rfl
    · rfl
    · rw [taskId_parserTask_b] at huid
      exact absurd huid (by decide)
  have hid' : id = "b" := by
    simpa [taskIds, tasksOf_parserDoc, taskId_parserTask_a, taskId_parserTask_b, hother] using hid
  rw [hu', hid']
  decide

/-- An output that names the task that comes next marks it as done. -/
theorem resume_skips_named_task : ∃ doc toolPrefix room finished inFlight,
    lintWorkstream doc = [] ∧ isIdentifier toolPrefix = true ∧ (∀ id, finished id → ¬ inFlight id) ∧
      PostedBy (tasksOf doc) finished inFlight room ∧
      ¬ ∃ report, workstreamStatus doc room toolPrefix = .ok report ∧
        ReadsBack (tasksOf doc) finished inFlight room toolPrefix report := by
  refine ⟨parserDoc "the parser that b tests", "agent", parserRoom "the parser that b tests", (· = "a"),
    fun _ => False, List.isEmpty_iff.mp (by decide), by decide, fun _ _ => id, postedBy_parserRoom _, ?_⟩
  rintro ⟨report, hreport, hback⟩
  have hdone : "b" ∈ report.done := by
    obtain rfl := Except.ok.inj hreport
    decide
  exact absurd ((hback.done "b").mp hdone).2 (by decide)

end Resume

end RallyPoint.Workstream
