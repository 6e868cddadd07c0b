/-
# RallyPoint.Workstream — the descriptor linter (`workstream-lint.mjs`).

A descriptor is any JSON value. The linter collects what is wrong with its fields, task by task, then looks for
tasks that own overlapping paths, for dependencies on tasks there are not, and for a dependency cycle. A
descriptor without errors is `Linted`: what its tasks look like is stated once there, and the rest of the
development reads nothing but that.
-/
import RallyPoint.Lib.Js
import RallyPoint.Lib.Dfs

namespace RallyPoint.Workstream

open Lib

/-! ## Characters -/

def isIdentifierChar (c : Char) : Bool := c.isAlphanum || c == '.' || c == '_' || c == '-'

/-- `IDENTIFIER_RE`. -/
def isIdentifier (s : String) : Bool := s != "" && s.toList.all isIdentifierChar

/-- `CONTROL_CHARS_RE`: C0 controls and DEL. -/
def isControlChar (c : Char) : Bool := c.toNat ≤ 0x1f || c.toNat == 0x7f

/-- `CONTROL_CHARS_NO_LF_RE`. -/
def isControlNoLf (c : Char) : Bool := isControlChar c && c != '\n'

/-- `/["$ backtick]/`, the characters kept out of an intent and an output. -/
def isQuoting (c : Char) : Bool := c == '"' || c == '$' || c.toNat == 0x60

def backticks (n : Nat) : String := String.ofList (List.replicate n (Char.ofNat 0x60))

/-- A string with something in it behind `trim`. -/
def nonEmptyString (v : Option Json) : Option String :=
  (v.bind Json.asStr).filter fun s => !s.toList.all isJsSpace

/-! ## Recipes and tiers -/

def tiers : List String := ["host-native", "cross-host"]

structure Recipe where
  argv : List String
  appendOwnedPaths : Bool

/-- `VALIDATION_RECIPES`. -/
def validationRecipes : List (String × Recipe) :=
  [("none", ⟨[], false⟩),
    ("cargo-test", ⟨["cargo", "test"], false⟩),
    ("cargo-clippy", ⟨["cargo", "clippy", "--all-targets", "--", "-D", "warnings"], false⟩),
    ("npm-test", ⟨["npm", "test"], false⟩),
    ("node-test", ⟨["node", "--test"], false⟩),
    ("pytest", ⟨["python3", "-m", "pytest", "-q"], false⟩),
    ("go-test", ⟨["go", "test", "./..."], false⟩),
    ("shellcheck", ⟨["shellcheck"], true⟩)]

def validationRecipeNames : List String := sortStrings (validationRecipes.map (·.1))

def lookupRecipe (name : Json) : Option Recipe := name.asStr.bind (mapGet validationRecipes)

/-! ## Determinism -/

def isWordChar (c : Char) : Bool := c.isAlphanum || c == '_'

/-- `\b` between the character before and what follows. -/
def wordBoundary (before : Option Char) (rest : List Char) : Bool :=
  before.any isWordChar != rest.head?.any isWordChar

/-- A literal and, where `spaces` says so, white space behind it. -/
def takeToken (token : String) (spaces : Bool) (cs : List Char) : Option (List Char) :=
  if token.toList.isPrefixOf cs then
    let rest := cs.drop token.toList.length
    some (if spaces then rest.dropWhile isJsSpace else rest)
  else none

/-- `\b object \s* . \s* member \b` at a place. -/
def callsMember (object member : String) (before : Option Char) (cs : List Char) : Bool :=
  wordBoundary before cs &&
    (((takeToken object true cs).bind (takeToken "." true)).bind (takeToken member false)).any
      (wordBoundary member.toList.getLast? ·)

/-- `\bnew\s+Date\s*(\s*)` at a place. -/
def newDate (before : Option Char) (cs : List Char) : Bool :=
  wordBoundary before cs &&
    ((((takeToken "new" false cs).filter fun rest => rest.head?.any isJsSpace).map (·.dropWhile isJsSpace)).bind
      fun rest => ((takeToken "Date" true rest).bind (takeToken "(" true)).bind (takeToken ")" false)).isSome

/-- `DETERMINISM_BLOCKLIST`, behind a character. -/
def blocklisted (before : Option Char) : List Char → Bool
  | [] => false
  | c :: cs =>
    callsMember "Date" "now" before (c :: cs) || callsMember "Math" "random" before (c :: cs) ||
      newDate before (c :: cs) || blocklisted (some c) cs

/-! ## Owned paths -/

/-- `OWNS_CHARSET_RE`. -/
def ownsCharset (p : String) : Bool := p.toList.all fun c => isIdentifierChar c || c == '/' || c == '*'

/-- `OWNS_LAST_SEGMENT_RE`: a star or two may end it. -/
def isLastSegment (seg : String) : Bool :=
  [[], ['*'], ['*', '*']].contains (seg.toList.dropWhile isIdentifierChar)

def segmentProblem (last : Bool) (seg : String) : Option String :=
  if seg = "" then some "must not contain an empty path segment (//)"
  else if seg = "." ∨ seg = ".." then some "must not contain a . or .. segment (path escape)"
  else if (if last then isLastSegment seg else isIdentifier seg) then none
  else some "may only use * or ** as a trailing glob on the last segment"

def segmentsProblem : List String → Option String
  | [] => none
  | [seg] => segmentProblem true seg
  | seg :: rest => (segmentProblem false seg).or (segmentsProblem rest)

def ownsPathProblem (p : String) : Option String :=
  if p = "" then some "must be a non-empty string"
  else if !ownsCharset p then
    some ("must contain only [A-Za-z0-9._/-] plus a trailing * or ** glob — no whitespace, quotes, or shell " ++
      "metacharacters")
  else if startsWith "/" p then some "must be repo-relative, not absolute (leading /)"
  else if p.toList.getLast? = some '/' then some "must not end in a path separator"
  else segmentsProblem (split '/' p)

/-- `ownedPaths`: the strings of an array, none for a read-only task. -/
def ownedPaths (owns : Option Json) : List String :=
  match owns with
  | some (.array items) => items.filterMap fun v => nonEmptyString (some v)
  | _ => []

/-- The linter's `norm`: trailing slashes go, then a trailing glob with a slash before it. -/
def normGlob (p : String) : String :=
  let chars := p.toList.reverse.dropWhile (· == '/')
  let core := chars.dropWhile (· == '*')
  String.ofList (if core.length < chars.length ∧ core.head? = some '/' then core.tail else core).reverse

def pathsOverlap (a b : String) : Bool :=
  let na := normGlob a
  let nb := normGlob b
  let longer := if utf16Length nb ≤ utf16Length na then na else nb
  let shorter := if utf16Length nb ≤ utf16Length na then nb else na
  a == b || na == nb || longer == shorter || startsWith (shorter ++ "/") longer

/-! ## Errors -/

inductive LintError
  | notObject
  | workstream
  | description
  | thread
  | noTasks
  | taskNotObject (index : Nat)
  | idMissing (index : Nat)
  | idCharset (index : Nat) (id : String)
  | idDuplicate (index : Nat) (id : String)
  | fieldMissing (label field hint : String)
  | fieldQuoting (label field : String)
  | fieldControl (label field : String)
  | owns (label : String)
  | ownsPath (label path problem : String)
  | tier (label : String)
  | recipe (label : String)
  | validationNondeterministic (label : String)
  | validationFence (label : String)
  | validationControl (label : String)
  | commandNondeterministic (label : String) (index : Nat)
  | boundaryConflict (id path other otherPath : String)
  | unknownDependency (id : String) (dependency : Json)
  | dependencyCycle (cycle : List String)

def LintError.text : LintError → String
  | .notObject => "descriptor must be a JSON object"
  | .workstream => "`workstream` must be a non-empty string (the objective)"
  | .description => "`description` must be a non-empty string"
  | .thread => "`thread`, if present, must be a non-empty string (rally thread id)"
  | .noTasks => "`tasks` must be a non-empty array"
  | .taskNotObject i => s!"tasks[{i}] must be an object"
  | .idMissing i => s!"tasks[{i}].id must be a non-empty string"
  | .idCharset i id => s!"tasks[{i}].id \"{id}\" must match /^[A-Za-z0-9._-]+$/ — it is interpolated bare into " ++
      "--step/--parent-step and packet filenames"
  | .idDuplicate i id => s!"tasks[{i}].id duplicates an earlier task id: {id}"
  | .fieldMissing label field hint => s!"task {label}: `{field}` must be a non-empty string{hint}"
  | .fieldQuoting label field => s!"task {label}: `{field}` must not contain \" $ or backtick — it is rendered " ++
      "into a bash --subject argument"
  | .fieldControl label field => s!"task {label}: `{field}` must not contain a newline or control character — " ++
      "it is rendered into a one-line bash --subject argument"
  | .owns label => s!"task {label}: `owns` must be \"read-only\" or a non-empty array of path strings"
  | .ownsPath label path problem => s!"task {label}: `owns` path \"{path}\" {problem}"
  | .tier label => s!"task {label}: `tier` must be one of " ++ join " | " tiers
  | .recipe label => s!"task {label}: `validation_recipe` must be one of " ++ join " | " validationRecipeNames ++
      " — recipes are defined locally in workstream-lint.mjs; a descriptor cannot supply command text"
  | .validationNondeterministic label => s!"task {label}: `validation` is non-deterministic " ++
      "(Date.now()/Math.random()/new Date()) — declared commands must be reproducible"
  | .validationFence label => s!"task {label}: `validation` must not contain a triple-backtick fence — it would " ++
      "break out of the markdown block the packet renders it in"
  | .validationControl label => s!"task {label}: `validation` must not contain control characters"
  | .commandNondeterministic label i => s!"task {label}: commands[{i}] is non-deterministic " ++
      "(Date.now()/Math.random()/new Date())"
  | .boundaryConflict id path other otherPath => s!"boundary conflict: task {id} owns \"{path}\" overlaps task " ++
      s!"{other} owns \"{otherPath}\" — owns must be mutually exclusive"
  | .unknownDependency id d => s!"task {id}: depends_on references unknown task id \"{d.jsString}\""
  | .dependencyCycle cycle => "dependency cycle: " ++ join " -> " cycle

/-! ## One task -/

def errorIf (b : Bool) (e : LintError) : List LintError := if b then [e] else []

def taskId (task : Json) : Option String := nonEmptyString (task.member "id")

def taskLabel (index : Nat) (task : Json) : String := (taskId task).getD s!"tasks[{index}]"

def idErrors (ids : List String) (index : Nat) (task : Json) : List LintError :=
  match taskId task with
  | none => [.idMissing index]
  | some id =>
    if !isIdentifier id then [.idCharset index id]
    else if ids.contains id then [.idDuplicate index id]
    else []

/-- The rule of `intent` and `output`, which are rendered into a one-line argument. -/
def promptErrors (label field hint : String) (v : Option Json) : List LintError :=
  match nonEmptyString v with
  | none => [.fieldMissing label field hint]
  | some text =>
    if text.toList.any isQuoting then [.fieldQuoting label field]
    else if text.toList.any isControlChar then [.fieldControl label field]
    else []

def isReadOnly (task : Json) : Bool := (task.member "owns").bind Json.asStr == some "read-only"

/-- `owns` is "read-only" or an array of paths. -/
def ownsValid (task : Json) : Bool :=
  isReadOnly task ||
    match task.member "owns" with
    | some (.array items) => !items.isEmpty && items.all fun v => (nonEmptyString (some v)).isSome
    | _ => false

def ownsErrors (label : String) (task : Json) : List LintError :=
  if !ownsValid task then [.owns label]
  else (ownedPaths (task.member "owns")).flatMap fun p =>
    ((ownsPathProblem p).map (LintError.ownsPath label p)).toList

def commandErrors (label : String) (commands : Option Json) : List LintError :=
  match commands with
  | some (.array items) => items.zipIdx.flatMap fun (cmd, i) =>
    errorIf ((nonEmptyString (some cmd)).any (blocklisted none ·.toList)) (.commandNondeterministic label i)
  | _ => []

/-- What the linter says about the free text that tells how to verify a task. -/
def validationErrors (label : String) (v : Option Json) : List LintError :=
  let holds (p : String → Bool) := (nonEmptyString v).any p
  errorIf (holds (blocklisted none ·.toList)) (.validationNondeterministic label) ++
    errorIf (holds (containsStr (backticks 3))) (.validationFence label) ++
    errorIf (holds (·.toList.any isControlNoLf)) (.validationControl label)

def taskErrors (ids : List String) (index : Nat) (task : Json) : List LintError :=
  if task.asObject.isNone then [.taskNotObject index]
  else
    let label := taskLabel index task
    let validation := task.member "validation"
    idErrors ids index task ++
      promptErrors label "intent" "" (task.member "intent") ++
      errorIf (nonEmptyString validation).isNone (.fieldMissing label "validation" " (how to verify the task)") ++
      promptErrors label "output" " (expected result shape)" (task.member "output") ++
      ownsErrors label task ++
      errorIf ((task.member "tier").any fun v => !v.asStr.any tiers.contains) (.tier label) ++
      errorIf ((task.member "validation_recipe").any fun v => (lookupRecipe v).isNone) (.recipe label) ++
      validationErrors label validation ++
      commandErrors label (task.member "commands")

/-! ## All tasks -/

/-- The id is declared when it is well formed; a repeated one is there already. -/
def declareId (ids : List String) (task : Json) : List String :=
  match taskId task with
  | some id => if isIdentifier id && !ids.contains id then ids ++ [id] else ids
  | none => ids

def tasksErrors (ids : List String) : Nat → List Json → List LintError
  | _, [] => []
  | index, task :: rest => taskErrors ids index task ++ tasksErrors (declareId ids task) (index + 1) rest

structure WriteOwner where
  id : String
  path : String

/-- The paths of a task whose `owns` has the right shape. -/
def writeOwnersOf (index : Nat) (task : Json) : List WriteOwner :=
  if task.asObject.isNone || !ownsValid task then []
  else (ownedPaths (task.member "owns")).map (WriteOwner.mk (taskLabel index task))

def boundaryErrors : List WriteOwner → List LintError
  | [] => []
  | x :: rest => (rest.flatMap fun y =>
      errorIf (x.id != y.id && pathsOverlap x.path y.path) (.boundaryConflict x.id x.path y.id y.path)) ++
    boundaryErrors rest

/-- A list of dependencies, whatever is in it. -/
def dependsOn (task : Json) : List Json :=
  match task.member "depends_on" with
  | some (.array items) => items
  | _ => []

/-- The `deps` map. -/
def depsOf (tasks : List Json) : List (String × List Json) := mapOf taskId (fun task _ => dependsOn task) tasks

def unknownErrors (deps : List (String × List Json)) : List LintError :=
  deps.flatMap fun (id, list) => list.flatMap fun d =>
    errorIf (!d.asStr.any (mapHas deps)) (.unknownDependency id d)

/-- The graph that is searched: unknown ids are skipped. -/
def depsGraph (deps : List (String × List Json)) : Graph String where
  nodes := deps.map (·.1)
  succ id := ((mapGet deps id).getD []).filterMap fun d => d.asStr.filter (mapHas deps)
  closed _ d hd := by
    obtain ⟨v, -, hv⟩ := List.mem_filterMap.mp hd
    exact mapHas_iff.mp (Option.filter_eq_some_iff.mp hv).2

def lintWorkstream (doc : Json) : List LintError :=
  if doc.asObject.isNone then [.notObject]
  else
    let head := errorIf (nonEmptyString (doc.member "workstream")).isNone .workstream ++
      errorIf (nonEmptyString (doc.member "description")).isNone .description ++
      errorIf ((doc.member "thread").any fun v => (nonEmptyString (some v)).isNone) .thread
    match doc.member "tasks" with
    | some (.array (task :: rest)) =>
      let tasks := task :: rest
      let deps := depsOf tasks
      head ++ tasksErrors [] 0 tasks ++
        boundaryErrors (tasks.zipIdx.flatMap fun (t, i) => writeOwnersOf i t) ++
        unknownErrors deps ++
        ((depsGraph deps).findCycle.map LintError.dependencyCycle).toList
    | _ => head ++ [.noTasks]

/-! ## What a descriptor without errors is -/

section Linted

/-- A text that is rendered into a one-line argument. -/
def IsPrompt (text : String) : Prop := ∀ c ∈ text.toList, isQuoting c = false ∧ isControlChar c = false

/-- A task that the linter has nothing to say about. -/
structure LintedTask (task : Json) : Prop where
  id : ∃ id, taskId task = some id ∧ isIdentifier id = true
  intent : ∃ text, nonEmptyString (task.member "intent") = some text ∧ IsPrompt text
  output : ∃ text, nonEmptyString (task.member "output") = some text ∧ IsPrompt text
  validation : ∃ text, nonEmptyString (task.member "validation") = some text ∧
    containsStr (backticks 3) text = false ∧ ∀ c ∈ text.toList, isControlNoLf c = false
  owns : ownsValid task = true
  paths : ∀ p ∈ ownedPaths (task.member "owns"), ownsPathProblem p = none
  recipe : ∀ v ∈ task.member "validation_recipe", ∃ r, lookupRecipe v = some r

/-- The tasks of a descriptor. -/
def tasksOf (doc : Json) : List Json :=
  match doc.member "tasks" with
  | some (.array tasks) => tasks
  | _ => []

def taskIds (tasks : List Json) : List String := tasks.filterMap taskId

def writeOwners (tasks : List Json) : List WriteOwner :=
  tasks.zipIdx.flatMap fun (t, i) => writeOwnersOf i t

/-- **The tasks of a descriptor without errors.** -/
structure Linted (tasks : List Json) : Prop where
  task : ∀ t ∈ tasks, LintedTask t
  nodup : (taskIds tasks).Nodup
  boundaries : (writeOwners tasks).Pairwise fun x y => x.id ≠ y.id → pathsOverlap x.path y.path = false
  declared : ∀ t ∈ tasks, ∀ d ∈ dependsOn t, ∃ id ∈ taskIds tasks, d = .string id
  acyclic : (depsGraph (depsOf tasks)).findCycle = none

variable {label field hint : String} {ids : List String} {index : Nat} {task : Json} {tasks rest : List Json}

@[simp] theorem mem_errorIf_iff {b : Bool} {e e' : LintError} : e ∈ errorIf b e' ↔ b = true ∧ e = e' := by
  cases b <;> simp [errorIf]

@[simp] theorem errorIf_eq_nil_iff {b : Bool} {e : LintError} : errorIf b e = [] ↔ b = false := by
  cases b <;> simp [errorIf]

theorem promptErrors_eq_nil {v : Option Json} (h : promptErrors label field hint v = []) :
    ∃ text, nonEmptyString v = some text ∧ IsPrompt text := by
  unfold promptErrors at h
  split at h
  · cases h
  · rename_i text htext
    refine ⟨text, htext, fun c hc => ?_⟩
    split at h
    · cases h
    · split at h
      · cases h
      · rename_i hquoting hcontrol
        simp only [Bool.not_eq_true, List.any_eq_false] at hquoting hcontrol
        exact ⟨hquoting c hc, hcontrol c hc⟩

theorem ownsErrors_eq_nil (h : ownsErrors label task = []) :
    ownsValid task = true ∧ ∀ p ∈ ownedPaths (task.member "owns"), ownsPathProblem p = none := by
  unfold ownsErrors at h
  split at h
  · cases h
  · rename_i hvalid
    refine ⟨by simpa using hvalid, fun p hp => ?_⟩
    have hnil := List.flatMap_eq_nil_iff.mp h p hp
    cases hproblem : ownsPathProblem p with
    | none => rfl
    | some problem => simp [hproblem] at hnil

theorem idErrors_eq_nil (h : idErrors ids index task = []) :
    ∃ id, taskId task = some id ∧ isIdentifier id = true ∧ id ∉ ids := by
  unfold idErrors at h
  split at h
  · cases h
  · rename_i id hid
    split at h
    · cases h
    · split at h
      · cases h
      · rename_i hvalid hfresh
        exact ⟨id, hid, by simpa using hvalid, by simpa using hfresh⟩

theorem linted_of_taskErrors (h : taskErrors ids index task = []) :
    LintedTask task ∧ ∃ id, taskId task = some id ∧ isIdentifier id = true ∧ id ∉ ids := by
  unfold taskErrors at h
  split at h
  · cases h
  · simp only [List.append_eq_nil_iff, errorIf_eq_nil_iff, validationErrors] at h
    obtain ⟨⟨⟨⟨⟨⟨⟨⟨hid, hintent⟩, hvalidation⟩, houtput⟩, howns⟩, -⟩, hrecipe⟩, ⟨-, hfence⟩, hcontrol⟩, -⟩ := h
    obtain ⟨id, hsome, hvalid, hfresh⟩ := idErrors_eq_nil hid
    obtain ⟨hownsValid, hpaths⟩ := ownsErrors_eq_nil howns
    refine ⟨⟨⟨id, hsome, hvalid⟩, promptErrors_eq_nil hintent, promptErrors_eq_nil houtput, ?_, hownsValid, hpaths,
      fun v hv => ?_⟩, id, hsome, hvalid, hfresh⟩
    · obtain ⟨text, htext⟩ := Option.isSome_iff_exists.mp (by simpa using hvalidation)
      rw [htext] at hfence hcontrol
      refine ⟨text, htext, by simpa using hfence, by simpa using hcontrol⟩
    · rw [Option.mem_def.mp hv] at hrecipe
      exact Option.isSome_iff_exists.mp (by simpa using hrecipe)

/-- Task by task the ids stay distinct. -/
theorem linted_of_tasksErrors (h : tasksErrors ids index tasks = []) (hids : ids.Nodup) :
    (∀ t ∈ tasks, LintedTask t) ∧ (ids ++ taskIds tasks).Nodup := by
  induction tasks generalizing ids index with
  | nil => simpa [taskIds] using hids
  | cons task rest ih =>
    obtain ⟨hhead, hrest⟩ := List.append_eq_nil_iff.mp h
    obtain ⟨htask, id, hsome, hvalid, hfresh⟩ := linted_of_taskErrors hhead
    have hdeclare : declareId ids task = ids ++ [id] := by simp [declareId, hsome, hvalid, hfresh]
    rw [hdeclare] at hrest
    obtain ⟨htasks, hnodup⟩ := ih hrest (by simpa using hids.concat hfresh)
    have hcons : taskIds (task :: rest) = id :: taskIds rest := by simp [taskIds, hsome]
    refine ⟨List.forall_mem_cons.mpr ⟨htask, htasks⟩, ?_⟩
    rw [hcons, ← List.singleton_append, ← List.append_assoc]
    exact hnodup

theorem boundaries_of_boundaryErrors {owners : List WriteOwner} (h : boundaryErrors owners = []) :
    owners.Pairwise fun x y => x.id ≠ y.id → pathsOverlap x.path y.path = false := by
  induction owners with
  | nil => exact List.Pairwise.nil
  | cons x rest ih =>
    obtain ⟨hhead, hrest⟩ := List.append_eq_nil_iff.mp h
    refine List.pairwise_cons.mpr ⟨fun y hy hne => ?_, ih hrest⟩
    have hnil := List.flatMap_eq_nil_iff.mp hhead y hy
    simpa [hne] using hnil

/-! ## The dependency map -/

theorem mem_keys_depsOf {id : String} : id ∈ (depsOf tasks).map (·.1) ↔ id ∈ taskIds tasks := mem_keys_mapOf

/-- The last task under an id, and what it depends on among the declared ids. -/
def DependsOn (tasks : List Json) (id d : String) : Prop :=
  d ∈ taskIds tasks ∧ ∃ pre task post, tasks = pre ++ task :: post ∧ taskId task = some id ∧
    (∀ u ∈ post, taskId u ≠ some id) ∧ Json.string d ∈ dependsOn task

theorem edge_iff_dependsOn {id d : String} : (depsGraph (depsOf tasks)).Edge id d ↔ DependsOn tasks id d := by
  have hedge : (depsGraph (depsOf tasks)).Edge id d ↔
      d ∈ taskIds tasks ∧ ∃ list, mapGet (depsOf tasks) id = some list ∧ Json.string d ∈ list := by
    simp only [Graph.Edge, depsGraph, List.mem_filterMap, Option.filter_eq_some_iff, Json.asStr_eq_some, mapHas_iff,
      mem_keys_depsOf]
    constructor
    · rintro ⟨v, hv, rfl, hd⟩
      cases hget : mapGet (depsOf tasks) id with
      | none => simp [hget] at hv
      | some list => exact ⟨hd, list, rfl, by simpa [hget] using hv⟩
    · rintro ⟨hd, list, hget, hmem⟩
      exact ⟨.string d, by simpa [hget] using hmem, rfl, hd⟩
  rw [hedge, DependsOn]
  simp only [depsOf, mapGet_mapOf_eq_some_iff]
  constructor
  · rintro ⟨hd, _, ⟨pre, task, post, hsplit, hid, hpost, rfl⟩, hmem⟩
    exact ⟨hd, pre, task, post, hsplit, hid, hpost, hmem⟩
  · rintro ⟨hd, pre, task, post, hsplit, hid, hpost, hmem⟩
    exact ⟨hd, _, ⟨pre, task, post, hsplit, hid, hpost, rfl⟩, hmem⟩

/-- Where ids are distinct, every task under an id is the last one. -/
theorem dependsOn_iff_of_nodup (hnodup : (taskIds tasks).Nodup) {id d : String} :
    DependsOn tasks id d ↔
      d ∈ taskIds tasks ∧ ∃ task ∈ tasks, taskId task = some id ∧ Json.string d ∈ dependsOn task := by
  constructor
  · rintro ⟨hd, pre, task, post, rfl, hid, -, hmem⟩
    exact ⟨hd, task, by simp, hid, hmem⟩
  · rintro ⟨hd, task, htask, hid, hmem⟩
    obtain ⟨pre, post, rfl⟩ := List.append_of_mem htask
    exact ⟨hd, pre, task, post, rfl, hid, key_ne_of_nodup hnodup hid, hmem⟩

/-! ## The whole descriptor -/

theorem declared_of_unknownErrors (h : unknownErrors (depsOf tasks) = []) {id : String} {list : List Json}
    (hlist : mapGet (depsOf tasks) id = some list) : ∀ d ∈ list, ∃ d' ∈ taskIds tasks, d = .string d' := by
  intro d hd
  obtain ⟨entry, hentry, rfl⟩ := Option.map_eq_some_iff.mp hlist
  have hnil := List.flatMap_eq_nil_iff.mp (List.flatMap_eq_nil_iff.mp h entry (List.mem_of_find?_eq_some hentry)) d hd
  cases htext : d.asStr with
  | none => simp [htext] at hnil
  | some d' =>
    refine ⟨d', mem_keys_depsOf.mp (mapHas_iff.mp ?_), Json.asStr_eq_some.mp htext⟩
    simpa [htext] using hnil

/-- **What the linter lets through.** -/
theorem linted_of_lint {doc : Json} (h : lintWorkstream doc = []) : tasksOf doc ≠ [] ∧ Linted (tasksOf doc) := by
  unfold lintWorkstream at h
  split at h
  · cases h
  · dsimp only at h
    split at h
    · rename_i task rest htasks
      have hof : tasksOf doc = task :: rest := by simp [tasksOf, htasks]
      rw [hof]
      simp only [List.append_eq_nil_iff, Option.toList_eq_nil_iff, Option.map_eq_none_iff] at h
      obtain ⟨⟨⟨⟨-, htasksErrors⟩, hboundary⟩, hunknown⟩, hcycle⟩ := h
      obtain ⟨hlinted, hnodup⟩ := linted_of_tasksErrors htasksErrors List.nodup_nil
      refine ⟨nofun, hlinted, hnodup, boundaries_of_boundaryErrors hboundary, fun t ht => ?_, hcycle⟩
      obtain ⟨id, hid, -⟩ := (hlinted t ht).id
      exact declared_of_unknownErrors hunknown (mapGet_mapOf_of_nodup hnodup ht hid)
    · simp at h

/-- Only the search reports a cycle. -/
theorem notMem_tasksErrors (c : List String) : LintError.dependencyCycle c ∉ tasksErrors ids index tasks := by
  have hprompt : ∀ label field hint v, LintError.dependencyCycle c ∉ promptErrors label field hint v := by
    intro label field hint v
    unfold promptErrors
    split
    · simp
    · split
      · simp
      · split <;> simp
  have hid : ∀ ids index task, LintError.dependencyCycle c ∉ idErrors ids index task := by
    intro ids index task
    unfold idErrors
    split
    · simp
    · split
      · simp
      · split <;> simp
  have howns : ∀ label task, LintError.dependencyCycle c ∉ ownsErrors label task := by
    intro label task
    unfold ownsErrors
    split
    · simp
    · simp
  have hcommand : ∀ label v, LintError.dependencyCycle c ∉ commandErrors label v := by
    intro label v
    unfold commandErrors
    split
    · simp
    · simp
  have htask : ∀ ids index task, LintError.dependencyCycle c ∉ taskErrors ids index task := by
    intro ids index task
    unfold taskErrors
    split
    · simp
    · simp [hprompt, hid, howns, hcommand, validationErrors]
  induction tasks generalizing ids index with
  | nil => exact List.not_mem_nil
  | cons task rest ih =>
    rw [tasksErrors, List.mem_append, not_or]
    exact ⟨htask ids index task, ih⟩

theorem notMem_boundaryErrors (c : List String) (owners : List WriteOwner) :
    LintError.dependencyCycle c ∉ boundaryErrors owners := by
  induction owners with
  | nil => exact List.not_mem_nil
  | cons x rest ih => simp [boundaryErrors, ih]

theorem findCycle_depsOf_nil : (depsGraph (depsOf [])).findCycle = none := rfl

/-- **The linter's cycle check is exact:** it reports a cycle if and only if the declared dependencies have one. -/
theorem cycle_reported_iff (doc : Json) :
    (∃ c, LintError.dependencyCycle c ∈ lintWorkstream doc) ↔
      ∃ id, Relation.TransGen (DependsOn (tasksOf doc)) id id := by
  have hrel : DependsOn (tasksOf doc) = (depsGraph (depsOf (tasksOf doc))).Edge :=
    funext fun id => funext fun d => propext edge_iff_dependsOn.symm
  have hcyclic : (∃ id, Relation.TransGen (DependsOn (tasksOf doc)) id id) ↔
      (depsGraph (depsOf (tasksOf doc))).findCycle.isSome = true := by
    rw [hrel]
    exact Graph.findCycle_isSome_iff.symm
  rw [hcyclic]
  unfold lintWorkstream
  split
  · rename_i hobject
    have hnone : tasksOf doc = [] := by simp [tasksOf, Json.member, Option.isNone_iff_eq_none.mp hobject]
    simp [hnone, findCycle_depsOf_nil]
  · dsimp only
    split
    · rename_i task rest htasks
      have hof : tasksOf doc = task :: rest := by simp [tasksOf, htasks]
      rw [hof, Option.isSome_iff_exists]
      simp [notMem_tasksErrors, notMem_boundaryErrors, unknownErrors]
    · rename_i htasks
      have hnone : tasksOf doc = [] := by
        unfold tasksOf
        split
        · rename_i tasks hmember
          cases tasks with
          | nil => rfl
          | cons task rest => exact absurd hmember (htasks task rest)
        · rfl
      simp [hnone, findCycle_depsOf_nil]

/-! ## Owned paths of a linted descriptor -/

/-- The characters of an owned path, and that it does not end in a separator. -/
theorem ownsPath_chars {p : String} (h : ownsPathProblem p = none) :
    p ≠ "" ∧ (∀ c ∈ p.toList, isIdentifierChar c = true ∨ c = '/' ∨ c = '*') ∧
      p.toList.getLast? ≠ some '/' ∧ segmentsProblem (split '/' p) = none := by
  unfold ownsPathProblem at h
  split at h
  · cases h
  · rename_i hne
    split at h
    · cases h
    · rename_i hcharset
      split at h
      · cases h
      · split at h
        · cases h
        · rename_i hlast
          refine ⟨hne, fun c hc => ?_, hlast, h⟩
          have hall : ownsCharset p = true := by simpa using hcharset
          have hc' := List.all_eq_true.mp hall c hc
          simpa only [Bool.or_eq_true, beq_iff_eq, or_assoc] using hc'

theorem nonEmptyString_some {v : Json} {text : String} (h : nonEmptyString (some v) = some text) :
    v = .string text := by
  rw [nonEmptyString, Option.filter_eq_some_iff] at h
  exact Json.asStr_eq_some.mp h.1

/-- The paths of a write task are the strings of its array. -/
theorem LintedTask.write_owns (h : LintedTask task) (hwrite : isReadOnly task = false) :
    ∃ items, task.member "owns" = some (.array items) ∧ items ≠ [] ∧
      ∀ v, v ∈ items ↔ ∃ p ∈ ownedPaths (task.member "owns"), v = .string p := by
  have howns := h.owns
  rw [ownsValid, hwrite, Bool.false_or] at howns
  split at howns
  · rename_i items hitems
    rw [hitems]
    have hboth : items ≠ [] ∧ ∀ v ∈ items, (nonEmptyString (some v)).isSome = true := by simpa using howns
    refine ⟨items, rfl, hboth.1, fun v => ?_⟩
    constructor
    · intro hv
      obtain ⟨p, hp⟩ := Option.isSome_iff_exists.mp (hboth.2 v hv)
      exact ⟨p, List.mem_filterMap.mpr ⟨v, hv, hp⟩, nonEmptyString_some hp⟩
    · rintro ⟨p, hp, rfl⟩
      obtain ⟨v, hv, hpv⟩ := List.mem_filterMap.mp hp
      exact nonEmptyString_some hpv ▸ hv
  · cases howns

theorem Linted.mem_writeOwners (hl : Linted tasks) (ht : task ∈ tasks) {id : String} (hid : taskId task = some id)
    {p : String} (hp : p ∈ ownedPaths (task.member "owns")) : ⟨id, p⟩ ∈ writeOwners tasks := by
  have hobject : task.asObject.isNone = false := by
    cases hfields : task.asObject with
    | some fields => rfl
    | none => simp [taskId, Json.member, hfields, nonEmptyString] at hid
  obtain ⟨i, hi⟩ := List.mem_iff_getElem?.mp ht
  refine List.mem_flatMap.mpr ⟨(task, i), List.mk_mem_zipIdx_iff_getElem?.mpr hi, ?_⟩
  simp only [writeOwnersOf, hobject, (hl.task task ht).owns, taskLabel, hid]
  exact List.mem_map.mpr ⟨p, hp, rfl⟩

/-- **Two tasks own no path together.** -/
theorem Linted.path_ne (hl : Linted tasks) {t u : Json} {id uid : String} (ht : t ∈ tasks) (hu : u ∈ tasks)
    (hid : taskId t = some id) (huid : taskId u = some uid) (hne : id ≠ uid) {p q : String}
    (hp : p ∈ ownedPaths (t.member "owns")) (hq : q ∈ ownedPaths (u.member "owns")) : p ≠ q := by
  have hapart : (writeOwners tasks).Pairwise fun x y => x.id ≠ y.id → x.path ≠ y.path := by
    refine hl.boundaries.imp fun h hids hpath => ?_
    have hoverlap := h hids
    simp [pathsOverlap, hpath] at hoverlap
  have hsymm : Std.Symm fun x y : WriteOwner => x.id ≠ y.id → x.path ≠ y.path :=
    ⟨fun _ _ h hids => (h hids.symm).symm⟩
  exact hapart.forall (hl.mem_writeOwners ht hid hp) (hl.mem_writeOwners hu huid hq)
    (fun h => hne (congrArg WriteOwner.id h)) hne

end Linted

end RallyPoint.Workstream
