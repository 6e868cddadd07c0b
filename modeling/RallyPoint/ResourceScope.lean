/-
# RallyPoint.ResourceScope — parsed claim scopes and the conflict relation (`resource_scope.rs`).

A claim holds free-text scopes. `parseClaimScope` reads one as an access mode, a resource type and a
canonical identifier (or as nothing: lineage markers and unknown types hold no resource). Two scopes
conflict when their access modes exclude each other and their resources overlap; overlap is identity,
containment below a namespace root, or path containment between directories and files.

The gate asks the question in one direction only (newcomer against holder), so what the exclusivity
argument needs from this module is that the relation is symmetric: `conflictsWith_comm`.
-/
import RallyPoint.Lib.Str

namespace RallyPoint

open Lib

inductive ResourceType
  | workspace | repo | file | dir | branch | commit | port | process | service | task | crossRepo
  deriving DecidableEq, Repr

inductive AccessMode
  | exclusive | sharedRead | advisory | «namespace»
  deriving DecidableEq, Repr

structure ResourceScope where
  resourceType : ResourceType
  identifier : String
  access : AccessMode
  deriving DecidableEq, Repr

namespace ResourceType

def asStr : ResourceType → String
  | workspace => "workspace"
  | repo => "repo"
  | file => "file"
  | dir => "dir"
  | branch => "branch"
  | commit => "commit"
  | port => "port"
  | process => "process"
  | service => "service"
  | task => "task"
  | crossRepo => "cross-repo"

/-- A type that can contain finer-grained resources. -/
def isNamespaceRoot (t : ResourceType) : Bool := t == workspace || t == repo

end ResourceType

/-! ## Parsing -/

def parseAccessPrefix (raw : String) : Option AccessMode × String :=
  match splitOnce ':' raw with
  | none => (none, raw)
  | some (head, rest) =>
    if head = "exclusive" then (some .exclusive, rest)
    else if head = "shared_read" ∨ head = "shared-read" then (some .sharedRead, rest)
    else if head = "advisory" then (some .advisory, rest)
    else if head = "namespace" then (some .namespace, rest)
    -- any other head belongs to the resource itself
    else (none, raw)

def parseResourceType (kind : String) : Option ResourceType :=
  if kind = "workspace" then some .workspace
  else if kind = "repo" then some .repo
  else if kind = "file" then some .file
  else if kind = "dir" then some .dir
  else if kind = "branch" then some .branch
  else if kind = "commit" then some .commit
  else if kind = "port" then some .port
  else if kind = "process" then some .process
  else if kind = "service" then some .service
  else if kind = "task" then some .task
  else if kind = "cross-repo" ∨ kind = "cross_repo" then some .crossRepo
  else none

def defaultAccess : ResourceType → AccessMode
  | .dir | .repo | .workspace => .namespace
  | _ => .exclusive

/-- One component of a Unix path; repeated separators and `.` name nothing, `..` pops. -/
def pushComponent (parts : List String) (component : String) : List String :=
  if component = "" ∨ component = "." then parts
  else if component = ".." then parts.dropLast
  else parts ++ [component]

def canonicalPath (raw : String) : String :=
  let raw := (stripPrefix "./" raw).getD raw
  let joined := join "/" ((split '/' raw).foldl pushComponent [])
  if startsWith "/" raw then "/" ++ joined else joined

def canonicalIdentifier (resourceType : ResourceType) (raw : String) : String :=
  let raw := trim raw
  match resourceType with
  | .file | .dir => canonicalPath raw
  -- a port is compared as a number, or as text when it is none
  | .port => match parseU16 raw with
    | some port => toString port
    | none => raw
  | .commit => toAsciiLowercase raw
  | .crossRepo =>
    let parts := ((split '+' raw).map trim).filter (fun part => !part.toList.isEmpty)
    join "+" (dedupConsecutive (sortStrings parts))
  | _ => raw

def isLineageOrMarkerScope (raw : String) : Bool :=
  raw == "external-intake" || raw == "backlog-item" || startsWith "run:" raw ||
    startsWith "step:" raw || startsWith "parent-step:" raw || startsWith "owns:" raw ||
    startsWith "produces:" raw || startsWith "depends:" raw

def parseClaimScope (raw : String) : Option ResourceScope :=
  let raw := trim raw
  if raw.toList.isEmpty || isLineageOrMarkerScope raw then none
  else
    match splitOnce ':' (parseAccessPrefix raw).2 with
    | none => none
    | some (kind, identifier) =>
      match parseResourceType kind with
      | none => none
      | some resourceType =>
        let identifier := canonicalIdentifier resourceType identifier
        if identifier.toList.isEmpty then none
        else some ⟨resourceType, identifier,
          (parseAccessPrefix raw).1.getD (defaultAccess resourceType)⟩

/-- A scope spelled with the name of its type, without an access mode. -/
theorem parseClaimScope_typed (type : ResourceType) (raw : String) :
    parseClaimScope (type.asStr ++ ":" ++ raw) =
      if canonicalIdentifier type raw = "" then none
      else some ⟨type, canonicalIdentifier type raw, defaultAccess type⟩ := by
  have htrim : trim (type.asStr ++ ":" ++ raw) = type.asStr ++ ":" ++ trimEnd raw := by
    apply trim_append <;> cases type <;> decide
  have hid : canonicalIdentifier type (trimEnd raw) = canonicalIdentifier type raw := by
    simp only [canonicalIdentifier, trim_trimEnd]
  have hcut : splitOnce ':' (type.asStr ++ ":" ++ trimEnd raw) = some (type.asStr, trimEnd raw) :=
    splitOnce_append (by cases type <;> decide)
  -- no type is spelled as an access mode, or begins as a lineage marker does
  have haccess : parseAccessPrefix (type.asStr ++ ":" ++ trimEnd raw) =
      (none, type.asStr ++ ":" ++ trimEnd raw) := by
    rw [parseAccessPrefix, hcut]
    cases type <;> simp [ResourceType.asStr]
  have hmarker : isLineageOrMarkerScope (type.asStr ++ ":" ++ trimEnd raw) = false := by
    cases type <;> simp [isLineageOrMarkerScope, startsWith, ResourceType.asStr, ← String.toList_inj, List.isPrefixOf]
  have htype : parseResourceType type.asStr = some type := by cases type <;> rfl
  have hne : (type.asStr ++ ":" ++ trimEnd raw).toList.isEmpty = false := by simp
  rw [parseClaimScope, htrim]
  simp only [hne, hmarker, haccess, hcut, htype, hid, Bool.or_false, Bool.false_eq_true, if_false, Option.getD_none]
  simp

/-! ## Conflict -/

namespace ResourceScope

def canonicalKey (scope : ResourceScope) : String :=
  scope.resourceType.asStr ++ ":" ++ scope.identifier

end ResourceScope

def accessModesConflict : AccessMode → AccessMode → Bool
  | .advisory, _ => false
  | _, .advisory => false
  | .sharedRead, .sharedRead => false
  | .sharedRead, .exclusive => false
  | .exclusive, .sharedRead => false
  | _, _ => true

def wildcardIdentifier : String := "*"

def pathContains (parent child : String) : Bool :=
  parent == child || startsWith (parent ++ "/") child

/-- Containment below a namespace root: by identifier, and only where the identifier answers. -/
def rootContains (root other : ResourceScope) : Bool :=
  if root.identifier == wildcardIdentifier then true
  else match other.resourceType with
    | .file | .dir | .repo | .workspace => pathContains root.identifier other.identifier
    | _ => false

def resourcesOverlap (a b : ResourceScope) : Bool :=
  if a.resourceType == b.resourceType && a.identifier == b.identifier then true
  else if a.resourceType.isNamespaceRoot && rootContains a b then true
  else if b.resourceType.isNamespaceRoot && rootContains b a then true
  else match a.resourceType, b.resourceType with
    | .dir, .file => pathContains a.identifier b.identifier
    | .file, .dir => pathContains b.identifier a.identifier
    | .dir, .dir => pathContains a.identifier b.identifier || pathContains b.identifier a.identifier
    | _, _ => false

def ResourceScope.conflictsWith (self other : ResourceScope) : Bool :=
  if !accessModesConflict self.access other.access then false else resourcesOverlap self other

/-! ## Symmetry -/

theorem accessModesConflict_comm (a b : AccessMode) :
    accessModesConflict a b = accessModesConflict b a := by
  cases a <;> cases b <;> rfl

/-- Overlap is the disjunction of four symmetric questions. -/
theorem resourcesOverlap_comm (a b : ResourceScope) :
    resourcesOverlap a b = resourcesOverlap b a := by
  have hid : (a.resourceType == b.resourceType && a.identifier == b.identifier) =
      (b.resourceType == a.resourceType && b.identifier == a.identifier) := by
    rw [Bool.beq_comm, Bool.beq_comm (a := a.identifier)]
  unfold resourcesOverlap
  rw [hid]
  -- the two root questions swap places, so split on both before comparing the path arms
  cases b.resourceType == a.resourceType && b.identifier == a.identifier <;>
    cases a.resourceType.isNamespaceRoot && rootContains a b <;>
    cases b.resourceType.isNamespaceRoot && rootContains b a <;>
    simp only [Bool.false_eq_true, if_false, if_true]
  cases a.resourceType <;> cases b.resourceType <;> first | rfl | exact Bool.or_comm _ _

theorem conflictsWith_comm (a b : ResourceScope) : a.conflictsWith b = b.conflictsWith a := by
  unfold ResourceScope.conflictsWith
  rw [accessModesConflict_comm, resourcesOverlap_comm]

example : (parseClaimScope "file:./src/../src/lib.rs").map (·.canonicalKey) =
    some "file:src/lib.rs" := by decide

end RallyPoint
