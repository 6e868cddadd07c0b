/-
# RallyPoint.HookEnvelope — what a hook envelope asks for (`hook_runtime.rs`).

Before a tool runs, its host hands the hook a JSON envelope: the name of the tool and its input, each under one of
several keys. `parseInput` takes the envelope apart and `classify` decides by the tool's name whether the call reads,
runs a shell or writes, and for a write which targets it declares; a target that is not a usable path makes the whole
envelope malformed. How the text of the envelope becomes a value is `serde_json`'s part: `fromStr` is a parameter.
-/
import RallyPoint.Lib.Json

namespace RallyPoint

open Lib

/-! ## The registries -/

def pureReadTools : List String :=
  ["view_image", "Read", "Glob", "Grep", "WebFetch", "WebSearch", "read_file", "list_dir", "list_directory",
    "codebase_search", "grep_search"]

def opaqueShellTools : List String := ["exec_command", "write_stdin", "Bash", "Shell", "run_terminal_cmd"]

def mutationTools : List String :=
  ["apply_patch", "Write", "Edit", "MultiEdit", "NotebookEdit", "EditNotebook", "StrReplace", "write_file",
    "edit_file", "delete_file", "Delete", "move_file", "create_file", "search_replace"]

def maxTargets : Nat := 16

/-- The key is the name of a registered tool, in lower case. -/
def registryContains (registry : List String) (key : String) : Bool :=
  registry.any fun entry => toAsciiLowercase entry == key

/-! ## The envelope -/

structure ParsedEnvelope where
  hasToolName : Bool
  toolName : Option Json
  session : String
  cwd : Option String
  toolInput : List (String × Json)

/-- A float is zero when its mantissa has no other digit. -/
def floatIsZero (x : FloatText) : Bool :=
  (x.text.toList.takeWhile (· != 'e')).all fun c => !c.isDigit || c == '0'

def jsTruthy : Json → Bool
  | .null => false
  | .bool b => b
  | .int n => n != 0
  | .float x => !floatIsZero x
  | .string s => s != ""
  | _ => true

def jsToString (v : Json) : String :=
  match v with
  | .string s => s
  -- every other value is its JSON text
  | other => String.ofList other.render

/-- The members of the first alias of the tool's input, which must be an object; the envelope itself without one. -/
def toolInputOf (obj : List (String × Json)) : List String → Except String (List (String × Json))
  | [] => .ok obj
  | key :: keys =>
    match getField obj key with
    | none => toolInputOf obj keys
    | some (.object map) => .ok map
    | some _ => .error (key ++ " is not an object")

def toolInputKeys : List String := ["tool_input", "toolInput", "input"]

def sessionOf (obj : List (String × Json)) : String :=
  ((["parent_conversation_id", "conversation_id", "session_id", "sessionId"].findSome? fun key =>
    (getField obj key).filter jsTruthy).map jsToString).getD ""

def cwdOf (obj : List (String × Json)) : Option String :=
  (["cwd", "working_directory", "workingDirectory"].findSome? fun key =>
    (getField obj key).bind Json.asStr).filter (· != "")

/-- An error is the diagnostic of a malformed envelope. -/
def parseInput (fromStr : String → Option Json) (raw : String) : Except String ParsedEnvelope := do
  let source := if raw = "" then "{}" else raw
  let value ← match fromStr source with
    | some value => .ok value
    | none => .error "invalid JSON envelope"
  let obj ← match value with
    | .object obj => .ok obj
    | _ => .error "hook envelope is not an object"
  let hasToolName := (getField obj "tool_name").isSome || (getField obj "toolName").isSome
  let toolName := if (getField obj "tool_name").isSome then getField obj "tool_name" else getField obj "toolName"
  let toolInput ← toolInputOf obj toolInputKeys
  .ok ⟨hasToolName, toolName, sessionOf obj, cwdOf obj, toolInput⟩

/-! ## Targets -/

def isWindowsAbsolute (value : String) : Bool :=
  match value.toList with
  | drive :: colon :: sep :: _ => drive.isAlpha && colon == ':' && (sep == '\\' || sep == '/')
  | _ => false

def validateTarget (raw : Json) (allowAbsolute : Bool) : Except String String :=
  match raw with
  | .string raw =>
    let value := trim raw
    let windowsAbsolute := isWindowsAbsolute value
    if raw != value then .error "target has leading or trailing whitespace"
    else if value = "" then .error "target is empty"
    else if value.toList.length > 4096 then .error "target exceeds 4096 characters"
    else if value.toList.any (fun c => c.toNat ≤ 0x1f || c.toNat == 0x7f) then
      .error "target contains a control character"
    else if startsWith "~" value then .error "target uses an unexpanded home shortcut"
    else if value.toList.contains '\\' && !windowsAbsolute then .error "relative target uses a backslash"
    else if !allowAbsolute && (startsWith "/" value || windowsAbsolute) then .error "patch target is not cwd-relative"
    else .ok value
  | _ => .error "target is not a string"

/-- Every declared target, each once, in order; one that is declared and not valid makes the list invalid. -/
def uniqueValidated (skipMissing allowAbsolute : Bool) (raws : List (Option Json)) : Except String (List String) :=
  raws.foldlM (fun paths raw =>
    if raw.isNone && skipMissing then .ok paths
    else do
      let value ← validateTarget (raw.getD .null) allowAbsolute
      .ok (if paths.contains value then paths else paths ++ [value])) []

/-- The targets a patch names in its `*** ` lines. -/
def applyPatchTargets (patch : String) : List String :=
  (split '\n' patch).filterMap fun line =>
    let line := (stripSuffix "\r" line).getD line
    (stripPrefix "*** " line).bind fun rest =>
      let captured := (["Add File:", "Update File:", "Delete File:"].findSome? fun verb => stripPrefix verb rest).or
        ((stripPrefix "Move " rest).bind fun rest => (stripPrefix "to:" rest).or (stripPrefix "from:" rest))
      captured.map fun captured => String.ofList (captured.toList.dropWhile fun c => c == ' ' || c == '\t')

/-! ## The classification -/

inductive Carrier
  | command | legacy
  deriving DecidableEq

inductive Effect
  | pureRead | opaqueShell | mutation (carrier : Carrier) | legacy | unknown | malformed (diagnostic : String)
  deriving DecidableEq

structure Classification where
  effect : Effect
  tool : String
  session : String
  cwd : Option String
  rawPaths : List String
  deriving DecidableEq

def legacyTargetKeys : List String := ["file_path", "filePath", "path", "notebook_path", "notebookPath"]

def mutationTargetKeys : List String :=
  ["file_path", "filePath", "notebook_path", "notebookPath", "path", "source", "src", "from", "destination", "dest",
    "to", "new_path", "newPath"]

/-- The effect and the targets of a call of a tool that writes. -/
def classifyMutation (input : List (String × Json)) (key : String) : Except String (Carrier × List String) := do
  let isApplyPatch := key == "apply_patch"
  let commandText := (getField input "command").bind Json.asStr
  let carrier := if isApplyPatch && commandText.isSome then Carrier.command else Carrier.legacy
  let raws ←
    if isApplyPatch then
      match commandText.or ((getField input "patch").bind Json.asStr) with
      | none => .error "apply_patch is missing command text"
      | some patch =>
        let directives := applyPatchTargets patch
        if directives.isEmpty then .error "apply_patch has no file directives"
        else .ok (directives.map fun value => some (Json.string value))
    else .ok (mutationTargetKeys.map (getField input))
  let validated ← uniqueValidated (!isApplyPatch) (!isApplyPatch) raws
  if validated.isEmpty then .error "mutation has no target"
  else if validated.length > maxTargets then .error s!"mutation exceeds {maxTargets} targets"
  else .ok (carrier, validated)

def classify (env : ParsedEnvelope) : Classification :=
  let done (effect : Effect) (tool : String) (paths : List String) : Classification :=
    ⟨effect, tool, env.session, env.cwd, paths⟩
  if !env.hasToolName then
    let legacy := uniqueValidated true true (legacyTargetKeys.map (getField env.toolInput))
    done .legacy "" (legacy.toOption.getD [])
  else
    match env.toolName.bind Json.asStr with
    | none => done (.malformed "tool_name is not a string") "unknown" []
    | some rawTool =>
      let tool := trim rawTool
      if tool = "" then done (.malformed "tool_name is blank") "unknown" []
      else
        let key := toAsciiLowercase tool
        if registryContains pureReadTools key then done .pureRead tool []
        else if registryContains opaqueShellTools key then done .opaqueShell tool []
        else if !registryContains mutationTools key then done .unknown tool []
        else
          match classifyMutation env.toolInput key with
          | .error diagnostic => done (.malformed diagnostic) tool []
          | .ok (carrier, paths) => done (.mutation carrier) tool paths

end RallyPoint
