/-
# RallyPoint.Fact — the ledger's data model (`store.rs`, `backends.rs`, `session_identity.rs`).

A ledger row carries one `Fact`. Every reader of the ledger (the room projection, the claim gates, the
session gate, the obligation projection) decides what a fact MEANS from its free-text fields: a marker in
`evidence`, a spelling of `subject`, a `ref` naming another fact. This module holds the record and the
predicates that give those fields their meaning; nothing here looks at more than one fact.

What lies outside the repository is collected in `Externals`: RFC 3339 parsing, JSON parsing, SHA-256 and
the floating-point decay weight. Instants are nanoseconds since the epoch.
-/
import RallyPoint.Lib.Str

namespace RallyPoint

open Lib

/-! ## Kinds -/

/-- The kinds of fact, in the order the source declares them. -/
inductive FactKind
  | claim | claimRenewed | claimExpired | release | blocker | resolve | decision | artifact
  | handoff | risk | lesson | session | sessionClosed | wake | presence | read | backlogItem
  | receipt | standby | mission | unknown
  deriving DecidableEq, Repr, Inhabited

namespace FactKind

/-- The wire name of a kind. -/
def asStr : FactKind → String
  | claim => "claim"
  | claimRenewed => "claim.renewed"
  | claimExpired => "claim.expired"
  | release => "release"
  | blocker => "blocker"
  | resolve => "resolve"
  | decision => "decision"
  | artifact => "artifact"
  | handoff => "handoff"
  | risk => "risk"
  | lesson => "lesson"
  | session => "session"
  | sessionClosed => "session.closed"
  | wake => "wake"
  | presence => "presence"
  | read => "read"
  | backlogItem => "backlog-item"
  | receipt => "receipt"
  | standby => "standby"
  | mission => "mission"
  | unknown => "unknown"

/-- The kinds a caller may name; the two internal ones are not among them. -/
def parse : String → Option FactKind
  | "claim" => some claim
  | "claim.expired" | "claim_expired" => some claimExpired
  | "release" => some release
  | "blocker" => some blocker
  | "resolve" => some resolve
  | "decision" => some decision
  | "artifact" => some artifact
  | "handoff" => some handoff
  | "risk" => some risk
  | "lesson" => some lesson
  | "session" => some session
  | "wake" => some wake
  | "presence" => some presence
  | "read" => some read
  | "backlog-item" | "backlog_item" => some backlogItem
  | "receipt" => some receipt
  | "standby" => some standby
  | "mission" => some mission
  | "unknown" => some unknown
  | _ => none

/-- The schema-floor generation at which a kind became writable. -/
def sinceGeneration : FactKind → Nat
  | sessionClosed => 2
  | _ => 1

end FactKind

/-! ## Facts -/

/-- A managed runtime session stamped on a `session` fact. `rest` is the JSON of the fields no
projection reads; it takes part in equality only. -/
structure ManagedSession where
  sessionId : String
  name : String
  agent : String
  tool : String
  rest : String
  deriving DecidableEq, Repr, Inhabited

/-- One durable fact. -/
structure Fact where
  schema : String := "agent-rally.fact.v1"
  eventId : String := ""
  seq : Int := 0
  threadId : String := ""
  kind : FactKind := .unknown
  tool : Option String := none
  role : Option String := none
  subject : String := ""
  scope : List String := []
  createdAt : String := ""
  summary : Option String := none
  evidence : List String := []
  target : Option String := none
  refId : Option String := none
  status : Option String := none
  severity : Option String := none
  uri : Option String := none
  session : Option ManagedSession := none
  fromSessionId : Option String := none
  deriving DecidableEq, Repr, Inhabited

def factSchema : String := "agent-rally.fact.v1"

/-! ## What the program takes from outside the repository -/

/-- A parsed JSON value (`serde_json::Value`); object keys are distinct. -/
inductive Value
  | null
  | bool (b : Bool)
  | number (text : String)
  | string (s : String)
  | array (items : List Value)
  | object (fields : List (String × Value))

/-- `Value::get` on an object. -/
def Value.get (value : Value) (key : String) : Option Value :=
  match value with
  | .object fields => (fields.find? fun field => field.1 == key).map (·.2)
  | _ => none

/-- `Value::as_i64`, of a number as it is printed. -/
def Value.asI64 : Value → Option Int
  | .number text => parseI64 text
  | _ => none

/-- A process environment variable as `std::env::var` reports it. -/
inductive EnvVar
  | notPresent
  | notUnicode
  | value (raw : String)
  deriving DecidableEq, Repr

/-- What the program calls or reads outside the repository. `powHalf age halfLife` is the `f64`
`0.5.powf(age / halfLife)` for nonnegative age and positive half-life, a finite dyadic rational. -/
structure Externals where
  parseFromRfc3339 : String → Option Int
  jsonFromStr : String → Option Value
  sha256Hex : String → String
  powHalf : Int → Int → Rat
  noLeaseMaxAgeDaysVar : EnvVar

/-- The externals at the few inputs closed examples use: three instants of one day, one hashed token. -/
def Externals.sample : Externals where
  parseFromRfc3339 raw :=
    if raw = "2026-01-01T00:00:00Z" then some 1767225600000000000
    else if raw = "2026-01-01T01:00:00Z" then some 1767229200000000000
    else if raw = "2026-01-01T12:00:00Z" then some 1767268800000000000
    else none
  jsonFromStr _ := none
  sha256Hex token :=
    if token = "close-token" then "7a1ce3d2596ded6c185cbba7c3606db7632ed37af081e3f50d18d5268b22c30f"
    else ""
  powHalf age halfLife := (1 / 2) ^ (age / halfLife).toNat
  noLeaseMaxAgeDaysVar := .notPresent

/-- `DateTime::timestamp`: whole seconds, rounded down. -/
def timestamp (instant : Int) : Int := instant / 1000000000

/-- `SystemTime::now().duration_since(UNIX_EPOCH)` in seconds, 0 before the epoch. -/
def unixSecs (now : Int) : Int := if now < 0 then 0 else timestamp now

/-! ## Authorship and session-close markers -/

def systemTool : String := "rally"
def systemRole : String := "system"

/-- Whether the system rather than a participating agent wrote the fact. -/
def isSystemAuthored (fact : Fact) : Bool :=
  fact.role == some systemRole || fact.tool == some systemTool

/-- Any spelling that attempts the privileged session-close act. -/
def isSessionCloseAttempt (fact : Fact) : Bool :=
  fact.kind == .sessionClosed ||
    (fact.kind == .session && fact.evidence.any (· == "protocol:session_state=closed"))

def isSessionCloseFact (fact : Fact) : Bool :=
  isSessionCloseAttempt fact && fact.evidence.any (· == "protocol:session_state=closed")

def sessionCloseTokenHash (ext : Externals) (token : String) : String := ext.sha256Hex token

def sessionCloseTokenHashPrefix : String := "protocol:session_close_token_sha256="
def sessionCloseTokenRevealPrefix : String := "protocol:session_close_token="

/-! ## Handoff protocol markers -/

/-- The value of the first `protocol:<name>=` evidence entry. -/
def protocolMarker (fact : Fact) (name : String) : Option String :=
  fact.evidence.findSome? (stripPrefix ("protocol:" ++ name ++ "="))

def referencedHandoffProtocolKeys : List String :=
  ["bridge_version", "event_kind", "target_policy", "to_session_id", "ref_event_id", "causation_id",
    "correlation_id", "handoff_id", "idempotency_key"]

/-- A refused request, with the text the caller reads. -/
inductive RallyError
  | usage (message : String)
  | message (text : String)
  deriving DecidableEq, Repr

abbrev Result (α : Type) := Except RallyError α

/-- The marker loop of `validate_handoff_protocol_namespace`, with the keys seen so far. -/
def collectProtocolKeys (seen : List String) : List String → Result (List String)
  | [] => .ok seen
  | entry :: rest =>
    -- the caller keeps entries that start with `protocol:`, so the rest is the key and its value
    match splitOnce '=' (String.ofList (entry.toList.drop "protocol:".length)) with
    | none => .error (.usage
        s!"handoff_protocol_marker_invalid: {String.quote entry} must use protocol:key=value")
    | some (key, value) =>
      if !referencedHandoffProtocolKeys.contains key then
        .error (.usage
          s!"handoff_protocol_marker_unknown: protocol:{key} is not part of the referenced-handoff contract")
      else if isBlank value then
        .error (.usage s!"handoff_protocol_marker_empty: protocol:{key} must not be empty")
      else if seen.contains key then
        .error (.usage s!"handoff_protocol_marker_duplicate: protocol:{key} appears more than once")
      else collectProtocolKeys (key :: seen) rest

def validateHandoffProtocolNamespace (fact : Fact) : Result Unit :=
  match collectProtocolKeys [] (fact.evidence.filter (startsWith "protocol:")) with
  | .error e => .error e
  | .ok seen =>
    match referencedHandoffProtocolKeys.find? (fun required => !seen.contains required) with
    | some required => .error (.usage
        s!"handoff_protocol_marker_missing: referenced handoff requires protocol:{required}")
    | none => .ok ()

def isFactV1HandoffBridge (fact : Fact) : Bool :=
  fact.kind == .handoff && fact.refId.isSome &&
    protocolMarker fact "bridge_version" == some "fact-v1" &&
    (validateHandoffProtocolNamespace fact).isOk

def handoffIsProtocolRequest (fact : Fact) : Bool :=
  -- a handoff outside the bridge contract is a plain request
  !isFactV1HandoffBridge fact || protocolMarker fact "event_kind" == some "handoff.requested"

/-- A typed receiver response: it proves receipt, not completion. -/
def handoffIsProtocolResponse (fact : Fact) : Bool :=
  isFactV1HandoffBridge fact &&
    (protocolMarker fact "event_kind" == some "handoff.acked" ||
      protocolMarker fact "event_kind" == some "handoff.accepted" ||
      protocolMarker fact "event_kind" == some "handoff.rejected")

/-- The exact receiver session a strict handoff request names. -/
def strictHandoffTargetSession (fact : Fact) : Option String :=
  if isFactV1HandoffBridge fact && protocolMarker fact "event_kind" == some "handoff.requested" then
    protocolMarker fact "to_session_id"
  else none

end RallyPoint
