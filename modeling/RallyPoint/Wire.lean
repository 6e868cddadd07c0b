/-
# RallyPoint.Wire — the typed wire contract of the store daemon (`store_wire.rs`, `error.rs`).

One request line, one reply line. The envelope is a closed set of operations, replies and error kinds; a fact
travels as the JSON its derived encoding gives, whose text decides how long a line is. `CliError` is the whole
`RallyError`: what a command can fail with on either side of the wire.
-/
import RallyPoint.Append
import RallyPoint.Lib.JsonSize

namespace RallyPoint.Wire

open Lib

def wireVersion : Nat := 9

/-- `MAX_LINE_BYTES`: the longest request or reply line. -/
def maxLineBytes : Nat := 8 * 1024 * 1024

/-! ## Facts on the wire -/

/-- The derived encoding of a managed session, whose fields the projections do not read. -/
structure SessionCodec where
  toWire : ManagedSession → Json
  fromWire : Json → Except String ManagedSession
  fromWire_toWire : ∀ session, fromWire (toWire session) = .ok session
  toWire_ne_null : ∀ session, toWire session ≠ .null

/-- The codec of sessions whose remaining fields are one text. -/
def SessionCodec.sample : SessionCodec where
  toWire s := .array [.string s.sessionId, .string s.name, .string s.agent, .string s.tool, .string s.rest]
  fromWire
    | .array [.string sessionId, .string name, .string agent, .string tool, .string rest] =>
      .ok ⟨sessionId, name, agent, tool, rest⟩
    | _ => .error "invalid type: expected struct ManagedSession"
  fromWire_toWire _ := rfl
  toWire_ne_null _ h := by cases h

/-- A kind's spelling in JSON: its name, with an underscore where the name of one kind has a dash. -/
def kindToWire : FactKind → String
  | .backlogItem => "backlog_item"
  | kind => kind.asStr

/-- An unknown spelling is an unknown kind. -/
def kindFromWire : String → FactKind
  | "claim" => .claim
  | "claim.renewed" => .claimRenewed
  | "claim.expired" => .claimExpired
  | "release" => .release
  | "blocker" => .blocker
  | "resolve" => .resolve
  | "decision" => .decision
  | "artifact" => .artifact
  | "handoff" => .handoff
  | "risk" => .risk
  | "lesson" => .lesson
  | "session" => .session
  | "session.closed" => .sessionClosed
  | "wake" => .wake
  | "presence" => .presence
  | "read" => .read
  | "backlog_item" | "backlog-item" => .backlogItem
  | "receipt" => .receipt
  | "standby" => .standby
  | "mission" => .mission
  | _ => .unknown

theorem kindFromWire_kindToWire (kind : FactKind) : kindFromWire (kindToWire kind) = kind := by
  cases kind <;> rfl

def optText : Option String → Json
  | some s => .string s
  | none => .null

def texts (items : List String) : Json := .array (items.map .string)

/-- A member that is left out when there is nothing to say. -/
def skipNone (key : String) : Option Json → List (String × Json)
  | some v => [(key, v)]
  | none => []

/-- A fact's members, in key order. -/
def factFields (codec : SessionCodec) (fact : Fact) : List (String × Json) :=
  ("created_at", .string fact.createdAt) :: ("event_id", .string fact.eventId) ::
  ("evidence", texts fact.evidence) :: (skipNone "from_session_id" (fact.fromSessionId.map .string) ++
  ("kind", .string (kindToWire fact.kind)) :: ("ref", optText fact.refId) :: ("role", optText fact.role) ::
  ("schema", .string fact.schema) :: ("scope", texts fact.scope) :: ("seq", .int fact.seq) ::
  (skipNone "session" (fact.session.map codec.toWire) ++
  [("severity", optText fact.severity), ("status", optText fact.status), ("subject", .string fact.subject),
    ("summary", optText fact.summary), ("target", optText fact.target), ("thread_id", .string fact.threadId),
    ("tool", optText fact.tool), ("uri", optText fact.uri)]))

/-- `serde_json::to_value` of a fact. -/
def factToWire (codec : SessionCodec) (fact : Fact) : Json := .object (factFields codec fact)

section Decode

variable (fields : List (String × Json)) (key : String)

def readText (missing : String) : Except String String :=
  match getField fields key with
  | none => .ok missing
  | some (.string s) => .ok s
  | some _ => .error s!"invalid type in {key}: expected a string"

def readOptText : Except String (Option String) :=
  match getField fields key with
  | none | some .null => .ok none
  | some (.string s) => .ok (some s)
  | some _ => .error s!"invalid type in {key}: expected a string"

def readTexts : Except String (List String) :=
  match getField fields key with
  | none => .ok []
  | some (.array items) =>
    items.mapM fun item =>
      match item with
      | .string s => .ok s
      | _ => .error s!"invalid type in {key}: expected a string"
  | some _ => .error s!"invalid type in {key}: expected a sequence"

def readSeq : Except String Int :=
  match getField fields key with
  | none => .ok 0
  | some v =>
    match v.asI64 with
    | some n => .ok n
    | none => .error s!"invalid type in {key}: expected i64"

def readSession (codec : SessionCodec) : Except String (Option ManagedSession) :=
  match getField fields "session" with
  | none | some .null => .ok none
  | some session => (codec.fromWire session).map some

end Decode

/-- `serde_json::from_value::<Fact>`: a missing member has its default. -/
def factFromWire (codec : SessionCodec) (v : Json) : Except String Fact :=
  match v with
  | .object fields => do
    let schema ← readText fields "schema" factSchema
    let eventId ← readText fields "event_id" ""
    let seq ← readSeq fields "seq"
    let threadId ← readText fields "thread_id" ""
    let kind ← readText fields "kind" "unknown"
    let tool ← readOptText fields "tool"
    let role ← readOptText fields "role"
    let subject ← readText fields "subject" ""
    let scope ← readTexts fields "scope"
    let createdAt ← readText fields "created_at" ""
    let summary ← readOptText fields "summary"
    let evidence ← readTexts fields "evidence"
    let target ← readOptText fields "target"
    let refId ← readOptText fields "ref"
    let status ← readOptText fields "status"
    let severity ← readOptText fields "severity"
    let uri ← readOptText fields "uri"
    let session ← readSession fields codec
    let fromSessionId ← readOptText fields "from_session_id"
    .ok { schema, eventId, seq, threadId, kind := kindFromWire kind, tool, role, subject, scope, createdAt,
          summary, evidence, target, refId, status, severity, uri, session, fromSessionId }
  | _ => .error "invalid type: expected struct Fact"

section RoundTrip

variable {fields : List (String × Json)} {key key' : String} {v : Json} {o : Option Json}

@[simp] theorem getField_cons :
    getField ((key', v) :: fields) key = if key' = key then some v else getField fields key := by
  by_cases h : key' = key <;> simp [getField, h]

@[simp] theorem getField_nil : getField [] key = none := rfl

@[simp] theorem getField_skipNone :
    getField (skipNone key' o ++ fields) key =
      if key' = key then o.or (getField fields key) else getField fields key := by
  cases o <;> simp [skipNone]

theorem readText_of {s missing : String} (h : getField fields key = some (.string s)) :
    readText fields key missing = .ok s := by
  rw [readText, h]

theorem readOptText_of {t : Option String} (h : getField fields key = some (optText t)) :
    readOptText fields key = .ok t := by
  rw [readOptText, h]
  cases t <;> rfl

theorem readOptText_of_map {t : Option String} (h : getField fields key = t.map .string) :
    readOptText fields key = .ok t := by
  rw [readOptText, h]
  cases t <;> rfl

theorem readTexts_of {items : List String} (h : getField fields key = some (texts items)) :
    readTexts fields key = .ok items := by
  rw [readTexts, h, texts]
  dsimp only
  clear h
  induction items with
  | nil => rfl
  | cons item rest ih =>
    rw [List.map_cons, List.mapM_cons, ih]
    rfl

theorem readSeq_of {n : Int} (hrange : -i64Bound ≤ n ∧ n < i64Bound)
    (h : getField fields key = some (.int n)) :
    readSeq fields key = .ok n := by
  rw [readSeq, h]
  simp [Json.asI64, hrange]

theorem readSession_of {codec : SessionCodec} {session : Option ManagedSession}
    (h : getField fields "session" = session.map codec.toWire) : readSession fields codec = .ok session := by
  rw [readSession, h]
  cases session with
  | none => rfl
  | some session =>
    rw [Option.map_some]
    split
    · rename_i heq
      cases heq
    · rename_i heq
      exact absurd (Option.some.inj heq) (codec.toWire_ne_null session)
    · rename_i heq
      rw [← Option.some.inj heq, codec.fromWire_toWire]
      rfl

end RoundTrip

/-- **What a fact is encoded to decodes to the fact.** -/
theorem factFromWire_factToWire (codec : SessionCodec) {fact : Fact}
    (hseq : -i64Bound ≤ fact.seq ∧ fact.seq < i64Bound) :
    factFromWire codec (factToWire codec fact) = .ok fact := by
  obtain ⟨fields, hfields⟩ : ∃ fields, fields = factFields codec fact := ⟨_, rfl⟩
  have hSchema : readText fields "schema" factSchema = .ok fact.schema :=
    readText_of (by simp [hfields, factFields])
  have hEventId : readText fields "event_id" "" = .ok fact.eventId :=
    readText_of (by simp [hfields, factFields])
  have hSeq : readSeq fields "seq" = .ok fact.seq := readSeq_of hseq (by simp [hfields, factFields])
  have hThreadId : readText fields "thread_id" "" = .ok fact.threadId :=
    readText_of (by simp [hfields, factFields])
  have hKind : readText fields "kind" "unknown" = .ok (kindToWire fact.kind) :=
    readText_of (by simp [hfields, factFields])
  have hTool : readOptText fields "tool" = .ok fact.tool :=
    readOptText_of (by simp [hfields, factFields])
  have hRole : readOptText fields "role" = .ok fact.role :=
    readOptText_of (by simp [hfields, factFields])
  have hSubject : readText fields "subject" "" = .ok fact.subject :=
    readText_of (by simp [hfields, factFields])
  have hScope : readTexts fields "scope" = .ok fact.scope := readTexts_of (by simp [hfields, factFields])
  have hCreatedAt : readText fields "created_at" "" = .ok fact.createdAt :=
    readText_of (by simp [hfields, factFields])
  have hSummary : readOptText fields "summary" = .ok fact.summary :=
    readOptText_of (by simp [hfields, factFields])
  have hEvidence : readTexts fields "evidence" = .ok fact.evidence :=
    readTexts_of (by simp [hfields, factFields])
  have hTarget : readOptText fields "target" = .ok fact.target :=
    readOptText_of (by simp [hfields, factFields])
  have hRef : readOptText fields "ref" = .ok fact.refId := readOptText_of (by simp [hfields, factFields])
  have hStatus : readOptText fields "status" = .ok fact.status :=
    readOptText_of (by simp [hfields, factFields])
  have hSeverity : readOptText fields "severity" = .ok fact.severity :=
    readOptText_of (by simp [hfields, factFields])
  have hUri : readOptText fields "uri" = .ok fact.uri := readOptText_of (by simp [hfields, factFields])
  have hSession : readSession fields codec = .ok fact.session :=
    readSession_of (by simp [hfields, factFields])
  have hFrom : readOptText fields "from_session_id" = .ok fact.fromSessionId :=
    readOptText_of_map (by simp [hfields, factFields])
  rw [factToWire, ← hfields, factFromWire]
  simp only [hSchema, hEventId, hSeq, hThreadId, hKind, hTool, hRole, hSubject, hScope, hCreatedAt, hSummary,
    hEvidence, hTarget, hRef, hStatus, hSeverity, hUri, hSession, hFrom, bind, Except.bind,
    kindFromWire_kindToWire]

/-! ## Errors -/

/-- `RallyError`, with `Display` texts; `io` and `json` have lost their source. -/
inductive CliError
  | usage (message : String)
  | notFound (message : String)
  | command (message : String)
  | message (text : String)
  /-- Refused before its first durable side effect. -/
  | notStarted (message : String)
  /-- A durable mutation began and may have committed. -/
  | outcomeUnknown (event_id phase detail : String)
  | incompatibleWire (detail : String)
  | io (context source : String)
  | json (context source : String)
  deriving DecidableEq, Repr

namespace CliError

/-- `to_string`; `recovery` is the text on how to upgrade. -/
def display (recovery : String) : CliError → String
  | usage text | notFound text | command text | message text | notStarted text => text
  | outcomeUnknown event_id phase detail =>
    s!"mutation-outcome-unknown: event_id={event_id} phase={phase}: {detail}; query by the exact event id " ++
      "before deciding whether to rerun"
  | incompatibleWire detail => s!"incompatible-wire: {detail}\n{recovery}"
  | io context source | json context source => s!"{context}: {source}"

def isOutcomeUnknown : CliError → Bool
  | outcomeUnknown .. => true
  | _ => false

end CliError

/-- The refusals of the append gates, as the commands see them. -/
def CliError.ofRefusal : RallyError → CliError
  | .usage text => .usage text
  | .message text => .message text

inductive StoreErrorKind
  | usage | notFound | command | message | internal | notStarted | outcomeUnknown | incompatibleWire | transport
  deriving DecidableEq, Repr

namespace StoreErrorKind

def exitCode : StoreErrorKind → Nat
  | usage => 2
  | notFound => 3
  | notStarted => 4
  | command | message | internal | outcomeUnknown | incompatibleWire | transport => 1

/-- The snake-case tag. -/
def asStr : StoreErrorKind → String
  | usage => "usage"
  | notFound => "not_found"
  | command => "command"
  | message => "message"
  | internal => "internal"
  | notStarted => "not_started"
  | outcomeUnknown => "outcome_unknown"
  | incompatibleWire => "incompatible_wire"
  | transport => "transport"

end StoreErrorKind

structure StoreError where
  code : Nat
  kind : StoreErrorKind
  message : String
  event_id : Option String
  phase : Option String
  deriving DecidableEq, Repr

namespace StoreError

def new (kind : StoreErrorKind) (message : String) : StoreError := ⟨kind.exitCode, kind, message, none, none⟩

def outcomeUnknown (event_id phase message : String) : StoreError :=
  { new .outcomeUnknown message with event_id := some event_id, phase := some phase }

def transport (message : String) : StoreError := new .transport message

def toJson (e : StoreError) : Json := .object
  ([("code", .int e.code), ("kind", .string e.kind.asStr), ("message", .string e.message)] ++
    skipNone "event_id" (e.event_id.map .string) ++ skipNone "phase" (e.phase.map .string))

end StoreError

/-! ## Requests -/

/-- The operations; the read-only ones that this development does not look into are told apart by name. -/
inductive StoreOp
  | appendFact (fact : Json)
  | appendFactVerified (fact : Json)
  | appendStateTransitionVerified (fact : Json)
  | appendSessionFactIfContext (fact : Json) (expected_context_version : Option Nat)
  | rebuildClaimIndex
  | renewClaimLease (claim_id lease_expires_at event_id thread_id created_at : String)
      (caller_tool caller_session_id expected_owner_session_id : Option String)
  | maybeAppendReadCheckpoint (fact : Json) (read_seq : Int)
  | factsPage (after_seq : Int) (max_bytes : Nat)
  | ping
  | readOnly (kind : String) (fields : List (String × Json))

namespace StoreOp

def isMutating : StoreOp → Bool
  | appendFact _ | appendFactVerified _ | appendStateTransitionVerified _ | appendSessionFactIfContext ..
  | rebuildClaimIndex | renewClaimLease .. | maybeAppendReadCheckpoint .. => true
  | factsPage .. | ping | readOnly .. => false

/-- The wire tag, `op_kind_name`. -/
def kindName : StoreOp → String
  | appendFact _ => "append_fact"
  | appendFactVerified _ => "append_fact_verified"
  | appendStateTransitionVerified _ => "append_state_transition_verified"
  | appendSessionFactIfContext .. => "append_session_fact_if_context"
  | rebuildClaimIndex => "rebuild_claim_index"
  | renewClaimLease .. => "renew_claim_lease"
  | maybeAppendReadCheckpoint .. => "maybe_append_read_checkpoint"
  | factsPage .. => "facts_page"
  | ping => "ping"
  | readOnly kind _ => kind

def toJson (op : StoreOp) : Json := .object (("kind", .string op.kindName) ::
  match op with
  | appendFact fact | appendFactVerified fact | appendStateTransitionVerified fact => [("fact", fact)]
  | appendSessionFactIfContext fact expected =>
    [("fact", fact), ("expected_context_version", expected.elim .null fun n => .int n)]
  | rebuildClaimIndex | ping => []
  | renewClaimLease claim_id lease_expires_at event_id thread_id created_at tool session expected =>
    [("claim_id", .string claim_id), ("lease_expires_at", .string lease_expires_at), ("event_id", .string event_id),
      ("thread_id", .string thread_id), ("created_at", .string created_at), ("caller_tool", optText tool),
      ("caller_session_id", optText session), ("expected_owner_session_id", optText expected)]
  | maybeAppendReadCheckpoint fact read_seq => [("fact", fact), ("read_seq", .int read_seq)]
  | factsPage after_seq max_bytes => [("after_seq", .int after_seq), ("max_bytes", .int max_bytes)]
  | readOnly _ fields => fields)

end StoreOp

structure StoreRequest where
  wire_version : Nat
  engagement : Option String
  deadline_unix_ms : Option Nat
  mutation_budget_ms : Option Nat
  op : StoreOp

namespace StoreRequest

def new (engagement : Option String) (op : StoreOp) : StoreRequest := ⟨wireVersion, engagement, none, none, op⟩

def toJson (req : StoreRequest) : Json := .object
  ([("wire_version", .int req.wire_version), ("engagement", optText req.engagement)] ++
    skipNone "deadline_unix_ms" (req.deadline_unix_ms.map fun ms => .int ms) ++
    skipNone "mutation_budget_ms" (req.mutation_budget_ms.map fun ms => .int ms) ++ [("op", req.op.toJson)])

/-- The request line with its line break. -/
def lineBytes (req : StoreRequest) : Nat := req.toJson.bytes + 1

end StoreRequest

/-! ## Replies -/

/-- A degradation behind a committed append. -/
structure ProjectionWarning where
  code : String
  message : String
  deriving DecidableEq, Repr

/-- A successful append. It is built only behind the exact readback of the canonical row, so it always reports a
commit. -/
structure AppendOutcome where
  fact : Fact
  warnings : List ProjectionWarning

namespace AppendOutcome

def projectionComplete (outcome : AppendOutcome) : Bool := outcome.warnings.isEmpty

def toJson (codec : SessionCodec) (outcome : AppendOutcome) : Json := .object
  [("committed", .bool true), ("fact", factToWire codec outcome.fact),
    ("projection_complete", .bool outcome.projectionComplete),
    ("warnings", .array (outcome.warnings.map fun warning =>
      .object [("code", .string warning.code), ("message", .string warning.message)]))]

end AppendOutcome

/-- A conditional append: `none` when nothing was applied. -/
def conditionalToJson (codec : SessionCodec) : Option AppendOutcome → Json
  | none => .object [("status", .string "not_applied")]
  | some outcome => .object [("outcome", outcome.toJson codec), ("status", .string "applied")]

inductive StoreOk
  | appendFact (outcome : AppendOutcome)
  | appendFactVerified (outcome : AppendOutcome)
  | appendStateTransitionVerified (outcome : AppendOutcome)
  | appendSessionFactIfContext (result : Option AppendOutcome)
  | rebuildClaimIndex
  | renewClaimLease (record : Option Json) (append_outcome : Option AppendOutcome)
  | maybeAppendReadCheckpoint (result : Option AppendOutcome)
  | factsPage (facts : List Json) (next_after_seq : Option Int)
  | pong (repo_root : String) (pid wire_version : Nat)
  | readOnly (kind : String) (fields : List (String × Json))

namespace StoreOk

def optOutcome (codec : SessionCodec) (outcome : Option AppendOutcome) : Json :=
  outcome.elim .null (AppendOutcome.toJson codec)

def toJson (codec : SessionCodec) : StoreOk → Json
  | appendFact outcome => .object [("kind", .string "append_fact"), ("outcome", outcome.toJson codec)]
  | appendFactVerified outcome =>
    .object [("kind", .string "append_fact_verified"), ("outcome", outcome.toJson codec)]
  | appendStateTransitionVerified outcome =>
    .object [("kind", .string "append_state_transition_verified"), ("outcome", outcome.toJson codec)]
  | appendSessionFactIfContext result =>
    .object [("kind", .string "append_session_fact_if_context"), ("result", conditionalToJson codec result)]
  | rebuildClaimIndex => .object [("kind", .string "rebuild_claim_index")]
  | renewClaimLease record outcome =>
    .object [("kind", .string "renew_claim_lease"),
      ("outcome", .object [("append_outcome", optOutcome codec outcome), ("record", record.getD .null)])]
  | maybeAppendReadCheckpoint result =>
    .object [("kind", .string "maybe_append_read_checkpoint"), ("result", conditionalToJson codec result)]
  | factsPage facts next =>
    .object [("kind", .string "facts_page"), ("facts", .array facts), ("next_after_seq", next.elim .null .int)]
  | pong repo_root pid version =>
    .object [("kind", .string "pong"), ("repo_root", .string repo_root), ("pid", .int pid),
      ("wire_version", .int version)]
  | readOnly kind fields => .object (("kind", .string kind) :: fields)

/-- Whether the reply reports a committed append. -/
def reportsCommit : StoreOk → Bool
  | appendFact _ | appendFactVerified _ | appendStateTransitionVerified _ => true
  | appendSessionFactIfContext result | maybeAppendReadCheckpoint result => result.isSome
  | renewClaimLease _ outcome => outcome.isSome
  | rebuildClaimIndex | factsPage .. | pong .. | readOnly .. => false

end StoreOk

abbrev StoreResponse := Except StoreError StoreOk

/-- The reply as JSON, externally tagged. -/
def responseToJson (codec : SessionCodec) : StoreResponse → Json
  | .ok ok => .object [("ok", ok.toJson codec)]
  | .error e => .object [("err", e.toJson)]

/-- The reply line with its line break. -/
def responseLineBytes (codec : SessionCodec) (resp : StoreResponse) : Nat := (responseToJson codec resp).bytes + 1

end RallyPoint.Wire
