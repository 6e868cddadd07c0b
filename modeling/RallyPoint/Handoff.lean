/-
# RallyPoint.Handoff — the append gate of referenced handoffs (`store.rs`, `session_identity.rs`, `delivery.rs`).

A handoff that cites another fact must carry the whole bridge contract in its evidence and agree with what
it cites: the same thread, the exact receiver session, and (for a reply) the exact bound receiver. A second
handoff under the same idempotency key is the first one again, or it is refused.
-/
import RallyPoint.WriteAuthority

namespace RallyPoint

open Lib

/-! ## Session identity -/

def isAsciiAlphanumeric (c : Char) : Bool :=
  ('0' ≤ c && c ≤ '9') || ('a' ≤ c && c ≤ 'z') || ('A' ≤ c && c ≤ 'Z')

/-- One character of `sanitize_segment`: separators collapse to one dash, never a leading one. -/
def sanitizeStep (state : List Char × Bool) (c : Char) : List Char × Bool :=
  if isAsciiAlphanumeric c || c == '.' || c == '-' || c == '_' then
    (state.1 ++ [asciiLowerChar c], false)
  else if !state.2 && !state.1.isEmpty then (state.1 ++ ['-'], true)
  else state

def sanitizeSegment (raw : String) : String :=
  let out := ((trim raw).toList.foldl sanitizeStep ([], false)).1
  String.ofList ((out.reverse.dropWhile (· == '-')).reverse)

/-- The endpoint of inputs that carry a managed session id and nothing else. -/
def managedEndpoint (managedSessionId : String) : String :=
  if (sanitizeSegment managedSessionId).toList.isEmpty then "unknown"
  else "managed:" ++ sanitizeSegment managedSessionId

/-- The protocol session id minted for a managed session under the lease token `live`. -/
def managedProtocolSession (session : ManagedSession) : String :=
  "sess:" ++ managedEndpoint session.sessionId ++ "#" ++ sanitizeSegment "live"

/-! ## Envelope identities -/

inductive RequiredId
  | fromSessionId | refEventId | causationId | handoffId
  deriving DecidableEq, Repr

inductive HandoffEventKind
  | handoffRequested | handoffAcked | handoffAccepted | handoffRejected
  deriving DecidableEq, Repr

namespace HandoffEventKind

def parse (marker : String) : Option HandoffEventKind :=
  if marker = "handoff.requested" then some handoffRequested
  else if marker = "handoff.acked" then some handoffAcked
  else if marker = "handoff.accepted" then some handoffAccepted
  else if marker = "handoff.rejected" then some handoffRejected
  else none

/-- Rust's `Debug` name. -/
def debug : HandoffEventKind → String
  | handoffRequested => "HandoffRequested"
  | handoffAcked => "HandoffAcked"
  | handoffAccepted => "HandoffAccepted"
  | handoffRejected => "HandoffRejected"

def intrinsicRequired : HandoffEventKind → List RequiredId
  | handoffRequested => [.handoffId]
  | _ => [.handoffId, .refEventId, .causationId]

end HandoffEventKind

def RequiredId.debug : RequiredId → String
  | .fromSessionId => "FromSessionId"
  | .refEventId => "RefEventId"
  | .causationId => "CausationId"
  | .handoffId => "HandoffId"

/-- Whether the envelope read off a handoff carries an identity; presence is `Some`, even empty. -/
def hasRequiredId (fact : Fact) : RequiredId → Bool
  | .fromSessionId => fact.fromSessionId.isSome
  | .refEventId => (protocolMarker fact "ref_event_id").isSome
  | .causationId => (protocolMarker fact "causation_id").isSome
  | .handoffId => (protocolMarker fact "handoff_id").isSome

/-- The identities missing under strict validation. -/
def missingIds (kind : HandoffEventKind) (fact : Fact) : List RequiredId :=
  (kind.intrinsicRequired.filter fun required => !hasRequiredId fact required) ++
    (if hasRequiredId fact .fromSessionId then [] else [.fromSessionId])

def debugMissing (kind : HandoffEventKind) (missing : List RequiredId) : String :=
  "[" ++ join ", " (missing.map fun id =>
    "EnvelopeError \x7b kind: " ++ kind.debug ++ ", missing: " ++ id.debug ++ " \x7d") ++ "]"

/-! ## The gate -/

/-- Managed sessions still running after replaying the session facts in sequence order. -/
def activeManagedSessions (facts : List Fact) : List ManagedSession :=
  ((facts.insertionSort fun a b => a.seq ≤ b.seq).filter (·.kind == .session)).foldl
    (fun active candidate =>
      match candidate.session with
      | none => active
      | some session =>
        let others := active.filter fun held => held.sessionId != session.sessionId
        if candidate.status == some "stopped" then others else others ++ [session])
    []

/-- Who may reply to a handoff. -/
inductive UnboundDirectiveReceiver
  | bound (tool session : String)
  | «open» (tool : Option String)
  deriving DecidableEq, Repr

/-- `Iterator::min_by_key`, which keeps the FIRST of several minima. -/
def minBySeq (facts : List Fact) : Option Fact :=
  facts.foldl (fun best fact => match best with
    | none => some fact
    | some held => if fact.seq < held.seq then some fact else some held) none

def unboundDirectiveReceiver (referenced : Fact) (facts : List Fact) : UnboundDirectiveReceiver :=
  match referenced.target, protocolMarker referenced "to_session_id" with
  | some tool, some session => .bound tool session
  | _, _ =>
    -- an unbound directive belongs to whoever replied to it first
    let firstReply := minBySeq (facts.filter fun candidate =>
      candidate.kind == .handoff && candidate.refId == some referenced.eventId &&
        (protocolMarker candidate "event_kind").isSome)
    match firstReply.bind (·.tool), firstReply.bind (·.fromSessionId) with
    | some tool, some session => .bound tool session
    | _, _ => .open referenced.target

def expectedReplier (fact referenced : Fact) (facts : List Fact) : String × String :=
  match unboundDirectiveReceiver referenced facts with
  | .bound tool session => (tool, session)
  | .open tool => ((tool.or fact.tool).getD "", fact.fromSessionId.getD "")

/-- The receiver a third-party handoff names is one exact running managed session. -/
def assertThirdPartyTarget (fact referenced : Fact) (facts : List Fact) (refId toSession : String) :
    Result Unit :=
  let target := fact.target.getD ""
  if referenced.kind == .handoff then
    .error (.usage (s!"handoff_third_party_reply_forbidden: ref {refId} is a handoff bound to one " ++
      "receiver; that exact receiver must reply"))
  else if ((activeManagedSessions facts).filter fun session =>
      managedProtocolSession session == toSession && session.tool == target).length ≠ 1 then
    .error (.usage (s!"handoff_target_session_not_active: {target}/{toSession} is not one exact active " ++
      "managed session; run `rally sessions --json`"))
  else .ok ()

/-- The receiver a ref-author handoff names is the author of what it cites, or its bound receiver. -/
def assertRefAuthorTarget (fact referenced : Fact) (facts : List Fact) (refId toSession : String) :
    Result Unit :=
  if referenced.kind == .handoff then
    if referenced.fromSessionId.isSome && fact.fromSessionId == referenced.fromSessionId &&
        (protocolMarker referenced "to_session_id").isNone then
      .error (.usage (s!"handoff_reply_author_mismatch: ref {refId} is your own directive; its receiver " ++
        "must reply"))
    else if fact.tool != some (expectedReplier fact referenced facts).1 ||
        fact.fromSessionId != some (expectedReplier fact referenced facts).2 ||
        fact.target != referenced.tool || some toSession != referenced.fromSessionId then
      .error (.usage (s!"handoff_reply_author_mismatch: ref {refId} reply does not match its exact bound " ++
        "receiver/author sessions"))
    else .ok ()
  else if fact.target != referenced.tool || some toSession != referenced.fromSessionId then
    .error (.usage s!"handoff_target_mismatch: ref {refId} must bind its author tool and session")
  else .ok ()

/-- The checks of a referenced handoff against the fact it cites. -/
def assertHandoffBinding (fact referenced : Fact) (facts : List Fact) (refId : String)
    (eventKind : HandoffEventKind) : Result Unit :=
  let policy := (protocolMarker fact "target_policy").getD ""
  let correlation := protocolMarker fact "correlation_id"
  let correlationText := correlation.getD ""
  if referenced.kind == .handoff && eventKind == .handoffRequested then
    .error (.usage ("handoff_reply_state_invalid: a reply must be handoff.acked, handoff.accepted, or " ++
      "handoff.rejected"))
  else if referenced.kind != .handoff && eventKind != .handoffRequested then
    .error (.usage ("handoff_request_state_invalid: a handoff against an artifact/request must be " ++
      "handoff.requested"))
  else if !(missingIds eventKind fact).isEmpty then
    .error (.usage
      s!"handoff_protocol_envelope_invalid: {debugMissing eventKind (missingIds eventKind fact)}")
  else
    match protocolMarker fact "to_session_id" with
    | none => .error (.usage
        "handoff_binding_missing_session: strict handoff has no to_session_id")
    | some toSession =>
      if protocolMarker fact "ref_event_id" != some refId ||
          protocolMarker fact "causation_id" != some refId then
        .error (.usage
          "handoff_binding_causality_mismatch: ref_event_id and causation_id must equal ref")
      else if correlation.isNone || (protocolMarker fact "handoff_id").isNone then
        .error (.usage "handoff_binding_causality_missing: correlation_id and handoff_id are required")
      else if correlation != some fact.threadId then
        .error (.usage
          "handoff_correlation_mismatch: Fact.thread_id must equal protocol:correlation_id")
      else if correlation != some referenced.threadId then
        .error (.usage (s!"handoff_correlation_foreign: protocol:correlation_id {correlationText} " ++
          s!"does not match thread {referenced.threadId} of ref {refId}; a referenced handoff joins the " ++
          "thread of the fact it cites"))
      else if policy == "third-party" then assertThirdPartyTarget fact referenced facts refId toSession
      else if policy != "ref-author" then .error (.usage s!"handoff_target_policy_invalid: {policy}")
      else assertRefAuthorTarget fact referenced facts refId toSession

def validateReferencedHandoff (fact : Fact) (facts : List Fact) : Result Unit :=
  if fact.kind != .handoff then .ok ()
  else
    match fact.refId with
    | none =>
      if fact.evidence.any (startsWith "protocol:") then
        .error (.usage ("handoff_protocol_marker_requires_ref: protocol:* evidence is Rally-owned and " ++
          "requires a referenced handoff"))
      else .ok ()
    | some refId => do
      validateHandoffProtocolNamespace fact
      if protocolMarker fact "bridge_version" != some "fact-v1" then
        .error (.usage
          "handoff_protocol_bridge_version_invalid: expected protocol:bridge_version=fact-v1")
      else
        match facts.find? fun candidate => candidate.eventId == refId with
        | none => .error (.usage
            s!"handoff_target_ref_not_found: ref {refId} does not name a canonical fact")
        | some referenced =>
          let marker := (protocolMarker fact "event_kind").getD ""
          match HandoffEventKind.parse marker with
          | none => .error (.usage s!"handoff_protocol_event_kind_invalid: {marker}")
          | some eventKind => assertHandoffBinding fact referenced facts refId eventKind

/-- Every field but identity, sequence and time. -/
def sameHandoffSemantics (existing proposed : Fact) : Bool :=
  { existing with eventId := proposed.eventId, seq := proposed.seq, createdAt := proposed.createdAt } ==
    proposed

/-- The handoff already recorded under the same idempotency key. -/
def handoffUnderSameKey (fact : Fact) (facts : List Fact) : Option (String × Fact) :=
  (protocolMarker fact "idempotency_key").bind fun key =>
    (facts.find? fun candidate =>
      isFactV1HandoffBridge candidate && protocolMarker candidate "idempotency_key" == some key).map
        fun existing => (key, existing)

/-- The handoff arm: `some` is the recorded handoff that a repeated key returns instead of a new row. -/
def resolveHandoff (fact : Fact) (facts : List Fact) : Result (Option Fact) :=
  if fact.kind != .handoff then .ok none
  else do
    validateReferencedHandoff fact facts
    match handoffUnderSameKey fact facts with
    | none => .ok none
    | some (key, existing) =>
      if sameHandoffSemantics existing fact then .ok (some existing)
      else .error (.usage (s!"handoff_idempotency_conflict: key {key} already belongs to event " ++
        s!"{existing.eventId}; reuse the original semantics or choose a new key"))

end RallyPoint
