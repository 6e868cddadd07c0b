/-
# RallyPoint.Delivery — the delivery contracts of `rally-protocol/src/delivery.rs`.

An envelope carries a directive together with the identities a planner may rely on; an endpoint descriptor
is one registry row; an attempt is one try to hand the envelope to one endpoint. The two stable keys are
length-prefixed strings: the dedupe key names the logical delivery, the attempt id the try. Only what the
planner reads is here; provider-owned extension values are opaque and keep their keys alone.
-/
import Mathlib.Data.Rat.Defs
import RallyPoint.Lib.Str

namespace RallyPoint

open Lib

def deliverySchemaV1 : String := "rally.delivery.v1"

def endpointSchemaV1 : String := "rally.endpoint.v1"

def deliveryAttemptSchemaV1 : String := "rally.delivery-attempt.v1"

/-- Reserved capability backed by `supportsPositiveAck`. -/
def capabilityPositiveAck : String := "positive_ack"

/-- Reserved capability backed by `supportsIdempotentDelivery`. -/
def capabilityIdempotentDelivery : String := "idempotent_delivery"

/-! ## Timestamps -/

/-- An `f64` timestamp. -/
inductive F64
  | finite (value : Rat)
  | infinite (negative : Bool)
  | nan
  deriving DecidableEq, Repr, Inhabited

namespace F64

def isFinite : F64 → Bool
  | .finite _ => true
  | _ => false

/-- `<=` on `f64`; a NaN is in no order with anything. -/
def le : F64 → F64 → Bool
  | .nan, _ => false
  | _, .nan => false
  | .finite x, .finite y => x ≤ y
  | .infinite negative, .finite _ => negative
  | .finite _, .infinite negative => !negative
  | .infinite negative, .infinite negative' => negative || !negative'

end F64

/-! ## Stable keys -/

/-- The length-prefixed form of one component, its length in bytes. -/
def lenPrefixed (component : String) : String := toString (byteLen component) ++ ":" ++ component

/-- The stable logical-delivery deduplication key; retries to the same repository and target keep it. -/
def stableDeliveryDedupeKey (eventId repositoryId targetAgentId : String) : String :=
  "d1|" ++ lenPrefixed eventId ++ "|" ++ lenPrefixed repositoryId ++ "|" ++ lenPrefixed targetAgentId

/-- The attempt id, bound to the endpoint selected for that attempt. -/
def stableAttemptId (deliveryDedupeKey : String) (attemptNumber : Nat) (endpointId : String) : String :=
  "a1|" ++ lenPrefixed deliveryDedupeKey ++ "|" ++ toString attemptNumber ++ "|" ++ lenPrefixed endpointId

/-- A length-prefixed component can be read back from the text it begins. -/
theorem lenPrefixed_append_inj {a b x y : String} (h : lenPrefixed a ++ x = lenPrefixed b ++ y) :
    a = b ∧ x = y := by
  simp only [lenPrefixed, String.append_assoc] at h
  have hlist := congrArg String.toList h
  simp only [String.toList_append, Nat.toString_eq_ofList_toDigits, String.toList_ofList] at hlist
  obtain ⟨hlen, hrest⟩ := @toDigits_append_sep_inj _ _ ':' _ _ rfl hlist
  refine append_inj_of_byteLen (String.toList_inj.mp ?_) hlen
  rw [String.toList_append, String.toList_append]
  exact hrest

/-- **One key, one logical delivery:** the key determines all three components. -/
theorem stableDeliveryDedupeKey_inj {ev repo tgt ev' repo' tgt' : String}
    (h : stableDeliveryDedupeKey ev repo tgt = stableDeliveryDedupeKey ev' repo' tgt') :
    ev = ev' ∧ repo = repo' ∧ tgt = tgt' := by
  simp only [stableDeliveryDedupeKey, String.append_assoc, String.append_right_inj] at h
  obtain ⟨hev, h⟩ := lenPrefixed_append_inj h
  rw [String.append_right_inj] at h
  obtain ⟨hrepo, h⟩ := lenPrefixed_append_inj h
  rw [String.append_right_inj] at h
  have h' : lenPrefixed tgt ++ "" = lenPrefixed tgt' ++ "" := by rw [h]
  exact ⟨hev, hrepo, (lenPrefixed_append_inj h').1⟩

/-- **One id, one try:** the attempt id determines the logical delivery, the number and the endpoint. -/
theorem stableAttemptId_inj {key key' ep ep' : String} {n m : Nat}
    (h : stableAttemptId key n ep = stableAttemptId key' m ep') : key = key' ∧ n = m ∧ ep = ep' := by
  simp only [stableAttemptId, String.append_assoc, String.append_right_inj] at h
  obtain ⟨hkey, h⟩ := lenPrefixed_append_inj h
  rw [String.append_right_inj] at h
  -- the number carries no length; it ends at the bar, which is no digit
  have hlist := congrArg String.toList h
  simp only [String.toList_append, Nat.toString_eq_ofList_toDigits, String.toList_ofList] at hlist
  obtain ⟨hnumber, hrest⟩ := toDigits_append_sep_inj rfl hlist
  have h' : lenPrefixed ep ++ "" = lenPrefixed ep' ++ "" := by
    rw [← String.toList_inj, String.toList_append, String.toList_append]
    exact congrArg (· ++ _) hrest
  exact ⟨hkey, hnumber, (lenPrefixed_append_inj h').1⟩

/-- Attempts of one delivery with different numbers have different ids. -/
theorem stableAttemptId_number_inj {key ep ep' : String} {n m : Nat}
    (h : stableAttemptId key n ep = stableAttemptId key m ep') : n = m :=
  (stableAttemptId_inj h).2.1

/-- **Two keys are equal only for equal inputs**, whatever the components are made of: separators, digits and
several-byte characters included. -/
theorem deliveryKeys_eq_iff (ev repo tgt ev' repo' tgt' key ep key' ep' : String) (n m : Nat) :
    (stableDeliveryDedupeKey ev repo tgt = stableDeliveryDedupeKey ev' repo' tgt' ↔
        (ev, repo, tgt) = (ev', repo', tgt')) ∧
      (stableAttemptId key n ep = stableAttemptId key' m ep' ↔ (key, n, ep) = (key', m, ep')) := by
  constructor
  · constructor
    · intro h
      obtain ⟨rfl, rfl, rfl⟩ := stableDeliveryDedupeKey_inj h
      rfl
    · rintro ⟨⟩
      rfl
  · constructor
    · intro h
      obtain ⟨rfl, rfl, rfl⟩ := stableAttemptId_inj h
      rfl
    · rintro ⟨⟩
      rfl

/-! ## Envelopes -/

inductive Role
  | observer | agent | leadAgent | maintainer | owner | system
  deriving DecidableEq, Repr

/-- Authorization context asserted on a privileged event. -/
structure AuthContext where
  role : Role
  policyVersion : Option String := none
  capabilities : List String := []
  deriving DecidableEq, Repr

/-- Causal, identity and authorization context attached to a durable event. -/
structure EventEnvelope where
  idempotencyKey : Option String := none
  causationId : Option String := none
  correlationId : Option String := none
  refEventId : Option String := none
  workId : Option String := none
  runId : Option String := none
  attemptId : Option String := none
  claimId : Option String := none
  handoffId : Option String := none
  fromSessionId : Option String := none
  principalId : Option String := none
  actorId : Option String := none
  authContext : Option AuthContext := none
  deriving DecidableEq, Repr

/-- The legacy directive fields the contract reads. `toAgent` and `fromAgent` are the source's `to` and
`from`. -/
structure Directive where
  toAgent : String
  fromAgent : String
  text : Option String := none
  deriving DecidableEq, Repr

/-- A versioned delivery directive. `extensions` keeps the keys of the provider-owned map. -/
structure DeliveryEnvelopeV1 where
  directive : Directive
  deliverySchema : String := deliverySchemaV1
  eventId : Option String := none
  repositoryId : Option String := none
  contentDigest : Option String := none
  requiredFields : StrSet := ∅
  requiredCapabilities : StrSet := ∅
  extensions : StrSet := ∅
  context : EventEnvelope := {}
  deriving DecidableEq, Repr

/-- Semantic error in a current-version delivery envelope. -/
inductive DeliveryContractError
  | unsupportedSchema (found : String)
  | missingRequiredField (field : String)
  | unsupportedRequiredField (field : String)
  | dedupeKeyMismatch (expected found : String)
  deriving DecidableEq, Repr

def present (value : Option String) : Bool := value.any fun v => !isBlank v

namespace DeliveryEnvelopeV1

/-- A current-version envelope with its stable dedupe key. -/
def new (directive : Directive) (eventId repositoryId contentDigest : String) : DeliveryEnvelopeV1 where
  directive := directive
  eventId := some eventId
  repositoryId := some repositoryId
  contentDigest := some contentDigest
  context := { idempotencyKey := some (stableDeliveryDedupeKey eventId repositoryId directive.toAgent) }

def deliveryDedupeKey (e : DeliveryEnvelopeV1) : Option String := e.context.idempotencyKey

/-- Whether a field named in `requiredFields` is present; `none` for a name outside the vocabulary. -/
def requiredFieldPresent (e : DeliveryEnvelopeV1) (field : String) : Option Bool :=
  match field with
  | "from" => some (!isBlank e.directive.fromAgent)
  | "to" => some (!isBlank e.directive.toAgent)
  | "event_id" => some (present e.eventId)
  | "repository_id" => some (present e.repositoryId)
  | "idempotency_key" => some (present e.context.idempotencyKey)
  | "content_digest" => some (present e.contentDigest)
  | "correlation_id" => some (present e.context.correlationId)
  | "causation_id" => some (present e.context.causationId)
  | "ref_event_id" => some (present e.context.refEventId)
  | "work_id" => some (present e.context.workId)
  | "run_id" => some (present e.context.runId)
  | "attempt_id" => some (present e.context.attemptId)
  | "claim_id" => some (present e.context.claimId)
  | "handoff_id" => some (present e.context.handoffId)
  | "from_session_id" => some (present e.context.fromSessionId)
  | "principal_id" => some (present e.context.principalId)
  | "actor_id" => some (present e.context.actorId)
  | "auth_context" => some e.context.authContext.isSome
  | "text" => some e.directive.text.isSome
  | "extensions" => some (!e.extensions.isEmpty)
  | other => (stripPrefix "extensions." other).map e.extensions.contains

/-- The key the contract requires, when the three identities it is built from are given. -/
def dedupeKeyErrors (e : DeliveryEnvelopeV1) : List DeliveryContractError :=
  match e.eventId, e.repositoryId, e.context.idempotencyKey with
  | some eventId, some repositoryId, some found =>
    let expected := stableDeliveryDedupeKey eventId repositoryId e.directive.toAgent
    if found = expected then [] else [.dedupeKeyMismatch expected found]
  | _, _, _ => []

def requiredFieldErrors (e : DeliveryEnvelopeV1) : List DeliveryContractError :=
  e.requiredFields.elems.filterMap fun field =>
    match e.requiredFieldPresent field with
    | some true => none
    | some false => some (.missingRequiredField field)
    | none => some (.unsupportedRequiredField field)

/-- Every contract error, in the order the source pushes them. -/
def contractErrors (e : DeliveryEnvelopeV1) : List DeliveryContractError :=
  (if e.deliverySchema = deliverySchemaV1 then [] else [.unsupportedSchema e.deliverySchema]) ++
  ([("event_id", present e.eventId), ("repository_id", present e.repositoryId),
      ("content_digest", present e.contentDigest), ("idempotency_key", present e.context.idempotencyKey),
      ("from", !isBlank e.directive.fromAgent), ("to", !isBlank e.directive.toAgent)].filterMap fun p =>
    if p.2 then none else some (.missingRequiredField p.1)) ++
  e.dedupeKeyErrors ++ e.requiredFieldErrors

/-- The fields required before a planner may select an endpoint. -/
def validateCurrent (e : DeliveryEnvelopeV1) : Except (List DeliveryContractError) Unit :=
  if e.contractErrors.isEmpty then .ok () else .error e.contractErrors

end DeliveryEnvelopeV1

/-! ## Endpoints -/

/-- Extensible adapter identifier. -/
structure AdapterKind where
  name : String
  deriving DecidableEq, Repr

/-- Provider-neutral capabilities used to filter endpoint candidates. -/
structure AdapterCapabilities where
  preservesFields : StrSet := ∅
  features : StrSet := ∅
  supportsPositiveAck : Bool := false
  supportsIdempotentDelivery : Bool := false
  deriving DecidableEq, Repr

namespace AdapterCapabilities

/-- A reserved capability is its typed field, any other one a feature. -/
def supports (c : AdapterCapabilities) (capability : String) : Bool :=
  if capability = capabilityPositiveAck then c.supportsPositiveAck
  else if capability = capabilityIdempotentDelivery then c.supportsIdempotentDelivery
  else c.features.contains capability

/-- A reserved feature that contradicts its authoritative typed field. -/
def conflictingReservedCapability (c : AdapterCapabilities) : Option String :=
  if c.features.contains capabilityPositiveAck && !c.supportsPositiveAck then some capabilityPositiveAck
  else if c.features.contains capabilityIdempotentDelivery && !c.supportsIdempotentDelivery then
    some capabilityIdempotentDelivery
  else none

end AdapterCapabilities

inductive EndpointHealth
  | ready | degraded | unavailable | unknown
  deriving DecidableEq, Repr

/-- Versioned endpoint registry snapshot. -/
structure EndpointDescriptorV1 where
  endpointSchema : String := endpointSchemaV1
  repositoryId : String
  agentId : String
  sessionId : String
  endpointId : String
  adapter : AdapterKind
  capabilities : AdapterCapabilities := {}
  health : EndpointHealth
  ambiguous : Bool := false
  observedAt : F64
  expiresAt : F64
  acceptedSchemas : StrSet := ∅
  deriving DecidableEq, Repr

/-! ## Attempts -/

inductive DeliveryAttemptOutcome
  | planned | failedBeforeSend | transportSent | outcomeUnknown | targetAcknowledged | completed
  | failedAfterSend
  deriving DecidableEq, Repr

namespace DeliveryAttemptOutcome

/-- The transport has or may have taken the message and the target has not answered. -/
def sentUnanswered : DeliveryAttemptOutcome → Bool
  | .transportSent | .outcomeUnknown | .failedAfterSend => true
  | _ => false

/-- The target answered. -/
def targetAnswered : DeliveryAttemptOutcome → Bool
  | .targetAcknowledged | .completed => true
  | _ => false

/-- The message may have reached the target. -/
def mayHaveSent (o : DeliveryAttemptOutcome) : Bool := o.sentUnanswered || o.targetAnswered

end DeliveryAttemptOutcome

/-- Immutable attempt identity plus its latest coarse outcome. -/
structure DeliveryAttemptV1 where
  deliveryAttemptSchema : String := deliveryAttemptSchemaV1
  eventId : String
  deliveryDedupeKey : String
  attemptId : String
  attemptNumber : Nat
  endpointId : String
  outcome : DeliveryAttemptOutcome
  idempotentDelivery : Bool := false
  deriving DecidableEq, Repr

/-- `DeliveryAttemptV1::new`. -/
def DeliveryAttemptV1.new (eventId deliveryDedupeKey : String) (attemptNumber : Nat) (endpointId : String)
    (outcome : DeliveryAttemptOutcome) (idempotentDelivery : Bool) : DeliveryAttemptV1 where
  eventId := eventId
  deliveryDedupeKey := deliveryDedupeKey
  attemptId := stableAttemptId deliveryDedupeKey attemptNumber endpointId
  attemptNumber := attemptNumber
  endpointId := endpointId
  outcome := outcome
  idempotentDelivery := idempotentDelivery

end RallyPoint
