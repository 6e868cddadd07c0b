/-
# RallyPoint.Planner — deterministic delivery planning (`rally-router-core/src/lib.rs`).

`plan` is a pure function of the clock, the envelope, the target, the endpoint snapshots, the policy and the
prior attempts. It refuses a request it cannot trust, reads the attempt history (identity, then numbering and
progression, then the three holds), and only then ranks the endpoints that `rejectCandidate` lets through.

The second half says once what a `selected` decision rests on (`plan_selected`) and what an accepted history
looks like (`checkHistory_concat_iff`); every property of the planner is derived from these two.
-/
import Mathlib.Data.List.Induction
import Mathlib.Data.List.Sort
import RallyPoint.Delivery
import RallyPoint.Lib.Check

namespace RallyPoint

open Lib

/-! ## Requests and plans -/

/-- Wire schema for deterministic route-plan observations. -/
def routePlanSchemaV1 : String := "rally.route-plan.v1"

/-- Exact recipient the caller wants the planner to resolve. -/
structure DeliveryTarget where
  repositoryId : String
  agentId : String
  sessionId : String
  pinnedEndpointId : Option String := none
  deriving DecidableEq, Repr

def defaultAdapterOrder : List AdapterKind :=
  ["claude-channel", "codex-app-server", "opencode-server", "a2a", "ptyd", "tmux", "cmux"].map .mk

/-- Route policy supplied to the pure planner; an adapter left out of the order is ineligible. -/
structure RoutePolicy where
  adapterOrder : List AdapterKind := defaultAdapterOrder
  allowDegraded : Bool := false
  allowUnknownHealth : Bool := false
  requirePositiveAck : Bool := false
  deriving DecidableEq, Repr

/-- Why planning stopped before selecting an endpoint. -/
inductive RouteHoldReason
  | invalidPlannerTime
  | invalidEnvelope (errors : List DeliveryContractError)
  | repositoryMismatch
  | recipientMismatch
  | invalidTargetSession
  | invalidAttemptIdentity (attemptId : String)
  | invalidAttemptHistory (attemptId : String)
  | existingAttemptPending (attemptId : String)
  | targetEvidenceRequired (attemptId : String)
  | noEligibleEndpoint
  deriving DecidableEq, Repr

/-- Final route decision. -/
inductive RouteDecisionV1
  | selected (endpointId : String) (adapter : AdapterKind)
  | queued (reason : RouteHoldReason)
  | heldOutcomeUnknown (attemptId endpointId : String) (state : DeliveryAttemptOutcome)
  deriving DecidableEq, Repr

/-- Typed reason one endpoint was not eligible. -/
inductive RouteRejectionReason
  | unsupportedEndpointSchema (found : String)
  | emptyEndpointId
  | invalidObservationTime
  | repositoryMismatch
  | recipientMismatch
  | sessionMismatch
  | pinnedEndpointMismatch
  | duplicateEndpointId
  | ambiguousEndpoint
  | expired
  | unavailable
  | degradedNotAllowed
  | unknownHealthNotAllowed
  | unsupportedDeliverySchema (found : String)
  | missingRequiredField (field : String)
  | missingCapability (capability : String)
  | conflictingCapability (capability : String)
  | positiveAckRequired
  | adapterNotAllowed
  | priorAttemptUsed
  | crossRouteIdempotencyRequired
  deriving DecidableEq, Repr

inductive CandidateDecision
  | selected
  | eligibleNotSelected
  | rejected (reason : RouteRejectionReason)
  deriving DecidableEq, Repr

/-- Per-candidate planner result. -/
structure CandidateEvaluation where
  endpointId : String
  adapter : AdapterKind
  decision : CandidateDecision
  deriving DecidableEq, Repr

/-- Versioned, explainable output of the pure planner. -/
structure RoutePlanV1 where
  routePlanSchema : String := routePlanSchemaV1
  eventId : String
  deliveryDedupeKey : String
  target : DeliveryTarget
  decision : RouteDecisionV1
  candidates : List CandidateEvaluation
  deriving DecidableEq, Repr

def RoutePlanV1.held (envelope : DeliveryEnvelopeV1) (target : DeliveryTarget)
    (decision : RouteDecisionV1) : RoutePlanV1 where
  eventId := envelope.eventId.getD ""
  deliveryDedupeKey := envelope.deliveryDedupeKey.getD ""
  target := target
  decision := decision
  candidates := []

/-! ## The request -/

/-- The five checks on the request itself. -/
def checkRequest (now : F64) (envelope : DeliveryEnvelopeV1) (target : DeliveryTarget) :
    Except RouteHoldReason Unit :=
  if !now.isFinite then .error .invalidPlannerTime
  else
    match envelope.validateCurrent with
    | .error errors => .error (.invalidEnvelope errors)
    | .ok () =>
      if envelope.repositoryId ≠ some target.repositoryId then .error .repositoryMismatch
      else if envelope.directive.toAgent ≠ target.agentId then .error .recipientMismatch
      else if isBlank target.sessionId then .error .invalidTargetSession
      else .ok ()

/-! ## The attempt history -/

/-- The order the attempts are read in: by number, then by id. -/
def attemptLe (left right : DeliveryAttemptV1) : Prop :=
  left.attemptNumber < right.attemptNumber ∨
    left.attemptNumber = right.attemptNumber ∧ left.attemptId ≤ right.attemptId

instance : DecidableRel attemptLe := fun _ _ => inferInstanceAs (Decidable (_ ∨ _))

/-- A matching attempt whose identity fields do not fit together. -/
def invalidMatchingAttempt (eventId : String) (attempt : DeliveryAttemptV1) : Bool :=
  attempt.eventId == eventId &&
    (attempt.deliveryAttemptSchema != deliveryAttemptSchemaV1 || attempt.attemptNumber == 0 ||
      attempt.attemptId !=
        stableAttemptId attempt.deliveryDedupeKey attempt.attemptNumber attempt.endpointId ||
      isBlank attempt.endpointId)

/-- An attempt that names only one of event and dedupe key, or is itself inconsistent. -/
def invalidIdentity (eventId dedupeKey : String) (attempt : DeliveryAttemptV1) : Bool :=
  (attempt.eventId == eventId) != (attempt.deliveryDedupeKey == dedupeKey) ||
    invalidMatchingAttempt eventId attempt

/-- A possible send whose repetition the endpoint deduplicates. -/
def idempotentSend (attempt : DeliveryAttemptV1) : Bool :=
  attempt.outcome.sentUnanswered && attempt.idempotentDelivery

/-- A possible send that must not be repeated. -/
def unsafeSend (attempt : DeliveryAttemptV1) : Bool :=
  attempt.outcome.sentUnanswered && !attempt.idempotentDelivery

/-- An attempt after which there is no next one. -/
def terminalBeforeLater (attempt : DeliveryAttemptV1) : Bool :=
  attempt.outcome == .planned || attempt.outcome.targetAnswered || unsafeSend attempt

/-- The endpoint a retry is tied to after `attempt`. -/
def nextRetryEndpoint (required : Option String) (attempt : DeliveryAttemptV1) : Option String :=
  if idempotentSend attempt then some attempt.endpointId else required

/-- The loop over the matching attempts; its result is the endpoint a retry is tied to. -/
def checkHistory (index : Nat) (attemptNumbers : List Nat) (attemptIds : List String)
    (requiredRetryEndpoint : Option String) :
    List DeliveryAttemptV1 → Except RouteHoldReason (Option String)
  | [] => .ok requiredRetryEndpoint
  | attempt :: later =>
    if attemptNumbers.contains attempt.attemptNumber || attemptIds.contains attempt.attemptId ||
        attempt.attemptNumber != index + 1 then
      .error (.invalidAttemptHistory attempt.attemptId)
    else if requiredRetryEndpoint.any (· != attempt.endpointId) then
      .error (.invalidAttemptHistory attempt.attemptId)
    -- only the last attempt may be planned, answered or an unsafe send
    else if terminalBeforeLater attempt && !later.isEmpty then
      .error (.invalidAttemptHistory attempt.attemptId)
    else
      checkHistory (index + 1) (attempt.attemptNumber :: attemptNumbers) (attempt.attemptId :: attemptIds)
        (nextRetryEndpoint requiredRetryEndpoint attempt) later

/-- The three holds a well-formed history can still impose, the latest attempt first. -/
def historyHold (matching : List DeliveryAttemptV1) : Option RouteDecisionV1 :=
  match matching.reverse.find? (·.outcome.targetAnswered) with
  | some attempt => some (.queued (.targetEvidenceRequired attempt.attemptId))
  | none =>
    match matching.reverse.find? (·.outcome == .planned) with
    | some attempt => some (.queued (.existingAttemptPending attempt.attemptId))
    | none =>
      (matching.reverse.find? unsafeSend).map fun attempt =>
        .heldOutcomeUnknown attempt.attemptId attempt.endpointId attempt.outcome

def matchingAttempts (eventId dedupeKey : String) (attempts : List DeliveryAttemptV1) :
    List DeliveryAttemptV1 :=
  attempts.filter fun attempt => attempt.eventId == eventId && attempt.deliveryDedupeKey == dedupeKey

/-- The history stage: the attempts that count and the endpoint a retry is tied to, or the hold. -/
def readHistory (eventId dedupeKey : String) (priorAttempts : List DeliveryAttemptV1) :
    Except RouteDecisionV1 (List DeliveryAttemptV1 × Option String) :=
  let attempts := priorAttempts.insertionSort attemptLe
  match attempts.find? (invalidIdentity eventId dedupeKey) with
  | some attempt => .error (.queued (.invalidAttemptIdentity attempt.attemptId))
  | none =>
    match checkHistory 0 [] [] none (matchingAttempts eventId dedupeKey attempts) with
    | .error reason => .error (.queued reason)
    | .ok required =>
      match historyHold (matchingAttempts eventId dedupeKey attempts) with
      | some decision => .error decision
      | none => .ok (matchingAttempts eventId dedupeKey attempts, required)

/-! ## The candidates -/

/-- Endpoint ids the registry returned more than once. -/
def duplicateEndpointIds (endpoints : List EndpointDescriptorV1) : List String :=
  (endpoints.map (·.endpointId)).filter fun id => 1 < (endpoints.map (·.endpointId)).count id

/-- The position of an adapter in the policy; collecting into a map keeps the last of several. -/
def adapterPosition (order : List AdapterKind) (adapter : AdapterKind) : Option Nat :=
  ((order.zipIdx.filter fun p => p.1 == adapter).getLast?).map (·.2)

/-- Endpoints of failed attempts that proved nothing was sent, unless the retry is tied to them. -/
def usedEndpoints (required : Option String) (matching : List DeliveryAttemptV1) : List String :=
  (matching.filter fun attempt =>
    attempt.outcome == .failedBeforeSend && required != some attempt.endpointId).map (·.endpointId)

/-- One `if condition { return Some(reason) }`. -/
def rejectIf (condition : Bool) (reason : RouteRejectionReason) : Option RouteRejectionReason :=
  if condition then some reason else none

def rejectHealth (policy : RoutePolicy) : EndpointHealth → Option RouteRejectionReason
  | .unavailable => some .unavailable
  | .degraded => rejectIf (!policy.allowDegraded) .degradedNotAllowed
  | .unknown => rejectIf (!policy.allowUnknownHealth) .unknownHealthNotAllowed
  | .ready => none

/-- Why an endpoint is not eligible: the first check that refuses it. -/
def rejectCandidate (now : F64) (envelope : DeliveryEnvelopeV1) (target : DeliveryTarget)
    (policy : RoutePolicy) (duplicateIds usedIds : List String) (requiredRetryEndpoint : Option String)
    (endpoint : EndpointDescriptorV1) : Option RouteRejectionReason :=
  [rejectIf (endpoint.endpointSchema != endpointSchemaV1) (.unsupportedEndpointSchema endpoint.endpointSchema),
    rejectIf (isBlank endpoint.endpointId) .emptyEndpointId,
    rejectIf (!endpoint.observedAt.isFinite || !endpoint.expiresAt.isFinite) .invalidObservationTime,
    rejectIf (endpoint.repositoryId != target.repositoryId) .repositoryMismatch,
    rejectIf (endpoint.agentId != target.agentId) .recipientMismatch,
    rejectIf (endpoint.sessionId != target.sessionId) .sessionMismatch,
    rejectIf (target.pinnedEndpointId.any (· != endpoint.endpointId)) .pinnedEndpointMismatch,
    rejectIf (duplicateIds.contains endpoint.endpointId) .duplicateEndpointId,
    rejectIf endpoint.ambiguous .ambiguousEndpoint,
    rejectIf (endpoint.expiresAt.le now) .expired,
    rejectHealth policy endpoint.health,
    rejectIf (!endpoint.acceptedSchemas.contains envelope.deliverySchema)
      (.unsupportedDeliverySchema envelope.deliverySchema),
    (envelope.requiredFields.elems.find? fun field => !endpoint.capabilities.preservesFields.contains field).map
      .missingRequiredField,
    endpoint.capabilities.conflictingReservedCapability.map .conflictingCapability,
    (envelope.requiredCapabilities.elems.find? fun c => !endpoint.capabilities.supports c).map
      .missingCapability,
    rejectIf (policy.requirePositiveAck && !endpoint.capabilities.supportsPositiveAck) .positiveAckRequired,
    rejectIf (adapterPosition policy.adapterOrder endpoint.adapter).isNone .adapterNotAllowed,
    rejectIf (requiredRetryEndpoint.any fun required =>
      endpoint.endpointId != required || !endpoint.capabilities.supportsIdempotentDelivery)
      .crossRouteIdempotencyRequired,
    rejectIf (usedIds.contains endpoint.endpointId) .priorAttemptUsed].findSome? id

/-! ## Ranking -/

def healthRank : EndpointHealth → Nat
  | .ready => 0
  | .degraded => 1
  | .unknown => 2
  | .unavailable => 3

/-- The rank of an eligible endpoint; smaller is better, compared component by component. -/
def rank (policy : RoutePolicy) (endpoint : EndpointDescriptorV1) : Nat × Nat × Nat × String :=
  (healthRank endpoint.health, (adapterPosition policy.adapterOrder endpoint.adapter).getD 0,
    if endpoint.capabilities.supportsPositiveAck then 0 else 1, endpoint.endpointId)

/-- The lexicographic order of ranks. -/
def rankLe (a b : Nat × Nat × Nat × String) : Prop :=
  a.1 < b.1 ∨ a.1 = b.1 ∧ (a.2.1 < b.2.1 ∨ a.2.1 = b.2.1 ∧
    (a.2.2.1 < b.2.2.1 ∨ a.2.2.1 = b.2.2.1 ∧ a.2.2.2 ≤ b.2.2.2))

instance : DecidableRel rankLe := fun _ _ => inferInstanceAs (Decidable (_ ∨ _))

/-- The order candidates are reported in: by endpoint id, then by adapter. -/
def endpointLe (left right : EndpointDescriptorV1) : Prop :=
  left.endpointId < right.endpointId ∨
    left.endpointId = right.endpointId ∧ left.adapter.name ≤ right.adapter.name

instance : DecidableRel endpointLe := fun _ _ => inferInstanceAs (Decidable (_ ∨ _))

def evaluation (rejection : EndpointDescriptorV1 → Option RouteRejectionReason)
    (endpoint : EndpointDescriptorV1) : CandidateEvaluation where
  endpointId := endpoint.endpointId
  adapter := endpoint.adapter
  decision :=
    match rejection endpoint with
    | some reason => .rejected reason
    | none => .eligibleNotSelected

/-- The first evaluation of the selected endpoint's id becomes `selected`. -/
def markSelected (endpointId : String) : List CandidateEvaluation → List CandidateEvaluation
  | [] => []
  | e :: rest =>
    if e.endpointId = endpointId then { e with decision := .selected } :: rest
    else e :: markSelected endpointId rest

/-- The endpoint that ranks first among those nothing rejects. -/
def bestEligible (policy : RoutePolicy) (rejection : EndpointDescriptorV1 → Option RouteRejectionReason)
    (ordered : List EndpointDescriptorV1) : Option EndpointDescriptorV1 :=
  ((ordered.filter fun endpoint => (rejection endpoint).isNone).insertionSort
    fun left right => rankLe (rank policy left) (rank policy right)).head?

/-- The two decisions that reject the history itself. -/
def RouteDecisionV1.rejectsHistory : RouteDecisionV1 → Bool
  | .queued (.invalidAttemptIdentity _) => true
  | .queued (.invalidAttemptHistory _) => true
  | _ => false

/-! ## The plan -/

/-- `DeliveryPlanner::plan`. -/
def plan (now : F64) (envelope : DeliveryEnvelopeV1) (target : DeliveryTarget)
    (endpoints : List EndpointDescriptorV1) (policy : RoutePolicy)
    (priorAttempts : List DeliveryAttemptV1) : RoutePlanV1 :=
  match checkRequest now envelope target with
  | .error reason => .held envelope target (.queued reason)
  | .ok () =>
    -- both identities were just validated, so neither default shows
    let eventId := envelope.eventId.getD ""
    let dedupeKey := envelope.deliveryDedupeKey.getD ""
    match readHistory eventId dedupeKey priorAttempts with
    | .error decision => .held envelope target decision
    | .ok (matching, required) =>
      let rejection := rejectCandidate now envelope target policy (duplicateEndpointIds endpoints)
        (usedEndpoints required matching) required
      let ordered := endpoints.insertionSort endpointLe
      match bestEligible policy rejection ordered with
      | some endpoint =>
        { eventId := eventId, deliveryDedupeKey := dedupeKey, target := target
          decision := .selected endpoint.endpointId endpoint.adapter
          candidates := markSelected endpoint.endpointId (ordered.map (evaluation rejection)) }
      | none =>
        { eventId := eventId, deliveryDedupeKey := dedupeKey, target := target
          decision := .queued .noEligibleEndpoint
          candidates := ordered.map (evaluation rejection) }

/-! ## What an accepted history looks like -/

section History

variable {nums : List Nat} {ids : List String} {req r r' : Option String}
variable {l : List DeliveryAttemptV1} {a x : DeliveryAttemptV1}

/-- One turn of the loop. -/
theorem checkHistory_cons_iff {i : Nat} :
    checkHistory i nums ids req (x :: l) = .ok r ↔
      x.attemptNumber ∉ nums ∧ x.attemptId ∉ ids ∧ x.attemptNumber = i + 1 ∧
        (∀ ep, req = some ep → ep = x.endpointId) ∧ (terminalBeforeLater x = true → l = []) ∧
        checkHistory (i + 1) (x.attemptNumber :: nums) (x.attemptId :: ids) (nextRetryEndpoint req x) l =
          .ok r := by
  have htied : (req.any (· != x.endpointId)) = false ↔ ∀ ep, req = some ep → ep = x.endpointId := by
    cases req <;> simp
  have hlast : (terminalBeforeLater x && !l.isEmpty) = false ↔ (terminalBeforeLater x = true → l = []) := by
    cases terminalBeforeLater x <;> simp
  rw [checkHistory, check_refuse_ok_iff, check_refuse_ok_iff, check_refuse_ok_iff, Bool.not_eq_true,
    Bool.not_eq_true, Bool.not_eq_true, htied, hlast]
  simp [and_assoc]

/-- **One more attempt.** The loop accepts `l ++ [a]` exactly when it accepts `l`, nothing in `l` was
terminal, and `a` is new, numbered next and at the endpoint the retry is tied to. -/
theorem checkHistory_concat_iff {i : Nat} :
    checkHistory i nums ids req (l ++ [a]) = .ok r' ↔
      ∃ r, checkHistory i nums ids req l = .ok r ∧ (∀ x ∈ l, terminalBeforeLater x = false) ∧
        a.attemptNumber ∉ nums ∧ a.attemptNumber ∉ l.map (·.attemptNumber) ∧
        a.attemptId ∉ ids ∧ a.attemptId ∉ l.map (·.attemptId) ∧
        a.attemptNumber = i + l.length + 1 ∧ (∀ ep, r = some ep → ep = a.endpointId) ∧
        nextRetryEndpoint r a = r' := by
  induction l generalizing i nums ids req with
  | nil =>
    rw [List.nil_append, checkHistory_cons_iff]
    simp [checkHistory]
  | cons x l ih =>
    rw [List.cons_append, checkHistory_cons_iff, ih]
    -- with `a` behind it, `x` is not the last one and must not be terminal
    have hconcat : (terminalBeforeLater x = true → l ++ [a] = []) ↔ terminalBeforeLater x = false := by
      simp
    simp only [hconcat, List.forall_mem_cons]
    simp only [List.map_cons, List.mem_cons, List.length_cons, not_or]
    constructor
    · rintro ⟨hn, hi, hx, hep, hterm, r, hok, hnt, ⟨hn1, hn2⟩, hn3, ⟨hi1, hi2⟩, hi3, hlen, hrest⟩
      exact ⟨r, checkHistory_cons_iff.mpr ⟨hn, hi, hx, hep, by simp [hterm], hok⟩, ⟨hterm, hnt⟩, hn2,
        ⟨hn1, hn3⟩, hi2, ⟨hi1, hi3⟩, by omega, hrest⟩
    · rintro ⟨r, hok, ⟨hterm, hnt⟩, hn2, ⟨hn1, hn3⟩, hi2, ⟨hi1, hi3⟩, hlen, hrest⟩
      obtain ⟨hn, hi, hx, hep, -, hok'⟩ := checkHistory_cons_iff.mp hok
      exact
        ⟨hn, hi, hx, hep, hterm, r, hok', hnt, ⟨hn1, hn2⟩, hn3, ⟨hi1, hi2⟩, hi3, by omega, hrest⟩

/-- Accepted attempts are numbered from one, without gaps. -/
theorem number_of_checkHistory (h : checkHistory 0 [] [] none l = .ok r) (hx : x ∈ l) :
    0 < x.attemptNumber ∧ x.attemptNumber ≤ l.length := by
  induction l using List.reverseRecOn generalizing r with
  | nil => cases hx
  | append_singleton l a ih =>
    obtain ⟨r₀, hok, -, -, -, -, -, hlen, -⟩ := checkHistory_concat_iff.mp h
    rw [List.length_append, List.length_singleton]
    rcases List.mem_append.mp hx with hx | hx
    · exact ⟨(ih hok hx).1, (ih hok hx).2.trans (Nat.le_succ _)⟩
    · rw [List.mem_singleton.mp hx]
      omega

/-- The planner's own order leaves an accepted history where it is. -/
theorem pairwise_attemptLe_of_checkHistory (h : checkHistory 0 [] [] none l = .ok r) :
    l.Pairwise attemptLe := by
  induction l using List.reverseRecOn generalizing r with
  | nil => exact .nil
  | append_singleton l a ih =>
    obtain ⟨r₀, hok, -, -, -, -, -, hlen, -⟩ := checkHistory_concat_iff.mp h
    refine List.pairwise_append.mpr ⟨ih hok, List.pairwise_singleton _ _, fun x hx b hb => .inl ?_⟩
    have hle := (number_of_checkHistory hok hx).2
    rw [List.mem_singleton.mp hb]
    omega

/-- Every deduplicated possible send of an accepted history is at the endpoint the retry is tied to. -/
theorem required_of_idempotentSend (h : checkHistory 0 [] [] none l = .ok r) (hx : x ∈ l)
    (hsend : idempotentSend x = true) : r = some x.endpointId := by
  induction l using List.reverseRecOn generalizing r with
  | nil => cases hx
  | append_singleton l a ih =>
    obtain ⟨r₀, hok, -, -, -, -, -, -, hep, rfl⟩ := checkHistory_concat_iff.mp h
    rcases List.mem_append.mp hx with hx | hx
    · -- the retry was tied already, and the last attempt is where it is tied to
      have hr₀ := ih hok hx
      have hsame := hep _ hr₀
      rw [nextRetryEndpoint, hr₀, hsame, ite_self]
    · obtain rfl := List.mem_singleton.mp hx
      rw [nextRetryEndpoint, if_pos hsend]

/-- No hold: no answered, pending or unsafe attempt. -/
theorem historyHold_eq_none_iff :
    historyHold l = none ↔ ∀ x ∈ l, terminalBeforeLater x = false := by
  have hsplit : ∀ p : DeliveryAttemptV1 → Bool, l.reverse.find? p = none ↔ ∀ x ∈ l, p x = false := by
    intro p
    simp [List.find?_eq_none]
  have hparts : (∀ x ∈ l, terminalBeforeLater x = false) ↔
      (∀ x ∈ l, x.outcome.targetAnswered = false) ∧ (∀ x ∈ l, (x.outcome == .planned) = false) ∧
        ∀ x ∈ l, unsafeSend x = false := by
    simp only [terminalBeforeLater, Bool.or_eq_false_iff, ← forall_and]
    exact forall₂_congr fun _ _ => by tauto
  rw [hparts, ← hsplit, ← hsplit, ← hsplit]
  unfold historyHold
  cases l.reverse.find? (·.outcome.targetAnswered) with
  | some _ => simp
  | none =>
    cases l.reverse.find? (·.outcome == .planned) with
    | some _ => simp
    | none => simp

/-- The history stage accepts exactly a history that is well identified, well numbered and unheld. -/
theorem readHistory_ok_iff {eventId dedupeKey : String} {prior matching : List DeliveryAttemptV1} :
    readHistory eventId dedupeKey prior = .ok (matching, r) ↔
      (∀ x ∈ prior, invalidIdentity eventId dedupeKey x = false) ∧
        matching = matchingAttempts eventId dedupeKey (prior.insertionSort attemptLe) ∧
        checkHistory 0 [] [] none matching = .ok r ∧ ∀ x ∈ matching, terminalBeforeLater x = false := by
  have hmem : (∀ x ∈ prior, invalidIdentity eventId dedupeKey x = false) ↔
      ∀ x ∈ prior.insertionSort attemptLe, invalidIdentity eventId dedupeKey x = false := by
    simp only [List.mem_insertionSort]
  rw [hmem]
  unfold readHistory
  generalize prior.insertionSort attemptLe = attempts
  dsimp only
  cases hfind : attempts.find? (invalidIdentity eventId dedupeKey) with
  | some bad =>
    have hbad := List.find?_some hfind
    simp only [reduceCtorEq, false_iff, not_and]
    exact fun hall => absurd hbad (by simp [hall bad (List.mem_of_find?_eq_some hfind)])
  | none =>
    have hall : ∀ x ∈ attempts, invalidIdentity eventId dedupeKey x = false := by
      simpa [List.find?_eq_none] using hfind
    cases hloop : checkHistory 0 [] [] none (matchingAttempts eventId dedupeKey attempts) with
    | error reason =>
      simp only [reduceCtorEq, false_iff, not_and]
      rintro - rfl hok
      rw [hloop] at hok
      cases hok
    | ok required =>
      cases hhold : historyHold (matchingAttempts eventId dedupeKey attempts) with
      | some decision =>
        simp only [reduceCtorEq, false_iff, not_and]
        rintro - rfl - hnone
        rw [historyHold_eq_none_iff.mpr hnone] at hhold
        cases hhold
      | none =>
        simp only [Except.ok.injEq, Prod.mk.injEq]
        constructor
        · rintro ⟨rfl, rfl⟩
          exact ⟨hall, rfl, hloop, historyHold_eq_none_iff.mp hhold⟩
        · rintro ⟨-, rfl, hok, -⟩
          rw [hloop] at hok
          exact ⟨rfl, Except.ok.inj hok⟩

/-- **A history the loop accepts is never rejected:** what can still come is one of the holds. -/
theorem readHistory_not_rejects {eventId dedupeKey : String} {prior : List DeliveryAttemptV1}
    {decision : RouteDecisionV1} (hidentity : ∀ x ∈ prior, invalidIdentity eventId dedupeKey x = false)
    (hloop : checkHistory 0 [] [] none (matchingAttempts eventId dedupeKey (prior.insertionSort attemptLe)) =
      .ok r)
    (h : readHistory eventId dedupeKey prior = .error decision) : decision.rejectsHistory = false := by
  have hfind : (prior.insertionSort attemptLe).find? (invalidIdentity eventId dedupeKey) = none := by
    simpa [List.find?_eq_none, List.mem_insertionSort] using hidentity
  unfold readHistory at h
  simp only [hfind, hloop] at h
  cases hhold : historyHold (matchingAttempts eventId dedupeKey (prior.insertionSort attemptLe)) with
  | none =>
    rw [hhold] at h
    cases h
  | some held =>
    rw [hhold] at h
    cases h
    unfold historyHold at hhold
    split at hhold
    · cases hhold
      rfl
    · split at hhold
      · cases hhold
        rfl
      · obtain ⟨_, -, rfl⟩ := Option.map_eq_some_iff.mp hhold
        rfl

/-- A hold of the history stage is never a selection. -/
theorem readHistory_ne_selected {eventId dedupeKey endpointId : String} {adapter : AdapterKind}
    {prior : List DeliveryAttemptV1} :
    readHistory eventId dedupeKey prior ≠ .error (.selected endpointId adapter) := by
  intro h
  unfold readHistory historyHold at h
  dsimp only at h
  split at h
  · cases h
  · split at h
    · cases h
    · split at h
      case _ hhold =>
        cases h
        split at hhold
        · cases hhold
        · split at hhold
          · cases hhold
          · simp at hhold
      · cases h

end History

/-! ## What a selection rests on -/

/-- A retry is tied to its endpoint, which must deduplicate. -/
theorem endpoint_of_rejectCandidate_none {now : F64} {envelope : DeliveryEnvelopeV1} {target : DeliveryTarget}
    {policy : RoutePolicy} {dups used : List String} {required : String} {endpoint : EndpointDescriptorV1}
    (h : rejectCandidate now envelope target policy dups used (some required) endpoint = none) :
    endpoint.endpointId = required ∧ endpoint.capabilities.supportsIdempotentDelivery = true := by
  have hmem := List.findSome?_eq_none_iff.mp h (rejectIf ((some required).any fun required =>
    endpoint.endpointId != required || !endpoint.capabilities.supportsIdempotentDelivery)
    .crossRouteIdempotencyRequired) (by simp)
  simpa [rejectIf] using hmem

/-- A selected endpoint has an id and is not one of the endpoints already used up. -/
theorem not_blank_of_rejectCandidate_none {now : F64} {envelope : DeliveryEnvelopeV1} {target : DeliveryTarget}
    {policy : RoutePolicy} {dups used : List String} {required : Option String}
    {endpoint : EndpointDescriptorV1}
    (h : rejectCandidate now envelope target policy dups used required endpoint = none) :
    isBlank endpoint.endpointId = false := by
  have hmem := List.findSome?_eq_none_iff.mp h (rejectIf (isBlank endpoint.endpointId) .emptyEndpointId)
    (by simp)
  simpa [rejectIf] using hmem

theorem bestEligible_spec {policy : RoutePolicy}
    {rejection : EndpointDescriptorV1 → Option RouteRejectionReason}
    {ordered : List EndpointDescriptorV1} {best : EndpointDescriptorV1}
    (h : bestEligible policy rejection ordered = some best) : best ∈ ordered ∧ rejection best = none := by
  have hmem := List.mem_of_mem_head? h
  rw [List.mem_insertionSort, List.mem_filter] at hmem
  exact ⟨hmem.1, Option.isNone_iff_eq_none.mp hmem.2⟩

section Selected

variable {now : F64} {envelope : DeliveryEnvelopeV1} {target : DeliveryTarget}
variable {endpoints : List EndpointDescriptorV1} {policy : RoutePolicy} {prior : List DeliveryAttemptV1}
variable {endpointId : String} {adapter : AdapterKind}

/-- **A selection rests on** an accepted, unheld history and on an endpoint nothing rejects. -/
theorem plan_selected
    (h : (plan now envelope target endpoints policy prior).decision = .selected endpointId adapter) :
    ∃ matching required endpoint,
      readHistory (envelope.eventId.getD "") (envelope.deliveryDedupeKey.getD "") prior =
        .ok (matching, required) ∧
      endpoint ∈ endpoints ∧ endpoint.endpointId = endpointId ∧ endpoint.adapter = adapter ∧
      rejectCandidate now envelope target policy (duplicateEndpointIds endpoints)
        (usedEndpoints required matching) required endpoint = none := by
  unfold plan at h
  split at h
  · cases h
  · dsimp only at h
    split at h
    case _ decision hread =>
      have hselected : decision = .selected endpointId adapter := h
      rw [hselected] at hread
      exact absurd hread readHistory_ne_selected
    case _ matching required hread =>
      split at h
      case _ endpoint hbest =>
        obtain ⟨hmem, hrej⟩ := bestEligible_spec hbest
        cases h
        exact ⟨matching, required, endpoint, hread, (List.mem_insertionSort _).mp hmem, rfl, rfl, hrej⟩
      · cases h

/-- Only the history stage rejects a history. -/
theorem plan_rejectsHistory
    (h : (plan now envelope target endpoints policy prior).decision.rejectsHistory = true) :
    ∃ decision, decision.rejectsHistory = true ∧
      readHistory (envelope.eventId.getD "") (envelope.deliveryDedupeKey.getD "") prior = .error decision := by
  unfold plan at h
  split at h
  case _ reason hrequest =>
    unfold checkRequest at hrequest
    split at hrequest
    · cases hrequest
      cases h
    · split at hrequest
      · cases hrequest
        cases h
      · split at hrequest
        · cases hrequest
          cases h
        · split at hrequest
          · cases hrequest
            cases h
          · split at hrequest <;> cases hrequest
            cases h
  · dsimp only at h
    split at h
    case _ decision hread => exact ⟨decision, h, hread⟩
    · split at h <;> cases h

/-- The plan names the delivery it is for, whatever it decides. -/
theorem plan_identity (now : F64) (envelope : DeliveryEnvelopeV1) (target : DeliveryTarget)
    (endpoints : List EndpointDescriptorV1) (policy : RoutePolicy) (prior : List DeliveryAttemptV1) :
    (plan now envelope target endpoints policy prior).eventId = envelope.eventId.getD "" ∧
      (plan now envelope target endpoints policy prior).deliveryDedupeKey =
        envelope.deliveryDedupeKey.getD "" := by
  unfold plan
  cases checkRequest now envelope target with
  | error _ => exact ⟨rfl, rfl⟩
  | ok _ =>
    dsimp only
    cases readHistory (envelope.eventId.getD "") (envelope.deliveryDedupeKey.getD "") prior with
    | error _ => exact ⟨rfl, rfl⟩
    | ok _ =>
      dsimp only
      split <;> exact ⟨rfl, rfl⟩

end Selected

end RallyPoint
