/-
# RallyPoint.DeliveryRuns — one logical delivery from its first attempt on.

A run alternates the planner with the outside world: a selection is recorded as the next attempt, and the
outcome of an attempt is reported when it becomes known. Endpoints, health and clock are free at every turn.
The histories such runs produce are exactly what the planner's own history check asks for
(`SoundHistory`), so the planner never rejects a history it helped to write; and a selection over such a
history repeats a possible send only where the endpoint deduplicates it.
-/
import Mathlib.Logic.Relation
import RallyPoint.Planner

namespace RallyPoint

open Lib

section Runs

variable {envelope : DeliveryEnvelopeV1} {target : DeliveryTarget} {policy : RoutePolicy}

/-- One turn of a delivery. Attempt numbers are `u32`, so a run stops recording when they run out. -/
inductive DeliveryStep (envelope : DeliveryEnvelopeV1) (target : DeliveryTarget) (policy : RoutePolicy) :
    List DeliveryAttemptV1 → List DeliveryAttemptV1 → Prop
  /-- The planner selected an endpoint and the next attempt is recorded there. -/
  | record {history : List DeliveryAttemptV1} {now : F64} {endpoints : List EndpointDescriptorV1}
      {endpointId : String} {adapter : AdapterKind} {outcome : DeliveryAttemptOutcome} {idempotent : Bool} :
      (plan now envelope target endpoints policy history).decision = .selected endpointId adapter →
      history.length + 1 < 2 ^ 32 →
      DeliveryStep envelope target policy history
        (history ++ [.new (plan now envelope target endpoints policy history).eventId
          (plan now envelope target endpoints policy history).deliveryDedupeKey (history.length + 1)
          endpointId outcome idempotent])
  /-- The outcome of a planned attempt, wherever it stands, is reported. -/
  | settle {earlier later : List DeliveryAttemptV1} {attempt : DeliveryAttemptV1}
      {outcome : DeliveryAttemptOutcome} :
      attempt.outcome = .planned →
      DeliveryStep envelope target policy (earlier ++ attempt :: later)
        (earlier ++ { attempt with outcome := outcome } :: later)
  /-- The outcome of the newest attempt is reported anew, whatever was reported before. -/
  | revise {earlier : List DeliveryAttemptV1} {attempt : DeliveryAttemptV1}
      {outcome : DeliveryAttemptOutcome} :
      DeliveryStep envelope target policy (earlier ++ [attempt])
        (earlier ++ [{ attempt with outcome := outcome }])

abbrev DeliveryRun (envelope : DeliveryEnvelopeV1) (target : DeliveryTarget) (policy : RoutePolicy) :
    List DeliveryAttemptV1 → List DeliveryAttemptV1 → Prop :=
  Relation.ReflTransGen (DeliveryStep envelope target policy)

/-- No attempt that may have sent is reported as one that did not. -/
def SendsKept (history later : List DeliveryAttemptV1) : Prop :=
  ∀ (i : Nat) (x y : DeliveryAttemptV1), history[i]? = some x → later[i]? = some y →
    x.outcome.mayHaveSent = true → y.outcome.mayHaveSent = true

/-- A run that takes no possible send back. -/
abbrev KeepingRun (envelope : DeliveryEnvelopeV1) (target : DeliveryTarget) (policy : RoutePolicy) :
    List DeliveryAttemptV1 → List DeliveryAttemptV1 → Prop :=
  Relation.ReflTransGen fun history later =>
    DeliveryStep envelope target policy history later ∧ SendsKept history later

/-! ## Sound histories -/

/-- An attempt built by `DeliveryAttemptV1::new` for this envelope, at an endpoint with a name. -/
structure OwnAttempt (envelope : DeliveryEnvelopeV1) (attempt : DeliveryAttemptV1) : Prop where
  schema : attempt.deliveryAttemptSchema = deliveryAttemptSchemaV1
  event : attempt.eventId = envelope.eventId.getD ""
  dedupe : attempt.deliveryDedupeKey = envelope.deliveryDedupeKey.getD ""
  identity : attempt.attemptId =
    stableAttemptId attempt.deliveryDedupeKey attempt.attemptNumber attempt.endpointId
  named : isBlank attempt.endpointId = false

/-- The histories a run keeps: this envelope's attempts, in an order the planner's loop accepts. -/
structure SoundHistory (envelope : DeliveryEnvelopeV1) (history : List DeliveryAttemptV1) : Prop where
  own : ∀ x ∈ history, OwnAttempt envelope x
  accepted : ∃ required, checkHistory 0 [] [] none history = .ok required

theorem OwnAttempt.with_outcome {attempt : DeliveryAttemptV1} (h : OwnAttempt envelope attempt)
    (outcome : DeliveryAttemptOutcome) : OwnAttempt envelope { attempt with outcome := outcome } :=
  ⟨h.schema, h.event, h.dedupe, h.identity, h.named⟩

variable {history later : List DeliveryAttemptV1}

theorem soundHistory_nil : SoundHistory envelope [] := ⟨by simp, none, rfl⟩

theorem SoundHistory.invalidIdentity (h : SoundHistory envelope history) :
    ∀ x ∈ history,
      invalidIdentity (envelope.eventId.getD "") (envelope.deliveryDedupeKey.getD "") x = false := by
  intro x hx
  obtain ⟨required, hloop⟩ := h.accepted
  have hown := h.own x hx
  have hpos := (number_of_checkHistory hloop hx).1
  simp [RallyPoint.invalidIdentity, invalidMatchingAttempt, hown.event, hown.dedupe, hown.schema, hown.named,
    hown.identity, Nat.ne_of_gt hpos]

/-- The planner reads a sound history in the order it was written, and all of it. -/
theorem SoundHistory.matchingAttempts (h : SoundHistory envelope history) :
    matchingAttempts (envelope.eventId.getD "") (envelope.deliveryDedupeKey.getD "")
      (history.insertionSort attemptLe) = history := by
  obtain ⟨required, hloop⟩ := h.accepted
  rw [(pairwise_attemptLe_of_checkHistory hloop).insertionSort_eq, RallyPoint.matchingAttempts,
    List.filter_eq_self]
  intro x hx
  simp [(h.own x hx).event, (h.own x hx).dedupe]

theorem SoundHistory.not_rejected (h : SoundHistory envelope history) (now : F64)
    (endpoints : List EndpointDescriptorV1) :
    (plan now envelope target endpoints policy history).decision.rejectsHistory = false := by
  obtain ⟨required, hloop⟩ := h.accepted
  rw [← Bool.not_eq_true]
  intro hrejects
  obtain ⟨decision, hdecision, hread⟩ := plan_rejectsHistory hrejects
  have hnot :=
    readHistory_not_rejects (r := required) h.invalidIdentity (by rw [h.matchingAttempts, hloop]) hread
  rw [hnot] at hdecision
  cases hdecision

/-- **What a selection says about a sound history:** every attempt can be followed by another one, and the
retry endpoint, when there is one, is the selected endpoint. -/
theorem SoundHistory.selected (h : SoundHistory envelope history) {now : F64}
    {endpoints : List EndpointDescriptorV1} {endpointId : String} {adapter : AdapterKind}
    (hsel : (plan now envelope target endpoints policy history).decision = .selected endpointId adapter) :
    isBlank endpointId = false ∧ ∃ required, checkHistory 0 [] [] none history = .ok required ∧
      (∀ x ∈ history, terminalBeforeLater x = false) ∧ ∀ ep, required = some ep → ep = endpointId := by
  obtain ⟨matching, required, endpoint, hread, -, rfl, -, hnone⟩ := plan_selected hsel
  obtain ⟨-, hmatching, hloop, hterminal⟩ := readHistory_ok_iff.mp hread
  rw [h.matchingAttempts] at hmatching
  subst hmatching
  refine ⟨not_blank_of_rejectCandidate_none hnone, required, hloop, hterminal, ?_⟩
  rintro ep rfl
  exact (endpoint_of_rejectCandidate_none hnone).1.symm

/-- A possible send that can still be followed by another attempt was deduplicated. -/
theorem idempotentSend_of_mayHaveSent {attempt : DeliveryAttemptV1}
    (hsent : attempt.outcome.mayHaveSent = true) (hterminal : terminalBeforeLater attempt = false) :
    idempotentSend attempt = true := by
  simp only [terminalBeforeLater, unsafeSend, Bool.or_eq_false_iff, Bool.and_eq_false_iff,
    Bool.not_eq_false'] at hterminal
  obtain ⟨⟨-, hanswered⟩, hsafe⟩ := hterminal
  have hunanswered : attempt.outcome.sentUnanswered = true := by
    simpa [DeliveryAttemptOutcome.mayHaveSent, hanswered] using hsent
  rw [hunanswered] at hsafe
  simpa [idempotentSend, hunanswered] using hsafe

/-- **No duplicate over a sound history:** a selection repeats a possible send only as a deduplicated retry
at the endpoint that has it. -/
theorem SoundHistory.no_duplicate (h : SoundHistory envelope history) {now : F64}
    {endpoints : List EndpointDescriptorV1} {endpointId : String} {adapter : AdapterKind}
    (hsel : (plan now envelope target endpoints policy history).decision = .selected endpointId adapter)
    {attempt : DeliveryAttemptV1} (hmem : attempt ∈ history) (hsent : attempt.outcome.mayHaveSent = true) :
    attempt.idempotentDelivery = true ∧ endpointId = attempt.endpointId := by
  obtain ⟨-, required, hloop, hterminal, hep⟩ := h.selected hsel
  have hsend := idempotentSend_of_mayHaveSent hsent (hterminal attempt hmem)
  refine ⟨?_, (hep _ (required_of_idempotentSend hloop hmem hsend)).symm⟩
  simp only [idempotentSend, Bool.and_eq_true] at hsend
  exact hsend.2

/-! ## One step -/

/-- The recorded attempt continues the history. -/
theorem SoundHistory.record (h : SoundHistory envelope history) {now : F64}
    {endpoints : List EndpointDescriptorV1} {endpointId : String} {adapter : AdapterKind}
    {outcome : DeliveryAttemptOutcome} {idempotent : Bool}
    (hsel : (plan now envelope target endpoints policy history).decision = .selected endpointId adapter) :
    SoundHistory envelope (history ++ [.new (plan now envelope target endpoints policy history).eventId
      (plan now envelope target endpoints policy history).deliveryDedupeKey (history.length + 1)
      endpointId outcome idempotent]) := by
  obtain ⟨hnamed, required, hloop, hterminal, hep⟩ := h.selected hsel
  obtain ⟨hevent, hkey⟩ := plan_identity now envelope target endpoints policy history
  rw [hevent, hkey]
  refine ⟨?_, _, checkHistory_concat_iff.mpr
    ⟨required, hloop, hterminal, by simp, ?_, by simp, ?_, ?_, hep, rfl⟩⟩
  · intro x hx
    rcases List.mem_append.mp hx with hx | hx
    · exact h.own x hx
    · rw [List.mem_singleton.mp hx]
      exact ⟨rfl, rfl, rfl, rfl, hnamed⟩
  · intro hmem
    obtain ⟨x, hx, hnumber⟩ := List.mem_map.mp hmem
    have hle := (number_of_checkHistory hloop hx).2
    simp only [DeliveryAttemptV1.new] at hnumber
    omega
  · -- equal ids would be equal numbers, and the new number is larger than all before it
    intro hmem
    obtain ⟨x, hx, hid⟩ := List.mem_map.mp hmem
    have hle := (number_of_checkHistory hloop hx).2
    rw [(h.own x hx).identity, (h.own x hx).dedupe] at hid
    have hnumber := stableAttemptId_number_inj hid
    omega
  · simp [DeliveryAttemptV1.new]

/-- The outcome of the newest attempt is free. -/
theorem SoundHistory.revise {earlier : List DeliveryAttemptV1} {attempt : DeliveryAttemptV1}
    (h : SoundHistory envelope (earlier ++ [attempt])) (outcome : DeliveryAttemptOutcome) :
    SoundHistory envelope (earlier ++ [{ attempt with outcome := outcome }]) := by
  obtain ⟨r', hloop⟩ := h.accepted
  obtain ⟨required, hok, hterminal, hn, hn', hi, hi', hlen, hep, -⟩ := checkHistory_concat_iff.mp hloop
  -- the loop asks nothing of the outcome of the attempt it ends with
  refine ⟨?_, _, checkHistory_concat_iff.mpr
    ⟨required, hok, hterminal, hn, hn', hi, hi', hlen, hep, rfl⟩⟩
  intro x hx
  rcases List.mem_append.mp hx with hx | hx
  · exact h.own x (List.mem_append_left _ hx)
  · rw [List.mem_singleton.mp hx]
    exact (h.own attempt (by simp)).with_outcome outcome

/-- A planned attempt of a sound history is the newest. -/
theorem SoundHistory.planned_last {earlier later : List DeliveryAttemptV1} {attempt : DeliveryAttemptV1}
    (h : SoundHistory envelope (earlier ++ attempt :: later)) (hplanned : attempt.outcome = .planned) :
    later = [] := by
  rcases List.eq_nil_or_concat' later with hnil | ⟨later', last, rfl⟩
  · exact hnil
  · obtain ⟨r', hloop⟩ := h.accepted
    have hassoc : earlier ++ attempt :: (later' ++ [last]) = (earlier ++ attempt :: later') ++ [last] := by simp
    rw [hassoc] at hloop
    obtain ⟨-, -, hterminal, -⟩ := checkHistory_concat_iff.mp hloop
    have hattempt := hterminal attempt (by simp)
    simp [terminalBeforeLater, hplanned] at hattempt

theorem SoundHistory.step (h : SoundHistory envelope history)
    (hstep : DeliveryStep envelope target policy history later) : SoundHistory envelope later := by
  cases hstep with
  | record hsel _ => exact h.record hsel
  | settle hplanned =>
    obtain rfl := h.planned_last hplanned
    exact h.revise _
  | revise => exact h.revise _

/-- Replacing one entry of a history leaves the others where they are. -/
theorem getElem?_replaced {earlier later : List DeliveryAttemptV1} {a b x : DeliveryAttemptV1} {i : Nat}
    (h : (earlier ++ a :: later)[i]? = some x) :
    (earlier ++ b :: later)[i]? = some x ∨ x = a ∧ (earlier ++ b :: later)[i]? = some b := by
  rcases Nat.lt_or_ge i earlier.length with hlt | hge
  · left
    rwa [List.getElem?_append_left hlt] at h ⊢
  · rw [List.getElem?_append_right hge] at h ⊢
    generalize i - earlier.length = j at h ⊢
    cases j with
    | zero => exact .inr ⟨(Option.some.inj h).symm, rfl⟩
    | succ j => exact .inl h

/-- **The frame of a step:** an attempt stays at its position, at its endpoint, recorded as it was; only
outcomes change. -/
theorem DeliveryStep.frame (hstep : DeliveryStep envelope target policy history later) {i : Nat}
    {x : DeliveryAttemptV1} (hx : history[i]? = some x) :
    ∃ y, later[i]? = some y ∧ y.endpointId = x.endpointId ∧ y.idempotentDelivery = x.idempotentDelivery := by
  cases hstep with
  | record _ _ =>
    refine ⟨x, ?_, rfl, rfl⟩
    rwa [List.getElem?_append_left (List.getElem?_eq_some_iff.mp hx).1]
  | settle _ =>
    rcases getElem?_replaced hx with hy | ⟨rfl, hy⟩
    · exact ⟨x, hy, rfl, rfl⟩
    · exact ⟨_, hy, rfl, rfl⟩
  | revise =>
    rcases getElem?_replaced hx with hy | ⟨rfl, hy⟩
    · exact ⟨x, hy, rfl, rfl⟩
    · exact ⟨_, hy, rfl, rfl⟩

/-! ## Runs -/

theorem soundHistory_of_run (h : DeliveryRun envelope target policy [] history) :
    SoundHistory envelope history := by
  induction h with
  | refl => exact soundHistory_nil
  | tail _ hstep ih => exact ih.step hstep

/-- Position `i` still holds the attempt, at its endpoint and recorded as it was, and it may have sent. -/
def SentAt (i : Nat) (attempt : DeliveryAttemptV1) (history : List DeliveryAttemptV1) : Prop :=
  ∃ x, history[i]? = some x ∧ x.outcome.mayHaveSent = true ∧ x.endpointId = attempt.endpointId ∧
    x.idempotentDelivery = attempt.idempotentDelivery

theorem SentAt.step {i : Nat} {attempt : DeliveryAttemptV1} (h : SentAt i attempt history)
    (hstep : DeliveryStep envelope target policy history later) (hkept : SendsKept history later) :
    SentAt i attempt later := by
  obtain ⟨x, hx, hsent, hendpoint, hflag⟩ := h
  obtain ⟨y, hy, hendpoint', hflag'⟩ := hstep.frame hx
  exact ⟨y, hy, hkept i x y hx hy hsent, hendpoint'.trans hendpoint, hflag'.trans hflag⟩

theorem SentAt.run {i : Nat} {attempt : DeliveryAttemptV1} (h : SentAt i attempt history)
    (hrun : KeepingRun envelope target policy history later) : SentAt i attempt later := by
  induction hrun with
  | refl => exact h
  | tail _ hstep ih => exact ih.step hstep.1 hstep.2

/-- **The planner never double-sends.** In every run it accepts the history the run wrote. Once an attempt
may have sent, and while that is not taken back, every later selection is a deduplicated retry at its
endpoint, and there is none after a possible send that is not deduplicated. -/
theorem planner_never_double_sends (hhistory : DeliveryRun envelope target policy [] history)
    (hlater : KeepingRun envelope target policy history later) (now : F64)
    (endpoints : List EndpointDescriptorV1) :
    (plan now envelope target endpoints policy later).decision.rejectsHistory = false ∧
      ∀ attempt ∈ history, attempt.outcome.mayHaveSent = true →
        (∀ endpointId adapter,
          (plan now envelope target endpoints policy later).decision = .selected endpointId adapter →
            attempt.idempotentDelivery = true ∧ endpointId = attempt.endpointId) ∧
        (attempt.idempotentDelivery = false → ∀ endpointId adapter,
          (plan now envelope target endpoints policy later).decision ≠ .selected endpointId adapter) := by
  have hsteps : DeliveryRun envelope target policy history later :=
    Relation.ReflTransGen.mono (fun _ _ hstep => hstep.1) _ _ hlater
  have hsound : SoundHistory envelope later := soundHistory_of_run (hhistory.trans hsteps)
  refine ⟨hsound.not_rejected now endpoints, fun attempt hmem hsent => ?_⟩
  obtain ⟨i, hi⟩ := List.mem_iff_getElem?.mp hmem
  obtain ⟨x, hx, hxsent, hendpoint, hflag⟩ := SentAt.run ⟨attempt, hi, hsent, rfl, rfl⟩ hlater
  have hretry : ∀ endpointId adapter,
      (plan now envelope target endpoints policy later).decision = .selected endpointId adapter →
        attempt.idempotentDelivery = true ∧ endpointId = attempt.endpointId := by
    intro endpointId adapter hsel
    have hno := hsound.no_duplicate hsel (List.mem_of_getElem? hx) hxsent
    rwa [hendpoint, hflag] at hno
  refine ⟨hretry, fun hflagged endpointId adapter hsel => ?_⟩
  have hsafe := (hretry endpointId adapter hsel).1
  rw [hflagged] at hsafe
  cases hsafe

end Runs

/-! ## A run with a retry -/

namespace DeliverySample

def envelope : DeliveryEnvelopeV1 :=
  .new { toAgent := "bob", fromAgent := "alice" } "event-1" "repo" "digest"

def target : DeliveryTarget := { repositoryId := "repo", agentId := "bob", sessionId := "session-1" }

def endpoint : EndpointDescriptorV1 where
  repositoryId := "repo"
  agentId := "bob"
  sessionId := "session-1"
  endpointId := "native-a"
  adapter := ⟨"codex-app-server"⟩
  capabilities := { supportsIdempotentDelivery := true }
  health := .ready
  observedAt := .finite 90
  expiresAt := .finite 200
  acceptedSchemas := .singleton deliverySchemaV1

/-- The attempts of the run: `number` and outcome vary, the rest is the selected endpoint's. -/
def attempt (number : Nat) (outcome : DeliveryAttemptOutcome) : DeliveryAttemptV1 :=
  .new "event-1" (stableDeliveryDedupeKey "event-1" "repo" "bob") number "native-a" outcome true

/-- The first attempt is recorded and its outcome stays unknown. -/
theorem run_unknown : DeliveryRun envelope target {} [] [attempt 1 .outcomeUnknown] :=
  .tail (.single (@DeliveryStep.record _ _ _ [] (.finite 100) [endpoint] "native-a" ⟨"codex-app-server"⟩
    .planned true (by decide) (by decide)))
    (@DeliveryStep.settle _ _ _ [] [] (attempt 1 .planned) .outcomeUnknown rfl)

/-- The retry at the same endpoint fails before anything is sent. -/
theorem run_retry : KeepingRun envelope target {} [attempt 1 .outcomeUnknown]
    [attempt 1 .outcomeUnknown, attempt 2 .failedBeforeSend] := by
  refine .single ⟨@DeliveryStep.record _ _ _ [attempt 1 .outcomeUnknown] (.finite 110) [endpoint] "native-a"
    ⟨"codex-app-server"⟩ .failedBeforeSend true (by decide) (by decide), ?_⟩
  intro i x y hx hy hsent
  cases i with
  | zero =>
    obtain rfl := Option.some.inj hy
    rfl
  | succ i => cases hx

end DeliverySample

open DeliverySample

theorem planner_never_double_sends_retry :
    (plan (.finite 120) envelope target [endpoint] {}
      [attempt 1 .outcomeUnknown, attempt 2 .failedBeforeSend]).decision =
        .selected "native-a" ⟨"codex-app-server"⟩ ∧
      (attempt 1 .outcomeUnknown).idempotentDelivery = true ∧
        "native-a" = (attempt 1 .outcomeUnknown).endpointId := by
  have hselected : (plan (.finite 120) envelope target [endpoint] {}
      [attempt 1 .outcomeUnknown, attempt 2 .failedBeforeSend]).decision =
        .selected "native-a" ⟨"codex-app-server"⟩ := by decide
  refine ⟨hselected, ?_⟩
  exact ((planner_never_double_sends run_unknown run_retry (.finite 120) [endpoint]).2
    (attempt 1 .outcomeUnknown) (by decide) rfl).1 _ _ hselected

end RallyPoint
