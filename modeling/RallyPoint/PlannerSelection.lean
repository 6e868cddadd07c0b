/-
# RallyPoint.PlannerSelection — which endpoint the planner selects, and what it reports of the others.

Behind an accepted request and an unheld history the plan is a choice: of the endpoints nothing rejects, the
one the policy prefers. The preference is stated on its own (`preference`), with the adapter's place in the
policy as the first index it is found at; the ranking of the source collects the policy into a map and keeps
the last, which is the same place when no adapter is listed twice (`rankKey_eq_preference`).

The selected row is found again by its id. An endpoint of a repeated id is never eligible, so the id names one
row, and the candidate list is the input endpoints, each once, each under its own verdict (`plan_selects_best`).
-/
import RallyPoint.PlannerInputs

namespace RallyPoint

open Lib

/-! ## The policy's order -/

section Policy

variable {order : List AdapterKind} {adapter : AdapterKind}

theorem adapterPosition_concat (order : List AdapterKind) (last adapter : AdapterKind) :
    adapterPosition (order ++ [last]) adapter =
      if last = adapter then some order.length else adapterPosition order adapter := by
  unfold adapterPosition
  rw [List.zipIdx_append, List.filter_append]
  by_cases h : last = adapter
  · simp [h]
  · simp [h]

/-- An adapter has a position exactly when the policy lists it. -/
theorem adapterPosition_isNone_iff : (adapterPosition order adapter).isNone = true ↔ adapter ∉ order := by
  induction order using List.reverseRecOn with
  | nil => simp [adapterPosition]
  | append_singleton order last ih =>
    rw [adapterPosition_concat]
    by_cases h : last = adapter
    · simp [h]
    · rw [if_neg h, ih, List.mem_append, List.mem_singleton]
      simp [Ne.symm h]

/-- Listed once, an adapter stands where it is first found. -/
theorem adapterPosition_eq_idxOf (hnodup : order.Nodup) (hmem : adapter ∈ order) :
    adapterPosition order adapter = some (order.idxOf adapter) := by
  induction order using List.reverseRecOn with
  | nil => cases hmem
  | append_singleton order last ih =>
    obtain ⟨hinit, -, hnew⟩ := List.nodup_append.mp hnodup
    rw [adapterPosition_concat]
    by_cases h : last = adapter
    · subst h
      have hfresh : last ∉ order := fun hin => hnew last hin last (by simp) rfl
      rw [if_pos rfl, List.idxOf_append_of_notMem hfresh, List.idxOf_cons_self, Nat.add_zero]
    · have hin : adapter ∈ order := by
        rcases List.mem_append.mp hmem with hin | hlast
        · exact hin
        · exact absurd (List.mem_singleton.mp hlast).symm h
      rw [if_neg h, ih hinit hin, List.idxOf_append_of_mem hin]

end Policy

/-- What the policy prefers, smaller first: health, then the adapter's place in the policy, then whether a
delivery is acknowledged, then the endpoint id. -/
def preference (policy : RoutePolicy) (endpoint : EndpointDescriptorV1) : Nat ×ₗ Nat ×ₗ Nat ×ₗ String :=
  toLex (healthRank endpoint.health, toLex (policy.adapterOrder.idxOf endpoint.adapter,
    toLex (if endpoint.capabilities.supportsPositiveAck then 0 else 1, endpoint.endpointId)))

theorem rankKey_eq_preference {policy : RoutePolicy} {endpoint : EndpointDescriptorV1}
    (hnodup : policy.adapterOrder.Nodup) (hmem : endpoint.adapter ∈ policy.adapterOrder) :
    rankKey policy endpoint = preference policy endpoint := by
  rw [rankKey, preference, rank, adapterPosition_eq_idxOf hnodup hmem, Option.getD_some]

/-! ## The choice -/

section Choice

variable {policy : RoutePolicy} {rejection : EndpointDescriptorV1 → Option RouteRejectionReason}
variable {E : List EndpointDescriptorV1} {best : EndpointDescriptorV1}

theorem bestEligible_eq_none_iff :
    bestEligible policy rejection E = none ↔ ∀ e ∈ E, rejection e ≠ none := by
  rw [bestEligible, List.head?_eq_none_iff, ← List.length_eq_zero_iff, List.length_insertionSort,
    List.length_eq_zero_iff, List.filter_eq_nil_iff]
  simp

/-- Nothing eligible ranks before the choice. -/
theorem rankKey_bestEligible_le (h : bestEligible policy rejection E = some best)
    {e : EndpointDescriptorV1} (he : e ∈ E) (hnone : rejection e = none) :
    rankKey policy best ≤ rankKey policy e := by
  have hsorted := sortedBy_insertionSort (rankLe_iff policy) (E.filter fun e => (rejection e).isNone)
  have hmem : e ∈ (E.filter fun e => (rejection e).isNone).insertionSort
      fun left right => rankLe (rank policy left) (rank policy right) := by
    rw [List.mem_insertionSort, List.mem_filter]
    exact ⟨he, by simp [hnone]⟩
  obtain ⟨rest, hcons⟩ := List.head?_eq_some_iff.mp h
  rw [hcons] at hsorted hmem
  rcases List.mem_cons.mp hmem with rfl | hrest
  · exact le_rfl
  · exact (List.pairwise_cons.mp hsorted).1 e hrest

end Choice

/-! ## The rows -/

/-- The row of an endpoint: its rejection, or whether the decision names it. -/
def candidateRow (rejection : EndpointDescriptorV1 → Option RouteRejectionReason) (decision : RouteDecisionV1)
    (endpoint : EndpointDescriptorV1) : CandidateEvaluation where
  endpointId := endpoint.endpointId
  adapter := endpoint.adapter
  decision :=
    match rejection endpoint with
    | some reason => .rejected reason
    | none => if decision = .selected endpoint.endpointId endpoint.adapter then .selected else .eligibleNotSelected

/-- A row the decision does not name is the evaluation. -/
theorem candidateRow_eq_evaluation {rejection : EndpointDescriptorV1 → Option RouteRejectionReason}
    {decision : RouteDecisionV1} {endpoint : EndpointDescriptorV1}
    (h : decision ≠ .selected endpoint.endpointId endpoint.adapter) :
    candidateRow rejection decision endpoint = evaluation rejection endpoint := by
  unfold candidateRow evaluation
  cases rejection endpoint with
  | some reason => rfl
  | none => exact congrArg (CandidateEvaluation.mk _ _) (if_neg h)

/-- Of an id that stands once, the first row is the only one. -/
theorem markSelected_eq_map {id : String} {l : List CandidateEvaluation}
    (h : (l.map (·.endpointId)).count id ≤ 1) :
    markSelected id l = l.map fun e => if e.endpointId = id then { e with decision := .selected } else e := by
  induction l with
  | nil => rfl
  | cons e l ih =>
    rw [List.map_cons, List.count_cons] at h
    rw [markSelected, List.map_cons]
    by_cases heq : e.endpointId = id
    · -- the id does not come again, so the rest stays as it is
      have hrest : id ∉ l.map (·.endpointId) := by
        rw [← List.count_eq_zero]
        rw [heq, beq_self_eq_true, if_pos rfl] at h
        omega
      have hsame : l.map (fun e => if e.endpointId = id then { e with decision := .selected } else e) = l := by
        refine (List.map_congr_left fun x hx => ?_).trans (List.map_id l)
        exact if_neg fun hid => hrest (List.mem_map.mpr ⟨x, hx, hid⟩)
      rw [if_pos heq, if_pos heq, hsame]
    · have hcount : (l.map (·.endpointId)).count id ≤ 1 := le_trans (Nat.le_add_right _ _) h
      rw [if_neg heq, if_neg heq, ih hcount]

section Plan

variable {now : F64} {envelope : DeliveryEnvelopeV1} {target : DeliveryTarget} {policy : RoutePolicy}
variable {E : List EndpointDescriptorV1} {H : List DeliveryAttemptV1} {best e : EndpointDescriptorV1}
variable {used : List String} {required : Option String}
variable {accepted : List DeliveryAttemptV1 × Option String}

/-- The id of an eligible endpoint is not repeated. -/
theorem count_of_rejectCandidate_none (hmem : best ∈ E)
    (h : rejectCandidate now envelope target policy (duplicateEndpointIds E) used required best = none) :
    (E.map (·.endpointId)).count best.endpointId = 1 := by
  have hnotdup : ¬1 < (E.map (·.endpointId)).count best.endpointId := by
    rw [← mem_duplicateEndpointIds, ← List.contains_iff_mem]
    intro hdup
    rw [rejectCandidate_of_duplicate hdup] at h
    cases h
  have hpos : 0 < (E.map (·.endpointId)).count best.endpointId :=
    List.count_pos_iff.mpr (List.mem_map.mpr ⟨best, hmem, rfl⟩)
  omega

/-- An eligible endpoint is the only one of its id. -/
theorem eq_of_rejectCandidate_none (hmem : best ∈ E) (he : e ∈ E) (hid : e.endpointId = best.endpointId)
    (h : rejectCandidate now envelope target policy (duplicateEndpointIds E) used required best = none) :
    e = best := by
  by_contra hne
  have hdup := contains_duplicateEndpointIds hmem he (Ne.symm hne) hid.symm
  rw [rejectCandidate_of_duplicate hdup] at h
  cases h

/-- An eligible endpoint uses an adapter of the policy. -/
theorem adapter_of_rejectCandidate_none {dups : List String}
    (h : rejectCandidate now envelope target policy dups used required e = none) :
    e.adapter ∈ policy.adapterOrder := by
  have hcheck := List.findSome?_eq_none_iff.mp h
    (rejectIf (adapterPosition policy.adapterOrder e.adapter).isNone .adapterNotAllowed) (by simp)
  by_contra hnot
  rw [adapterPosition_isNone_iff.mpr hnot] at hcheck
  cases hcheck

/-- What the ranking of an accepted history decides. -/
theorem rankedPlan_decision :
    (rankedPlan now envelope target E policy accepted).decision =
      match bestEligible policy (rejectCandidate now envelope target policy (duplicateEndpointIds E)
        (usedEndpoints accepted.2 accepted.1) accepted.2) (E.insertionSort endpointLe) with
      | some best => .selected best.endpointId best.adapter
      | none => .queued .noEligibleEndpoint := by
  unfold rankedPlan
  dsimp only
  cases bestEligible policy (rejectCandidate now envelope target policy (duplicateEndpointIds E)
    (usedEndpoints accepted.2 accepted.1) accepted.2) (E.insertionSort endpointLe) with
  | none => rfl
  | some best => rfl

/-- **Every endpoint is reported once,** under its rejection or under what the decision makes of it. -/
theorem rankedPlan_candidates_perm :
    (rankedPlan now envelope target E policy accepted).candidates.Perm
      (E.map (candidateRow (rejectCandidate now envelope target policy (duplicateEndpointIds E)
        (usedEndpoints accepted.2 accepted.1) accepted.2)
          (rankedPlan now envelope target E policy accepted).decision)) := by
  have hordered : (E.insertionSort endpointLe).Perm E := List.perm_insertionSort _ E
  refine List.Perm.trans (List.Perm.of_eq ?_) (hordered.map _)
  rw [rankedPlan_decision]
  unfold rankedPlan
  dsimp only
  cases hbest : bestEligible policy (rejectCandidate now envelope target policy (duplicateEndpointIds E)
    (usedEndpoints accepted.2 accepted.1) accepted.2) (E.insertionSort endpointLe) with
  | some best =>
    dsimp only
    obtain ⟨hmem, hnone⟩ := bestEligible_spec hbest
    rw [hordered.mem_iff] at hmem
    have honce : (((E.insertionSort endpointLe).map (evaluation (rejectCandidate now envelope target policy
        (duplicateEndpointIds E) (usedEndpoints accepted.2 accepted.1) accepted.2))).map (·.endpointId)).count
          best.endpointId ≤ 1 := by
      rw [List.map_map]
      exact ((hordered.map (·.endpointId)).count_eq _).trans_le (count_of_rejectCandidate_none hmem hnone).le
    rw [markSelected_eq_map honce, List.map_map]
    refine List.map_congr_left fun e he => ?_
    rw [hordered.mem_iff] at he
    by_cases hid : e.endpointId = best.endpointId
    · obtain rfl := eq_of_rejectCandidate_none hmem he hid hnone
      simp [evaluation, candidateRow, hnone]
    · have hother : RouteDecisionV1.selected best.endpointId best.adapter ≠ .selected e.endpointId e.adapter :=
        fun h => hid (RouteDecisionV1.selected.inj h).1.symm
      rw [candidateRow_eq_evaluation hother]
      exact if_neg hid
  | none =>
    dsimp only
    refine List.map_congr_left fun e _ => ?_
    rw [candidateRow_eq_evaluation (by simp)]

/-- **The planner selects the best eligible endpoint:** it selects exactly when something is eligible, the
selected endpoint is the one the policy prefers, and the candidate list is the input endpoints, each once, the
rejected ones with their reason and exactly one of the others as selected. -/
theorem plan_selects_best (hrequest : checkRequest now envelope target = .ok ())
    (hread : readHistory (envelope.eventId.getD "") (envelope.deliveryDedupeKey.getD "") H = .ok accepted)
    (horder : policy.adapterOrder.Nodup) :
    let rejection := rejectCandidate now envelope target policy (duplicateEndpointIds E)
      (usedEndpoints accepted.2 accepted.1) accepted.2
    let p := plan now envelope target E policy H
    ((∃ id adapter, p.decision = .selected id adapter) ↔ ∃ e ∈ E, rejection e = none) ∧
      (∀ id adapter, p.decision = .selected id adapter →
        (∃ best ∈ E, best.endpointId = id ∧ best.adapter = adapter ∧ rejection best = none ∧
          ∀ e ∈ E, rejection e = none → preference policy best ≤ preference policy e) ∧
        p.candidates.countP (fun c => c.decision = .selected) = 1) ∧
      p.candidates.Perm (E.map (candidateRow rejection p.decision)) := by
  intro rejection p
  have hp : p = rankedPlan now envelope target E policy accepted := plan_of_accepted hrequest hread
  have hrows : p.candidates.Perm (E.map (candidateRow rejection p.decision)) := by
    rw [hp]
    exact rankedPlan_candidates_perm
  have hordered : (E.insertionSort endpointLe).Perm E := List.perm_insertionSort _ E
  have hdecision := @rankedPlan_decision now envelope target policy E accepted
  rw [← hp] at hdecision
  refine ⟨?_, ?_, hrows⟩
  · cases hbest : bestEligible policy rejection (E.insertionSort endpointLe) with
    | none =>
      rw [hbest] at hdecision
      have hall := bestEligible_eq_none_iff.mp hbest
      constructor
      · rintro ⟨id, adapter, h⟩
        rw [hdecision] at h
        cases h
      · rintro ⟨e, he, hnone⟩
        exact absurd hnone (hall e (hordered.mem_iff.mpr he))
    | some best =>
      rw [hbest] at hdecision
      obtain ⟨hmem, hnone⟩ := bestEligible_spec hbest
      exact iff_of_true ⟨_, _, hdecision⟩ ⟨best, hordered.mem_iff.mp hmem, hnone⟩
  · intro id adapter hselected
    cases hbest : bestEligible policy rejection (E.insertionSort endpointLe) with
    | none =>
      rw [hdecision, hbest] at hselected
      cases hselected
    | some best =>
      rw [hbest] at hdecision
      obtain ⟨rfl, rfl⟩ := RouteDecisionV1.selected.inj (hselected.symm.trans hdecision)
      obtain ⟨hin, hnone⟩ := bestEligible_spec hbest
      have hmem : best ∈ E := hordered.mem_iff.mp hin
      have hprefers : ∀ e ∈ E, rejection e = none → preference policy best ≤ preference policy e := by
        intro e he hfree
        rw [← rankKey_eq_preference horder (adapter_of_rejectCandidate_none hnone),
          ← rankKey_eq_preference horder (adapter_of_rejectCandidate_none hfree)]
        exact rankKey_bestEligible_le hbest (hordered.mem_iff.mpr he) hfree
      refine ⟨⟨best, hmem, rfl, rfl, hnone, hprefers⟩, ?_⟩
      -- the selected row is that of the id, which stands once
      have hmarked : ∀ e ∈ E, (candidateRow rejection p.decision e).decision = .selected ↔
          e.endpointId = best.endpointId := by
        intro e he
        constructor
        · intro h
          cases hreason : rejection e with
          | some reason => simp [candidateRow, hreason] at h
          | none =>
            by_contra hid
            have hother : p.decision ≠ .selected e.endpointId e.adapter := fun heq =>
              hid (RouteDecisionV1.selected.inj (heq.symm.trans hdecision)).1
            simp [candidateRow, hreason, hother] at h
        · intro hid
          obtain rfl := eq_of_rejectCandidate_none hmem he hid hnone
          simp [candidateRow, hnone, hdecision]
      rw [hrows.countP_eq, List.countP_map, ← count_of_rejectCandidate_none hmem hnone, List.count,
        List.countP_map]
      refine List.countP_congr fun e he => ?_
      simpa using hmarked e he

end Plan

namespace DeliverySample

/-- The same session over an adapter the policy lists later. -/
def overTmux : EndpointDescriptorV1 := { endpoint with endpointId := "native-b", adapter := ⟨"tmux"⟩ }

end DeliverySample

open DeliverySample

theorem plan_selects_best_codex :
    (∃ id adapter, (plan (.finite 100) envelope target [overTmux, endpoint] {} []).decision =
        .selected id adapter) ∧
      (plan (.finite 100) envelope target [overTmux, endpoint] {} []).candidates.Perm
        [⟨"native-b", ⟨"tmux"⟩, .eligibleNotSelected⟩, ⟨"native-a", ⟨"codex-app-server"⟩, .selected⟩] := by
  have h := @plan_selects_best (.finite 100) envelope target {} [overTmux, endpoint] [] ([], none) (by decide)
    (by decide) (by decide)
  exact ⟨h.1.mpr ⟨endpoint, by decide, by decide⟩, h.2.2.trans (.of_eq (by decide))⟩

end RallyPoint
