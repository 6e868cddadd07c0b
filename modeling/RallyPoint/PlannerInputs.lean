/-
# RallyPoint.PlannerInputs — which attempts the planner reads, and what it takes from the order of its inputs.

Both inputs of the planner are sorted before they are read, the attempts by number and id, the endpoints by
id and adapter. Neither order is total on the rows. For the attempts this never shows: a tie is refused, and
the refusal names the id that the tied rows share (`readHistory_congr`). For the endpoints it can show in the
candidate list: two endpoints of one id and one adapter are both refused, but a check made before the
duplicate check may refuse them for different reasons, which are then reported in input order
(`plan_perm_iff`).

The attempts of another logical delivery are not read unless they are of the same event, and then they hold
the plan (`plan_foreign_attempts`).
-/
import Mathlib.Data.Prod.Lex
import RallyPoint.DeliveryRuns
import RallyPoint.Lib.StableSort

namespace RallyPoint

open Lib

/-! ## The order of the attempts -/

/-- What an attempt is sorted by. -/
def attemptKey (attempt : DeliveryAttemptV1) : Nat ×ₗ String :=
  toLex (attempt.attemptNumber, attempt.attemptId)

theorem attemptLe_iff (a b : DeliveryAttemptV1) : attemptLe a b ↔ attemptKey a ≤ attemptKey b := by
  rw [attemptKey, attemptKey, Prod.Lex.toLex_le_toLex]
  rfl

theorem attemptKey_eq_iff {a b : DeliveryAttemptV1} :
    attemptKey a = attemptKey b ↔ a.attemptNumber = b.attemptNumber ∧ a.attemptId = b.attemptId :=
  toLex_inj.trans Prod.ext_iff

section Attempts

variable {i : Nat} {nums : List Nat} {ids : List String} {req : Option String}
variable {a a' b : DeliveryAttemptV1} {t l l' : List DeliveryAttemptV1}

/-- Two attempts of one number and id in a row are refused, by whichever of them the refusal names. -/
theorem checkHistory_tied (hkey : attemptKey b = attemptKey a) :
    checkHistory i nums ids req (a :: b :: t) = .error (.invalidAttemptHistory a.attemptId) := by
  obtain ⟨hnum, hid⟩ := attemptKey_eq_iff.mp hkey
  rw [checkHistory]
  split
  · rfl
  · split
    · rfl
    · split
      · rfl
      · -- the first was let through, so the second repeats its number
        rw [checkHistory, if_pos (by simp [hnum]), hid]

/-- **Two sorted readings of the same attempts** are one list, or both are refused with one id. -/
theorem checkHistory_perm_cases (hperm : l.Perm l') (hl : SortedBy attemptKey l)
    (hl' : SortedBy attemptKey l') :
    l = l' ∨ ∃ id, checkHistory i nums ids req l = .error (.invalidAttemptHistory id) ∧
      checkHistory i nums ids req l' = .error (.invalidAttemptHistory id) := by
  induction l generalizing l' i nums ids req with
  | nil => exact .inl hperm.nil_eq
  | cons a t ih =>
    cases l' with
    | nil => exact absurd hperm.length_eq (by simp)
    | cons a' t' =>
      have hkeys : attemptKey a = attemptKey a' :=
        (List.cons.inj (map_key_eq_of_perm_of_sorted hperm hl hl')).1
      by_cases haa : a = a'
      · subst haa
        have htail : t.Perm t' := hperm.cons_inv
        rcases @ih (i + 1) (a.attemptNumber :: nums) (a.attemptId :: ids) (nextRetryEndpoint req a) t' htail
          hl.of_cons hl'.of_cons with rfl | ⟨id, h, h'⟩
        · exact .inl rfl
        · have hempty : t.isEmpty = t'.isEmpty := by
            rw [Bool.eq_iff_iff, List.isEmpty_iff, List.isEmpty_iff]
            constructor
            · rintro rfl
              exact htail.nil_eq.symm
            · rintro rfl
              exact htail.symm.nil_eq.symm
          right
          rw [checkHistory, checkHistory, h, h', hempty]
          split
          · exact ⟨a.attemptId, rfl, rfl⟩
          · split
            · exact ⟨a.attemptId, rfl, rfl⟩
            · split
              · exact ⟨a.attemptId, rfl, rfl⟩
              · exact ⟨id, rfl, rfl⟩
      · -- different attempts at one place: each list holds both, tied, at its head
        have hmem : a' ∈ t := (List.mem_cons.mp (hperm.mem_iff.mpr List.mem_cons_self)).resolve_left
          (Ne.symm haa)
        have hmem' : a ∈ t' := (List.mem_cons.mp (hperm.mem_iff.mp List.mem_cons_self)).resolve_left haa
        obtain ⟨b, s, rfl, hb⟩ := hl.exists_tied hmem hkeys.symm
        obtain ⟨b', s', rfl, hb'⟩ := hl'.exists_tied hmem' hkeys
        refine .inr ⟨a.attemptId, checkHistory_tied hb, ?_⟩
        rw [checkHistory_tied hb', (attemptKey_eq_iff.mp hkeys).2]

/-- An attempt that names the event or the dedupe key of the request; the others are not read. -/
def namesDelivery (eventId dedupeKey : String) (attempt : DeliveryAttemptV1) : Bool :=
  attempt.eventId == eventId || attempt.deliveryDedupeKey == dedupeKey

theorem namesDelivery_of_invalidIdentity {eventId dedupeKey : String}
    (h : invalidIdentity eventId dedupeKey a = true) : namesDelivery eventId dedupeKey a = true := by
  unfold invalidIdentity invalidMatchingAttempt at h
  unfold namesDelivery
  cases hevent : a.eventId == eventId <;> cases hkey : a.deliveryDedupeKey == dedupeKey <;> simp_all

/-- **The history stage reads the attempts that name the delivery, and not their order.** -/
theorem readHistory_congr {eventId dedupeKey : String} {prior prior' : List DeliveryAttemptV1}
    (h : (prior.filter (namesDelivery eventId dedupeKey)).Perm
      (prior'.filter (namesDelivery eventId dedupeKey))) :
    readHistory eventId dedupeKey prior = readHistory eventId dedupeKey prior' := by
  have hsorted := sortedBy_insertionSort attemptLe_iff prior
  have hsorted' := sortedBy_insertionSort attemptLe_iff prior'
  have hnames : ((prior.insertionSort attemptLe).filter (namesDelivery eventId dedupeKey)).Perm
      ((prior'.insertionSort attemptLe).filter (namesDelivery eventId dedupeKey)) :=
    ((List.perm_insertionSort attemptLe prior).filter _).trans
      (h.trans ((List.perm_insertionSort attemptLe prior').filter _).symm)
  unfold readHistory
  generalize prior.insertionSort attemptLe = l at *
  generalize prior'.insertionSort attemptLe = l' at *
  -- whatever only such attempts pass is passed by the same attempts of both lists
  have hfilter : ∀ p : DeliveryAttemptV1 → Bool,
      (∀ x, p x = true → namesDelivery eventId dedupeKey x = true) → (l.filter p).Perm (l'.filter p) := by
    intro p hp
    have hsame : ∀ s : List DeliveryAttemptV1,
        (s.filter (namesDelivery eventId dedupeKey)).filter p = s.filter p := by
      intro s
      rw [List.filter_filter]
      refine List.filter_congr fun x _ => ?_
      cases hpx : p x with
      | false => rfl
      | true => rw [hp x hpx, Bool.and_self]
    rw [← hsame l, ← hsame l']
    exact hnames.filter p
  have hmatching : (matchingAttempts eventId dedupeKey l).Perm (matchingAttempts eventId dedupeKey l') := by
    refine hfilter _ fun x hx => ?_
    rw [namesDelivery, (Bool.and_eq_true_iff.mp hx).1, Bool.true_or]
  have hfind : (l.find? (invalidIdentity eventId dedupeKey)).map attemptKey =
      (l'.find? (invalidIdentity eventId dedupeKey)).map attemptKey :=
    find?_key_eq_of_filter_perm (hfilter _ fun _ => namesDelivery_of_invalidIdentity) hsorted hsorted'
  dsimp only
  cases hbad : l.find? (invalidIdentity eventId dedupeKey) with
  | some x =>
    rw [hbad, Option.map_some] at hfind
    obtain ⟨x', hx', hkey⟩ := Option.map_eq_some_iff.mp hfind.symm
    rw [hx']
    simp only [(attemptKey_eq_iff.mp hkey).2]
  | none =>
    rw [hbad, Option.map_none] at hfind
    rw [Option.map_eq_none_iff.mp hfind.symm]
    have hcases := @checkHistory_perm_cases 0 [] [] none _ _ hmatching (hsorted.filter _) (hsorted'.filter _)
    rcases hcases with heq | ⟨id, h, h'⟩
    · rw [heq]
    · rw [h, h']

end Attempts

/-! ## The order of the endpoints -/

/-- What an endpoint is sorted by. -/
def endpointKey (endpoint : EndpointDescriptorV1) : String ×ₗ String :=
  toLex (endpoint.endpointId, endpoint.adapter.name)

theorem endpointLe_iff (a b : EndpointDescriptorV1) : endpointLe a b ↔ endpointKey a ≤ endpointKey b := by
  rw [endpointKey, endpointKey, Prod.Lex.toLex_le_toLex]
  rfl

theorem endpointKey_eq_iff {a b : EndpointDescriptorV1} :
    endpointKey a = endpointKey b ↔ a.endpointId = b.endpointId ∧ a.adapter = b.adapter := by
  rw [endpointKey, endpointKey, toLex_inj, Prod.ext_iff]
  refine and_congr_right fun _ => ⟨fun h => ?_, congrArg AdapterKind.name⟩
  exact congrArg AdapterKind.mk h

/-- The rank of an eligible endpoint as one ordered value. -/
def rankKey (policy : RoutePolicy) (endpoint : EndpointDescriptorV1) : Nat ×ₗ Nat ×ₗ Nat ×ₗ String :=
  let r := rank policy endpoint
  toLex (r.1, toLex (r.2.1, toLex (r.2.2.1, r.2.2.2)))

theorem rankLe_iff (policy : RoutePolicy) (a b : EndpointDescriptorV1) :
    rankLe (rank policy a) (rank policy b) ↔ rankKey policy a ≤ rankKey policy b := by
  rw [rankKey, rankKey, Prod.Lex.toLex_le_toLex, Prod.Lex.toLex_le_toLex, Prod.Lex.toLex_le_toLex]
  rfl

theorem endpointId_eq_of_rankKey {policy : RoutePolicy} {a b : EndpointDescriptorV1}
    (h : rankKey policy a = rankKey policy b) : a.endpointId = b.endpointId := by
  simp only [rankKey, rank, toLex_inj, Prod.mk.injEq] at h
  exact h.2.2.2

section Endpoints

variable {E E' : List EndpointDescriptorV1} {a b : EndpointDescriptorV1}

theorem mem_duplicateEndpointIds {id : String} :
    id ∈ duplicateEndpointIds E ↔ 1 < (E.map (·.endpointId)).count id := by
  unfold duplicateEndpointIds
  rw [List.mem_filter, decide_eq_true_iff, and_iff_right_iff_imp]
  intro h
  exact List.count_pos_iff.mp (Nat.zero_lt_of_lt h)

theorem contains_duplicateEndpointIds_perm (h : E.Perm E') (id : String) :
    (duplicateEndpointIds E).contains id = (duplicateEndpointIds E').contains id := by
  rw [Bool.eq_iff_iff, List.contains_iff_mem, List.contains_iff_mem, mem_duplicateEndpointIds,
    mem_duplicateEndpointIds, (h.map _).count_eq]

/-- Two endpoints of a list can be moved to its front. -/
theorem exists_perm_cons_cons (ha : a ∈ E) (hb : b ∈ E) (hne : a ≠ b) : ∃ rest, E.Perm (a :: b :: rest) := by
  have hb' : b ∈ E.erase a := (List.mem_erase_of_ne hne.symm).mpr hb
  exact ⟨(E.erase a).erase b, (List.perm_cons_erase ha).trans ((List.perm_cons_erase hb').cons a)⟩

/-- Two endpoints of one id make the id a duplicate. -/
theorem contains_duplicateEndpointIds (ha : a ∈ E) (hb : b ∈ E) (hne : a ≠ b)
    (hid : a.endpointId = b.endpointId) : (duplicateEndpointIds E).contains a.endpointId = true := by
  obtain ⟨rest, hperm⟩ := exists_perm_cons_cons ha hb hne
  rw [contains_duplicateEndpointIds_perm hperm, List.contains_iff_mem, mem_duplicateEndpointIds]
  simp [hid]

/-! ## The checks before the duplicate check -/

/-- The checks of `rejectCandidate` that come before the duplicate check, which is its eighth. -/
def earlyChecks (target : DeliveryTarget) (endpoint : EndpointDescriptorV1) :
    List (Option RouteRejectionReason) :=
  [rejectIf (endpoint.endpointSchema != endpointSchemaV1) (.unsupportedEndpointSchema endpoint.endpointSchema),
    rejectIf (isBlank endpoint.endpointId) .emptyEndpointId,
    rejectIf (!endpoint.observedAt.isFinite || !endpoint.expiresAt.isFinite) .invalidObservationTime,
    rejectIf (endpoint.repositoryId != target.repositoryId) .repositoryMismatch,
    rejectIf (endpoint.agentId != target.agentId) .recipientMismatch,
    rejectIf (endpoint.sessionId != target.sessionId) .sessionMismatch,
    rejectIf (target.pinnedEndpointId.any (· != endpoint.endpointId)) .pinnedEndpointMismatch]

/-- The first early check that refuses the endpoint. -/
def earlyRejection (target : DeliveryTarget) (endpoint : EndpointDescriptorV1) :
    Option RouteRejectionReason :=
  (earlyChecks target endpoint).findSome? id

theorem rejectIf_eq_some {condition : Bool} {reason r : RouteRejectionReason}
    (h : rejectIf condition reason = some r) : reason = r := by
  unfold rejectIf at h
  split at h
  · exact Option.some.inj h
  · cases h

theorem earlyRejection_ne_duplicate (target : DeliveryTarget) (endpoint : EndpointDescriptorV1) :
    earlyRejection target endpoint ≠ some .duplicateEndpointId := by
  intro h
  obtain ⟨check, hmem, hcheck⟩ := List.exists_of_findSome?_eq_some h
  simp only [earlyChecks, List.mem_cons, List.not_mem_nil, or_false] at hmem
  rcases hmem with rfl | rfl | rfl | rfl | rfl | rfl | rfl <;> cases rejectIf_eq_some hcheck

variable {now : F64} {envelope : DeliveryEnvelopeV1} {target : DeliveryTarget} {policy : RoutePolicy}
variable {used : List String} {required : Option String}

/-- **An endpoint of a repeated id** is refused, by an early check or as a duplicate. -/
theorem rejectCandidate_of_duplicate {dups : List String} (h : dups.contains a.endpointId = true) :
    rejectCandidate now envelope target policy dups used required a =
      some ((earlyRejection target a).getD .duplicateEndpointId) := by
  have hsplit : ∀ late, (earlyChecks target a ++ some RouteRejectionReason.duplicateEndpointId :: late).findSome? id =
      some ((earlyRejection target a).getD .duplicateEndpointId) := by
    intro late
    rw [List.findSome?_append, ← earlyRejection]
    simp [Option.or_some]
  unfold rejectCandidate
  rw [h]
  exact hsplit _

/-- Endpoints of a repeated id that are refused alike are treated alike by the early checks. -/
theorem earlyRejection_eq_of_getD
    (h : (earlyRejection target a).getD .duplicateEndpointId = (earlyRejection target b).getD .duplicateEndpointId) :
    earlyRejection target a = earlyRejection target b := by
  have hnea := earlyRejection_ne_duplicate target a
  have hneb := earlyRejection_ne_duplicate target b
  cases hra : earlyRejection target a with
  | none =>
    cases hrb : earlyRejection target b with
    | none => rfl
    | some _ =>
      rw [hra, hrb, Option.getD_none, Option.getD_some] at h
      exact absurd (h ▸ hrb) hneb
  | some _ =>
    cases hrb : earlyRejection target b with
    | none =>
      rw [hra, hrb, Option.getD_none, Option.getD_some] at h
      exact absurd (h ▸ hra) hnea
    | some _ =>
      rw [hra, hrb, Option.getD_some, Option.getD_some] at h
      exact congrArg some h

/-- Without ties among the eligible endpoints the best one does not depend on the order they come in. -/
theorem bestEligible_perm {rejection : EndpointDescriptorV1 → Option RouteRejectionReason} (h : E.Perm E')
    (hinj : ∀ a ∈ E, ∀ b ∈ E, rejection a = none → rejection b = none → a.endpointId = b.endpointId → a = b) :
    bestEligible policy rejection E = bestEligible policy rejection E' := by
  have hsorted := fun l : List EndpointDescriptorV1 => sortedBy_insertionSort (rankLe_iff policy) l
  have hperm := fun l : List EndpointDescriptorV1 =>
    List.perm_insertionSort (fun left right => rankLe (rank policy left) (rank policy right)) l
  unfold bestEligible
  refine congrArg List.head? (eq_of_perm_of_sorted ?_ (hsorted _) (hsorted _) ?_)
  · exact (hperm _).trans ((h.filter _).trans (hperm _).symm)
  · intro a ha b hb hkey
    rw [List.mem_insertionSort, List.mem_filter, Option.isNone_iff_eq_none] at ha hb
    exact hinj a ha.1 b hb.1 ha.2 hb.2 (endpointId_eq_of_rankKey hkey)

end Endpoints

/-! ## The candidates of one id and one adapter -/

/-- The rows of one id and one adapter. -/
def sameRow (endpointId : String) (adapter : AdapterKind) (e : CandidateEvaluation) : Bool :=
  e.endpointId == endpointId && e.adapter == adapter

theorem markSelected_filter_sameRow {id endpointId : String} {adapter : AdapterKind} (hne : endpointId ≠ id)
    (l : List CandidateEvaluation) :
    (markSelected id l).filter (sameRow endpointId adapter) = l.filter (sameRow endpointId adapter) := by
  induction l with
  | nil => rfl
  | cons e l ih =>
    rw [markSelected]
    split
    case isTrue hid =>
      have hout : ∀ d, sameRow endpointId adapter { e with decision := d } = false := by
        intro d
        simp [sameRow, hid, hne.symm]
      rw [List.filter_cons_of_neg (by simp [hout]), List.filter_cons_of_neg (by simp [hout e.decision])]
    case isFalse =>
      rw [List.filter_cons, List.filter_cons, ih]

section Plan

variable {now : F64} {envelope : DeliveryEnvelopeV1} {target : DeliveryTarget} {policy : RoutePolicy}
variable {E E' : List EndpointDescriptorV1} {H H' : List DeliveryAttemptV1}

/-- The request and the attempt history pass every check before the endpoints are looked at. -/
def ReachesRanking (now : F64) (envelope : DeliveryEnvelopeV1) (target : DeliveryTarget)
    (priorAttempts : List DeliveryAttemptV1) : Prop :=
  checkRequest now envelope target = .ok () ∧
    ∃ accepted, readHistory (envelope.eventId.getD "") (envelope.deliveryDedupeKey.getD "") priorAttempts =
      .ok accepted

/-- Endpoints of one id and one adapter are treated alike by the checks before the duplicate check. -/
def TiedAlike (target : DeliveryTarget) (endpoints : List EndpointDescriptorV1) : Prop :=
  ∀ a ∈ endpoints, ∀ b ∈ endpoints, a.endpointId = b.endpointId → a.adapter = b.adapter →
    earlyRejection target a = earlyRejection target b

/-- The plan once the history is accepted: the ranking of the endpoints. -/
def rankedPlan (now : F64) (envelope : DeliveryEnvelopeV1) (target : DeliveryTarget)
    (endpoints : List EndpointDescriptorV1) (policy : RoutePolicy)
    (accepted : List DeliveryAttemptV1 × Option String) : RoutePlanV1 :=
  let rejection := rejectCandidate now envelope target policy (duplicateEndpointIds endpoints)
    (usedEndpoints accepted.2 accepted.1) accepted.2
  let ordered := endpoints.insertionSort endpointLe
  match bestEligible policy rejection ordered with
  | some endpoint =>
    { eventId := envelope.eventId.getD "", deliveryDedupeKey := envelope.deliveryDedupeKey.getD ""
      target := target, decision := .selected endpoint.endpointId endpoint.adapter
      candidates := markSelected endpoint.endpointId (ordered.map (evaluation rejection)) }
  | none =>
    { eventId := envelope.eventId.getD "", deliveryDedupeKey := envelope.deliveryDedupeKey.getD ""
      target := target, decision := .queued .noEligibleEndpoint
      candidates := ordered.map (evaluation rejection) }

theorem plan_of_request_error {reason : RouteHoldReason} (h : checkRequest now envelope target = .error reason) :
    plan now envelope target E policy H = .held envelope target (.queued reason) := by
  rw [plan, h]

theorem plan_of_history_error {decision : RouteDecisionV1} (h : checkRequest now envelope target = .ok ())
    (hread : readHistory (envelope.eventId.getD "") (envelope.deliveryDedupeKey.getD "") H = .error decision) :
    plan now envelope target E policy H = .held envelope target decision := by
  rw [plan, h]
  dsimp only
  rw [hread]

theorem plan_of_accepted {accepted : List DeliveryAttemptV1 × Option String}
    (h : checkRequest now envelope target = .ok ())
    (hread : readHistory (envelope.eventId.getD "") (envelope.deliveryDedupeKey.getD "") H = .ok accepted) :
    plan now envelope target E policy H = rankedPlan now envelope target E policy accepted := by
  rw [plan, h]
  dsimp only
  rw [hread]
  rfl

/-- A plan that stops early does not look at the endpoints. -/
theorem plan_of_not_reachesRanking (h : ¬ReachesRanking now envelope target H) :
    plan now envelope target E policy H = plan now envelope target E' policy H := by
  cases hrequest : checkRequest now envelope target with
  | error _ => rw [plan_of_request_error hrequest, plan_of_request_error hrequest]
  | ok _ =>
    cases hread : readHistory (envelope.eventId.getD "") (envelope.deliveryDedupeKey.getD "") H with
    | error _ => rw [plan_of_history_error hrequest hread, plan_of_history_error hrequest hread]
    | ok accepted => exact absurd ⟨hrequest, accepted, hread⟩ h

theorem plan_perm_history (h : H.Perm H') :
    plan now envelope target E policy H = plan now envelope target E policy H' := by
  unfold plan
  simp only [readHistory_congr (h.filter _)]

/-- Where tied endpoints are treated alike, the order of the endpoints does not show. -/
theorem rankedPlan_perm {accepted : List DeliveryAttemptV1 × Option String} (h : E.Perm E')
    (htied : TiedAlike target E) :
    rankedPlan now envelope target E policy accepted = rankedPlan now envelope target E' policy accepted := by
  have hreject : rejectCandidate now envelope target policy (duplicateEndpointIds E)
      (usedEndpoints accepted.2 accepted.1) accepted.2 = rejectCandidate now envelope target policy
        (duplicateEndpointIds E') (usedEndpoints accepted.2 accepted.1) accepted.2 := by
    funext endpoint
    unfold rejectCandidate
    rw [contains_duplicateEndpointIds_perm h]
  have hordered : (E.insertionSort endpointLe).Perm (E'.insertionSort endpointLe) :=
    (List.perm_insertionSort _ E).trans (h.trans (List.perm_insertionSort _ E').symm)
  -- an eligible endpoint is the only one of its id
  have hbest : bestEligible policy (rejectCandidate now envelope target policy (duplicateEndpointIds E)
      (usedEndpoints accepted.2 accepted.1) accepted.2) (E.insertionSort endpointLe) =
        bestEligible policy (rejectCandidate now envelope target policy (duplicateEndpointIds E)
          (usedEndpoints accepted.2 accepted.1) accepted.2) (E'.insertionSort endpointLe) := by
    refine bestEligible_perm hordered fun a ha b hb hra _ hid => ?_
    rw [List.mem_insertionSort] at ha hb
    by_contra hne
    rw [rejectCandidate_of_duplicate (contains_duplicateEndpointIds ha hb hne hid)] at hra
    cases hra
  have hrows : (E.insertionSort endpointLe).map (evaluation (rejectCandidate now envelope target policy
      (duplicateEndpointIds E) (usedEndpoints accepted.2 accepted.1) accepted.2)) =
        (E'.insertionSort endpointLe).map (evaluation (rejectCandidate now envelope target policy
          (duplicateEndpointIds E) (usedEndpoints accepted.2 accepted.1) accepted.2)) := by
    refine map_eq_of_perm_of_sorted hordered (sortedBy_insertionSort endpointLe_iff E)
      (sortedBy_insertionSort endpointLe_iff E') fun a ha b hb hkey => ?_
    rw [List.mem_insertionSort] at ha hb
    obtain ⟨hid, hadapter⟩ := endpointKey_eq_iff.mp hkey
    by_cases hne : a = b
    · rw [hne]
    · have hdup := contains_duplicateEndpointIds ha hb hne hid
      have hearly := htied a ha b hb hid hadapter
      rw [evaluation, evaluation, rejectCandidate_of_duplicate hdup,
        rejectCandidate_of_duplicate (hid ▸ hdup), hearly, hid, hadapter]
  unfold rankedPlan
  dsimp only
  rw [← hreject, hbest, hrows]

/-- The candidates of a repeated id and one adapter stand in input order, each with its own refusal. -/
theorem rankedPlan_filter_sameRow {accepted : List DeliveryAttemptV1 × Option String} {id : String}
    {adapter : AdapterKind} (hdup : (duplicateEndpointIds E).contains id = true) :
    (rankedPlan now envelope target E policy accepted).candidates.filter (sameRow id adapter) =
      (E.filter fun e => e.endpointId == id && e.adapter == adapter).map
        (evaluation (rejectCandidate now envelope target policy (duplicateEndpointIds E)
          (usedEndpoints accepted.2 accepted.1) accepted.2)) := by
  have hclass : (E.insertionSort endpointLe).filter (fun e => e.endpointId == id && e.adapter == adapter) =
      E.filter fun e => e.endpointId == id && e.adapter == adapter := by
    refine filter_insertionSort_class (fun a b ha hb => ?_) E
    simp only [Bool.and_eq_true, beq_iff_eq] at ha hb
    exact .inr ⟨ha.1.trans hb.1.symm, by rw [ha.2, hb.2]⟩
  rw [← hclass]
  unfold rankedPlan
  dsimp only
  split
  case _ best hbest =>
    -- the selected endpoint is not one of the repeated id
    have hne : id ≠ best.endpointId := by
      rintro rfl
      have hnone := (bestEligible_spec hbest).2
      rw [rejectCandidate_of_duplicate hdup] at hnone
      cases hnone
    rw [markSelected_filter_sameRow hne, List.filter_map]
    rfl
  case _ =>
    rw [List.filter_map]
    rfl

/-- **The order of the inputs does not show** in the plan exactly when the planner stops before the
endpoints or treats endpoints of one id and one adapter alike before it looks for duplicates. -/
theorem plan_perm_iff :
    (∀ E' H', E'.Perm E → H'.Perm H →
      plan now envelope target E' policy H' = plan now envelope target E policy H) ↔
      (ReachesRanking now envelope target H → TiedAlike target E) := by
  constructor
  · rintro hall ⟨hrequest, accepted, hread⟩ a ha b hb hid hadapter
    by_cases hne : a = b
    · rw [hne]
    · -- bring the two to the front in both orders and compare the first row of their id and adapter
      obtain ⟨rest, hperm⟩ := exists_perm_cons_cons ha hb hne
      have hswap : (b :: a :: rest).Perm E := (List.Perm.swap a b rest).trans hperm.symm
      have hsame := (hall _ H hperm.symm (.refl H)).trans (hall _ H hswap (.refl H)).symm
      rw [plan_of_accepted hrequest hread, plan_of_accepted hrequest hread] at hsame
      have hdup : (duplicateEndpointIds (a :: b :: rest)).contains a.endpointId = true :=
        contains_duplicateEndpointIds List.mem_cons_self (by simp) hne hid
      have hdup' := hdup
      rw [contains_duplicateEndpointIds_perm (List.Perm.swap b a rest)] at hdup'
      have hrows := congrArg (fun p => p.candidates.filter (sameRow a.endpointId a.adapter)) hsame
      have hclass : (b.endpointId == a.endpointId && b.adapter == a.adapter) = true := by simp [hid, hadapter]
      have hclass' : (a.endpointId == a.endpointId && a.adapter == a.adapter) = true := by simp
      simp only [rankedPlan_filter_sameRow hdup, rankedPlan_filter_sameRow hdup', List.filter_cons, hclass,
        hclass', if_true, List.map_cons] at hrows
      have hdecision := congrArg CandidateEvaluation.decision (List.cons.inj hrows).1
      simp only [evaluation, rejectCandidate_of_duplicate hdup, rejectCandidate_of_duplicate (hid ▸ hdup'),
        CandidateDecision.rejected.injEq] at hdecision
      exact earlyRejection_eq_of_getD hdecision
  · intro htied E' H' hE hH
    rw [plan_perm_history hH]
    by_cases hreach : ReachesRanking now envelope target H
    · obtain ⟨hrequest, accepted, hread⟩ := id hreach
      rw [plan_of_accepted hrequest hread, plan_of_accepted hrequest hread]
      exact (rankedPlan_perm hE.symm (htied hreach)).symm
    · exact plan_of_not_reachesRanking hreach

end Plan

namespace DeliverySample

/-- A row of the same endpoint and adapter, left behind by an older registry schema. -/
def outdated : EndpointDescriptorV1 := { endpoint with endpointSchema := "rally.endpoint.v0" }

end DeliverySample

open DeliverySample

theorem plan_perm_counterexample :
    [outdated, endpoint].Perm [endpoint, outdated] ∧
      plan (.finite 100) envelope target [outdated, endpoint] {} [] ≠
        plan (.finite 100) envelope target [endpoint, outdated] {} [] :=
  ⟨.swap _ _ _, by decide⟩

/-! ## The attempts of other deliveries -/

/-- One logical delivery: what a dedupe key is built from. -/
structure LogicalDelivery where
  eventId : String
  repositoryId : String
  targetAgentId : String
  deriving DecidableEq, Repr

namespace LogicalDelivery

def dedupeKey (d : LogicalDelivery) : String :=
  stableDeliveryDedupeKey d.eventId d.repositoryId d.targetAgentId

/-- The request is for this delivery. -/
def OfRequest (d : LogicalDelivery) (envelope : DeliveryEnvelopeV1) : Prop :=
  envelope.eventId = some d.eventId ∧ envelope.repositoryId = some d.repositoryId ∧
    envelope.directive.toAgent = d.targetAgentId

instance (d : LogicalDelivery) (envelope : DeliveryEnvelopeV1) : Decidable (d.OfRequest envelope) :=
  inferInstanceAs (Decidable (_ ∧ _))

end LogicalDelivery

/-- An attempt built for a delivery other than the request's. -/
def ForeignAttempt (envelope : DeliveryEnvelopeV1) (attempt : DeliveryAttemptV1) : Prop :=
  ∃ (d : LogicalDelivery) (number : Nat) (endpointId : String) (outcome : DeliveryAttemptOutcome)
    (idempotent : Bool), ¬d.OfRequest envelope ∧
      attempt = .new d.eventId d.dedupeKey number endpointId outcome idempotent

section Foreign

variable {now : F64} {envelope : DeliveryEnvelopeV1} {target : DeliveryTarget} {policy : RoutePolicy}
variable {E : List EndpointDescriptorV1} {H H' X : List DeliveryAttemptV1}

/-- A request that passes its checks names an event and a repository, and its key is theirs. -/
theorem exists_delivery_of_checkRequest (h : checkRequest now envelope target = .ok ()) :
    ∃ d : LogicalDelivery, d.OfRequest envelope ∧ envelope.deliveryDedupeKey = some d.dedupeKey := by
  have herrors : envelope.contractErrors = [] := by
    have hvalid : envelope.validateCurrent = .ok () := by
      unfold checkRequest at h
      cases hvalid : envelope.validateCurrent with
      | error errors =>
        rw [check_refuse_ok_iff, hvalid] at h
        cases h.2
      | ok _ => rfl
    by_contra hne
    rw [DeliveryEnvelopeV1.validateCurrent, if_neg (by simpa using hne)] at hvalid
    cases hvalid
  obtain ⟨hpresent, -⟩ := List.append_eq_nil_iff.mp herrors
  obtain ⟨hpresent, hkeyErrors⟩ := List.append_eq_nil_iff.mp hpresent
  obtain ⟨-, hpresent⟩ := List.append_eq_nil_iff.mp hpresent
  rw [List.filterMap_eq_nil_iff] at hpresent
  have hsome : ∀ {value : Option String} {field : String},
      (if present value then none else some (DeliveryContractError.missingRequiredField field)) = none →
        ∃ v, value = some v := by
    intro value field hfield
    cases value with
    | none => cases hfield
    | some v => exact ⟨v, rfl⟩
  obtain ⟨event, hevent⟩ := hsome (hpresent ("event_id", present envelope.eventId) (by simp))
  obtain ⟨repo, hrepo⟩ := hsome (hpresent ("repository_id", present envelope.repositoryId) (by simp))
  obtain ⟨key, hkey⟩ :=
    hsome (hpresent ("idempotency_key", present envelope.context.idempotencyKey) (by simp))
  refine ⟨⟨event, repo, envelope.directive.toAgent⟩, ⟨hevent, hrepo, rfl⟩, ?_⟩
  rw [DeliveryEnvelopeV1.dedupeKeyErrors, hevent, hrepo, hkey] at hkeyErrors
  by_cases heq : key = stableDeliveryDedupeKey event repo envelope.directive.toAgent
  · rw [DeliveryEnvelopeV1.deliveryDedupeKey, hkey, heq]
    rfl
  · simp [heq] at hkeyErrors

/-- Two deliveries of one key are one delivery. -/
theorem LogicalDelivery.dedupeKey_inj {d d' : LogicalDelivery} (h : d.dedupeKey = d'.dedupeKey) : d = d' := by
  obtain ⟨hevent, hrepo, htarget⟩ := stableDeliveryDedupeKey_inj h
  cases d
  cases d'
  exact congr (congr (congrArg LogicalDelivery.mk hevent) hrepo) htarget

/-- **The attempts of other deliveries** change nothing while they are of other events; an attempt of the
request's own event for another repository or recipient holds the plan. -/
theorem plan_foreign_attempts (hX : ∀ x ∈ X, ForeignAttempt envelope x) (hH' : H'.Perm (H ++ X)) :
    (∀ reason, checkRequest now envelope target = .error reason →
      plan now envelope target E policy H' = plan now envelope target E policy H) ∧
    ((∀ x ∈ X, envelope.eventId ≠ some x.eventId) →
      plan now envelope target E policy H' = plan now envelope target E policy H) ∧
    (checkRequest now envelope target = .ok () → (∃ x ∈ X, envelope.eventId = some x.eventId) →
      ∃ attempt ∈ H', plan now envelope target E policy H' =
        .held envelope target (.queued (.invalidAttemptIdentity attempt.attemptId))) := by
  have hrefused : ∀ reason, checkRequest now envelope target = .error reason →
      plan now envelope target E policy H' = plan now envelope target E policy H := by
    intro reason h
    rw [plan_of_request_error h, plan_of_request_error h]
  refine ⟨hrefused, fun hother => ?_, fun hrequest ⟨x, hx, hevent⟩ => ?_⟩
  · cases hrequest : checkRequest now envelope target with
    | error reason => exact hrefused reason hrequest
    | ok _ =>
      -- neither the event nor the key is the request's, so the history stage does not read them
      obtain ⟨d, ⟨hd, -, -⟩, hkey⟩ := exists_delivery_of_checkRequest hrequest
      have hunread : X.filter (namesDelivery (envelope.eventId.getD "") (envelope.deliveryDedupeKey.getD "")) =
          [] := by
        refine List.filter_eq_nil_iff.mpr fun x hx => ?_
        obtain ⟨d', number, endpointId, outcome, idempotent, -, rfl⟩ := hX x hx
        have hne : d'.eventId ≠ d.eventId := fun heq => hother _ hx (by rw [hd, ← heq]; rfl)
        have hnekey : d'.dedupeKey ≠ d.dedupeKey := fun heq =>
          hne (congrArg LogicalDelivery.eventId (LogicalDelivery.dedupeKey_inj heq))
        simp [namesDelivery, DeliveryAttemptV1.new, hd, hkey, hne, hnekey]
      have hread : readHistory (envelope.eventId.getD "") (envelope.deliveryDedupeKey.getD "") H' =
          readHistory (envelope.eventId.getD "") (envelope.deliveryDedupeKey.getD "") H := readHistory_congr
        ((hH'.filter (namesDelivery (envelope.eventId.getD "") (envelope.deliveryDedupeKey.getD ""))).trans
          (by rw [List.filter_append, hunread, List.append_nil]))
      unfold plan
      simp only [hread]
  · obtain ⟨d, hd, hkey⟩ := exists_delivery_of_checkRequest hrequest
    have hbad : invalidIdentity (envelope.eventId.getD "") (envelope.deliveryDedupeKey.getD "") x = true := by
      obtain ⟨d', number, endpointId, outcome, idempotent, hd', rfl⟩ := hX x hx
      have hsame : d'.eventId = d.eventId := (Option.some.inj (hd.1.symm.trans hevent)).symm
      have hnekey : d'.dedupeKey ≠ d.dedupeKey := fun heq => hd' (LogicalDelivery.dedupeKey_inj heq ▸ hd)
      simp [invalidIdentity, DeliveryAttemptV1.new, hd.1, hkey, hsame, hnekey]
    have hxH' : x ∈ H'.insertionSort attemptLe :=
      (List.mem_insertionSort _).mpr (hH'.mem_iff.mpr (List.mem_append_right H hx))
    obtain ⟨first, hfirst⟩ := Option.isSome_iff_exists.mp (List.find?_isSome.mpr ⟨x, hxH', hbad⟩)
    refine ⟨first, (List.mem_insertionSort _).mp (List.mem_of_find?_eq_some hfirst), ?_⟩
    apply plan_of_history_error hrequest
    unfold readHistory
    dsimp only
    rw [hfirst]

end Foreign

namespace DeliverySample

/-- The same event, delivered to `carol` as well. -/
def carolAttempt : DeliveryAttemptV1 :=
  .new "event-1" (stableDeliveryDedupeKey "event-1" "repo" "carol") 1 "native-c" .transportSent true

/-- Another event for `bob`. -/
def otherAttempt : DeliveryAttemptV1 :=
  .new "event-2" (stableDeliveryDedupeKey "event-2" "repo" "bob") 1 "native-a" .planned false

theorem foreignAttempt_carol : ForeignAttempt envelope carolAttempt :=
  ⟨⟨"event-1", "repo", "carol"⟩, 1, "native-c", .transportSent, true, by decide, rfl⟩

theorem foreignAttempt_other : ForeignAttempt envelope otherAttempt :=
  ⟨⟨"event-2", "repo", "bob"⟩, 1, "native-a", .planned, false, by decide, rfl⟩

end DeliverySample

theorem plan_foreign_attempts_fan_out :
    plan (.finite 100) envelope target [endpoint] {} ([] ++ [otherAttempt]) =
        plan (.finite 100) envelope target [endpoint] {} [] ∧
      ∃ attempt ∈ [] ++ [carolAttempt], plan (.finite 100) envelope target [endpoint] {} ([] ++ [carolAttempt]) =
        .held envelope target (.queued (.invalidAttemptIdentity attempt.attemptId)) :=
  ⟨(plan_foreign_attempts (by simpa using foreignAttempt_other) (.refl _)).2.1 (by decide),
    (plan_foreign_attempts (by simpa using foreignAttempt_carol) (.refl _)).2.2 (by decide)
      ⟨carolAttempt, by decide, by decide⟩⟩

/-- One event fanned out to two recipients: the attempt for the one holds the plan for the other. -/
theorem plan_foreign_attempts_counterexample :
    ForeignAttempt envelope carolAttempt ∧
      (plan (.finite 100) envelope target [endpoint] {} []).decision =
        .selected "native-a" ⟨"codex-app-server"⟩ ∧
      (plan (.finite 100) envelope target [endpoint] {} ([] ++ [carolAttempt])).decision =
        .queued (.invalidAttemptIdentity carolAttempt.attemptId) :=
  ⟨foreignAttempt_carol, by decide, by decide⟩

end RallyPoint
