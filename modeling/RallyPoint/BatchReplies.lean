/-
# RallyPoint.BatchReplies — the replies to many items in one read (`rally replies`; `discovery.rs`, `store.rs`).

`rally locate` reads one item and what stands against it. `rally replies` reads any number of items at once: one
query for the rows that are or refer to a requested item, one for the retractions, and a projection that asks every
question of the facts of that one read. When the index is not proven canonical the whole ledger is loaded instead.
What the items share is read once, and a row must not show it: `batch_answers_singly` says that each row is the one
the whole ledger gives for its item alone, on either path, and that `rally locate` says the same.
-/
import Mathlib.Data.List.Find
import RallyPoint.Lib.Distinct
import RallyPoint.RecentFacts
import RallyPoint.ReplyState

namespace RallyPoint.BatchReplies

open Lib Wire

/-! ## The reads -/

/-- `decode` of the index: the facts of the rows, by sequence. -/
def decodeRows (codec : SessionCodec) (rows : List EventRow) : Except String (List Fact) :=
  (rows.mapM (EventRow.decode codec)).map fun facts => facts.insertionSort fun a b => a.seq ≤ b.seq

section Reads

variable (codec : SessionCodec) (rows : List EventRow)

/-- What a read takes from the index while it is proven canonical, and from the full load when it is not or when the
index has an error. -/
def candidates (proven : Bool) (indexed : Except String (List Fact)) : Except String (List Fact) :=
  match (if proven then indexed.toOption else none) with
  | some facts => .ok facts
  | none => rows.mapM (EventRow.decode codec)

/-- The indexed half of `batch_reply_facts`. -/
def indexedReplyFacts (eventIds : List String) : Except String (List Fact) := do
  let facts ← decodeRows codec (rows.filter fun row =>
    (row.text "event_id").any eventIds.contains || (row.text "ref").any eventIds.contains)
  let retractions ← decodeRows codec (rows.filter retractionPredicate)
  pure (facts ++ retractions)

def batchReplyFacts (proven : Bool) (eventIds : List String) : Except String (List Fact) :=
  if eventIds.isEmpty then .ok []
  else (candidates codec rows proven (indexedReplyFacts codec rows eventIds)).map fun facts =>
    selectBatchReplyFacts facts eventIds

/-- The indexed half of `reply_facts`. -/
def indexedReplyFactsOf (eventId : String) : Except String (List Fact) := do
  let facts ← decodeRows codec (rows.filter fun row => row.text "event_id" == some eventId)
  let referring ← decodeRows codec (rows.filter fun row => row.text "ref" == some eventId)
  let retractions ← decodeRows codec (rows.filter retractionPredicate)
  pure (facts ++ referring ++ retractions)

def replyFacts (proven : Bool) (eventId : String) : Except String (List Fact) :=
  (candidates codec rows proven (indexedReplyFactsOf codec rows eventId)).map fun facts =>
    selectReplyFacts facts eventId

def factsByEventId (proven : Bool) (eventId : String) : Except String (List Fact) :=
  (candidates codec rows proven
    (decodeRows codec (rows.filter fun row => row.text "event_id" == some eventId))).map fun facts =>
      facts.filter fun fact => fact.eventId == eventId

end Reads

/-! ## The projections -/

/-- Whether `closer` claims completion, by whom the handoff is addressed to. -/
def closureIsACompletionClaim (handoff closer : Fact) : Bool :=
  match handoff.target with
  | some target =>
    if target != "all" then receiverAckClosesObligation handoff closer else factClosesHandoff handoff closer
  | none => factClosesHandoff handoff closer

def artifactIsCompletionEvidence (handoff artifact : Fact) : Bool :=
  artifact.kind == .artifact && artifact.evidence.any (fun entry => !(trim entry).toList.isEmpty) &&
    closureIsACompletionClaim handoff artifact

def resolvedUnverifiedStatus : String := "resolved-unverified"

structure BatchReplyRow where
  eventId : String
  found : Bool
  fact : Option Fact
  reply : Option ReplyState
  replyFact : Option Fact
  completionStatus : Option String
  deriving DecidableEq

section Project

variable (ext : Externals)

/-- One row of `project_batch_replies`, from the facts of the read. -/
def batchReplyRow (facts : List Fact) (eventId : String) : BatchReplyRow :=
  let retracted := retractedIds facts
  let fact := facts.find? fun fact => fact.eventId == eventId
  let related := facts.filter fun fact => fact.refId == some eventId
  let reply := fact.bind fun fact => projectReplyState ext fact related retracted
  { eventId := eventId
    found := fact.isSome
    fact := fact
    reply := reply
    replyFact := (reply.bind (·.replyEventId)).bind fun id => facts.find? fun fact => fact.eventId == id
    completionStatus := (reply.filter fun reply => reply.kind == .handoff && reply.state == .done).bind fun _ =>
      fact.map fun original =>
        if (related.filter fun fact => !retracted.contains fact.eventId).any (artifactIsCompletionEvidence original)
        then "evidenced"
        else resolvedUnverifiedStatus }

/-- A row for each requested id, where it was first asked for. -/
def projectBatchReplies (eventIds : List String) (facts : List Fact) : List BatchReplyRow :=
  (pushNewAll [] eventIds).map (batchReplyRow ext facts)

/-- `replies`. -/
def replies (codec : SessionCodec) (proven : Bool) (rows : List EventRow) (eventIds : List String) :
    Except String (List BatchReplyRow) :=
  (batchReplyFacts codec rows proven eventIds).map (projectBatchReplies ext eventIds)

/-- `locate_in_room`, for a room that opens; `answer` is what it does with the item found. The index may be proven at
one of its reads and not at the other. -/
def locateInRoom (codec : SessionCodec) (provenItem provenReplies : Bool) (rows : List EventRow) (eventId : String) :
    Except String (Option (Fact × Option ReplyState)) := do
  let found ← factsByEventId codec rows provenItem eventId
  answer found.head?
where
  answer : Option Fact → Except String (Option (Fact × Option ReplyState))
    | none => pure none
    | some fact =>
      match fact.kind with
      | .handoff | .blocker | .artifact => do
        let related ← replyFacts codec rows provenReplies eventId
        pure (some (fact, projectReplyState ext fact related (retractedIds related)))
      | _ => pure (some (fact, none))

end Project

/-! ## One selection for every path -/

section Selection

variable {F C : List Fact} {ids : List String} {f : Fact} {id : String}

/-- A fact that is a requested item or refers to one. -/
def Matches (ids : List String) (f : Fact) : Prop := f.eventId ∈ ids ∨ ∃ id ∈ ids, f.refId = some id

/-- What a path may hand to the selection: facts of the ledger, with every match and every retraction. -/
structure Candidates (F : List Fact) (ids : List String) (C : List Fact) : Prop where
  ofLedger : ∀ f ∈ C, f ∈ F
  matching : ∀ f ∈ F, Matches ids f → f ∈ C
  retractions : ∀ f ∈ F, targetOf f ≠ none → f ∈ C

/-- The ledger in the order of its sequence, each event once. -/
structure Ledger (F : List Fact) : Prop where
  ids : (F.map (·.eventId)).Nodup
  sorted : F.Pairwise fun a b => a.seq < b.seq

theorem Ledger.eq_of_id (h : Ledger F) {a b : Fact} (ha : a ∈ F) (hb : b ∈ F) (hid : a.eventId = b.eventId) :
    a = b :=
  List.inj_on_of_nodup_map h.ids ha hb hid

theorem mem_wantedReplyIds_iff :
    id ∈ wantedReplyIds F ids ↔ id ∈ ids ∨ ∃ f ∈ F, Matches ids f ∧ f.eventId = id := by
  have hmatch : ∀ f : Fact, (ids.contains f.eventId || match f.refId with
      | some id => ids.contains id
      | none => false) = true ↔ Matches ids f := by
    intro f
    cases href : f.refId with
    | none => simp [Matches, href]
    | some id => simp [Matches, href]
  rw [wantedReplyIds, List.mem_append, List.mem_map, or_comm]
  refine or_congr_right ⟨?_, ?_⟩
  · rintro ⟨f, hf, hid⟩
    obtain ⟨hf, hfound⟩ := List.mem_filter.mp hf
    exact ⟨f, hf, (hmatch f).mp hfound, hid⟩
  · rintro ⟨f, hf, hfound, hid⟩
    exact ⟨f, List.mem_filter.mpr ⟨hf, (hmatch f).mpr hfound⟩, hid⟩

theorem isReplyInput_iff {wanted : List String} :
    isReplyInput wanted f = true ↔ f.eventId ∈ wanted ∨ ∃ target ∈ wanted, targetOf f = some target := by
  cases htarget : targetOf f with
  | none => simp [isReplyInput, htarget]
  | some target => simp [isReplyInput, htarget]

/-- The wanted ids do not depend on the path. -/
theorem Candidates.wanted_iff (h : Candidates F ids C) :
    id ∈ wantedReplyIds C ids ↔ id ∈ wantedReplyIds F ids := by
  rw [mem_wantedReplyIds_iff, mem_wantedReplyIds_iff]
  refine or_congr_right ⟨?_, ?_⟩
  · rintro ⟨f, hf, hmatch, hid⟩
    exact ⟨f, h.ofLedger f hf, hmatch, hid⟩
  · rintro ⟨f, hf, hmatch, hid⟩
    exact ⟨f, h.matching f hf hmatch, hmatch, hid⟩

theorem Candidates.isReplyInput_eq (h : Candidates F ids C) (f : Fact) :
    isReplyInput (wantedReplyIds C ids) f = isReplyInput (wantedReplyIds F ids) f := by
  rw [Bool.eq_iff_iff, isReplyInput_iff, isReplyInput_iff]
  simp only [h.wanted_iff]

/-- Every input of the projection is a candidate: an event is wanted because it matches, or withdraws something. -/
theorem Candidates.mem_of_input (h : Candidates F ids C) (hF : Ledger F) (hf : f ∈ F)
    (hinput : isReplyInput (wantedReplyIds F ids) f = true) : f ∈ C := by
  rcases isReplyInput_iff.mp hinput with hwanted | ⟨target, -, htarget⟩
  · rcases mem_wantedReplyIds_iff.mp hwanted with hid | ⟨g, hg, hmatch, hid⟩
    · exact h.matching f hf (.inl hid)
    · obtain rfl := hF.eq_of_id hg hf hid
      exact h.matching g hg hmatch
  · apply h.retractions f hf
    rw [htarget]
    exact Option.some_ne_none target

theorem not_seen_of_mem_keepFirst {seen : List (String × Int)} {l : List Fact} (h : f ∈ keepFirst seen l) :
    (f.eventId, f.seq) ∉ seen := by
  induction l generalizing seen with
  | nil => cases h
  | cons g rest ih =>
    rw [keepFirst] at h
    split_ifs at h with hseen
    · exact ih h
    · rcases List.mem_cons.mp h with rfl | h
      · simpa using hseen
      · exact fun hmem => ih h (List.mem_cons_of_mem _ hmem)

theorem nodup_keepFirst {seen : List (String × Int)} {l : List Fact} : (keepFirst seen l).Nodup := by
  induction l generalizing seen with
  | nil => exact List.nodup_nil
  | cons g rest ih =>
    rw [keepFirst]
    split_ifs with hseen
    · exact ih
    · exact List.nodup_cons.mpr ⟨fun hmem => not_seen_of_mem_keepFirst hmem List.mem_cons_self, ih⟩

/-- With one fact to an id, nothing but copies is dropped. -/
theorem mem_keepFirst {seen : List (String × Int)} {l : List Fact}
    (hinj : ∀ a ∈ l, ∀ b ∈ l, a.eventId = b.eventId → a = b) :
    f ∈ keepFirst seen l ↔ f ∈ l ∧ (f.eventId, f.seq) ∉ seen := by
  induction l generalizing seen with
  | nil => simp [keepFirst]
  | cons g rest ih =>
    have hinj' : ∀ a ∈ rest, ∀ b ∈ rest, a.eventId = b.eventId → a = b := fun a ha b hb =>
      hinj a (List.mem_cons_of_mem _ ha) b (List.mem_cons_of_mem _ hb)
    rw [keepFirst]
    split_ifs with hseen
    · rw [ih hinj', List.mem_cons]
      refine ⟨fun h => ⟨.inr h.1, h.2⟩, ?_⟩
      rintro ⟨rfl | hf, hnew⟩
      · exact absurd (by simpa using hseen) hnew
      · exact ⟨hf, hnew⟩
    · rw [List.mem_cons, ih hinj', List.mem_cons, List.mem_cons, not_or]
      constructor
      · rintro (rfl | ⟨hf, -, hnew⟩)
        · exact ⟨.inl rfl, by simpa using hseen⟩
        · exact ⟨.inr hf, hnew⟩
      · rintro ⟨rfl | hf, hnew⟩
        · exact .inl rfl
        · by_cases heq : f = g
          · exact .inl heq
          · refine .inr ⟨hf, fun hpair => heq ?_, hnew⟩
            exact hinj f (List.mem_cons_of_mem _ hf) g List.mem_cons_self (Prod.mk.inj hpair).1

/-- The facts of a ledger that a read of some ids selects. -/
def selected (F : List Fact) (ids : List String) : List Fact :=
  F.filter (isReplyInput (wantedReplyIds F ids))

/-- **Every path selects the same facts:** the inputs of the ledger, in its order. -/
theorem Candidates.select_eq (h : Candidates F ids C) (hF : Ledger F) :
    selectBatchReplyFacts C ids = selected F ids := by
  let kept := keepFirst [] (C.filter (isReplyInput (wantedReplyIds C ids)))
  have hinj : ∀ a ∈ C.filter (isReplyInput (wantedReplyIds C ids)),
      ∀ b ∈ C.filter (isReplyInput (wantedReplyIds C ids)), a.eventId = b.eventId → a = b := fun a ha b hb =>
    hF.eq_of_id (h.ofLedger a (List.mem_filter.mp ha).1) (h.ofLedger b (List.mem_filter.mp hb).1)
  have hmem : ∀ f, f ∈ kept ↔ f ∈ selected F ids := by
    intro f
    rw [mem_keepFirst hinj, selected, List.mem_filter, List.mem_filter, h.isReplyInput_eq f]
    constructor
    · rintro ⟨⟨hf, hinput⟩, -⟩
      exact ⟨h.ofLedger f hf, hinput⟩
    · rintro ⟨hf, hinput⟩
      exact ⟨⟨h.mem_of_input hF hf hinput, hinput⟩, List.not_mem_nil⟩
  have hnodup : (selected F ids).Nodup := hF.ids.of_map.filter _
  have hperm : (selectBatchReplyFacts C ids).Perm (selected F ids) :=
    (List.perm_insertionSort _ kept).trans ((List.perm_ext_iff_of_nodup nodup_keepFirst hnodup).mpr hmem)
  have hselected : SortedBy (fun f : Fact => f.seq) (selectBatchReplyFacts C ids) :=
    sortedBy_insertionSort (fun _ _ => Iff.rfl) kept
  refine eq_of_perm_of_sorted hperm hselected ?_ ?_
  · exact (hF.sorted.imp fun hlt => hlt.le).filter _
  · intro a ha b hb hseq
    have ha' := (List.mem_filter.mp (hperm.mem_iff.mp ha)).1
    have hb' := (List.mem_filter.mp (hperm.mem_iff.mp hb)).1
    have hseqs : (F.map (·.seq)).Nodup := List.pairwise_map.mpr (hF.sorted.imp fun hlt => hlt.ne)
    exact List.inj_on_of_nodup_map hseqs ha' hb' hseq

end Selection

/-! ## A row reads the same in the selection and in the ledger -/

section Row

variable {ext : Externals} {F S : List Fact} {ids : List String} {item : Fact} {eventId : String}

/-- The replies of an item are among the facts that refer to it. -/
theorem orderedReplies_related (facts : List Fact) (retracted : List String) :
    orderedReplies item (facts.filter fun fact => fact.refId == some item.eventId) retracted =
      orderedReplies item facts retracted := by
  rw [orderedReplies, orderedReplies, List.filter_filter]
  refine congrArg (List.insertionSort _) (List.filter_congr fun r _ => ?_)
  cases r.refId == some item.eventId <;> simp

/-- Only the withdrawals of the item and of what refers to it count. -/
theorem projectReplyState_congr {related : List Fact} {retracted retracted' : List String}
    (hitem : item.eventId ∈ retracted ↔ item.eventId ∈ retracted')
    (hrelated : ∀ r ∈ related, r.refId = some item.eventId → (r.eventId ∈ retracted ↔ r.eventId ∈ retracted')) :
    projectReplyState ext item related retracted = projectReplyState ext item related retracted' := by
  have hordered : orderedReplies item related retracted = orderedReplies item related retracted' := by
    refine congrArg (List.insertionSort _) (List.filter_congr fun r hr => ?_)
    by_cases href : r.refId = some item.eventId
    · simp only [List.contains_eq_mem, hrelated r hr href]
    · have hne : (r.refId == some item.eventId) = false := beq_eq_false_iff_ne.mpr href
      simp only [hne, Bool.false_and]
  simp only [projectReplyState, hordered, List.contains_eq_mem, hitem]

/-- The reply a state names is one of the facts it was projected from. -/
theorem replyEventId_mem {related : List Fact} {retracted : List String} {reply : ReplyState} {id : String}
    (hreply : projectReplyState ext item related retracted = some reply) (hid : reply.replyEventId = some id) :
    ∃ r ∈ related, r.refId = some item.eventId ∧ r.eventId = id := by
  obtain ⟨kind, -, rfl⟩ := Option.map_eq_some_iff.mp hreply
  simp only [replyStateOf] at hid
  split_ifs at hid with hretracted
  · cases hid
  obtain ⟨e, he, rfl⟩ := Option.map_eq_some_iff.mp hid
  have hmem : e ∈ replyHistory kind item (orderedReplies item related retracted) := by
    rcases Option.or_eq_some_iff.mp he with he | ⟨-, he⟩
    · exact List.mem_reverse.mp (List.mem_of_find?_eq_some he)
    · exact List.mem_of_getLast? he
  obtain ⟨r, hr, hevent⟩ := List.mem_filterMap.mp hmem
  obtain ⟨label, -, rfl⟩ := Option.map_eq_some_iff.mp hevent
  obtain ⟨hr, href, -, -⟩ := mem_orderedReplies.mp hr
  exact ⟨r, hr, href, rfl⟩

theorem mem_retractedIds_selected {id : String} (h : id ∈ wantedReplyIds F ids) :
    id ∈ retractedIds (selected F ids) ↔ id ∈ retractedIds F := by
  simp only [retractedIds, List.mem_filterMap, selected, List.mem_filter]
  constructor
  · rintro ⟨f, ⟨hf, -⟩, htarget⟩
    exact ⟨f, hf, htarget⟩
  · rintro ⟨f, hf, htarget⟩
    exact ⟨f, ⟨hf, isReplyInput_iff.mpr (.inr ⟨id, h, htarget⟩)⟩, htarget⟩

theorem find?_selected {id : String} (h : id ∈ wantedReplyIds F ids) :
    (selected F ids).find? (fun fact => fact.eventId == id) = F.find? fun fact => fact.eventId == id := by
  rw [selected, List.find?_filter]
  refine List.find?_congr fun f _ => ?_
  by_cases hid : f.eventId = id
  · have hinput : isReplyInput (wantedReplyIds F ids) f = true := isReplyInput_iff.mpr (.inl (hid ▸ h))
    simp [hid, hinput]
  · simp [hid]

theorem related_selected (h : eventId ∈ ids) :
    (selected F ids).filter (fun fact => fact.refId == some eventId) =
      F.filter fun fact => fact.refId == some eventId := by
  rw [selected, List.filter_filter]
  refine List.filter_congr fun f hf => ?_
  by_cases href : f.refId = some eventId
  · have hwanted : f.eventId ∈ wantedReplyIds F ids :=
      mem_wantedReplyIds_iff.mpr (.inr ⟨f, hf, .inr ⟨eventId, h, href⟩, rfl⟩)
    have hinput : isReplyInput (wantedReplyIds F ids) f = true := isReplyInput_iff.mpr (.inl hwanted)
    simp [href, hinput]
  · simp [href]

/-- What refers to a requested item is wanted. -/
theorem mem_wanted_of_related {r : Fact} (h : eventId ∈ ids) (hr : r ∈ F) (href : r.refId = some eventId) :
    r.eventId ∈ wantedReplyIds F ids :=
  mem_wantedReplyIds_iff.mpr (.inr ⟨r, hr, .inr ⟨eventId, h, href⟩, rfl⟩)

/-- The reply state of a requested item, from the facts that refer to it. -/
theorem projectReplyState_selected (h : item.eventId ∈ ids) :
    projectReplyState ext item (F.filter fun fact => fact.refId == some item.eventId)
        (retractedIds (selected F ids)) =
      projectReplyState ext item (F.filter fun fact => fact.refId == some item.eventId) (retractedIds F) := by
  refine projectReplyState_congr (mem_retractedIds_selected (List.mem_append_right _ h)) fun r hr href => ?_
  exact mem_retractedIds_selected (mem_wanted_of_related h (List.mem_filter.mp hr).1 href)

/-- `locate` hands the whole selection over, `replies` what refers to the item; the projection reads no more. -/
theorem projectReplyState_selection (h : item.eventId ∈ ids) :
    projectReplyState ext item (selected F ids) (retractedIds (selected F ids)) =
      projectReplyState ext item (F.filter fun fact => fact.refId == some item.eventId) (retractedIds F) := by
  rw [← projectReplyState_selected h, ← related_selected h]
  simp only [projectReplyState, orderedReplies_related]

/-- **A row of the batch is the ledger's row.** -/
theorem batchReplyRow_selected (h : eventId ∈ ids) :
    batchReplyRow ext (selected F ids) eventId = batchReplyRow ext F eventId := by
  have hwanted : eventId ∈ wantedReplyIds F ids := List.mem_append_right _ h
  have hreply : ((F.find? fun fact => fact.eventId == eventId).bind fun fact =>
        projectReplyState ext fact (F.filter fun fact => fact.refId == some eventId)
          (retractedIds (selected F ids))) =
      (F.find? fun fact => fact.eventId == eventId).bind fun fact =>
        projectReplyState ext fact (F.filter fun fact => fact.refId == some eventId) (retractedIds F) := by
    refine Option.bind_congr fun fact hfact => ?_
    obtain rfl : fact.eventId = eventId := by simpa using List.find?_some hfact
    exact projectReplyState_selected h
  have hstanding : ∀ r ∈ F.filter fun fact => fact.refId == some eventId,
      (retractedIds (selected F ids)).contains r.eventId = (retractedIds F).contains r.eventId := by
    intro r hr
    obtain ⟨hr, href⟩ := List.mem_filter.mp hr
    have hiff := mem_retractedIds_selected (mem_wanted_of_related h hr (by simpa using href))
    simp only [List.contains_eq_mem, hiff]
  have hartifacts : (F.filter fun fact => fact.refId == some eventId).filter
        (fun fact => !(retractedIds (selected F ids)).contains fact.eventId) =
      (F.filter fun fact => fact.refId == some eventId).filter
        fun fact => !(retractedIds F).contains fact.eventId :=
    List.filter_congr fun r hr => by rw [hstanding r hr]
  have hnamed : (((F.find? fun fact => fact.eventId == eventId).bind fun fact =>
        projectReplyState ext fact (F.filter fun fact => fact.refId == some eventId) (retractedIds F)).bind
          (·.replyEventId)).bind (fun id => (selected F ids).find? fun fact => fact.eventId == id) =
      (((F.find? fun fact => fact.eventId == eventId).bind fun fact =>
        projectReplyState ext fact (F.filter fun fact => fact.refId == some eventId) (retractedIds F)).bind
          (·.replyEventId)).bind fun id => F.find? fun fact => fact.eventId == id := by
    refine Option.bind_congr fun id hid => find?_selected ?_
    obtain ⟨reply, hreply, hid⟩ := Option.bind_eq_some_iff.mp hid
    obtain ⟨fact, hfact, hreply⟩ := Option.bind_eq_some_iff.mp hreply
    obtain ⟨r, hr, -, rfl⟩ := replyEventId_mem hreply hid
    obtain ⟨hr, href⟩ := List.mem_filter.mp hr
    exact mem_wanted_of_related h hr (by simpa using href)
  simp only [batchReplyRow, find?_selected hwanted, related_selected h, hreply, hartifacts, hnamed]

end Row

/-! ## The paths -/

section Paths

variable {codec : SessionCodec} {rows : List EventRow} {all : List Fact} {ids : List String}

/-- The ledger behind the facts of a table. -/
def bySeq (facts : List Fact) : List Fact := facts.insertionSort fun a b => a.seq ≤ b.seq

/-- The table `events` as the writers fill it: every row is a fact, with an event id and a sequence of its own. -/
structure StoredRows (codec : SessionCodec) (rows : List EventRow) (all : List Fact) : Prop where
  decodes : rows.mapM (EventRow.decode codec) = .ok all
  named : ∀ row ∈ rows, row.text "event_id" ≠ none
  ids : (all.map (·.eventId)).Nodup
  seqs : (all.map (·.seq)).Nodup

theorem toOption_eq_some_iff {ε α : Type} {r : Except ε α} {a : α} : r.toOption = some a ↔ r = .ok a := by
  refine ⟨ok_of_toOption, ?_⟩
  rintro rfl
  rfl

theorem decode_ids {row : EventRow} {fact : Fact} (h : row.decode codec = .ok fact) :
    fact.eventId = (row.text "event_id").getD "" ∧ fact.refId = row.text "ref" := by
  obtain ⟨n, payload⟩ := row
  cases payload with
  | object fields =>
    obtain ⟨decoded, hdecoded, rfl⟩ := map_eq_ok_iff.mp h
    unfold factFromWire at hdecoded
    simp only [bind_ok_iff] at hdecoded
    obtain ⟨schema, -, eventId, hid, seq, -, threadId, -, kind, -, tool, -, role, -, subject, -, scope, -,
      createdAt, -, summary, -, evidence, -, target, -, refId, href, status, -, severity, -, uri, -, session, -,
      fromSessionId, -, hdecoded⟩ := hdecoded
    have hfact : decoded.eventId = eventId ∧ decoded.refId = refId := by
      rw [← Except.ok.inj hdecoded]
      exact ⟨rfl, rfl⟩
    obtain ⟨hid', href'⟩ := hfact
    rw [readText_ok hid] at hid'
    rw [readOptText_ok href] at href'
    split
    case isTrue => exact ⟨hid', href'⟩
    case isFalse => exact ⟨hid', href'⟩
  | _ =>
    obtain ⟨decoded, hdecoded, -⟩ := map_eq_ok_iff.mp h
    cases hdecoded

namespace StoredRows

theorem mem_all (h : StoredRows codec rows all) {fact : Fact} :
    fact ∈ all ↔ ∃ row ∈ rows, row.decode codec = .ok fact := by
  obtain ⟨-, rfl⟩ := mapM_ok_iff.mp h.decodes
  simp only [List.mem_filterMap, toOption_eq_some_iff]

theorem ledger (h : StoredRows codec rows all) : Ledger (bySeq all) where
  ids := ((List.perm_insertionSort _ all).map _).nodup_iff.mpr h.ids
  sorted := by
    have hsorted : SortedBy (·.seq) (bySeq all) := sortedBy_insertionSort (fun _ _ => Iff.rfl) all
    have hseqs : ((bySeq all).map (·.seq)).Nodup := ((List.perm_insertionSort _ all).map _).nodup_iff.mpr h.seqs
    exact (hsorted.and (List.pairwise_map.mp hseqs)).imp fun ⟨hle, hne⟩ => lt_of_le_of_ne hle hne

/-- A point query returns the facts of its rows. -/
theorem decodeRows_filter (h : StoredRows codec rows all) (p : EventRow → Bool) :
    ∃ facts, decodeRows codec (rows.filter p) = .ok facts ∧
      ∀ fact, fact ∈ facts ↔ ∃ row ∈ rows, p row = true ∧ row.decode codec = .ok fact := by
  obtain ⟨hdecodes, -⟩ := mapM_ok_iff.mp h.decodes
  have hrows : (rows.filter p).mapM (EventRow.decode codec) =
      .ok ((rows.filter p).filterMap fun row => (row.decode codec).toOption) :=
    mapM_ok_iff.mpr ⟨fun row hrow => hdecodes row (List.mem_filter.mp hrow).1, rfl⟩
  refine ⟨_, by rw [decodeRows, hrows]; rfl, fun fact => ?_⟩
  simp only [List.mem_insertionSort, List.mem_filterMap, List.mem_filter, toOption_eq_some_iff, and_assoc]

/-- The id of a fact stands in its row. -/
theorem eventId_of_row (h : StoredRows codec rows all) {row : EventRow} {fact : Fact} (hrow : row ∈ rows)
    (hfact : row.decode codec = .ok fact) : row.text "event_id" = some fact.eventId := by
  obtain ⟨id, hid⟩ := Option.ne_none_iff_exists'.mp (h.named row hrow)
  rw [(decode_ids hfact).1, hid, Option.getD_some]

/-- What the index returns for the requested ids and the retractions is a candidate. -/
theorem candidates_of_index (h : StoredRows codec rows all) {C : List Fact}
    (hC : ∀ fact ∈ C, fact ∈ all)
    (hid : ∀ row ∈ rows, ∀ fact, row.decode codec = .ok fact → fact.eventId ∈ ids → fact ∈ C)
    (href : ∀ row ∈ rows, ∀ fact, row.decode codec = .ok fact → (∃ id ∈ ids, fact.refId = some id) → fact ∈ C)
    (hretraction : ∀ row ∈ rows, ∀ fact, row.decode codec = .ok fact → retractionPredicate row = true → fact ∈ C) :
    Candidates (bySeq all) ids C where
  ofLedger fact hfact := (List.mem_insertionSort _).mpr (hC fact hfact)
  matching fact hfact hmatch := by
    obtain ⟨row, hrow, hdecode⟩ := h.mem_all.mp ((List.mem_insertionSort _).mp hfact)
    rcases hmatch with hmatch | hmatch
    · exact hid row hrow fact hdecode hmatch
    · exact href row hrow fact hdecode hmatch
  retractions fact hfact htarget := by
    obtain ⟨row, hrow, hdecode⟩ := h.mem_all.mp ((List.mem_insertionSort _).mp hfact)
    exact hretraction row hrow fact hdecode (retractionPredicate_of_targetOf (decodesTo_of_decode hdecode) htarget)

theorem indexedReplyFacts_ok (h : StoredRows codec rows all) (ids : List String) :
    ∃ C, indexedReplyFacts codec rows ids = .ok C ∧ Candidates (bySeq all) ids C := by
  obtain ⟨facts, hfacts, hmem⟩ := h.decodeRows_filter fun row =>
    (row.text "event_id").any ids.contains || (row.text "ref").any ids.contains
  obtain ⟨retractions, hretractions, hmem'⟩ := h.decodeRows_filter retractionPredicate
  refine ⟨facts ++ retractions, by rw [indexedReplyFacts, hfacts, hretractions]; rfl, ?_⟩
  apply h.candidates_of_index
  · intro fact hfact
    rcases List.mem_append.mp hfact with hfact | hfact
    · obtain ⟨row, hrow, -, hdecode⟩ := (hmem fact).mp hfact
      exact h.mem_all.mpr ⟨row, hrow, hdecode⟩
    · obtain ⟨row, hrow, -, hdecode⟩ := (hmem' fact).mp hfact
      exact h.mem_all.mpr ⟨row, hrow, hdecode⟩
  · intro row hrow fact hdecode hid
    refine List.mem_append_left _ ((hmem fact).mpr ⟨row, hrow, ?_, hdecode⟩)
    simp [h.eventId_of_row hrow hdecode, hid]
  · rintro row hrow fact hdecode ⟨id, hid, href⟩
    refine List.mem_append_left _ ((hmem fact).mpr ⟨row, hrow, ?_, hdecode⟩)
    simp [(decode_ids hdecode).2.symm.trans href, hid]
  · intro row hrow fact hdecode hpred
    exact List.mem_append_right _ ((hmem' fact).mpr ⟨row, hrow, hpred, hdecode⟩)

theorem indexedReplyFactsOf_ok (h : StoredRows codec rows all) (id : String) :
    ∃ C, indexedReplyFactsOf codec rows id = .ok C ∧ Candidates (bySeq all) [id] C := by
  obtain ⟨facts, hfacts, hmem⟩ := h.decodeRows_filter fun row => row.text "event_id" == some id
  obtain ⟨referring, hreferring, hmem'⟩ := h.decodeRows_filter fun row => row.text "ref" == some id
  obtain ⟨retractions, hretractions, hmem''⟩ := h.decodeRows_filter retractionPredicate
  refine ⟨facts ++ referring ++ retractions,
    by rw [indexedReplyFactsOf, hfacts, hreferring, hretractions]; rfl, ?_⟩
  apply h.candidates_of_index
  · intro fact hfact
    rw [List.mem_append, List.mem_append, hmem, hmem', hmem''] at hfact
    rcases hfact with (⟨row, hrow, -, hdecode⟩ | ⟨row, hrow, -, hdecode⟩) | ⟨row, hrow, -, hdecode⟩ <;>
      exact h.mem_all.mpr ⟨row, hrow, hdecode⟩
  · intro row hrow fact hdecode hid
    refine List.mem_append_left _ (List.mem_append_left _ ((hmem fact).mpr ⟨row, hrow, ?_, hdecode⟩))
    rw [h.eventId_of_row hrow hdecode, List.mem_singleton.mp hid]
    exact beq_self_eq_true _
  · rintro row hrow fact hdecode ⟨id', hid', href⟩
    obtain rfl := List.mem_singleton.mp hid'
    refine List.mem_append_left _ (List.mem_append_right _ ((hmem' fact).mpr ⟨row, hrow, ?_, hdecode⟩))
    rw [← (decode_ids hdecode).2, href]
    exact beq_self_eq_true _
  · intro row hrow fact hdecode hpred
    exact List.mem_append_right _ ((hmem'' fact).mpr ⟨row, hrow, hpred, hdecode⟩)

/-- Either path hands over candidates. -/
theorem candidates_ok (h : StoredRows codec rows all) (proven : Bool) {indexed : Except String (List Fact)}
    (hindexed : ∃ C, indexed = .ok C ∧ Candidates (bySeq all) ids C) :
    ∃ C, candidates codec rows proven indexed = .ok C ∧ Candidates (bySeq all) ids C := by
  obtain ⟨C, rfl, hC⟩ := hindexed
  cases proven with
  | true => exact ⟨C, rfl, hC⟩
  | false => exact ⟨all, h.decodes, fun f hf => (List.mem_insertionSort _).mpr hf,
      fun f hf _ => (List.mem_insertionSort _).mp hf, fun f hf _ => (List.mem_insertionSort _).mp hf⟩

theorem batchReplyFacts_eq (h : StoredRows codec rows all) (proven : Bool) (ids : List String) :
    batchReplyFacts codec rows proven ids = .ok (selected (bySeq all) ids) := by
  by_cases hids : ids = []
  · have hnone : ∀ f ∈ bySeq all, isReplyInput (wantedReplyIds (bySeq all) []) f ≠ true := by
      intro f _ hinput
      have hwanted : ∀ id, id ∉ wantedReplyIds (bySeq all) [] := fun id hid => by
        rcases mem_wantedReplyIds_iff.mp hid with hid | ⟨g, -, hmatch | ⟨id', hid', -⟩, -⟩
        · cases hid
        · cases hmatch
        · cases hid'
      rcases isReplyInput_iff.mp hinput with hid | ⟨target, htarget, -⟩
      · exact hwanted _ hid
      · exact hwanted _ htarget
    rw [hids, selected, List.filter_eq_nil_iff.mpr hnone]
    rfl
  · obtain ⟨C, hcandidates, hC⟩ := h.candidates_ok proven (h.indexedReplyFacts_ok ids)
    rw [batchReplyFacts, if_neg (by simpa using hids), hcandidates, ← hC.select_eq h.ledger]
    rfl

theorem replyFacts_eq (h : StoredRows codec rows all) (proven : Bool) (id : String) :
    replyFacts codec rows proven id = .ok (selected (bySeq all) [id]) := by
  obtain ⟨C, hcandidates, hC⟩ := h.candidates_ok proven (h.indexedReplyFactsOf_ok id)
  rw [replyFacts, hcandidates, ← hC.select_eq h.ledger]
  rfl

/-- The first fact of an id, from either path. -/
theorem head?_factsByEventId (h : StoredRows codec rows all) (proven : Bool) (id : String) :
    ∃ found, factsByEventId codec rows proven id = .ok found ∧
      found.head? = (bySeq all).find? fun fact => fact.eventId == id := by
  obtain ⟨facts, hfacts, hmem⟩ := h.decodeRows_filter fun row => row.text "event_id" == some id
  obtain ⟨C, hC, hsub, hall⟩ : ∃ C, candidates codec rows proven
      (decodeRows codec (rows.filter fun row => row.text "event_id" == some id)) = .ok C ∧
        (∀ fact ∈ C, fact ∈ all) ∧ ∀ fact ∈ all, fact.eventId = id → fact ∈ C := by
    cases proven with
    | false => exact ⟨all, h.decodes, fun _ hf => hf, fun _ hf _ => hf⟩
    | true =>
      refine ⟨facts, by rw [hfacts]; rfl, fun fact hfact => ?_, fun fact hfact hid => ?_⟩
      · obtain ⟨row, hrow, -, hdecode⟩ := (hmem fact).mp hfact
        exact h.mem_all.mpr ⟨row, hrow, hdecode⟩
      · obtain ⟨row, hrow, hdecode⟩ := h.mem_all.mp hfact
        refine (hmem fact).mpr ⟨row, hrow, ?_, hdecode⟩
        rw [h.eventId_of_row hrow hdecode, hid]
        exact beq_self_eq_true _
  refine ⟨C.filter fun fact => fact.eventId == id, by rw [factsByEventId, hC]; rfl, ?_⟩
  rw [List.head?_filter]
  -- an id has one fact, so both find it or neither does
  cases hfound : (bySeq all).find? fun fact => fact.eventId == id with
  | none =>
    refine List.find?_eq_none.mpr fun fact hfact => ?_
    exact List.find?_eq_none.mp hfound fact ((List.mem_insertionSort _).mpr (hsub fact hfact))
  | some fact =>
    have hid : fact.eventId = id := by simpa using List.find?_some hfound
    have hfact : fact ∈ all := (List.mem_insertionSort _).mp (List.mem_of_find?_eq_some hfound)
    cases hfound' : C.find? fun fact => fact.eventId == id with
    | none =>
      have hnone := List.find?_eq_none.mp hfound' fact (hall fact hfact hid)
      exact absurd (beq_iff_eq.mpr hid) hnone
    | some fact' =>
      have hid' : fact'.eventId = id := by simpa using List.find?_some hfound'
      have hsame := List.inj_on_of_nodup_map h.ids (hsub fact' (List.mem_of_find?_eq_some hfound')) hfact
        (hid'.trans hid.symm)
      rw [hsame]

end StoredRows

/-- **The batch answers as each item alone.** On either path, `rally replies` answers for each distinct id with the
row that the whole ledger gives for that id, whatever else was asked; and `rally locate` finds the same item with the
same reply state, on either path of each of its two reads. -/
theorem batch_answers_singly (ext : Externals) (h : StoredRows codec rows all) :
    (∀ proven ids, replies ext codec proven rows ids =
      .ok ((pushNewAll [] ids).map (batchReplyRow ext (bySeq all)))) ∧
    ∀ provenItem provenReplies id, locateInRoom ext codec provenItem provenReplies rows id =
      .ok ((batchReplyRow ext (bySeq all) id).fact.map fun fact =>
        (fact, (batchReplyRow ext (bySeq all) id).reply)) := by
  constructor
  · intro proven ids
    rw [replies, h.batchReplyFacts_eq, Except.map, projectBatchReplies]
    refine congrArg Except.ok (List.map_congr_left fun id hid => ?_)
    exact batchReplyRow_selected ((mem_pushNewAll.mp hid).resolve_left List.not_mem_nil)
  · intro provenItem provenReplies id
    obtain ⟨found, hfound, hhead⟩ := h.head?_factsByEventId provenItem id
    have hlocate : locateInRoom ext codec provenItem provenReplies rows id =
        locateInRoom.answer ext codec provenReplies rows id found.head? := by
      rw [locateInRoom, hfound]
      rfl
    rw [hlocate, hhead]
    cases hitem : (bySeq all).find? fun fact => fact.eventId == id with
    | none =>
      have hrow : (batchReplyRow ext (bySeq all) id).fact = none := hitem
      rw [hrow]
      rfl
    | some item =>
      obtain rfl : item.eventId = id := by simpa using List.find?_some hitem
      have hrow : (batchReplyRow ext (bySeq all) item.eventId).fact = some item := hitem
      have hreply : (batchReplyRow ext (bySeq all) item.eventId).reply = projectReplyState ext item
          (selected (bySeq all) [item.eventId]) (retractedIds (selected (bySeq all) [item.eventId])) := by
        rw [projectReplyState_selection (List.mem_singleton_self item.eventId)]
        simp only [batchReplyRow, hitem, Option.bind_some]
      rw [hrow, hreply, locateInRoom.answer, h.replyFacts_eq, Option.map_some]
      split
      case h_1 => rfl
      case h_2 => rfl
      case h_3 => rfl
      case h_4 hhandoff hblocker hartifact =>
        -- an item of another kind has no reply state
        have hkind : replyItemKind ext item = none := by
          unfold replyItemKind
          split
          case h_1 hkind => exact absurd hkind hhandoff
          case h_2 hkind => exact absurd hkind hblocker
          case h_3 hkind => exact absurd hkind hartifact
          case h_4 => rfl
        rw [projectReplyState, hkind]
        rfl

end Paths

/-- The rows of a request, its answer and the withdrawal of the answer. -/
def withdrawnRows : List EventRow := withdrawnReply.map Recent.rowOf

theorem withdrawnRows_stored : StoredRows .sample withdrawnRows withdrawnReply where
  decodes := rfl
  named := by decide
  ids := by decide
  seqs := by decide

/-- Asked for twice and with an unknown id beside it, the request has one row, and the withdrawn answer is none. -/
theorem batch_answers_singly_withdrawn :
    StoredRows .sample withdrawnRows withdrawnReply ∧
    (pushNewAll [] ["h1", "lost", "h1"]).map (batchReplyRow .sample (bySeq withdrawnReply)) =
      [{ eventId := "h1", found := true, fact := some Answering.request,
         reply := some { kind := .handoff, state := .pending, toTool := some "bob", byTool := none, atTime := none,
                         replyEventId := none, history := [], receiverAnswered := some false },
         replyFact := none, completionStatus := none },
       { eventId := "lost", found := false, fact := none, reply := none, replyFact := none,
         completionStatus := none }] ∧
    (∀ proven, replies .sample .sample proven withdrawnRows ["h1", "lost", "h1"] =
      .ok ((pushNewAll [] ["h1", "lost", "h1"]).map (batchReplyRow .sample (bySeq withdrawnReply)))) :=
  ⟨withdrawnRows_stored, by decide +kernel,
    fun proven => (batch_answers_singly .sample withdrawnRows_stored).1 proven _⟩

end RallyPoint.BatchReplies
