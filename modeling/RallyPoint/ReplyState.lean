/-
# RallyPoint.ReplyState — where an addressed item stands with its receiver (`store.rs`, `discovery.rs`).

`rally locate` answers for one item from a few facts: the item, the facts whose `ref` names it and the
retractions of either (`selectReplyFacts`). The room answers for all items at once from closure indexes over
the whole resolved ledger. The two read the same closing predicates in different places: the reply history
asks them in a fixed precedence and skips withdrawn replies one by one, the room asks each of them over facts
that are resolved beforehand. `locate_agrees_with_room` says they never contradict each other.
-/
import RallyPoint.Answering
import RallyPoint.Lib.StableSort

namespace RallyPoint

open Lib

/-! ## The facts one item is answered from -/

/-- The first fact of each (event id, seq). -/
def keepFirst : List (String × Int) → List Fact → List Fact
  | _, [] => []
  | seen, f :: rest =>
    if seen.contains (f.eventId, f.seq) then keepFirst seen rest
    else f :: keepFirst ((f.eventId, f.seq) :: seen) rest

/-- The requested items and the facts that refer to one of them, by id. -/
def wantedReplyIds (candidates : List Fact) (eventIds : List String) : List String :=
  (candidates.filter fun fact => eventIds.contains fact.eventId || match fact.refId with
    | some id => eventIds.contains id
    | none => false).map (·.eventId) ++ eventIds

/-- Whether a candidate is wanted, or withdraws something wanted. -/
def isReplyInput (wanted : List String) (f : Fact) : Bool :=
  wanted.contains f.eventId || match targetOf f with
    | some target => wanted.contains target
    | none => false

def selectBatchReplyFacts (candidates : List Fact) (eventIds : List String) : List Fact :=
  (keepFirst [] (candidates.filter (isReplyInput (wantedReplyIds candidates eventIds)))).insertionSort
    fun a b => a.seq ≤ b.seq

def selectReplyFacts (candidates : List Fact) (eventId : String) : List Fact :=
  selectBatchReplyFacts candidates [eventId]

/-! ## Reply states -/

/-- The kinds of item with a reply contract. -/
inductive ReplyItemKind
  | handoff | blocker | artifact
  deriving DecidableEq, Repr

/-- Where an item stands; `stillOpen` is the blocker's word for `pending`. -/
inductive ReplyLabel
  | pending | acked | accepted | rejected | done | expired | stillOpen | resolved | answered | retracted
  deriving DecidableEq, Repr

def ReplyItemKind.asStr : ReplyItemKind → String
  | handoff => "handoff"
  | blocker => "blocker"
  | artifact => "artifact"

def ReplyLabel.asStr : ReplyLabel → String
  | pending => "pending"
  | acked => "acked"
  | accepted => "accepted"
  | rejected => "rejected"
  | done => "done"
  | expired => "expired"
  | stillOpen => "open"
  | resolved => "resolved"
  | answered => "answered"
  | retracted => "retracted"

/-- A state no later reply takes back. -/
def ReplyLabel.isTerminal : ReplyLabel → Bool
  | done | expired | resolved | answered => true
  | _ => false

/-- The terminal states an item of a kind can reach. -/
def ReplyItemKind.terminals : ReplyItemKind → List ReplyLabel
  | handoff => [.done, .expired]
  | blocker => [.resolved]
  | artifact => [.answered]

/-- The state of an item before any reply. -/
def ReplyItemKind.idle : ReplyItemKind → ReplyLabel
  | blocker => .stillOpen
  | _ => .pending

/-- One counted reply. -/
structure ReplyEvent where
  state : ReplyLabel
  byTool : Option String
  atTime : String
  eventId : String
  deriving DecidableEq, Repr

structure ReplyState where
  kind : ReplyItemKind
  state : ReplyLabel
  toTool : Option String
  byTool : Option String
  atTime : Option String
  replyEventId : Option String
  history : List ReplyEvent
  receiverAnswered : Option Bool
  deriving DecidableEq, Repr

/-! ## The reply projection -/

/-- A typed response counts from the addressee, or from anybody but the system when nobody is addressed. -/
def responderCounts (item r : Fact) : Bool :=
  match item.target with
  | some target => if target != "all" then receiverAckClosesObligation item r else !isSystemAuthored r
  | none => !isSystemAuthored r

def handoffReplyState (item r : Fact) : Option ReplyLabel :=
  if isReaperHandoffExpiry item r then some .expired
  else if factClosesHandoff item r then some .done
  else if handoffIsProtocolResponse r && decide (r.seq > item.seq) && responderCounts item r then
    if protocolMarker r "event_kind" == some "handoff.accepted" then some .accepted
    else if protocolMarker r "event_kind" == some "handoff.rejected" then some .rejected
    else some .acked
  else if receiverAckClosesObligation item r then some .acked
  else none

/-- The state one reply implies. -/
def impliedState (kind : ReplyItemKind) (item r : Fact) : Option ReplyLabel :=
  match kind with
  | .handoff => handoffReplyState item r
  | .blocker =>
    match r.kind with
    | .resolve | .release | .receipt | .claimExpired => some .resolved
    | _ => none
  | .artifact => if receiverAckClosesObligation item r then some .answered else none

/-- The replies that count, in ledger order. -/
def orderedReplies (item : Fact) (replies : List Fact) (retracted : List String) : List Fact :=
  (replies.filter fun r => r.refId == some item.eventId && r.eventId != item.eventId &&
    !retracted.contains r.eventId).insertionSort fun a b => a.seq ≤ b.seq

def replyHistory (kind : ReplyItemKind) (item : Fact) (ordered : List Fact) : List ReplyEvent :=
  ordered.filterMap fun r => (impliedState kind item r).map fun state =>
    { state := state, byTool := r.tool, atTime := r.createdAt, eventId := r.eventId }

/-- The last terminal reply, else the last reply. -/
def decidedReply (history : List ReplyEvent) : Option ReplyEvent :=
  (history.reverse.find? fun e => e.state.isTerminal).or history.getLast?

section Projection

variable (ext : Externals)

/-- The kind of an item with a reply contract. -/
def replyItemKind (item : Fact) : Option ReplyItemKind :=
  match item.kind with
  | .handoff => if handoffIsProtocolRequest item then some .handoff else none
  | .blocker => some .blocker
  | .artifact => if factIsAddressedObligation ext item then some .artifact else none
  | _ => none

/-- The reply state of an item of a given kind over its counted replies. -/
def replyStateOf (kind : ReplyItemKind) (item : Fact) (isRetracted : Bool) (ordered : List Fact) :
    ReplyState :=
  let history := replyHistory kind item ordered
  -- a withdrawn item keeps its history but names no reply
  let shown := if isRetracted then none else decidedReply history
  { kind := kind
    state := if isRetracted then .retracted else (shown.map (·.state)).getD kind.idle
    toTool := item.target.filter (· != "all")
    byTool := shown.bind (·.byTool)
    atTime := shown.map (·.atTime)
    replyEventId := shown.map (·.eventId)
    history := history
    receiverAnswered := if factIsAddressedObligation ext item then
        some (ordered.any fun r => receiverAckClosesObligation item r)
      else none }

def projectReplyState (item : Fact) (replies : List Fact) (retracted : List String) : Option ReplyState :=
  (replyItemKind ext item).map fun kind =>
    replyStateOf ext kind item (retracted.contains item.eventId) (orderedReplies item replies retracted)

end Projection

/-! ## The selected facts are enough -/

section Selection

variable {F : List Fact} {i : Fact}

/-- Distinct ids leave nothing to deduplicate. -/
theorem keepFirst_eq {seen : List (String × Int)} {l : List Fact} (hids : (l.map (·.eventId)).Nodup)
    (hseen : ∀ x ∈ l, (x.eventId, x.seq) ∉ seen) : keepFirst seen l = l := by
  induction l generalizing seen with
  | nil => rfl
  | cons f rest ih =>
    rw [List.map_cons, List.nodup_cons] at hids
    obtain ⟨hfresh, hseen⟩ := List.forall_mem_cons.mp hseen
    have hrest : keepFirst ((f.eventId, f.seq) :: seen) rest = rest := by
      refine ih hids.2 fun x hx hmem => ?_
      rcases List.mem_cons.mp hmem with heq | hmem
      · exact hids.1 (List.mem_map.mpr ⟨x, hx, (Prod.mk.inj heq).1⟩)
      · exact hseen x hx hmem
    rw [keepFirst, if_neg (by simpa using hfresh), hrest]

theorem selectReplyFacts_perm (hids : (F.map (·.eventId)).Nodup) (id : String) :
    (selectReplyFacts F id).Perm (F.filter (isReplyInput (wantedReplyIds F [id]))) := by
  have hsub : ((F.filter (isReplyInput (wantedReplyIds F [id]))).map (·.eventId)).Nodup :=
    hids.sublist (List.filter_sublist.map _)
  rw [selectReplyFacts, selectBatchReplyFacts, keepFirst_eq hsub (by simp)]
  exact List.perm_insertionSort _ _

/-- The item and every fact that refers to it are wanted. -/
theorem mem_wantedReplyIds {x : Fact} (hx : x ∈ F) (h : x.eventId = i.eventId ∨ x.refId = some i.eventId) :
    x.eventId ∈ wantedReplyIds F [i.eventId] := by
  rcases h with h | h
  · rw [h]
    exact List.mem_append_right _ (List.mem_singleton.mpr rfl)
  · refine List.mem_append_left _ (List.mem_map.mpr ⟨x, List.mem_filter.mpr ⟨hx, ?_⟩, rfl⟩)
    simp [h]

/-- The selection holds every retraction of a wanted id. -/
theorem mem_retractedIds_select (hids : (F.map (·.eventId)).Nodup) {id : String}
    (hwanted : id ∈ wantedReplyIds F [i.eventId]) :
    id ∈ retractedIds (selectReplyFacts F i.eventId) ↔ id ∈ retractedIds F := by
  simp only [retractedIds, List.mem_filterMap, (selectReplyFacts_perm hids i.eventId).mem_iff,
    List.mem_filter]
  constructor
  · rintro ⟨x, ⟨hx, -⟩, htarget⟩
    exact ⟨x, hx, htarget⟩
  · rintro ⟨x, hx, htarget⟩
    refine ⟨x, ⟨hx, ?_⟩, htarget⟩
    simp [isReplyInput, htarget, hwanted]

/-- Sorting by distinct sequences forgets where the replies came from. -/
theorem orderedReplies_select (hids : (F.map (·.eventId)).Nodup) (hseqs : (F.map (·.seq)).Nodup) :
    orderedReplies i (selectReplyFacts F i.eventId) (retractedIds (selectReplyFacts F i.eventId)) =
      orderedReplies i F (retractedIds F) := by
  let S := selectReplyFacts F i.eventId
  let counts (retracted : List String) (r : Fact) : Bool :=
    r.refId == some i.eventId && r.eventId != i.eventId && !retracted.contains r.eventId
  have hsame : ∀ x ∈ F, counts (retractedIds S) x = counts (retractedIds F) x := by
    intro x hx
    by_cases href : x.refId = some i.eventId
    · have hiff := mem_retractedIds_select hids (mem_wantedReplyIds hx (.inr href))
      simp only [counts, List.contains_eq_mem, S, hiff]
    · have hne : (x.refId == some i.eventId) = false := beq_eq_false_iff_ne.mpr href
      simp only [counts, hne, Bool.false_and]
  have hinput : ∀ x ∈ F, counts (retractedIds F) x = true →
      isReplyInput (wantedReplyIds F [i.eventId]) x = true := by
    intro x hx hcounts
    simp only [counts, Bool.and_eq_true, beq_iff_eq] at hcounts
    simp [isReplyInput, mem_wantedReplyIds hx (.inr hcounts.1.1)]
  have hperm : (S.filter (counts (retractedIds S))).Perm (F.filter (counts (retractedIds F))) := by
    refine ((selectReplyFacts_perm hids i.eventId).filter _).trans (List.Perm.of_eq ?_)
    rw [List.filter_filter]
    refine List.filter_congr fun x hx => ?_
    rw [hsame x hx]
    cases hcounts : counts (retractedIds F) x with
    | false => rfl
    | true => simp [hinput x hx hcounts]
  have hsorted : ∀ l : List Fact, SortedBy (·.seq) (l.insertionSort fun a b => a.seq ≤ b.seq) := fun l =>
    sortedBy_insertionSort (fun _ _ => Iff.rfl) l
  refine eq_of_perm_of_sorted ?_ (hsorted _) (hsorted _) fun a ha b hb hkey => ?_
  · exact (List.perm_insertionSort _ _).trans (hperm.trans (List.perm_insertionSort _ _).symm)
  · have hmem : ∀ x ∈ (S.filter (counts (retractedIds S))).insertionSort (fun a b => a.seq ≤ b.seq), x ∈ F :=
      fun x hx => (List.mem_filter.mp (hperm.mem_iff.mp ((List.mem_insertionSort _).mp hx))).1
    exact List.inj_on_of_nodup_map hseqs (hmem a ha) (hmem b hb) hkey

/-- **The selection answers as the ledger does.** -/
theorem projectReplyState_select (ext : Externals) (hids : (F.map (·.eventId)).Nodup)
    (hseqs : (F.map (·.seq)).Nodup) :
    projectReplyState ext i (selectReplyFacts F i.eventId) (retractedIds (selectReplyFacts F i.eventId)) =
      projectReplyState ext i F (retractedIds F) := by
  have hitem : i.eventId ∈ wantedReplyIds F [i.eventId] :=
    List.mem_append_right _ (List.mem_singleton.mpr rfl)
  simp only [projectReplyState, orderedReplies_select hids hseqs, List.contains_eq_mem,
    mem_retractedIds_select hids hitem]

end Selection

/-! ## Reading a reply state -/

section Reading

variable {F : List Fact} {i : Fact} {kind : ReplyItemKind}

theorem mem_orderedReplies {r : Fact} {retracted : List String} :
    r ∈ orderedReplies i F retracted ↔
      r ∈ F ∧ r.refId = some i.eventId ∧ r.eventId ≠ i.eventId ∧ r.eventId ∉ retracted := by
  simp [orderedReplies, and_assoc]

/-- The state shown is that of a counted reply, or the idle one. -/
theorem decidedState_cases (history : List ReplyEvent) :
    (∃ e ∈ history, ((decidedReply history).map (·.state)).getD kind.idle = e.state) ∨
      ((decidedReply history).map (·.state)).getD kind.idle = kind.idle := by
  cases h : decidedReply history with
  | none => exact .inr rfl
  | some e =>
    refine .inl ⟨e, ?_, rfl⟩
    rcases Option.or_eq_some_iff.mp h with h | ⟨-, h⟩
    · exact List.mem_reverse.mp (List.mem_of_find?_eq_some h)
    · exact List.mem_of_getLast? h

/-- A terminal reply decides, whenever one came. -/
theorem isTerminal_decidedState_iff (history : List ReplyEvent) :
    (((decidedReply history).map (·.state)).getD kind.idle).isTerminal = true ↔
      ∃ e ∈ history, e.state.isTerminal = true := by
  constructor
  · intro h
    rcases decidedState_cases history with ⟨e, he, hstate⟩ | hidle
    · exact ⟨e, he, hstate ▸ h⟩
    · rw [hidle] at h
      cases kind <;> cases h
  · rintro ⟨e, he, hterminal⟩
    have hfound : (history.reverse.find? fun e => e.state.isTerminal).isSome = true := by
      rw [List.find?_isSome]
      exact ⟨e, List.mem_reverse.mpr he, hterminal⟩
    obtain ⟨last, hlast⟩ := Option.isSome_iff_exists.mp hfound
    have hdecided : decidedReply history = some last := by rw [decidedReply, hlast, Option.some_or]
    have hstop := List.find?_some hlast
    rw [hdecided]
    exact hstop

/-- A terminal state is shown exactly when some counted reply implies one. -/
theorem isTerminal_state_iff {ext : Externals} {ordered : List Fact} :
    (replyStateOf ext kind i false ordered).state.isTerminal = true ↔
      ∃ r ∈ ordered, ∃ label, impliedState kind i r = some label ∧ label.isTerminal = true := by
  have hstate : (replyStateOf ext kind i false ordered).state =
      ((decidedReply (replyHistory kind i ordered)).map (·.state)).getD kind.idle := rfl
  rw [hstate, isTerminal_decidedState_iff]
  simp only [replyHistory, List.mem_filterMap, Option.map_eq_some_iff]
  constructor
  · rintro ⟨e, ⟨r, hr, label, hlabel, rfl⟩, hterminal⟩
    exact ⟨r, hr, label, hlabel, hterminal⟩
  · rintro ⟨r, hr, label, hlabel, hterminal⟩
    exact ⟨_, ⟨r, hr, label, hlabel, rfl⟩, hterminal⟩

/-- A terminal state is one of the kind's own. -/
theorem impliedState_terminal {r : Fact} {label : ReplyLabel} (h : impliedState kind i r = some label)
    (hterminal : label.isTerminal = true) : label ∈ kind.terminals := by
  cases kind with
  | handoff =>
    simp only [impliedState, handoffReplyState] at h
    split_ifs at h <;> cases h <;> first | decide | cases hterminal
  | blocker =>
    simp only [impliedState] at h
    split at h <;> cases h <;> decide
  | artifact =>
    simp only [impliedState] at h
    split at h <;> cases h
    decide

theorem isTerminal_state_iff_mem {ext : Externals} {ordered : List Fact} :
    (replyStateOf ext kind i false ordered).state.isTerminal = true ↔
      (replyStateOf ext kind i false ordered).state ∈ kind.terminals := by
  have hstate : (replyStateOf ext kind i false ordered).state =
      ((decidedReply (replyHistory kind i ordered)).map (·.state)).getD kind.idle := rfl
  rw [hstate]
  constructor
  · intro hterminal
    rcases decidedState_cases (replyHistory kind i ordered) with ⟨e, he, hlabel⟩ | hidle
    · rw [hlabel] at hterminal ⊢
      simp only [replyHistory, List.mem_filterMap, Option.map_eq_some_iff] at he
      obtain ⟨r, -, label, himplied, rfl⟩ := he
      exact impliedState_terminal himplied hterminal
    · rw [hidle] at hterminal
      cases kind <;> cases hterminal
  · intro hmem
    cases kind <;> simp only [ReplyItemKind.terminals, List.mem_cons, List.not_mem_nil, or_false] at hmem
    · rcases hmem with hmem | hmem <;> rw [hmem] <;> rfl
    · rw [hmem]; rfl
    · rw [hmem]; rfl

end Reading

/-! ## Agreement with the room -/

/-- A `ref` names earlier facts only. -/
def RefsEarlier (F : List Fact) : Prop := ∀ x ∈ F, ∀ y ∈ F, x.refId = some y.eventId → y.seq < x.seq

/-- A standing item of the ledger with a reply contract, posted in this repository. -/
structure LocatedItem (ext : Externals) (F : List Fact) (i : Fact) : Prop where
  mem : i ∈ F
  standing : i.eventId ∉ retractedIds F
  isLocal : i.scope.any (· == "external-intake") = false
  replies : (replyItemKind ext i).isSome = true

/-- What `locate` answers for `i` is what the room shows of it. -/
structure AgreesWithRoom (ext : Externals) (reply : ReplyState) (room : RoomSnapshot) (i : Fact) : Prop where
  handoff : i.kind = .handoff →
    ((reply.state = .done ∨ reply.state = .expired) ↔ i ∉ room.openHandoffs)
  receiver : reply.receiverAnswered = some true ↔
    factIsAddressedObligation ext i = true ∧ i ∉ room.openObligations
  blocker : i.kind = .blocker → (reply.state = .resolved ↔ i ∉ room.activeBlockers)
  artifact : i.kind = .artifact → (reply.state = .answered ↔ i ∉ room.openObligations)

/-- The room's bucket of standing items of a kind. -/
def standingItems (ext : Externals) (facts : List Fact) : ReplyItemKind → List Fact
  | .handoff => projectOpenHandoffs facts
  | .blocker => projectActiveBlockers facts
  | .artifact => projectOpenObligations ext facts

namespace LocatedItem

variable {ext : Externals} {F : List Fact} {i : Fact}

theorem resolved (h : LocatedItem ext F i) : i ∈ resolvedFacts F := mem_resolvedFacts.mpr ⟨h.mem, h.standing⟩

/-- The counted replies are the resolved facts that refer to the item. -/
theorem mem_replies (h : LocatedItem ext F i) (hids : (F.map (·.eventId)).Nodup) (hrefs : RefsEarlier F)
    {r : Fact} :
    r ∈ orderedReplies i F (retractedIds F) ↔ r ∈ resolvedFacts F ∧ r.refId = some i.eventId := by
  rw [mem_orderedReplies, mem_resolvedFacts]
  constructor
  · rintro ⟨hr, href, -, hstanding⟩
    exact ⟨⟨hr, hstanding⟩, href⟩
  · rintro ⟨⟨hr, hstanding⟩, href⟩
    refine ⟨hr, href, fun hid => ?_, hstanding⟩
    -- an item does not refer to itself
    have hsame : r = i := List.inj_on_of_nodup_map hids hr h.mem hid
    have hlt := hrefs r hr i h.mem href
    rw [hsame] at hlt
    omega

theorem later_of_ref (h : LocatedItem ext F i) (hrefs : RefsEarlier F) {r : Fact} (hr : r ∈ resolvedFacts F)
    (href : r.refId = some i.eventId) : i.seq < r.seq :=
  hrefs r (mem_resolvedFacts.mp hr).1 i h.mem href

/-- A reply completes a handoff exactly when the room's closer rule says so; expiry is one such way. -/
theorem handoff_terminal_iff {r : Fact} (hlater : i.seq < r.seq) (href : r.refId = some i.eventId) :
    (∃ label, impliedState .handoff i r = some label ∧ label.isTerminal = true) ↔
      factClosesHandoff i r = true := by
  simp only [impliedState, handoffReplyState]
  by_cases hexpiry : isReaperHandoffExpiry i r = true
  · have hkind : r.kind = .resolve := by
      by_contra hkind
      simp [isReaperHandoffExpiry, hkind] at hexpiry
    have hcloses : factClosesHandoff i r = true := by
      simp [factClosesHandoff, handoffCloserMatchesTarget, hexpiry, isCompletionKind, hkind, hlater, href]
    simp only [hexpiry, if_true, hcloses, iff_true]
    exact ⟨.expired, rfl, rfl⟩
  · by_cases hcloses : factClosesHandoff i r = true
    · simp only [hexpiry, hcloses, if_true, if_false, Bool.false_eq_true, iff_true]
      exact ⟨.done, rfl, rfl⟩
    · simp only [hexpiry, hcloses, if_false, Bool.false_eq_true, iff_false]
      rintro ⟨label, hlabel, hterminal⟩
      split_ifs at hlabel <;> cases hlabel <;> cases hterminal

theorem not_mem_openHandoffs_iff (h : LocatedItem ext F i) (hkind : i.kind = .handoff)
    (hrequest : handoffIsProtocolRequest i = true) :
    i ∉ projectOpenHandoffs (resolvedFacts F) ↔ ∃ r ∈ resolvedFacts F, factClosesHandoff i r = true := by
  simp [mem_projectOpenHandoffs, h.resolved, hkind, hrequest, h.isLocal, and_assoc]

theorem not_mem_openObligations_iff (h : LocatedItem ext F i)
    (haddressed : factIsAddressedObligation ext i = true) :
    i ∉ projectOpenObligations ext (resolvedFacts F) ↔
      ∃ r ∈ resolvedFacts F, receiverAckClosesObligation i r = true := by
  simp [mem_projectOpenObligations, h.resolved, haddressed, and_assoc]

theorem not_mem_activeBlockers_iff (h : LocatedItem ext F i) (hkind : i.kind = .blocker) :
    i ∉ projectActiveBlockers (resolvedFacts F) ↔
      ∃ r ∈ resolvedFacts F, r.refId = some i.eventId ∧ closesActiveClaim r.kind = true := by
  have hrefs : i.eventId ∈ resolvedRefs (resolvedFacts F) ↔
      ∃ r ∈ resolvedFacts F, r.refId = some i.eventId ∧ closesActiveClaim r.kind = true := by
    simp only [resolvedRefs, List.mem_filterMap, List.mem_filter]
    refine exists_congr fun r => ?_
    cases r.kind <;> simp [closesActiveClaim]
  have hmem := h.resolved
  simp only [projectActiveBlockers, List.mem_filter, hmem, hkind, beq_self_eq_true, and_self, true_and,
    List.contains_eq_mem, Bool.not_eq_true', decide_eq_false_iff_not, not_not, hrefs]

/-- A terminal state is shown exactly when the room no longer shows the item as standing. -/
theorem isTerminal_iff (h : LocatedItem ext F i) (hids : (F.map (·.eventId)).Nodup) (hrefs : RefsEarlier F)
    {kind : ReplyItemKind} (hkind : replyItemKind ext i = some kind) :
    (replyStateOf ext kind i false (orderedReplies i F (retractedIds F))).state.isTerminal = true ↔
      i ∉ standingItems ext (resolvedFacts F) kind := by
  rw [isTerminal_state_iff]
  simp only [h.mem_replies hids hrefs, and_assoc]
  cases hk : i.kind <;> simp only [replyItemKind, hk] at hkind <;> try cases hkind
  case blocker =>
    rw [standingItems, h.not_mem_activeBlockers_iff hk]
    refine exists_congr fun r => and_congr_right fun _ => and_congr_right fun _ => ?_
    cases hr : r.kind <;> simp [impliedState, hr, closesActiveClaim, ReplyLabel.isTerminal]
  case handoff =>
    split at hkind <;> cases hkind
    rename_i hrequest
    rw [standingItems, h.not_mem_openHandoffs_iff hk hrequest]
    refine exists_congr fun r => and_congr_right fun hr => ?_
    constructor
    · rintro ⟨href, hterminal⟩
      exact (handoff_terminal_iff (h.later_of_ref hrefs hr href) href).mp hterminal
    · intro hcloses
      have href : r.refId = some i.eventId := by
        simp only [factClosesHandoff, Bool.and_eq_true, beq_iff_eq] at hcloses
        exact hcloses.1.2
      exact ⟨href, (handoff_terminal_iff (h.later_of_ref hrefs hr href) href).mpr hcloses⟩
  case artifact =>
    split at hkind <;> cases hkind
    rename_i haddressed
    rw [standingItems, h.not_mem_openObligations_iff haddressed]
    refine exists_congr fun r => and_congr_right fun _ => ?_
    constructor
    · rintro ⟨-, label, hlabel, -⟩
      by_contra hnot
      simp [impliedState, hnot] at hlabel
    · intro hack
      exact ⟨(receiverAckClosesObligation_iff.mp hack).2.2.1, .answered, by simp [impliedState, hack], rfl⟩

/-- The inbox rule is read off the same replies. -/
theorem receiverAnswered_iff (h : LocatedItem ext F i) (hids : (F.map (·.eventId)).Nodup)
    (hrefs : RefsEarlier F) {kind : ReplyItemKind} :
    (replyStateOf ext kind i false (orderedReplies i F (retractedIds F))).receiverAnswered = some true ↔
      factIsAddressedObligation ext i = true ∧ i ∉ projectOpenObligations ext (resolvedFacts F) := by
  by_cases haddressed : factIsAddressedObligation ext i = true
  · rw [h.not_mem_openObligations_iff haddressed]
    simp only [replyStateOf, haddressed, if_true, Option.some.injEq, List.any_eq_true, true_and,
      h.mem_replies hids hrefs]
    refine exists_congr fun r => ⟨fun hr => ⟨hr.1.1, hr.2⟩, fun hr => ?_⟩
    exact ⟨⟨hr.1, (receiverAckClosesObligation_iff.mp hr.2).2.2.1⟩, hr.2⟩
  · simp [replyStateOf, haddressed]

end LocatedItem

/-- **`locate` never contradicts the room.** The facts selected for a standing item give the reply state that
the whole ledger gives, and that state says of the item what the room's buckets say. -/
theorem locate_agrees_with_room (ext : Externals) {F : List Fact} {i : Fact} (coord : CoordinationConfig)
    (includeArchived : Bool) (now : Int) (hids : (F.map (·.eventId)).Nodup)
    (hseqs : (F.map (·.seq)).Nodup) (hrefs : RefsEarlier F) (h : LocatedItem ext F i) :
    projectReplyState ext i (selectReplyFacts F i.eventId) (retractedIds (selectReplyFacts F i.eventId)) =
        projectReplyState ext i F (retractedIds F) ∧
      ∃ reply, projectReplyState ext i F (retractedIds F) = some reply ∧
        AgreesWithRoom ext reply (snapshotFromFactsWithPolicy ext F coord includeArchived now) i := by
  obtain ⟨kind, hkind⟩ := Option.isSome_iff_exists.mp h.replies
  have hstanding : (retractedIds F).contains i.eventId = false := by simpa using h.standing
  refine ⟨projectReplyState_select ext hids hseqs,
    replyStateOf ext kind i false (orderedReplies i F (retractedIds F)), ?_, ?_⟩
  · rw [projectReplyState, hkind, Option.map_some, hstanding]
  · have hterminal := h.isTerminal_iff hids hrefs hkind
    rw [isTerminal_state_iff_mem] at hterminal
    -- the kind of the item is the kind of the contract
    have hsame : (i.kind = .handoff → kind = .handoff) ∧ (i.kind = .blocker → kind = .blocker) ∧
        (i.kind = .artifact → kind = .artifact) := by
      refine ⟨fun hk => ?_, fun hk => ?_, fun hk => ?_⟩ <;> simp only [replyItemKind, hk] at hkind
      · split at hkind <;> cases hkind
        rfl
      · cases hkind
        rfl
      · split at hkind <;> cases hkind
        rfl
    refine ⟨fun hk => ?_, h.receiverAnswered_iff hids hrefs, fun hk => ?_, fun hk => ?_⟩
    · obtain rfl := hsame.1 hk
      simp only [ReplyItemKind.terminals, List.mem_cons, List.not_mem_nil, or_false] at hterminal
      exact hterminal
    · obtain rfl := hsame.2.1 hk
      simp only [ReplyItemKind.terminals, List.mem_cons, List.not_mem_nil, or_false] at hterminal
      exact hterminal
    · obtain rfl := hsame.2.2 hk
      simp only [ReplyItemKind.terminals, List.mem_cons, List.not_mem_nil, or_false] at hterminal
      exact hterminal

/-- Bob answers Alice's request, then the answer is withdrawn. -/
def withdrawnReply : List Fact :=
  [Answering.request, { Answering.answer with seq := 2 },
    { eventId := "x1", seq := 3, kind := .artifact, tool := some "bob", subject := "retract: r1"
      createdAt := "2026-01-01T01:00:00Z" }]

theorem withdrawnReply_located : LocatedItem .sample withdrawnReply Answering.request where
  mem := by simp [withdrawnReply]
  standing := by decide
  isLocal := by decide
  replies := by decide

/-- The withdrawn reply counts nowhere. -/
theorem locate_agrees_with_room_withdrawn :
    projectReplyState .sample Answering.request (selectReplyFacts withdrawnReply "h1")
        (retractedIds (selectReplyFacts withdrawnReply "h1")) =
      projectReplyState .sample Answering.request withdrawnReply (retractedIds withdrawnReply) ∧
    ∃ reply, projectReplyState .sample Answering.request withdrawnReply (retractedIds withdrawnReply) =
        some reply ∧
      AgreesWithRoom .sample reply (AppendEnv.sample.snapshot withdrawnReply) Answering.request :=
  locate_agrees_with_room .sample {} false AppendEnv.sample.now (by decide) (by decide)
    (by unfold RefsEarlier; decide) withdrawnReply_located

end RallyPoint
