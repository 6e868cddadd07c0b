/-
# RallyPoint.Backlog — the room's backlog: its items, their encoding and their list (`backlog.rs`).

An item is written into the free-text fields of one fact, and the latest fact under an id is the item. The
encoding is read back here once and for all: the id comes back trimmed, the lists in increasing order without
repeats, the time trimmed or not at all (`factToBacklogItem_build`). The list gives one item per id, and one
more fact changes the item of its own id only (`findItem_concat`).
-/
import RallyPoint.ReplyState

namespace RallyPoint

open Lib

/-! ## Items -/

/-- The values of an item that a call may name. -/
@[ext]
structure BacklogFields where
  intent : String
  owns : List String
  dependsOn : List String
  status : String
  target : Option String
  expectedBy : Option String
  deriving DecidableEq, Repr

structure BacklogItem extends BacklogFields where
  id : String
  tool : Option String
  createdAt : String
  eventId : String
  seq : Int
  deriving DecidableEq, Repr

/-! ## The encoding -/

/-- `trim`, and nothing where nothing is left. -/
def nonEmptyTrimmed (s : String) : Option String :=
  if (trim s).toList.isEmpty then none else some (trim s)

def extractId (fact : Fact) : Option String :=
  (fact.summary.bind (stripPrefix "id:")).bind fun rest => (split '\n' rest).head?.bind nonEmptyTrimmed

def extractIntent (fact : Fact) : String := fact.subject

def extractOwns (fact : Fact) : List String := fact.scope.filterMap (stripPrefix "owns:")

def extractDependsOn (fact : Fact) : List String := fact.evidence.filterMap (stripPrefix "dep:")

def extractExpectedBy (fact : Fact) : Option String :=
  (fact.evidence.filterMap (stripPrefix "expected_by:")).getLast?.bind nonEmptyTrimmed

def extractStatus (fact : Fact) : String := fact.status.getD "open"

def factToBacklogItem (fact : Fact) : Option BacklogItem :=
  if fact.kind != .backlogItem then none
  else if !fact.scope.any (· == "backlog-item") then none
  else do
    let id ← extractId fact
    return {
      id
      intent := extractIntent fact
      owns := extractOwns fact
      dependsOn := extractDependsOn fact
      status := extractStatus fact
      target := fact.target
      expectedBy := extractExpectedBy fact
      tool := fact.tool
      createdAt := fact.createdAt
      eventId := fact.eventId
      seq := fact.seq }

def validateId (id : String) : Result Unit :=
  if (trim id).toList.isEmpty then .error (.usage "--id must not be empty")
  else if id.toList.contains ':' || id.toList.contains '\n' then
    .error (.usage "--id must not contain ':' or newlines")
  else .ok ()

def validStatuses : List String := ["open", "planned", "in_progress", "blocked", "done"]

def validateStatus (status : String) : Result Unit :=
  if validStatuses.contains status then .ok ()
  else .error (.usage ("--status must be one of " ++ join "|" validStatuses ++
    s!"; got {String.quote status}"))

/-- What a new fact takes from the process: `new_id` and `now_string`. -/
structure FactStamp where
  eventId : String
  createdAt : String

def buildBacklogFact (stamp : FactStamp) (tool id : String) (fields : BacklogFields) : Fact where
  schema := factSchema
  eventId := stamp.eventId
  seq := 0
  threadId := "backlog-" ++ String.ofList (id.toList.take 32)
  kind := .backlogItem
  tool := some tool
  subject := fields.intent
  scope := sortDedup ("backlog-item" :: fields.owns.map ("owns:" ++ ·))
  createdAt := stamp.createdAt
  summary := some ("id:" ++ id)
  evidence := sortDedup (fields.dependsOn.map ("dep:" ++ ·) ++
    ((fields.expectedBy.bind nonEmptyTrimmed).map ("expected_by:" ++ ·)).toList)
  target := fields.target
  status := some fields.status

/-! ## The list -/

/-- One fact read into the map from ids to facts; a later sequence number overrides. -/
def keepLatest (byId : Std.TreeMap String Fact) (fact : Fact) : Std.TreeMap String Fact :=
  if fact.kind != .backlogItem then byId
  else if !fact.scope.any (· == "backlog-item") then byId
  else
    match extractId fact with
    | none => byId
    | some id => byId.alter id fun
      | none => some fact
      | some entry => if fact.seq > entry.seq then some fact else some entry

def latestById (facts : List Fact) : Std.TreeMap String Fact := facts.foldl keepLatest ∅

def backlogItemsFromFacts (facts : List Fact) : List BacklogItem :=
  ((latestById facts).toList.filterMap fun entry => factToBacklogItem entry.2).insertionSort
    fun a b => a.seq ≤ b.seq

def selectFactsOfKinds (candidates : List Fact) (wanted : List FactKind) : List Fact :=
  (keepFirst [] (candidates.filter fun f => wanted.contains f.kind)).insertionSort fun a b => a.seq ≤ b.seq

def listBacklogItems (facts : List Fact) : List BacklogItem :=
  backlogItemsFromFacts (selectFactsOfKinds facts [.backlogItem])

/-! ## The calls, up to their append -/

/-- The values that a call names. -/
structure NamedFields where
  intent : Option String := none
  owns : Option (List String) := none
  dependsOn : Option (List String) := none
  status : Option String := none
  target : Option String := none
  expectedBy : Option String := none

/-- The values named, and the others from elsewhere. -/
def NamedFields.over (named : NamedFields) (other : BacklogFields) : BacklogFields where
  intent := named.intent.getD other.intent
  owns := named.owns.getD other.owns
  dependsOn := named.dependsOn.getD other.dependsOn
  status := named.status.getD other.status
  target := named.target.or other.target
  expectedBy := named.expectedBy.or other.expectedBy

def addBacklogItem (stamp : FactStamp) (tool id intent : String) (owns dependsOn : List String)
    (status target expectedBy : Option String) : Result Fact := do
  validateId id
  status.forM validateStatus
  return buildBacklogFact stamp tool id
    { intent, owns, dependsOn, status := status.getD "open", target, expectedBy }

def findItem (items : List BacklogItem) (id : String) : Option BacklogItem := items.find? (·.id == id)

def updateBacklogItem (stamp : FactStamp) (items : List BacklogItem) (tool id : String)
    (named : NamedFields) : Result Fact := do
  validateId id
  named.status.forM validateStatus
  match findItem items id with
  | none => .error (.usage s!"no backlog item with id '{id}'")
  | some existing => return buildBacklogFact stamp tool id (named.over existing.toBacklogFields)

def markBacklogDone (stamp : FactStamp) (items : List BacklogItem) (tool id : String) : Result Fact :=
  match findItem items id with
  | none => .error (.usage s!"no backlog item with id '{id}'")
  | some existing =>
    if existing.status == "done" then .error (.usage s!"backlog item '{id}' is already done")
    else .ok (buildBacklogFact stamp tool id { existing.toBacklogFields with status := "done" })

/-! ## The encoding read back -/

/-- The values as a fact encodes them. -/
def BacklogFields.stored (fields : BacklogFields) : BacklogFields :=
  { fields with
    owns := sortDedup fields.owns
    dependsOn := sortDedup fields.dependsOn
    expectedBy := fields.expectedBy.bind nonEmptyTrimmed }

/-- The values that the encoding leaves as they are. -/
structure BacklogFields.Canonical (fields : BacklogFields) : Prop where
  owns : fields.owns.Pairwise (· < ·)
  dependsOn : fields.dependsOn.Pairwise (· < ·)
  expectedBy : ∀ time ∈ fields.expectedBy, nonEmptyTrimmed time = some time

section Encoding

variable {id : String} {fields : BacklogFields}

theorem nonEmptyTrimmed_eq_some_iff {s t : String} :
    nonEmptyTrimmed s = some t ↔ trim s = t ∧ t.toList ≠ [] := by
  unfold nonEmptyTrimmed
  split
  case isTrue h =>
    rw [List.isEmpty_iff] at h
    simp only [reduceCtorEq, false_iff, not_and, not_not]
    rintro rfl
    exact h
  case isFalse h =>
    rw [List.isEmpty_iff] at h
    rw [Option.some.injEq]
    refine ⟨?_, And.left⟩
    rintro rfl
    exact ⟨rfl, h⟩

theorem nonEmptyTrimmed_self {s t : String} (h : nonEmptyTrimmed s = some t) : nonEmptyTrimmed t = some t := by
  obtain ⟨rfl, hne⟩ := nonEmptyTrimmed_eq_some_iff.mp h
  exact nonEmptyTrimmed_eq_some_iff.mpr ⟨trim_trim s, hne⟩

@[simp]
theorem bind_nonEmptyTrimmed_bind (o : Option String) :
    (o.bind nonEmptyTrimmed).bind nonEmptyTrimmed = o.bind nonEmptyTrimmed := by
  cases h : o.bind nonEmptyTrimmed with
  | none => rfl
  | some t =>
    obtain ⟨s, -, hs⟩ := Option.bind_eq_some_iff.mp h
    rw [Option.bind_some]
    exact nonEmptyTrimmed_self hs

@[simp]
theorem BacklogFields.stored_stored (fields : BacklogFields) : fields.stored.stored = fields.stored := by
  simp [BacklogFields.stored]

theorem BacklogFields.stored_eq_self_iff : fields.stored = fields ↔ fields.Canonical := by
  have hexpected : fields.expectedBy.bind nonEmptyTrimmed = fields.expectedBy ↔
      ∀ time ∈ fields.expectedBy, nonEmptyTrimmed time = some time := by
    cases fields.expectedBy <;> simp
  constructor
  · intro h
    exact ⟨sortDedup_eq_self_iff.mp (congrArg (·.owns) h), sortDedup_eq_self_iff.mp (congrArg (·.dependsOn) h),
      hexpected.mp (congrArg (·.expectedBy) h)⟩
  · rintro ⟨howns, hdeps, htime⟩
    rw [stored, sortDedup_eq_self_iff.mpr howns, sortDedup_eq_self_iff.mpr hdeps, hexpected.mpr htime]

theorem validateId_ok_iff :
    validateId id = .ok () ↔ (trim id).toList ≠ [] ∧ ':' ∉ id.toList ∧ '\n' ∉ id.toList := by
  unfold validateId
  split
  case isTrue h =>
    have hempty : trim id = "" := by simpa using h
    simp [hempty]
  case isFalse h =>
    rw [List.isEmpty_iff] at h
    simp [h]

/-- What entries under one prefix leave of entries under another. -/
theorem filterMap_stripPrefix_map {pre pre' : String} (h : ∀ s t, pre' ++ s ≠ pre ++ t) (xs : List String) :
    (xs.map (pre' ++ ·)).filterMap (stripPrefix pre) = [] := by
  simp only [List.filterMap_map, List.filterMap_eq_nil_iff, Function.comp_apply]
  intro s _
  exact Option.eq_none_iff_forall_ne_some.mpr fun t ht => h s t (stripPrefix_eq_some_iff.mp ht)

theorem filterMap_stripPrefix_self (pre : String) (xs : List String) :
    (xs.map (pre ++ ·)).filterMap (stripPrefix pre) = xs := by
  simp [List.filterMap_map]

theorem extractId_build {stamp : FactStamp} {tool : String} {n : Int} (hline : '\n' ∉ id.toList) :
    extractId { buildBacklogFact stamp tool id fields with seq := n } = nonEmptyTrimmed id := by
  have hwhole : id.toList.takeWhile (· != '\n') = id.toList :=
    List.takeWhile_eq_self_iff.mpr fun c hc => by simpa using ne_of_mem_of_not_mem hc hline
  simp [extractId, buildBacklogFact, head?_split, hwhole]

theorem extractOwns_build {stamp : FactStamp} {tool : String} {n : Int} :
    extractOwns { buildBacklogFact stamp tool id fields with seq := n } = sortDedup fields.owns := by
  have hsentinel : stripPrefix "owns:" "backlog-item" = none := by decide
  simp only [extractOwns, buildBacklogFact, filterMap_stripPrefix_sortDedup, filterMap_stripPrefix_self,
    List.filterMap_cons_none hsentinel]

theorem expectedBy_ne_dep (s t : String) : "expected_by:" ++ s ≠ "dep:" ++ t := by
  intro h
  simpa using congrArg String.toList h

theorem extractDependsOn_build {stamp : FactStamp} {tool : String} {n : Int} :
    extractDependsOn { buildBacklogFact stamp tool id fields with seq := n } = sortDedup fields.dependsOn := by
  simp only [extractDependsOn, buildBacklogFact, filterMap_stripPrefix_sortDedup, List.filterMap_append,
    filterMap_stripPrefix_self, Option.toList_map, filterMap_stripPrefix_map expectedBy_ne_dep, List.append_nil]

theorem extractExpectedBy_build {stamp : FactStamp} {tool : String} {n : Int} :
    extractExpectedBy { buildBacklogFact stamp tool id fields with seq := n } =
      fields.expectedBy.bind nonEmptyTrimmed := by
  have hone : ∀ time : Option String, (sortDedup time.toList).getLast? = time := by
    intro time
    cases time <;> rfl
  simp only [extractExpectedBy, buildBacklogFact, filterMap_stripPrefix_sortDedup, List.filterMap_append,
    filterMap_stripPrefix_map fun s t => (expectedBy_ne_dep t s).symm, Option.toList_map,
    filterMap_stripPrefix_self, List.nil_append, hone, bind_nonEmptyTrimmed_bind]

/-- **The encoding read back:** the id trimmed, the lists in order, the time trimmed or gone. -/
theorem factToBacklogItem_build {stamp : FactStamp} {tool id' : String} {n : Int} (hline : '\n' ∉ id.toList)
    (hid : nonEmptyTrimmed id = some id') :
    factToBacklogItem { buildBacklogFact stamp tool id fields with seq := n } =
      some { fields.stored with
        id := id', tool := some tool, createdAt := stamp.createdAt, eventId := stamp.eventId, seq := n } := by
  have hsentinel : (buildBacklogFact stamp tool id fields).scope.any (· == "backlog-item") = true :=
    List.any_eq_true.mpr ⟨_, mem_sortDedup.mpr List.mem_cons_self, by simp⟩
  have hkind : ((buildBacklogFact stamp tool id fields).kind != .backlogItem) = false := rfl
  simp only [factToBacklogItem, hkind, hsentinel, extractId_build hline, hid, extractOwns_build,
    extractDependsOn_build, extractExpectedBy_build]
  rfl

/-- An id that an item has is trimmed and not empty. -/
theorem id_of_factToBacklogItem {fact : Fact} {item : BacklogItem} (h : factToBacklogItem fact = some item) :
    nonEmptyTrimmed item.id = some item.id := by
  unfold factToBacklogItem at h
  split at h
  · cases h
  · split at h
    · cases h
    · obtain ⟨id, hid, hitem⟩ := Option.bind_eq_some_iff.mp h
      obtain rfl := Option.some.inj hitem
      obtain ⟨rest, -, hrest⟩ := Option.bind_eq_some_iff.mp hid
      rw [head?_split, Option.bind_some] at hrest
      exact nonEmptyTrimmed_self hrest

end Encoding

/-! ## The list read back -/

section Items

variable {facts : List Fact} {f : Fact} {id : String}

theorem keepLatest_eq (byId : Std.TreeMap String Fact) (fact : Fact) :
    keepLatest byId fact = match factToBacklogItem fact with
      | none => byId
      | some item => byId.alter item.id fun
        | none => some fact
        | some entry => if fact.seq > entry.seq then some fact else some entry := by
  unfold keepLatest factToBacklogItem
  split
  · rfl
  · split
    · rfl
    · cases extractId fact <;> rfl

theorem latestById_concat : latestById (facts ++ [f]) = keepLatest (latestById facts) f := by
  simp [latestById]

/-- The map holds facts that were read, each under its own id. -/
theorem latestById_spec {e : Fact} (h : (latestById facts)[id]? = some e) :
    e ∈ facts ∧ (factToBacklogItem e).map (·.id) = some id := by
  induction facts using List.reverseRecOn with
  | nil => simp [latestById] at h
  | append_singleton facts f ih =>
    have hold : (latestById facts)[id]? = some e →
        e ∈ facts ++ [f] ∧ (factToBacklogItem e).map (·.id) = some id := fun h =>
      ⟨List.mem_append_left _ (ih h).1, (ih h).2⟩
    rw [latestById_concat, keepLatest_eq] at h
    cases hf : factToBacklogItem f with
    | none =>
      rw [hf] at h
      exact hold h
    | some item =>
      simp only [hf, Std.TreeMap.getElem?_alter, compare_eq_iff_eq] at h
      split at h
      case isFalse => exact hold h
      case isTrue hid =>
        subst hid
        have hnew : f ∈ facts ++ [f] ∧ (factToBacklogItem f).map (·.id) = some item.id :=
          ⟨List.mem_append_right _ (List.mem_singleton.mpr rfl), by rw [hf, Option.map_some]⟩
        cases hentry : (latestById facts)[item.id]? with
        | none =>
          rw [hentry] at h
          exact Option.some.inj h ▸ hnew
        | some entry =>
          simp only [hentry] at h
          split at h
          · exact Option.some.inj h ▸ hnew
          · exact hold (hentry.trans h)

/-- A fact above every sequence number becomes the entry of its id. -/
theorem getElem?_latestById_concat (hseq : ∀ x ∈ facts, x.seq < f.seq) :
    (latestById (facts ++ [f]))[id]? =
      if (factToBacklogItem f).map (·.id) = some id then some f else (latestById facts)[id]? := by
  rw [latestById_concat, keepLatest_eq]
  cases hf : factToBacklogItem f with
  | none => simp
  | some item =>
    simp only [Std.TreeMap.getElem?_alter, compare_eq_iff_eq, Option.map_some, Option.some.injEq]
    split
    case isFalse => rfl
    case isTrue =>
      cases hentry : (latestById facts)[item.id]? with
      | none => rfl
      | some entry => exact if_pos (hseq entry (latestById_spec hentry).1)

theorem mem_backlogItemsFromFacts {item : BacklogItem} :
    item ∈ backlogItemsFromFacts facts ↔
      ((latestById facts)[item.id]?).bind factToBacklogItem = some item := by
  simp only [backlogItemsFromFacts, List.mem_insertionSort, List.mem_filterMap, Option.bind_eq_some_iff]
  constructor
  · rintro ⟨⟨id, e⟩, hmem, hitem⟩
    have hget := Std.TreeMap.mem_toList_iff_getElem?_eq_some.mp hmem
    have hid := (latestById_spec hget).2
    rw [hitem, Option.map_some, Option.some.injEq] at hid
    exact ⟨e, hid ▸ hget, hitem⟩
  · rintro ⟨e, hget, hitem⟩
    exact ⟨(item.id, e), Std.TreeMap.mem_toList_iff_getElem?_eq_some.mpr hget, hitem⟩

/-- Of the items only one has the id. -/
theorem findItem_eq_some_iff {item : BacklogItem} :
    findItem (backlogItemsFromFacts facts) id = some item ↔ item ∈ backlogItemsFromFacts facts ∧ item.id = id := by
  constructor
  · intro h
    exact ⟨List.mem_of_find?_eq_some h, by simpa using List.find?_some h⟩
  · rintro ⟨hmem, rfl⟩
    cases hfind : findItem (backlogItemsFromFacts facts) item.id with
    | none => simpa using List.find?_eq_none.mp hfind item hmem
    | some other =>
      have hother := mem_backlogItemsFromFacts.mp (List.mem_of_find?_eq_some hfind)
      have hid : other.id = item.id := by simpa using List.find?_some hfind
      rw [hid, mem_backlogItemsFromFacts.mp hmem] at hother
      exact hother.symm

theorem findItem_backlogItemsFromFacts :
    findItem (backlogItemsFromFacts facts) id = ((latestById facts)[id]?).bind factToBacklogItem := by
  refine Option.ext fun item => ?_
  rw [findItem_eq_some_iff, mem_backlogItemsFromFacts]
  constructor
  · rintro ⟨hitem, rfl⟩
    exact hitem
  · intro hitem
    obtain ⟨e, hget, he⟩ := Option.bind_eq_some_iff.mp hitem
    have hid := (latestById_spec hget).2
    rw [he, Option.map_some, Option.some.injEq] at hid
    exact ⟨hid ▸ hitem, hid⟩

/-- The narrowed read gives what the whole ledger gives. -/
theorem listBacklogItems_eq (h : IsLedger facts) : listBacklogItems facts = backlogItemsFromFacts facts := by
  have hselect : selectFactsOfKinds facts [.backlogItem] = facts.filter fun f => f.kind == .backlogItem := by
    have hkinds : (fun f : Fact => [FactKind.backlogItem].contains f.kind) = fun f => f.kind == .backlogItem := by
      funext f
      rw [Bool.eq_iff_iff]
      simp
    rw [selectFactsOfKinds, hkinds, keepFirst_eq (h.distinctIds.sublist (List.filter_sublist.map _)) (by simp)]
    exact List.Pairwise.insertionSort_eq ((h.ascending.filter _).imp le_of_lt)
  have hskip : ∀ byId fact, (if fact.kind == FactKind.backlogItem then keepLatest byId fact else byId) =
      keepLatest byId fact := by
    intro byId fact
    split
    · rfl
    case isFalse hkind =>
      rw [keepLatest, if_pos (by simpa using hkind)]
  rw [listBacklogItems, hselect, backlogItemsFromFacts, backlogItemsFromFacts, latestById, latestById,
    List.foldl_filter]
  simp only [hskip]

theorem findItem_listBacklogItems_eq_some_iff (h : IsLedger facts) {item : BacklogItem} :
    findItem (listBacklogItems facts) id = some item ↔ item ∈ listBacklogItems facts ∧ item.id = id := by
  rw [listBacklogItems_eq h, findItem_eq_some_iff]

theorem trim_id_of_mem (h : IsLedger facts) {item : BacklogItem} (hmem : item ∈ listBacklogItems facts) :
    trim item.id = item.id := by
  rw [listBacklogItems_eq h, mem_backlogItemsFromFacts] at hmem
  obtain ⟨e, -, he⟩ := Option.bind_eq_some_iff.mp hmem
  exact (nonEmptyTrimmed_eq_some_iff.mp (id_of_factToBacklogItem he)).1

/-- **One more fact** changes the item of its own id only. -/
theorem findItem_concat (h : IsLedger facts) (h' : IsLedger (facts ++ [f])) (hseq : ∀ x ∈ facts, x.seq < f.seq) :
    findItem (listBacklogItems (facts ++ [f])) id =
      if (factToBacklogItem f).map (·.id) = some id then factToBacklogItem f
      else findItem (listBacklogItems facts) id := by
  rw [listBacklogItems_eq h, listBacklogItems_eq h', findItem_backlogItemsFromFacts,
    findItem_backlogItemsFromFacts, getElem?_latestById_concat hseq]
  split <;> rfl

end Items

/-- An update goes on exactly when its id and status are accepted and the item is there. -/
theorem updateBacklogItem_ok_iff {stamp : FactStamp} {items : List BacklogItem} {tool id : String}
    {named : NamedFields} {fact : Fact} :
    updateBacklogItem stamp items tool id named = .ok fact ↔
      validateId id = .ok () ∧ named.status.forM validateStatus = .ok () ∧
        ∃ existing, findItem items id = some existing ∧
          fact = buildBacklogFact stamp tool id (named.over existing.toBacklogFields) := by
  constructor
  · intro h
    obtain ⟨⟨⟩, hid, h⟩ := bind_ok_iff.mp h
    obtain ⟨⟨⟩, hstatus, h⟩ := bind_ok_iff.mp h
    split at h
    · cases h
    case h_2 existing hfind => exact ⟨hid, hstatus, existing, hfind, (Except.ok.inj h).symm⟩
  · rintro ⟨hid, hstatus, existing, hfind, rfl⟩
    refine bind_ok_iff.mpr ⟨(), hid, bind_ok_iff.mpr ⟨(), hstatus, ?_⟩⟩
    rw [hfind]
    rfl

end RallyPoint
