/-
# RallyPoint.BacklogRuns — the read-then-append updates of a room's backlog (`backlog.rs`).

A call reads the list, builds a whole new fact from the values it names and those it read, and appends it later,
under the mutation lock. Read and append are two steps: `BacklogRoom.step` interleaves the calls of any number
of clients, with appends of other kinds between them.

What a call does not name comes from its read. A run keeps every value last named exactly when no unnamed value
changed between a read and its append (`Fresh`); the encoding then still sorts the paths and dependencies.
-/
import RallyPoint.Backlog
import RallyPoint.Lib.Steps

namespace RallyPoint

open Lib

/-! ## Interleaved calls -/

inductive BacklogCall
  | add (tool id intent : String) (owns dependsOn : List String) (status target expectedBy : Option String)
  | update (tool id : String) (named : NamedFields)
  | done (tool id : String)

namespace BacklogCall

def tool : BacklogCall → String
  | add tool .. | update tool .. | done tool _ => tool

def id : BacklogCall → String
  | add _ id .. | update _ id _ | done _ id => id

/-- What the call names explicitly. -/
def named : BacklogCall → NamedFields
  | add _ _ intent owns dependsOn status target expectedBy =>
    { intent := some intent, owns := some owns, dependsOn := some dependsOn, status, target, expectedBy }
  | update _ _ named => named
  | done _ _ => { status := some "done" }

/-- The item the call reads; an `add` reads none. -/
def existing (call : BacklogCall) (items : List BacklogItem) : Option BacklogItem :=
  match call with
  | add .. => none
  | update _ id _ | done _ id => findItem items id

/-- The fact the call goes on to append. -/
def fact (stamp : FactStamp) (items : List BacklogItem) : BacklogCall → Result Fact
  | add tool id intent owns dependsOn status target expectedBy =>
    addBacklogItem stamp tool id intent owns dependsOn status target expectedBy
  | update tool id named => updateBacklogItem stamp items tool id named
  | done tool id => markBacklogDone stamp items tool id

end BacklogCall

/-- A call between its read and its append. -/
structure PendingCall where
  call : BacklogCall
  existing : Option BacklogItem
  fact : Fact

/-- A room's ledger, the calls of its clients, and, as bookkeeping, the calls appended so far. -/
structure BacklogRoom where
  facts : List Fact
  pending : Nat → Option PendingCall
  appended : List BacklogCall

inductive BacklogAction
  | read (client : Nat) (call : BacklogCall) (stamp : FactStamp)
  | append (client : Nat) (env : AppendEnv)
  /-- The append is refused, or the client is gone. -/
  | abandon (client : Nat)
  /-- An append of another kind. -/
  | other (env : AppendEnv) (fact : Fact)

namespace BacklogRoom

def empty : BacklogRoom := ⟨[], fun _ => none, []⟩

def items (room : BacklogRoom) : List BacklogItem := listBacklogItems room.facts

def step (room : BacklogRoom) : BacklogAction → Option BacklogRoom
  | .read client call stamp =>
    match room.pending client, call.fact stamp room.items with
    | none, .ok fact => some { room with
        pending := Function.update room.pending client (some ⟨call, call.existing room.items, fact⟩) }
    -- a client makes one call at a time; a refused call leaves nothing behind
    | _, _ => none
  | .append client env => do
    let p ← room.pending client
    match appendFactUnderLock env room.facts p.fact with
    | .ok (.committed f) => some {
        facts := room.facts ++ [f]
        pending := Function.update room.pending client none
        appended := room.appended ++ [p.call] }
    | _ => none
  | .abandon client => do
    let _ ← room.pending client
    some { room with pending := Function.update room.pending client none }
  | .other env fact =>
    if fact.kind == .backlogItem then none
    else
      match appendFactUnderLock env room.facts fact with
      | .ok (.committed f) => some { room with facts := room.facts ++ [f] }
      | _ => none

end BacklogRoom

/-! ## What is kept -/

/-- The last value of one field that a call for the item named. -/
def lastNamed {α : Type} (calls : List BacklogCall) (id : String) (field : NamedFields → Option α) : Option α :=
  (calls.reverse.filter fun call => call.id == id).findSome? fun call => field call.named

/-- For each field the value last named. -/
def lastGiven (calls : List BacklogCall) (id : String) : NamedFields where
  intent := lastNamed calls id (·.intent)
  owns := lastNamed calls id (·.owns)
  dependsOn := lastNamed calls id (·.dependsOn)
  status := lastNamed calls id (·.status)
  target := lastNamed calls id (·.target)
  expectedBy := lastNamed calls id (·.expectedBy)

/-- An item nobody has named a value of. -/
def newItem : BacklogFields := ⟨"", [], [], "open", none, none⟩

/-- **Every value is the one last named;** a status never named is open, a target or a time never named is
none. -/
structure BacklogItem.Keeps (item : BacklogItem) (given : NamedFields) : Prop where
  intent : given.intent = some item.intent
  owns : given.owns = some item.owns
  dependsOn : given.dependsOn = some item.dependsOn
  status : item.status = given.status.getD "open"
  target : item.target = given.target
  expectedBy : item.expectedBy = given.expectedBy

namespace BacklogRoom

/-- The values under an id, or a new item's. -/
def current (room : BacklogRoom) (id : String) : BacklogFields :=
  ((findItem room.items id).map (·.toBacklogFields)).getD newItem

/-- Every item stores the values last named. -/
def StoresGiven (room : BacklogRoom) : Prop :=
  ∀ item ∈ room.items, item.toBacklogFields = ((lastGiven room.appended item.id).over newItem).stored

/-- Every id under which a call was appended is found by an update under the same spelling. -/
def FindsAppended (room : BacklogRoom) : Prop :=
  ∀ call ∈ room.appended, ∀ stamp tool named, named.status.forM validateStatus = .ok () →
    ∃ fact, updateBacklogItem stamp room.items tool call.id named = .ok fact

end BacklogRoom

/-- The values the call passes on where it names none. -/
def PendingCall.inherited (p : PendingCall) : BacklogFields := (p.existing.map (·.toBacklogFields)).getD newItem

/-- **The condition:** the appended id has no white space around it, and what the call does not name is what it
read (for an `add`, what a new item has). -/
def Fresh (room : BacklogRoom) : BacklogAction → Prop
  | .append client _ => ∀ p ∈ room.pending client, trim p.call.id = p.call.id ∧
      p.call.named.over p.inherited = p.call.named.over (room.current p.call.id)
  | _ => True

instance (room : BacklogRoom) (a : BacklogAction) : Decidable (Fresh room a) :=
  match a with
  | .append client _ => inferInstanceAs (Decidable (∀ p ∈ room.pending client, _ ∧ _))
  | .read .. | .abandon _ | .other .. => isTrue trivial

/-! ## Values last named -/

section Named

variable {calls : List BacklogCall} {call : BacklogCall} {id : String}

/-- Where the first names nothing, the second. -/
def NamedFields.or (named named' : NamedFields) : NamedFields where
  intent := named.intent.or named'.intent
  owns := named.owns.or named'.owns
  dependsOn := named.dependsOn.or named'.dependsOn
  status := named.status.or named'.status
  target := named.target.or named'.target
  expectedBy := named.expectedBy.or named'.expectedBy

/-- What an item's first call names. -/
structure NamedFields.Complete (named : NamedFields) : Prop where
  intent : named.intent.isSome
  owns : named.owns.isSome
  dependsOn : named.dependsOn.isSome

theorem NamedFields.Complete.or {n m : NamedFields} (h : n.Complete ∨ m.Complete) : (n.or m).Complete := by
  constructor <;> simp only [NamedFields.or, Option.isSome_or, Bool.or_eq_true]
  · exact h.imp (·.intent) (·.intent)
  · exact h.imp (·.owns) (·.owns)
  · exact h.imp (·.dependsOn) (·.dependsOn)

/-- **Writing back stored values** under the named ones stores what naming one after the other stores. -/
theorem stored_over_stored_over (n m : NamedFields) (fields : BacklogFields) :
    (n.over (m.over fields).stored).stored = ((n.or m).over fields).stored := by
  obtain ⟨intent, owns, dependsOn, status, target, expectedBy⟩ := n
  simp only [BacklogFields.stored, NamedFields.over, NamedFields.or, BacklogFields.mk.injEq]
  refine ⟨?_, ?_, ?_, ?_, ?_, ?_⟩
  · cases intent <;> rfl
  · cases owns <;> simp
  · cases dependsOn <;> simp
  · cases status <;> rfl
  · cases target <;> rfl
  · cases expectedBy <;> simp

theorem lastNamed_concat {α : Type} {field : NamedFields → Option α} :
    lastNamed (calls ++ [call]) id field =
      if call.id = id then (field call.named).or (lastNamed calls id field) else lastNamed calls id field := by
  simp only [lastNamed, List.reverse_append, List.reverse_singleton, List.singleton_append, List.filter_cons,
    beq_iff_eq]
  split
  · rw [List.findSome?_cons]
    cases field call.named <;> rfl
  · rfl

theorem lastGiven_concat : lastGiven (calls ++ [call]) id =
    if call.id = id then call.named.or (lastGiven calls id) else lastGiven calls id := by
  unfold lastGiven
  simp only [lastNamed_concat]
  split <;> rfl

/-- An item with the values last named keeps them all. -/
theorem BacklogItem.keeps_iff {item : BacklogItem} {given : NamedFields} (h : given.Complete) :
    item.Keeps given ↔ item.toBacklogFields = given.over newItem := by
  obtain ⟨intent, hintent⟩ := Option.isSome_iff_exists.mp h.intent
  obtain ⟨owns, howns⟩ := Option.isSome_iff_exists.mp h.owns
  obtain ⟨dependsOn, hdeps⟩ := Option.isSome_iff_exists.mp h.dependsOn
  have hfields : item.toBacklogFields = given.over newItem ↔
      item.intent = intent ∧ item.owns = owns ∧ item.dependsOn = dependsOn ∧
        item.status = given.status.getD "open" ∧ item.target = given.target ∧
        item.expectedBy = given.expectedBy := by
    rw [NamedFields.over, hintent, howns, hdeps]
    simp [BacklogFields.ext_iff, newItem]
  rw [hfields]
  constructor
  · rintro ⟨h₁, h₂, h₃, h₄, h₅, h₆⟩
    rw [hintent, Option.some.injEq] at h₁
    rw [howns, Option.some.injEq] at h₂
    rw [hdeps, Option.some.injEq] at h₃
    exact ⟨h₁.symm, h₂.symm, h₃.symm, h₄, h₅, h₆⟩
  · rintro ⟨rfl, rfl, rfl, h₄, h₅, h₆⟩
    exact ⟨hintent, howns, hdeps, h₄, h₅, h₆⟩

end Named

/-! ## One action -/

section Step

variable {room room' : BacklogRoom} {a : BacklogAction} {p : PendingCall} {id : String}

/-- What an action can do. -/
inductive BacklogRoom.Move (room : BacklogRoom) : BacklogAction → BacklogRoom → Prop
  | read {client call stamp fact} : room.pending client = none → call.fact stamp room.items = .ok fact →
      Move room (.read client call stamp) { room with
        pending := Function.update room.pending client (some ⟨call, call.existing room.items, fact⟩) }
  | append {client env p f} : room.pending client = some p →
      appendFactUnderLock env room.facts p.fact = .ok (.committed f) →
      Move room (.append client env) {
        facts := room.facts ++ [f]
        pending := Function.update room.pending client none
        appended := room.appended ++ [p.call] }
  | abandon {client p} : room.pending client = some p →
      Move room (.abandon client) { room with pending := Function.update room.pending client none }
  | other {env fact f} : fact.kind ≠ .backlogItem →
      appendFactUnderLock env room.facts fact = .ok (.committed f) →
      Move room (.other env fact) { room with facts := room.facts ++ [f] }

theorem BacklogRoom.step_cases (h : room.step a = some room') : room.Move a room' := by
  cases a with
  | read client call stamp =>
    simp only [step] at h
    split at h
    case h_1 hpending hfact =>
      obtain rfl := Option.some.inj h
      exact .read hpending hfact
    case h_2 => cases h
  | append client env =>
    obtain ⟨p, hp, h⟩ := Option.bind_eq_some_iff.mp h
    split at h
    case h_1 hok =>
      obtain rfl := Option.some.inj h
      exact .append hp hok
    case h_2 => cases h
  | abandon client =>
    obtain ⟨p, hp, h⟩ := Option.bind_eq_some_iff.mp h
    obtain rfl := Option.some.inj h
    exact .abandon hp
  | other env fact =>
    simp only [step] at h
    split at h
    · cases h
    case isFalse hkind =>
      split at h
      case h_1 hok =>
        obtain rfl := Option.some.inj h
        exact .other (by simpa using hkind) hok
      case h_2 => cases h

/-- A call about to append: its fact is built from what it names over what it read, as stored; its id is
accepted; it names a whole item or its item is there. -/
structure PendingCall.Prepared (items : List BacklogItem) (p : PendingCall) : Prop where
  built : ∃ stamp, p.fact = buildBacklogFact stamp p.call.tool p.call.id (p.call.named.over p.inherited)
  accepted : validateId p.call.id = .ok ()
  whole : p.call.named.Complete ∨ (findItem items p.call.id).isSome
  inherited : p.inherited.stored = p.inherited

/-- What every run keeps that meets the condition. -/
structure BacklogRoom.Sound (room : BacklogRoom) : Prop where
  ledger : IsLedger room.facts
  current : ∀ id, room.current id = ((lastGiven room.appended id).over newItem).stored
  whole : ∀ id item, findItem room.items id = some item →
    validateId id = .ok () ∧ (lastGiven room.appended id).Complete
  found : ∀ call ∈ room.appended, (findItem room.items call.id).isSome
  pending : ∀ client p, room.pending client = some p → p.Prepared room.items

theorem BacklogRoom.Sound.current_eq {item : BacklogItem} (hs : room.Sound)
    (h : findItem room.items id = some item) :
    item.toBacklogFields = ((lastGiven room.appended id).over newItem).stored := by
  have hcurrent := hs.current id
  rw [← hcurrent, BacklogRoom.current, h]
  rfl

/-- A call that found its item. -/
theorem prepared_of_existing {call : BacklogCall} {stamp : FactStamp} {item : BacklogItem} (hs : room.Sound)
    (haccepted : validateId call.id = .ok ()) (hitem : findItem room.items call.id = some item)
    (hexisting : call.existing room.items = some item) :
    PendingCall.Prepared room.items ⟨call, call.existing room.items,
      buildBacklogFact stamp call.tool call.id (call.named.over item.toBacklogFields)⟩ := by
  have hinherited : PendingCall.inherited ⟨call, call.existing room.items,
      buildBacklogFact stamp call.tool call.id (call.named.over item.toBacklogFields)⟩ = item.toBacklogFields := by
    rw [PendingCall.inherited, hexisting]
    rfl
  constructor
  case built => exact ⟨stamp, by rw [hinherited]⟩
  case accepted => exact haccepted
  case whole => exact .inr (by rw [hitem]; rfl)
  case inherited => rw [hinherited, hs.current_eq hitem, BacklogFields.stored_stored]

/-- A call that its checks let through, before its append. -/
theorem prepared_of_fact {call : BacklogCall} {stamp : FactStamp} {fact : Fact} (hs : room.Sound)
    (h : call.fact stamp room.items = .ok fact) :
    PendingCall.Prepared room.items ⟨call, call.existing room.items, fact⟩ := by
  cases call with
  | add tool id intent owns dependsOn status target expectedBy =>
    obtain ⟨⟨⟩, hid, h⟩ := bind_ok_iff.mp h
    obtain ⟨⟨⟩, -, h⟩ := bind_ok_iff.mp h
    obtain rfl := Except.ok.inj h
    refine ⟨⟨stamp, ?_⟩, hid, .inl ⟨rfl, rfl, rfl⟩, rfl⟩
    cases target <;> cases expectedBy <;> rfl
  | update tool id named =>
    obtain ⟨hid, -, item, hitem, rfl⟩ := updateBacklogItem_ok_iff.mp h
    exact prepared_of_existing hs hid hitem hitem
  | done tool id =>
    simp only [BacklogCall.fact, markBacklogDone] at h
    split at h
    · cases h
    case h_2 item hitem =>
      split at h
      · cases h
      · obtain rfl := Except.ok.inj h
        exact prepared_of_existing hs (hs.whole id item hitem).1 hitem hitem

theorem PendingCall.Prepared.mono {items items' : List BacklogItem} (h : p.Prepared items)
    (hfound : ∀ id, (findItem items id).isSome → (findItem items' id).isSome) : p.Prepared items' :=
  ⟨h.built, h.accepted, h.whole.imp id (hfound _), h.inherited⟩

/-- **An append** under a trimmed id changes the item of that id only, to what the call names over what it
read. -/
theorem findItem_appended {env : AppendEnv} {f : Fact} (hs : room.Sound) (hprep : p.Prepared room.items)
    (htrim : trim p.call.id = p.call.id)
    (hok : appendFactUnderLock env room.facts p.fact = .ok (.committed f)) :
    ∃ item : BacklogItem, item.toBacklogFields = (p.call.named.over p.inherited).stored ∧
      ∀ id, findItem (listBacklogItems (room.facts ++ [f])) id =
        if p.call.id = id then some item else findItem room.items id := by
  obtain ⟨stamp, hbuilt⟩ := hprep.built
  obtain ⟨hne, -, hline⟩ := validateId_ok_iff.mp hprep.accepted
  have hid : nonEmptyTrimmed p.call.id = some p.call.id := nonEmptyTrimmed_eq_some_iff.mpr ⟨htrim, htrim ▸ hne⟩
  obtain ⟨hledger, hseq⟩ := AppendStep.isLedger ⟨env, p.fact, rfl, hok⟩ hs.ledger
  obtain ⟨-, -, -, -, -, -, hf⟩ := appendFactUnderLock_committed_iff.mp hok
  obtain ⟨item, hitem, hfields, hitemId⟩ : ∃ item, factToBacklogItem f = some item ∧
      item.toBacklogFields = (p.call.named.over p.inherited).stored ∧ item.id = p.call.id := by
    rw [hf, hbuilt]
    exact ⟨_, factToBacklogItem_build hline hid, rfl, rfl⟩
  refine ⟨item, hfields, fun id => ?_⟩
  rw [findItem_concat hs.ledger hledger hseq, hitem, Option.map_some, hitemId]
  simp only [Option.some.injEq, BacklogRoom.items]

/-- An append of another kind leaves the items as they are. -/
theorem findItem_other {env : AppendEnv} {fact f : Fact} (hledger : IsLedger room.facts)
    (hkind : fact.kind ≠ .backlogItem)
    (hok : appendFactUnderLock env room.facts fact = .ok (.committed f)) :
    findItem (listBacklogItems (room.facts ++ [f])) id = findItem room.items id := by
  obtain ⟨hledger', hseq⟩ := AppendStep.isLedger ⟨env, fact, rfl, hok⟩ hledger
  obtain ⟨-, -, -, -, -, -, rfl⟩ := appendFactUnderLock_committed_iff.mp hok
  have hnone : factToBacklogItem { fact with seq := canonicalMaxSeq room.facts + 1 } = none :=
    if_pos (by simpa using hkind)
  rw [findItem_concat hledger hledger' hseq, hnone, if_neg (by simp)]
  rfl

theorem sound_empty : BacklogRoom.empty.Sound where
  ledger := .nil
  current _ := rfl
  whole _ _ h := by cases h
  found _ h := by cases h
  pending _ _ h := by cases h

/-- Nothing is lost where no item changes. -/
theorem BacklogRoom.Sound.of_same_items (hs : room.Sound) (hledger : IsLedger room'.facts)
    (hfind : ∀ id, findItem room'.items id = findItem room.items id) (happended : room'.appended = room.appended)
    (hpending : ∀ client p, room'.pending client = some p → p.Prepared room.items) : room'.Sound := by
  constructor
  case ledger => exact hledger
  case current =>
    intro id
    rw [BacklogRoom.current, hfind, happended]
    exact hs.current id
  case whole =>
    intro id item hitem
    rw [hfind] at hitem
    rw [happended]
    exact hs.whole id item hitem
  case found =>
    intro call hcall
    rw [happended] at hcall
    rw [hfind]
    exact hs.found call hcall
  case pending =>
    intro client p hp
    apply (hpending client p hp).mono
    intro id hsome
    rwa [hfind]

/-- An append that meets the condition leaves its item with the values last named. -/
theorem BacklogRoom.Sound.append {client : Nat} {env : AppendEnv} {f : Fact} (hs : room.Sound)
    (hp : room.pending client = some p) (htrim : trim p.call.id = p.call.id)
    (hsame : p.call.named.over p.inherited = p.call.named.over (room.current p.call.id))
    (hok : appendFactUnderLock env room.facts p.fact = .ok (.committed f)) :
    BacklogRoom.Sound {
      facts := room.facts ++ [f]
      pending := Function.update room.pending client none
      appended := room.appended ++ [p.call] } := by
  have hprep := hs.pending client p hp
  obtain ⟨item, hitem, hfind⟩ := findItem_appended hs hprep htrim hok
  have hfound : ∀ id, (findItem room.items id).isSome →
      (findItem (listBacklogItems (room.facts ++ [f])) id).isSome := by
    intro id hid
    rw [hfind]
    split
    · rfl
    · exact hid
  constructor
  case ledger => exact (AppendStep.isLedger ⟨env, p.fact, rfl, hok⟩ hs.ledger).1
  case current =>
    intro id
    simp only [BacklogRoom.current, BacklogRoom.items, hfind, lastGiven_concat]
    split
    case isTrue hid =>
      subst hid
      rw [Option.map_some, Option.getD_some, hitem, hsame, hs.current, stored_over_stored_over]
    case isFalse => exact hs.current id
  case whole =>
    intro id item' hitem'
    simp only [BacklogRoom.items, hfind] at hitem'
    rw [lastGiven_concat]
    split at hitem'
    case isTrue hid =>
      subst hid
      rw [if_pos rfl]
      refine ⟨hprep.accepted, .or (hprep.whole.imp id fun hsome => ?_)⟩
      obtain ⟨old, hold⟩ := Option.isSome_iff_exists.mp hsome
      exact (hs.whole _ old hold).2
    case isFalse hid =>
      rw [if_neg hid]
      exact hs.whole id item' hitem'
  case found =>
    intro call hcall
    rcases List.mem_append.mp hcall with hcall | hcall
    · exact hfound _ (hs.found call hcall)
    · obtain rfl := List.mem_singleton.mp hcall
      simp only [BacklogRoom.items, hfind, if_true, Option.isSome_some]
  case pending =>
    intro other p' hp'
    rcases update_eq_some hp' with ⟨-, hnone⟩ | ⟨-, hold⟩
    · cases hnone
    · exact (hs.pending other p' hold).mono hfound

/-- **An action that meets the condition** leaves every item with the values last named. -/
theorem BacklogRoom.Move.sound (h : room.Move a room') (hs : room.Sound) (hfresh : Fresh room a) :
    room'.Sound := by
  cases h with
  | @read client call stamp fact hidle hfact =>
    refine hs.of_same_items hs.ledger (fun _ => rfl) rfl ?_
    intro other p' hp'
    rcases update_eq_some hp' with ⟨-, hnew⟩ | ⟨-, hold⟩
    · obtain rfl := Option.some.inj hnew
      exact prepared_of_fact hs hfact
    · exact hs.pending other p' hold
  | @append client env p f hp hok =>
    obtain ⟨htrim, hsame⟩ := hfresh p hp
    exact hs.append hp htrim hsame hok
  | @abandon client p hp =>
    refine hs.of_same_items hs.ledger (fun _ => rfl) rfl ?_
    intro other p' hp'
    rcases update_eq_some hp' with ⟨-, hnone⟩ | ⟨-, hold⟩
    · cases hnone
    · exact hs.pending other p' hold
  | @other env fact f hkind hok =>
    have hledger := (AppendStep.isLedger ⟨env, fact, rfl, hok⟩ hs.ledger).1
    exact hs.of_same_items hledger (fun _ => findItem_other hs.ledger hkind hok) rfl hs.pending

end Step

/-! ## What a room keeps -/

section Kept

variable {room room' : BacklogRoom} {a : BacklogAction} {item : BacklogItem}

theorem BacklogRoom.Sound.storesGiven (hs : room.Sound) : room.StoresGiven := fun _ hitem =>
  hs.current_eq ((findItem_listBacklogItems_eq_some_iff hs.ledger).mpr ⟨hitem, rfl⟩)

theorem BacklogRoom.Sound.findsAppended (hs : room.Sound) : room.FindsAppended := by
  intro call hcall stamp tool named hstatus
  obtain ⟨item, hitem⟩ := Option.isSome_iff_exists.mp (hs.found call hcall)
  exact ⟨_, updateBacklogItem_ok_iff.mpr ⟨(hs.whole call.id item hitem).1, hstatus, item, hitem, rfl⟩⟩

/-- An item keeps the values last named exactly when the encoding leaves them as they are. -/
theorem BacklogRoom.Sound.keeps_iff (hs : room.Sound) (hitem : item ∈ room.items) :
    item.Keeps (lastGiven room.appended item.id) ↔ ((lastGiven room.appended item.id).over newItem).Canonical := by
  have hfind := (findItem_listBacklogItems_eq_some_iff hs.ledger).mpr ⟨hitem, rfl⟩
  rw [BacklogItem.keeps_iff (hs.whole _ item hfind).2, hs.current_eq hfind, BacklogFields.stored_eq_self_iff]

/-- Stored values that agree once named ones are put over them agree before they are stored. -/
theorem over_eq_of_stored {n : NamedFields} {b c : BacklogFields} (hb : b.stored = b) (hc : c.stored = c)
    (h : (n.over b).stored = (n.over c).stored) : n.over b = n.over c := by
  obtain ⟨intent, owns, dependsOn, status, target, expectedBy⟩ := n
  obtain ⟨hbo, hbd, hbe⟩ : sortDedup b.owns = b.owns ∧ sortDedup b.dependsOn = b.dependsOn ∧
      b.expectedBy.bind nonEmptyTrimmed = b.expectedBy :=
    ⟨congrArg (·.owns) hb, congrArg (·.dependsOn) hb, congrArg (·.expectedBy) hb⟩
  obtain ⟨hco, hcd, hce⟩ : sortDedup c.owns = c.owns ∧ sortDedup c.dependsOn = c.dependsOn ∧
      c.expectedBy.bind nonEmptyTrimmed = c.expectedBy :=
    ⟨congrArg (·.owns) hc, congrArg (·.dependsOn) hc, congrArg (·.expectedBy) hc⟩
  simp only [BacklogFields.stored, NamedFields.over, BacklogFields.mk.injEq] at h ⊢
  obtain ⟨h₁, h₂, h₃, h₄, h₅, h₆⟩ := h
  refine ⟨h₁, ?_, ?_, h₄, h₅, ?_⟩
  · cases owns with
    | some => rfl
    | none => rwa [Option.getD_none, Option.getD_none, hbo, hco] at h₂
  · cases dependsOn with
    | some => rfl
    | none => rwa [Option.getD_none, Option.getD_none, hbd, hcd] at h₃
  · cases expectedBy with
    | some => rfl
    | none => rwa [Option.none_or, Option.none_or, hbe, hce] at h₆

/-- **One action, exactly:** what it leaves stores the values last named, and finds every appended id, if and
only if it met the condition. -/
theorem BacklogRoom.Move.kept_iff (h : room.Move a room') (hs : room.Sound) :
    room'.StoresGiven ∧ room'.FindsAppended ↔ Fresh room a := by
  refine ⟨fun ⟨hstores, hfinds⟩ => ?_, fun hfresh => ?_⟩
  case refine_2 =>
    have hs' := h.sound hs hfresh
    exact ⟨hs'.storesGiven, hs'.findsAppended⟩
  cases h with
  | read | abandon | other => trivial
  | @append client env p f hp hok =>
    intro p' hp'
    obtain rfl := Option.some.inj (hp.symm.trans hp')
    have hprep := hs.pending client p hp
    have hledger := (AppendStep.isLedger ⟨env, p.fact, rfl, hok⟩ hs.ledger).1
    -- the id is found under its own spelling, so it is an item's id
    obtain ⟨fact, hfact⟩ := hfinds p.call (List.mem_append_right _ (List.mem_singleton.mpr rfl)) ⟨"", ""⟩ "" {} rfl
    obtain ⟨-, -, found, hfound, -⟩ := updateBacklogItem_ok_iff.mp hfact
    have htrim : trim p.call.id = p.call.id := by
      obtain ⟨hmem, hid⟩ := (findItem_listBacklogItems_eq_some_iff hledger).mp hfound
      rw [← hid, trim_id_of_mem hledger hmem]
    refine ⟨htrim, ?_⟩
    -- what it stores is what the latest values make of it
    obtain ⟨item, hitem, hfind⟩ := findItem_appended hs hprep htrim hok
    have hnew := hfind p.call.id
    rw [if_pos rfl] at hnew
    obtain ⟨hmem, hid⟩ := (findItem_listBacklogItems_eq_some_iff hledger).mp hnew
    have hstored := hstores item hmem
    rw [hid, hitem, lastGiven_concat, if_pos rfl, ← stored_over_stored_over, ← hs.current] at hstored
    refine over_eq_of_stored hprep.inherited ?_ hstored
    rw [hs.current, BacklogFields.stored_stored]

theorem sound_of_reaches (hrun : Reaches BacklogRoom.step Fresh .empty room) : room.Sound :=
  hrun.invariant sound_empty fun _ _ _ hs hfresh hnext => (BacklogRoom.step_cases hnext).sound hs hfresh

end Kept

/-- **No update is lost** along every run that meets the condition: an item holds, as stored, the values last
named, and they are the named values themselves exactly when the lists are in order and the time is trimmed;
every appended id is found again. An action keeps this exactly when it meets the condition. -/
theorem backlog_updates_kept {room : BacklogRoom} (hrun : Reaches BacklogRoom.step Fresh .empty room) :
    (room.StoresGiven ∧
      (∀ item ∈ room.items, item.Keeps (lastGiven room.appended item.id) ↔
        ((lastGiven room.appended item.id).over newItem).Canonical) ∧
      room.FindsAppended) ∧
    ∀ a room', room.step a = some room' → (room'.StoresGiven ∧ room'.FindsAppended ↔ Fresh room a) := by
  have hs := sound_of_reaches hrun
  refine ⟨⟨hs.storesGiven, fun item hitem => hs.keeps_iff hitem, hs.findsAppended⟩, fun a room' hnext => ?_⟩
  exact (BacklogRoom.step_cases hnext).kept_iff hs

namespace BacklogRoom

def stamp (eventId : String) : FactStamp := ⟨eventId, "2026-01-01T00:00:00Z"⟩

/-- A task added under an id. -/
def added (id : String) : List BacklogAction :=
  [.read 0 (.add "alice" id "task" [] [] none none none) (stamp "backlog_1"), .append 0 .sample]

/-- Its intent is changed and it is marked done, one call after the other. -/
def inTurn : List BacklogAction :=
  [.read 1 (.update "alice" "a" { intent := some "better task" }) (stamp "backlog_2"), .append 1 .sample,
    .read 2 (.done "bob" "a") (stamp "backlog_3"), .append 2 .sample]

/-- The same two calls, the one that leaves the status unnamed appended last. -/
def crossed : List BacklogAction :=
  [.read 1 (.update "alice" "a" { intent := some "better task" }) (stamp "backlog_2"),
    .read 2 (.done "bob" "a") (stamp "backlog_3"), .append 2 .sample, .append 1 .sample]

end BacklogRoom

open BacklogRoom in
/-- One call after the other, the item is done and has its new intent. -/
theorem backlog_updates_kept_in_turn :
    ∃ room, Reaches BacklogRoom.step Fresh .empty room ∧
      (∃ item ∈ room.items, item.intent = "better task" ∧ item.status = "done") ∧ room.StoresGiven ∧
      room.FindsAppended := by
  have hrun : ((runActions BacklogRoom.step Fresh .empty (added "a" ++ inTurn)).map fun room =>
      room.items.map fun item => (item.intent, item.status)) = some [("better task", "done")] := by
    decide
  obtain ⟨room, hroom, hitems⟩ := Option.map_eq_some_iff.mp hrun
  have hreach := reaches_of_run hroom
  have hmem : ("better task", "done") ∈ room.items.map fun item => (item.intent, item.status) := by
    rw [hitems]
    exact List.mem_singleton.mpr rfl
  obtain ⟨item, hitem, hread⟩ := List.mem_map.mp hmem
  obtain ⟨hintent, hstatus⟩ := Prod.mk.inj hread
  have hkept := (backlog_updates_kept hreach).1
  exact ⟨room, hreach, ⟨item, hitem, hintent, hstatus⟩, hkept.1, hkept.2.2⟩

open BacklogRoom in
/-- An item marked done is open again after a call that names no status, and an id with a blank in front is
accepted and not found. -/
theorem backlog_update_lost :
    (∃ room, Reaches BacklogRoom.step (fun _ _ => True) .empty room ∧
      ∃ item ∈ room.items, (lastGiven room.appended item.id).status = some "done" ∧ item.status = "open") ∧
    ∃ room, Reaches BacklogRoom.step (fun _ _ => True) .empty room ∧ validateId " a" = .ok () ∧
      ¬room.FindsAppended := by
  constructor
  · have hrun : ((runActions BacklogRoom.step (fun _ _ => True) .empty (added "a" ++ crossed)).map fun room =>
        room.items.map fun item => ((lastGiven room.appended item.id).status, item.status)) =
          some [(some "done", "open")] := by decide
    obtain ⟨room, hroom, hitems⟩ := Option.map_eq_some_iff.mp hrun
    have hmem : (some "done", "open") ∈
        room.items.map fun item => ((lastGiven room.appended item.id).status, item.status) := by
      rw [hitems]
      exact List.mem_singleton.mpr rfl
    obtain ⟨item, hitem, hread⟩ := List.mem_map.mp hmem
    exact ⟨room, reaches_of_run hroom, item, hitem, Prod.mk.inj hread⟩
  · have hrun : ((runActions BacklogRoom.step (fun _ _ => True) .empty (added " a")).map fun room =>
        (room.appended.map (·.id), (findItem room.items " a").isNone)) = some ([" a"], true) := by decide
    obtain ⟨room, hroom, hread⟩ := Option.map_eq_some_iff.mp hrun
    obtain ⟨hids, hnone⟩ := Prod.mk.inj hread
    refine ⟨room, reaches_of_run hroom, by decide, fun hfinds => ?_⟩
    have hmem : " a" ∈ room.appended.map (·.id) := by
      rw [hids]
      exact List.mem_singleton.mpr rfl
    obtain ⟨call, hcall, hid⟩ := List.mem_map.mp hmem
    obtain ⟨fact, hfact⟩ := hfinds call hcall ⟨"", ""⟩ "" {} rfl
    obtain ⟨-, -, found, hfound, -⟩ := updateBacklogItem_ok_iff.mp hfact
    rw [hid, Option.isNone_iff_eq_none.mp hnone] at hfound
    cases hfound

end RallyPoint
