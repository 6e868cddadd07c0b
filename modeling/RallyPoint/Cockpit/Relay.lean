/-
# RallyPoint.Cockpit.Relay — the in-process relay of sealed envelopes (`transport/relay.rs`).

A handle joins a room under a client id and gets a channel of 64 envelopes. A send collects the channels of the room's
other client ids under the lock and lets go of it; the envelope then goes to one channel after another, where it waits
for room, while others join, leave, send and receive. To drop a handle takes its channel away, and every handle of the
same id out of the room.

What the relay forwards is of any type, so it cannot look into it. `relay_delivers` is about every interleaving: what
arrives, for whom, how often and in which order.
-/
import RallyPoint.Lib.Distinct
import RallyPoint.Lib.Steps

namespace RallyPoint.Cockpit.Relay

open Lib

/-- A channel, named by the handle that holds its receiver. -/
abbrev HandleId := Nat

/-- A send, by its place among all of them. -/
abbrev SendId := Nat

/-! ## The relay -/

structure SealedEnvelope (α : Type) where
  roomId : String
  senderId : String
  payload : α
  deriving DecidableEq

structure RelayClient where
  roomId : String
  clientId : String
  deriving DecidableEq, Repr

structure ClientEntry where
  tx : HandleId
  pubkey : Vector UInt8 32

inductive Event
  | joined (h : HandleId) (client : RelayClient)
  | dropped (h : HandleId) (client : RelayClient)
  deriving DecidableEq, Repr

/-- A send: who made it, the envelope, and for whom. `history` and `ahead` are bookkeeping: who had joined and left
before it, and the sends that had come to their end. -/
structure Forward (α : Type) where
  sender : HandleId
  envelope : SealedEnvelope α
  recipients : List HandleId
  history : List Event
  ahead : List SendId

/-- The relay, the channels, and the sends with the channels each has still ahead. -/
structure ZeroKnowledgeRelay (α : Type) where
  rooms : String → List (String × ClientEntry)
  clients : HandleId → Option RelayClient
  alive : HandleId → Bool
  queue : HandleId → List (SendId × SealedEnvelope α)
  received : HandleId → List (SendId × SealedEnvelope α)
  forwards : List (Forward α)
  senders : SendId → List HandleId
  history : List Event

namespace ZeroKnowledgeRelay

variable {α : Type}

def new : ZeroKnowledgeRelay α where
  rooms := fun _ => []
  clients := fun _ => none
  alive := fun _ => false
  queue := fun _ => []
  received := fun _ => []
  forwards := []
  senders := fun _ => []
  history := []

/-- `mpsc::channel(64)`. -/
def capacity : Nat := 64

/-- The public key of the first member under a client id. -/
def getPubkey (r : ZeroKnowledgeRelay α) (roomId clientId : String) : Option (Vector UInt8 32) :=
  ((r.rooms roomId).find? (·.1 == clientId)).map (·.2.pubkey)

def register (rooms : String → List (String × ClientEntry)) (client : RelayClient) (entry : ClientEntry) :
    String → List (String × ClientEntry) :=
  Function.update rooms client.roomId (rooms client.roomId ++ [(client.clientId, entry)])

/-- Every member of the room under that id goes. -/
def deregister (rooms : String → List (String × ClientEntry)) (client : RelayClient) :
    String → List (String × ClientEntry) :=
  Function.update rooms client.roomId ((rooms client.roomId).filter (·.1 != client.clientId))

/-- The channels an envelope goes to, in the order in which their handles joined. -/
def recipients (r : ZeroKnowledgeRelay α) (envelope : SealedEnvelope α) : List HandleId :=
  ((r.rooms envelope.roomId).filter (·.1 != envelope.senderId)).map (·.2.tx)

/-- What came out of a channel, and what is still in it. -/
def arrived (r : ZeroKnowledgeRelay α) (h : HandleId) : List (SendId × SealedEnvelope α) := r.received h ++ r.queue h

/-- The send has gone through its channels. -/
def Finished (r : ZeroKnowledgeRelay α) (t : SendId) : Prop := t < r.forwards.length ∧ r.senders t = []

instance (r : ZeroKnowledgeRelay α) (t : SendId) : Decidable (r.Finished t) := inferInstanceAs (Decidable (_ ∧ _))

end ZeroKnowledgeRelay

/-! ## Steps -/

inductive Action (α : Type)
  | join (h : HandleId) (client : RelayClient) (pubkey : Vector UInt8 32)
  /-- The part of a send under the lock. -/
  | send (h : HandleId) (payload : α)
  /-- `tx.send`, of the channel that is next. -/
  | push (t : SendId)
  | recv (h : HandleId)
  | drop (h : HandleId)

section Step

variable {α : Type} (r : ZeroKnowledgeRelay α)

def join (h : HandleId) (client : RelayClient) (pubkey : Vector UInt8 32) : ZeroKnowledgeRelay α :=
  { r with
    rooms := ZeroKnowledgeRelay.register r.rooms client ⟨h, pubkey⟩
    clients := Function.update r.clients h (some client)
    alive := Function.update r.alive h true
    history := r.history ++ [.joined h client] }

def send (h : HandleId) (client : RelayClient) (payload : α) : ZeroKnowledgeRelay α :=
  let envelope : SealedEnvelope α := ⟨client.roomId, client.clientId, payload⟩
  let recipients := r.recipients envelope
  { r with
    forwards := r.forwards ++
      [⟨h, envelope, recipients, r.history, (List.range r.forwards.length).filter fun t => decide (r.Finished t)⟩]
    senders := Function.update r.senders r.forwards.length recipients }

/-- An envelope for a receiver that is gone is dropped. -/
def push (t : SendId) (envelope : SealedEnvelope α) (h : HandleId) (rest : List HandleId) : ZeroKnowledgeRelay α :=
  { r with
    queue := if r.alive h then Function.update r.queue h (r.queue h ++ [(t, envelope)]) else r.queue
    senders := Function.update r.senders t rest }

def drop (h : HandleId) (client : RelayClient) : ZeroKnowledgeRelay α :=
  { r with
    rooms := ZeroKnowledgeRelay.deregister r.rooms client
    alive := Function.update r.alive h false
    queue := Function.update r.queue h []
    history := r.history ++ [.dropped h client] }

/-- One step of one task, where it is enabled. -/
def step : Action α → Option (ZeroKnowledgeRelay α)
  | .join h client pubkey => if r.clients h = none then some (join r h client pubkey) else none
  | .send h payload =>
    match r.clients h with
    | some client => if r.alive h then some (send r h client payload) else none
    | none => none
  | .push t =>
    match r.forwards[t]?, r.senders t with
    | some fwd, h :: rest =>
      -- a full channel makes the send wait
      if r.alive h && decide (ZeroKnowledgeRelay.capacity ≤ (r.queue h).length) then none
      else some (push r t fwd.envelope h rest)
    | _, _ => none
  | .recv h =>
    match r.queue h with
    | x :: rest =>
      if r.alive h then
        some { r with
          queue := Function.update r.queue h rest
          received := Function.update r.received h (r.received h ++ [x]) }
      else none
    | [] => none
  | .drop h =>
    match r.clients h with
    | some client => if r.alive h then some (drop r h client) else none
    | none => none

end Step

/-! ## Who is in a room -/

section Rooms

variable {history : List Event} {h h' : HandleId} {client client' : RelayClient}

/-- The handle joined as this client, and no handle of the client was dropped since. -/
def Present (history : List Event) (h : HandleId) (client : RelayClient) : Prop :=
  ∃ front back, history = front ++ .joined h client :: back ∧ ∀ other, .dropped other client ∉ back

theorem present_concat {e : Event} :
    Present (history ++ [e]) h client ↔
      e = .joined h client ∨ Present history h client ∧ ∀ other, e ≠ .dropped other client := by
  constructor
  · rintro ⟨front, back, hsplit, hback⟩
    rcases List.eq_nil_or_concat back with rfl | ⟨back, last, rfl⟩
    · obtain ⟨-, hlast⟩ := List.append_inj' hsplit rfl
      exact .inl (List.singleton_inj.mp hlast)
    · rw [List.concat_eq_append] at hsplit hback
      have hassoc : history ++ [e] = (front ++ .joined h client :: back) ++ [last] := by
        rw [hsplit, List.append_assoc, List.cons_append]
      obtain ⟨rfl, hlast⟩ := List.append_inj' hassoc rfl
      obtain rfl := List.singleton_inj.mp hlast
      refine .inr ⟨⟨front, back, rfl, fun other hmem => hback other (List.mem_append_left _ hmem)⟩, ?_⟩
      rintro other rfl
      exact hback other (List.mem_append_right _ (List.mem_singleton_self _))
  · rintro (rfl | ⟨⟨front, back, rfl, hback⟩, hlast⟩)
    · exact ⟨history, [], rfl, fun other => List.not_mem_nil⟩
    · refine ⟨front, back ++ [e], by rw [List.append_assoc, List.cons_append], fun other hmem => ?_⟩
      rcases List.mem_append.mp hmem with hmem | hmem
      · exact hback other hmem
      · exact hlast other (List.mem_singleton.mp hmem).symm

theorem present_joined :
    Present (history ++ [.joined h' client']) h client ↔ h' = h ∧ client' = client ∨ Present history h client := by
  rw [present_concat, Event.joined.injEq]
  exact or_congr_right (and_iff_left fun other => nofun)

theorem present_dropped :
    Present (history ++ [.dropped h' client']) h client ↔ Present history h client ∧ client' ≠ client := by
  rw [present_concat]
  constructor
  · rintro (heq | ⟨hpresent, hne⟩)
    · cases heq
    · exact ⟨hpresent, fun heq => hne h' (by rw [heq])⟩
  · rintro ⟨hpresent, hne⟩
    exact .inr ⟨hpresent, fun other heq => hne (Event.dropped.inj heq).2⟩

/-- The channel is listed in a room, under the id of the client. -/
def Listed (rooms : String → List (String × ClientEntry)) (h : HandleId) (client : RelayClient) : Prop :=
  ∃ entry, (client.clientId, entry) ∈ rooms client.roomId ∧ entry.tx = h

variable {rooms : String → List (String × ClientEntry)} {entry : ClientEntry}

theorem mem_register {room : String} {m : String × ClientEntry} :
    m ∈ ZeroKnowledgeRelay.register rooms client entry room ↔
      m ∈ rooms room ∨ room = client.roomId ∧ m = (client.clientId, entry) := by
  rw [ZeroKnowledgeRelay.register, Function.update_apply]
  split
  case isTrue heq => rw [List.mem_append, List.mem_singleton, heq, eq_self_iff_true, true_and]
  case isFalse hne => rw [or_iff_left fun h => hne h.1]

theorem mem_deregister {room : String} {m : String × ClientEntry} :
    m ∈ ZeroKnowledgeRelay.deregister rooms client room ↔
      m ∈ rooms room ∧ ¬(room = client.roomId ∧ m.1 = client.clientId) := by
  rw [ZeroKnowledgeRelay.deregister, Function.update_apply]
  split
  case isTrue heq => rw [List.mem_filter, bne_iff_ne, heq, eq_self_iff_true, true_and]
  case isFalse hne => rw [and_iff_left fun h => hne h.1]

theorem listed_register :
    Listed (ZeroKnowledgeRelay.register rooms client' entry) h client ↔
      entry.tx = h ∧ client' = client ∨ Listed rooms h client := by
  constructor
  · rintro ⟨e, hmem, htx⟩
    rcases mem_register.mp hmem with hmem | ⟨hroom, heq⟩
    · exact .inr ⟨e, hmem, htx⟩
    · obtain ⟨hid, rfl⟩ := Prod.mk.inj heq
      refine .inl ⟨htx, ?_⟩
      cases client
      cases client'
      exact congr (congrArg RelayClient.mk hroom.symm) hid.symm
  · rintro (⟨htx, rfl⟩ | ⟨e, hmem, htx⟩)
    · exact ⟨entry, mem_register.mpr (.inr ⟨rfl, rfl⟩), htx⟩
    · exact ⟨e, mem_register.mpr (.inl hmem), htx⟩

theorem listed_deregister :
    Listed (ZeroKnowledgeRelay.deregister rooms client') h client ↔ Listed rooms h client ∧ client' ≠ client := by
  constructor
  · rintro ⟨e, hmem, htx⟩
    obtain ⟨hmem, hne⟩ := mem_deregister.mp hmem
    exact ⟨⟨e, hmem, htx⟩, fun heq => hne (by rw [heq]; exact ⟨rfl, rfl⟩)⟩
  · rintro ⟨⟨e, hmem, htx⟩, hne⟩
    refine ⟨e, mem_deregister.mpr ⟨hmem, fun heq => hne ?_⟩, htx⟩
    cases client
    cases client'
    exact congr (congrArg RelayClient.mk heq.1.symm) heq.2.symm

end Rooms

/-! ## What every state satisfies -/

section Invariant

variable {α : Type}

/-- The rooms list who is present, each channel once. -/
structure RoomsOk (r : ZeroKnowledgeRelay α) : Prop where
  listed : ∀ h client, Listed r.rooms h client ↔ Present r.history h client
  once : ∀ room, ((r.rooms room).map (·.2.tx)).Nodup
  known : ∀ h client, Listed r.rooms h client → r.clients h = some client

/-- A send goes to those who were present under other ids; it has gone through a first part of its channels. -/
structure ForwardOk (r : ZeroKnowledgeRelay α) (t : SendId) (fwd : Forward α) : Prop where
  sender : r.clients fwd.sender = some ⟨fwd.envelope.roomId, fwd.envelope.senderId⟩
  nodup : fwd.recipients.Nodup
  present : ∀ h, h ∈ fwd.recipients ↔
    ∃ id, id ≠ fwd.envelope.senderId ∧ Present fwd.history h ⟨fwd.envelope.roomId, id⟩
  known : ∀ h id, Present fwd.history h ⟨fwd.envelope.roomId, id⟩ → r.clients h = some ⟨fwd.envelope.roomId, id⟩
  split : ∃ sent, fwd.recipients = sent ++ r.senders t ∧
    (∀ h ∈ sent, r.alive h = true → t ∈ (r.arrived h).map (·.1)) ∧ ∀ h, t ∈ (r.arrived h).map (·.1) → h ∈ sent
  ahead : ∀ t' ∈ fwd.ahead, r.Finished t'

structure Sound (r : ZeroKnowledgeRelay α) : Prop where
  rooms : RoomsOk r
  forwards : ∀ t fwd, r.forwards[t]? = some fwd → ForwardOk r t fwd
  arrived : ∀ h, ∀ x ∈ r.arrived h, ∃ fwd, r.forwards[x.1]? = some fwd ∧ x.2 = fwd.envelope
  once : ∀ h, ((r.arrived h).map (·.1)).Nodup
  ordered : ∀ h, (r.arrived h).Pairwise fun x y => ∀ fwd, r.forwards[x.1]? = some fwd → y.1 ∉ fwd.ahead
  bounded : ∀ h, (r.queue h).length ≤ ZeroKnowledgeRelay.capacity

variable {r : ZeroKnowledgeRelay α} {h : HandleId} {client : RelayClient}

theorem sound_new : Sound (.new : ZeroKnowledgeRelay α) := by
  refine ⟨⟨?_, fun _ => .nil, ?_⟩, nofun, nofun, fun _ => .nil, fun _ => .nil, fun _ => Nat.zero_le _⟩
  · intro h client
    refine ⟨fun ⟨_, hmem, _⟩ => absurd hmem List.not_mem_nil, ?_⟩
    rintro ⟨front, back, hnil, -⟩
    exact absurd hnil.symm (List.append_ne_nil_of_right_ne_nil _ (List.cons_ne_nil _ _))
  · rintro h client ⟨_, hmem, -⟩
    exact absurd hmem List.not_mem_nil

/-- A handle that joins is a new one. -/
theorem sound_join (hs : Sound r) (hfresh : r.clients h = none) (pubkey : Vector UInt8 32) :
    Sound (join r h client pubkey) := by
  have hold : ∀ {h' client'}, r.clients h' = some client' →
      Function.update r.clients h (some client) h' = some client' := by
    intro h' client' hknown
    rw [Function.update_of_ne, hknown]
    rintro rfl
    rw [hfresh] at hknown
    cases hknown
  refine ⟨⟨?_, ?_, ?_⟩, ?_, hs.arrived, hs.once, hs.ordered, hs.bounded⟩
  · intro h' client'
    show Listed (ZeroKnowledgeRelay.register r.rooms client ⟨h, pubkey⟩) h' client' ↔
      Present (r.history ++ _) h' client'
    rw [listed_register, present_joined, hs.rooms.listed]
  · intro room
    show ((ZeroKnowledgeRelay.register r.rooms client ⟨h, pubkey⟩ room).map (·.2.tx)).Nodup
    rw [ZeroKnowledgeRelay.register, Function.update_apply]
    split
    case isTrue =>
      refine nodup_map_concat (hs.rooms.once _) fun hmem => ?_
      obtain ⟨⟨id, entry⟩, hentry, htx⟩ := List.mem_map.mp hmem
      have hknown := hs.rooms.known h ⟨client.roomId, id⟩ ⟨entry, hentry, htx⟩
      rw [hfresh] at hknown
      cases hknown
    case isFalse => exact hs.rooms.once room
  · intro h' client' hlisted
    rcases listed_register.mp hlisted with ⟨rfl, rfl⟩ | hlisted
    · exact Function.update_self ..
    · exact hold (hs.rooms.known _ _ hlisted)
  · intro t fwd hfwd
    have hok := hs.forwards t fwd hfwd
    obtain ⟨sent, hsplit, hsent, harrived⟩ := hok.split
    refine ⟨hold hok.sender, hok.nodup, hok.present, fun h' id hpresent => hold (hok.known h' id hpresent),
      ⟨sent, hsplit, fun h' hmem halive => ?_, harrived⟩, hok.ahead⟩
    refine hsent h' hmem ?_
    -- a new handle was nobody's recipient
    have hne : h' ≠ h := by
      rintro rfl
      obtain ⟨id, -, hpresent⟩ := (hok.present h').mp (by rw [hsplit]; exact List.mem_append_left _ hmem)
      rw [hok.known h' id hpresent] at hfresh
      cases hfresh
    have hupdate : Function.update r.alive h true h' = true := halive
    rwa [Function.update_of_ne hne] at hupdate

/-- The last of the sends is the new one. -/
theorem getElem?_concat {β : Type} {l : List β} {x y : β} {t : Nat} (hget : (l ++ [x])[t]? = some y) :
    l[t]? = some y ∧ t < l.length ∨ t = l.length ∧ y = x := by
  rcases Nat.lt_trichotomy t l.length with hlt | rfl | hlt
  · rw [List.getElem?_append_left hlt] at hget
    exact .inl ⟨hget, hlt⟩
  · rw [List.getElem?_concat_length] at hget
    exact .inr ⟨rfl, (Option.some.inj hget).symm⟩
  · rw [List.getElem?_eq_none (by rw [List.length_append, List.length_singleton]; omega)] at hget
    cases hget

theorem lt_of_getElem? {β : Type} {l : List β} {t : Nat} {y : β} (hget : l[t]? = some y) : t < l.length :=
  (List.getElem?_eq_some_iff.mp hget).1

theorem mem_recipients {envelope : SealedEnvelope α} :
    h ∈ r.recipients envelope ↔ ∃ id, id ≠ envelope.senderId ∧ Listed r.rooms h ⟨envelope.roomId, id⟩ := by
  rw [ZeroKnowledgeRelay.recipients, List.mem_map]
  constructor
  · rintro ⟨⟨id, entry⟩, hmem, htx⟩
    obtain ⟨hmem, hne⟩ := List.mem_filter.mp hmem
    exact ⟨id, bne_iff_ne.mp hne, entry, hmem, htx⟩
  · rintro ⟨id, hne, entry, hmem, htx⟩
    exact ⟨(id, entry), List.mem_filter.mpr ⟨hmem, bne_iff_ne.mpr hne⟩, htx⟩

theorem sound_send (hs : Sound r) (hclient : r.clients h = some client) (payload : α) :
    Sound (send r h client payload) := by
  -- what has arrived was sent before
  have hbefore : ∀ h' x, x ∈ r.arrived h' → x.1 < r.forwards.length := fun h' x hx => by
    obtain ⟨fwd, hfwd, -⟩ := hs.arrived h' x hx
    exact lt_of_getElem? hfwd
  have hfinished : ∀ t, r.Finished t → (send r h client payload).Finished t := by
    rintro t ⟨hlt, hnone⟩
    refine ⟨?_, ?_⟩
    · show t < (r.forwards ++ [_]).length
      rw [List.length_append, List.length_singleton]
      exact Nat.lt_succ_of_lt hlt
    · show Function.update r.senders r.forwards.length _ t = []
      rw [Function.update_of_ne (Nat.ne_of_lt hlt), hnone]
  have hget : ∀ t, t < r.forwards.length → (send r h client payload).forwards[t]? = r.forwards[t]? := fun t ht =>
    List.getElem?_append_left ht
  refine ⟨⟨hs.rooms.listed, hs.rooms.once, hs.rooms.known⟩, ?_, ?_, hs.once, ?_, hs.bounded⟩
  · intro t fwd hfwd
    rcases getElem?_concat hfwd with ⟨hold, hlt⟩ | ⟨rfl, rfl⟩
    · have hok := hs.forwards t fwd hold
      obtain ⟨sent, hsplit, hsent, harrived⟩ := hok.split
      refine ⟨hok.sender, hok.nodup, hok.present, hok.known, ⟨sent, ?_, hsent, harrived⟩,
        fun t' ht' => hfinished t' (hok.ahead t' ht')⟩
      show fwd.recipients = sent ++ Function.update r.senders r.forwards.length _ t
      rw [Function.update_of_ne (Nat.ne_of_lt hlt), hsplit]
    · refine ⟨hclient, ?_, ?_, ?_, ⟨[], ?_, fun _ hmem => absurd hmem List.not_mem_nil, ?_⟩, ?_⟩
      · exact (List.filter_sublist.map _).nodup (hs.rooms.once _)
      · intro h'
        rw [mem_recipients]
        exact exists_congr fun id => and_congr_right fun _ => hs.rooms.listed h' _
      · exact fun h' id hpresent => hs.rooms.known _ _ ((hs.rooms.listed _ _).mpr hpresent)
      · show r.recipients _ = Function.update r.senders r.forwards.length _ r.forwards.length
        rw [Function.update_self]
      · intro h' hmem
        obtain ⟨x, hx, heq⟩ := List.mem_map.mp hmem
        exact absurd heq (Nat.ne_of_lt (hbefore h' x hx))
      · intro t' ht'
        exact hfinished t' (of_decide_eq_true (List.mem_filter.mp ht').2)
  · intro h' x hx
    rw [hget _ (hbefore h' x hx)]
    exact hs.arrived h' x hx
  · intro h'
    refine (hs.ordered h').imp_of_mem fun {x y} hx _ hxy => ?_
    rw [hget _ (hbefore h' x hx)]
    exact hxy

theorem arrived_push {t : SendId} {envelope : SealedEnvelope α} {rest : List HandleId} (h' : HandleId) :
    (push r t envelope h rest).arrived h' =
      r.arrived h' ++ if h' = h ∧ r.alive h = true then [(t, envelope)] else [] := by
  show r.received h' ++ (if r.alive h then _ else r.queue) h' = (r.received h' ++ r.queue h') ++ _
  rw [List.append_assoc]
  congr 1
  by_cases hh : h' = h
  · subst hh
    by_cases halive : r.alive h' = true
    · rw [if_pos halive, Function.update_self, if_pos ⟨rfl, halive⟩]
    · rw [if_neg halive, if_neg fun hboth : _ ∧ _ => halive hboth.2, List.append_nil]
  · rw [if_neg (c := h' = h ∧ _) fun hboth => hh hboth.1, List.append_nil]
    split
    · rw [Function.update_of_ne hh]
    · rfl

theorem sound_push {t : SendId} {fwd : Forward α} {rest : List HandleId} (hs : Sound r)
    (hfwd : r.forwards[t]? = some fwd) (hnext : r.senders t = h :: rest)
    (hroom : r.alive h = true → (r.queue h).length < ZeroKnowledgeRelay.capacity) :
    Sound (push r t fwd.envelope h rest) := by
  obtain ⟨sent, hsplit, hsent, harrived⟩ := (hs.forwards t fwd hfwd).split
  rw [hnext] at hsplit
  have hnew : t ∉ (r.arrived h).map (·.1) := by
    intro hmem
    have hnodup := (hs.forwards t fwd hfwd).nodup
    rw [hsplit, List.nodup_append] at hnodup
    exact hnodup.2.2 h (harrived h hmem) h List.mem_cons_self rfl
  have hold : ∀ h' t', t' ∈ (r.arrived h').map (·.1) →
      t' ∈ ((push r t fwd.envelope h rest).arrived h').map (·.1) := by
    intro h' t' hmem
    rw [arrived_push, List.map_append]
    exact List.mem_append_left _ hmem
  have hlast : ∀ h' t', t' ∈ ((push r t fwd.envelope h rest).arrived h').map (·.1) →
      t' ∈ (r.arrived h').map (·.1) ∨ t' = t ∧ h' = h := by
    intro h' t' hmem
    rw [arrived_push, List.map_append, List.mem_append] at hmem
    refine hmem.imp_right fun hmem => ?_
    split at hmem
    case isTrue hboth => exact ⟨List.mem_singleton.mp hmem, hboth.1⟩
    case isFalse => cases hmem
  refine ⟨⟨hs.rooms.listed, hs.rooms.once, hs.rooms.known⟩, ?_, ?_, ?_, ?_, ?_⟩
  · intro t' fwd' hfwd'
    have hok := hs.forwards t' fwd' hfwd'
    have hahead : ∀ t'' ∈ fwd'.ahead, (push r t fwd.envelope h rest).Finished t'' := by
      intro t'' ht''
      obtain ⟨hlt, hnone⟩ := hok.ahead t'' ht''
      have hne : t'' ≠ t := by
        rintro rfl
        rw [hnext] at hnone
        cases hnone
      refine ⟨hlt, ?_⟩
      show Function.update r.senders t rest t'' = []
      rw [Function.update_of_ne hne, hnone]
    refine ⟨hok.sender, hok.nodup, hok.present, hok.known, ?_, hahead⟩
    by_cases ht : t' = t
    · subst ht
      obtain rfl := Option.some.inj (hfwd.symm.trans hfwd')
      refine ⟨sent ++ [h], ?_, ?_, ?_⟩
      · show fwd.recipients = _ ++ Function.update r.senders t' rest t'
        rw [Function.update_self, hsplit, List.append_assoc, List.singleton_append]
      · intro h' hmem halive
        rcases List.mem_append.mp hmem with hmem | hmem
        · exact hold h' t' (hsent h' hmem halive)
        · obtain rfl := List.mem_singleton.mp hmem
          rw [arrived_push, if_pos ⟨rfl, halive⟩, List.map_append]
          exact List.mem_append_right _ (List.mem_singleton_self _)
      · intro h' hmem
        rcases hlast h' t' hmem with hmem | ⟨-, rfl⟩
        · exact List.mem_append_left _ (harrived h' hmem)
        · exact List.mem_append_right _ (List.mem_singleton_self _)
    · obtain ⟨sent', hsplit', hsent', harrived'⟩ := hok.split
      refine ⟨sent', ?_, fun h' hmem halive => hold h' t' (hsent' h' hmem halive), fun h' hmem => ?_⟩
      · show fwd'.recipients = sent' ++ Function.update r.senders t rest t'
        rw [Function.update_of_ne ht, hsplit']
      · exact harrived' h' ((hlast h' t' hmem).resolve_right fun hboth => ht hboth.1)
  · intro h' x hx
    rw [arrived_push] at hx
    rcases List.mem_append.mp hx with hx | hx
    · exact hs.arrived h' x hx
    · split at hx
      case isTrue =>
        obtain rfl := List.mem_singleton.mp hx
        exact ⟨fwd, hfwd, rfl⟩
      case isFalse => cases hx
  · intro h'
    rw [arrived_push]
    split
    case isTrue hboth =>
      rw [hboth.1]
      exact nodup_map_concat (hs.once h) hnew
    case isFalse =>
      rw [List.append_nil]
      exact hs.once h'
  · intro h'
    rw [arrived_push]
    refine List.pairwise_append.mpr ⟨hs.ordered h', ?_, ?_⟩
    · split
      · exact List.pairwise_singleton _ _
      · exact .nil
    · intro x hx y hy fwd' hfwd'
      split at hy
      case isTrue =>
        obtain rfl := List.mem_singleton.mp hy
        -- what is on its way has not come to its end
        intro hahead
        have hnone := ((hs.forwards _ fwd' hfwd').ahead t hahead).2
        rw [hnext] at hnone
        cases hnone
      case isFalse => cases hy
  · intro h'
    show ((if r.alive h then Function.update r.queue h (r.queue h ++ [(t, fwd.envelope)]) else r.queue) h').length ≤ _
    split
    case isTrue halive =>
      by_cases hh : h' = h
      · rw [hh, Function.update_self, List.length_append, List.length_singleton]
        have := hroom halive
        omega
      · rw [Function.update_of_ne hh]
        exact hs.bounded h'
    case isFalse => exact hs.bounded h'

/-- What has arrived goes on, or goes with its handle. -/
theorem Sound.shrink {r' : ZeroKnowledgeRelay α} (hs : Sound r) (hrooms : RoomsOk r')
    (hclients : r'.clients = r.clients)
    (hforwards : r'.forwards = r.forwards) (hsenders : r'.senders = r.senders)
    (halive : ∀ h, r'.alive h = true → r.alive h = true ∧ r'.arrived h = r.arrived h)
    (harrived : ∀ h, (r'.arrived h).Sublist (r.arrived h))
    (hbounded : ∀ h, (r'.queue h).length ≤ ZeroKnowledgeRelay.capacity) : Sound r' := by
  refine ⟨hrooms, ?_, ?_, ?_, ?_, hbounded⟩
  · intro t fwd hfwd
    rw [hforwards] at hfwd
    have hok := hs.forwards t fwd hfwd
    obtain ⟨sent, hsplit, hsent, hin⟩ := hok.split
    refine ⟨by rw [hclients]; exact hok.sender, hok.nodup, hok.present, by rw [hclients]; exact hok.known,
      ⟨sent, by rw [hsenders]; exact hsplit, ?_, ?_⟩, ?_⟩
    · intro h' hmem hlive
      obtain ⟨hlive, heq⟩ := halive h' hlive
      rw [heq]
      exact hsent h' hmem hlive
    · exact fun h' hmem => hin h' (((harrived h').map _).subset hmem)
    · intro t' ht'
      obtain ⟨hlt, hnone⟩ := hok.ahead t' ht'
      exact ⟨by rw [hforwards]; exact hlt, by rw [hsenders]; exact hnone⟩
  · intro h' x hx
    rw [hforwards]
    exact hs.arrived h' x ((harrived h').subset hx)
  · exact fun h' => ((harrived h').map _).nodup (hs.once h')
  · intro h'
    rw [hforwards]
    exact (hs.ordered h').sublist (harrived h')

theorem sound_drop (hs : Sound r) : Sound (drop r h client) := by
  refine hs.shrink ⟨?_, ?_, ?_⟩ rfl rfl rfl ?_ ?_ ?_
  · intro h' client'
    show Listed (ZeroKnowledgeRelay.deregister r.rooms client) h' client' ↔ Present (r.history ++ _) h' client'
    rw [listed_deregister, present_dropped, hs.rooms.listed]
  · intro room
    show ((ZeroKnowledgeRelay.deregister r.rooms client room).map (·.2.tx)).Nodup
    rw [ZeroKnowledgeRelay.deregister, Function.update_apply]
    split
    case isTrue => exact (List.filter_sublist.map _).nodup (hs.rooms.once _)
    case isFalse => exact hs.rooms.once room
  · exact fun h' client' hlisted => hs.rooms.known h' client' (listed_deregister.mp hlisted).1
  · intro h' halive
    have hupdate : Function.update r.alive h false h' = true := halive
    by_cases hh : h' = h
    · rw [hh, Function.update_self] at hupdate
      cases hupdate
    · rw [Function.update_of_ne hh] at hupdate
      refine ⟨hupdate, ?_⟩
      show r.received h' ++ Function.update r.queue h [] h' = _
      rw [Function.update_of_ne hh]
      rfl
  · intro h'
    refine List.Sublist.append_left ?_ _
    show (Function.update r.queue h [] h').Sublist (r.queue h')
    rw [Function.update_apply]
    split
    · exact List.nil_sublist _
    · exact List.Sublist.refl _
  · intro h'
    show (Function.update r.queue h [] h').length ≤ _
    rw [Function.update_apply]
    split
    · exact Nat.zero_le _
    · exact hs.bounded h'

theorem sound_recv {x : SendId × SealedEnvelope α} {rest : List (SendId × SealedEnvelope α)} (hs : Sound r)
    (hqueue : r.queue h = x :: rest) :
    Sound { r with
      queue := Function.update r.queue h rest
      received := Function.update r.received h (r.received h ++ [x]) } := by
  have harrived : ∀ h', Function.update r.received h (r.received h ++ [x]) h' ++ Function.update r.queue h rest h' =
      r.arrived h' := by
    intro h'
    by_cases hh : h' = h
    · rw [hh, Function.update_self, Function.update_self, List.append_assoc, List.singleton_append, ← hqueue]
      rfl
    · rw [Function.update_of_ne hh, Function.update_of_ne hh]
      rfl
  refine hs.shrink ⟨hs.rooms.listed, hs.rooms.once, hs.rooms.known⟩ rfl rfl rfl
    (fun h' hlive => ⟨hlive, harrived h'⟩) (fun h' => harrived h' ▸ List.Sublist.refl _) fun h' => ?_
  show (Function.update r.queue h rest h').length ≤ _
  by_cases hh : h' = h
  · have hlength := hs.bounded h
    rw [hqueue, List.length_cons] at hlength
    rw [hh, Function.update_self]
    omega
  · rw [Function.update_of_ne hh]
    exact hs.bounded h'

theorem sound_step {r' : ZeroKnowledgeRelay α} {a : Action α} (hs : Sound r) (hstep : step r a = some r') :
    Sound r' := by
  cases a with
  | join h client pubkey =>
    rw [step] at hstep
    split at hstep
    case isTrue hfresh =>
      obtain rfl := Option.some.inj hstep
      exact sound_join hs hfresh pubkey
    case isFalse => cases hstep
  | send h payload =>
    rw [step] at hstep
    split at hstep
    case h_1 client hclient =>
      split at hstep
      case isTrue =>
        obtain rfl := Option.some.inj hstep
        exact sound_send hs hclient payload
      case isFalse => cases hstep
    case h_2 => cases hstep
  | push t =>
    rw [step] at hstep
    split at hstep
    case h_1 fwd h rest hfwd hnext =>
      split at hstep
      case isTrue => cases hstep
      case isFalse hroom =>
        obtain rfl := Option.some.inj hstep
        refine sound_push hs hfwd hnext fun halive => ?_
        by_contra hfull
        exact hroom (by rw [halive, Bool.true_and]; exact decide_eq_true (Nat.le_of_not_lt hfull))
    case h_2 => cases hstep
  | recv h =>
    rw [step] at hstep
    split at hstep
    case h_1 x rest hqueue =>
      split at hstep
      case isTrue =>
        obtain rfl := Option.some.inj hstep
        exact sound_recv hs hqueue
      case isFalse => cases hstep
    case h_2 => cases hstep
  | drop h =>
    rw [step] at hstep
    split at hstep
    case h_1 client hclient =>
      split at hstep
      case isTrue =>
        obtain rfl := Option.some.inj hstep
        exact sound_drop hs
      case isFalse => cases hstep
    case h_2 => cases hstep

end Invariant

/-! ## What arrives -/

/-- What the relay does for every channel. -/
structure Delivers {α : Type} (r : ZeroKnowledgeRelay α) : Prop where
  addressed : ∀ h, ∀ x ∈ r.arrived h, ∃ fwd id, r.forwards[x.1]? = some fwd ∧ x.2 = fwd.envelope ∧
    r.clients fwd.sender = some ⟨x.2.roomId, x.2.senderId⟩ ∧ r.clients h = some ⟨x.2.roomId, id⟩ ∧
    id ≠ x.2.senderId ∧ Present fwd.history h ⟨x.2.roomId, id⟩
  once : ∀ h, ((r.arrived h).map (·.1)).Nodup
  ordered : ∀ h t fwd t', r.forwards[t]? = some fwd → t' ∈ fwd.ahead →
    ∀ front back, (r.arrived h).map (·.1) = front ++ t :: back → t' ∉ back
  complete : ∀ t fwd h id, r.forwards[t]? = some fwd → r.Finished t → r.alive h = true →
    id ≠ fwd.envelope.senderId → Present fwd.history h ⟨fwd.envelope.roomId, id⟩ → (t, fwd.envelope) ∈ r.arrived h
  bounded : ∀ h, (r.queue h).length ≤ ZeroKnowledgeRelay.capacity

/-- **The relay delivers.** In every interleaving, what arrives in a channel is an envelope as it was sent, by a
client of the same room under another id, to a handle that had joined before and whose id nobody had dropped since;
each send arrives at most once, and behind the sends that had come to their end before it began. A send that came to
its end has arrived everywhere it was to go, but in the channels that are gone. -/
theorem relay_delivers {α : Type} (r : ZeroKnowledgeRelay α) (hrun : Reaches step (fun _ _ => True) .new r) :
    Delivers r := by
  have hs : Sound r := hrun.invariant sound_new fun t a u ht _ hstep => sound_step ht hstep
  refine ⟨?_, hs.once, ?_, ?_, hs.bounded⟩
  · intro h x hx
    obtain ⟨fwd, hfwd, henvelope⟩ := hs.arrived h x hx
    have hok := hs.forwards x.1 fwd hfwd
    obtain ⟨sent, hsplit, -, harrived⟩ := hok.split
    have hmem : h ∈ fwd.recipients := by
      rw [hsplit]
      exact List.mem_append_left _ (harrived h (List.mem_map_of_mem hx))
    obtain ⟨id, hne, hpresent⟩ := (hok.present h).mp hmem
    rw [henvelope]
    exact ⟨fwd, id, hfwd, rfl, hok.sender, hok.known h id hpresent, hne, hpresent⟩
  · intro h t fwd t' hfwd hahead front back hsplit hback
    obtain ⟨front', rest, harrived, -, hrest⟩ := List.map_eq_append_iff.mp hsplit
    obtain ⟨x, back', rfl, hx, hback'⟩ := List.map_eq_cons_iff.mp hrest
    have hordered := hs.ordered h
    rw [harrived] at hordered
    obtain ⟨y, hy, heq⟩ := List.mem_map.mp (hback' ▸ hback)
    have hnot := (List.pairwise_cons.mp (List.pairwise_append.mp hordered).2.1).1 y hy fwd (by rw [hx]; exact hfwd)
    exact hnot (by rw [heq]; exact hahead)
  · intro t fwd h id hfwd hfinished halive hne hpresent
    have hok := hs.forwards t fwd hfwd
    obtain ⟨sent, hsplit, hsent, -⟩ := hok.split
    rw [hfinished.2, List.append_nil] at hsplit
    have hmem : h ∈ sent := hsplit ▸ (hok.present h).mpr ⟨id, hne, hpresent⟩
    obtain ⟨x, hx, rfl⟩ := List.mem_map.mp (hsent h hmem halive)
    obtain ⟨fwd', hfwd', henvelope⟩ := hs.arrived h x hx
    obtain rfl := Option.some.inj (hfwd.symm.trans hfwd')
    rwa [← henvelope]

/-! ## Two handles of one id -/

namespace RelaySample

def key : Vector UInt8 32 := Vector.replicate 32 0

/-- A desk joins twice. When one of its handles goes, the other hears nothing new, though it is still there. -/
def actions : List (Action Nat) :=
  [.join 1 ⟨"ops", "phone"⟩ key, .join 2 ⟨"ops", "desk"⟩ key, .join 3 ⟨"ops", "desk"⟩ key, .send 1 7, .push 0,
    .recv 2, .push 0, .drop 3, .send 1 8]

end RelaySample

theorem relay_delivers_desk :
    ∃ r : ZeroKnowledgeRelay Nat, Reaches step (fun _ _ => True) .new r ∧ Delivers r ∧
      r.arrived 2 = [(0, ⟨"ops", "phone", 7⟩)] ∧ r.alive 2 = true ∧ r.Finished 1 := by
  have hevaluated : (runActions step (fun _ _ => True) (.new : ZeroKnowledgeRelay Nat) RelaySample.actions).map
      (fun r => (r.arrived 2, r.alive 2, decide (r.Finished 1))) =
        some ([(0, ⟨"ops", "phone", 7⟩)], true, true) := by decide +kernel
  obtain ⟨r, hrun, hvalues⟩ := Option.map_eq_some_iff.mp hevaluated
  obtain ⟨harrived, hvalues⟩ := Prod.mk.inj hvalues
  obtain ⟨halive, hfinished⟩ := Prod.mk.inj hvalues
  have hreaches := reaches_of_run hrun
  exact ⟨r, hreaches, relay_delivers r hreaches, harrived, halive, of_decide_eq_true hfinished⟩

end RallyPoint.Cockpit.Relay
