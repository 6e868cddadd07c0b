/-
# RallyPoint.Lib.Codec — derived encodings of record fields as JSON.

A codec is an encoder and a decoder; `RoundTrips a` says that one value comes back from its own encoding, which is
what a record needs of each of its fields and no more. A record is decoded member by member: a member may be
required, or have a default that a missing member stands for. A member that is left out when it has its default is
read back all the same (`readDefault_of_skip`).
-/
import RallyPoint.Lib.Json

namespace RallyPoint.Lib

structure Codec (α : Type*) where
  toWire : α → Json
  fromWire : Json → Except String α

namespace Codec

variable {α : Type*}

/-- The value comes back from its encoding. -/
def RoundTrips (c : Codec α) (a : α) : Prop := c.fromWire (c.toWire a) = .ok a

/-! ## Basic types -/

/-- A machine integer of 64 bits. -/
abbrev I64 := { n : Int // -9223372036854775808 ≤ n ∧ n ≤ 9223372036854775807 }

/-- A length or a count. -/
abbrev Usize := { n : Nat // n ≤ 18446744073709551615 }

def i64 : Codec I64 where
  toWire n := .int n.val
  fromWire
    | .int n =>
      if h : -9223372036854775808 ≤ n ∧ n ≤ 9223372036854775807 then .ok ⟨n, h⟩
      else .error "invalid value: expected i64"
    | _ => .error "invalid type: expected i64"

def usize : Codec Usize where
  toWire n := .int n.val
  fromWire
    | .int n =>
      if h : 0 ≤ n ∧ n.toNat ≤ 18446744073709551615 then .ok ⟨n.toNat, h.2⟩
      else .error "invalid value: expected usize"
    | _ => .error "invalid type: expected usize"

def text : Codec String where
  toWire := .string
  fromWire
    | .string s => .ok s
    | _ => .error "invalid type: expected a string"

/-- A sequence. -/
def list (c : Codec α) : Codec (List α) where
  toWire items := .array (items.map c.toWire)
  fromWire
    | .array items => items.mapM c.fromWire
    | _ => .error "invalid type: expected a sequence"

/-- `null` is no value. -/
def option (c : Codec α) : Codec (Option α) where
  toWire a := a.elim .null c.toWire
  fromWire
    | .null => .ok none
    | v => (c.fromWire v).map some

theorem i64_roundTrips (n : I64) : i64.RoundTrips n := dif_pos n.2

theorem usize_roundTrips (n : Usize) : usize.RoundTrips n := dif_pos ⟨Int.natCast_nonneg _, n.2⟩

theorem text_roundTrips (s : String) : text.RoundTrips s := rfl

theorem list_roundTrips {c : Codec α} {items : List α} (h : ∀ a ∈ items, c.RoundTrips a) :
    (list c).RoundTrips items := by
  unfold RoundTrips list
  dsimp only
  induction items with
  | nil => rfl
  | cons a rest ih =>
    have ha : c.fromWire (c.toWire a) = .ok a := h a List.mem_cons_self
    rw [List.map_cons, List.mapM_cons, ha, ih fun b hb => h b (List.mem_cons_of_mem _ hb)]
    rfl

/-- A value that is not encoded as `null` can be told from none. -/
theorem option_roundTrips {c : Codec α} {a : Option α} (h : ∀ b ∈ a, c.RoundTrips b ∧ c.toWire b ≠ .null) :
    (option c).RoundTrips a := by
  unfold RoundTrips option
  cases a with
  | none => rfl
  | some b =>
    obtain ⟨hb, hnull⟩ := h b rfl
    have hsome : c.fromWire (c.toWire b) = .ok b := hb
    simp only [Option.elim_some, hsome]
    rfl

/-! ## Members -/

variable (c : Codec α) (fields : List (String × Json)) (key : String)

/-- A member that has to be there. -/
def readRequired : Except String α :=
  match getField fields key with
  | some v => c.fromWire v
  | none => .error s!"missing field {key}"

/-- A member with a default. -/
def readDefault (default : α) : Except String α :=
  match getField fields key with
  | some v => c.fromWire v
  | none => .ok default

variable {c fields key} {a : α}

theorem readRequired_of (hr : c.RoundTrips a) (h : getField fields key = some (c.toWire a)) :
    c.readRequired fields key = .ok a := by
  rw [readRequired, h]
  exact hr

theorem readDefault_of {default : α} (hr : c.RoundTrips a) (h : getField fields key = some (c.toWire a)) :
    c.readDefault fields key default = .ok a := by
  rw [readDefault, h]
  exact hr

/-- A member left out when it has its default. -/
theorem readDefault_of_skip {default : α} {skip : Bool} (hr : c.RoundTrips a) (hskip : skip = true → a = default)
    (h : getField fields key = if skip then none else some (c.toWire a)) :
    c.readDefault fields key default = .ok a := by
  cases skip with
  | true => rw [readDefault, h, hskip rfl]; rfl
  | false => exact readDefault_of hr (by simpa using h)

end Codec

end RallyPoint.Lib
