/-
# RallyPoint.Lib.JsonSize — how long a JSON text is.

The length of a compact JSON text in UTF-8 bytes, member by member: an array or object is as long as what is
in it, one byte for each comma, and its two brackets.
-/
import RallyPoint.Lib.Json

namespace RallyPoint.Lib

/-- The UTF-8 bytes of some characters. -/
def charBytes (cs : List Char) : Nat := sumOf Char.utf8Size cs

@[simp] theorem charBytes_nil : charBytes [] = 0 := rfl

@[simp] theorem charBytes_append (cs ds : List Char) : charBytes (cs ++ ds) = charBytes cs + charBytes ds :=
  sumOf_append _ cs ds

@[simp] theorem charBytes_cons (c : Char) (cs : List Char) :
    charBytes (c :: cs) = c.utf8Size + charBytes cs := by
  have h : c :: cs = [c] ++ cs := rfl
  rw [h, charBytes_append]
  simp [charBytes, sumOf]

theorem length_le_charBytes (cs : List Char) : cs.length ≤ charBytes cs := by
  induction cs with
  | nil => exact Nat.le_refl 0
  | cons c rest ih =>
    have hc : 0 < c.utf8Size := Char.utf8Size_pos c
    rw [charBytes_cons, List.length_cons]
    omega

/-- ASCII characters take one byte each. -/
theorem charBytes_of_ascii {cs : List Char} (h : ∀ c ∈ cs, c.utf8Size = 1) : charBytes cs = cs.length := by
  induction cs with
  | nil => rfl
  | cons c rest ih =>
    rw [charBytes_cons, h c (by simp), ih fun d hd => h d (by simp [hd]), List.length_cons, Nat.add_comm]

namespace Json

/-- The length of a value's compact text, `serde_json::to_string(..).len()`. -/
def bytes (v : Json) : Nat := charBytes v.render

/-- What the items of an array take. -/
def itemBytes (items : List Json) : Nat := sumOf bytes items

@[simp] theorem itemBytes_nil : itemBytes [] = 0 := rfl

@[simp] theorem itemBytes_cons (v : Json) (rest : List Json) :
    itemBytes (v :: rest) = v.bytes + itemBytes rest := by
  have h : v :: rest = [v] ++ rest := rfl
  rw [itemBytes, h, sumOf_append]
  simp [itemBytes, sumOf]

@[simp] theorem itemBytes_append (l l' : List Json) : itemBytes (l ++ l') = itemBytes l + itemBytes l' :=
  sumOf_append _ l l'

/-- Behind another item each one costs a comma as well. -/
theorem charBytes_renderItems_false (items : List Json) :
    charBytes (renderItems false items) = itemBytes items + items.length + 1 := by
  induction items with
  | nil => rfl
  | cons v rest ih =>
    have hv : charBytes v.render = v.bytes := rfl
    rw [renderItems]
    simp only [Bool.false_eq_true, if_false, charBytes_append, charBytes_cons, charBytes_nil, ih, hv,
      itemBytes_cons, List.length_cons]
    have hcomma : Char.utf8Size ',' = 1 := by decide
    omega

theorem bytes_array (items : List Json) :
    (Json.array items).bytes = itemBytes items + (items.length - 1) + 2 := by
  have hopen : Char.utf8Size '[' = 1 := by decide
  rw [bytes, render, charBytes_cons, hopen]
  cases items with
  | nil => rfl
  | cons v rest =>
    have hv : charBytes v.render = v.bytes := rfl
    rw [renderItems]
    simp only [if_true, List.nil_append, charBytes_append, charBytes_renderItems_false, hv, itemBytes_cons,
      List.length_cons]
    omega

/-- What the members of an object take, each with its key, the colon and a comma before it. -/
def fieldBytes : List (String × Json) → Nat
  | [] => 0
  | (key, v) :: rest => charBytes (renderString key) + v.bytes + 2 + fieldBytes rest

theorem charBytes_renderFields_false (fields : List (String × Json)) :
    charBytes (renderFields false fields) = fieldBytes fields + 1 := by
  induction fields with
  | nil => rfl
  | cons field rest ih =>
    obtain ⟨key, v⟩ := field
    have hv : charBytes v.render = v.bytes := rfl
    have hcomma : Char.utf8Size ',' = 1 := by decide
    have hcolon : Char.utf8Size ':' = 1 := by decide
    rw [renderFields]
    simp only [Bool.false_eq_true, if_false, charBytes_append, charBytes_cons, charBytes_nil, ih, hv, fieldBytes]
    omega

/-- The first member has no comma before it, which the brackets make up for. -/
theorem bytes_object (field : String × Json) (rest : List (String × Json)) :
    (Json.object (field :: rest)).bytes = fieldBytes (field :: rest) + 1 := by
  obtain ⟨key, v⟩ := field
  have hv : charBytes v.render = v.bytes := rfl
  have hopen : Char.utf8Size '{' = 1 := by decide
  have hcolon : Char.utf8Size ':' = 1 := by decide
  rw [bytes, render, renderFields]
  simp only [if_true, List.nil_append, charBytes_append, charBytes_cons, charBytes_renderFields_false, hv,
    fieldBytes]
  omega

theorem fieldBytes_append (l l' : List (String × Json)) : fieldBytes (l ++ l') = fieldBytes l + fieldBytes l' := by
  induction l with
  | nil => simp [fieldBytes]
  | cons field rest ih =>
    obtain ⟨key, v⟩ := field
    simp only [List.cons_append, fieldBytes, ih]
    omega

/-- An object with `null` in one place, which takes four bytes, tells how long it is with any value there. -/
theorem bytes_member (pre post : List (String × Json)) (key : String) (v : Json) :
    (Json.object (pre ++ (key, v) :: post)).bytes + 4 =
      (Json.object (pre ++ (key, .null) :: post)).bytes + v.bytes := by
  have hbytes : ∀ fields : List (String × Json), fields ≠ [] →
      (Json.object fields).bytes = fieldBytes fields + 1 := by
    intro fields hne
    cases fields with
    | nil => exact absurd rfl hne
    | cons field rest => exact bytes_object field rest
  have hnull : Json.bytes .null = 4 := by decide
  rw [hbytes _ (by simp), hbytes _ (by simp)]
  simp only [fieldBytes_append, fieldBytes, hnull]
  omega

/-- A longer value in one place makes the object longer by as much. -/
theorem bytes_member_add (pre post : List (String × Json)) (key : String) {v w : Json} {d : Nat}
    (h : w.bytes = v.bytes + d) :
    (Json.object (pre ++ (key, w) :: post)).bytes = (Json.object (pre ++ (key, v) :: post)).bytes + d := by
  have hv := bytes_member pre post key v
  have hw := bytes_member pre post key w
  omega

/-- A string of one plain character over and over. -/
theorem bytes_string_replicate {c : Char} (n : Nat) (hplain : escapeChar c = [c]) (hsize : c.utf8Size = 1) :
    (Json.string (String.ofList (List.replicate n c))).bytes = n + 2 := by
  have hquote : Char.utf8Size '"' = 1 := by decide
  have hchars : charBytes ((List.replicate n c).flatMap escapeChar) = n := by
    induction n with
    | zero => rfl
    | succ n ih =>
      rw [List.replicate_succ, List.flatMap_cons, hplain, charBytes_append, ih, charBytes_cons, charBytes_nil, hsize]
      omega
  rw [bytes, render, renderString, String.toList_ofList, charBytes_cons, charBytes_append, charBytes_cons,
    charBytes_nil, hchars, hquote]
  omega

/-- A number of `k` digits, perhaps with a sign. -/
theorem bytes_int_le {n : Int} {k : Nat} (hk : 0 < k) (h : n.natAbs < 10 ^ k) : (Json.int n).bytes ≤ k + 1 := by
  have hdigits : charBytes (Nat.toDigits 10 n.natAbs) ≤ k := by
    rw [charBytes_of_ascii]
    · exact (Nat.length_toDigits_le_iff (by decide) hk).mpr h
    · intro c hc
      have hdigit : c.isDigit = true := Nat.isDigit_of_mem_toDigits (by decide) (by decide) hc
      have hrange : c.toNat ≤ 57 := by
        rw [Char.isDigit, Bool.and_eq_true, decide_eq_true_eq, decide_eq_true_eq] at hdigit
        exact hdigit.2
      refine Char.utf8Size_eq_one_iff.mpr (UInt32.le_iff_toNat_le.mpr ?_)
      exact hrange.trans (by decide)
  rw [bytes, render, intText]
  split
  · rw [charBytes_cons]
    have hminus : Char.utf8Size '-' = 1 := by decide
    omega
  · omega

end Json

end RallyPoint.Lib
