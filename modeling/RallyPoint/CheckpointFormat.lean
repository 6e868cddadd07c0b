/-
# RallyPoint.CheckpointFormat — checkpoint.mjs: what a checkpoint is, and what is written of it.

A context is checked and put into its canonical form, whose objects list their keys in order; the digest is taken
over the text of that form. The file is an envelope of the digest and the form. Reading it back checks the context
again and recomputes the digest, so the text must be one that parsing and writing leave as it is
(`serialize_readBack`).
-/
import RallyPoint.Lib.Check
import RallyPoint.Lib.Js
import RallyPoint.Lib.JsData
import RallyPoint.Lib.JsonSize
import Mathlib.Algebra.Group.Int.Defs

namespace RallyPoint.Checkpoint

open Lib Lib.JsData

/-- What is thrown: an error of this file, one of the language, one of the file system by its code. -/
inductive Failure
  | error (message : String)
  | typeError
  | syntaxError
  | system (code : String)
  deriving DecidableEq

def maxBytes : Nat := 65536

section Format

variable {N : Numbers}

/-! ## The canonical form -/

/-- `Object.keys(value).sort()`: keys compare by their units. -/
def sortKeys {α : Type} (entries : List (JsString × α)) : List (JsString × α) :=
  entries.insertionSort fun a b => a.1.map UInt16.toNat ≤ b.1.map UInt16.toNat

mutual

def canonical : JsValue N.Num → JsValue N.Num
  | .array items => .array (canonicalItems items)
  | .object fields => .object (fromEntries (sortKeys (canonicalFields fields)))
  | v => v

def canonicalItems : List (JsValue N.Num) → List (JsValue N.Num)
  | [] => []
  | v :: rest => canonical v :: canonicalItems rest

def canonicalFields : List (JsString × JsValue N.Num) → List (JsString × JsValue N.Num)
  | [] => []
  | (key, v) :: rest => (key, canonical v) :: canonicalFields rest

end

section SortKeys

variable {α β : Type}

/-- A key by its units. -/
def units (entry : JsString × α) : List Nat := entry.1.map UInt16.toNat

theorem units_injective {a b : JsString × α} (h : units a = units b) : a.1 = b.1 :=
  List.map_injective_iff.mpr (fun _ _ => UInt16.toNat_inj.mp) h

theorem sortKeys_perm (entries : List (JsString × α)) : (sortKeys entries).Perm entries := List.perm_insertionSort _ _

theorem sortedBy_sortKeys (entries : List (JsString × α)) : SortedBy units (sortKeys entries) :=
  sortedBy_insertionSort (fun _ _ => Iff.rfl) entries

/-- Different keys have one order. -/
theorem sortKeys_of_perm {entries entries' : List (JsString × α)} (hperm : entries'.Perm entries)
    (hkeys : (entries.map (·.1)).Nodup) : sortKeys entries' = sortKeys entries := by
  refine eq_of_perm_of_sorted (((sortKeys_perm entries').trans hperm).trans (sortKeys_perm entries).symm)
    (sortedBy_sortKeys entries') (sortedBy_sortKeys entries) fun a ha b hb hunits => ?_
  have hmem : ∀ {e}, e ∈ sortKeys entries' → e ∈ entries := fun he =>
    hperm.mem_iff.mp ((sortKeys_perm entries').mem_iff.mp he)
  exact List.inj_on_of_nodup_map hkeys (hmem ha) (hmem hb) (units_injective hunits)

/-- The order does not look at the values. -/
theorem sortKeys_map (f : α → β) (entries : List (JsString × α)) :
    sortKeys (entries.map fun e => (e.1, f e.2)) = (sortKeys entries).map fun e => (e.1, f e.2) :=
  (List.map_insertionSort (fun a b : JsString × α => units a ≤ units b) (fun a b : JsString × β => units a ≤ units b)
    (fun e => (e.1, f e.2)) entries fun _ _ _ _ => Iff.rfl).symm

end SortKeys

theorem canonicalItems_eq_map (items : List (JsValue N.Num)) : canonicalItems items = items.map canonical := by
  induction items with
  | nil => rfl
  | cons v rest ih => rw [canonicalItems, ih, List.map_cons]

theorem canonicalFields_eq_map (fields : List (JsString × JsValue N.Num)) :
    canonicalFields fields = fields.map fun f => (f.1, canonical f.2) := by
  induction fields with
  | nil => rfl
  | cons f rest ih =>
    obtain ⟨key, v⟩ := f
    rw [canonicalFields, ih, List.map_cons]

theorem keys_canonicalFields (fields : List (JsString × JsValue N.Num)) :
    (canonicalFields fields).map (·.1) = fields.map (·.1) := by
  rw [canonicalFields_eq_map, List.map_map]
  rfl

theorem canonical_object {fields : List (JsString × JsValue N.Num)} (h : (fields.map (·.1)).Nodup) :
    canonical (.object fields) = .object (ownOrder (sortKeys (canonicalFields fields))) := by
  have hkeys : ((sortKeys (canonicalFields fields)).map (·.1)).Nodup :=
    ((sortKeys_perm _).map _).nodup_iff.mpr (by rwa [keys_canonicalFields])
  rw [canonical, fromEntries_of_nodup hkeys]

theorem canonicalFields_perm (fields : List (JsString × JsValue N.Num)) :
    (ownOrder (sortKeys (canonicalFields fields))).Perm (canonicalFields fields) :=
  (ownOrder_perm _).trans (sortKeys_perm _)

theorem wellFormed_canonical {v : JsValue N.Num} (h : WellFormed v) : WellFormed (canonical v) := by
  induction v using JsValue.induct with
  | array items ih =>
    rw [WellFormed, wellFormedItems_iff] at h
    rw [canonical, WellFormed, wellFormedItems_iff, canonicalItems_eq_map, List.forall_mem_map]
    exact fun v hv => ih v hv (h v hv)
  | object fields ih =>
    rw [WellFormed, wellFormedFields_iff] at h
    have hperm := canonicalFields_perm fields
    rw [canonical_object h.2.1, WellFormed, wellFormedFields_iff]
    refine ⟨ownOrder_ownOrder _, (hperm.map _).nodup_iff.mpr (by rw [keys_canonicalFields]; exact h.2.1), ?_⟩
    intro f hf
    rw [hperm.mem_iff, canonicalFields_eq_map, List.mem_map] at hf
    obtain ⟨g, hg, rfl⟩ := hf
    exact ih g hg (h.2.2 g hg)
  | _ => exact h

theorem exact_canonical {v : JsValue N.Num} (hwell : WellFormed v) (h : Exact v) : Exact (canonical v) := by
  induction v using JsValue.induct with
  | array items ih =>
    rw [WellFormed, wellFormedItems_iff] at hwell
    rw [Exact, exactItems_iff] at h
    rw [canonical, Exact, exactItems_iff, canonicalItems_eq_map, List.forall_mem_map]
    exact fun v hv => ih v hv (hwell v hv) (h v hv)
  | object fields ih =>
    rw [WellFormed, wellFormedFields_iff] at hwell
    rw [Exact, exactFields_iff] at h
    rw [canonical_object hwell.2.1, Exact, exactFields_iff]
    intro f hf
    rw [(canonicalFields_perm fields).mem_iff, canonicalFields_eq_map, List.mem_map] at hf
    obtain ⟨g, hg, rfl⟩ := hf
    exact ih g hg (hwell.2.2 g hg) (h g hg)
  | _ => exact h

/-- The canonical form is its own. -/
theorem canonical_canonical {v : JsValue N.Num} (h : WellFormed v) : canonical (canonical v) = canonical v := by
  induction v using JsValue.induct with
  | array items ih =>
    rw [WellFormed, wellFormedItems_iff] at h
    rw [canonical, canonical, canonicalItems_eq_map, canonicalItems_eq_map, List.map_map]
    exact congrArg JsValue.array (List.map_congr_left fun v hv => ih v hv (h v hv))
  | object fields ih =>
    rw [WellFormed, wellFormedFields_iff] at h
    have hperm := canonicalFields_perm fields
    have hkeys : ((canonicalFields fields).map (·.1)).Nodup := by
      rw [keys_canonicalFields]
      exact h.2.1
    -- every value is in its form already
    have hvalues : canonicalFields (ownOrder (sortKeys (canonicalFields fields))) =
        ownOrder (sortKeys (canonicalFields fields)) := by
      rw [canonicalFields_eq_map]
      refine (List.map_congr_left fun f hf => ?_).trans (List.map_id _)
      rw [hperm.mem_iff, canonicalFields_eq_map, List.mem_map] at hf
      obtain ⟨g, hg, rfl⟩ := hf
      rw [ih g hg (h.2.2 g hg)]
      rfl
    rw [canonical_object h.2.1, canonical_object ((hperm.map _).nodup_iff.mpr hkeys), hvalues,
      sortKeys_of_perm hperm hkeys]
  | _ => rfl

/-- What comes back of a canonical form is canonical. -/
theorem canonical_stored {v : JsValue N.Num} (h : WellFormed v) : canonical (stored v) = stored (canonical v) := by
  induction v using JsValue.induct with
  | number n =>
    show canonical (stored (.number n)) = stored (.number n)
    rw [stored]
    split <;> rfl
  | array items ih =>
    rw [WellFormed, wellFormedItems_iff] at h
    rw [stored, canonical, canonical, stored, storedItems_eq_map, storedItems_eq_map, canonicalItems_eq_map,
      canonicalItems_eq_map, List.map_map, List.map_map]
    exact congrArg JsValue.array (List.map_congr_left fun v hv => ih v hv (h v hv))
  | object fields ih =>
    rw [WellFormed, wellFormedFields_iff] at h
    have hvalues : canonicalFields (storedFields fields) = storedFields (canonicalFields fields) := by
      rw [canonicalFields_eq_map, storedFields_eq_map, storedFields_eq_map, canonicalFields_eq_map, List.map_map,
        List.map_map]
      exact List.map_congr_left fun f hf => congrArg (Prod.mk f.1) (ih f hf (h.2.2 f hf))
    rw [stored, canonical_object (by rw [keys_storedFields]; exact h.2.1), canonical_object h.2.1, stored, hvalues,
      storedFields_eq_map, storedFields_eq_map, sortKeys_map, ownOrder_map]
  | _ => rfl

theorem get_canonical {v : JsValue N.Num} (h : WellFormed v) (key : String) :
    get (canonical v) key = (get v key).map canonical := by
  cases v with
  | object fields =>
    have hkeys : ((canonicalFields fields).map (·.1)).Nodup := by
      rw [keys_canonicalFields]
      exact h.2.1
    rw [canonical_object h.2.1, JsData.get, JsData.get, find?_key_of_perm (canonicalFields_perm fields) hkeys,
      canonicalFields_eq_map, List.find?_map, Option.map_map, Option.map_map]
    rfl
  | _ => rfl

/-! ## The tests on texts -/

def isDigitUnit (u : UInt16) : Bool := decide (0x30 ≤ u.toNat) && decide (u.toNat ≤ 0x39)

/-- `[a-f0-9]`. -/
def isHexUnit (u : UInt16) : Bool := isDigitUnit u || (decide (0x61 ≤ u.toNat) && decide (u.toNat ≤ 0x66))

/-- `[A-Za-z0-9._:-]`. -/
def isIdUnit (u : UInt16) : Bool :=
  isDigitUnit u || (decide (0x41 ≤ u.toNat) && decide (u.toNat ≤ 0x5a)) ||
    (decide (0x61 ≤ u.toNat) && decide (u.toNat ≤ 0x7a)) || [0x2e, 0x5f, 0x3a, 0x2d].contains u.toNat

def isId (s : JsString) : Bool := s != [] && s.all isIdUnit

def isHash (s : JsString) : Bool := s.length == 64 && s.all isHexUnit

def isRevision (s : JsString) : Bool := decide (40 ≤ s.length) && decide (s.length ≤ 64) && s.all isHexUnit

/-- `!s.trim()`. -/
def isBlankText (s : JsString) : Bool := s.all fun u => jsSpaceCodes.contains u.toNat

/-- `REGEX.test(v ?? '')`. -/
def test (regex : JsString → Bool) : Option (JsValue N.Num) → Except Failure Bool
  | none => .ok (regex [])
  | some v =>
    if isNull v then .ok (regex [])
    else
      match toText v with
      | some s => .ok (regex s)
      | none => .error .typeError

/-- `typeof v === 'string'`, and the string passes. -/
def isString (p : JsString → Bool) : Option (JsValue N.Num) → Bool
  | some (.string s) => p s
  | _ => false

/-- `v`, when it is a safe integer. -/
def safeInteger : Option (JsValue N.Num) → Option Int
  | some (.number n) => (N.integer n).filter fun k => decide (-(2 ^ 53 - 1) ≤ k ∧ k ≤ 2 ^ 53 - 1)
  | _ => none

/-! ## validateCheckpoint -/

/-- `c.key`, where `c` may be undefined. -/
def field (c : Option (JsValue N.Num)) (key : String) : Option (JsValue N.Num) := c.bind (get · key)

def refuse (bad : Bool) (message : String) : Except Failure Unit :=
  if bad then .error (.error message) else .ok ()

def refuseUnless (good : Except Failure Bool) (message : String) : Except Failure Unit := do
  refuse (!(← good)) message

def checkSchema (c : Option (JsValue N.Num)) : Except Failure Unit :=
  refuse (!(truthy c && isString (· == utf16 "agent-rally.checkpoint.v1") (field c "schema")))
    "unsupported checkpoint schema"

def checkId (c : Option (JsValue N.Num)) (key : String) : Except Failure Unit :=
  refuse (!isString (fun s => isId s && decide (s.length ≤ 128)) (field c key)) s!"invalid {key}"

def checkGeneration (c : Option (JsValue N.Num)) : Except Failure Unit :=
  refuse (!(safeInteger (field c "generation")).any fun k => decide (1 ≤ k)) "invalid generation"

def checkText (c : Option (JsValue N.Num)) (key : String) : Except Failure Unit :=
  refuse (!isString (fun s => !isBlankText s) (field c key)) s!"missing {key}"

def checkConstraints (c : Option (JsValue N.Num)) : Except Failure Unit :=
  match field c "constraints" with
  | some (.array items) =>
    refuse (items.any fun s => !isString (fun s => !isBlankText s) (some s)) "invalid constraints"
  | _ => .error (.error "invalid constraints")

/-- `e && typeof e.uri === 'string' && e.uri.trim() && HASH.test(e.sha256 ?? '')`. -/
def goodEvidence (e : JsValue N.Num) : Except Failure Bool :=
  if truthy (some e) && isString (fun s => !isBlankText s) (get e "uri") then test isHash (get e "sha256")
  else .ok false

def checkEvidenceItems : List (JsValue N.Num) → Except Failure Unit
  | [] => .ok ()
  | e :: rest => do
    refuseUnless (goodEvidence e) "evidence needs uri and sha256"
    checkEvidenceItems rest

def checkEvidence (c : Option (JsValue N.Num)) : Except Failure Unit :=
  match field c "evidence" with
  | some (.array items) => checkEvidenceItems items
  | _ => .error (.error "evidence needs uri and sha256")

def checkPrevious (c : Option (JsValue N.Num)) : Except Failure Unit :=
  refuseUnless (if safeInteger (field c "generation") = some 1 then .ok ((field c "previous").any isNull)
    else test isHash (field c "previous")) "invalid previous checkpoint"

def checkExpected (c : Option (JsValue N.Num)) (expected : JsValue N.Num) (key : String) : Except Failure Unit :=
  refuse ((get expected key).isSome && !strictEquals (field c key) (get expected key)) s!"checkpoint {key} mismatch"

/-- `JSON.stringify(canonical(c))`. -/
def serialize (c : JsValue N.Num) : List Char := stringify (canonical c)

def checkFields (c : Option (JsValue N.Num)) (expected : JsValue N.Num) : Except Failure Unit := do
  checkSchema c
  checkId c "run_id"
  checkId c "task_id"
  checkGeneration c
  refuseUnless (test isRevision (field c "revision")) "revision must be a full git object id"
  checkText c "goal"
  checkText c "next_action"
  checkConstraints c
  checkEvidence c
  checkPrevious c
  checkExpected c expected "run_id"
  checkExpected c expected "task_id"
  checkExpected c expected "revision"

def validateCheckpoint (c : Option (JsValue N.Num)) (expected : JsValue N.Num) : Except Failure (List Char) := do
  checkFields c expected
  -- what passed the first check is there
  let serialized := (c.map serialize).getD []
  refuse (decide (charBytes serialized > maxBytes - 256)) "checkpoint exceeds byte limit"
  return serialized

/-! ## What a valid context is -/

/-- The values whose text is a word of hexadecimal digits: the word, a number, and an array of just one of these. -/
inductive Spells (t : JsString) : JsValue N.Num → Prop
  | string : Spells t (.string t)
  | number {n : N.Num} : (N.text n).flatMap encodeChar = t → Spells t (.number n)
  | single {v : JsValue N.Num} : Spells t v → Spells t (.array [v])

theorem toText_of_spells {t : JsString} {v : JsValue N.Num} (h : Spells t v) :
    isNull v = false ∧ toText v = some t := by
  induction h with
  | string => exact ⟨rfl, rfl⟩
  | number hn => exact ⟨rfl, congrArg some hn⟩
  | single _ ih =>
    refine ⟨rfl, ?_⟩
    rw [toText, joinTexts, if_neg (by simp [ih.1]), ih.2]
    simp [joinTexts]

theorem spells_of_toText {t : JsString} {v : JsValue N.Num} (h : toText v = some t) (hne : t ≠ [])
    (hhex : t.all isHexUnit = true) : Spells t v := by
  induction v using JsValue.induct generalizing t with
  | null =>
    obtain rfl := Option.some.inj h
    exact absurd hhex (by decide)
  | bool b =>
    cases b <;> obtain rfl := Option.some.inj h <;> exact absurd hhex (by decide)
  | number n => exact .number (Option.some.inj h)
  | string s =>
    obtain rfl := Option.some.inj h
    exact .string
  | array items ih =>
    rw [toText] at h
    cases items with
    | nil => exact absurd (Option.some.inj h).symm hne
    | cons v rest =>
      rw [joinTexts] at h
      obtain ⟨text, htext, hjoin⟩ := Option.bind_eq_some_iff.mp h
      obtain ⟨others, hothers, rfl⟩ := Option.map_eq_some_iff.mp hjoin
      rw [if_pos rfl, List.nil_append] at hne hhex ⊢
      rw [List.all_append, Bool.and_eq_true] at hhex
      cases rest with
      | nil =>
        obtain rfl := Option.some.inj hothers
        rw [List.append_nil] at hne ⊢
        by_cases hnull : isNull v = true
        · rw [if_pos hnull] at htext
          exact absurd (Option.some.inj htext).symm hne
        · rw [if_neg hnull] at htext
          exact .single (ih v List.mem_cons_self htext hne hhex.1)
      | cons w rest =>
        -- the comma is no digit
        rw [joinTexts] at hothers
        obtain ⟨text', -, hjoin'⟩ := Option.bind_eq_some_iff.mp hothers
        obtain ⟨others', -, rfl⟩ := Option.map_eq_some_iff.mp hjoin'
        exact absurd hhex.2 (by simp [isHexUnit, isDigitUnit])
  | object fields ih =>
    rw [toText] at h
    split at h
    · cases h
    · obtain rfl := Option.some.inj h
      exact absurd hhex (by decide)

/-- A test that only words of hexadecimal digits pass. -/
def HexTest (regex : JsString → Bool) : Prop := ∀ t, regex t = true → t ≠ [] ∧ t.all isHexUnit = true

theorem hexTest_isHash : HexTest isHash := by
  intro t ht
  rw [isHash, Bool.and_eq_true, beq_iff_eq] at ht
  refine ⟨?_, ht.2⟩
  rintro rfl
  exact absurd ht.1 (by decide)

theorem hexTest_isRevision : HexTest isRevision := by
  intro t ht
  rw [isRevision, Bool.and_eq_true, Bool.and_eq_true] at ht
  refine ⟨?_, ht.2⟩
  rintro rfl
  exact absurd ht.1.1 (by decide)

theorem test_iff {regex : JsString → Bool} (hregex : HexTest regex) {v : Option (JsValue N.Num)} :
    test regex v = .ok true ↔ ∃ w t, v = some w ∧ Spells t w ∧ regex t = true := by
  have hempty : regex [] = false := Bool.eq_false_iff.mpr fun h => (hregex [] h).1 rfl
  cases v with
  | none => simp [test, hempty]
  | some w =>
    rw [test]
    by_cases hnull : isNull w = true
    · rw [if_pos hnull, hempty]
      refine ⟨fun h => (by cases h), ?_⟩
      rintro ⟨w', t, hw, hspells, -⟩
      obtain rfl := Option.some.inj hw
      rw [(toText_of_spells hspells).1] at hnull
      cases hnull
    · rw [if_neg hnull]
      constructor
      · intro h
        cases htext : toText w with
        | none =>
          rw [htext] at h
          cases h
        | some t =>
          rw [htext] at h
          have ht : regex t = true := Except.ok.inj h
          obtain ⟨hne, hhex⟩ := hregex t ht
          exact ⟨w, t, rfl, spells_of_toText htext hne hhex, ht⟩
      · rintro ⟨w', t, hw, hspells, ht⟩
        obtain rfl := Option.some.inj hw
        rw [(toText_of_spells hspells).2]
        exact congrArg Except.ok ht

/-- A usable item of the evidence. -/
def EvidenceItem (e : JsValue N.Num) : Prop :=
  (∃ uri, get e "uri" = some (.string uri) ∧ isBlankText uri = false) ∧
    ∃ v t, get e "sha256" = some v ∧ Spells t v ∧ isHash t = true

/-- What `validateCheckpoint` accepts. -/
structure ValidContext (c expected : JsValue N.Num) : Prop where
  schema : get c "schema" = some (.string (utf16 "agent-rally.checkpoint.v1"))
  ids : ∀ key ∈ ["run_id", "task_id"], ∃ s, get c key = some (.string s) ∧ isId s = true ∧ s.length ≤ 128
  generation : ∃ k, safeInteger (get c "generation") = some k ∧ 1 ≤ k
  revision : ∃ v t, get c "revision" = some v ∧ Spells t v ∧ isRevision t = true
  texts : ∀ key ∈ ["goal", "next_action"], ∃ s, get c key = some (.string s) ∧ isBlankText s = false
  constraints : ∃ items, get c "constraints" = some (.array items) ∧
    ∀ v ∈ items, ∃ s, v = .string s ∧ isBlankText s = false
  evidence : ∃ items, get c "evidence" = some (.array items) ∧ ∀ e ∈ items, EvidenceItem e
  first : safeInteger (get c "generation") = some 1 → get c "previous" = some .null
  later : safeInteger (get c "generation") ≠ some 1 → ∃ v t, get c "previous" = some v ∧ Spells t v ∧ isHash t = true
  expected : ∀ key ∈ ["run_id", "task_id", "revision"],
    get expected key = none ∨ strictEquals (get c key) (get expected key) = true
  size : charBytes (serialize c) ≤ maxBytes - 256

theorem refuse_ok_iff {bad : Bool} {message : String} : refuse bad message = .ok () ↔ bad = false := by
  cases bad <;> simp [refuse]

theorem refuseUnless_ok_iff {good : Except Failure Bool} {message : String} :
    refuseUnless good message = .ok () ↔ good = .ok true := by
  rw [refuseUnless, bind_ok_iff]
  simp [refuse_ok_iff]

theorem isString_iff {p : JsString → Bool} {v : Option (JsValue N.Num)} :
    isString p v = true ↔ ∃ s, v = some (.string s) ∧ p s = true := by
  rcases v with _ | v
  · simp [isString]
  · cases v <;> simp [isString]

theorem checkId_ok_iff {c : JsValue N.Num} {key : String} : checkId (some c) key = .ok () ↔
    ∃ s, get c key = some (.string s) ∧ isId s = true ∧ s.length ≤ 128 := by
  rw [checkId, refuse_ok_iff, Bool.not_eq_false', isString_iff]
  simp [field]

theorem checkGeneration_ok_iff {c : JsValue N.Num} : checkGeneration (some c) = .ok () ↔
    ∃ k, safeInteger (get c "generation") = some k ∧ 1 ≤ k := by
  rw [checkGeneration, refuse_ok_iff, Bool.not_eq_false', Option.any_eq_true]
  simp [field]

theorem checkText_ok_iff {c : JsValue N.Num} {key : String} : checkText (some c) key = .ok () ↔
    ∃ s, get c key = some (.string s) ∧ isBlankText s = false := by
  rw [checkText, refuse_ok_iff, Bool.not_eq_false', isString_iff]
  simp [field]

theorem checkConstraints_ok_iff {c : JsValue N.Num} : checkConstraints (some c) = .ok () ↔
    ∃ items, get c "constraints" = some (.array items) ∧ ∀ v ∈ items, ∃ s, v = .string s ∧ isBlankText s = false := by
  have hitems : ∀ items : List (JsValue N.Num),
      refuse (items.any fun s => !isString (fun s => !isBlankText s) (some s)) "invalid constraints" = .ok () ↔
        ∀ v ∈ items, ∃ s, v = .string s ∧ isBlankText s = false := by
    intro items
    rw [refuse_ok_iff, List.any_eq_false]
    refine forall₂_congr fun v _ => ?_
    rw [Bool.not_eq_true, Bool.not_eq_false', isString_iff]
    simp
  rw [checkConstraints, field, Option.bind_some]
  rcases hfield : get c "constraints" with _ | v
  · simp
  · cases v with
    | array items => simp [hitems]
    | _ => simp

theorem goodEvidence_iff {e : JsValue N.Num} : goodEvidence e = .ok true ↔ EvidenceItem e := by
  rw [goodEvidence, EvidenceItem]
  by_cases huri : isString (fun s => !isBlankText s) (get e "uri") = true
  · obtain ⟨uri, hget, hblank⟩ := isString_iff.mp huri
    obtain ⟨fields, rfl, -⟩ := object_of_get hget
    rw [if_pos (by rw [huri]; rfl), test_iff hexTest_isHash]
    exact ⟨fun h => ⟨⟨uri, hget, by simpa using hblank⟩, h⟩, fun h => h.2⟩
  · rw [if_neg (by simp [huri])]
    refine ⟨fun h => (by cases h), ?_⟩
    rintro ⟨⟨uri, hget, hblank⟩, -⟩
    exact absurd (isString_iff.mpr ⟨uri, hget, by simpa using hblank⟩) huri

theorem checkEvidenceItems_ok_iff {items : List (JsValue N.Num)} :
    checkEvidenceItems items = .ok () ↔ ∀ e ∈ items, EvidenceItem e := by
  induction items with
  | nil => simp [checkEvidenceItems]
  | cons e rest ih =>
    rw [checkEvidenceItems, check_bind_ok_iff, refuseUnless_ok_iff, goodEvidence_iff, ih, List.forall_mem_cons]

theorem checkEvidence_ok_iff {c : JsValue N.Num} : checkEvidence (some c) = .ok () ↔
    ∃ items, get c "evidence" = some (.array items) ∧ ∀ e ∈ items, EvidenceItem e := by
  rw [checkEvidence, field, Option.bind_some]
  rcases hfield : get c "evidence" with _ | v
  · simp
  · cases v with
    | array items => simp [checkEvidenceItems_ok_iff]
    | _ => simp

theorem isNull_any_iff {v : Option (JsValue N.Num)} : v.any isNull = true ↔ v = some .null := by
  rcases v with _ | v
  · simp
  · cases v <;> simp [isNull]

theorem checkPrevious_ok_iff {c : JsValue N.Num} : checkPrevious (some c) = .ok () ↔
    (safeInteger (get c "generation") = some 1 → get c "previous" = some .null) ∧
    (safeInteger (get c "generation") ≠ some 1 →
      ∃ v t, get c "previous" = some v ∧ Spells t v ∧ isHash t = true) := by
  rw [checkPrevious, refuseUnless_ok_iff]
  have hfield : ∀ key, field (some c) key = get c key := fun _ => rfl
  rw [hfield, hfield]
  by_cases hfirst : safeInteger (get c "generation") = some 1
  · rw [if_pos hfirst, Except.ok.injEq, isNull_any_iff]
    exact ⟨fun h => ⟨fun _ => h, fun hne => absurd hfirst hne⟩, fun h => h.1 hfirst⟩
  · rw [if_neg hfirst, test_iff hexTest_isHash]
    exact ⟨fun h => ⟨fun heq => absurd heq hfirst, fun _ => h⟩, fun h => h.2 hfirst⟩

theorem checkExpected_ok_iff {c expected : JsValue N.Num} {key : String} :
    checkExpected (some c) expected key = .ok () ↔
    get expected key = none ∨ strictEquals (get c key) (get expected key) = true := by
  rw [checkExpected, refuse_ok_iff]
  cases hexpected : get expected key <;> simp [field]

theorem checkSchema_ok_iff {c : JsValue N.Num} : checkSchema (some c) = .ok () ↔
    get c "schema" = some (.string (utf16 "agent-rally.checkpoint.v1")) := by
  rw [checkSchema, refuse_ok_iff, Bool.not_eq_false', Bool.and_eq_true, isString_iff]
  constructor
  · rintro ⟨-, s, hs, heq⟩
    rw [← eq_of_beq heq]
    exact hs
  · intro hget
    obtain ⟨fields, rfl, -⟩ := object_of_get hget
    exact ⟨rfl, _, hget, beq_self_eq_true _⟩

theorem check_then_ok_iff {x : Except Failure Unit} {y : Except Failure (List Char)} {serialized : List Char} :
    (x >>= fun _ => y) = .ok serialized ↔ x = .ok () ∧ y = .ok serialized := by
  rw [bind_ok_iff]
  exact ⟨fun ⟨_, hx, hy⟩ => ⟨hx, hy⟩, fun ⟨hx, hy⟩ => ⟨(), hx, hy⟩⟩

theorem validateCheckpoint_ok_iff {c expected : JsValue N.Num} {serialized : List Char} :
    validateCheckpoint (some c) expected = .ok serialized ↔ ValidContext c expected ∧ serialized = serialize c := by
  rw [validateCheckpoint, check_then_ok_iff]
  simp only [checkFields, check_bind_ok_iff, checkSchema_ok_iff, checkId_ok_iff, checkGeneration_ok_iff,
    refuseUnless_ok_iff, test_iff hexTest_isRevision, checkText_ok_iff, checkConstraints_ok_iff, checkEvidence_ok_iff,
    checkPrevious_ok_iff, checkExpected_ok_iff, Option.map_some, Option.getD_some, check_then_ok_iff, refuse_ok_iff,
    decide_eq_false_iff_not, gt_iff_lt, not_lt]
  constructor
  · rintro ⟨⟨hschema, hrun, htask, hgeneration, hrevision, hgoal, hnext, hconstraints, hevidence, hprevious, herun,
      hetask, herevision⟩, hsmall, hserialized⟩
    refine ⟨⟨hschema, ?_, hgeneration, hrevision, ?_, hconstraints, hevidence, hprevious.1, hprevious.2, ?_, hsmall⟩,
      (Except.ok.inj hserialized).symm⟩
    · simp only [List.forall_mem_cons]
      exact ⟨hrun, htask, fun _ h => absurd h List.not_mem_nil⟩
    · simp only [List.forall_mem_cons]
      exact ⟨hgoal, hnext, fun _ h => absurd h List.not_mem_nil⟩
    · simp only [List.forall_mem_cons]
      exact ⟨herun, hetask, herevision, fun _ h => absurd h List.not_mem_nil⟩
  · rintro ⟨h, rfl⟩
    exact ⟨⟨h.schema, h.ids _ (by simp), h.ids _ (by simp), h.generation, h.revision, h.texts _ (by simp),
      h.texts _ (by simp), h.constraints, h.evidence, ⟨h.first, h.later⟩, h.expected _ (by simp),
      h.expected _ (by simp), h.expected _ (by simp)⟩, h.size, rfl⟩

/-! ## Contexts that come back -/

/-- A context as it is read back. -/
def readBack (c : JsValue N.Num) : JsValue N.Num := stored (canonical c)

theorem wellFormed_readBack {c : JsValue N.Num} (h : WellFormed c) : WellFormed (readBack c) :=
  wellFormed_stored (wellFormed_canonical h)

theorem get_readBack {c : JsValue N.Num} (h : WellFormed c) (key : String) :
    get (readBack c) key = (get c key).map readBack := by
  rw [readBack, get_stored, get_canonical h, Option.map_map]
  rfl

/-- **Canonical text is a fixed point**: what is read back is written as it was. -/
theorem serialize_readBack {c : JsValue N.Num} (h : WellFormed c) : serialize (readBack c) = serialize c := by
  rw [serialize, readBack, canonical_stored (wellFormed_canonical h), canonical_canonical h, stringify_stored,
    serialize]

theorem safeInteger_readBack (v : Option (JsValue N.Num)) : safeInteger (v.map readBack) = safeInteger v := by
  rcases v with _ | v
  · rfl
  · cases v with
    | number n =>
      by_cases hn : N.finite n = true
      · have hback : readBack (.number n : JsValue N.Num) = .number (N.ofNumeral (N.text n)) := if_pos hn
        rw [Option.map_some, hback, safeInteger, safeInteger, N.integer_ofNumeral n hn]
      · have hback : readBack (.number n : JsValue N.Num) = .null := if_neg hn
        rw [Option.map_some, hback, safeInteger, N.integer_of_not_finite n (Bool.eq_false_iff.mpr hn)]
        rfl
    | _ => rfl

theorem spells_readBack {t : JsString} {v : JsValue N.Num} (h : Spells t v) (hhex : t.all isHexUnit = true) :
    Spells t (readBack v) := by
  induction h with
  | string => exact .string
  | @number n hn =>
    have hfinite : N.finite n = true := by
      by_contra hnot
      have hwords := N.text_of_not_finite n (Bool.eq_false_iff.mpr hnot)
      have hno : ∀ word ∈ ["NaN".toList, "Infinity".toList, "-Infinity".toList],
          (word.flatMap encodeChar).all isHexUnit = false := by decide
      rw [← hn, hno _ hwords] at hhex
      cases hhex
    have hback : readBack (.number n : JsValue N.Num) = .number (N.ofNumeral (N.text n)) := if_pos hfinite
    rw [hback]
    exact .number (by rw [N.text_ofNumeral n hfinite, hn])
  | single _ ih => exact .single ih

theorem evidenceItem_readBack {e : JsValue N.Num} (hwell : WellFormed e) (h : EvidenceItem e) :
    EvidenceItem (readBack e) := by
  obtain ⟨⟨uri, huri, hblank⟩, v, t, hv, hspells, ht⟩ := h
  refine ⟨⟨uri, ?_, hblank⟩, readBack v, t, ?_, spells_readBack hspells (hexTest_isHash t ht).2, ht⟩
  · rw [get_readBack hwell, huri]
    rfl
  · rw [get_readBack hwell, hv]
    rfl

theorem readBack_array (items : List (JsValue N.Num)) : readBack (.array items) = .array (items.map readBack) := by
  rw [readBack, canonical, stored, storedItems_eq_map, canonicalItems_eq_map, List.map_map]
  rfl

theorem wellFormed_of_get {c v : JsValue N.Num} (h : WellFormed c) {key : String} (hget : get c key = some v) :
    WellFormed v := by
  obtain ⟨fields, rfl, hmem⟩ := object_of_get hget
  rw [WellFormed, wellFormedFields_iff] at h
  exact h.2.2 _ hmem

/-- A valid context is valid when it comes back, for whatever is expected of it then. -/
theorem validContext_readBack {c expected expected' : JsValue N.Num} (hwell : WellFormed c)
    (h : ValidContext c expected) (hexpected : ∀ key ∈ ["run_id", "task_id", "revision"],
      get expected' key = none ∨ strictEquals (get (readBack c) key) (get expected' key) = true) :
    ValidContext (readBack c) expected' := by
  have hget := get_readBack hwell
  refine ⟨?_, ?_, ?_, ?_, ?_, ?_, ?_, ?_, ?_, hexpected, ?_⟩
  · rw [hget, h.schema]
    rfl
  · intro key hkey
    obtain ⟨s, hs, hid⟩ := h.ids key hkey
    exact ⟨s, by rw [hget, hs]; rfl, hid⟩
  · rw [hget, safeInteger_readBack]
    exact h.generation
  · obtain ⟨v, t, hv, hspells, ht⟩ := h.revision
    exact ⟨readBack v, t, by rw [hget, hv]; rfl, spells_readBack hspells (hexTest_isRevision t ht).2, ht⟩
  · intro key hkey
    obtain ⟨s, hs, hblank⟩ := h.texts key hkey
    exact ⟨s, by rw [hget, hs]; rfl, hblank⟩
  · obtain ⟨items, hitems, hall⟩ := h.constraints
    refine ⟨items.map readBack, by rw [hget, hitems, Option.map_some, readBack_array], ?_⟩
    rw [List.forall_mem_map]
    intro v hv
    obtain ⟨s, rfl, hblank⟩ := hall v hv
    exact ⟨s, rfl, hblank⟩
  · obtain ⟨items, hitems, hall⟩ := h.evidence
    have hitemsWell : WellFormed (.array items) := wellFormed_of_get hwell hitems
    rw [WellFormed, wellFormedItems_iff] at hitemsWell
    refine ⟨items.map readBack, by rw [hget, hitems, Option.map_some, readBack_array], ?_⟩
    rw [List.forall_mem_map]
    exact fun e he => evidenceItem_readBack (hitemsWell e he) (hall e he)
  · intro hfirst
    rw [hget, safeInteger_readBack] at hfirst
    rw [hget, h.first hfirst]
    rfl
  · intro hlater
    rw [hget, safeInteger_readBack] at hlater
    obtain ⟨v, t, hv, hspells, ht⟩ := h.later hlater
    exact ⟨readBack v, t, by rw [hget, hv]; rfl, spells_readBack hspells (hexTest_isHash t ht).2, ht⟩
  · rw [serialize_readBack hwell]
    exact h.size

/-! ## Files -/

/-- What `readBounded` makes of the text of a file. -/
def parseFile (text : List Char) : Except Failure (JsValue N.Num) :=
  if charBytes text > maxBytes then .error (.error "checkpoint exceeds byte limit")
  else
    match parse N text with
    | some v => .ok v
    | none => .error .syntaxError

/-- A value that has properties: null has none, and asking for one throws. -/
def checkAccess (v : JsValue N.Num) : Except Failure Unit := if isNull v then .error .typeError else .ok ()

section Digest

variable (digest : List Char → JsString)

/-- What `readCheckpoint` makes of the envelope. -/
def checkEnvelope (expected envelope : JsValue N.Num) : Except Failure (JsValue N.Num) := do
  checkAccess envelope
  let serialized ← validateCheckpoint (get envelope "checkpoint") expected
  let wellFormed ← test isHash (get envelope "sha256")
  refuse (!wellFormed || !strictEquals (some (.string (digest serialized))) (get envelope "sha256"))
    "checkpoint digest mismatch"
  return envelope

/-- `{ sha256, checkpoint: canonical(checkpoint) }`. -/
def envelope (c : JsValue N.Num) : JsValue N.Num :=
  .object [(utf16 "sha256", .string (digest (serialize c))), (utf16 "checkpoint", canonical c)]

/-- What `putCheckpoint` writes. -/
def fileText (c : JsValue N.Num) : List Char := stringify (envelope digest c) ++ ['\n']

/-! ## Envelopes that come back -/

theorem range_of_isHexUnit {u : UInt16} (h : isHexUnit u = true) :
    0x30 ≤ u.toNat ∧ u.toNat ≤ 0x39 ∨ 0x61 ≤ u.toNat ∧ u.toNat ≤ 0x66 := by
  simpa [isHexUnit, isDigitUnit] using h

theorem unitText_of_isHexUnit {u : UInt16} (h : isHexUnit u = true) :
    isHigh u = false ∧ unitText u = [Char.ofNat u.toNat] ∧ (Char.ofNat u.toNat).utf8Size = 1 := by
  have hrange := range_of_isHexUnit h
  have hhigh : isHigh u = false := Bool.eq_false_iff.mpr fun hu => by
    have := isHigh_iff.mp hu
    omega
  have hlow : isLow u = false := Bool.eq_false_iff.mpr fun hu => by
    have := isLow_iff.mp hu
    omega
  have hne : ∀ v : UInt16, u.toNat ≠ v.toNat → u ≠ v := fun v hv huv => hv (congrArg UInt16.toNat huv)
  refine ⟨hhigh, ?_, ?_⟩
  · have hprint : ¬(decide (u.toNat < 0x20) || isHigh u || isLow u) = true := by
      rw [hhigh, hlow, Bool.or_false, Bool.or_false, decide_eq_true_eq]
      omega
    rw [unitText, if_neg (hne 0x22 _), if_neg (hne 0x5c _), if_neg (hne 0x08 _), if_neg (hne 0x09 _),
      if_neg (hne 0x0a _), if_neg (hne 0x0c _), if_neg (hne 0x0d _), if_neg hprint]
    all_goals
      simp only [UInt16.reduceToNat]
      omega
  · have hchar := toNat_unitChar hhigh hlow
    refine Char.utf8Size_eq_one_iff.mpr (UInt32.le_iff_toNat_le.mpr ?_)
    have hval : (Char.ofNat u.toNat).val.toNat = u.toNat := hchar
    rw [hval]
    show u.toNat ≤ 127
    omega

theorem charBytes_quotedUnits {s : JsString} (h : s.all isHexUnit = true) : charBytes (quotedUnits s) = s.length := by
  induction s using quotedUnits.induct with
  | case1 => rfl
  | case2 u =>
    rw [List.all_cons, Bool.and_eq_true] at h
    obtain ⟨-, htext, hsize⟩ := unitText_of_isHexUnit h.1
    rw [quotedUnits, htext, charBytes_cons, hsize]
    rfl
  | case3 u v rest hpair ih =>
    rw [List.all_cons, Bool.and_eq_true] at h
    rw [(unitText_of_isHexUnit h.1).1] at hpair
    cases hpair
  | case4 u v rest hpair ih =>
    rw [List.all_cons, Bool.and_eq_true] at h
    obtain ⟨-, htext, hsize⟩ := unitText_of_isHexUnit h.1
    rw [quotedUnits, if_neg hpair, charBytes_append, htext, charBytes_cons, hsize, ih h.2, charBytes_nil]
    simp only [List.length_cons]
    omega

theorem charBytes_quote {s : JsString} (h : s.all isHexUnit = true) : charBytes (quote s) = s.length + 2 := by
  have hquote : Char.utf8Size '"' = 1 := by decide
  rw [quote, charBytes_cons, charBytes_append, charBytes_quotedUnits h, charBytes_cons, charBytes_nil, hquote]
  omega

/-- What stands around the digest and the context. -/
theorem charBytes_fileText {c : JsValue N.Num} (hhash : isHash (digest (serialize c)) = true) :
    charBytes (fileText digest c) = charBytes (serialize c) + 92 := by
  rw [isHash, Bool.and_eq_true, beq_iff_eq] at hhash
  have hsha256 : charBytes ('{' :: (quote (utf16 "sha256") ++ [':'])) = 10 := by decide +kernel
  have hcheckpoint : charBytes (',' :: (quote (utf16 "checkpoint") ++ [':'])) = 14 := by decide +kernel
  have hend : charBytes ['}', '\n'] = 2 := by decide
  have htext : fileText digest c = '{' :: (quote (utf16 "sha256") ++ [':']) ++ quote (digest (serialize c)) ++
      ',' :: (quote (utf16 "checkpoint") ++ [':']) ++ serialize c ++ ['}', '\n'] := by
    simp [fileText, envelope, serialize, stringify, stringifyFields]
  rw [htext, charBytes_append, charBytes_append, charBytes_append, charBytes_append, charBytes_quote hhash.2, hsha256,
    hcheckpoint, hend, hhash.1]
  omega

theorem wellFormed_envelope {c : JsValue N.Num} (h : WellFormed c) : WellFormed (envelope digest c) := by
  have hnames : ∀ key ∈ [utf16 "sha256", utf16 "checkpoint"], arrayIndex key = none := by decide +kernel
  have hnodup : [utf16 "sha256", utf16 "checkpoint"].Nodup := by decide +kernel
  exact ⟨ownOrder_of_names hnames, hnodup, trivial, wellFormed_canonical h, trivial⟩

theorem parse_fileText {c : JsValue N.Num} (hwell : WellFormed c) :
    parse N (fileText digest c) = some (stored (envelope digest c)) :=
  parse_stringify (wellFormed_envelope digest hwell) (List.all_eq_true.mp rfl)

theorem get_stored_envelope {c : JsValue N.Num} (hwell : WellFormed c) :
    get (stored (envelope digest c)) "sha256" = some (.string (digest (serialize c))) ∧
      get (stored (envelope digest c)) "checkpoint" = some (readBack c) := by
  have hkeys : (List.map (·.1) [(utf16 "sha256", (.string (digest (serialize c)) : JsValue N.Num)),
      (utf16 "checkpoint", canonical c)]).Nodup := (wellFormed_envelope digest hwell).2.1
  rw [get_stored, get_stored, envelope, (get_eq_some_iff hkeys).mpr List.mem_cons_self,
    (get_eq_some_iff hkeys).mpr (List.mem_cons_of_mem _ List.mem_cons_self)]
  exact ⟨rfl, rfl⟩

theorem parseFile_fileText {c expected : JsValue N.Num} (hwell : WellFormed c) (h : ValidContext c expected)
    (hhash : isHash (digest (serialize c)) = true) :
    parseFile (fileText digest c) = .ok (stored (envelope digest c)) := by
  have hsize : ¬charBytes (fileText digest c) > maxBytes := by
    have hc := h.size
    rw [charBytes_fileText digest hhash]
    unfold maxBytes at *
    omega
  rw [parseFile, if_neg hsize, parse_fileText digest hwell]

/-- The context in a file that holds one. -/
theorem get_checkpoint_of_parseFile {c e : JsValue N.Num} (hwell : WellFormed c)
    (h : parseFile (fileText digest c) = .ok e) : get e "checkpoint" = some (readBack c) := by
  rw [parseFile] at h
  split at h
  · cases h
  · rw [parse_fileText digest hwell] at h
    obtain rfl := Except.ok.inj h
    exact (get_stored_envelope digest hwell).2

/-- What a checked envelope carries: a valid context and its digest. -/
structure Carries (expected e : JsValue N.Num) (sha256 : JsString) (c : JsValue N.Num) : Prop where
  named : get e "sha256" = some (.string sha256)
  hash : isHash sha256 = true
  checkpoint : get e "checkpoint" = some c
  valid : ValidContext c expected
  digested : digest (serialize c) = sha256

theorem strictEquals_string {s : JsString} {v : Option (JsValue N.Num)} :
    strictEquals (some (.string s)) v = true ↔ v = some (.string s) := by
  rcases v with _ | v
  · simp [strictEquals]
  · cases v with
    | string t =>
      rw [strictEquals, beq_iff_eq, Option.some.injEq, JsValue.string.injEq]
      exact eq_comm
    | _ => simp [strictEquals]

theorem validateCheckpoint_none (expected : JsValue N.Num) :
    validateCheckpoint none expected = .error (.error "unsupported checkpoint schema") := rfl

theorem checkEnvelope_ok_iff {expected e e' : JsValue N.Num} : checkEnvelope digest expected e = .ok e' ↔
    e' = e ∧ ∃ sha256 c, Carries digest expected e sha256 c := by
  rw [checkEnvelope, bind_ok_iff]
  constructor
  · rintro ⟨_, -, hchecks⟩
    obtain ⟨serialized, hvalid, htests⟩ := bind_ok_iff.mp hchecks
    obtain ⟨wellFormed, htest, hrest⟩ := bind_ok_iff.mp htests
    obtain ⟨_, hrefuse, h⟩ := bind_ok_iff.mp hrest
    rw [refuse_ok_iff, Bool.or_eq_false_iff, Bool.not_eq_false', Bool.not_eq_false'] at hrefuse
    obtain ⟨rfl, hequal⟩ := hrefuse
    refine ⟨(Except.ok.inj h).symm, ?_⟩
    cases hc : get e "checkpoint" with
    | none =>
      rw [hc, validateCheckpoint_none] at hvalid
      cases hvalid
    | some c =>
      rw [hc, validateCheckpoint_ok_iff] at hvalid
      obtain ⟨hvalid, rfl⟩ := hvalid
      have hnamed := strictEquals_string.mp hequal
      rw [hnamed] at htest
      exact ⟨digest (serialize c), c, hnamed, Except.ok.inj htest, hc, hvalid, rfl⟩
  · rintro ⟨rfl, sha256, c, h⟩
    obtain ⟨fields, rfl, -⟩ := object_of_get h.checkpoint
    have hvalid := validateCheckpoint_ok_iff.mpr ⟨h.valid, rfl⟩
    have hhash : test isHash (some (.string sha256 : JsValue N.Num)) = .ok true := congrArg Except.ok h.hash
    have hequal : strictEquals (some (.string sha256)) (some (.string sha256 : JsValue N.Num)) = true :=
      strictEquals_string.mpr rfl
    refine ⟨(), rfl, ?_⟩
    rw [h.checkpoint, hvalid, h.named, bind_ok_iff]
    refine ⟨_, rfl, ?_⟩
    rw [hhash, h.digested, hequal]
    rfl

/-- **What was written is read back**, under whatever the reader expects of the context. -/
theorem carries_envelope {c expected expected' : JsValue N.Num} (hwell : WellFormed c) (h : ValidContext c expected)
    (hhash : isHash (digest (serialize c)) = true) (hexpected : ∀ key ∈ ["run_id", "task_id", "revision"],
      get expected' key = none ∨ strictEquals (get (readBack c) key) (get expected' key) = true) :
    Carries digest expected' (stored (envelope digest c)) (digest (serialize c)) (readBack c) := by
  obtain ⟨hnamed, hcheckpoint⟩ := get_stored_envelope digest hwell
  exact ⟨hnamed, hhash, hcheckpoint, validContext_readBack hwell h hexpected, by rw [serialize_readBack hwell]⟩

end Digest

end Format

end RallyPoint.Checkpoint
