/-
# RallyPoint.Cockpit.Consent — the consent log of the daemon: its hash chain and its replay.

The log is a list of JSON values nobody has to have written. `verifyChain` walks it, `replay` keeps the last
answer per key, `checkWith` puts the recursion depth before both. A log that verifies is committed to by its
last `entry_sha256`, and a dispatch is granted only by a last answer that says auto.

SHA-256, as the hexadecimal digest of a text's UTF-8 bytes, is a parameter.
-/
import RallyPoint.Lib.Chain
import RallyPoint.Lib.Json
import Mathlib.Logic.Function.Basic

namespace RallyPoint.Cockpit

open Lib

/-! ## Entries -/

/-- Modes the wire format allows. -/
def modes : List String := ["once", "ask", "auto", "denied"]

/-- Above this depth, refuse regardless of any recorded consent. -/
def depthCap : Int := 2

def field (e : JsonValue) (key : String) : Option Json := e.val.asObject.bind (getField · key)

/-- The entry without its own hash, members in key order, no spaces. -/
def canonicalText (e : JsonValue) : String :=
  String.ofList (Json.object ((e.val.asObject.getD []).filter (·.1 ≠ "entry_sha256"))).render

section Verify

variable (sha256 : String → String)

def entryHash (e : JsonValue) : String := sha256 (canonicalText e)

inductive ChainBreak
  | notAnObject (i : Nat)
  | wrongSeq (i : Nat)
  | wrongPrev (i : Nat)
  /-- Edited in place. -/
  | wrongHash (i : Nat)
  deriving DecidableEq, Repr

/-- `prev_sha256` names the entry before, and is null or missing at the first one. -/
def linksTo (prevField : Option Json) (prev : Option String) : Bool :=
  match prev, prevField.getD .null with
  | some h, .string s => s == h
  | none, .null => true
  | _, _ => false

/-- One round of the walk; it gives the entry's hash. -/
def checkEntry (i : Nat) (prev : Option String) (e : JsonValue) : Except ChainBreak String :=
  match e.val.asObject with
  | none => .error (.notAnObject i)
  | some fields =>
    if (getField fields "seq").bind (·.asI64) ≠ some (i : Int) then .error (.wrongSeq i)
    else if linksTo (getField fields "prev_sha256") prev = false then .error (.wrongPrev i)
    else if (getField fields "entry_sha256").bind (·.asStr) ≠ some (entryHash sha256 e) then .error (.wrongHash i)
    else .ok (entryHash sha256 e)

def verifyChain (log : List JsonValue) : Except ChainBreak (Option String) :=
  verifyFrom (checkEntry sha256) 0 none log

end Verify

/-! ## Replay and depth -/

/-- The key an entry answers for, when its mode is one of the four. -/
def consentKey (e : JsonValue) : Option String :=
  match (field e "key").bind (·.asStr), (field e "mode").bind (·.asStr) with
  | some key, some mode => if modes.contains mode then some key else none
  | _, _ => none

def recordAnswer (state : String → Option JsonValue) (e : JsonValue) : String → Option JsonValue :=
  match consentKey e with
  | some key => Function.update state key (some e)
  | none => state

/-- The last answer per key. -/
def replay (log : List JsonValue) : String → Option JsonValue := log.foldl recordAnswer fun _ => none

/-- `AGENT_DISPATCH_DEPTH` refuses: not an integer, negative or above the cap. Unset and empty read as 0. -/
def depthExceeded (raw : Option String) : Bool :=
  match raw with
  | none => false
  | some raw =>
    if raw = "" then false
    else match parseI64 raw with
      | none => true
      | some d => decide (d < 0) || decide (depthCap < d)

inductive ReasonCode
  | allowed
  | noRecord
  | notAuto
  | denied
  | chainBroken
  | depthExceeded
  deriving DecidableEq, Repr

structure ConsentVerdict where
  allowed : Bool
  reasonCode : ReasonCode
  key : String
  deriving DecidableEq, Repr

def checkWith (sha256 : String → String) (key : String) (log : List JsonValue) (depth : Option String) :
    ConsentVerdict :=
  -- depth first: no answer the operator gave was an answer about recursion
  if depthExceeded depth then ⟨false, .depthExceeded, key⟩
  else match verifyChain sha256 log with
    | .error _ => ⟨false, .chainBroken, key⟩
    | .ok _ =>
      match replay log key with
      | none => ⟨false, .noRecord, key⟩
      | some e =>
        let mode := ((field e "mode").bind (·.asStr)).getD ""
        if mode = "auto" then ⟨true, .allowed, key⟩
        else if mode = "denied" then ⟨false, .denied, key⟩
        else ⟨false, .notAuto, key⟩

/-! ## The chain commits -/

section Chain

variable {sha256 : String → String} {e e' : JsonValue} {i i' : Nat} {p p' : Option String} {h : String}

/-- What an accepted entry is. -/
structure Accepted (sha256 : String → String) (i : Nat) (p : Option String) (e : JsonValue) (h : String) :
    Prop where
  isObject : e.val.asObject.isSome
  seq : (field e "seq").bind (·.asI64) = some (i : Int)
  prev : linksTo (field e "prev_sha256") p = true
  own : (field e "entry_sha256").bind (·.asStr) = some h
  hash : h = entryHash sha256 e

theorem accepted_of_checkEntry (hcheck : checkEntry sha256 i p e = .ok h) : Accepted sha256 i p e h := by
  rw [checkEntry] at hcheck
  split at hcheck
  · cases hcheck
  · rename_i fields hfields
    have hfield : ∀ key, field e key = getField fields key := fun key => by rw [field, hfields]; rfl
    split_ifs at hcheck with hseq hprev hown
    obtain rfl := Except.ok.inj hcheck
    refine ⟨by rw [hfields]; rfl, ?_, ?_, ?_, rfl⟩
    · rw [hfield]
      exact not_not.mp hseq
    · rw [hfield]
      exact Bool.not_eq_false _ ▸ hprev
    · rw [hfield]
      exact not_not.mp hown

theorem linksTo_inj {f : Option Json} (h : linksTo f p = true) (h' : linksTo f p' = true) : p = p' := by
  simp only [linksTo] at h h'
  split at h <;> split at h' <;> simp_all

/-- One hash belongs to one entry, at one position, behind one predecessor. -/
theorem checkEntry_commits (hsha : Function.Injective sha256) (hcheck : checkEntry sha256 i p e = .ok h)
    (hcheck' : checkEntry sha256 i' p' e' = .ok h) : i = i' ∧ p = p' ∧ e = e' := by
  have hacc := accepted_of_checkEntry hcheck
  have hacc' := accepted_of_checkEntry hcheck'
  obtain ⟨fields, hfields⟩ := Option.isSome_iff_exists.mp hacc.isObject
  obtain ⟨fields', hfields'⟩ := Option.isSome_iff_exists.mp hacc'.isObject
  have hordered : ∀ {u : JsonValue} {l}, u.val.asObject = some l → l.Pairwise fun f g => f.1 < g.1 := by
    intro u l hu
    have hu' := u.2
    rw [Json.asObject_eq_some.mp hu, Json.ordered] at hu'
    exact (orderedFields_pairwise hu').2
  -- equal hashes are equal texts, and equal texts are equal members but for the hash itself
  have htext : fields.filter (·.1 ≠ "entry_sha256") = fields'.filter (·.1 ≠ "entry_sha256") := by
    have heq := Json.render_injective (String.ofList_injective (hsha (hacc.hash.symm.trans hacc'.hash)))
    rw [hfields, hfields'] at heq
    exact Json.object.inj heq
  have hown : ∀ {u : JsonValue} {l}, u.val.asObject = some l →
      (field u "entry_sha256").bind (·.asStr) = some h → getField l "entry_sha256" = some (.string h) := by
    intro u l hu hbind
    rw [field, hu] at hbind
    obtain ⟨v, hv, hstr⟩ := Option.bind_eq_some_iff.mp hbind
    exact Json.asStr_eq_some.mp hstr ▸ hv
  have hsame : fields = fields' :=
    eq_of_filter_eq (hordered hfields) (hordered hfields') htext (hown hfields hacc.own) (hown hfields' hacc'.own)
  have heq : e = e' := Subtype.ext (by
    rw [Json.asObject_eq_some.mp hfields, Json.asObject_eq_some.mp hfields', hsame])
  subst heq
  refine ⟨?_, linksTo_inj hacc.prev hacc'.prev, rfl⟩
  exact Int.ofNat_inj.mp (Option.some.inj (hacc.seq.symm.trans hacc'.seq))

/-- The hash a verified log ends in is the one its last entry carries. -/
theorem verifyChain_last {log : List JsonValue} {last : Option String} (hok : verifyChain sha256 log = .ok last) :
    log.getLast?.bind (field · "entry_sha256") = last.map .string := by
  cases log using List.reverseRecOn with
  | nil =>
    obtain rfl := Except.ok.inj hok
    rfl
  | append_singleton rest e =>
    obtain ⟨p, h, -, hcheck, rfl⟩ := verifyFrom_concat.mp hok
    obtain ⟨v, hv, hstr⟩ := Option.bind_eq_some_iff.mp (accepted_of_checkEntry hcheck).own
    rw [List.getLast?_append, List.getLast?_singleton, Option.some_or, Option.bind_some, hv,
      Json.asStr_eq_some.mp hstr]
    rfl

end Chain

/-! ## The answer in force -/

/-- An entry that answers for the key. -/
def answers (key : String) (e : JsonValue) : Bool := consentKey e == some key

theorem recordAnswer_apply {state : String → Option JsonValue} {e : JsonValue} {key : String} :
    recordAnswer state e key = if answers key e = true then some e else state key := by
  cases hkey : consentKey e with
  | none => simp [recordAnswer, answers, hkey]
  | some k =>
    by_cases hk : key = k
    · simp [recordAnswer, answers, hkey, hk]
    · simp [recordAnswer, answers, hkey, Function.update_of_ne hk, Ne.symm hk]

theorem replay_eq (log : List JsonValue) (key : String) : replay log key = (log.filter (answers key)).getLast? := by
  induction log using List.reverseRecOn with
  | nil => rfl
  | append_singleton rest e ih =>
    rw [List.filter_append, List.getLast?_append, ← ih, replay, List.foldl_append, ← replay, List.foldl_cons,
      List.foldl_nil, recordAnswer_apply]
    by_cases h : answers key e = true <;> simp [h]

theorem depthExceeded_eq_false_iff {raw : Option String} :
    depthExceeded raw = false ↔
      raw = none ∨ raw = some "" ∨ ∃ text d, raw = some text ∧ parseI64 text = some d ∧ 0 ≤ d ∧ d ≤ depthCap := by
  cases raw with
  | none => simp [depthExceeded]
  | some text =>
    by_cases hempty : text = ""
    · simp [depthExceeded, hempty]
    · cases hparse : parseI64 text with
      | none => simp [depthExceeded, hempty, hparse]
      | some d => simp [depthExceeded, hempty, hparse]

/-- Granted: no guard refuses, the log verifies, and the last answer says auto. -/
theorem checkWith_allowed_iff (sha256 : String → String) (key : String) (log : List JsonValue)
    (depth : Option String) :
    (checkWith sha256 key log depth).allowed = true ↔
      depthExceeded depth = false ∧ (∃ last, verifyChain sha256 log = .ok last) ∧
        ∃ e, (log.filter (answers key)).getLast? = some e ∧ (field e "mode").bind (·.asStr) = some "auto" := by
  rw [checkWith, ← replay_eq]
  cases hdepth : depthExceeded depth with
  | true => simp
  | false =>
    cases hverify : verifyChain sha256 log with
    | error b => simp
    | ok last =>
      cases hreplay : replay log key with
      | none => simp
      | some e =>
        cases hmode : (field e "mode").bind (·.asStr) with
        | none => simp [hmode]
        | some mode =>
          by_cases hauto : mode = "auto"
          · simp [hmode, hauto]
          · by_cases hdenied : mode = "denied"
            · simp [hmode, hdenied]
            · simp [hmode, hauto, hdenied]

/-- **The consent log is tamper-evident and never relaxed.** Two logs that verify and end in the same hash
are the same log, and a dispatch is granted exactly when the depth is unset, empty or an integer up to the
cap, the log verifies, and the last answer for the key says auto. -/
theorem consent_log_tamper_evident (sha256 : String → String) (hsha : Function.Injective sha256) :
    (∀ log log' : List JsonValue, (∃ last, verifyChain sha256 log = .ok last) →
      (∃ last, verifyChain sha256 log' = .ok last) →
      (log = [] ∧ log' = [] ∨ ∃ e e' v, log.getLast? = some e ∧ log'.getLast? = some e' ∧
        field e "entry_sha256" = some v ∧ field e' "entry_sha256" = some v) → log = log') ∧
    ∀ key log depth, (checkWith sha256 key log depth).allowed = true ↔
      (depth = none ∨ depth = some "" ∨
        ∃ text d, depth = some text ∧ parseI64 text = some d ∧ 0 ≤ d ∧ d ≤ depthCap) ∧
      (∃ last, verifyChain sha256 log = .ok last) ∧
      ∃ e, (log.filter (answers key)).getLast? = some e ∧ (field e "mode").bind (·.asStr) = some "auto" := by
  refine ⟨?_, fun key log depth => ?_⟩
  · rintro log log' ⟨last, hok⟩ ⟨last', hok'⟩ (⟨rfl, rfl⟩ | ⟨e, e', v, he, he', hv, hv'⟩)
    · rfl
    · have hlast := verifyChain_last hok
      have hlast' := verifyChain_last hok'
      rw [he, Option.bind_some, hv] at hlast
      rw [he', Option.bind_some, hv'] at hlast'
      obtain rfl : last = last' := Option.map_injective (fun _ _ h => Json.string.inj h) (hlast.symm.trans hlast')
      exact eq_of_verifyFrom (fun _ _ _ _ _ _ _ => checkEntry_commits hsha) hok hok'
  · rw [checkWith_allowed_iff, depthExceeded_eq_false_iff]

namespace Consent

/-- The operator's first answer, without its hash. -/
def answerFields : List (String × Json) :=
  [("decided_at", .string "2026-08-21T18:04:11Z"), ("decided_by", .string "user"),
    ("key", .string "rally-point:codex"), ("mode", .string "auto"), ("prev_sha256", .null), ("seq", .int 0)]

def digest : String := "3955d4db8e66d56a52f839385e1f8a278bf3e5f34241f93bcb5bf6a073afd0a9"

/-- SHA-256 as far as the answer's text goes. -/
def sampleSha256 (text : String) : String :=
  if text = String.ofList (Json.object answerFields).render then digest else "#" ++ text

theorem sampleSha256_injective : Function.Injective sampleSha256 := by
  have hne : ∀ text, "#" ++ text ≠ digest := by
    intro text h
    have hhead := congrArg (fun s : String => s.toList.head?) h
    simp [digest] at hhead
  intro a b h
  simp only [sampleSha256] at h
  split at h <;> split at h
  · simp_all
  · exact absurd h.symm (hne b)
  · exact absurd h (hne a)
  · exact String.toList_injective (by simpa using congrArg String.toList h)

def answer : JsonValue :=
  ⟨.object [("decided_at", .string "2026-08-21T18:04:11Z"), ("decided_by", .string "user"),
    ("entry_sha256", .string digest), ("key", .string "rally-point:codex"), ("mode", .string "auto"),
    ("prev_sha256", .null), ("seq", .int 0)], by decide⟩

theorem answer_verifies : verifyChain sampleSha256 [answer] = .ok (some digest) := by decide +kernel

end Consent

/-- The log of one answer: another log that ends in its hash is the same log, and it grants the dispatch. -/
theorem consent_log_tamper_evident_answer :
    (∀ log, (∃ last, verifyChain Consent.sampleSha256 log = .ok last) →
      (log.getLast?.bind (field · "entry_sha256")) = some (.string Consent.digest) → log = [Consent.answer]) ∧
    (checkWith Consent.sampleSha256 "rally-point:codex" [Consent.answer] (some "2")).allowed = true := by
  have hmain := consent_log_tamper_evident Consent.sampleSha256 Consent.sampleSha256_injective
  have hself : field Consent.answer "entry_sha256" = some (.string Consent.digest) := rfl
  refine ⟨fun log hok hlast => ?_, (hmain.2 _ _ _).mpr ⟨.inr (.inr ⟨"2", 2, rfl, by decide, by decide⟩),
    ⟨_, Consent.answer_verifies⟩, Consent.answer, ?_, ?_⟩⟩
  · obtain ⟨e, he, hv⟩ := Option.bind_eq_some_iff.mp hlast
    exact hmain.1 log _ hok ⟨_, Consent.answer_verifies⟩ (.inr ⟨e, Consent.answer, _, he, rfl, hv, hself⟩)
  · rw [show [Consent.answer].filter (answers "rally-point:codex") = [Consent.answer] from
      List.filter_cons_of_pos (by decide)]
    rfl
  · rfl

end RallyPoint.Cockpit
