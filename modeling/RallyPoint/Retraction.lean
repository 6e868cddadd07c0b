/-
# RallyPoint.Retraction — append-only withdrawal of a posted fact (`retraction.rs`).

A retraction is an appended fact that names its target, either as the one bare token of an anchored
`retract:` subject or, when the subject holds more than one word, in `ref`. Its wire KIND is not read.
Resolution is flat and batch-scoped: a reader drops every fact whose id some fact of the batch retracts,
retractions included, so retracting a retraction restores nothing.

The second half says how resolution moves when the ledger grows by one fact, which is all any gate needs:
`resolvedFacts (F ++ [f])` is `resolvedFacts F` without `f`'s target, followed by `f` unless an earlier
retraction (or `f` itself) already named `f`.
-/
import RallyPoint.Fact

namespace RallyPoint

open Lib

def subjectPrefix : String := "retract:"

/-- Canonical retraction subject for `target`. -/
def subjectFor (target : String) : String := "retract: " ++ target

/-- The target of an anchored retraction subject, `retract: <one-bare-token>` and nothing else. -/
def subjectTarget (subject : String) : Option String :=
  match stripPrefix subjectPrefix (trim subject) with
  | none => none
  | some rest =>
    if !(trim rest).toList.isEmpty && !(trim rest).toList.any isWhitespace then some (trim rest) else none

/-- The event id a fact retracts. -/
def targetOf (fact : Fact) : Option String :=
  match subjectTarget fact.subject with
  | some target => some target
  | none =>
    -- the subject shape drifted, but `ref` still names the target
    if startsWith subjectPrefix (trim fact.subject) then
      fact.refId.filter (fun refId => !refId.toList.isEmpty)
    else none

theorem targetOf_withSeq (fact : Fact) (n : Int) : targetOf { fact with seq := n } = targetOf fact := by
  simp only [targetOf]

theorem targetOf_of_plain {fact : Fact} (h : startsWith subjectPrefix (trim fact.subject) = false) :
    targetOf fact = none := by
  simp [targetOf, subjectTarget, stripPrefix_eq_none h, h]

/-- A subject that opens with a word of its own is no retraction, whatever follows. -/
theorem targetOf_of_opening {fact : Fact} {opening rest : String} (hsubject : fact.subject = opening ++ rest)
    (hhead : ∃ c cs, opening.toList = c :: cs ∧ isWhitespace c = false)
    (hopening : ∀ more, startsWith subjectPrefix (opening ++ more) = false) : targetOf fact = none := by
  refine targetOf_of_plain ?_
  obtain ⟨c, cs, hlist, hc⟩ := hhead
  by_contra hstart
  have hplain := startsWith_of_trim (s := opening ++ rest) (by simp [hlist, hc])
    (by simpa [hsubject] using hstart)
  simp [hopening rest] at hplain

def isRetraction (fact : Fact) : Bool := (targetOf fact).isSome

/-- Ids withdrawn by a retraction present in `facts`. -/
def retractedIds (facts : List Fact) : List String := facts.filterMap targetOf

/-- The facts whose id is not withdrawn. -/
def dropIds (ids : List String) (facts : List Fact) : List Fact :=
  facts.filter fun fact => !ids.contains fact.eventId

/-- Resolution as the claim gate spells it: no copy when nothing is retracted. -/
def resolveRetractions (facts : List Fact) : Option (List Fact) :=
  if (retractedIds facts).isEmpty then none else some (dropIds (retractedIds facts) facts)

/-- The retraction-resolved view every projection starts from. -/
def resolvedFacts (facts : List Fact) : List Fact := (resolveRetractions facts).getD facts

/-! ## Resolution as one filter -/

@[simp]
theorem mem_dropIds {ids : List String} {facts : List Fact} {x : Fact} :
    x ∈ dropIds ids facts ↔ x ∈ facts ∧ x.eventId ∉ ids := by
  simp [dropIds]

theorem dropIds_append (ids : List String) (F G : List Fact) :
    dropIds ids (F ++ G) = dropIds ids F ++ dropIds ids G := by
  simp [dropIds]

theorem dropIds_dropIds (ids ids' : List String) (F : List Fact) :
    dropIds ids' (dropIds ids F) = dropIds (ids ++ ids') F := by
  simp only [dropIds, List.filter_filter, List.contains_eq_mem, List.mem_append, Bool.decide_or,
    Bool.not_or]
  exact List.filter_congr fun x _ => Bool.and_comm _ _

theorem dropIds_sublist (ids : List String) (F : List Fact) : (dropIds ids F).Sublist F :=
  List.filter_sublist

theorem resolvedFacts_eq (facts : List Fact) :
    resolvedFacts facts = dropIds (retractedIds facts) facts := by
  unfold resolvedFacts resolveRetractions
  by_cases h : (retractedIds facts).isEmpty
  · simp [dropIds, List.isEmpty_iff.mp h]
  · simp [h]

@[simp]
theorem mem_resolvedFacts {facts : List Fact} {x : Fact} :
    x ∈ resolvedFacts facts ↔ x ∈ facts ∧ x.eventId ∉ retractedIds facts := by
  rw [resolvedFacts_eq, mem_dropIds]

theorem resolvedFacts_sublist (F : List Fact) : (resolvedFacts F).Sublist F := by
  rw [resolvedFacts_eq]
  exact dropIds_sublist _ _

theorem retractedIds_append (F G : List Fact) :
    retractedIds (F ++ G) = retractedIds F ++ retractedIds G := by
  simp [retractedIds]

theorem retractedIds_singleton (f : Fact) : retractedIds [f] = (targetOf f).toList := by
  cases h : targetOf f <;> simp [retractedIds, h]

@[simp]
theorem mem_retractedIds_append_singleton {F : List Fact} {f : Fact} {id : String} :
    id ∈ retractedIds (F ++ [f]) ↔ id ∈ retractedIds F ∨ targetOf f = some id := by
  rw [retractedIds_append, retractedIds_singleton, List.mem_append, Option.mem_toList]

/-! ## Growing the ledger by one fact -/

/-- Nothing is withdrawn while no fact is a retraction. -/
theorem resolvedFacts_of_none {F : List Fact} (h : ∀ x ∈ F, targetOf x = none) :
    resolvedFacts F = F := by
  have hids : retractedIds F = [] := List.filterMap_eq_nil_iff.mpr h
  simp [resolvedFacts, resolveRetractions, hids]

/-- The resolved view after one append. -/
theorem resolvedFacts_append_singleton (F : List Fact) (f : Fact) :
    resolvedFacts (F ++ [f]) =
      dropIds (targetOf f).toList (resolvedFacts F) ++ dropIds (retractedIds (F ++ [f])) [f] := by
  rw [resolvedFacts_eq, resolvedFacts_eq, dropIds_append, dropIds_dropIds, retractedIds_append,
    retractedIds_singleton]

/-- A fact of the old ledger survives unless the new fact retracts it. -/
theorem mem_resolvedFacts_append_of_mem {F : List Fact} {f x : Fact} (hx : x ∈ F) :
    x ∈ resolvedFacts (F ++ [f]) ↔ x ∈ resolvedFacts F ∧ targetOf f ≠ some x.eventId := by
  simp only [mem_resolvedFacts, List.mem_append, hx, true_or, true_and,
    mem_retractedIds_append_singleton, not_or, ne_eq]

theorem mem_resolvedFacts_append {F : List Fact} {f x : Fact} :
    x ∈ resolvedFacts (F ++ [f]) ↔
      (x ∈ F ∨ x = f) ∧ x.eventId ∉ retractedIds F ∧ targetOf f ≠ some x.eventId := by
  simp only [mem_resolvedFacts, List.mem_append, List.mem_singleton,
    mem_retractedIds_append_singleton, not_or, ne_eq]

end RallyPoint
