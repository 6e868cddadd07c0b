/-
# RallyPoint.Closers — the one-pass closer indexes (`claim_authority.rs`, `store.rs`).

The snapshot asks of every claim and every handoff whether a later fact closes it. Both answers are scans of
the whole ledger; the fold asks them through maps that one pass over the facts fills, keyed by what a closer
must share with the thing it closes. The loops are here as the code runs them. What they leave in the maps is
what `ClaimClosers.new` and `HandoffClosers.new` say (`collect_eq_new`), and the answers through the maps are
the answers of the scans (`closers_eq_scan`).
-/
import RallyPoint.Lib.Buckets
import RallyPoint.ClaimAuthority
import RallyPoint.Obligations

namespace RallyPoint

open Lib

/-! ## Claims -/

namespace ClaimClosers

/-- The id a closing kind names. -/
def refKey (fact : Fact) : Option String := if closesActiveClaim fact.kind then fact.refId else none

/-- The scopes a release repeats. -/
def scopeKeys (fact : Fact) : List String := if fact.kind == .release then fact.scope else []

/-- The session a close is for. -/
def sessionKey (fact : Fact) : Option (String × String) :=
  if isSessionCloseFact fact then
    match fact.tool, fact.fromSessionId with
    | some tool, some session => some (tool, session)
    | _, _ => none
  else none

/-- One turn of the loop: each map gets the fact under the keys it has there. -/
def add (closers : ClaimClosers) (fact : Fact) : ClaimClosers where
  byRef := Buckets.pushAll closers.byRef (refKey fact).toList fact
  releasesByScope := Buckets.pushAll closers.releasesByScope (scopeKeys fact) fact
  sessionCloses := Buckets.pushAll closers.sessionCloses (sessionKey fact).toList fact

/-- `ClaimClosers::new`, as a loop. -/
def collect (facts : List Fact) : ClaimClosers :=
  facts.foldl add ⟨Buckets.empty, Buckets.empty, Buckets.empty⟩

/-- The loop fills three maps side by side. -/
theorem collect_eq_fill (facts : List Fact) :
    collect facts =
      ⟨Buckets.fill (fun fact => (refKey fact).toList) facts, Buckets.fill scopeKeys facts,
        Buckets.fill (fun fact => (sessionKey fact).toList) facts⟩ := by
  have hfold : ∀ closers : ClaimClosers, facts.foldl add closers =
      ⟨facts.foldl (fun b fact => Buckets.pushAll b (refKey fact).toList fact) closers.byRef,
        facts.foldl (fun b fact => Buckets.pushAll b (scopeKeys fact) fact) closers.releasesByScope,
        facts.foldl (fun b fact => Buckets.pushAll b (sessionKey fact).toList fact) closers.sessionCloses⟩ := by
    induction facts with
    | nil => exact fun _ => rfl
    | cons fact facts ih => exact fun closers => ih (closers.add fact)
  exact hfold _

/-- **The maps the loop leaves behind.** -/
theorem collect_eq_new (facts : List Fact) : collect facts = new facts := by
  have hrefs : Buckets.fill (fun fact => (refKey fact).toList) facts = (new facts).byRef := by
    funext refId
    rw [Buckets.fill_eq_filter (fun _ => rfl)]
    refine List.filter_congr fun fact _ => ?_
    unfold refKey
    rw [Bool.eq_iff_iff]
    cases closesActiveClaim fact.kind <;> simp
  have hscopes : Buckets.fill scopeKeys facts = (new facts).releasesByScope := by
    funext scope
    rw [Buckets.fill_apply]
    refine List.flatMap_congr fun fact _ => ?_
    unfold scopeKeys
    cases fact.kind == .release with
    | false => simp
    | true => simp [List.filter_beq]
  have hsessions : Buckets.fill (fun fact => (sessionKey fact).toList) facts = (new facts).sessionCloses := by
    funext key
    rw [Buckets.fill_eq_filter (fun _ => rfl)]
    refine List.filter_congr fun fact _ => ?_
    obtain ⟨tool, session⟩ := key
    unfold sessionKey
    rw [Bool.eq_iff_iff]
    cases isSessionCloseFact fact <;> cases fact.tool <;> cases fact.fromSessionId <;> simp
  rw [collect_eq_fill, hrefs, hscopes, hsessions]

end ClaimClosers

/-! ## Handoffs -/

namespace HandoffClosers

/-- The id a completion kind names. -/
def refKey (fact : Fact) : Option String := if isCompletionKind fact.kind then fact.refId else none

/-- `HandoffClosers::new`, as a loop. -/
def collect (facts : List Fact) : HandoffClosers where
  byRef := Buckets.fill (fun fact => (refKey fact).toList) facts

/-- **The map the loop leaves behind.** -/
theorem collect_eq_new (facts : List Fact) : collect facts = new facts := by
  have hrefs : Buckets.fill (fun fact => (refKey fact).toList) facts = (new facts).byRef := by
    funext refId
    rw [Buckets.fill_eq_filter (fun _ => rfl)]
    refine List.filter_congr fun fact _ => ?_
    unfold refKey
    rw [Bool.eq_iff_iff]
    cases isCompletionKind fact.kind <;> simp
  rw [collect, hrefs]

end HandoffClosers

/-- The scan over all facts. -/
def handoffIsClosed (handoff : Fact) (facts : List Fact) : Bool :=
  facts.any fun closer => factClosesHandoff handoff closer

/-- A closer names the handoff, so the handoff's own bucket holds it. -/
theorem HandoffClosers.isClosed_eq (facts : List Fact) (handoff : Fact) :
    (collect facts).isClosed handoff = handoffIsClosed handoff facts := by
  refine Buckets.any_fill fun closer _ hcloses => ?_
  simp only [factClosesHandoff, Bool.and_eq_true, beq_iff_eq] at hcloses
  obtain ⟨⟨⟨hkind, -⟩, href⟩, -⟩ := hcloses
  simp [refKey, hkind, href]

/-! ## The answers -/

/-- **The indexes answer what the scans answer,** for any facts in any order. -/
theorem closers_eq_scan (facts : List Fact) (fact : Fact) :
    (ClaimClosers.collect facts).isActive fact = isActiveClaimFact fact facts ∧
      (HandoffClosers.collect facts).isClosed fact = handoffIsClosed fact facts := by
  constructor
  · rw [ClaimClosers.collect_eq_new, ClaimClosers.isActive_eq]
  · exact HandoffClosers.isClosed_eq facts fact

end RallyPoint
