/-
# RallyPoint.Offers — whom a handoff is offered to and who can close it (`next.rs`, `open_queue.rs`).

`next` and the open queue decide by `handoff_address`, which trims the target: a trimmed name is that tool's
work, and a missing, blank or `all` target is the open queue, work any agent may take. The store decides by
`handoff_closer_matches_target`, which compares the target as it was written. The two agree on a target that
is missing, `all`, or spelled as the tool is. On a blank or padded target they do not, and an item on which
they differ is offered to agents whose resolve the append refuses.
-/
import RallyPoint.Answering

namespace RallyPoint

open Lib

/-! ## The offer -/

/-- Who a handoff is addressed to, from one reader's point of view. -/
inductive HandoffAddress
  | named | openQueue | elsewhere
  deriving DecidableEq, Repr

def handoffAddress (fact : Fact) (tool : String) : HandoffAddress :=
  match fact.target.map trim with
  | none => .openQueue
  | some target =>
    if target = tool then .named
    else if target = "" ∨ target = "all" then .openQueue
    else .elsewhere

/-- An agent is not told to pick up the item it just posted, and quarantined intake is not offered. -/
def isOpenQueueItemFor (fact : Fact) (tool : String) : Bool :=
  fact.kind == .handoff && handoffAddress fact tool == .openQueue && fact.tool != some tool &&
    !fact.scope.any (· == "external-intake")

/-- The handoffs behind the open queue of `tool`. -/
def openQueueFacts (snapshot : RoomSnapshot) (tool : String) : List Fact :=
  snapshot.openHandoffs.filter fun fact => isOpenQueueItemFor fact tool

/-- The handoffs `next` ranks as assigned to `tool`. -/
def namedHandoffs (snapshot : RoomSnapshot) (tool : String) : List Fact :=
  snapshot.openHandoffs.filter fun fact => handoffAddress fact tool == .named

/-- Named or in the open queue. -/
def IsOffered (h : Fact) (tool : String) : Prop :=
  handoffAddress h tool = .named ∨ handoffAddress h tool = .openQueue

/-- The offer looks at the trimmed target. -/
theorem isOffered_iff {h : Fact} {tool : String} :
    IsOffered h tool ↔
      ∀ target, h.target = some target → trim target = tool ∨ trim target = "" ∨ trim target = "all" := by
  unfold IsOffered handoffAddress
  cases h.target with
  | none => simp
  | some target =>
    simp only [Option.map_some, Option.some.injEq, forall_eq']
    by_cases hname : trim target = tool
    · simp [hname]
    · by_cases hqueue : trim target = "" ∨ trim target = "all" <;> simp [hname, hqueue]

/-! ## The closing -/

/-- A fresh resolve of `h` by `tool`, in a session of `tool` that is open. -/
structure FreshResolve (F : List Fact) (h f : Fact) (tool : String) : Prop where
  kind : f.kind = .resolve
  refersTo : f.refId = some h.eventId
  byTool : f.tool = some tool
  notSystem : isSystemAuthored f = false
  inOpenSession : ∃ session, f.fromSessionId = some session ∧ sessionAlreadyClosed F tool session = false
  fresh : f.eventId ∉ F.map (·.eventId)

/-- The row the ledger gets from a fact. -/
def asNextRow (F : List Fact) (f : Fact) : Fact := { f with seq := canonicalMaxSeq F + 1 }

/-- The resolve arm of the append lets `f` pass, and `h` is open no more once it is written. -/
structure Finishes (env : AppendEnv) (F : List Fact) (h f : Fact) : Prop where
  passes : assertTransitionTarget env F f = .ok ()
  removes : h ∉ (env.snapshot (F ++ [asNextRow F f])).openHandoffs

/-- A row that is read once it is written, or that withdraws the handoff outright. -/
def TakesEffect (F : List Fact) (h f : Fact) : Prop :=
  targetOf f = some h.eventId ∨ (f.eventId ∉ retractedIds F ∧ targetOf f ≠ some f.eventId)

/-- The store looks at the target as it is written. -/
def TargetAdmits (h : Fact) (tool : String) : Prop :=
  ∀ target, h.target = some target → target = tool ∨ target = "all"

section Closing

variable {env : AppendEnv} {F : List Fact} {h f : Fact} {tool : String}

theorem mem_openHandoffs_snapshot :
    h ∈ (env.snapshot F).openHandoffs ↔ h ∈ projectOpenHandoffs (resolvedFacts F) := Iff.rfl

namespace FreshResolve

theorem matchesTarget_iff (hf : FreshResolve F h f tool) (hloose : strictHandoffTargetSession h = none) :
    handoffCloserMatchesTarget h f = true ↔ TargetAdmits h tool := by
  obtain ⟨session, hsession, -⟩ := hf.inOpenSession
  unfold handoffCloserMatchesTarget TargetAdmits
  have hreaper : isReaperHandoffExpiry h f = false := by simp [isReaperHandoffExpiry, hf.notSystem]
  rw [hreaper, hloose]
  cases h.target with
  | none => simp [hsession]
  | some target =>
    simp only [Bool.false_eq_true, if_false, hsession, Option.isNone_some, hf.byTool, Bool.or_eq_true,
      beq_iff_eq, Option.some.injEq, forall_eq']
    rw [or_comm, eq_comm (a := tool)]

/-- **The resolve arm** admits a resolve of an open handoff exactly when the closer matches its target. -/
theorem assertTransitionTarget_ok_iff (hf : FreshResolve F h f tool) (hF : IsLedger F)
    (hopen : h ∈ (env.snapshot F).openHandoffs) :
    assertTransitionTarget env F f = .ok () ↔ handoffCloserMatchesTarget h f = true := by
  have hmem := (mem_projectOpenHandoffs.mp hopen).1
  -- ids name one row, so the open handoff the arm finds is `h`
  have hfound : ((env.snapshot F).openHandoffs.find? fun c => c.eventId == h.eventId) = some h := by
    cases hfind : (env.snapshot F).openHandoffs.find? fun c => c.eventId == h.eventId with
    | none => exact absurd (List.find?_eq_none.mp hfind h hopen) (by simp)
    | some x =>
      have hx := (mem_projectOpenHandoffs.mp (List.mem_of_find?_eq_some hfind)).1
      rw [List.inj_on_of_nodup_map hF.distinctIds (mem_resolvedFacts.mp hx).1 (mem_resolvedFacts.mp hmem).1
        (by simpa using List.find?_some hfind)]
  unfold assertTransitionTarget
  simp only [hf.kind, hf.refersTo, hfound, Option.isSome_some, Bool.or_true, Bool.true_or, Bool.not_true,
    Bool.false_eq_true, if_false, bne_self_eq_false, Bool.and_false, beq_iff_eq, reduceCtorEq, Option.some_or]
  split <;> simp [*]

/-- **The effect.** Once written, a matching resolve removes the handoff exactly when it takes effect. -/
theorem removes_iff (hf : FreshResolve F h f tool) (hF : IsLedger F)
    (hopen : h ∈ (env.snapshot F).openHandoffs) (hmatch : handoffCloserMatchesTarget h f = true) :
    h ∉ (env.snapshot (F ++ [asNextRow F f])).openHandoffs ↔ TakesEffect F h f := by
  obtain ⟨hmem, hkind, hrequest, hclosers, hintake⟩ := mem_projectOpenHandoffs.mp hopen
  have hmemF := (mem_resolvedFacts.mp hmem).1
  have htarget : targetOf (asNextRow F f) = targetOf f := targetOf_withSeq f _
  have hcloses : factClosesHandoff h (asNextRow F f) = true := by
    have hmatch' : handoffCloserMatchesTarget h (asNextRow F f) = true := hmatch
    have := hF.le_canonicalMaxSeq h hmemF
    rw [factClosesHandoff, hmatch']
    simp [asNextRow, isCompletionKind, hf.kind, hf.refersTo]
    omega
  have hself : asNextRow F f ∈ resolvedFacts (F ++ [asNextRow F f]) ↔
      f.eventId ∉ retractedIds F ∧ targetOf f ≠ some f.eventId := by
    rw [mem_resolvedFacts_append, htarget]
    exact ⟨fun h => h.2, fun h => ⟨.inr rfl, h⟩⟩
  have hkept : h ∈ resolvedFacts (F ++ [asNextRow F f]) ↔ targetOf f ≠ some h.eventId := by
    rw [mem_resolvedFacts_append_of_mem hmemF, htarget]
    exact and_iff_right hmem
  rw [mem_openHandoffs_snapshot, mem_projectOpenHandoffs]
  constructor
  · intro hgone
    by_contra heffect
    obtain ⟨hspared, hlost⟩ := not_or.mp heffect
    refine hgone ⟨hkept.mpr hspared, hkind, hrequest, fun closer hcloser => ?_, hintake⟩
    rcases (mem_resolvedFacts_append.mp hcloser).1 with hold | rfl
    · exact hclosers closer ((mem_resolvedFacts_append_of_mem hold).mp hcloser).1
    · exact absurd (hself.mp hcloser) hlost
  · rintro (hwithdrawn | hread) ⟨hstays, -, -, hopen', -⟩
    · exact hkept.mp hstays hwithdrawn
    · have := hopen' _ (hself.mpr hread)
      simp [hcloses] at this

theorem finishes_iff (hf : FreshResolve F h f tool) (hF : IsLedger F)
    (hopen : h ∈ (env.snapshot F).openHandoffs) (hloose : strictHandoffTargetSession h = none) :
    Finishes env F h f ↔ TargetAdmits h tool ∧ TakesEffect F h f := by
  constructor
  · rintro ⟨hpasses, hremoves⟩
    have hmatch := (hf.assertTransitionTarget_ok_iff hF hopen).mp hpasses
    exact ⟨(hf.matchesTarget_iff hloose).mp hmatch, (hf.removes_iff hF hopen hmatch).mp hremoves⟩
  · rintro ⟨hadmits, heffect⟩
    have hmatch := (hf.matchesTarget_iff hloose).mpr hadmits
    exact ⟨(hf.assertTransitionTarget_ok_iff hF hopen).mpr hmatch,
      (hf.removes_iff hF hopen hmatch).mpr heffect⟩

end FreshResolve

end Closing

/-! ## Offered to exactly those who can close -/

/-- What the offers promise `tool` about the open handoff `h`, for the resolve `f`. -/
structure OfferedAsClosable (env : AppendEnv) (F : List Fact) (h f : Fact) (tool : String) : Prop where
  exactly : IsOffered h tool ↔ Finishes env F h f
  queue : h ∈ openQueueFacts (env.snapshot F) tool → Finishes env F h f
  named : h ∈ namedHandoffs (env.snapshot F) tool → Finishes env F h f

/-- The target reads the same as it is written and trimmed, as far as `tool` is concerned. -/
def PlainlyAddressed (h : Fact) (tool : String) : Prop :=
  ∀ target, h.target = some target →
    ((target = tool ∨ target = "all") ↔ (trim target = tool ∨ trim target = "" ∨ trim target = "all"))

/-- The trimmed target is some other tool's name. -/
def AddressedElsewhere (h : Fact) (tool : String) : Prop :=
  ∃ target, h.target = some target ∧ trim target ≠ tool ∧ trim target ≠ "" ∧ trim target ≠ "all"

section Offered

variable {env : AppendEnv} {F : List Fact} {h f : Fact} {tool : String}

theorem not_isOffered_iff : ¬IsOffered h tool ↔ AddressedElsewhere h tool := by
  rw [isOffered_iff, AddressedElsewhere]
  push Not
  exact Iff.rfl

/-- Both ways of reading the target agree exactly on a plainly addressed handoff. -/
theorem isOffered_iff_admits_iff : (IsOffered h tool ↔ TargetAdmits h tool) ↔ PlainlyAddressed h tool := by
  rw [isOffered_iff, TargetAdmits, PlainlyAddressed]
  cases h.target with
  | none => simp
  | some target =>
    simp only [Option.some.injEq, forall_eq']
    exact iff_comm

/-- **Offers and closings agree** exactly on a plainly addressed handoff whose resolve takes effect; a resolve
that takes no effect agrees with not being offered. -/
theorem offered_as_closable_iff {ext : Externals}
    (hF : Reachable (AppendStep ext) F) (hopen : h ∈ (env.snapshot F).openHandoffs)
    (hloose : strictHandoffTargetSession h = none) (hf : FreshResolve F h f tool) :
    OfferedAsClosable env F h f tool ↔
      (TakesEffect F h f → PlainlyAddressed h tool) ∧
        (¬TakesEffect F h f → AddressedElsewhere h tool) := by
  have hfinishes := hf.finishes_iff (isLedger_of_reachable hF) hopen hloose
  have hexactly : OfferedAsClosable env F h f tool ↔ (IsOffered h tool ↔ Finishes env F h f) := by
    refine ⟨fun hoffer => hoffer.exactly, fun hiff => ⟨hiff, fun hqueue => hiff.mp ?_, fun hnamed => hiff.mp ?_⟩⟩
    · have hitem := (List.mem_filter.mp hqueue).2
      simp only [isOpenQueueItemFor, Bool.and_eq_true, beq_iff_eq] at hitem
      exact .inr hitem.1.1.2
    · exact .inl (by simpa using (List.mem_filter.mp hnamed).2)
  rw [hexactly, hfinishes]
  by_cases heffect : TakesEffect F h f
  · simp only [heffect, and_true, forall_const, not_true_eq_false, false_implies]
    exact isOffered_iff_admits_iff
  · simp only [heffect, and_false, iff_false, forall_const, not_false_eq_true, false_implies, true_and]
    exact not_isOffered_iff

/-- A target without surrounding white space is plainly addressed, unless it is blank and the tool is not. -/
theorem plainlyAddressed_of_trimmed {target : String} (htarget : h.target = some target)
    (htrimmed : trim target = target) (hnonblank : target ≠ "") : PlainlyAddressed h tool := by
  intro target' htarget'
  obtain rfl := Option.some.inj (htarget.symm.trans htarget')
  rw [htrimmed]
  simp [hnonblank]

end Offered

namespace Offers

/-- Alice hands off to whoever takes it. -/
def posted (target : Option String) : Fact :=
  { eventId := "h1", seq := 1, kind := .handoff, tool := some "alice", target := target
    subject := "please review", createdAt := "2026-01-01T00:00:00Z" }

def bobResolves : Fact :=
  { eventId := "r1", kind := .resolve, tool := some "bob", fromSessionId := some "sess:bob", refId := some "h1"
    subject := "responded to handoff", createdAt := "2026-01-01T01:00:00Z" }

theorem reachable_posted (target : Option String)
    (hok : appendFactUnderLock .sample [] (posted target) = .ok (.committed (posted target))) :
    Reachable (AppendStep .sample) [posted target] :=
  Reachable.empty.append ⟨.sample, posted target, rfl, hok⟩

theorem freshResolve_bob (target : Option String) :
    FreshResolve [posted target] (posted target) bobResolves "bob" where
  kind := rfl
  refersTo := rfl
  byTool := rfl
  notSystem := by decide
  inOpenSession := ⟨"sess:bob", rfl, by simp [sessionAlreadyClosed, posted, exactSession]⟩
  fresh := by simp [posted, bobResolves]

end Offers

open Offers in
/-- A handoff to `bob` is bob's to close. -/
theorem offered_as_closable_bob :
    OfferedAsClosable .sample [posted (some "bob")] (posted (some "bob")) bobResolves "bob" := by
  refine (offered_as_closable_iff (reachable_posted _ (by decide)) (by decide)
    (by decide) (freshResolve_bob _)).mpr ⟨fun _ => ?_, fun hnone => absurd (.inr ?_) hnone⟩
  · exact plainlyAddressed_of_trimmed rfl (by decide) (by decide)
  · exact ⟨by decide, by decide⟩

open Offers in
/-- A handoff to a blank target is in bob's queue, and one to ` bob ` is his by name; the append refuses his
fresh resolve of either. -/
theorem offered_and_unclosable :
    posted (some " ") ∈ openQueueFacts (AppendEnv.sample.snapshot [posted (some " ")]) "bob" ∧
      posted (some " bob ") ∈ namedHandoffs (AppendEnv.sample.snapshot [posted (some " bob ")]) "bob" ∧
      ∀ target, target = some " " ∨ target = some " bob " →
        Reachable (AppendStep .sample) [posted target] ∧
          posted target ∈ (AppendEnv.sample.snapshot [posted target]).openHandoffs ∧
          strictHandoffTargetSession (posted target) = none ∧
          FreshResolve [posted target] (posted target) bobResolves "bob" ∧
          IsOffered (posted target) "bob" ∧
          assertTransitionTarget .sample [posted target] bobResolves ≠ .ok () := by
  refine ⟨by decide, by decide, ?_⟩
  rintro target (rfl | rfl)
  · exact ⟨reachable_posted _ (by decide), by decide, by decide,
      freshResolve_bob _, .inr (by decide), by decide⟩
  · exact ⟨reachable_posted _ (by decide), by decide, by decide,
      freshResolve_bob _, .inl (by decide), by decide⟩

end RallyPoint
