/-
# RallyPoint.CompositionCeiling — a composed room loses nothing silently.

Behind the passes stands a loop that measures the response, enters its length into it, measures again, and trims until
the ceiling holds. `compose_room_output_accounts` reads what the passes kept and counted at its end, and adds what the
last measurement says of the ceiling.
-/
import RallyPoint.CompositionAccounts

namespace RallyPoint.Wire.Composition

open Lib

/-! ## The block and the ceiling -/

section Ceiling

variable {κ : Type} [LinearOrder κ] {sizes : Sizes} {score : Fact → κ} {tool : Option String}
variable {measureOutput : RoomSnapshot → Nat} {s s' : RoomSnapshot} {buckets buckets' : Buckets} {limit : Nat}

/-- The room with another number of bytes entered. -/
def withEmitted (s : RoomSnapshot) (n : Nat) : RoomSnapshot :=
  { s with composition := s.composition.map fun c => { c with emittedBytes := n } }

/-- The number of bytes the block carries is a `usize`. -/
def EmittedFits (s : RoomSnapshot) : Prop := ∀ c, s.composition = some c → c.emittedBytes < 18446744073709551616

/-- The measured size is that of a text in which the number of bytes stands in decimal, and in which the report of an
overrun takes no less than its absence. -/
structure SelfSized (measureOutput : RoomSnapshot → Nat) : Prop where
  usize : ∀ s, EmittedFits s → measureOutput s < 18446744073709551616
  counts : ∀ s, s.composition ≠ none →
    ∃ body, ∀ n < 18446744073709551616, measureOutput (withEmitted s n) = body + width n
  quiet : ∀ s, measureOutput (clearOverBudget s) ≤ measureOutput s

/-- The room says of itself that it is too long. -/
def SaysOverBudget (s : RoomSnapshot) : Prop := ∃ c, s.composition = some c ∧ c.overBudget = true

/-- The block says what there is to say. -/
def Reported (s : RoomSnapshot) (buckets : Buckets) : Prop :=
  buckets = [] ∨ ∃ c, s.composition = some c ∧ c.buckets = buckets

theorem stabilize_none (hnone : s.composition = none) (rounds : Nat) :
    stabilizeEmittedBytes measureOutput rounds s = (s, measureOutput s) := by
  cases rounds with
  | zero => rfl
  | succ rounds => rw [stabilizeEmittedBytes, hnone]

theorem withEmitted_self {c : RoomComposition} (hc : s.composition = some c) :
    withEmitted s c.emittedBytes = s := by
  obtain ⟨⟩ := s
  simp only at hc
  subst hc
  rfl

theorem withEmitted_of_none (hnone : s.composition = none) (n : Nat) : withEmitted s n = s := by
  obtain ⟨⟩ := s
  simp only at hnone
  subst hnone
  rfl

theorem clearOverBudget_of_none (hnone : s.composition = none) : clearOverBudget s = s := by
  obtain ⟨⟩ := s
  simp only at hnone
  subst hnone
  rfl

theorem withEmitted_withEmitted (s : RoomSnapshot) (m n : Nat) :
    withEmitted (withEmitted s m) n = withEmitted s n := by
  rw [withEmitted, withEmitted, Option.map_map]
  rfl

/-- The rounds are the iteration of the measurement. -/
theorem stabilize_some {c : RoomComposition} (hc : s.composition = some c) (rounds : Nat) :
    stabilizeEmittedBytes measureOutput rounds s =
      (withEmitted s (settle (fun n => measureOutput (withEmitted s n)) rounds c.emittedBytes),
        measureOutput (withEmitted s (settle (fun n => measureOutput (withEmitted s n)) rounds c.emittedBytes))) := by
  induction rounds generalizing s c with
  | zero => rw [stabilizeEmittedBytes, settle, withEmitted_self hc]
  | succ rounds ih =>
    have hself := withEmitted_self hc
    simp only [stabilizeEmittedBytes, settle, hc, hself]
    by_cases hfixed : c.emittedBytes = measureOutput s
    · rw [if_pos hfixed, if_pos hfixed.symm, hself]
    · rw [if_neg hfixed, if_neg (Ne.symm hfixed)]
      have hstep : { s with composition := some { c with emittedBytes := measureOutput s } } =
          withEmitted s (measureOutput s) := by rw [withEmitted, hc]; rfl
      rw [hstep, ih (s := withEmitted s (measureOutput s)) (by rw [withEmitted, hc]; rfl)]
      simp only [withEmitted_withEmitted]

variable (measureOutput) in
/-- Whatever the rounds do, they enter a number, and end with a measurement of what they leave. -/
theorem stabilize_spec (rounds : Nat) (s : RoomSnapshot) :
    ∃ n, (stabilizeEmittedBytes measureOutput rounds s).1 = withEmitted s n ∧
      (stabilizeEmittedBytes measureOutput rounds s).2 = measureOutput (withEmitted s n) := by
  cases hc : s.composition with
  | none =>
    have hsame := withEmitted_of_none hc 0
    exact ⟨0, by rw [stabilize_none hc, hsame], by rw [stabilize_none hc, hsame]⟩
  | some c => exact ⟨_, by rw [stabilize_some hc], by rw [stabilize_some hc]⟩

theorem kept_withEmitted (s : RoomSnapshot) (n : Nat) : Kept score tool s (withEmitted s n) :=
  kept_withComposition s _

theorem Reported.withEmitted (h : Reported s buckets) (n : Nat) : Reported (withEmitted s n) buckets := by
  rcases h with h | ⟨c, hc, hbuckets⟩
  · exact .inl h
  · exact .inr ⟨{ c with emittedBytes := n }, by rw [Composition.withEmitted, hc]; rfl, hbuckets⟩

theorem tallied_withComposition {s₀ : RoomSnapshot} {c : Option RoomComposition} (h : Tallied s₀ s buckets) :
    Tallied s₀ { s with composition := c } buckets := by
  intro cut
  cases cut with
  | budgeted b => cases b <;> exact h (.budgeted _)
  | unconsumedArtifacts => exact h .unconsumedArtifacts
  | staleFacts => exact h .staleFacts

theorem emittedFits_withEmitted {n : Nat} (hn : n < 18446744073709551616) : EmittedFits (withEmitted s n) := by
  intro c hc
  rw [withEmitted] at hc
  cases hs : s.composition with
  | none => simp [hs] at hc
  | some c₀ =>
    simp only [hs, Option.map_some, Option.some.injEq] at hc
    exact hc ▸ hn

theorem width_le_of_usize : ∀ n < 18446744073709551616, width n ≤ 20 := fun n hn =>
  (width_le_iff (by decide)).mpr (hn.trans (by decide))

/-- The measured size of this room is a `usize` and depends on the number of bytes entered through its decimal width
alone: what stands beside the number is as long as ever. -/
structure SizedByWidth (measureOutput : RoomSnapshot → Nat) (s : RoomSnapshot) : Prop where
  usize : ∀ n < 18446744073709551616, measureOutput (withEmitted s n) < 18446744073709551616
  counts : s.composition ≠ none →
    ∃ base, ∀ n < 18446744073709551616, measureOutput (withEmitted s n) = base + width n

theorem SelfSized.sizedByWidth (hself : SelfSized measureOutput) (s : RoomSnapshot) : SizedByWidth measureOutput s where
  usize _ hn := hself.usize _ (emittedFits_withEmitted hn)
  counts := hself.counts s

theorem SizedByWidth.settles (hsized : SizedByWidth measureOutput s) (hfits : EmittedFits s) {c : RoomComposition}
    (hc : s.composition = some c) :
    ∃ n < 18446744073709551616, (stabilizeEmittedBytes measureOutput stabilizeRounds s).1 = withEmitted s n ∧
      measureOutput (withEmitted s n) = n := by
  obtain ⟨base, hbase⟩ := hsized.counts (by rw [hc]; exact Option.some_ne_none c)
  have hfixed := settle_of_iterate (iterate_width width_le_of_usize hbase hsized.usize (hfits c hc))
    (show 4 ≤ stabilizeRounds by decide)
  exact ⟨_, settle_lt hsized.usize (hfits c hc), by rw [stabilize_some hc], hfixed⟩

/-- **The rounds settle**: what is entered is what is measured. -/
theorem stabilize_settles (hself : SelfSized measureOutput) (hfits : EmittedFits s) {c : RoomComposition}
    (hc : s.composition = some c) :
    ∃ n < 18446744073709551616, (stabilizeEmittedBytes measureOutput stabilizeRounds s).1 = withEmitted s n ∧
      measureOutput (withEmitted s n) = n :=
  (hself.sizedByWidth s).settles hfits hc

/-- **A size that counts its own digits converges**: the room is left with the number entered that is its own measured
size with that number in it, and this number is the answer; nothing else of the room has changed. -/
theorem emitted_bytes_converge (measureOutput : RoomSnapshot → Nat) (s : RoomSnapshot)
    (hsized : SizedByWidth measureOutput s) (hfits : EmittedFits s) :
    ∃ out bytes, stabilizeEmittedBytes measureOutput stabilizeRounds s = (out, bytes) ∧
      bytes = measureOutput out ∧ out = withEmitted s bytes ∧
      ∀ c, out.composition = some c → c.emittedBytes = measureOutput out := by
  obtain ⟨m, hout, hbytes⟩ := stabilize_spec measureOutput stabilizeRounds s
  refine ⟨(stabilizeEmittedBytes measureOutput stabilizeRounds s).1,
    (stabilizeEmittedBytes measureOutput stabilizeRounds s).2, rfl, by rw [hout, hbytes], ?_⟩
  cases hc : s.composition with
  | none =>
    rw [stabilize_none hc]
    refine ⟨(withEmitted_of_none hc _).symm, ?_⟩
    intro c hsome
    rw [hc] at hsome
    cases hsome
  | some c =>
    obtain ⟨n, -, hn, hfixed⟩ := hsized.settles hfits hc
    have hanswer : (stabilizeEmittedBytes measureOutput stabilizeRounds s).2 = n := by
      rw [hbytes, ← hout, hn, hfixed]
    rw [hanswer, hn]
    refine ⟨rfl, ?_⟩
    intro c' hc'
    rw [withEmitted, hc, Option.map_some, Option.some.injEq] at hc'
    rw [← hc', hfixed]

theorem withEmitted_clearOverBudget (s : RoomSnapshot) (n : Nat) :
    withEmitted (clearOverBudget s) n = clearOverBudget (withEmitted s n) := by
  rw [withEmitted, clearOverBudget, clearOverBudget, withEmitted, Option.map_map, Option.map_map]
  rfl

/-- Once the settled size is within the ceiling, it stays there when the report of an overrun is taken back. -/
theorem measured_le (hself : SelfSized measureOutput) (hfits : EmittedFits s)
    (hle : (stabilizeEmittedBytes measureOutput stabilizeRounds s).2 ≤ limit) :
    measureOutput (stabilizeEmittedBytes measureOutput stabilizeRounds
      (clearOverBudget (stabilizeEmittedBytes measureOutput stabilizeRounds s).1)).1 ≤ limit := by
  cases hc : s.composition with
  | none =>
    rw [stabilize_none hc] at hle ⊢
    rw [clearOverBudget_of_none hc, stabilize_none hc]
    exact hle
  | some c =>
    obtain ⟨n, hbound, hn, hfixed⟩ := stabilize_settles hself hfits hc
    have hmeasured : (stabilizeEmittedBytes measureOutput stabilizeRounds s).2 = n := by
      obtain ⟨n', hn', hmeasured⟩ := stabilize_spec measureOutput stabilizeRounds s
      rw [hmeasured, ← hn', hn, hfixed]
    rw [hmeasured] at hle
    rw [hn]
    have hcleared : (clearOverBudget (withEmitted s n)).composition =
        some { c with emittedBytes := n, overBudget := false, overBudgetCauses := [] } := by
      rw [clearOverBudget, withEmitted, hc]
      rfl
    rw [stabilize_some hcleared]
    -- counted again without the report, the size only shrinks
    have hmono : ∀ a b, a ≤ b → b ≤ n → measureOutput (withEmitted (clearOverBudget (withEmitted s n)) a) ≤
        measureOutput (withEmitted (clearOverBudget (withEmitted s n)) b) := by
      obtain ⟨body, hbody⟩ := hself.counts (clearOverBudget (withEmitted s n))
        (by rw [hcleared]; exact Option.some_ne_none _)
      intro a b hab hb
      rw [hbody a (by omega), hbody b (by omega)]
      exact Nat.add_le_add_left (width_mono hab) body
    have hstart : measureOutput (withEmitted (clearOverBudget (withEmitted s n)) n) ≤ n := by
      rw [withEmitted_clearOverBudget, withEmitted_withEmitted]
      exact (hself.quiet _).trans hfixed.le
    exact (settle_le hmono hstart).trans hle

/-! ### The loops -/

variable (sizes score tool) in
/-- The inner loop ends, and trims. -/
theorem trimUntil_spec (buckets : Buckets) (limit fuel estimated : Nat) (hfuel : budgetedItems s < fuel) :
    ∃ s' buckets' trimmed, trimUntil sizes score tool limit fuel estimated (s, buckets) =
        some ((s', buckets'), trimmed) ∧ Trims score tool s s' buckets buckets' ∧
      (trimmed = true → budgetedItems s' < budgetedItems s) ∧ (trimmed = false → s' = s ∧ buckets' = buckets) := by
  induction fuel generalizing s buckets estimated with
  | zero => exact absurd hfuel (Nat.not_lt_zero _)
  | succ fuel ih =>
    have hstay : ∃ s' buckets' trimmed, some ((s, buckets), false) = some ((s', buckets'), trimmed) ∧
        Trims score tool s s' buckets buckets' ∧ (trimmed = true → budgetedItems s' < budgetedItems s) ∧
        (trimmed = false → s' = s ∧ buckets' = buckets) :=
      ⟨s, buckets, false, rfl, Trims.refl s buckets, nofun, fun _ => ⟨rfl, rfl⟩⟩
    rw [trimUntil]
    split
    · exact hstay
    · cases htrim : trimLowestBudgeted sizes score tool s buckets with
      | none => exact hstay
      | some out =>
        obtain ⟨⟨s₁, buckets₁⟩, savings⟩ := out
        obtain ⟨htrims, hfewer⟩ := trim_spec htrim
        have hitems : budgetedItems s₁ < fuel := by omega
        obtain ⟨s', buckets', trimmed, hrun, hmore, hless, hsame⟩ := ih buckets₁ (estimated - savings) hitems
        refine ⟨s', buckets', true, by simp only [hrun]; rfl, htrims.trans hmore, fun _ => ?_, nofun⟩
        cases trimmed with
        | true => exact (hless rfl).trans hfewer
        | false => rwa [(hsame rfl).1]

/-- What the outer loop leaves. -/
structure Fitted (score : Fact → κ) (tool : Option String) (measureOutput : RoomSnapshot → Nat) (limit : Nat)
    (s out : RoomSnapshot) (buckets : Buckets) : Prop where
  kept : Kept score tool s out
  reported : ∃ buckets', Reported out buckets' ∧
    ∀ s₀, TrueTotals s₀ → neverCut s = neverCut s₀ → Tallied s₀ s buckets → Tallied s₀ out buckets'
  fits : SelfSized measureOutput → EmittedFits s → measureOutput out ≤ limit ∨ SaysOverBudget out

theorem reported_install {budget : Option Nat} {overBudget : Bool} {causes : List String} (s : RoomSnapshot) :
    Reported (installComposition budget buckets overBudget causes s) buckets := .inr ⟨_, rfl, rfl⟩

theorem emittedFits_install {budget : Option Nat} {overBudget : Bool} {causes : List String} (h : EmittedFits s) :
    EmittedFits (installComposition budget buckets overBudget causes s) := by
  rintro c hc
  obtain rfl := Option.some.inj hc
  show (s.composition.map (·.emittedBytes)).getD 0 < _
  cases hs : s.composition with
  | none => decide
  | some c => exact h c hs

theorem emittedFits_stabilize (hself : SelfSized measureOutput) (h : EmittedFits s) :
    EmittedFits (stabilizeEmittedBytes measureOutput stabilizeRounds s).1 := by
  cases hc : s.composition with
  | none => rwa [stabilize_none hc]
  | some c =>
    obtain ⟨n, hbound, hn, hfixed⟩ := stabilize_settles hself h hc
    rw [hn]
    exact emittedFits_withEmitted hbound

theorem budgetedItems_withComposition (s : RoomSnapshot) (c : Option RoomComposition) :
    budgetedItems { s with composition := c } = budgetedItems s := by
  rw [budgetedItems_eq, budgetedItems_eq]
  rfl

theorem Fitted.of_kept {s₁ out : RoomSnapshot} {buckets₁ : Buckets} (hkept : Kept score tool s s₁)
    (htallied : ∀ s₀, TrueTotals s₀ → neverCut s = neverCut s₀ → Tallied s₀ s buckets → Tallied s₀ s₁ buckets₁)
    (hfits : SelfSized measureOutput → EmittedFits s → EmittedFits s₁)
    (h : Fitted score tool measureOutput limit s₁ out buckets₁) :
    Fitted score tool measureOutput limit s out buckets where
  kept := hkept.trans h.kept
  reported := by
    obtain ⟨buckets', hreported, hsaid⟩ := h.reported
    exact ⟨buckets', hreported, fun s₀ htrue hframe hbefore =>
      hsaid s₀ htrue (hkept.neverCut.trans hframe) (htallied s₀ htrue hframe hbefore)⟩
  fits hself hs := h.fits hself (hfits hself hs)

variable (sizes score tool measureOutput) in
/-- **The outer loop ends**, with a room that fits or says that it does not. -/
theorem fitLoop_spec (budget : Option Nat) (limit fuel : Nat) (hfuel : budgetedItems s < fuel)
    (hreported : Reported s buckets) :
    ∃ out, fitLoop sizes score tool measureOutput budget limit fuel (s, buckets) = some out ∧
      Fitted score tool measureOutput limit s out buckets := by
  induction fuel generalizing s buckets with
  | zero => exact absurd hfuel (Nat.not_lt_zero _)
  | succ fuel ih =>
    obtain ⟨n, hroom, hbytes⟩ := stabilize_spec measureOutput stabilizeRounds s
    have hitems : budgetedItems (withEmitted s n) = budgetedItems s := budgetedItems_withComposition s _
    have hsettled : SelfSized measureOutput → EmittedFits s → EmittedFits (withEmitted s n) := fun hself hfits =>
      hroom ▸ emittedFits_stabilize hself hfits
    rw [fitLoop, ← Prod.mk.eta (p := stabilizeEmittedBytes measureOutput stabilizeRounds s), hroom, hbytes]
    simp only []
    by_cases hle : measureOutput (withEmitted s n) ≤ limit
    · rw [if_pos hle]
      obtain ⟨m, hend, -⟩ := stabilize_spec measureOutput stabilizeRounds
        (clearOverBudget (withEmitted s n))
      refine ⟨_, rfl, ?_, ⟨buckets, ?_, fun s₀ _ _ hsaid => ?_⟩, fun hself hfits => .inl ?_⟩
      · rw [hend]
        exact (kept_withEmitted s n).trans ((kept_withComposition _ _).trans (kept_withEmitted _ m))
      · rw [hend]
        refine Reported.withEmitted ?_ m
        rcases hreported.withEmitted n with hnil | ⟨c, hc, hbuckets⟩
        · exact .inl hnil
        · refine .inr ⟨{ c with overBudget := false, overBudgetCauses := [] }, ?_, hbuckets⟩
          rw [clearOverBudget, hc]
          rfl
      · rw [hend]
        exact tallied_withComposition (tallied_withComposition (tallied_withComposition hsaid))
      · rw [← hroom]
        exact measured_le hself hfits (hbytes.trans_le hle)
    · rw [if_neg hle]
      obtain ⟨s₁, buckets₁, trimmed, hrun, htrims, hless, hsame⟩ := trimUntil_spec sizes score tool
        buckets limit (budgetedItems (withEmitted s n) + 1) (measureOutput (withEmitted s n)) (Nat.lt_succ_self _)
      rw [hrun, Option.bind_some]
      have hkept : Kept score tool s s₁ := (kept_withEmitted s n).trans htrims.kept
      cases trimmed with
      | true =>
        have hitems : budgetedItems (installComposition budget buckets₁ false [] s₁) < fuel := by
          have := hless rfl
          rw [installComposition, budgetedItems_withComposition]
          omega
        obtain ⟨out, hout, hfitted⟩ := ih hitems (reported_install s₁)
        refine ⟨out, hout, hfitted.of_kept (hkept.trans (kept_withComposition _ _)) (fun s₀ htrue hframe hsaid => ?_)
          fun hself hfits => emittedFits_install ?_⟩
        · exact tallied_withComposition (htrims.tallied s₀ htrue hframe (tallied_withComposition hsaid))
        · intro c hc
          exact hsettled hself hfits c (htrims.beside.composition ▸ hc)
      | false =>
        obtain ⟨rfl, rfl⟩ := hsame rfl
        obtain ⟨m, hend, -⟩ := stabilize_spec measureOutput stabilizeRounds
          (installComposition budget buckets₁ true (exactOverBudgetCauses sizes tool (withEmitted s n))
            (withEmitted s n))
        refine ⟨_, rfl, ?_, ⟨buckets₁, ?_, fun s₀ _ _ hsaid => ?_⟩, fun _ _ => .inr ?_⟩
        · rw [hend]
          exact hkept.trans ((kept_withComposition _ _).trans (kept_withEmitted _ m))
        · rw [hend]
          exact (reported_install _).withEmitted m
        · rw [hend]
          exact tallied_withComposition (tallied_withComposition (tallied_withComposition hsaid))
        · rw [hend]
          exact ⟨_, rfl, rfl⟩

/-! ## The composed room -/

/-- What a composed room is to the room it was composed from. -/
structure Composed (score : Fact → κ) (tool : Option String) (measureOutput : RoomSnapshot → Nat)
    (budget : Option Nat) (s out : RoomSnapshot) : Prop where
  kept : Kept score tool s out
  counted : TrueTotals s → ∀ cut : Cuttable, (cut.of out).length < (cut.of s).length →
    ∃ c e, out.composition = some c ∧ Buckets.get c.buckets cut.name = some e ∧ e.total = e.emitted + e.omitted ∧
      e.emitted = (cut.of out).length ∧ e.total = (cut.of s).length
  fits : SelfSized measureOutput → EmittedFits s → ∀ limit, budget = some limit →
    measureOutput out ≤ limit ∨ SaysOverBudget out

theorem counted_of_tallied {out : RoomSnapshot} (hsaid : Tallied s out buckets) (hreported : Reported out buckets)
    (cut : Cuttable) (hcut : (cut.of out).length < (cut.of s).length) :
    ∃ c e, out.composition = some c ∧ Buckets.get c.buckets cut.name = some e ∧ e.total = e.emitted + e.omitted ∧
      e.emitted = (cut.of out).length ∧ e.total = (cut.of s).length := by
  obtain ⟨e, hget, htotal, hemitted, homitted⟩ := hsaid cut hcut
  rcases hreported with hnil | ⟨c, hc, rfl⟩
  · exact absurd hnil (Buckets.ne_nil_of_get hget)
  · exact ⟨c, e, hc, hget, by omega, hemitted, htotal⟩

theorem TrueTotals.honorArchive (h : TrueTotals s) (includeArchived : Bool) :
    TrueTotals (honorArchive includeArchived s).1 := by
  rw [Composition.honorArchive]
  split
  · refine ⟨fun b => ?_, h.unconsumed⟩
    have hb := h.budgeted b
    cases b <;> exact hb
  · exact h

theorem composition_honorArchive (includeArchived : Bool) (s : RoomSnapshot) :
    (honorArchive includeArchived s).1.composition = s.composition := by
  rw [honorArchive]
  split <;> rfl

variable (sizes score tool) in
/-- Both passes in front of the measurement. -/
theorem filled_spec (includeArchived : Bool) (budget : Nat) (s : RoomSnapshot) :
    ∃ s' buckets' causes, applyBudget sizes score tool budget (honorArchive includeArchived s).1
        (honorArchive includeArchived s).2 = ((s', buckets'), causes) ∧
      Kept score tool s s' ∧ s'.composition = s.composition ∧ (TrueTotals s → Tallied s s' buckets') := by
  obtain ⟨s', buckets', causes, hrun, hkept, hbeside, hsays, hstale⟩ := applyBudget_spec sizes score
    tool budget (honorArchive includeArchived s).1 (honorArchive includeArchived s).2
  refine ⟨s', buckets', causes, hrun, (honorArchive_kept includeArchived s).trans hkept,
    hbeside.composition.trans (composition_honorArchive includeArchived s), fun htrue cut => ?_⟩
  obtain ⟨hbudgeted, hunconsumed⟩ := hsays (htrue.honorArchive includeArchived)
  have hother : ∀ b, bucketRef (honorArchive includeArchived s).1 b = bucketRef s b := fun b => by
    rw [honorArchive]
    split <;> cases b <;> rfl
  cases cut with
  | budgeted b =>
    have hb := hbudgeted b
    rw [hother b] at hb
    exact hb
  | unconsumedArtifacts =>
    have hsame : (honorArchive includeArchived s).1.unconsumedArtifacts = s.unconsumedArtifacts := by
      rw [honorArchive]
      split <;> rfl
    rw [hsame] at hunconsumed
    exact hunconsumed
  | staleFacts =>
    have hsaid := honorArchive_tallied includeArchived s .staleFacts
    rw [Cuttable.of, Cuttable.of, ← hbeside.staleFacts] at hsaid
    intro hcut
    show ∃ e, buckets'.get "stale_facts" = some e ∧ _
    rw [hstale]
    exact hsaid hcut

/-- What stands between the passes and the measurement: the block is put beside the buckets, or not. -/
structure Beside (score : Fact → κ) (tool : Option String) (s s' : RoomSnapshot) (buckets : Buckets) : Prop where
  kept : Kept score tool s s'
  tallied : ∀ s₀, Tallied s₀ s buckets → Tallied s₀ s' buckets
  emittedFits : EmittedFits s → EmittedFits s'

theorem beside_install (s : RoomSnapshot) (budget : Option Nat) (overBudget : Bool) (causes : List String) :
    Beside score tool s (installComposition budget buckets overBudget causes s) buckets :=
  ⟨kept_withComposition s _, fun _ => tallied_withComposition, emittedFits_install⟩

theorem beside_ite {p : Prop} [Decidable p] (budget : Option Nat) (overBudget : Bool) (causes : List String) :
    Beside score tool s (if p then installComposition budget buckets overBudget causes s else s) buckets := by
  split
  · exact beside_install s budget overBudget causes
  · exact ⟨Kept.refl s, fun _ h => h, id⟩

theorem reported_ite {p : Prop} [Decidable p] (budget : Option Nat) (overBudget : Bool) (causes : List String)
    (h : ¬p → Reported s buckets) :
    Reported (if p then installComposition budget buckets overBudget causes s else s) buckets := by
  split
  case isTrue => exact reported_install s
  case isFalse hp => exact h hp

end Ceiling

/-- **A composed room loses nothing silently.** Composing ends. Whatever the measure, every budgeted bucket keeps a
top, the handoffs of the caller stay, and nothing appears that was not there. If the totals of the room are true, the
block counts every omission; if the measured size counts its own digits, the room fits or says that it does not. -/
theorem compose_room_output_accounts {κ : Type} [LinearOrder κ] (sizes : Sizes) (score : Fact → κ)
    (tool : Option String) (measureOutput : RoomSnapshot → Nat) (roomBudget budgetOverride : Option Nat)
    (includeArchived : Bool) (s : RoomSnapshot) :
    ∃ out, composeRoomOutput sizes score tool measureOutput roomBudget budgetOverride includeArchived s = some out ∧
      Composed score tool measureOutput (budgetOf roomBudget budgetOverride includeArchived) s out := by
  rw [composeRoomOutput]
  cases budgetOf roomBudget budgetOverride includeArchived with
  | none =>
    obtain ⟨⟨s₁, buckets⟩, harchive⟩ : ∃ state, honorArchive includeArchived s = state := ⟨_, rfl⟩
    have hkept : Kept score tool s s₁ := by simpa only [harchive] using honorArchive_kept includeArchived s
    have htallied : Tallied s s₁ buckets := by simpa only [harchive] using honorArchive_tallied includeArchived s
    simp only [harchive]
    generalize hroom : (if ([] : List String) ≠ [] ∨ buckets ≠ [] then
      installComposition none buckets (decide (([] : List String) ≠ [])) [] s₁ else s₁) = s₂
    have hbeside : Beside score tool s₁ s₂ buckets := hroom ▸ beside_ite _ _ _
    have hreported : Reported s₂ buckets := hroom ▸ reported_ite _ _ _ fun hp =>
      .inl (of_not_not fun hne => hp (.inr hne))
    have hend : ∃ n, (if s₂.composition ≠ none
        then some (stabilizeEmittedBytes measureOutput stabilizeRounds s₂).1 else some s₂) =
          some (withEmitted s₂ n) := by
      split
      · obtain ⟨n, hn, -⟩ := stabilize_spec measureOutput stabilizeRounds s₂
        exact ⟨n, congrArg some hn⟩
      case isFalse hnone => exact ⟨0, congrArg some (withEmitted_of_none (of_not_not hnone) 0).symm⟩
    obtain ⟨n, hend⟩ := hend
    refine ⟨_, hend, (hkept.trans hbeside.kept).trans (kept_withEmitted s₂ n), fun _ => ?_, nofun⟩
    exact counted_of_tallied (tallied_withComposition (hbeside.tallied s htallied)) (hreported.withEmitted n)
  | some limit =>
    obtain ⟨s₁, buckets, causes, hrun, hkept, hblock, htallied⟩ :=
      filled_spec sizes score tool includeArchived limit s
    obtain ⟨⟨s₀, buckets₀⟩, harchive⟩ : ∃ state, honorArchive includeArchived s = state := ⟨_, rfl⟩
    rw [harchive] at hrun
    simp only [harchive, hrun]
    generalize hroom : (if causes ≠ [] ∨ buckets ≠ [] then
      installComposition (some limit) buckets (decide (causes ≠ [])) causes s₁ else s₁) = s₂
    have hbeside₂ : Beside score tool s₁ s₂ buckets := hroom ▸ beside_ite _ _ _
    have hreported₂ : Reported s₂ buckets := hroom ▸ reported_ite _ _ _ fun hp =>
      .inl (of_not_not fun hne => hp (.inr hne))
    generalize hstart : (if limit < measureOutput s₂ ∧ s₂.composition = none then
      installComposition (some limit) buckets false [] s₂ else s₂) = s₃
    have hbeside₃ : Beside score tool s₂ s₃ buckets := hstart ▸ beside_ite _ _ _
    have hreported₃ : Reported s₃ buckets := hstart ▸ reported_ite _ _ _ fun _ => hreported₂
    obtain ⟨out, hout, hfitted⟩ := fitLoop_spec sizes score tool measureOutput (some limit) limit
      (budgetedItems s₃ + 1) (Nat.lt_succ_self _) hreported₃
    have hkept₃ : Kept score tool s s₃ := hkept.trans (hbeside₂.kept.trans hbeside₃.kept)
    refine ⟨out, hout, hkept₃.trans hfitted.kept, fun htrue => ?_, fun hself hfits limit' hlimit => ?_⟩
    · obtain ⟨buckets', hreported, hsaid⟩ := hfitted.reported
      exact counted_of_tallied (hsaid s htrue hkept₃.neverCut
        (hbeside₃.tallied s (hbeside₂.tallied s (htallied htrue)))) hreported
    · obtain rfl := Option.some.inj hlimit
      have hfits₁ : EmittedFits s₁ := fun c hc => hfits c (hblock ▸ hc)
      exact hfitted.fits hself (hbeside₃.emittedFits (hbeside₂.emittedFits hfits₁))

/-! ## What the conditions are for -/

/-- The same of every room and of every measure. -/
structure LosesNothing {κ : Type} [LinearOrder κ] (score : Fact → κ) (tool : Option String)
    (measureOutput : RoomSnapshot → Nat) (budget : Option Nat) (s out : RoomSnapshot) : Prop where
  kept : Kept score tool s out
  counted : ∀ cut : Cuttable, (cut.of out).length < (cut.of s).length →
    ∃ c e, out.composition = some c ∧ Buckets.get c.buckets cut.name = some e ∧ e.total = e.emitted + e.omitted ∧
      e.emitted = (cut.of out).length ∧ e.total = (cut.of s).length
  fits : ∀ limit, budget = some limit → measureOutput out ≤ limit ∨ SaysOverBudget out

/-- The measured size does not grow when items are removed. -/
def RemovalMonotone (measureOutput : RoomSnapshot → Nat) : Prop :=
  ∀ s s', (∀ cut : Cuttable, (cut.of s').Sublist (cut.of s)) → neverCut s' = neverCut s →
    s'.composition = s.composition → measureOutput s' ≤ measureOutput s

namespace Sample

def sizes : Sizes := ⟨fun _ => 100, fun _ => 120, fun _ => 2⟩

def decision (n : Int) : Fact :=
  { eventId := "d", seq := n, kind := .decision, tool := some "alice", subject := "parser"
    createdAt := "2026-01-01T00:00:00Z" }

/-- Two decisions, in a room that counts none. -/
def miscounted : RoomSnapshot :=
  { WireSample.snapshot with openHandoffs := [], currentDecisions := [decision 1, decision 2], totals := {} }

/-- One archived decision, counted. -/
def archived : RoomSnapshot :=
  { WireSample.snapshot with openHandoffs := [], staleFacts := [decision 1], totals := { staleFacts := 1 } }

/-- A measure that runs in a circle on what it is told of itself. -/
def circling (s : RoomSnapshot) : Nat :=
  match s.composition.map (·.emittedBytes) with
  | some 99 => 101
  | some 101 => 98
  | _ => 99

/-- A measure of a text that states its length. -/
def stating (s : RoomSnapshot) : Nat :=
  match s.composition with
  | none => 1000
  | some c => 1000 + min (width c.emittedBytes) 20

theorem selfSized_stating : SelfSized stating where
  usize s _ := by
    rw [stating]
    split <;> omega
  counts s hs := by
    refine ⟨1000, fun n hn => ?_⟩
    obtain ⟨c, hc⟩ := Option.ne_none_iff_exists'.mp hs
    rw [stating, withEmitted, hc]
    exact congrArg (1000 + ·) (min_eq_left (width_le_of_usize n hn))
  quiet s := by
    rw [stating, stating, clearOverBudget]
    cases s.composition <;> exact le_rfl

/-- A room with 995 bytes entered. -/
def entered995 : RoomSnapshot := withEmitted (installComposition none [] false [] archived) 995

end Sample

open Sample in
/-- Around a power of ten: with three digits the text has 1003 bytes, with four 1004. -/
theorem emitted_bytes_converge_995 :
    stating entered995 = 1003 ∧
      ∃ out bytes, stabilizeEmittedBytes stating stabilizeRounds entered995 = (out, bytes) ∧ bytes = 1004 ∧
        stating out = 1004 ∧ ∀ c, out.composition = some c → c.emittedBytes = 1004 := by
  have hfits : EmittedFits entered995 := emittedFits_withEmitted (by decide)
  obtain ⟨out, bytes, hrun, hbytes, -, hentered⟩ :=
    emitted_bytes_converge stating entered995 (selfSized_stating.sizedByWidth entered995) hfits
  have h1004 : (stabilizeEmittedBytes stating stabilizeRounds entered995).2 = 1004 := by decide
  simp only [hrun] at h1004
  refine ⟨by decide, out, bytes, hrun, h1004, by rw [← hbytes, h1004], ?_⟩
  intro c hc
  rw [hentered c hc, ← hbytes, h1004]

open Sample in
/-- **Neither of the two holds of every room and measure.** Where the totals are not those of the room, trimming
writes them into the block; where the measure circles, eight rounds end within the ceiling, eight more beyond it. -/
theorem composed_rooms_miscount :
    RemovalMonotone (fun _ => 1000) ∧
      (¬∃ out, composeRoomOutput sizes (fun _ => 0) none (fun _ => 1000) none (some 500) false miscounted = some out ∧
        LosesNothing (fun _ => 0) none (fun _ => 1000) (some 500) miscounted out) ∧
      TrueTotals archived ∧ RemovalMonotone circling ∧
      ¬∃ out, composeRoomOutput sizes (fun _ => 0) none circling none (some 100) false archived = some out ∧
        LosesNothing (fun _ => 0) none circling (some 100) archived out := by
  refine ⟨fun _ _ _ _ _ => le_rfl, ?_, ⟨fun b => by cases b <;> rfl, rfl⟩, fun _ _ _ _ h => ?_, ?_⟩
  · rintro ⟨out, hout, hloses⟩
    have hrun : (composeRoomOutput sizes (fun _ => 0) none (fun _ => 1000) none (some 500) false miscounted).map
        (fun out => (out.currentDecisions.length, out.composition.map fun c =>
          (Buckets.get c.buckets "current_decisions").map (·.total))) = some (1, some (some 0)) := by decide
    rw [hout, Option.map_some, Option.some.injEq, Prod.mk.injEq] at hrun
    have hcut : out.currentDecisions.length < miscounted.currentDecisions.length := hrun.1.trans_lt (by decide)
    obtain ⟨c, e, hc, hget, -, -, htotal⟩ := hloses.counted (.budgeted .currentDecisions) hcut
    have hzero := hrun.2
    rw [hc] at hzero
    change some ((Buckets.get c.buckets "current_decisions").map _) = _ at hzero
    rw [show Buckets.get c.buckets "current_decisions" = some e from hget, Option.map_some, Option.some.injEq,
      Option.some.injEq, htotal] at hzero
    exact absurd hzero (by decide)
  · rw [circling, circling, h]
  · rintro ⟨out, hout, hloses⟩
    have hrun : (composeRoomOutput sizes (fun _ => 0) none circling none (some 100) false archived).map
        (fun out => (circling out, out.composition.map (·.overBudget))) = some (101, some false) := by decide
    rw [hout, Option.map_some, Option.some.injEq, Prod.mk.injEq] at hrun
    rcases hloses.fits 100 rfl with hle | ⟨c, hc, hover⟩
    · rw [hrun.1] at hle
      exact absurd hle (by decide)
    · have hsilent := hrun.2
      rw [hc, Option.map_some, hover] at hsilent
      cases hsilent

open Sample in
/-- An archived decision is left out and counted, and the room says that it is too long. -/
theorem compose_room_output_accounts_archived :
    ∃ out, composeRoomOutput sizes (fun _ => 0) none stating none (some 100) false archived = some out ∧
      (∃ c e, out.composition = some c ∧ Buckets.get c.buckets "stale_facts" = some e ∧
        e.total = e.emitted + e.omitted ∧ e.emitted = out.staleFacts.length ∧ e.total = 1) ∧
      (stating out ≤ 100 ∨ SaysOverBudget out) := by
  obtain ⟨out, hout, hcomposed⟩ := compose_room_output_accounts sizes (fun _ => 0) none stating none (some 100) false
    archived
  have hrun : (composeRoomOutput sizes (fun _ => 0) none stating none (some 100) false archived).map
      (fun out => out.staleFacts.length) = some 0 := by decide
  rw [hout, Option.map_some, Option.some.injEq] at hrun
  have htrue : TrueTotals archived := ⟨fun b => by cases b <;> rfl, rfl⟩
  have hcut : out.staleFacts.length < archived.staleFacts.length := hrun.trans_lt (by decide)
  exact ⟨out, hout, hcomposed.counted htrue .staleFacts hcut,
    hcomposed.fits selfSized_stating (fun c hc => by cases hc) 100 rfl⟩

end RallyPoint.Wire.Composition
