/-
# RallyPoint.LivenessWindow — the arithmetic of the adaptive window (`liveness.rs`, `hooks_config.rs`, `store.rs`).

A tool counts as silent when its age exceeds `interval * multiplier + grace` seconds. The interval is what the
tool's newest presence or session row declares in its evidence, else the configured cadence; the other two come
from the configuration files or the environment. Every one of them is checked for its sign and none for its size,
and the source multiplies and adds plainly in `i64`.
-/
import RallyPoint.Lib.OrderedMap
import RallyPoint.Staleness

namespace RallyPoint

open Lib

/-! ## The configuration -/

/-- Where the policy comes from: the user's file, when there is a home to look in, the repository's, and the
environment. -/
structure CoordinationSources where
  user : Option (Result Value)
  repo : Result Value
  env : String → EnvVar

/-- An integer member of the `coordination` object, where it passes its guard. -/
def coordMember (coord : Value) (key : String) (guard : Int → Bool) (slot : Int) : Int :=
  (((coord.get key).bind Value.asI64).filter guard).getD slot

def positive (v : Int) : Bool := decide (0 < v)

def notNegative (v : Int) : Bool := decide (0 ≤ v)

/-- `coordination_from_value`, the integers the window and the reclaim timeouts use. -/
def coordinationFromValue (value : Value) (into : CoordinationConfig) : CoordinationConfig :=
  match value.get "coordination" with
  | some (.object fields) =>
    let coord := Value.object fields
    { into with
      reclaimSmallMinutes := coordMember coord "reclaim_small_minutes" positive into.reclaimSmallMinutes
      reclaimLargeMinutes := coordMember coord "reclaim_large_minutes" positive into.reclaimLargeMinutes
      defaultCadenceSecs := coordMember coord "default_cadence_secs" positive into.defaultCadenceSecs
      missMultiplier := coordMember coord "miss_multiplier" positive into.missMultiplier
      graceSecs := coordMember coord "grace_secs" notNegative into.graceSecs }
  | _ => into

/-- `coord_env_i64`: an override must be positive. -/
def coordEnvI64 (env : String → EnvVar) (name : String) (slot : Int) : Int :=
  match env name with
  | .value raw => ((parseI64 (trim raw)).filter positive).getD slot
  | _ => slot

/-- The defaults with the user's file on top of them. -/
def userCoordination (sources : CoordinationSources) : Result CoordinationConfig :=
  match sources.user with
  | none => .ok {}
  | some file => file.map fun value => coordinationFromValue value {}

/-- `resolve_coordination`: default, user, repository, environment. -/
def resolveCoordination (sources : CoordinationSources) : Result CoordinationConfig := do
  let user ← userCoordination sources
  let repo ← sources.repo
  let cfg := coordinationFromValue repo user
  .ok { cfg with
    reclaimSmallMinutes := coordEnvI64 sources.env "RALLY_RECLAIM_SMALL_MINUTES" cfg.reclaimSmallMinutes
    reclaimLargeMinutes := coordEnvI64 sources.env "RALLY_RECLAIM_LARGE_MINUTES" cfg.reclaimLargeMinutes
    defaultCadenceSecs := coordEnvI64 sources.env "RALLY_DEFAULT_CADENCE_SECS" cfg.defaultCadenceSecs
    missMultiplier := coordEnvI64 sources.env "RALLY_MISS_MULTIPLIER" cfg.missMultiplier
    graceSecs := coordEnvI64 sources.env "RALLY_GRACE_SECS" cfg.graceSecs }

/-- The policy a projection uses: the default one when a file cannot be read. -/
def projectionCoordination (sources : CoordinationSources) : CoordinationConfig :=
  (resolveCoordination sources).toOption.getD {}

/-- What the loader checks of the window's three integers. -/
structure WindowPolicy (coord : CoordinationConfig) : Prop where
  cadence : 0 < coord.defaultCadenceSecs
  multiplier : 0 < coord.missMultiplier
  grace : 0 ≤ coord.graceSecs

/-! ## The declared cadences -/

/-- `planned_heartbeat_secs` of one row, if it is valid there. -/
def declaredCadence (fact : Fact) : Option Int :=
  fact.evidence.findSome? fun item =>
    ((stripPrefix "planned_heartbeat_secs:" item).bind fun value => parseI64 (trim value)).filter
      fun secs => decide (secs > 0)

/-- `entry.or_insert(fact)`, replaced by a row that is not older. -/
def newerRow (fact : Fact) (entry : Option Fact) : Fact :=
  match entry with
  | none => fact
  | some old => if old.seq ≤ fact.seq then fact else old

/-- `planned_cadences_by_tool`. -/
def plannedCadencesByTool (facts : List Fact) : List (String × Option Int) :=
  let rows := facts.filterMap fun fact =>
    if fact.kind == .presence || fact.kind == .session then fact.tool.map (·, fact) else none
  (OrderedMap.updateAll newerRow [] rows).map fun entry => (entry.1, declaredCadence entry.2)

/-- **The map of cadences** has under a tool what its newest presence or session row declares. -/
theorem get_plannedCadencesByTool (facts : List Fact) (tool : String) :
    (OrderedMap.get (plannedCadencesByTool facts) tool).join = plannedCadence facts tool := by
  have hrows : ∀ facts : List Fact, OrderedMap.valuesAt (facts.filterMap fun fact =>
      if fact.kind == .presence || fact.kind == .session then fact.tool.map (·, fact) else none) tool =
      facts.filter fun fact => (fact.kind == .presence || fact.kind == .session) && fact.tool == some tool := by
    intro facts
    induction facts with
    | nil => rfl
    | cons fact facts ih =>
      unfold OrderedMap.valuesAt at ih ⊢
      rw [List.filterMap_cons, List.filter_cons]
      by_cases hkind : (fact.kind == .presence || fact.kind == .session) = true
      · cases htool : fact.tool with
        | none => simpa [hkind] using ih
        | some t => by_cases ht : t = tool <;> simpa [hkind, ht] using ih
      · simpa [hkind] using ih
  have hnewest : ∀ rows : List Fact, rows.foldl (fun entry fact => some (newerRow fact entry)) none =
      maxByKey (·.seq) rows := by
    intro rows
    rw [maxByKey]
    congr 1
    funext entry fact
    cases entry with
    | none => rfl
    | some old =>
      rw [newerRow, maxStep]
      split_ifs <;> rfl
  unfold plannedCadencesByTool
  rw [OrderedMap.get_map, OrderedMap.get_updateAll List.Pairwise.nil, hrows, OrderedMap.get_nil, hnewest]
  rw [plannedCadence]
  cases maxByKey (·.seq) (facts.filter fun fact =>
    (fact.kind == .presence || fact.kind == .session) && fact.tool == some tool) <;> rfl

/-! ## The window -/

/-- The range of `i64`. -/
def InI64 (n : Int) : Prop := -i64Bound ≤ n ∧ n < i64Bound

theorem wrapI64_of_inI64 {n : Int} (h : InI64 n) : wrapI64 n = n := by
  obtain ⟨hlow, hhigh⟩ := h
  simp only [i64Bound] at hlow hhigh
  rw [wrapI64]
  apply Int.bmod_eq_of_le <;> omega

section Window

variable (coord : CoordinationConfig) (facts : List Fact) (tool : String)

/-- The interval the projection plans with for a tool. -/
def plannedInterval : Int :=
  ((OrderedMap.get (plannedCadencesByTool facts) tool).join).getD coord.defaultCadenceSecs

/-- The window of a tool's roster row, as the projection computes it. -/
def squadWindow : Int :=
  adaptiveWindowSecs (plannedInterval coord facts tool) coord.defaultCadenceSecs coord.missMultiplier coord.graceSecs

/-- The window without a bound on integers, from what the newest row of the tool declares. -/
def exactWindow : Int :=
  (plannedCadence facts tool).getD coord.defaultCadenceSecs * coord.missMultiplier + coord.graceSecs

/-- Nothing overflows on the way to a tool's window, the window is positive, and a comparison with it is a
comparison with the exact one. -/
structure SafeWindow : Prop where
  product : InI64 (plannedInterval coord facts tool * coord.missMultiplier)
  sum : InI64 (plannedInterval coord facts tool * coord.missMultiplier + coord.graceSecs)
  positive : 0 < squadWindow coord facts tool
  verdict : ∀ ages, isLive ages (squadWindow coord facts tool) = isLive ages (exactWindow coord facts tool)

end Window

section Spec

variable {coord : CoordinationConfig} {facts : List Fact} {tool : String} {sources : CoordinationSources}

theorem declaredCadence_pos {fact : Fact} {secs : Int} (h : declaredCadence fact = some secs) : 0 < secs := by
  obtain ⟨item, -, hitem⟩ := List.exists_of_findSome?_eq_some h
  simpa using (Option.filter_eq_some_iff.mp hitem).2

theorem plannedInterval_eq :
    plannedInterval coord facts tool = (plannedCadence facts tool).getD coord.defaultCadenceSecs := by
  rw [plannedInterval, get_plannedCadencesByTool]

theorem exactWindow_eq :
    exactWindow coord facts tool = plannedInterval coord facts tool * coord.missMultiplier + coord.graceSecs := by
  rw [plannedInterval_eq, exactWindow]

/-- The window the roster uses is the one the stale gates are proved about. -/
theorem squadWindow_eq_signalWindow : squadWindow coord facts tool = signalWindow coord facts tool := by
  rw [squadWindow, signalWindow, plannedInterval_eq]

theorem plannedInterval_pos (h : WindowPolicy coord) : 0 < plannedInterval coord facts tool := by
  rw [plannedInterval_eq]
  cases hplanned : plannedCadence facts tool with
  | none => exact h.cadence
  | some secs =>
    obtain ⟨fact, -, hfact⟩ := Option.bind_eq_some_iff.mp hplanned
    exact declaredCadence_pos hfact

/-- Under a checked policy the guards of `adaptive_window_secs` change nothing. -/
theorem squadWindow_eq (h : WindowPolicy coord) :
    squadWindow coord facts tool =
      wrapI64 (wrapI64 (plannedInterval coord facts tool * coord.missMultiplier) + coord.graceSecs) := by
  have hmult : max coord.missMultiplier 1 = coord.missMultiplier := max_eq_left h.multiplier
  have hgrace : max coord.graceSecs 0 = coord.graceSecs := max_eq_left h.grace
  rw [squadWindow, adaptiveWindowSecs, if_pos (plannedInterval_pos h), hmult, hgrace]

/-- **A window is safe** exactly when the exact one is a 64-bit integer. -/
theorem safeWindow_iff (h : WindowPolicy coord) :
    SafeWindow coord facts tool ↔ exactWindow coord facts tool < i64Bound := by
  rw [exactWindow_eq]
  constructor
  · exact fun hsafe => hsafe.sum.2
  · intro hlt
    have hgrace := h.grace
    have hproduct : 0 < plannedInterval coord facts tool * coord.missMultiplier :=
      Int.mul_pos (plannedInterval_pos h) h.multiplier
    have hin : InI64 (plannedInterval coord facts tool * coord.missMultiplier) := by
      simp only [InI64, i64Bound] at hlt ⊢
      omega
    have hsum : InI64 (plannedInterval coord facts tool * coord.missMultiplier + coord.graceSecs) := by
      refine ⟨?_, hlt⟩
      simp only [i64Bound]
      omega
    have heq : squadWindow coord facts tool = exactWindow coord facts tool := by
      rw [squadWindow_eq h, wrapI64_of_inI64 hin, wrapI64_of_inI64 hsum, exactWindow_eq]
    refine ⟨hin, hsum, ?_, fun ages => by rw [heq]⟩
    rw [heq, exactWindow_eq]
    omega

/-! ## What the loader lets through -/

theorem coordMember_holds {coord : Value} {key : String} {guard : Int → Bool} {slot : Int} (h : guard slot = true) :
    guard (coordMember coord key guard slot) = true := by
  rw [coordMember]
  cases hread : ((coord.get key).bind Value.asI64).filter guard with
  | none => exact h
  | some v => exact (Option.filter_eq_some_iff.mp hread).2

theorem coordEnvI64_holds {env : String → EnvVar} {name : String} {slot : Int} {guard : Int → Bool}
    (hslot : guard slot = true) (hguard : ∀ v, positive v = true → guard v = true) :
    guard (coordEnvI64 env name slot) = true := by
  rw [coordEnvI64]
  cases env name with
  | notPresent => exact hslot
  | notUnicode => exact hslot
  | value raw =>
    change guard (((parseI64 (trim raw)).filter positive).getD slot) = true
    cases hread : (parseI64 (trim raw)).filter positive with
    | none => exact hslot
    | some v => exact hguard v (Option.filter_eq_some_iff.mp hread).2

theorem windowPolicy_default : WindowPolicy {} := ⟨by decide, by decide, by decide⟩

theorem windowPolicy_coordinationFromValue {value : Value} (h : WindowPolicy coord) :
    WindowPolicy (coordinationFromValue value coord) := by
  have hcadence : positive coord.defaultCadenceSecs = true := decide_eq_true h.cadence
  have hmult : positive coord.missMultiplier = true := decide_eq_true h.multiplier
  have hgrace : notNegative coord.graceSecs = true := decide_eq_true h.grace
  unfold coordinationFromValue
  split
  · exact ⟨of_decide_eq_true (coordMember_holds hcadence), of_decide_eq_true (coordMember_holds hmult),
      of_decide_eq_true (coordMember_holds hgrace)⟩
  · exact h

theorem notNegative_of_positive {v : Int} (h : positive v = true) : notNegative v = true := by
  have hv : 0 < v := of_decide_eq_true h
  exact decide_eq_true (by omega)

/-- **The loader's policy** has a positive cadence, a positive multiplier and a grace that is not negative. -/
theorem windowPolicy_projectionCoordination : WindowPolicy (projectionCoordination sources) := by
  rw [projectionCoordination]
  cases hread : resolveCoordination sources with
  | error e => exact windowPolicy_default
  | ok cfg =>
    obtain ⟨user, huser, hrest⟩ := bind_ok_iff.mp hread
    obtain ⟨repo, -, hcfg⟩ := bind_ok_iff.mp hrest
    have hpolicy : WindowPolicy user := by
      rw [userCoordination] at huser
      cases hfile : sources.user with
      | none =>
        rw [hfile] at huser
        cases huser
        exact windowPolicy_default
      | some file =>
        rw [hfile] at huser
        obtain ⟨value, -, rfl⟩ := map_eq_ok_iff.mp huser
        exact windowPolicy_coordinationFromValue windowPolicy_default
    have hmerged := @windowPolicy_coordinationFromValue user repo hpolicy
    cases hcfg
    exact ⟨of_decide_eq_true (coordEnvI64_holds (decide_eq_true hmerged.cadence) fun v hv => hv),
      of_decide_eq_true (coordEnvI64_holds (decide_eq_true hmerged.multiplier) fun v hv => hv),
      of_decide_eq_true (coordEnvI64_holds (decide_eq_true hmerged.grace) fun v hv => notNegative_of_positive hv)⟩

/-! ## The ages -/

/-- The seconds of the instants `chrono` can hold, which end some 262000 years from the epoch. -/
def chronoBound : Int := 8334601228800

/-- Every timestamp that parses is one of them, and so is the clock. -/
structure ClockRange (ext : Externals) (nowSecs : Int) : Prop where
  parsed : ∀ raw t, ext.parseFromRfc3339 raw = some t → -chronoBound ≤ timestamp t ∧ timestamp t ≤ chronoBound
  now : 0 ≤ nowSecs ∧ nowSecs ≤ chronoBound

variable {ext : Externals} {nowSecs : Int}

theorem inI64_sub_timestamp {raw : String} {t : Int} (h : ClockRange ext nowSecs)
    (hparse : ext.parseFromRfc3339 raw = some t) : InI64 (nowSecs - timestamp t) := by
  have ht := h.parsed raw t hparse
  have hnow := h.now
  simp only [InI64, chronoBound, i64Bound] at ht hnow ⊢
  omega

theorem inI64_zero : InI64 0 := ⟨by decide, by decide⟩

theorem inI64_factAgeSecs {fact : Fact} (h : ClockRange ext nowSecs) : InI64 (factAgeSecs ext fact nowSecs) := by
  rw [factAgeSecs]
  cases hparse : ext.parseFromRfc3339 fact.createdAt with
  | none => exact inI64_zero
  | some t => exact inI64_sub_timestamp h hparse

theorem exists_factAge_of_min {rows : List Fact} {age : Int}
    (h : (rows.map fun fact => factAgeSecs ext fact nowSecs).min? = some age) :
    ∃ fact, factAgeSecs ext fact nowSecs = age := by
  obtain ⟨fact, -, hage⟩ := List.mem_map.mp (List.min?_mem h)
  exact ⟨fact, hage⟩

/-- **Every age a verdict compares** was subtracted without overflow. -/
theorem inI64_of_mem_signalAges {ts : String} {age : Int} (h : ClockRange ext nowSecs)
    (hmem : some age ∈ signalAges ext facts tool nowSecs ts) : InI64 age := by
  have hfact : ∀ {fact : Fact}, factAgeSecs ext fact nowSecs = age → InI64 age :=
    fun heq => heq ▸ inI64_factAgeSecs h
  simp only [signalAges, List.mem_cons, List.not_mem_nil, or_false] at hmem
  rcases hmem with hbeat | hinject | hprogress | hplan
  · cases hparse : ext.parseFromRfc3339 ts with
    | none =>
      rw [hparse] at hbeat
      have hage : age = 0 := by simpa using hbeat
      exact hage ▸ inI64_zero
    | some t =>
      rw [hparse] at hbeat
      have hage : age = nowSecs - timestamp t := by simpa using hbeat
      exact hage ▸ inI64_sub_timestamp h hparse
  · obtain ⟨fact, hage⟩ := exists_factAge_of_min hinject.symm
    exact hfact hage
  · unfold codeProgressAge at hprogress
    split at hprogress
    · rename_i newest prev rest hobs
      split_ifs at hprogress
      obtain rfl := Option.some.inj hprogress
      have hnewest : newest ∈ headObservations ext facts nowSecs tool := by
        have hrev : newest ∈ ((headObservations ext facts nowSecs tool).insertionSort
            fun a b => a.1 ≤ b.1).reverse := hobs ▸ List.mem_cons_self
        simpa [List.mem_insertionSort] using hrev
      obtain ⟨fact, -, hrow⟩ := List.mem_filterMap.mp hnewest
      obtain ⟨sha, -, rfl⟩ := Option.map_eq_some_iff.mp hrow
      exact inI64_factAgeSecs h
    · cases hprogress
  · obtain ⟨fact, hage⟩ := exists_factAge_of_min hplan.symm
    exact hfact hage

end Spec

/-! ## Which rooms have safe windows -/

/-- **The windows of a room** are computed without overflow and positive exactly when, for every tool with a row,
the planned interval times the multiplier plus the grace is a 64-bit integer; the ages they are compared with
always are. -/
theorem liveness_windows_safe_iff (sources : CoordinationSources) (facts : List Fact) :
    ((∀ tool ∈ authorTools facts, SafeWindow (projectionCoordination sources) facts tool) ↔
      ∀ tool ∈ authorTools facts, exactWindow (projectionCoordination sources) facts tool < i64Bound) ∧
    ∀ ext nowSecs, ClockRange ext nowSecs → ∀ tool ts age, some age ∈ signalAges ext facts tool nowSecs ts →
      InI64 age := by
  refine ⟨?_, fun ext nowSecs hclock tool ts age hmem => inI64_of_mem_signalAges hclock hmem⟩
  have hpolicy : WindowPolicy (projectionCoordination sources) := windowPolicy_projectionCoordination
  constructor
  · intro hsafe tool hmem
    exact (safeWindow_iff hpolicy).mp (hsafe tool hmem)
  · intro hlt tool hmem
    exact (safeWindow_iff hpolicy).mpr (hlt tool hmem)

section Sample

/-- No file has a `coordination` object and no variable is set. -/
def CoordinationSources.sample : CoordinationSources where
  user := none
  repo := .ok (.object [])
  env _ := .notPresent

/-- A peer that plans its next beat in some sixty billion years. -/
def boastfulPresence : Fact :=
  { kind := .presence, subject := "here", tool := some "tool-a",
    evidence := ["planned_heartbeat_secs:2000000000000000000"] }

/-- Six such beats wrap around to a window below zero, so the peer counts as silent at any age. -/
theorem boastful_window_overflows :
    "tool-a" ∈ authorTools [boastfulPresence] ∧
    ¬ SafeWindow (projectionCoordination CoordinationSources.sample) [boastfulPresence] "tool-a" ∧
    squadWindow (projectionCoordination CoordinationSources.sample) [boastfulPresence] "tool-a" < 0 := by
  have hwindow : squadWindow (projectionCoordination CoordinationSources.sample) [boastfulPresence] "tool-a" < 0 := by
    decide
  refine ⟨by decide, fun hsafe => ?_, hwindow⟩
  have hpos := hsafe.positive
  omega

end Sample

end RallyPoint
