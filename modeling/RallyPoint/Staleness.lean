/-
# RallyPoint.Staleness — whether silence, once long enough, stays long enough.

Two gates act on a silent tool: a peer may take over its claims, and anyone may take the lead seat from it.
Both compare the tool's last authored timestamp with a window, so on a ledger that does not grow both should
only ever turn on. The claim gate reads the map of authored timestamps and does. The seat gate reads the
roster, and the roster drops a row whose four signals are all past the adaptive window: a lead silent enough
to be dropped is treated as live again. `silenceGrows_iff` says exactly when that shows.
-/
import RallyPoint.LastSeen
import RallyPoint.LeadSeat

namespace RallyPoint

open Lib

/-! ## The roster row of one tool -/

theorem mem_authorTools {facts : List Fact} {tool : String} :
    tool ∈ authorTools facts ↔ ∃ fact ∈ facts, isAuthoredBy tool fact = true := by
  rw [authorTools, mem_dedupConsecutive, sortStrings, List.mem_insertionSort, List.mem_filterMap]
  simp only [List.mem_filter, isAuthoredBy, Bool.and_eq_true, beq_iff_eq]
  constructor
  · rintro ⟨fact, ⟨hmem, hauthored⟩, htool⟩
    exact ⟨fact, hmem, htool, hauthored⟩
  · rintro ⟨fact, hmem, htool, hauthored⟩
    exact ⟨fact, ⟨hmem, hauthored⟩, htool⟩

/-- A tool without an authored fact has no last-seen row. -/
theorem toolLast_eq_none {facts : List Fact} {tool : String}
    (h : ∀ fact ∈ facts, isAuthoredBy tool fact = false) : toolLast facts tool = none := by
  induction facts using List.reverseRecOn with
  | nil => rfl
  | append_singleton facts x ih =>
    have hx : (x.tool == some tool && !isSystemAuthored x) = false := h x (by simp)
    rw [toolLast_append_singleton, ih fun fact hmem => h fact (by simp [hmem])]
    simp [toolLastStep, hx]

section Roster

variable (ext : Externals) (coord : CoordinationConfig) (facts : List Fact) (tool : String)

/-- The four ages of a tool whose last-seen timestamp is `ts`. -/
def signalAges (nowSecs : Int) (ts : String) : List (Option Int) :=
  [some (nowSecs - ((ext.parseFromRfc3339 ts).map timestamp).getD nowSecs),
    newestFactAge ext facts nowSecs [.receipt, .wake, .handoff] tool,
    codeProgressAge ext facts nowSecs tool,
    planAge ext (projectActiveClaims ext facts) facts nowSecs tool]

/-- The adaptive window of a tool. -/
def signalWindow : Int :=
  adaptiveWindowSecs ((plannedCadence facts tool).getD coord.defaultCadenceSecs) coord.defaultCadenceSecs
    coord.missMultiplier coord.graceSecs

/-- The default room drops the tool's roster row: every one of its four signals is there and past the window. -/
def RosterDrops (nowSecs : Int) : Prop :=
  ∃ row, toolLast facts tool = some row ∧
    isLive (signalAges ext facts tool nowSecs row.2) (signalWindow coord facts tool) = .stale

end Roster

section Squad

variable {ext : Externals} {coord : CoordinationConfig} {facts F : List Fact} {tool : String} {nowSecs now : Int}

theorem squadOf_tool {includeArchived : Bool} {sq : Squad}
    (h : squadOf ext coord includeArchived nowSecs facts tool = some sq) : sq.tool = tool := by
  unfold squadOf at h
  obtain ⟨row, -, hrow⟩ := Option.bind_eq_some_iff.mp h
  dsimp only at hrow
  split at hrow
  · cases hrow
  · rw [← Option.some.inj hrow]

theorem squadOf_of_drops (h : RosterDrops ext coord facts tool nowSecs) :
    squadOf ext coord false nowSecs facts tool = none := by
  obtain ⟨row, hrow, hverdict⟩ := h
  unfold squadOf
  rw [hrow, Option.bind_some]
  exact if_pos (by simpa [signalAges, signalWindow] using hverdict)

/-- A row that is not dropped carries the tool's last authored timestamp. -/
theorem squadOf_of_kept (h : ¬RosterDrops ext coord facts tool nowSecs) :
    (squadOf ext coord false nowSecs facts tool).map (·.lastSeenTs) = authorLastSeen facts tool := by
  unfold squadOf authorLastSeen
  cases hrow : toolLast facts tool with
  | none => rfl
  | some row =>
    have hverdict : isLive (signalAges ext facts tool nowSecs row.2) (signalWindow coord facts tool) ≠ .stale :=
      fun hstale => h ⟨row, hrow, hstale⟩
    rw [Option.bind_some]
    dsimp only
    rw [if_neg (by simpa [signalAges, signalWindow] using hverdict)]
    rfl

/-- The roster of the room answers for each tool with that tool's row. -/
theorem squadFor_eq :
    (snapshotFromFactsWithPolicy ext F coord false now).squadFor tool =
      squadOf ext coord false (unixSecs now) (resolvedFacts F) tool := by
  show (projectSquads ext coord false (unixSecs now) (resolvedFacts F)).find? _ = _
  rw [projectSquads, List.find?_filterMap]
  have hnamed : ∀ other, (squadOf ext coord false (unixSecs now) (resolvedFacts F) other).any
      (fun sq => sq.tool == tool) = true → other = tool := by
    intro other hany
    obtain ⟨sq, hsq, htool⟩ := (Option.any_eq_true _ _).mp hany
    rw [← squadOf_tool hsq]
    exact beq_iff_eq.mp htool
  cases hsq : squadOf ext coord false (unixSecs now) (resolvedFacts F) tool with
  | none =>
    rw [Option.bind_eq_none_iff]
    intro other hother
    have hrow := List.find?_some hother
    rw [hnamed other hrow, hsq]
  | some sq =>
    -- a tool with a row is one of the authors the roster goes through
    have hauthor : tool ∈ authorTools (resolvedFacts F) := by
      by_contra hnone
      rw [mem_authorTools] at hnone
      have hlast : toolLast (resolvedFacts F) tool = none := toolLast_eq_none fun fact hmem =>
        Bool.eq_false_iff.mpr fun h => hnone ⟨fact, hmem, h⟩
      rw [squadOf, hlast] at hsq
      cases hsq
    have hany : (squadOf ext coord false (unixSecs now) (resolvedFacts F) tool).any
        (fun sq => sq.tool == tool) = true := by
      rw [hsq]
      simp [squadOf_tool hsq]
    cases hother : (authorTools (resolvedFacts F)).find? fun other =>
        (squadOf ext coord false (unixSecs now) (resolvedFacts F) other).any fun sq => sq.tool == tool with
    | none => exact absurd hany (List.find?_eq_none.mp hother tool hauthor)
    | some other =>
      have hrow := List.find?_some hother
      rw [Option.bind_some, hnamed other hrow, hsq]

end Squad

/-! ## Silence -/

theorem unixSecs_mono {now now' : Int} (h : now ≤ now') : unixSecs now ≤ unixSecs now' := by
  have hdiv : now / 1000000000 ≤ now' / 1000000000 := Int.ediv_le_ediv (by decide) h
  unfold unixSecs timestamp
  split_ifs <;> omega

/-- The tool's newest authored timestamp is readable and more than `window` seconds old. -/
def SilentPast (ext : Externals) (facts : List Fact) (tool : String) (window now : Int) : Prop :=
  ∃ ts seen, authorLastSeen facts tool = some ts ∧ ext.parseFromRfc3339 ts = some seen ∧
    unixSecs now - timestamp seen > window

section Gates

variable {ext : Externals} {coord : CoordinationConfig} {F facts : List Fact} {tool : String}
variable {window now now' : Int} {c : Fact}

theorem SilentPast.mono (hle : now ≤ now') (h : SilentPast ext facts tool window now) :
    SilentPast ext facts tool window now' := by
  obtain ⟨ts, seen, hts, hseen, hold⟩ := h
  have := unixSecs_mono hle
  exact ⟨ts, seen, hts, hseen, by omega⟩

/-- **The seat gate** measures the silence of a lead the roster still lists. -/
theorem leadIsStale_iff :
    leadIsStale ext (snapshotFromFactsWithPolicy ext F coord false now) coord now tool = true ↔
      SilentPast ext (resolvedFacts F) tool (saturateI64 (coord.reclaimLargeMinutes * 60)) now ∧
        ¬RosterDrops ext coord (resolvedFacts F) tool (unixSecs now) := by
  unfold leadIsStale
  rw [squadFor_eq]
  by_cases hdrop : RosterDrops ext coord (resolvedFacts F) tool (unixSecs now)
  · simp [squadOf_of_drops hdrop, hdrop]
  · have hbind : (squadOf ext coord false (unixSecs now) (resolvedFacts F) tool).bind
        (fun sq => ext.parseFromRfc3339 sq.lastSeenTs) =
          (authorLastSeen (resolvedFacts F) tool).bind ext.parseFromRfc3339 := by
      rw [← squadOf_of_kept hdrop, Option.bind_map]
      rfl
    rw [hbind]
    constructor
    · intro h
      cases hseen : (authorLastSeen (resolvedFacts F) tool).bind ext.parseFromRfc3339 with
      | none => simp [hseen] at h
      | some seen =>
        obtain ⟨ts, hts, hparse⟩ := Option.bind_eq_some_iff.mp hseen
        exact ⟨⟨ts, seen, hts, hparse, by simpa [hseen] using h⟩, hdrop⟩
    · rintro ⟨⟨ts, seen, hts, hparse, hold⟩, -⟩
      simpa [hts, hparse] using hold

/-- **The claim gate** measures the silence of the owner, listed or not. -/
theorem claimReclaimEligible_iff (howner : c.tool = some tool) :
    ((snapshotFromFactsWithPolicy ext F coord false now).claimReclaimEligible ext c coord now).1 = true ↔
      SilentPast ext (resolvedFacts F) tool
        (reclaimTimeoutSecs (classifyWorkSize (claimScopes c) c.scope.length) coord.reclaimSmallMinutes
          coord.reclaimLargeMinutes) now := by
  constructor
  · exact eligible_cases howner squadFor_eq_none
  · rintro ⟨ts, seen, hts, hparse, hold⟩
    simp [RoomSnapshot.claimReclaimEligible, howner, hts, hparse, hold]

/-- What "staleness only grows with silence" says of a tool and two instants of one ledger. -/
structure SilenceGrows (ext : Externals) (coord : CoordinationConfig) (F : List Fact) (tool : String)
    (now now' : Int) : Prop where
  seat_grows : now ≤ now' →
    leadIsStale ext (snapshotFromFactsWithPolicy ext F coord false now) coord now tool = true →
      leadIsStale ext (snapshotFromFactsWithPolicy ext F coord false now') coord now' tool = true
  claim_grows : now ≤ now' → ∀ c,
    ((snapshotFromFactsWithPolicy ext F coord false now).claimReclaimEligible ext c coord now).1 = true →
      ((snapshotFromFactsWithPolicy ext F coord false now').claimReclaimEligible ext c coord now').1 = true
  seat_silent : ∀ instant, instant = now ∨ instant = now' →
    (leadIsStale ext (snapshotFromFactsWithPolicy ext F coord false instant) coord instant tool = true ↔
      SilentPast ext (resolvedFacts F) tool (saturateI64 (coord.reclaimLargeMinutes * 60)) instant)
  claim_silent : ∀ instant, instant = now ∨ instant = now' → ∀ c, c.tool = some tool →
    (((snapshotFromFactsWithPolicy ext F coord false instant).claimReclaimEligible ext c coord instant).1 =
        true ↔
      SilentPast ext (resolvedFacts F) tool
        (reclaimTimeoutSecs (classifyWorkSize (claimScopes c) c.scope.length) coord.reclaimSmallMinutes
          coord.reclaimLargeMinutes) instant)

/-- **Staleness grows with silence** exactly while the roster lists the tool once it is past the window. -/
theorem silenceGrows_iff :
    SilenceGrows ext coord F tool now now' ↔
      ∀ instant, instant = now ∨ instant = now' →
        SilentPast ext (resolvedFacts F) tool (saturateI64 (coord.reclaimLargeMinutes * 60)) instant →
          ¬RosterDrops ext coord (resolvedFacts F) tool (unixSecs instant) := by
  constructor
  · intro h instant hinstant hsilent
    exact (leadIsStale_iff.mp ((h.seat_silent instant hinstant).mpr hsilent)).2
  · intro hlisted
    have hseat : ∀ instant, instant = now ∨ instant = now' →
        (leadIsStale ext (snapshotFromFactsWithPolicy ext F coord false instant) coord instant tool = true ↔
          SilentPast ext (resolvedFacts F) tool (saturateI64 (coord.reclaimLargeMinutes * 60)) instant) :=
      fun instant hinstant => leadIsStale_iff.trans (and_iff_left_of_imp (hlisted instant hinstant))
    refine ⟨fun hle h => ?_, fun hle c h => ?_, hseat, fun instant _ c howner => claimReclaimEligible_iff howner⟩
    · exact (hseat now' (.inr rfl)).mpr (((hseat now (.inl rfl)).mp h).mono hle)
    · cases howner : c.tool with
      | none => simp [RoomSnapshot.claimReclaimEligible, howner] at h
      | some owner =>
        exact (claimReclaimEligible_iff howner).mpr (((claimReclaimEligible_iff howner).mp h).mono hle)

end Gates

/-! ## A lead silent enough to be live again -/

namespace SilentLead

/-- Alice takes the seat, is seen at two HEADs, answers a handoff and claims a file, all at midnight. -/
def ledger : List Fact :=
  [aliceLeads,
    { eventId := "p1", seq := 2, kind := .presence, tool := some "alice", subject := "presence"
      evidence := ["branch_head_sha:aaaa"], createdAt := "2026-01-01T00:00:00Z" },
    { eventId := "p2", seq := 3, kind := .presence, tool := some "alice", subject := "presence"
      evidence := ["branch_head_sha:bbbb"], createdAt := "2026-01-01T00:00:00Z" },
    { eventId := "r1", seq := 4, kind := .receipt, tool := some "alice", subject := "receipt"
      createdAt := "2026-01-01T00:00:00Z" },
    { eventId := "c1", seq := 5, kind := .claim, tool := some "alice", subject := "parser"
      scope := ["file:src/parser.rs"], createdAt := "2026-01-01T00:00:00Z" }]

/-- A cadence so slow that the adaptive window, three hours, is longer than the reclaim window. -/
def coord : CoordinationConfig := { defaultCadenceSecs := 1790 }

end SilentLead

/-- At 02:50 alice's seat may be taken; at noon, with nothing written in between, it may not. -/
theorem silent_lead_live_again :
    leadIsStale .sample (snapshotFromFactsWithPolicy .sample SilentLead.ledger SilentLead.coord false
        1767235800000000000) SilentLead.coord 1767235800000000000 "alice" = true ∧
      leadIsStale .sample (snapshotFromFactsWithPolicy .sample SilentLead.ledger SilentLead.coord false
        1767268800000000000) SilentLead.coord 1767268800000000000 "alice" = false := by
  decide

end RallyPoint
