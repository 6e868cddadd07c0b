/-
# RallyPoint.ReleaseByPath — release by path (`lib.rs`, `command_release_by_path`).

`rally say release --path P` names no claim. The command resolves the paths to the active claims it may
close, its own on an exact scope and stale owners' on a covering one, and writes ONE release: `ref` is the
first match and the scope is the union of the matched scopes, so that the sweep by scope string closes the
others. The command reports each match.

The sweep looks at nothing but strings. A claim outside the report that repeats one of the union's scopes is
closed as well when the caller may close it, and stops the whole release when not.
-/
import RallyPoint.Releases
import RallyPoint.ScopedSnapshot

namespace RallyPoint

open Lib

/-! ## The command -/

/-- What the caller gives beside the paths. -/
structure ReleaseRequest where
  threadId : Option String := none
  role : Option String := none
  subject : String
  summary : Option String := none
  evidence : List String := []
  target : Option String := none
  status : Option String := none
  severity : Option String := none
  uri : Option String := none
  deriving DecidableEq, Repr

/-- What the command mints: two ids and the text of the instant. -/
structure Minted where
  factId : String
  roomId : String
  createdAt : String
  deriving DecidableEq, Repr

def wantPaths (scope : List String) : List String := scope.filter (startsWith "file:")

/-- An owner releases the exact scope string it claimed. -/
def exactScopeMatch (paths : List String) (c : Fact) : Bool :=
  c.scope.any fun cs => paths.any fun wp => wp == cs

/-- A takeover reaches every claim whose scope covers a wanted path. -/
def takeoverScopeMatch (repoRelativePath : String → Option String) (paths : List String) (c : Fact) :
    Bool :=
  c.scope.any fun cs => paths.any fun wp =>
    wp == cs || match stripPrefix "file:" wp with
      | some p => pathMatchesScope repoRelativePath cs p
      | none => false

def unionScope (matched : List Fact) : List String :=
  (matched.flatMap (·.scope)).foldl (fun seen s => if seen.contains s then seen else seen ++ [s]) []

def workSizeText : WorkSize → String
  | .small => "small"
  | .large => "large"

section Command

variable (env : AppendEnv) (repoRelativePath : String → Option String)
variable (tool callerSession : String)

def callerOwnsClaim (c : Fact) : Bool :=
  claimOwnerMatchesCaller c.tool c.fromSessionId (some tool) (some callerSession)

/-- Whether the command closes a claim of the room: its own by exact scope, a silent owner's by cover. -/
def releaseMatches (room : RoomSnapshot) (paths : List String) (c : Fact) : Bool :=
  if callerOwnsClaim tool callerSession c then exactScopeMatch paths c
  -- a sibling under the caller's label is no takeover peer
  else if c.tool == some tool then false
  else if !takeoverScopeMatch repoRelativePath paths c then false
  else (room.claimReclaimEligible env.ext c env.coord env.now).1

def matchedClaims (room : RoomSnapshot) (paths : List String) : List Fact :=
  room.activeClaims.filter (releaseMatches env repoRelativePath tool callerSession room paths)

/-- The matches that are not the caller's own. -/
def takenOver (matched : List Fact) : List Fact :=
  matched.filter fun c => !callerOwnsClaim tool callerSession c

def takenOverOwners (matched : List Fact) : List String :=
  if (takenOver tool callerSession matched).isEmpty then []
  else sortDedup ((matched.filterMap (·.tool)).filter (· != tool))

def releaseSubject (subject : String) (matched : List Fact) : String :=
  let total := matched.length
  let base := if total = 1 then subject else s!"{subject} (releases {total} matching claims)"
  let owners := takenOverOwners tool callerSession matched
  if owners.isEmpty then base
  else
    let names := join ", " owners
    s!"{base} [authorized-takeover: reclaimed stale-owner claim(s) from {names}]"

/-- The provenance of a takeover: from whom, and the work sizes that set each owner's timeout. -/
def takeoverEvidence (room : RoomSnapshot) (matched : List Fact) : List String :=
  let owners := takenOverOwners tool callerSession matched
  if owners.isEmpty then []
  else
    let sizes := (takenOver tool callerSession matched).map fun c =>
      workSizeText (room.claimReclaimEligible env.ext c env.coord env.now).2
    ("authorized-takeover:stale-owner=" ++ join "," owners) ::
      if sizes.isEmpty then [] else ["reclaim-reason:stale-by-timeout;work-size=" ++ join "," sizes]

/-- The one release of a call. -/
def releaseByPathFact (room : RoomSnapshot) (request : ReleaseRequest) (minted : Minted)
    (primary : Fact) (matched : List Fact) : Fact :=
  { schema := factSchema
    eventId := minted.factId
    seq := 0
    threadId := request.threadId.getD minted.roomId
    kind := .release
    tool := some tool
    role := request.role
    subject := releaseSubject tool callerSession request.subject matched
    scope := unionScope matched
    createdAt := minted.createdAt
    summary := request.summary
    evidence := request.evidence ++ takeoverEvidence env tool callerSession room matched
    target := request.target
    refId := some primary.eventId
    status := request.status
    severity := request.severity
    uri := request.uri
    session := none
    fromSessionId := some callerSession }

/-- The refusal when nothing matches: the caller's open claims, and whose live claims stand on the paths. -/
def nothingToRelease (room : RoomSnapshot) (paths : List String) : String :=
  let mine := room.activeClaims.filter (callerOwnsClaim tool callerSession)
  let blockingLive := (room.activeClaims.filter fun c => !callerOwnsClaim tool callerSession c).filter
    (takeoverScopeMatch repoRelativePath paths)
  let listing :=
    if mine.isEmpty then s!"(none — {tool} has no open claims in this room)"
    else join "\n" (mine.map fun c =>
      let scopes := join "," c.scope
      s!"  - {c.eventId} {c.subject} scope=[{scopes}]")
  let liveHint :=
    if blockingLive.isEmpty then ""
    else
      let owners := join ", " (blockingLive.filterMap (·.tool))
      s!"\nNote: those paths are claimed by peer(s) [{owners}] that are not takeover-eligible; an " ++
        "authorized takeover release is only permitted once an owner has been totally silent >2h (a 15m " ++
        "idle window is advisory only, not enough to reclaim a claim)."
  let wanted := join ", " paths
  s!"rally say release: no live claim by {tool} matches paths [{wanted}]; nothing to release.\n{tool}'s " ++
    s!"open claims:\n{listing}{liveHint}"

/-- The release a call writes, or its refusal before anything is written. -/
def planReleaseByPath (room : RoomSnapshot) (scope : List String) (request : ReleaseRequest)
    (minted : Minted) : Result Fact :=
  let paths := wantPaths scope
  if paths.isEmpty then
    .error (.usage "rally say release --path requires at least one --path argument")
  else
    match matchedClaims env repoRelativePath tool callerSession room paths with
    | [] => .error (.usage (nothingToRelease repoRelativePath tool callerSession room paths))
    | primary :: others =>
      .ok (releaseByPathFact env tool callerSession room request minted primary (primary :: others))

/-- One warning for each claim the call says it closed. -/
def releasedByPathWarnings (matched : List Fact) (seq : Int) : List (String × String) :=
  let takeoverNote :=
    if (takenOver tool callerSession matched).isEmpty then ""
    else " (authorized takeover of stale-owner claim)"
  matched.map fun c => ("released-by-path",
    s!"released claim {c.eventId} (\"{c.subject}\") via path-only resolution{takeoverNote}; release seq={seq}")

/-- The call: one snapshot, one release through the append boundary, one report line for each match. -/
def commandReleaseByPath (facts : List Fact) (scope : List String) (request : ReleaseRequest)
    (minted : Minted) : Result (AppendOutcome × List (String × String)) := do
  let room := env.snapshot facts
  let fact ← planReleaseByPath env repoRelativePath tool callerSession room scope request minted
  let outcome ← appendFactUnderLock env facts fact
  let appended := match outcome with
    | .recorded existing => existing
    | .committed committed => committed
  .ok (outcome, releasedByPathWarnings tool callerSession
    (matchedClaims env repoRelativePath tool callerSession room (wantPaths scope)) appended.seq)

end Command

/-! ## The release and its report -/

section Report

variable {env : AppendEnv} {repoRelativePath : String → Option String} {tool callerSession : String}
variable {scope : List String} {request : ReleaseRequest} {minted : Minted} {F : List Fact} {fact c : Fact}

theorem mem_unionScope {matched : List Fact} {s : String} :
    s ∈ unionScope matched ↔ ∃ m ∈ matched, s ∈ m.scope := by
  have hfold : ∀ (scopes seen : List String),
      s ∈ scopes.foldl (fun seen s => if seen.contains s then seen else seen ++ [s]) seen ↔
        s ∈ seen ∨ s ∈ scopes := by
    intro scopes
    induction scopes with
    | nil => simp
    | cons x rest ih =>
      intro seen
      rw [List.foldl_cons, ih, List.mem_cons]
      split
      case isTrue hx =>
        have hx : x ∈ seen := by simpa using hx
        constructor
        · rintro (h | h)
          · exact .inl h
          · exact .inr (.inr h)
        · rintro (h | rfl | h)
          · exact .inl h
          · exact .inl hx
          · exact .inr h
      case isFalse => simp [or_assoc]
  rw [unionScope, hfold]
  simp

/-- A planned release is built from a nonempty list of matches. -/
theorem planReleaseByPath_ok {room : RoomSnapshot}
    (h : planReleaseByPath env repoRelativePath tool callerSession room scope request minted = .ok fact) :
    ∃ primary others,
      matchedClaims env repoRelativePath tool callerSession room (wantPaths scope) = primary :: others ∧
        fact = releaseByPathFact env tool callerSession room request minted primary (primary :: others) := by
  unfold planReleaseByPath at h
  rw [check_refuse_ok_iff] at h
  cases hmatched : matchedClaims env repoRelativePath tool callerSession room (wantPaths scope) with
  | nil => simp [hmatched] at h
  | cons primary others =>
    simp only [hmatched, Except.ok.injEq] at h
    exact ⟨primary, others, rfl, h.2.symm⟩

theorem scope_ne_nil_of_releaseMatches {room : RoomSnapshot} {paths : List String}
    (h : releaseMatches env repoRelativePath tool callerSession room paths c = true) : c.scope ≠ [] := by
  intro hempty
  simp [releaseMatches, exactScopeMatch, takeoverScopeMatch, hempty] at h

/-- The caller may close what it matches. -/
theorem mayRelease_of_releaseMatches {paths : List String}
    (h : releaseMatches env repoRelativePath tool callerSession (env.snapshot F) paths c = true)
    (htool : fact.tool = some tool) (hsession : fact.fromSessionId = some callerSession) :
    mayRelease env F fact c := by
  unfold releaseMatches at h
  unfold mayRelease isSiblingSession
  rw [htool, hsession]
  split at h
  case isTrue howner => exact .inl howner
  case isFalse =>
    split at h
    case isTrue => cases h
    case isFalse hother =>
      split at h
      case isTrue => cases h
      case isFalse =>
        refine .inr ⟨?_, h⟩
        -- the claim is another tool's, so its owner is no sibling session
        cases hclaim : c.tool with
        | none => simp [sameNonblankTool]
        | some owner =>
          have hne : owner ≠ tool := by simpa [hclaim] using hother
          simp [sameNonblankTool, hne]

/-- The release of a call is written for the claims it matches. -/
theorem writtenFor_matches
    (h : planReleaseByPath env repoRelativePath tool callerSession (env.snapshot F) scope request minted =
      .ok fact) :
    WrittenFor env F
      (releaseMatches env repoRelativePath tool callerSession (env.snapshot F) (wantPaths scope)) fact := by
  obtain ⟨primary, others, hmatched, rfl⟩ := planReleaseByPath_ok h
  have hmem : ∀ m, m ∈ primary :: others ↔ m ∈ (env.snapshot F).activeClaims ∧
      releaseMatches env repoRelativePath tool callerSession (env.snapshot F) (wantPaths scope) m = true := by
    intro m
    rw [← hmatched, matchedClaims, List.mem_filter]
  constructor
  case kind => rfl
  case names =>
    obtain ⟨hactive, hmatch⟩ := (hmem primary).mp List.mem_cons_self
    exact ⟨primary, hactive, hmatch, rfl⟩
  case scopes =>
    intro s
    have hunion : s ∈ unionScope (primary :: others) ↔ ∃ m ∈ primary :: others, s ∈ m.scope := mem_unionScope
    simp only [hmem, and_assoc] at hunion
    exact hunion
  case reaches =>
    intro m _ hmatch
    exact .inr (scope_ne_nil_of_releaseMatches hmatch)
  case may =>
    intro hmarker m _ hmatch action
    exact authorized_of_mayRelease hmarker (mayRelease_of_releaseMatches hmatch rfl rfl)

/-- **Release by path closes what it reports** exactly when the matched claims stand apart: no other active
claim, of the caller or of anyone, repeats a scope string of a match. The minted id is new to the ledger. -/
theorem release_by_path_closes_report_iff (hF : Reachable (AppendStep env.ext) F)
    (hplan : planReleaseByPath env repoRelativePath tool callerSession (env.snapshot F) scope request minted =
      .ok fact)
    (hnew : survivesAppend F fact = true) :
    ClosesOnly env F
        (releaseMatches env repoRelativePath tool callerSession (env.snapshot F) (wantPaths scope)) fact ↔
      StandsApart env F
        (releaseMatches env repoRelativePath tool callerSession (env.snapshot F) (wantPaths scope)) fact :=
  closesOnly_iff (isLedger_of_reachable hF) (writtenFor_matches hplan) hnew

end Report

/-- Two claims of one session; the second repeats a file of the first. -/
def parserClaim : Fact :=
  { eventId := "c1", seq := 1, kind := .claim, tool := some "alice", fromSessionId := some "sess:alice"
    subject := "parser", scope := ["file:src/parser.rs", "file:src/lib.rs"]
    createdAt := "2026-01-01T00:00:00Z" }

def libraryClaim : Fact :=
  { eventId := "c2", seq := 2, kind := .claim, tool := some "alice", fromSessionId := some "sess:alice"
    subject := "library", scope := ["file:src/lib.rs"], createdAt := "2026-01-01T00:00:00Z" }

/-- The release `alice` writes for her parser. -/
def parserRelease : Fact :=
  { eventId := "r1", threadId := "room_1", kind := .release, tool := some "alice"
    fromSessionId := some "sess:alice", subject := "done with the parser"
    scope := ["file:src/parser.rs", "file:src/lib.rs"], refId := some "c1"
    createdAt := "2026-01-01T00:00:00Z" }

/-- With one claim open, its owner releases it and the room shows none. -/
theorem release_by_path_closes_report_iff_alone :
    planReleaseByPath .sample some "alice" "sess:alice" (AppendEnv.sample.snapshot [parserClaim])
        ["file:src/parser.rs"] { subject := "done with the parser" } ⟨"r1", "room_1", "2026-01-01T00:00:00Z"⟩ =
        .ok parserRelease ∧
      ClosesOnly .sample [parserClaim]
        (releaseMatches .sample some "alice" "sess:alice" (AppendEnv.sample.snapshot [parserClaim])
          (wantPaths ["file:src/parser.rs"])) parserRelease := by
  have hF : Reachable (AppendStep .sample) [parserClaim] :=
    .append .empty ⟨.sample, { parserClaim with seq := 0 }, rfl, by decide⟩
  have hplan : planReleaseByPath .sample some "alice" "sess:alice" (AppendEnv.sample.snapshot [parserClaim])
      ["file:src/parser.rs"] { subject := "done with the parser" } ⟨"r1", "room_1", "2026-01-01T00:00:00Z"⟩ =
      .ok parserRelease := by decide
  have hplain : targetOf parserRelease = none := by decide
  refine ⟨hplan, (release_by_path_closes_report_iff hF hplan (by decide)).mpr
    ⟨by decide, by decide, ?_, by decide, fun target htarget => ?_⟩⟩
  · rintro _ _ ⟨⟩ ⟨⟩ - -
    decide
  · rw [hplain] at htarget
    cases htarget

/-- **A second claim goes with the first.** `alice` releases her parser by path. The call matches and reports
the parser claim alone, the gate lets the release through, and her claim on the library is gone as well. -/
theorem release_by_path_sweeps_unreported :
    Reachable (AppendStep .sample) [parserClaim, libraryClaim] ∧
      planReleaseByPath .sample some "alice" "sess:alice"
        (AppendEnv.sample.snapshot [parserClaim, libraryClaim]) ["file:src/parser.rs"]
        { subject := "done with the parser" } ⟨"r1", "room_1", "2026-01-01T00:00:00Z"⟩ = .ok parserRelease ∧
      (matchedClaims .sample some "alice" "sess:alice"
        (AppendEnv.sample.snapshot [parserClaim, libraryClaim]) ["file:src/parser.rs"]).map (·.eventId) =
        ["c1"] ∧
      assertWriteAuthorized .sample (AppendEnv.sample.snapshot [parserClaim, libraryClaim]) {}
        AppendEnv.sample.now parserRelease [parserClaim, libraryClaim] = .ok () ∧
      (AppendEnv.sample.snapshot ([parserClaim, libraryClaim] ++ [{ parserRelease with seq := 3 }])).activeClaims =
        [] ∧
      ¬ClosesOnly .sample [parserClaim, libraryClaim]
        (releaseMatches .sample some "alice" "sess:alice"
          (AppendEnv.sample.snapshot [parserClaim, libraryClaim]) (wantPaths ["file:src/parser.rs"]))
        parserRelease := by
  have hF : Reachable (AppendStep .sample) [parserClaim, libraryClaim] :=
    .append (.append .empty ⟨.sample, { parserClaim with seq := 0 }, rfl, by decide⟩)
      ⟨.sample, { libraryClaim with seq := 0 }, rfl, by decide⟩
  refine ⟨hF, by decide, by decide, by decide, by decide, fun h => ?_⟩
  exact absurd h.closed (by decide)

end RallyPoint
