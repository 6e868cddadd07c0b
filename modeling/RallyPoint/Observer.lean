/-
# RallyPoint.Observer — what worktrees and processes say about claim owners (`observed_liveness.rs`).

A presence fact stamps where its session works, at which head, and under which process. The observer takes the
newest stamp of every session, asks git and the kernel about it, and grades what it finds. Death is only what was
seen (`gradeObservation_stale_iff`); quiet is weaker, and any later fact of the tool breaks it
(`quiet_cannot_be_planted`). The automatic reaper acts on death alone (`automatic_reap_needs_death`).
-/
import Mathlib.Data.Prod.Lex
import Mathlib.Data.String.Basic
import RallyPoint.Lib.OrderedMap
import RallyPoint.Reaper

namespace RallyPoint.Observer

open Lib

/-! ## Stamps -/

def worktreePathPrefix : String := "worktree_path:"
def branchHeadPrefix : String := "branch_head_sha:"
def observerPidPrefix : String := "observer_pid:"

structure ObservationStamp where
  tool : String
  sessionKey : String
  worktreePath : String
  recordedHead : Option String
  observerPid : Option Int
  reportedAt : Int
  seq : Int
  deriving DecidableEq

/-- The first evidence under an opening, trimmed; an empty value is no value. -/
def evidenceValue (fact : Fact) (opening : String) : Option String :=
  ((fact.evidence.findSome? (stripPrefix opening)).map trim).filter fun value => !value.toList.isEmpty

def parseI32 (raw : String) : Option Int :=
  (parseI64 raw).filter fun n => decide (-2147483648 ≤ n ∧ n ≤ 2147483647)

/-- `{:?}` of an optional process id. -/
def pidDebug : Option Int → String
  | some pid => "Some(" ++ toString pid ++ ")"
  | none => "None"

def stampFromFact (ext : Externals) (fact : Fact) : Option ObservationStamp :=
  if fact.kind != .presence then none
  else
    match fact.tool, evidenceValue fact worktreePathPrefix, ext.parseFromRfc3339 fact.createdAt with
    | some tool, some worktreePath, some reportedAt =>
      let observerPid := ((evidenceValue fact observerPidPrefix).bind parseI32).filter fun pid => decide (1 < pid)
      some
        { tool := tool
          sessionKey := fact.fromSessionId.getD (tool ++ ":" ++ worktreePath ++ ":" ++ pidDebug observerPid)
          worktreePath := worktreePath
          recordedHead := evidenceValue fact branchHeadPrefix
          observerPid := observerPid
          reportedAt := reportedAt
          seq := fact.seq }
    | _, _, _ => none

/-! ## Probes and grades -/

/-- What git answers about a path and the kernel about a process. -/
structure Host where
  gitCommonDir : String → Option String
  currentHeadSha : String → Option String
  dirtyCount : String → Option Nat
  newestWorktreeMtime : String → Option (Option Int)
  processAlive : Int → Option Bool

structure WorktreeProbe where
  readable : Bool := false
  head : Option String := none
  dirtyCount : Option Nat := none
  newestWorktreeMtime : Option Int := none

structure ProbeSample where
  worktree : WorktreeProbe
  pidAlive : Option Bool

/-- A worktree of another repository is as good as none. -/
def probeWorktree (host : Host) (worktree expectedCommonDir : String) : WorktreeProbe :=
  if host.gitCommonDir worktree != some expectedCommonDir then {}
  else
    let head := host.currentHeadSha worktree
    let dirtyCount := host.dirtyCount worktree
    let newestWorktreeMtime := host.newestWorktreeMtime worktree
    { readable := head.isSome && dirtyCount.isSome && newestWorktreeMtime.isSome
      head := head
      dirtyCount := dirtyCount
      newestWorktreeMtime := newestWorktreeMtime.join }

/-- The recorded head against the current one; an unknown head is neither moved nor unmoved. -/
def headMoved (stamp : ObservationStamp) (sample : ProbeSample) : Bool :=
  match stamp.recordedHead, sample.worktree.head with
  | some recorded, some current => recorded != current
  | _, _ => false

def headProvablyUnmoved (stamp : ObservationStamp) (sample : ProbeSample) : Bool :=
  match stamp.recordedHead, sample.worktree.head with
  | some recorded, some current => recorded == current
  | _, _ => false

def gradeObservation (stamp : ObservationStamp) (sample : ProbeSample) (now : Int) (lastAuthoredAt : Option Int) :
    ObservedLiveness :=
  if sample.pidAlive == some true then .live
  else if !sample.worktree.readable then .unknown
  else if sample.pidAlive == some false then
    -- a head that moved after the stamp may be a sibling's work in the same worktree
    if headProvablyUnmoved stamp sample then .stale else .unknown
  else if headMoved stamp sample || sample.worktree.newestWorktreeMtime.any (· > stamp.reportedAt) then .live
  else
    let silenceAnchor := (lastAuthoredAt.map fun authored => max authored stamp.reportedAt).getD stamp.reportedAt
    -- only a session that never named a process is judged by its silence
    if stamp.observerPid.isNone && headProvablyUnmoved stamp sample &&
        decide (Reaper.numSeconds (now - silenceAnchor) > Reaper.takeoverStaleSecs) then .staleUnobserved
    else .unknown

def aggregateFrom (sawStale sawStaleUnobserved sawUnknown : Bool) : List ObservedLiveness → ObservedLiveness
  | [] =>
    if sawUnknown then .unknown
    else if sawStale then .stale
    else if sawStaleUnobserved then .staleUnobserved
    else .unknown
  | .live :: _ => .live
  | .stale :: rest => aggregateFrom true sawStaleUnobserved sawUnknown rest
  | .staleUnobserved :: rest => aggregateFrom sawStale true sawUnknown rest
  | .unknown :: rest => aggregateFrom sawStale sawStaleUnobserved true rest

def aggregate (verdicts : List ObservedLiveness) : ObservedLiveness := aggregateFrom false false false verdicts

/-! ## One pass over the facts -/

/-- A later stamp of a session replaces the one kept when its sequence is higher. -/
def keepLatest (stamp : ObservationStamp) : Option ObservationStamp → ObservationStamp
  | some existing => if stamp.seq > existing.seq then stamp else existing
  | none => stamp

/-- The stamps under the sessions that wrote them. -/
def keyedStamps (ext : Externals) (facts : List Fact) : List ((String ×ₗ String) × ObservationStamp) :=
  (facts.filterMap (stampFromFact ext)).map fun stamp => (toLex (stamp.tool, stamp.sessionKey), stamp)

def latestStamps (ext : Externals) (facts : List Fact) : List ((String ×ₗ String) × ObservationStamp) :=
  OrderedMap.updateAll keepLatest [] (keyedStamps ext facts)

def keepNewer (instant : Int) : Option Int → Int
  | some existing => max existing instant
  | none => instant

/-- The tool and the instant of a fact somebody wrote. -/
def authoredAt (ext : Externals) (fact : Fact) : Option (String × Int) :=
  if isSystemAuthored fact then none
  else fact.tool.bind fun tool => (ext.parseFromRfc3339 fact.createdAt).map fun instant => (tool, instant)

def authoredByTool (ext : Externals) (facts : List Fact) : List (String × Int) :=
  OrderedMap.updateAll keepNewer [] (facts.filterMap (authoredAt ext))

def authoredBySession (ext : Externals) (facts : List Fact) : List ((String ×ₗ String) × Int) :=
  OrderedMap.updateAll keepNewer [] (facts.filterMap fun fact =>
    (authoredAt ext fact).bind fun (tool, instant) =>
      fact.fromSessionId.map fun sessionId => (toLex (tool, sessionId), instant))

/-- The newest of what the session and what the tool wrote. -/
def lastAuthoredAt (ext : Externals) (facts : List Fact) (stamp : ObservationStamp) : Option Int :=
  ([OrderedMap.get (authoredBySession ext facts) (toLex (stamp.tool, stamp.sessionKey)),
    OrderedMap.get (authoredByTool ext facts) stamp.tool].filterMap id).max?

section Observe

variable (ext : Externals) (host : Host) (roomRepoRoot : String) (now : Int) (facts : List Fact)

def sampleOf (expectedCommonDir : String) (stamp : ObservationStamp) : ProbeSample where
  worktree := probeWorktree host stamp.worktreePath expectedCommonDir
  pidAlive := stamp.observerPid.bind host.processAlive

def verdictOf (expectedCommonDir : String) (stamp : ObservationStamp) : ObservedLiveness :=
  gradeObservation stamp (sampleOf host expectedCommonDir stamp) now (lastAuthoredAt ext facts stamp)

def verdictsByTool (expectedCommonDir : String) : List (String × ObservedLiveness) :=
  (OrderedMap.group (·.tool) ((latestStamps ext facts).map (·.2))).map fun entry =>
    (entry.1, aggregate (entry.2.map (verdictOf ext host now facts expectedCommonDir)))

def observeSessions : ObservedSessions :=
  match host.gitCommonDir roomRepoRoot with
  | none => ⟨fun _ _ => none, fun _ => none, fun _ _ => none⟩
  | some expectedCommonDir =>
    { bySession := fun tool session => (OrderedMap.get (latestStamps ext facts) (toLex (tool, session))).map
        (verdictOf ext host now facts expectedCommonDir)
      byTool := fun tool => OrderedMap.get (verdictsByTool ext host now facts expectedCommonDir) tool
      bySessionReportedAt := fun tool session =>
        (OrderedMap.get (latestStamps ext facts) (toLex (tool, session))).map (·.reportedAt) }

end Observe

/-! ## Grades -/

theorem gradeObservation_stale_iff {stamp : ObservationStamp} {sample : ProbeSample} {now : Int}
    {last : Option Int} :
    gradeObservation stamp sample now last = .stale ↔
      sample.pidAlive = some false ∧ sample.worktree.readable = true ∧ headProvablyUnmoved stamp sample = true := by
  by_cases hdead : sample.pidAlive = some false
  · cases hreadable : sample.worktree.readable <;> cases hhead : headProvablyUnmoved stamp sample <;>
      simp [gradeObservation, hdead, hreadable, hhead]
  · -- without a dead process only the silence branch demotes, and never to an observed death
    have hnot : (sample.pidAlive == some false) = false := by simpa using hdead
    simp only [gradeObservation, hnot, Bool.false_eq_true, if_false, hdead, false_and, iff_false]
    repeat' split
    all_goals simp

theorem gradeObservation_dead {stamp : ObservationStamp} {sample : ProbeSample} {now : Int} {last : Option Int}
    (h : gradeObservation stamp sample now last = .stale ∨
      gradeObservation stamp sample now last = .staleUnobserved) :
    sample.pidAlive = some false ∨ stamp.observerPid = none := by
  rcases h with h | h
  · exact Or.inl (gradeObservation_stale_iff.mp h).1
  · right
    unfold gradeObservation at h
    repeat' split at h
    all_goals simp_all

theorem aggregateFrom_eq (a b c : Bool) (verdicts : List ObservedLiveness) :
    aggregateFrom a b c verdicts =
      if .live ∈ verdicts then .live
      else if c = true ∨ .unknown ∈ verdicts then .unknown
      else if a = true ∨ .stale ∈ verdicts then .stale
      else if b = true ∨ .staleUnobserved ∈ verdicts then .staleUnobserved
      else .unknown := by
  induction verdicts generalizing a b c with
  | nil => simp [aggregateFrom]
  | cons v verdicts ih => cases v <;> simp [aggregateFrom, ih]

theorem aggregate_stale {verdicts : List ObservedLiveness} (h : aggregate verdicts = .stale) :
    .stale ∈ verdicts ∧ ∀ v ∈ verdicts, v = .stale ∨ v = .staleUnobserved := by
  rw [aggregate, aggregateFrom_eq] at h
  split at h
  · simp at h
  · rename_i hlive
    split at h
    · simp at h
    · rename_i hunknown
      split at h
      · rename_i hstale
        refine ⟨by simpa using hstale, fun v hv => ?_⟩
        cases v with
        | live => exact absurd hv hlive
        | unknown => exact absurd (Or.inr hv) hunknown
        | stale => exact Or.inl rfl
        | staleUnobserved => exact Or.inr rfl
      · split at h <;> simp at h

/-! ## The newest stamp of a session -/

/-- The stamp the observer keeps of a session. -/
structure IsLatest (ext : Externals) (facts : List Fact) (stamp : ObservationStamp) : Prop where
  stamped : ∃ fact ∈ facts, stampFromFact ext fact = some stamp
  newest : ∀ fact ∈ facts, ∀ other, stampFromFact ext fact = some other → other.tool = stamp.tool →
    other.sessionKey = stamp.sessionKey → other.seq ≤ stamp.seq

theorem foldl_keepLatest {values : List ObservationStamp} {stamp : ObservationStamp}
    (h : values.foldl (fun o v => some (keepLatest v o)) none = some stamp) :
    stamp ∈ values ∧ ∀ other ∈ values, other.seq ≤ stamp.seq := by
  induction values using List.reverseRecOn generalizing stamp with
  | nil => cases h
  | append_singleton values v ih =>
    rw [List.foldl_append] at h
    obtain rfl := Option.some.inj h
    cases hkept : values.foldl (fun o v => some (keepLatest v o)) none with
    | none =>
      have hnil : values = [] := by
        rcases List.eq_nil_or_concat' values with rfl | ⟨front, last, rfl⟩
        · rfl
        · rw [List.foldl_append] at hkept
          cases hkept
      rw [hnil]
      exact ⟨List.mem_singleton_self _, fun other hother => by rw [List.mem_singleton.mp hother, keepLatest]⟩
    | some kept =>
      obtain ⟨hmem, hmax⟩ := ih hkept
      rw [keepLatest]
      split
      · rename_i hnewer
        refine ⟨List.mem_append_right _ (List.mem_singleton_self _), fun other hother => ?_⟩
        rcases List.mem_append.mp hother with hother | hother
        · have := hmax other hother
          omega
        · rw [List.mem_singleton.mp hother]
      · rename_i holder
        refine ⟨List.mem_append_left _ hmem, fun other hother => ?_⟩
        rcases List.mem_append.mp hother with hother | hother
        · exact hmax other hother
        · rw [List.mem_singleton.mp hother]
          omega

section Latest

variable {ext : Externals} {facts : List Fact} {stamp : ObservationStamp} {tool session : String}

theorem mem_stampsAt :
    stamp ∈ OrderedMap.valuesAt (keyedStamps ext facts) (toLex (tool, session)) ↔
      (∃ fact ∈ facts, stampFromFact ext fact = some stamp) ∧ stamp.tool = tool ∧ stamp.sessionKey = session := by
  simp only [OrderedMap.valuesAt, keyedStamps, List.mem_map, List.mem_filter, List.mem_filterMap, decide_eq_true_eq]
  constructor
  · rintro ⟨pair, ⟨⟨s, hs, rfl⟩, hkey⟩, rfl⟩
    have hkey := Prod.mk.inj (toLex.injective hkey)
    exact ⟨hs, hkey.1, hkey.2⟩
  · rintro ⟨hs, rfl, rfl⟩
    exact ⟨_, ⟨⟨stamp, hs, rfl⟩, rfl⟩, rfl⟩

theorem keyOrdered_latestStamps : KeyOrdered (·.1) (latestStamps ext facts) :=
  OrderedMap.keyOrdered_updateAll List.Pairwise.nil

theorem get_latestStamps :
    OrderedMap.get (latestStamps ext facts) (toLex (tool, session)) =
      (OrderedMap.valuesAt (keyedStamps ext facts) (toLex (tool, session))).foldl
        (fun o v => some (keepLatest v o)) none :=
  OrderedMap.get_updateAll List.Pairwise.nil

theorem isLatest_of_get (h : OrderedMap.get (latestStamps ext facts) (toLex (tool, session)) = some stamp) :
    IsLatest ext facts stamp ∧ stamp.tool = tool ∧ stamp.sessionKey = session := by
  rw [get_latestStamps] at h
  obtain ⟨hmem, hmax⟩ := foldl_keepLatest h
  obtain ⟨hstamped, rfl, rfl⟩ := mem_stampsAt.mp hmem
  refine ⟨⟨hstamped, fun fact hfact other hother htool hkey => ?_⟩, rfl, rfl⟩
  exact hmax other (mem_stampsAt.mpr ⟨⟨fact, hfact, hother⟩, htool, hkey⟩)

/-- A session that is stamped at all has a newest stamp. -/
theorem exists_latest {fact : Fact} (hfact : fact ∈ facts) (h : stampFromFact ext fact = some stamp) :
    ∃ latest, OrderedMap.get (latestStamps ext facts) (toLex (stamp.tool, stamp.sessionKey)) = some latest := by
  have hmem := mem_stampsAt.mpr ⟨⟨fact, hfact, h⟩, rfl, rfl⟩
  rw [get_latestStamps]
  rcases List.eq_nil_or_concat' (OrderedMap.valuesAt (keyedStamps ext facts)
    (toLex (stamp.tool, stamp.sessionKey))) with hnil | ⟨front, last, hlast⟩
  · rw [hnil] at hmem
    exact absurd hmem List.not_mem_nil
  · rw [hlast, List.foldl_append]
    exact ⟨_, rfl⟩

end Latest

/-! ## Death, and what the automatic reaper makes of it -/

/-- The stamped process is gone, and the stamped worktree of this repository stands at the stamped head. -/
structure SeenDead (host : Host) (roomRepoRoot : String) (stamp : ObservationStamp) : Prop where
  process : ∃ pid, stamp.observerPid = some pid ∧ host.processAlive pid = some false
  repository : ∃ dir, host.gitCommonDir roomRepoRoot = some dir ∧ host.gitCommonDir stamp.worktreePath = some dir
  head : ∃ sha, stamp.recordedHead = some sha ∧ host.currentHeadSha stamp.worktreePath = some sha

section Death

variable {ext : Externals} {host : Host} {root dir : String} {now : Int} {facts : List Fact}
  {stamp : ObservationStamp}

theorem seenDead_of_stale (hdir : host.gitCommonDir root = some dir)
    (h : verdictOf ext host now facts dir stamp = .stale) : SeenDead host root stamp := by
  obtain ⟨hpid, hreadable, hhead⟩ := gradeObservation_stale_iff.mp h
  have hprobe : host.gitCommonDir stamp.worktreePath = some dir := by
    by_contra hother
    simp [sampleOf, probeWorktree, hother] at hreadable
  refine ⟨Option.bind_eq_some_iff.mp hpid, ⟨dir, hdir, hprobe⟩, ?_⟩
  simp only [headProvablyUnmoved, sampleOf, probeWorktree, hprobe, bne_self_eq_false, Bool.false_eq_true,
    if_false] at hhead
  cases hrecorded : stamp.recordedHead with
  | none => simp [hrecorded] at hhead
  | some recorded =>
    cases hcurrent : host.currentHeadSha stamp.worktreePath with
    | none => simp [hrecorded, hcurrent] at hhead
    | some current =>
      simp only [hrecorded, hcurrent, beq_iff_eq] at hhead
      exact ⟨current, by rw [hhead], rfl⟩

/-- A stamp graded gone or quiet names no process that is still there. -/
theorem not_alive_of_graded (h : verdictOf ext host now facts dir stamp = .stale ∨
    verdictOf ext host now facts dir stamp = .staleUnobserved) {pid : Int} (hpid : stamp.observerPid = some pid) :
    host.processAlive pid = some false := by
  rcases gradeObservation_dead h with hdead | hnone
  · obtain ⟨other, hother, hdead⟩ := Option.bind_eq_some_iff.mp hdead
    rw [hpid] at hother
    rwa [Option.some.inj hother]
  · rw [hpid] at hnone
    cases hnone

theorem mem_latestStamps {tool : String} :
    stamp ∈ ((latestStamps ext facts).map (·.2)).filter (fun s => s.tool = tool) ↔
      OrderedMap.get (latestStamps ext facts) (toLex (stamp.tool, stamp.sessionKey)) = some stamp ∧
        stamp.tool = tool := by
  rw [List.mem_filter, List.mem_map, decide_eq_true_eq]
  refine and_congr_left fun _ => ⟨?_, fun h => ⟨_, (OrderedMap.mem_iff_get keyOrdered_latestStamps).mpr h, rfl⟩⟩
  rintro ⟨⟨key, s⟩, hentry, rfl⟩
  have hget := (OrderedMap.mem_iff_get keyOrdered_latestStamps).mp hentry
  obtain ⟨-, htool, hsession⟩ := @isLatest_of_get ext facts s (ofLex key).1 (ofLex key).2 hget
  show OrderedMap.get _ (toLex (s.tool, s.sessionKey)) = some s
  rw [htool, hsession]
  exact hget

/-- What stands behind the verdict on a tool: the verdicts on its sessions. -/
theorem verdict_of_byTool {tool : String} {v : ObservedLiveness}
    (h : OrderedMap.get (verdictsByTool ext host now facts dir) tool = some v) :
    v = aggregate ((((latestStamps ext facts).map (·.2)).filter fun s => s.tool = tool).map
      (verdictOf ext host now facts dir)) := by
  rw [verdictsByTool, OrderedMap.get_map fun stamps : List ObservationStamp =>
    aggregate (stamps.map (verdictOf ext host now facts dir)), Option.map_eq_some_iff] at h
  obtain ⟨stamps, hgroup, rfl⟩ := h
  obtain ⟨rfl, -⟩ := OrderedMap.mem_group.mp ((OrderedMap.mem_iff_get OrderedMap.keyOrdered_group).mpr hgroup)
  rfl

/-- A report too old for a lease is no verdict; it never turns into a death. -/
theorem forClaim_of_since {observed : ObservedSessions} {tool session : Option String} {notBefore : Option Int}
    (h : observed.forClaimSince tool session notBefore = .stale) : observed.forClaim tool session = .stale := by
  unfold ObservedSessions.forClaimSince at h
  dsimp only at h
  split at h
  · split at h
    · split at h
      · cases h
      · exact h
    · exact h
  · exact h

/-- A claim whose owner is graded gone: the observer looked at this repository, and what it found. -/
theorem death_of_forClaim {tool session : Option String}
    (h : (observeSessions ext host root now facts).forClaim tool session = .stale) :
    ∃ owner, tool = some owner ∧
      (∃ stamp, IsLatest ext facts stamp ∧ stamp.tool = owner ∧
        (∀ name, session = some name → stamp.sessionKey = name) ∧ SeenDead host root stamp) ∧
      (session = none → ∀ fact ∈ facts, ∀ stamp, stampFromFact ext fact = some stamp → stamp.tool = owner →
        ∃ latest, IsLatest ext facts latest ∧ latest.tool = owner ∧ latest.sessionKey = stamp.sessionKey ∧
          ∀ pid, latest.observerPid = some pid → host.processAlive pid = some false) := by
  cases hdir : host.gitCommonDir root with
  | none => rcases tool with _ | owner <;> rcases session with _ | name <;>
      simp [observeSessions, hdir, ObservedSessions.forClaim] at h
  | some dir =>
    rcases tool with _ | owner
    · simp [ObservedSessions.forClaim] at h
    refine ⟨owner, rfl, ?_⟩
    rcases session with _ | name
    · -- without a session the verdict is the one on the tool
      cases hverdict : OrderedMap.get (verdictsByTool ext host now facts dir) owner with
      | none => simp [observeSessions, hdir, ObservedSessions.forClaim, hverdict] at h
      | some v =>
        simp only [observeSessions, hdir, ObservedSessions.forClaim, hverdict, Option.getD_some] at h
        obtain ⟨hstale, hall⟩ := aggregate_stale ((verdict_of_byTool hverdict).symm.trans h)
        obtain ⟨stamp, hmem, hgone⟩ := List.mem_map.mp hstale
        obtain ⟨hget, htool⟩ := mem_latestStamps.mp hmem
        refine ⟨⟨stamp, (isLatest_of_get hget).1, htool, nofun, seenDead_of_stale hdir hgone⟩, ?_⟩
        intro _ fact hfact other hother hotherTool
        obtain ⟨latest, hlatest⟩ := exists_latest hfact hother
        obtain ⟨hnewest, hlatestTool, hkey⟩ := isLatest_of_get hlatest
        refine ⟨latest, hnewest, hlatestTool.trans hotherTool, hkey, fun pid hpid => ?_⟩
        rw [← hlatestTool, ← hkey] at hlatest
        have hin := mem_latestStamps.mpr ⟨hlatest, hlatestTool.trans hotherTool⟩
        exact not_alive_of_graded (hall _ (List.mem_map_of_mem hin)) hpid
    · cases hget : OrderedMap.get (latestStamps ext facts) (toLex (owner, name)) with
      | none => simp [observeSessions, hdir, ObservedSessions.forClaim, hget] at h
      | some stamp =>
        simp only [observeSessions, hdir, ObservedSessions.forClaim, hget, Option.map_some, Option.getD_some] at h
        obtain ⟨hnewest, htool, hkey⟩ := isLatest_of_get hget
        refine ⟨⟨stamp, hnewest, htool, ?_, seenDead_of_stale hdir h⟩, nofun⟩
        rintro other ⟨⟩
        exact hkey

end Death

/-- **The automatic reaper needs a death.** Every row an automatic pass writes closes a claim of its snapshot whose
lease is over, and of the claim's own session, or of some session of its tool when the claim names none, the newest
stamp names a process that is gone, in a worktree of this repository that still stands at the stamped head. A claim
without a session is closed only if no newest stamp of any session of its tool names a process that is not gone. -/
theorem automatic_reap_needs_death {env : Reaper.ReapEnv} {apply : Bool} {F G : List Fact} {host : Host}
    {root : String} {now : Int} (hF : IsLedger F)
    (hmeanwhile : ∀ k L, IsLedger L → IsLedger (L ++ env.meanwhile k L))
    (hobserved : env.append.observed = observeSessions env.append.ext host root now G) :
    ∀ n ∈ (Reaper.reapPass env apply .leaseOnly F).rows,
      n.kind = .claimExpired ∧ ∃ claim ∈ (env.append.snapshot F).activeClaims, n.refId = some claim.eventId ∧
        (∃ expires, leaseBoundary env.append claim = some expires ∧ expires ≤ env.append.now) ∧
        ∃ tool, claim.tool = some tool ∧
          (∃ stamp, IsLatest env.append.ext G stamp ∧ stamp.tool = tool ∧
            (∀ session, claim.fromSessionId = some session → stamp.sessionKey = session) ∧
            SeenDead host root stamp) ∧
          (claim.fromSessionId = none → ∀ fact ∈ G, ∀ stamp, stampFromFact env.append.ext fact = some stamp →
            stamp.tool = tool → ∃ latest, IsLatest env.append.ext G latest ∧ latest.tool = tool ∧
              latest.sessionKey = stamp.sessionKey ∧
              ∀ pid, latest.observerPid = some pid → host.processAlive pid = some false) := by
  intro n hn
  have hrow := ((Reaper.passOk_reapPass hmeanwhile hF).rows n hn).2
  rcases hrow with ⟨hclaim, createdAt, seq⟩ | ⟨hhandoff, _, _⟩ | ⟨hmode, _, _, _⟩
  case handoff => exact absurd hhandoff.full (by decide)
  case lead => exact absurd hmode (by decide)
  case claim claim =>
    refine ⟨rfl, claim, hclaim.active, rfl, ?_⟩
    have heligible := hclaim.eligible
    simp only [Reaper.ReapVerdict.eligible, Bool.and_eq_true, Reaper.authorizesAutomaticReap, beq_iff_eq] at heligible
    obtain ⟨⟨hlease, -⟩, hstale⟩ := heligible
    have hexpired : ∃ expires, leaseBoundary env.append claim = some expires ∧ expires ≤ env.append.now := by
      simp only [Reaper.reapVerdict] at hlease
      cases hboundary : leaseBoundary env.append claim with
      | none => simp [hboundary] at hlease
      | some expires => exact ⟨expires, rfl, by simpa [hboundary] using hlease⟩
    have hforClaim : env.append.observed.forClaim claim.tool claim.fromSessionId = .stale := by
      simp only [Reaper.reapVerdict] at hlease hstale
      rw [if_pos hlease] at hstale
      exact forClaim_of_since hstale
    rw [hobserved] at hforClaim
    exact ⟨hexpired, death_of_forClaim hforClaim⟩

/-- Two sessions in one worktree whose leases ran out an hour in; the process of the first is gone. -/
def stampedPresence (eventId tool pid : String) (seq : Int) : Fact :=
  { eventId := eventId, seq := seq, kind := .presence, tool := some tool, fromSessionId := some ("sess:" ++ tool)
    subject := "presence", createdAt := "2026-01-01T00:00:00Z"
    evidence := ["worktree_path:/repo", "branch_head_sha:c0ffee", "observer_pid:" ++ pid] }

def leasedClaim (eventId tool path : String) (seq : Int) : Fact :=
  { eventId := eventId, seq := seq, kind := .claim, tool := some tool, fromSessionId := some ("sess:" ++ tool)
    subject := "work", scope := ["file:" ++ path], createdAt := "2026-01-01T00:00:00Z"
    evidence := ["lease_expires_at:2026-01-01T01:00:00Z"] }

def twoSessions : List Fact :=
  [stampedPresence "p1" "alice" "41" 1, stampedPresence "p2" "bob" "42" 2,
    leasedClaim "c1" "alice" "src/a.rs" 3, leasedClaim "c2" "bob" "src/b.rs" 4]

def oneProcess : Host where
  gitCommonDir _ := some "/repo/.git"
  currentHeadSha _ := some "c0ffee"
  dirtyCount _ := some 0
  newestWorktreeMtime _ := some none
  processAlive pid := some (pid == 42)

def noonObserved : AppendEnv :=
  { noon with observed := observeSessions .sample oneProcess "/repo" noon.now twoSessions }

def noonPass : Reaper.ReapEnv where
  append := noonObserved
  handoffExpirySecs := 30 * 86400
  handoffNow := noon.now
  actor := ⟨"rally", none⟩
  budgetSpent _ := false
  createdAt _ := "2026-01-01T12:00:00Z"
  boundary _ := noonObserved
  meanwhile _ _ := []
  outcomeUnknown _ := none

/-- The noon pass closes alice's claim alone, over a process seen gone. -/
theorem automatic_reap_needs_death_noon :
    (Reaper.reapPass noonPass true .leaseOnly twoSessions).rows.map (·.refId) = [some "c1"] ∧
      ∃ stamp, IsLatest .sample twoSessions stamp ∧ SeenDead oneProcess "/repo" stamp := by
  have hrows : (Reaper.reapPass noonPass true .leaseOnly twoSessions).rows.map (·.refId) = [some "c1"] := by
    decide +kernel
  have hledger : IsLedger twoSessions := ⟨by decide, by decide, by decide⟩
  have halone : ∀ k L, IsLedger L → IsLedger (L ++ noonPass.meanwhile k L) := by
    intro k L hL
    show IsLedger (L ++ [])
    rwa [List.append_nil]
  obtain ⟨n, rest, hn, -, -⟩ := List.map_eq_cons_iff.mp hrows
  have hmem : n ∈ (Reaper.reapPass noonPass true .leaseOnly twoSessions).rows := by
    rw [hn]
    exact List.mem_cons_self
  obtain ⟨-, claim, -, -, -, tool, -, ⟨stamp, hnewest, -, -, hdead⟩, -⟩ :=
    @automatic_reap_needs_death noonPass true twoSessions twoSessions oneProcess "/repo" noon.now hledger halone rfl
      n hmem
  exact ⟨hrows, stamp, hnewest, hdead⟩

/-! ## Silence -/

/-- A grade, and what it may become when somebody is heard of later than was known. -/
def Softer (before after : ObservedLiveness) : Prop :=
  after = before ∨ (before = .staleUnobserved ∧ after = .unknown)

theorem max?_mono {xs ys : List Int} (h : ∀ x ∈ xs, ∃ y ∈ ys, x ≤ y) {a : Int} (ha : xs.max? = some a) :
    ∃ b, ys.max? = some b ∧ a ≤ b := by
  obtain ⟨y, hy, hay⟩ := h a (List.max?_mem ha)
  cases hmax : ys.max? with
  | none =>
    rw [List.max?_eq_none_iff.mp hmax] at hy
    exact absurd hy List.not_mem_nil
  | some b => exact ⟨b, rfl, hay.trans ((List.max?_eq_some_iff.mp hmax).2 y hy)⟩

/-- The newest instant among the values of a key. -/
theorem foldl_keepNewer (values : List Int) :
    values.foldl (fun o v => some (keepNewer v o)) none = values.max? := by
  induction values using List.reverseRecOn with
  | nil => rfl
  | append_singleton values v ih =>
    rw [List.foldl_append, ih, List.foldl_cons, List.foldl_nil]
    cases values with
    | nil => rfl
    | cons w values => rw [List.cons_append, List.max?_cons', List.max?_cons', keepNewer, List.foldl_append]; rfl

section Quiet

variable {ext : Externals} {host : Host} {root dir : String} {now : Int} {G G' : List Fact}
  {stamp : ObservationStamp}

theorem gradeObservation_softer {sample : ProbeSample} {last last' : Option Int}
    (h : ∀ a, last = some a → ∃ b, last' = some b ∧ a ≤ b) :
    Softer (gradeObservation stamp sample now last) (gradeObservation stamp sample now last') := by
  -- the anchor of silence only moves forward
  have hanchor : (last.map fun authored => max authored stamp.reportedAt).getD stamp.reportedAt ≤
      (last'.map fun authored => max authored stamp.reportedAt).getD stamp.reportedAt := by
    cases last with
    | none => cases last' <;> simp
    | some a =>
      obtain ⟨b, rfl, hab⟩ := h a rfl
      simp only [Option.map_some, Option.getD_some]
      exact max_le_max hab (le_refl _)
  have hquiet : Reaper.numSeconds (now - (last'.map fun authored => max authored stamp.reportedAt).getD
      stamp.reportedAt) ≤ Reaper.numSeconds (now - (last.map fun authored => max authored stamp.reportedAt).getD
      stamp.reportedAt) := Int.tdiv_le_tdiv (by decide) (by omega)
  unfold Softer gradeObservation
  dsimp only
  split
  · exact Or.inl rfl
  split
  · exact Or.inl rfl
  split
  · exact Or.inl rfl
  split
  · exact Or.inl rfl
  split <;> split
  · exact Or.inl rfl
  · rename_i hnew hold
    simp only [Bool.and_eq_true, decide_eq_true_eq] at hold hnew
    exact absurd ⟨hnew.1, lt_of_lt_of_le hnew.2 hquiet⟩ hold
  · exact Or.inr ⟨rfl, rfl⟩
  · exact Or.inl rfl

theorem get_newer_mono {κ : Type} [LinearOrder κ] {pairs pairs' : List (κ × Int)}
    (h : ∀ x ∈ pairs, x ∈ pairs') {k : κ} {a : Int}
    (ha : OrderedMap.get (OrderedMap.updateAll keepNewer [] pairs) k = some a) :
    ∃ b, OrderedMap.get (OrderedMap.updateAll keepNewer [] pairs') k = some b ∧ a ≤ b := by
  rw [OrderedMap.get_updateAll List.Pairwise.nil, OrderedMap.get_nil, foldl_keepNewer] at ha ⊢
  refine max?_mono (fun x hx => ⟨x, ?_, le_refl x⟩) ha
  obtain ⟨pair, hpair, rfl⟩ := List.mem_map.mp hx
  obtain ⟨hmem, hkey⟩ := List.mem_filter.mp hpair
  exact List.mem_map.mpr ⟨pair, List.mem_filter.mpr ⟨h pair hmem, hkey⟩, rfl⟩

theorem lastAuthoredAt_mono (hmore : ∀ x ∈ G, x ∈ G') {a : Int} (ha : lastAuthoredAt ext G stamp = some a) :
    ∃ b, lastAuthoredAt ext G' stamp = some b ∧ a ≤ b := by
  refine max?_mono (fun x hx => ?_) ha
  simp only [List.mem_filterMap, List.mem_cons, List.not_mem_nil, or_false, id_eq, exists_eq_right] at hx
  rcases hx with hx | hx
  · obtain ⟨y, hy, hle⟩ := get_newer_mono (List.filterMap_subset _ hmore) hx.symm
    exact ⟨y, by simp [authoredBySession, hy], hle⟩
  · obtain ⟨y, hy, hle⟩ := get_newer_mono (List.filterMap_subset _ hmore) hx.symm
    exact ⟨y, by simp [authoredByTool, hy], hle⟩

theorem verdictOf_softer (hmore : ∀ x ∈ G, x ∈ G') :
    Softer (verdictOf ext host now G dir stamp) (verdictOf ext host now G' dir stamp) :=
  gradeObservation_softer fun _ => lastAuthoredAt_mono hmore

/-- Softer grades of the sessions leave the grade of the tool, or take it back. -/
theorem aggregate_softer {stamps : List ObservationStamp} {f g : ObservationStamp → ObservedLiveness}
    (h : ∀ s, Softer (f s) (g s)) :
    aggregate (stamps.map g) = aggregate (stamps.map f) ∨
      ((aggregate (stamps.map f) = .stale ∨ aggregate (stamps.map f) = .staleUnobserved) ∧
        aggregate (stamps.map g) = .unknown) := by
  have hkept : ∀ v, v ≠ .staleUnobserved → v ≠ .unknown → (v ∈ stamps.map g ↔ v ∈ stamps.map f) := by
    intro v hquiet hunknown
    simp only [List.mem_map]
    refine exists_congr fun s => and_congr_right fun _ => ?_
    rcases h s with hs | ⟨hs, hs'⟩
    · rw [hs]
    · rw [hs, hs']
      exact ⟨fun heq => absurd heq.symm hunknown, fun heq => absurd heq.symm hquiet⟩
  have hunknown : .unknown ∈ stamps.map f → .unknown ∈ stamps.map g := by
    simp only [List.mem_map]
    rintro ⟨s, hs, heq⟩
    refine ⟨s, hs, ?_⟩
    rcases h s with hsame | ⟨hquiet, -⟩
    · rw [hsame, heq]
    · simp [heq] at hquiet
  have hquiet : .staleUnobserved ∈ stamps.map f → .unknown ∈ stamps.map g ∨ .staleUnobserved ∈ stamps.map g := by
    simp only [List.mem_map]
    rintro ⟨s, hs, heq⟩
    rcases h s with hsame | ⟨-, hgone⟩
    · exact Or.inr ⟨s, hs, by rw [hsame, heq]⟩
    · exact Or.inl ⟨s, hs, hgone⟩
  have hquiet' : .staleUnobserved ∈ stamps.map g → .staleUnobserved ∈ stamps.map f := by
    simp only [List.mem_map]
    rintro ⟨s, hs, heq⟩
    rcases h s with hsame | ⟨-, hgone⟩
    · exact ⟨s, hs, by rw [← hsame, heq]⟩
    · simp [heq] at hgone
  simp only [aggregate, aggregateFrom_eq, hkept .live (by decide) (by decide), hkept .stale (by decide) (by decide),
    Bool.false_eq_true, false_or]
  by_cases hl : .live ∈ stamps.map f
  · simp only [if_pos hl, true_or]
  by_cases hu : .unknown ∈ stamps.map f
  · simp only [if_neg hl, if_pos hu, if_pos (hunknown hu), true_or]
  by_cases hu' : .unknown ∈ stamps.map g
  · simp only [if_neg hl, if_neg hu, if_pos hu']
    by_cases hs : .stale ∈ stamps.map f
    · simp only [if_pos hs, true_or, and_self, or_true]
    · by_cases hq : .staleUnobserved ∈ stamps.map f
      · simp only [if_neg hs, if_pos hq, or_true, and_self]
      · simp only [if_neg hs, if_neg hq, true_or]
  · have hsame : .staleUnobserved ∈ stamps.map g ↔ .staleUnobserved ∈ stamps.map f :=
      ⟨hquiet', fun hq => (hquiet hq).resolve_left hu'⟩
    simp only [if_neg hl, if_neg hu, if_neg hu', hsame, true_or]

end Quiet

/-- **Quiet cannot be planted.** Facts added to a ledger that bring no new stamp, whatever tool they name and whatever
time they carry, leave the grade of every claim's owner as it is or turn a gone or quiet owner into an unknown one;
nobody else's grade gets worse. -/
theorem quiet_cannot_be_planted {ext : Externals} {host : Host} {root : String} {now : Int} {G G' : List Fact}
    (hmore : ∀ x ∈ G, x ∈ G') (hstamps : G'.filterMap (stampFromFact ext) = G.filterMap (stampFromFact ext))
    (tool session : Option String) :
    let before := (observeSessions ext host root now G).forClaim tool session
    let after := (observeSessions ext host root now G').forClaim tool session
    after = before ∨ ((before = .stale ∨ before = .staleUnobserved) ∧ after = .unknown) := by
  have hlatest : latestStamps ext G' = latestStamps ext G := by
    rw [latestStamps, latestStamps, keyedStamps, keyedStamps, hstamps]
  dsimp only [observeSessions]
  cases host.gitCommonDir root with
  | none => exact Or.inl rfl
  | some dir =>
    rcases tool with _ | owner
    · exact Or.inl rfl
    rcases session with _ | name
    · -- the tool has the same sessions in both ledgers, each graded softer or alike
      simp only [ObservedSessions.forClaim, verdictsByTool, hlatest]
      rw [OrderedMap.get_map fun stamps : List ObservationStamp =>
          aggregate (stamps.map (verdictOf ext host now G' dir)),
        OrderedMap.get_map fun stamps : List ObservationStamp =>
          aggregate (stamps.map (verdictOf ext host now G dir))]
      cases OrderedMap.get (OrderedMap.group (·.tool) ((latestStamps ext G).map (·.2))) owner with
      | none => exact Or.inl rfl
      | some stamps => exact aggregate_softer fun s => verdictOf_softer hmore
    · simp only [ObservedSessions.forClaim, hlatest]
      cases OrderedMap.get (latestStamps ext G) (toLex (owner, name)) with
      | none => exact Or.inl rfl
      | some stamp =>
        rcases @verdictOf_softer ext host dir now G G' stamp hmore with hsame | ⟨hquiet, hunknown⟩
        · exact Or.inl hsame
        · exact Or.inr ⟨Or.inr hquiet, hunknown⟩

/-- A row planted in alice's name moves her grade at most to unknown. -/
theorem quiet_cannot_be_planted_noon :
    let plant := { peerWithdrawal "other" with tool := some "alice", seq := 5 }
    let before := (observeSessions .sample oneProcess "/repo" noon.now twoSessions).forClaim
      (some "alice") (some "sess:alice")
    let after := (observeSessions .sample oneProcess "/repo" noon.now (twoSessions ++ [plant])).forClaim
      (some "alice") (some "sess:alice")
    after = before ∨ ((before = .stale ∨ before = .staleUnobserved) ∧ after = .unknown) :=
  quiet_cannot_be_planted (fun _ hx => List.mem_append_left _ hx) (by rw [List.filterMap_append]; rfl) _ _

end RallyPoint.Observer
