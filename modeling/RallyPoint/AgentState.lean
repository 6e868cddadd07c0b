/-
# RallyPoint.AgentState — typed status posts, written as markers and projected back (`lib.rs`, `agent_state.rs`).

A status post joins its fields with a bar between blanks into the subject of a presence fact, and the board splits
the subject at every bar. Nothing on the way looks inside a field, so a field that holds a bar loses its end and
brings in markers of its own, and those can override any field before them, the state included.
-/
import RallyPoint.Lib.Markers
import RallyPoint.Fact

namespace RallyPoint

open Lib

/-! ## The post -/

structure StatusPostArgs where
  file : Option String := none
  intent : Option String := none
  blockedRef : Option String := none
  wakeAfter : Option String := none
  committedSha : Option String := none
  worktreeBranch : Option String := none
  deriving DecidableEq, Repr

/-- `build_status_subject`. -/
def buildStatusSubject (state : String) (args : StatusPostArgs) : String :=
  let parts := ["state=" ++ state] ++ (args.file.map ("file=" ++ ·)).toList ++
    (args.intent.map ("intent=" ++ ·)).toList ++ (args.blockedRef.map ("ref=" ++ ·)).toList ++
    (args.wakeAfter.map ("wake_after=" ++ ·)).toList ++ (args.committedSha.map ("committed_sha=" ++ ·)).toList ++
    (args.worktreeBranch.map ("worktree_branch=" ++ ·)).toList
  join " | " parts

/-- `validate_status_post_args`; `debug` renders a text as `{:?}` does. -/
def validateStatusPostArgs (debug : String → String) (state : String) (args : StatusPostArgs) : Result Unit :=
  if state = "idle" then .ok ()
  else if state = "working" then
    if args.file.isNone || args.intent.isNone then
      .error (.usage "rally status post --state working requires --file <path> and --intent <one-line>")
    else .ok ()
  else if state = "blocked" then
    if args.blockedRef.isNone then
      .error (.usage "rally status post --state blocked requires --blocked-ref <event-id>")
    else .ok ()
  else if state = "done" then
    if args.committedSha.isNone || args.worktreeBranch.isNone then
      .error (.usage
        "rally status post --state done requires --committed-sha <sha> and --worktree-branch <branch>")
    else .ok ()
  else .error (.usage ("rally status post --state must be one of idle|working|blocked|done; got " ++ debug state))

/-! ## The projection -/

inductive AgentState
  | idle (wakeAfter : Option String)
  | working (file intent : String)
  | blocked (refId : String)
  | done (committedSha worktreeBranch : String)
  | unknown (raw : String)
  deriving DecidableEq, Repr

/-- The markers of the subject, and those of the summary under the keys the subject has not. -/
def presenceMarkers (fact : Fact) : List (String × String) :=
  match fact.summary with
  | none => markerMap fact.subject
  | some summary => OrderedMap.updateAll (fun v entry => entry.getD v) (markerMap fact.subject) (markerMap summary)

/-- The state a marker names, with the fields that go with it. -/
def agentStateOf (state : String) (marker : String → Option String) : AgentState :=
  if state = "idle" then .idle (marker "wake_after")
  else if state = "working" then .working ((marker "file").getD "") ((marker "intent").getD "")
  else if state = "blocked" then .blocked ((marker "ref").getD "")
  else if state = "done" then .done ((marker "committed_sha").getD "") ((marker "worktree_branch").getD "")
  else .unknown state

/-- `project_presence_to_state`. -/
def projectPresenceToState (fact : Fact) : Option AgentState :=
  let markers := presenceMarkers fact
  (OrderedMap.get markers "state").map fun state => agentStateOf state (OrderedMap.get markers)

/-! ## What was posted -/

/-- The fields of a post in the order of the subject. -/
def statusFields (state : String) (args : StatusPostArgs) : List (String × String) :=
  [("state", state)] ++ (args.file.map ("file", ·)).toList ++ (args.intent.map ("intent", ·)).toList ++
    (args.blockedRef.map ("ref", ·)).toList ++ (args.wakeAfter.map ("wake_after", ·)).toList ++
    (args.committedSha.map ("committed_sha", ·)).toList ++ (args.worktreeBranch.map ("worktree_branch", ·)).toList

/-- The keys that the projection of a state reads. -/
def statusKeys (state : String) : List String :=
  "state" ::
    (if state = "idle" then ["wake_after"]
    else if state = "working" then ["file", "intent"]
    else if state = "blocked" then ["ref"]
    else ["committed_sha", "worktree_branch"])

/-- The value posted under a key, trimmed. -/
def postedValue (state : String) (args : StatusPostArgs) (key : String) : Option String :=
  ((statusFields state args).find? fun field => field.1 == key).map fun field => trim field.2

/-- The posted state with the posted values, trimmed. -/
def postedState (state : String) (args : StatusPostArgs) : AgentState := agentStateOf state (postedValue state args)

/-- The fields that the projection reads are written without a bar, and no other field brings in a marker that
stands where one of them is read. -/
structure Transparent (state : String) (args : StatusPostArgs) (summary : Option String) : Prop where
  plain : ∀ field ∈ statusFields state args, field.1 ∈ statusKeys state → '|' ∉ field.2.toList
  /-- No later field overrides one, unless with its own value. -/
  kept : ∀ earlier field later, statusFields state args = earlier ++ field :: later → field.1 ∈ statusKeys state →
    ∀ w, lastValue (later.flatMap fun other => injected other.2) field.1 = some w → w = trim field.2
  /-- An idle post without a wake time gets none from a field or from a flag of the summary. -/
  absent : state = "idle" → args.wakeAfter = none →
    (∀ field ∈ statusFields state args, ∀ m ∈ injected field.2, m.1 ≠ "wake_after") ∧
      ∀ text, summary = some text → "wake_after" ∉ (split '|' text).map trim

/-! ## The subject as fields -/

def allStatusKeys : List String :=
  ["state", "file", "intent", "ref", "wake_after", "committed_sha", "worktree_branch"]

section Spec

variable {debug : String → String} {state key value : String} {args : StatusPostArgs} {fact : Fact}

theorem map_renderMarker_toList (pre key : String) (o : Option String) (h : pre = key ++ "=") :
    (o.map (pre ++ ·)).toList = (o.map (key, ·)).toList.map renderMarker := by
  subst h
  cases o <;> rfl

/-- **The subject** is its fields, rendered. -/
theorem buildStatusSubject_eq : buildStatusSubject state args = renderMarkers (statusFields state args) := by
  have hstate : ["state=" ++ state] = [("state", state)].map renderMarker := by
    have h := map_renderMarker_toList "state=" "state" (some state) (by decide)
    exact h
  rw [buildStatusSubject, renderMarkers, statusFields]
  simp only [List.map_append]
  rw [hstate, map_renderMarker_toList "file=" "file" _ (by decide),
    map_renderMarker_toList "intent=" "intent" _ (by decide), map_renderMarker_toList "ref=" "ref" _ (by decide),
    map_renderMarker_toList "wake_after=" "wake_after" _ (by decide),
    map_renderMarker_toList "committed_sha=" "committed_sha" _ (by decide),
    map_renderMarker_toList "worktree_branch=" "worktree_branch" _ (by decide)]

theorem keys_toList_sublist (key : String) (o : Option String) :
    ((o.map (key, ·)).toList.map (·.1)).Sublist [key] := by
  cases o with
  | none => exact List.nil_sublist _
  | some v => exact List.Sublist.refl _

theorem statusFields_keys : ((statusFields state args).map (·.1)).Sublist allStatusKeys := by
  rw [statusFields]
  simp only [List.map_append]
  exact ((((((List.Sublist.refl ["state"]).append (keys_toList_sublist _ _)).append (keys_toList_sublist _ _)).append
    (keys_toList_sublist _ _)).append (keys_toList_sublist _ _)).append (keys_toList_sublist _ _)).append
      (keys_toList_sublist _ _)

theorem nodup_statusFields : ((statusFields state args).map (·.1)).Nodup :=
  statusFields_keys.nodup (by decide)

theorem plainKey_of_mem {field : String × String} (h : field ∈ statusFields state args) : PlainKey field.1 := by
  have hall : ∀ key ∈ allStatusKeys, PlainKey key := by
    intro key hkey
    simp only [allStatusKeys, List.mem_cons, List.not_mem_nil, or_false] at hkey
    rcases hkey with rfl | rfl | rfl | rfl | rfl | rfl | rfl <;> exact ⟨by decide, by decide, by decide⟩
  exact hall _ (statusFields_keys.subset (List.mem_map_of_mem h))

theorem postedValue_of_mem (h : (key, value) ∈ statusFields state args) :
    postedValue state args key = some (trim value) := by
  obtain ⟨earlier, later, hfields⟩ := List.append_of_mem h
  have hnodup := @nodup_statusFields state args
  rw [hfields, List.map_append, List.map_cons] at hnodup
  have hbefore : ∀ field ∈ earlier, ¬ (field.1 == key) = true := by
    intro field hfield hkey
    have hmem : key ∈ earlier.map (·.1) := List.mem_map.mpr ⟨field, hfield, beq_iff_eq.mp hkey⟩
    exact (List.nodup_append.mp hnodup).2.2 key hmem key List.mem_cons_self rfl
  rw [postedValue, hfields, List.find?_append, List.find?_eq_none.mpr hbefore, Option.none_or,
    List.find?_cons_of_pos (by simp)]
  rfl

theorem keys_ne_of_later {earlier later : List (String × String)}
    (h : statusFields state args = earlier ++ (key, value) :: later) : ∀ field ∈ later, field.1 ≠ key := by
  intro field hfield hkey
  have hnodup := @nodup_statusFields state args
  rw [h, List.map_append, List.map_cons] at hnodup
  have htail := (List.nodup_cons.mp (List.nodup_append.mp hnodup).2.1).1
  exact htail (List.mem_map.mpr ⟨field, hfield, hkey⟩)

/-! ## What the board reads -/

theorem get_presenceMarkers :
    OrderedMap.get (presenceMarkers fact) key =
      (lastValue (markersOf fact.subject) key).or
        (fact.summary.bind fun summary => lastValue (markersOf summary) key) := by
  rw [presenceMarkers]
  cases fact.summary with
  | none => simp [get_markerMap]
  | some summary =>
    have hsubject : KeyOrdered (·.1) (markerMap fact.subject) := OrderedMap.keyOrdered_updateAll List.Pairwise.nil
    have hsummary : KeyOrdered (·.1) (markerMap summary) := OrderedMap.keyOrdered_updateAll List.Pairwise.nil
    rw [OrderedMap.get_updateAll hsubject, OrderedMap.valuesAt_eq_toList hsummary, get_markerMap, get_markerMap,
      Option.bind_some]
    cases lastValue (markersOf summary) key <;> cases lastValue (markersOf fact.subject) key <;> rfl

theorem markersOf_subject (hsubject : fact.subject = buildStatusSubject state args) :
    markersOf fact.subject =
      (statusFields state args).flatMap fun field => (field.1, ownValue field.2) :: injected field.2 := by
  rw [hsubject, buildStatusSubject_eq, markersOf_render fun field hfield => plainKey_of_mem hfield]

/-- A posted field is read from the subject, whatever its value became. -/
theorem get_of_mem (hsubject : fact.subject = buildStatusSubject state args)
    (h : (key, value) ∈ statusFields state args) :
    ∃ w, lastValue (markersOf fact.subject) key = some w ∧ OrderedMap.get (presenceMarkers fact) key = some w := by
  cases hread : lastValue (markersOf fact.subject) key with
  | none =>
    rw [lastValue_eq_none_iff, markersOf_subject hsubject] at hread
    exact absurd rfl (hread (key, ownValue value) (List.mem_flatMap.mpr ⟨_, h, List.mem_cons_self⟩))
  | some w => exact ⟨w, rfl, by rw [get_presenceMarkers, hread, Option.some_or]⟩

/-- **A posted field is read as posted** exactly when nothing in it or behind it is in the way. -/
theorem get_eq_posted_iff (hsubject : fact.subject = buildStatusSubject state args)
    {earlier later : List (String × String)} (h : statusFields state args = earlier ++ (key, value) :: later) :
    OrderedMap.get (presenceMarkers fact) key = postedValue state args key ↔
      '|' ∉ value.toList ∧
        ∀ w, lastValue (later.flatMap fun field => injected field.2) key = some w → w = trim value := by
  have hmem : (key, value) ∈ statusFields state args := by simp [h]
  obtain ⟨w, hread, hget⟩ := get_of_mem hsubject hmem
  rw [hget, postedValue_of_mem hmem, ← hread, markersOf_subject hsubject, h]
  exact lastValue_field_iff (keys_ne_of_later h)

theorem mem_statusFields : (key, value) ∈ statusFields state args ↔
    (key = "state" ∧ value = state) ∨ (key = "file" ∧ args.file = some value) ∨
      (key = "intent" ∧ args.intent = some value) ∨ (key = "ref" ∧ args.blockedRef = some value) ∨
      (key = "wake_after" ∧ args.wakeAfter = some value) ∨
      (key = "committed_sha" ∧ args.committedSha = some value) ∨
      (key = "worktree_branch" ∧ args.worktreeBranch = some value) := by
  simp only [statusFields, List.mem_append, List.mem_singleton, Option.mem_toList, Option.map_eq_some_iff,
    Prod.mk.injEq]
  aesop

/-! ## Which posts come back -/

/-- The keys a projection reads are posted, but for the wake time of an idle agent. -/
theorem posted_of_mem_statusKeys (h : validateStatusPostArgs debug state args = .ok ())
    (hkey : key ∈ statusKeys state) :
    (∃ value, (key, value) ∈ statusFields state args) ∨
      state = "idle" ∧ key = "wake_after" ∧ args.wakeAfter = none := by
  simp only [mem_statusFields]
  unfold validateStatusPostArgs at h
  unfold statusKeys at hkey
  rcases List.mem_cons.mp hkey with rfl | hkey
  · exact Or.inl ⟨state, Or.inl ⟨rfl, rfl⟩⟩
  split_ifs at h hkey with hidle hworking hmissing hblocked hmissing hdone hmissing
  · obtain rfl := List.mem_singleton.mp hkey
    cases hwake : args.wakeAfter with
    | none => exact Or.inr ⟨hidle, rfl, rfl⟩
    | some value => exact Or.inl ⟨value, by simp⟩
  · simp only [Bool.or_eq_true, not_or, Option.isNone_iff_eq_none, ← ne_eq, Option.ne_none_iff_exists'] at hmissing
    obtain ⟨⟨file, hfile⟩, intent, hintent⟩ := hmissing
    rcases List.mem_pair.mp hkey with rfl | rfl
    · exact Or.inl ⟨file, by simp [hfile]⟩
    · exact Or.inl ⟨intent, by simp [hintent]⟩
  · simp only [Option.isNone_iff_eq_none, ← ne_eq, Option.ne_none_iff_exists'] at hmissing
    obtain ⟨ref, href⟩ := hmissing
    obtain rfl := List.mem_singleton.mp hkey
    exact Or.inl ⟨ref, by simp [href]⟩
  · simp only [Bool.or_eq_true, not_or, Option.isNone_iff_eq_none, ← ne_eq, Option.ne_none_iff_exists'] at hmissing
    obtain ⟨⟨sha, hsha⟩, branch, hbranch⟩ := hmissing
    rcases List.mem_pair.mp hkey with rfl | rfl
    · exact Or.inl ⟨sha, by simp [hsha]⟩
    · exact Or.inl ⟨branch, by simp [hbranch]⟩

theorem state_cases (h : validateStatusPostArgs debug state args = .ok ()) :
    state = "idle" ∨ state = "working" ∨ state = "blocked" ∨ state = "done" := by
  unfold validateStatusPostArgs at h
  split_ifs at h with hidle hworking hmissing hblocked hmissing hdone hmissing
  · exact Or.inl hidle
  · exact Or.inr (Or.inl hworking)
  · exact Or.inr (Or.inr (Or.inl hblocked))
  · exact Or.inr (Or.inr (Or.inr hdone))

/-- An accepted state is the only name of its projection. -/
theorem state_of_agentStateOf {found : String} {read posted : String → Option String}
    (h : validateStatusPostArgs debug state args = .ok ())
    (heq : agentStateOf found read = agentStateOf state posted) :
    found = state := by
  unfold agentStateOf at heq
  rcases state_cases h with rfl | rfl | rfl | rfl <;> split_ifs at heq <;> simp_all

/-- **A post comes back** exactly when each key that its projection reads is read as posted. -/
theorem project_eq_posted_iff_keys (h : validateStatusPostArgs debug state args = .ok ())
    (hsubject : fact.subject = buildStatusSubject state args) :
    projectPresenceToState fact = some (postedState state args) ↔
      ∀ key ∈ statusKeys state, OrderedMap.get (presenceMarkers fact) key = postedValue state args key := by
  have hstate : ("state", state) ∈ statusFields state args := mem_statusFields.mpr (Or.inl ⟨rfl, rfl⟩)
  have htrim : postedValue state args "state" = some state := by
    rw [postedValue_of_mem hstate]
    rcases state_cases h with rfl | rfl | rfl | rfl <;> decide
  have hget : ∀ {key : String}, key ∈ statusKeys state → key ≠ "wake_after" →
      ∃ w v, OrderedMap.get (presenceMarkers fact) key = some w ∧ postedValue state args key = some v := by
    intro key hkey hwake
    rcases posted_of_mem_statusKeys h hkey with ⟨value, hmem⟩ | ⟨-, hkey', -⟩
    · obtain ⟨w, -, hw⟩ := get_of_mem hsubject hmem
      exact ⟨w, trim value, hw, postedValue_of_mem hmem⟩
    · exact absurd hkey' hwake
  unfold projectPresenceToState
  constructor
  · intro hproject
    obtain ⟨found, hfound, heq⟩ := Option.map_eq_some_iff.mp hproject
    obtain rfl := state_of_agentStateOf h heq
    rw [← htrim] at hfound
    intro key hkey
    have hgetD : ∀ {key : String}, key ∈ statusKeys found → key ≠ "wake_after" →
        (OrderedMap.get (presenceMarkers fact) key).getD "" = (postedValue found args key).getD "" →
        OrderedMap.get (presenceMarkers fact) key = postedValue found args key := by
      intro key hkey hwake hvalue
      obtain ⟨w, v, hw, hv⟩ := hget hkey hwake
      rw [hw, hv] at hvalue ⊢
      exact congrArg some hvalue
    unfold statusKeys at hkey
    rcases List.mem_cons.mp hkey with rfl | hkey
    · exact hfound
    unfold postedState at heq
    rcases state_cases h with rfl | rfl | rfl | rfl
    · obtain rfl : key = "wake_after" := by simpa using hkey
      exact AgentState.idle.inj heq
    · obtain ⟨hfile, hintent⟩ := AgentState.working.inj heq
      rcases List.mem_pair.mp hkey with rfl | rfl
      · exact hgetD (by decide) (by decide) hfile
      · exact hgetD (by decide) (by decide) hintent
    · obtain rfl : key = "ref" := by simpa using hkey
      exact hgetD (by decide) (by decide) (AgentState.blocked.inj heq)
    · obtain ⟨hsha, hbranch⟩ := AgentState.done.inj heq
      rcases List.mem_pair.mp hkey with rfl | rfl
      · exact hgetD (by decide) (by decide) hsha
      · exact hgetD (by decide) (by decide) hbranch
  · intro hkeys
    show (OrderedMap.get (presenceMarkers fact) "state").map _ = _
    rw [hkeys "state" List.mem_cons_self, htrim, Option.map_some, postedState]
    congr 1
    rcases state_cases h with rfl | rfl | rfl | rfl
    · exact congrArg AgentState.idle (hkeys "wake_after" (by decide))
    · exact congrArg₂ (fun a b => AgentState.working (a.getD "") (b.getD "")) (hkeys "file" (by decide))
        (hkeys "intent" (by decide))
    · exact congrArg (fun a => AgentState.blocked (a.getD "")) (hkeys "ref" (by decide))
    · exact congrArg₂ (fun a b => AgentState.done (a.getD "") (b.getD "")) (hkeys "committed_sha" (by decide))
        (hkeys "worktree_branch" (by decide))

/-- **A status post comes back** as the posted state with the posted values exactly when it is transparent. -/
theorem status_post_round_trips_iff (debug : String → String) (state : String) (args : StatusPostArgs) (fact : Fact)
    (h : validateStatusPostArgs debug state args = .ok ()) (hsubject : fact.subject = buildStatusSubject state args)
    (hsummary : ∀ text, fact.summary = some text → '=' ∉ text.toList) :
    projectPresenceToState fact = some (postedState state args) ↔ Transparent state args fact.summary := by
  have habsent : state = "idle" → args.wakeAfter = none →
      ∀ field ∈ statusFields state args, field.1 ≠ "wake_after" := by
    intro hidle hwake field hfield hkey
    have hmem : ("wake_after", field.2) ∈ statusFields state args := hkey ▸ hfield
    rcases mem_statusFields.mp hmem with ⟨hk, -⟩ | ⟨hk, -⟩ | ⟨hk, -⟩ | ⟨hk, -⟩ | ⟨-, hv⟩ | ⟨hk, -⟩ | ⟨hk, -⟩
    all_goals first | exact absurd hk (by decide) | simp [hwake] at hv
  -- without a wake time the key has no value, and nothing may give it one
  have hidleIff : state = "idle" → args.wakeAfter = none →
      (OrderedMap.get (presenceMarkers fact) "wake_after" = postedValue state args "wake_after" ↔
        (∀ field ∈ statusFields state args, ∀ m ∈ injected field.2, m.1 ≠ "wake_after") ∧
          ∀ text, fact.summary = some text → "wake_after" ∉ (split '|' text).map trim) := by
    intro hidle hwake
    have hnone : postedValue state args "wake_after" = none := by
      rw [postedValue, List.find?_eq_none.mpr, Option.map_none]
      intro field hfield
      simpa using habsent hidle hwake field hfield
    rw [hnone, get_presenceMarkers, Option.or_eq_none_iff, markersOf_subject hsubject,
      lastValue_absent_iff (habsent hidle hwake)]
    apply and_congr Iff.rfl
    cases htext : fact.summary with
    | none => simp
    | some text =>
      rw [Option.bind_some, lastValue_flags_eq_none_iff (hsummary text htext) (by decide)]
      simp
  rw [project_eq_posted_iff_keys h hsubject]
  constructor
  · intro hkeys
    refine ⟨?_, ?_, ?_⟩
    · intro field hfield hkey
      obtain ⟨earlier, later, hfields⟩ := List.append_of_mem hfield
      exact ((get_eq_posted_iff hsubject hfields).mp (hkeys field.1 hkey)).1
    · intro earlier field later hfields hkey
      exact ((get_eq_posted_iff hsubject hfields).mp (hkeys field.1 hkey)).2
    · intro hidle hwake
      have hkey : "wake_after" ∈ statusKeys state := by
        rw [hidle]
        decide
      exact (hidleIff hidle hwake).mp (hkeys "wake_after" hkey)
  · intro htransparent key hkey
    rcases posted_of_mem_statusKeys h hkey with ⟨value, hmem⟩ | ⟨hidle, rfl, hwake⟩
    · obtain ⟨earlier, later, hfields⟩ := List.append_of_mem hmem
      exact (get_eq_posted_iff hsubject hfields).mpr
        ⟨htransparent.plain (key, value) hmem hkey, htransparent.kept earlier (key, value) later hfields hkey⟩
    · exact (hidleIff hidle hwake).mpr (htransparent.absent hidle hwake)

end Spec

section Sample

/-- A post without bars. -/
def plainPost : StatusPostArgs := { file := some "src/lib.rs", intent := some " review " }

def plainFact : Fact :=
  { kind := .presence, subject := buildStatusSubject "working" plainPost, tool := some "codex",
    summary := some "build_id:1" }

theorem noEquals_buildId (fact : Fact) (h : fact.summary = some "build_id:1") :
    ∀ text, fact.summary = some text → '=' ∉ text.toList := by
  intro text htext
  rw [h] at htext
  obtain rfl := Option.some.inj htext
  decide +kernel

theorem status_post_round_trips_iff_plain :
    projectPresenceToState plainFact = some (.working "src/lib.rs" "review") ∧
      Transparent "working" plainPost plainFact.summary := by
  have hread : projectPresenceToState plainFact = some (postedState "working" plainPost) := by decide +kernel
  refine ⟨by decide +kernel, ?_⟩
  exact (status_post_round_trips_iff id "working" plainPost plainFact (by decide) rfl
    (noEquals_buildId plainFact rfl)).mp hread

/-- A working post whose intent has a bar in it. -/
def barredPost : StatusPostArgs :=
  { file := some "src/lib.rs", intent := some "review|state=done" }

def barredFact : Fact :=
  { kind := .presence, subject := buildStatusSubject "working" barredPost, tool := some "codex",
    summary := some "build_id:1" }

/-- The intent is cut at the bar, and the agent that started to work is shown as done. -/
theorem barred_post_reads_done :
    validateStatusPostArgs id "working" barredPost = .ok () ∧
      (∀ text, barredFact.summary = some text → '=' ∉ text.toList) ∧
      projectPresenceToState barredFact = some (.done "" "") ∧
      projectPresenceToState barredFact ≠ some (postedState "working" barredPost) := by
  have hread : projectPresenceToState barredFact = some (.done "" "") := by decide +kernel
  refine ⟨by decide, noEquals_buildId barredFact rfl, hread, ?_⟩
  rw [hread]
  decide +kernel

end Sample

end RallyPoint
