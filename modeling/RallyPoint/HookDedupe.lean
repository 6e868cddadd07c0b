/-
# RallyPoint.HookDedupe — one event, several registrations (`hook_runtime.rs`).

A host that has loaded a plugin and a project registration calls the hook once for each, with the same envelope.
The calls share a small state file of five counters: the time of the last call, the calls of each registration, and
how many were let run. A call runs when it raises the largest count of a registration above that, so the order of
the calls does not matter (`runs_steady`). The counters survive their way through the text of the file
(`readValues_render`), and the file's own line about retention is in nobody's way.
-/
import Mathlib.Data.List.Chain
import RallyPoint.Lib.Pieces
import RallyPoint.StableId

namespace RallyPoint.HookDedupe

open Lib

/-! ## The state file -/

def filenameChar (c : Char) : Char :=
  if isAsciiAlphanumeric c || c == '_' || c == '-' || c == '.' || c == ':' then c else '_'

def filenameSegment (value : String) : String := String.ofList ((value.toList.map filenameChar).take 120)

/-- FNV-1a of the envelope. -/
def stableSignature (material : String) : Nat := (utf8Bytes material).foldl fnvStep 0xcbf29ce484222325

/-- The five numbers of a state file. -/
structure DedupeValues where
  epoch : Nat := 0
  plugin : Nat := 0
  project : Nat := 0
  global : Nat := 0
  executed : Nat := 0
  deriving DecidableEq, Repr

/-- The registrations that take part. -/
inductive Registration
  | plugin | project | global
  deriving DecidableEq, Repr

def Registration.parse : String → Option Registration
  | "plugin" => some plugin
  | "project" => some project
  | "global" => some global
  | _ => none

namespace DedupeValues

def toList (v : DedupeValues) : List Nat := [v.epoch, v.plugin, v.project, v.global, v.executed]

/-- Five numbers are taken over, any other count leaves zeros. -/
def ofList : List Nat → DedupeValues
  | [epoch, plugin, project, global, executed] => ⟨epoch, plugin, project, global, executed⟩
  | _ => {}

/-- `saturating_add(1)` on the count of a registration. -/
def bump (v : DedupeValues) : Registration → DedupeValues
  | .plugin => { v with plugin := min (v.plugin + 1) (2 ^ 64 - 1) }
  | .project => { v with project := min (v.project + 1) (2 ^ 64 - 1) }
  | .global => { v with global := min (v.global + 1) (2 ^ 64 - 1) }

def maxCount (v : DedupeValues) : Nat := max (max v.plugin v.project) v.global

end DedupeValues

def readValues (text : String) : DedupeValues := .ofList ((splitWhitespace text).filterMap parseU64)

def dedupeRetention (text : String) : Option Nat :=
  ((lines text)[1]?.bind (stripPrefix "retention_secs=")).bind fun rest => (parseU64 rest).filter (0 < ·)

def renderState (v : DedupeValues) (retention : Option Nat) : String :=
  toString v.epoch ++ " " ++ toString v.plugin ++ " " ++ toString v.project ++ " " ++ toString v.global ++ " " ++
    toString v.executed ++ "\nretention_secs=" ++ (retention.map toString).getD "unknown" ++ "\n"

/-! ## One call -/

inductive DedupeVerdict
  | run | suppress
  deriving DecidableEq, Repr

/-- The counters that still count: none after a step back of the clock or a gap longer than the window. -/
def current (window now : Nat) (values : DedupeValues) : DedupeValues :=
  if now < values.epoch || window < now - values.epoch then {} else values

/-- A call runs when a count exceeds what was let run. -/
def settle (values : DedupeValues) : DedupeValues × Bool :=
  if values.executed < values.maxCount then ({ values with executed := values.maxCount }, true) else (values, false)

/-- The counters after a call, and whether it runs. -/
def decideEvent (window now : Nat) (source : Registration) (values : DedupeValues) : DedupeValues × Bool :=
  settle ({ current window now values with epoch := now }.bump source)

/-- What the file system answers during a call. -/
structure DedupeIo where
  dirCreated : Bool := true
  lockAcquired : Bool := true
  readable : Bool := true
  written : Bool := true

def stateName (session phase material : String) : String :=
  filenameSegment session ++ "." ++ filenameSegment phase ++ "." ++ toString (stableSignature material) ++ ".state"

/-- A call, on the state files of the directory. -/
def dedupeEvent (io : DedupeIo) (files : String → Option String) (source session phase material : String)
    (windowSecs nowEpoch : Nat) : DedupeVerdict × (String → Option String) :=
  match Registration.parse source with
  | none => (.run, files)
  | some registration =>
    if !io.dirCreated || !io.lockAcquired then (.run, files)
    else
      let window := if windowSecs = 0 then 5 else windowSecs
      let name := stateName session phase material
      let text := (files name).filter fun _ => io.readable
      -- a file that is there and cannot be read has an unknown retention
      let retention := match text with
        | some text => (dedupeRetention text).map (max · window)
        | none => if (files name).isSome then none else some window
      let values := (text.map readValues).getD {}
      let decided := decideEvent window nowEpoch registration values
      if !io.written then (.run, files)
      else
        (if decided.2 then .run else .suppress,
          fun other => if other = name then some (renderState decided.1 retention) else files other)

/-! ## Reading back -/

/-- Five numbers of 64 bits. -/
structure DedupeValues.Bounded (v : DedupeValues) : Prop where
  epoch : v.epoch < 2 ^ 64
  plugin : v.plugin < 2 ^ 64
  project : v.project < 2 ^ 64
  global : v.global < 2 ^ 64
  executed : v.executed < 2 ^ 64

section Text

variable {v : DedupeValues} {retention : Option Nat}

/-- The line about retention, without its line feed. -/
def retentionLine (retention : Option Nat) : String :=
  "retention_secs=" ++ (retention.map toString).getD "unknown"

theorem isWord_retentionLine (retention : Option Nat) : IsWord (retentionLine retention) where
  nonempty := by
    intro h
    have hlist := congrArg String.toList h
    rw [retentionLine, String.toList_append] at hlist
    cases hlist
  noBlank := by
    intro c hc
    rw [retentionLine, String.toList_append, List.mem_append] at hc
    rcases hc with hc | hc
    · have hnone : "retention_secs=".toList.any isWhitespace = false := by decide
      exact Bool.eq_false_iff.mpr (List.any_eq_false.mp hnone c hc)
    · cases retention with
      | none =>
        have hnone : "unknown".toList.any isWhitespace = false := by decide
        exact Bool.eq_false_iff.mpr (List.any_eq_false.mp hnone c hc)
      | some r => exact noBlank_toString r c hc

/-- The line about retention is no number. -/
theorem parseU64_retentionLine (retention : Option Nat) : parseU64 (retentionLine retention) = none := by
  rw [parseU64, retentionLine, String.toList_append]
  rfl

theorem renderState_eq : renderState v retention =
    toString v.epoch ++ String.singleton ' ' ++ (toString v.plugin ++ String.singleton ' ' ++ (toString v.project ++
      String.singleton ' ' ++ (toString v.global ++ String.singleton ' ' ++ (toString v.executed ++
        String.singleton '\n' ++ (retentionLine retention ++ String.singleton '\n' ++ ""))))) := by
  have hfeed : "\nretention_secs=" = String.singleton '\n' ++ "retention_secs=" := by decide
  have hblank : " " = String.singleton ' ' := by decide
  have hend : "\n" = String.singleton '\n' := by decide
  rw [renderState, retentionLine, hfeed, hblank, hend]
  simp only [String.append_assoc, String.append_empty]

/-- **The counters are read back** as they were written, whatever stands in the line about retention. -/
theorem numbers_renderState (hv : v.Bounded) :
    (splitWhitespace (renderState v retention)).filterMap parseU64 = v.toList := by
  have hwords : splitWhitespace (renderState v retention) =
      [toString v.epoch, toString v.plugin, toString v.project, toString v.global, toString v.executed,
        retentionLine retention] := by
    have hspace : isWhitespace ' ' = true := by decide
    have hfeed : isWhitespace '\n' = true := by decide
    rw [renderState_eq, splitWhitespace_append (isWord_toString _) hspace,
      splitWhitespace_append (isWord_toString _) hspace, splitWhitespace_append (isWord_toString _) hspace,
      splitWhitespace_append (isWord_toString _) hspace, splitWhitespace_append (isWord_toString _) hfeed,
      splitWhitespace_append (isWord_retentionLine retention) hfeed]
    rfl
  rw [hwords]
  simp only [List.filterMap_cons, parseU64_toString hv.epoch, parseU64_toString hv.plugin,
    parseU64_toString hv.project, parseU64_toString hv.global, parseU64_toString hv.executed,
    parseU64_retentionLine, List.filterMap_nil, DedupeValues.toList]

theorem readValues_renderState (hv : v.Bounded) : readValues (renderState v retention) = v := by
  rw [readValues, numbers_renderState hv]
  rfl

/-- A word is one line. -/
theorem notMem_of_isWord {s : String} {c : Char} (hs : IsWord s) (hc : isWhitespace c = true) : c ∉ s.toList := by
  intro hmem
  rw [hs.noBlank c hmem] at hc
  cases hc

/-- The retention is read back as it was written. -/
theorem dedupeRetention_renderState {r : Nat} (hpos : 0 < r) (hr : r < 2 ^ 64) :
    dedupeRetention (renderState v (some r)) = some r := by
  have hfeed : isWhitespace '\n' = true := by decide
  have hnumber : ∀ n : Nat, '\n' ∉ (toString n).toList := fun n => notMem_of_isWord (isWord_toString n) hfeed
  have hblank : '\n' ∉ (String.singleton ' ').toList := by decide
  -- the counters stand on one line, the retention on the next, and nothing on a third
  have hcounters : '\n' ∉ (toString v.epoch ++ String.singleton ' ' ++ (toString v.plugin ++ String.singleton ' ' ++
      (toString v.project ++ String.singleton ' ' ++ (toString v.global ++ String.singleton ' ' ++
        toString v.executed)))).toList := by
    simp only [String.toList_append, List.mem_append, hnumber, hblank, or_self, not_false_eq_true]
  have hsecond : '\n' ∉ (retentionLine (some r)).toList := notMem_of_isWord (isWord_retentionLine _) hfeed
  have hsplit : split '\n' (renderState v (some r)) =
      [toString v.epoch ++ String.singleton ' ' ++ (toString v.plugin ++ String.singleton ' ' ++
        (toString v.project ++ String.singleton ' ' ++ (toString v.global ++ String.singleton ' ' ++
          toString v.executed))),
        retentionLine (some r), ""] := by
    have hjoined : renderState v (some r) =
        (toString v.epoch ++ String.singleton ' ' ++ (toString v.plugin ++ String.singleton ' ' ++
          (toString v.project ++ String.singleton ' ' ++ (toString v.global ++ String.singleton ' ' ++
            toString v.executed)))) ++ String.singleton '\n' ++
          (retentionLine (some r) ++ String.singleton '\n' ++ "") := by
      rw [renderState_eq]
      simp only [String.append_assoc]
    rw [hjoined, split_append_sep, split_append_sep, split_of_notMem hcounters, split_of_notMem hsecond]
    rfl
  have hreturn : stripSuffix "\r" (retentionLine (some r)) = none := by
    rw [Option.eq_none_iff_forall_ne_some]
    intro t ht
    have heq := stripSuffix_eq_some_iff.mp ht
    refine notMem_of_isWord (isWord_retentionLine (some r)) (show isWhitespace '\r' = true by decide) ?_
    rw [heq, String.toList_append]
    exact List.mem_append_right _ (by decide)
  have hline : (lines (renderState v (some r)))[1]? = some (retentionLine (some r)) := by
    rw [lines, hsplit]
    exact congrArg some (congrArg (Option.getD · (retentionLine (some r))) hreturn)
  rw [dedupeRetention, hline, Option.bind_some, retentionLine, stripPrefix_append, Option.bind_some]
  show (parseU64 (toString r)).filter (0 < ·) = some r
  rw [parseU64_toString hr]
  exact if_pos (decide_eq_true hpos)

end Text

/-! ## Calls of one event -/

/-- A call of a registration, with the window and the time of 64 bits it is made with. -/
structure Call where
  source : Registration
  window : Nat
  now : Nat
  window_pos : 0 < window
  window_lt : window < 2 ^ 64
  now_lt : now < 2 ^ 64

def Registration.name : Registration → String
  | plugin => "plugin"
  | project => "project"
  | global => "global"

@[simp] theorem Registration.parse_name (source : Registration) : Registration.parse source.name = some source := by
  cases source <;> rfl

abbrev Files := String → Option String

section Calls

variable (session phase material : String)

/-- One call, where the lock and the file operations succeed. -/
def call (s : Files × List DedupeVerdict) (c : Call) : Files × List DedupeVerdict :=
  let answer := dedupeEvent {} s.1 c.source.name session phase material c.window c.now
  (answer.2, s.2 ++ [answer.1])

def filesAfter (files : Files) (calls : List Call) : Files :=
  (calls.foldl (call session phase material) (files, [])).1

def verdicts (files : Files) (calls : List Call) : List DedupeVerdict :=
  (calls.foldl (call session phase material) (files, [])).2

/-- How many of the calls run. -/
def runs (files : Files) (calls : List Call) : Nat := (verdicts session phase material files calls).count .run

end Calls

/-- The calls of one registration. -/
def countOf (calls : List Call) (source : Registration) : Nat := calls.countP fun c => c.source = source

/-- The largest count of a registration. -/
def largestCount (calls : List Call) : Nat :=
  max (max (countOf calls .plugin) (countOf calls .project)) (countOf calls .global)

/-- Calls at a clock that does not step back, each within the window of the one before. -/
def Steady (window : Nat) (calls : List Call) : Prop :=
  calls.IsChain fun a b => a.now ≤ b.now ∧ b.now - a.now ≤ window

/-- A call after which the count starts anew: behind the clock of the last one, or past its window. -/
def Breaks (last c : Call) : Prop := c.now < last.now ∨ c.window < c.now - last.now

/-! ## The counters of a run -/

/-- One call on the counters. -/
def count (s : DedupeValues × List DedupeVerdict) (c : Call) : DedupeValues × List DedupeVerdict :=
  let decided := decideEvent c.window c.now c.source s.1
  (decided.1, s.2 ++ [if decided.2 then .run else .suppress])

/-- The state file of a key holds these counters: it is not there yet, or they were written to it. -/
inductive Holds (name : String) (files : Files) : DedupeValues → Prop
  | fresh : files name = none → Holds name files {}
  | stored {v : DedupeValues} {r : Nat} : v.Bounded → 0 < r → r < 2 ^ 64 →
      files name = some (renderState v (some r)) → Holds name files v

section Counters

variable {v : DedupeValues} {c : Call} {name : String} {files : Files} {calls : List Call}

theorem bounded_zero : DedupeValues.Bounded {} := ⟨by decide, by decide, by decide, by decide, by decide⟩

theorem bounded_bump (hv : v.Bounded) (source : Registration) : (v.bump source).Bounded := by
  obtain ⟨hepoch, hplugin, hproject, hglobal, hexecuted⟩ := hv
  cases source
  · exact ⟨hepoch, show min _ _ < _ by omega, hproject, hglobal, hexecuted⟩
  · exact ⟨hepoch, hplugin, show min _ _ < _ by omega, hglobal, hexecuted⟩
  · exact ⟨hepoch, hplugin, hproject, show min _ _ < _ by omega, hexecuted⟩

theorem bounded_settle (hv : v.Bounded) : (settle v).1.Bounded := by
  rw [settle]
  split_ifs
  · exact ⟨hv.epoch, hv.plugin, hv.project, hv.global, max_lt (max_lt hv.plugin hv.project) hv.global⟩
  · exact hv

/-- The counters stay numbers of 64 bits. -/
theorem bounded_decideEvent (hv : v.Bounded) (c : Call) : (decideEvent c.window c.now c.source v).1.Bounded := by
  have hcurrent : (current c.window c.now v).Bounded := by
    rw [current]
    split_ifs
    · exact bounded_zero
    · exact hv
  apply bounded_settle
  apply bounded_bump
  exact ⟨c.now_lt, hcurrent.plugin, hcurrent.project, hcurrent.global, hcurrent.executed⟩

@[simp] theorem epoch_decideEvent (c : Call) (v : DedupeValues) :
    (decideEvent c.window c.now c.source v).1.epoch = c.now := by
  have hsettle : ∀ v : DedupeValues, (settle v).1.epoch = v.epoch := by
    intro v
    rw [settle]
    split_ifs <;> rfl
  rw [decideEvent, hsettle]
  cases c.source <;> rfl

/-- After a break the counters that were there make no difference. -/
theorem decideEvent_of_breaks (h : c.now < v.epoch ∨ c.window < c.now - v.epoch) :
    decideEvent c.window c.now c.source v = decideEvent c.window c.now c.source {} := by
  have hbroken : current c.window c.now v = {} := by
    rw [current, if_pos]
    simpa using h
  have hzero : current c.window c.now {} = {} := by
    rw [current]
    split_ifs <;> rfl
  rw [decideEvent, decideEvent, hbroken, hzero]

/-- The counters of a list of calls. -/
def countersOf (calls : List Call) (epoch : Nat) : DedupeValues :=
  ⟨epoch, countOf calls .plugin, countOf calls .project, countOf calls .global, largestCount calls⟩

theorem countOf_append (calls : List Call) (c : Call) (source : Registration) :
    countOf (calls ++ [c]) source = countOf calls source + if c.source = source then 1 else 0 := by
  rw [countOf, countOf, List.countP_append, List.countP_singleton]
  simp

theorem countOf_le (calls : List Call) (source : Registration) : countOf calls source ≤ calls.length :=
  List.countP_le_length

/-- A call raises the largest count by one, or not at all. -/
theorem largestCount_append (calls : List Call) (c : Call) :
    largestCount calls ≤ largestCount (calls ++ [c]) ∧ largestCount (calls ++ [c]) ≤ largestCount calls + 1 := by
  simp only [largestCount, countOf_append]
  cases c.source <;> simp <;> omega

/-- **One call on the counters of the calls before it.** -/
theorem settle_countersOf (hlen : calls.length + 1 < 2 ^ 64) (epoch : Nat) :
    settle ({ countersOf calls epoch with epoch := c.now }.bump c.source) =
      (countersOf (calls ++ [c]) c.now, decide (largestCount calls < largestCount (calls ++ [c]))) := by
  have hplugin := countOf_le calls .plugin
  have hproject := countOf_le calls .project
  have hglobal := countOf_le calls .global
  have hbumped : { countersOf calls epoch with epoch := c.now }.bump c.source =
      { countersOf (calls ++ [c]) c.now with executed := largestCount calls } := by
    cases hsource : c.source
    all_goals
      simp only [DedupeValues.bump, countersOf, countOf_append, hsource, reduceCtorEq, if_true, if_false,
        Nat.add_zero, DedupeValues.mk.injEq, true_and, and_true]
      omega
  have hmax : ({ countersOf (calls ++ [c]) c.now with executed := largestCount calls } : DedupeValues).maxCount =
      largestCount (calls ++ [c]) := rfl
  rw [hbumped, settle, hmax]
  by_cases hraise : largestCount calls < largestCount (calls ++ [c])
  · rw [if_pos hraise, decide_eq_true hraise]
    rfl
  · have hsame : largestCount calls = largestCount (calls ++ [c]) :=
      Nat.le_antisymm (largestCount_append calls c).1 (Nat.le_of_not_lt hraise)
    rw [if_neg hraise, decide_eq_false hraise, hsame]
    rfl

/-- The first call counts from zero. -/
theorem decideEvent_first (c : Call) :
    decideEvent c.window c.now c.source {} = (countersOf [c] c.now, true) := by
  have hzero : current c.window c.now {} = countersOf [] 0 := by
    rw [current]
    split_ifs <;> rfl
  have hone : largestCount [] < largestCount ([] ++ [c]) := by
    simp only [largestCount, countOf_append]
    cases c.source <;> decide
  rw [decideEvent, hzero, settle_countersOf (by decide) 0, decide_eq_true hone, List.nil_append]

/-- A later call of a steady run counts on. -/
theorem decideEvent_steady {last : Call} (hlen : calls.length + 1 < 2 ^ 64)
    (hsteady : last.now ≤ c.now ∧ c.now - last.now ≤ c.window) :
    decideEvent c.window c.now c.source (countersOf calls last.now) =
      (countersOf (calls ++ [c]) c.now, decide (largestCount calls < largestCount (calls ++ [c]))) := by
  have hkept : current c.window c.now (countersOf calls last.now) = countersOf calls last.now := by
    rw [current, if_neg]
    have hepoch : (countersOf calls last.now).epoch = last.now := rfl
    rw [hepoch, Bool.or_eq_true, decide_eq_true_iff, decide_eq_true_iff]
    omega
  rw [decideEvent, hkept, settle_countersOf hlen]

/-- The counters and verdicts of a steady run that starts with a call that counts from zero. -/
theorem foldl_count_steady {window : Nat} {rest : List Call} (hfirst : decideEvent c.window c.now c.source v =
      decideEvent c.window c.now c.source {}) (hsteady : Steady window (c :: rest))
    (hwindow : ∀ d ∈ c :: rest, d.window = window) (hlen : (c :: rest).length < 2 ^ 64) :
    ∃ last ∈ (c :: rest).getLast?, ∃ ran, (c :: rest).foldl count (v, []) = (countersOf (c :: rest) last.now, ran) ∧
      ran.count .run = largestCount (c :: rest) := by
  induction rest using List.reverseRecOn with
  | nil =>
    refine ⟨c, rfl, [.run], ?_, ?_⟩
    · rw [List.foldl_cons, List.foldl_nil, count, hfirst, decideEvent_first]
      rfl
    · simp only [largestCount, countOf]
      cases hsource : c.source <;> simp [hsource]
  | append_singleton rest d ih =>
    have hsplit : c :: (rest ++ [d]) = (c :: rest) ++ [d] := rfl
    rw [hsplit] at hsteady hwindow hlen ⊢
    obtain ⟨hfront, -, hlast⟩ := List.isChain_append.mp hsteady
    rw [List.length_append, List.length_singleton] at hlen
    obtain ⟨last, hmem, ran, hrun, hcount⟩ := ih hfront
      (fun e he => hwindow e (List.mem_append_left _ he)) (by omega)
    have hd : d.window = window := hwindow d (List.mem_append_right _ (List.mem_singleton_self d))
    have hstep : decideEvent d.window d.now d.source (countersOf (c :: rest) last.now) = _ :=
      decideEvent_steady hlen (hd ▸ hlast last hmem d rfl)
    refine ⟨d, List.getLast?_concat, ran ++ [if largestCount (c :: rest) < largestCount ((c :: rest) ++ [d]) then .run
      else .suppress], ?_, ?_⟩
    · rw [List.foldl_append, hrun, List.foldl_cons, List.foldl_nil, count, hstep]
      simp
    · obtain ⟨hle, hone⟩ := largestCount_append (c :: rest) d
      rw [List.count_append, hcount]
      split_ifs with hraise
      · rw [List.count_singleton_self]
        omega
      · have hnone : List.count DedupeVerdict.run [DedupeVerdict.suppress] = 0 := by decide
        rw [hnone]
        omega

/-- The verdicts that were there before stay in front. -/
theorem foldl_count_snd (v : DedupeValues) (out : List DedupeVerdict) (calls : List Call) :
    (calls.foldl count (v, out)).2 = out ++ (calls.foldl count (v, [])).2 ∧
      (calls.foldl count (v, out)).1 = (calls.foldl count (v, [])).1 := by
  induction calls generalizing v out with
  | nil => simp
  | cons c calls ih =>
    obtain ⟨hout, hvalues⟩ := ih (count (v, out) c).1 (count (v, out) c).2
    obtain ⟨hnil, hvalues'⟩ := ih (count (v, []) c).1 (count (v, []) c).2
    rw [List.foldl_cons, List.foldl_cons]
    constructor
    · rw [hout, hnil]
      simp [count]
    · rw [hvalues, hvalues']
      rfl

end Counters

/-! ## The calls on the state file -/

section Runs

variable {session phase material : String} {files : Files} {v : DedupeValues} {out : List DedupeVerdict}

/-- The retention that the state file names. -/
def retentionAt (name : String) (files : Files) : Option Nat := (files name).bind dedupeRetention

/-- **One call** does to the file what it does to the counters, and the retention grows. -/
theorem call_spec (out : List DedupeVerdict) (h : Holds (stateName session phase material) files v) (c : Call) :
    ∃ r, 0 < r ∧ r < 2 ^ 64 ∧
      (∀ old, retentionAt (stateName session phase material) files = some old → old ≤ r) ∧
      call session phase material (files, out) c =
        (fun other => if other = stateName session phase material then
            some (renderState (decideEvent c.window c.now c.source v).1 (some r)) else files other,
          (count (v, out) c).2) := by
  have hwindow : (if c.window = 0 then 5 else c.window) = c.window := if_neg c.window_pos.ne'
  cases h with
  | fresh hnone =>
    refine ⟨c.window, c.window_pos, c.window_lt, ?_, ?_⟩
    · intro old hold
      rw [retentionAt, hnone] at hold
      cases hold
    · simp only [call, dedupeEvent, Registration.parse_name, hnone, Option.filter_none, hwindow]
      rfl
  | stored hv hpos hr hfile =>
    rename_i r
    refine ⟨max r c.window, by omega, max_lt hr c.window_lt, ?_, ?_⟩
    · intro old hold
      rw [retentionAt, hfile, Option.bind_some, dedupeRetention_renderState hpos hr] at hold
      obtain rfl := Option.some.inj hold
      exact le_max_left _ _
    · simp only [call, dedupeEvent, Registration.parse_name, hfile, Option.filter_some, if_true, hwindow,
        dedupeRetention_renderState hpos hr, Option.map_some, readValues_renderState hv, Option.getD_some]
      rfl

theorem call_holds (out : List DedupeVerdict) (h : Holds (stateName session phase material) files v) (c : Call) :
    (call session phase material (files, out) c).2 = (count (v, out) c).2 ∧
      Holds (stateName session phase material) (call session phase material (files, out) c).1
        (count (v, out) c).1 := by
  have hv : v.Bounded := by
    cases h with
    | fresh => exact bounded_zero
    | stored hv => exact hv
  obtain ⟨r, hpos, hr, -, hcall⟩ := call_spec out h c
  rw [hcall]
  exact ⟨rfl, .stored (bounded_decideEvent hv c) hpos hr (if_pos rfl)⟩

/-- **A run** of calls is a run of the counters. -/
theorem foldl_call (out : List DedupeVerdict) (h : Holds (stateName session phase material) files v)
    (calls : List Call) :
    (calls.foldl (call session phase material) (files, out)).2 = (calls.foldl count (v, out)).2 ∧
      Holds (stateName session phase material) (calls.foldl (call session phase material) (files, out)).1
        (calls.foldl count (v, out)).1 := by
  induction calls generalizing files v out with
  | nil => exact ⟨rfl, h⟩
  | cons c calls ih =>
    obtain ⟨hout, hholds⟩ := call_holds out h c
    have hnext := ih (call session phase material (files, out) c).2 hholds
    rw [List.foldl_cons, List.foldl_cons]
    rw [hout] at hnext
    have hpair : call session phase material (files, out) c =
        ((call session phase material (files, out) c).1, (count (v, out) c).2) := by rw [← hout]
    rw [hpair]
    exact hnext

variable (session phase material) in
theorem verdicts_fresh (hfresh : files (stateName session phase material) = none) (calls : List Call) :
    verdicts session phase material files calls = (calls.foldl count ({}, [])).2 :=
  (foldl_call [] (.fresh hfresh) calls).1

/-- **In a steady run** the largest count of a registration is what runs. -/
theorem runs_steady (hfresh : files (stateName session phase material) = none) {calls : List Call} {window : Nat}
    (hwindow : ∀ c ∈ calls, c.window = window) (hsteady : Steady window calls) (hlen : calls.length < 2 ^ 64) :
    runs session phase material files calls = largestCount calls := by
  rw [runs, verdicts_fresh session phase material hfresh]
  cases calls with
  | nil => rfl
  | cons c rest =>
    obtain ⟨last, -, ran, hrun, hcount⟩ := foldl_count_steady rfl hsteady hwindow hlen
    rw [hrun]
    exact hcount

/-- **After a break** the calls are answered as if there had been none before. -/
theorem verdicts_breaks (hfresh : files (stateName session phase material) = none) {front rest : List Call}
    {last c : Call} (hbreaks : Breaks last c) :
    verdicts session phase material files (front ++ [last] ++ c :: rest) =
      verdicts session phase material files (front ++ [last]) ++
        verdicts session phase material files (c :: rest) := by
  rw [verdicts_fresh session phase material hfresh, verdicts_fresh session phase material hfresh,
    verdicts_fresh session phase material hfresh, List.foldl_append]
  have hepoch : ((front ++ [last]).foldl count ({}, [])).1.epoch = last.now := by
    rw [List.foldl_append]
    exact epoch_decideEvent last _
  generalize (front ++ [last]).foldl count ({}, []) = after at hepoch ⊢
  obtain ⟨vals, ran⟩ := after
  have hsame : decideEvent c.window c.now c.source vals = decideEvent c.window c.now c.source {} := by
    apply decideEvent_of_breaks
    rw [show vals.epoch = last.now from hepoch]
    exact hbreaks
  rw [(foldl_count_snd vals ran (c :: rest)).1, List.foldl_cons, List.foldl_cons, count, count, hsame]

/-- The retention of the file never falls from one call to a later one. -/
theorem retention_mono (h : Holds (stateName session phase material) files v) {r : Nat}
    (hr : retentionAt (stateName session phase material) files = some r) (calls : List Call) :
    ∃ r', retentionAt (stateName session phase material)
        (calls.foldl (call session phase material) (files, out)).1 = some r' ∧ r ≤ r' := by
  induction calls generalizing files v out r with
  | nil => exact ⟨r, hr, le_rfl⟩
  | cons c calls ih =>
    obtain ⟨new, hpos, hlt, hgrows, hcall⟩ := call_spec out h c
    have hholds := (call_holds out h c).2
    have hnew : retentionAt (stateName session phase material) (call session phase material (files, out) c).1 =
        some new := by
      rw [hcall, retentionAt]
      simp only [if_true, Option.bind_some]
      exact dedupeRetention_renderState hpos hlt
    obtain ⟨r', hr', hle⟩ := @ih _ _ (call session phase material (files, out) c).2 hholds _ hnew
    exact ⟨r', hr', (hgrows r hr).trans hle⟩

/-- What stands in the state file after a call of a run: the counters, to be read back, and a retention. -/
theorem stored_after (out : List DedupeVerdict) (h : Holds (stateName session phase material) files v)
    {calls : List Call} (hne : calls ≠ []) :
    ∃ r, 0 < r ∧ r < 2 ^ 64 ∧ (calls.foldl count (v, out)).1.Bounded ∧
      (calls.foldl (call session phase material) (files, out)).1 (stateName session phase material) =
        some (renderState (calls.foldl count (v, out)).1 (some r)) := by
  have hholds := (foldl_call out h calls).2
  generalize hafter : (calls.foldl (call session phase material) (files, out)).1 = after at hholds ⊢
  generalize hvalues : (calls.foldl count (v, out)).1 = values at hholds ⊢
  cases hholds with
  | stored hv hpos hr hfile => exact ⟨_, hpos, hr, hv, hfile⟩
  | fresh hnone =>
    -- the last call has written the file
    obtain ⟨front, last, rfl⟩ := List.eq_nil_or_concat calls |>.resolve_left hne
    rw [List.concat_eq_append, List.foldl_append] at hafter
    obtain ⟨r, -, -, -, hcall⟩ :=
      call_spec (front.foldl (call session phase material) (files, out)).2 (foldl_call out h front).2 last
    rw [List.foldl_cons, List.foldl_nil, hcall] at hafter
    rw [← hafter] at hnone
    simp at hnone

end Runs

/-! ## The whole -/

/-- The counters after some calls, from none. -/
def countersAfter (calls : List Call) : DedupeValues := (calls.foldl count ({}, [])).1

section Once

variable (session phase material : String) (files : Files)

/-- **Duplicate registrations run an event once.** From a state file that is not there yet: in a steady run as many
calls run as the registration with the most calls made, which no order of the calls changes; after a break the count
starts anew; and after each call the file gives back the counters, and a retention no smaller than before. -/
theorem registrations_run_once (hfresh : files (stateName session phase material) = none) (calls : List Call)
    (hlen : calls.length < 2 ^ 64) :
    (∀ window, (∀ c ∈ calls, c.window = window) → Steady window calls →
        (∀ n, runs session phase material files (calls.take n) = largestCount (calls.take n)) ∧
        ∀ other, (other.map (·.source)).Perm (calls.map (·.source)) → largestCount other = largestCount calls) ∧
      (∀ front last c rest, calls = front ++ [last] ++ c :: rest → Breaks last c →
        verdicts session phase material files calls = verdicts session phase material files (front ++ [last]) ++
          verdicts session phase material files (c :: rest)) ∧
      ∀ n < calls.length, ∃ text r,
        filesAfter session phase material files (calls.take (n + 1)) (stateName session phase material) = some text ∧
        (splitWhitespace text).filterMap parseU64 = (countersAfter (calls.take (n + 1))).toList ∧
        dedupeRetention text = some r ∧
        ∀ m, n ≤ m → ∃ r', retentionAt (stateName session phase material)
          (filesAfter session phase material files (calls.take (m + 1))) = some r' ∧ r ≤ r' := by
  refine ⟨fun window hwindow hsteady => ⟨fun n => ?_, fun other hperm => ?_⟩, ?_, fun n hn => ?_⟩
  · exact runs_steady hfresh (fun c hc => hwindow c (List.mem_of_mem_take hc)) (hsteady.take n)
      ((List.length_take_le' n calls).trans_lt hlen)
  · have hcount : ∀ (l : List Call) (source : Registration), countOf l source = (l.map (·.source)).count source := by
      intro l source
      rw [countOf, List.count, List.countP_map]
      rfl
    simp only [largestCount, hcount, hperm.count_eq]
  · rintro front last c rest rfl hbreaks
    exact verdicts_breaks hfresh hbreaks
  · have hne : calls.take (n + 1) ≠ [] := by
      intro hnil
      have hlength := congrArg List.length hnil
      rw [List.length_take, List.length_nil] at hlength
      omega
    obtain ⟨r, hpos, hr, hbounded, hfile⟩ := stored_after [] (.fresh hfresh) hne
    refine ⟨_, r, hfile, numbers_renderState hbounded, dedupeRetention_renderState hpos hr, fun m hm => ?_⟩
    -- the later run goes on where the earlier one stopped
    have hsplit : calls.take (m + 1) = calls.take (n + 1) ++ (calls.take (m + 1)).drop (n + 1) := by
      conv_lhs => rw [← List.take_append_drop (n + 1) (calls.take (m + 1))]
      rw [List.take_take, min_eq_left (by omega)]
    have hretention : retentionAt (stateName session phase material)
        ((calls.take (n + 1)).foldl (call session phase material) (files, [])).1 = some r := by
      rw [retentionAt, hfile, Option.bind_some, dedupeRetention_renderState hpos hr]
    rw [hsplit, filesAfter, List.foldl_append]
    exact retention_mono (foldl_call [] (.fresh hfresh) _).2 hretention _

end Once

/-- Two registrations, the second call of the plugin a genuine repeat. -/
def sampleCalls : List Call :=
  [⟨.plugin, 5, 100, by decide, by decide, by decide⟩, ⟨.project, 5, 101, by decide, by decide, by decide⟩,
    ⟨.plugin, 5, 103, by decide, by decide, by decide⟩]

theorem sample_runs_twice : runs "s" "before-write" "envelope" (fun _ => none) sampleCalls = 2 := by
  have h := (registrations_run_once "s" "before-write" "envelope" (fun _ => none) rfl sampleCalls (by decide)).1 5
    (by decide) (by simp [Steady, sampleCalls])
  exact (h.1 3).trans (by decide)

end RallyPoint.HookDedupe
