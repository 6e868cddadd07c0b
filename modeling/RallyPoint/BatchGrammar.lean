/-
# RallyPoint.BatchGrammar — the arguments of a batch of hook calls (`lib.rs`).

A batch puts the argument lists of several commands behind each other on one command line. Where each of them ends
is said by counts in front of a `--`, so that no argument can be taken for a separator, and a last `--timeout-ms`
belongs to the batch. The counts are texts of the caller: each is checked against the arguments that are there, but
only after it was added to the position where its command begins.
-/
import RallyPoint.Fact
import RallyPoint.Lib.Check
import RallyPoint.Lib.Pieces

namespace RallyPoint.BatchGrammar

open Lib

/-! ## The parser -/

def hookBatchMaxOps : Nat := 8

def hookBatchAllowedOps : List String :=
  ["hooks status", "enter", "room", "next", "status read", "status post", "check before-complete"]

def defaultWatchdogTimeoutMs : Nat := 3000
def minWatchdogTimeoutMs : Nat := 100
def maxWatchdogTimeoutMs : Nat := 60000

/-- The first number that is no `usize`. -/
def usizeBound : Nat := 2 ^ 64

structure HookBatchSpec where
  ops : List (List String)
  gateHooks : Bool
  budgetMs : Nat
  deriving DecidableEq, Repr

/-- How the parser ends without a batch. -/
inductive Failure
  | refused (message : String)
  | panicked
  deriving DecidableEq, Repr

/-- What the parser reads besides its arguments: `debug` renders a text as `{:?}` does, and the variable is
`RALLY_HOOK_TIMEOUT_MS`. -/
structure BatchEnv where
  debug : String → String
  hookTimeoutMs : EnvVar

def isHookBatchInvocation (args : List String) : Bool := args[0]? == some "hook" && args[1]? == some "batch"

def hookBatchOpAllowed (op : List String) : Bool :=
  let first := op[0]?.getD ""
  let second := op[1]?.getD ""
  hookBatchAllowedOps.any fun allowed =>
    let words := split ' ' allowed
    let head := words[0]?.getD ""
    match words[1]? with
    | some sub => head == first && sub == second
    | none => head == first

def clampBudget (ms : Nat) : Nat := max minWatchdogTimeoutMs (min ms maxWatchdogTimeoutMs)

/-- `resolve_watchdog_timeout` without arguments. -/
def resolveWatchdogTimeout (env : BatchEnv) : Nat :=
  match env.hookTimeoutMs with
  | .value raw => ((parseU64 (trim raw)).map clampBudget).getD defaultWatchdogTimeoutMs
  | _ => defaultWatchdogTimeoutMs

/-- `parse_ms`. -/
def parseMs (env : BatchEnv) (raw : String) : Except Failure Nat :=
  match parseU64 raw with
  | some ms => .ok ms
  | none => .error (.refused s!"--timeout-ms expects milliseconds, got {env.debug raw}")

/-- The numbers of a comma list, each of them positive. -/
def parseCounts (raw : String) : Option (List Nat) :=
  (split ',' raw).mapM fun n => (parseU64 n).filter fun n => decide (0 < n)

/-- What the flags in front of the `--` say; a later flag overrides an earlier one. -/
structure Lead where
  gateHooks : Bool := false
  counts : Option (List Nat) := none
  budgetMs : Option Nat := none
  deriving DecidableEq, Repr

/-- The loop up to the `--`: the flags, and the arguments behind it. -/
def leading (env : BatchEnv) : Lead → List String → Except Failure (Lead × List String)
  | _, [] => .error (.refused "missing `--` before the op argv list")
  | lead, arg :: rest =>
    if arg = "--" then .ok (lead, rest)
    else if arg = "--json" then leading env lead rest
    else if arg = "--gate-hooks" then leading env { lead with gateHooks := true } rest
    else if arg = "--counts" then
      match rest with
      | [] => .error (.refused "--counts expects a comma list")
      | raw :: rest =>
        match parseCounts raw with
        | some counts => leading env { lead with counts := some counts } rest
        | none => .error (.refused s!"--counts expects positive integers, got {env.debug raw}")
    else if arg = "--timeout-ms" then
      match rest with
      | [] => .error (.refused "--timeout-ms expects milliseconds")
      | raw :: rest =>
        match parseMs env raw with
        | .ok ms => leading env { lead with budgetMs := some ms } rest
        | .error e => .error e
    else
      match stripPrefix "--timeout-ms=" arg with
      | some raw =>
        match parseMs env raw with
        | .ok ms => leading env { lead with budgetMs := some ms } rest
        | .error e => .error e
      | none => .error (.refused s!"unexpected argument {env.debug arg} before `--`")

/-- The loop over the counts from `index` on: the commands, and the index behind them. A sum out of range stops a
checked build; an unchecked one cuts a slice whose end lies before its start, which stops it as well. -/
def takeOps (env : BatchEnv) (args : List String) : Nat → List Nat → Except Failure (List (List String) × Nat)
  | index, [] => .ok ([], index)
  | index, count :: counts =>
    if usizeBound ≤ index + count then .error .panicked
    else if args.length < index + count then
      .error (.refused "--counts names more argv tokens than were given")
    else
      let op := (args.drop index).take count
      if !hookBatchOpAllowed op then
        .error (.refused ("op " ++ env.debug (join " " (op.take 2)) ++ " is not batchable (allowed: " ++
          join ", " hookBatchAllowedOps ++ ")"))
      else (takeOps env args (index + count) counts).map fun (ops, last) => (op :: ops, last)

/-- What may follow the commands: the budget of the batch. -/
def trailingBudget (env : BatchEnv) (budgetMs : Option Nat) (rest : List String) : Except Failure (Option Nat) :=
  let unexpected : Except Failure (Option Nat) :=
    .error (.refused ("unexpected trailing arguments [" ++ join ", " (rest.map env.debug) ++ "]"))
  match rest with
  | [] => .ok budgetMs
  | [flag, raw] => if flag = "--timeout-ms" then (parseMs env raw).map some else unexpected
  | [flag] =>
    match stripPrefix "--timeout-ms=" flag with
    | some raw => (parseMs env raw).map some
    | none => unexpected
  | _ => unexpected

/-- `parse_hook_batch`. -/
def parseHookBatch (env : BatchEnv) (args : List String) : Except Failure HookBatchSpec := do
  let (lead, rest) ← leading env {} (args.drop 2)
  match lead.counts with
  | none => .error (.refused "--counts is required")
  | some counts =>
    if counts.isEmpty || hookBatchMaxOps < counts.length then
      .error (.refused s!"a batch carries 1..={hookBatchMaxOps} ops, got {counts.length}")
    else
      let (ops, index) ← takeOps env args (args.length - rest.length) counts
      let budgetMs ← trailingBudget env lead.budgetMs (args.drop index)
      .ok ⟨ops, lead.gateHooks, budgetMs.elim (resolveWatchdogTimeout env) clampBudget⟩

/-! ## The grammar -/

inductive TimeoutFlag
  | spaced (raw : String)
  | joined (raw : String)

def TimeoutFlag.raw : TimeoutFlag → String
  | .spaced raw | .joined raw => raw

def TimeoutFlag.tokens : TimeoutFlag → List String
  | .spaced raw => ["--timeout-ms", raw]
  | .joined raw => ["--timeout-ms=" ++ raw]

/-- A flag in front of the `--`. -/
inductive LeadFlag
  | json
  | gateHooks
  | counts (raw : String)
  | timeout (flag : TimeoutFlag)

def LeadFlag.tokens : LeadFlag → List String
  | .json => ["--json"]
  | .gateHooks => ["--gate-hooks"]
  | .counts raw => ["--counts", raw]
  | .timeout flag => flag.tokens

def LeadFlag.read (lead : Lead) : LeadFlag → Option Lead
  | .json => some lead
  | .gateHooks => some { lead with gateHooks := true }
  | .counts raw => (parseCounts raw).map fun counts => { lead with counts := some counts }
  | .timeout flag => (parseU64 flag.raw).map fun ms => { lead with budgetMs := some ms }

/-- What a list of flags says, if every value of it can be read. -/
def readAll : Lead → List LeadFlag → Option Lead
  | lead, [] => some lead
  | lead, flag :: flags => (flag.read lead).bind fun lead => readAll lead flags

/-- The budget with the flag behind the commands, which overrides the one in front. -/
def finalBudget (budgetMs : Option Nat) : Option TimeoutFlag → Option (Option Nat)
  | none => some budgetMs
  | some flag => (parseU64 flag.raw).map some

/-- A batch as it stands on a command line: its flags in front, one to eight commands as long as the counts say,
and the budget behind them. -/
structure Batch where
  flags : List LeadFlag
  lead : Lead
  read : readAll {} flags = some lead
  ops : List (List String)
  counted : lead.counts = some (ops.map List.length)
  some_few : 0 < ops.length ∧ ops.length ≤ hookBatchMaxOps
  allowed : ∀ op ∈ ops, hookBatchOpAllowed op = true
  trailing : Option TimeoutFlag
  budgetMs : Option Nat
  budget : finalBudget lead.budgetMs trailing = some budgetMs

def trailingTokens (trailing : Option TimeoutFlag) : List String := trailing.elim [] TimeoutFlag.tokens

def Batch.args (b : Batch) : List String :=
  "hook" :: "batch" ::
    (b.flags.flatMap LeadFlag.tokens ++ "--" :: (b.ops.flatten ++ trailingTokens b.trailing))

def Batch.spec (env : BatchEnv) (b : Batch) : HookBatchSpec :=
  ⟨b.ops, b.lead.gateHooks, b.budgetMs.elim (resolveWatchdogTimeout env) clampBudget⟩

@[simp] theorem ok_bind {α β : Type} (a : α) (f : α → Except Failure β) : (Except.ok a >>= f) = f a := rfl

@[simp] theorem error_bind {α β : Type} (e : Failure) (f : α → Except Failure β) :
    (Except.error e >>= f) = .error e := rfl

/-! ## The flags in front -/

section Leading

variable {env : BatchEnv} {lead lead' : Lead} {tokens rest : List String}

/-- A joined flag is none of the words. -/
theorem joined_ne {raw word : String} (h : stripPrefix "--timeout-ms=" word = none) :
    "--timeout-ms=" ++ raw ≠ word := by
  rintro rfl
  rw [stripPrefix_append] at h
  cases h

theorem parseMs_ok_iff {raw : String} {ms : Nat} : parseMs env raw = .ok ms ↔ parseU64 raw = some ms := by
  unfold parseMs
  cases parseU64 raw with
  | none => simp
  | some n => simp

theorem parseMs_ne_panicked (raw : String) : parseMs env raw ≠ .error .panicked := by
  unfold parseMs
  cases parseU64 raw <;> simp

/-- A flag in front of flags. -/
theorem flags_cons {flag : LeadFlag} {mid : Lead} {tokens : List String} (hread : flag.read lead = some mid)
    (h : ∃ flags, tokens = flags.flatMap LeadFlag.tokens ++ "--" :: rest ∧ readAll mid flags = some lead') :
    ∃ flags, flag.tokens ++ tokens = flags.flatMap LeadFlag.tokens ++ "--" :: rest ∧
      readAll lead flags = some lead' := by
  obtain ⟨flags, rfl, hall⟩ := h
  refine ⟨flag :: flags, by rw [List.flatMap_cons, List.append_assoc], ?_⟩
  rw [readAll, hread]
  exact hall

/-- What the loop reads is a list of flags, up to the first `--` that is no value. -/
theorem flags_of_leading (h : leading env lead tokens = .ok (lead', rest)) :
    ∃ flags, tokens = flags.flatMap LeadFlag.tokens ++ "--" :: rest ∧ readAll lead flags = some lead' := by
  fun_induction leading env lead tokens with
  | case1 => cases h
  | case2 =>
    obtain ⟨rfl, rfl⟩ := Prod.mk.inj (Except.ok.inj h)
    exact ⟨[], rfl, rfl⟩
  | case3 _ _ _ ih => exact @flags_cons _ _ _ .json _ _ rfl (ih h)
  | case4 _ _ _ _ ih => exact @flags_cons _ _ _ .gateHooks _ _ rfl (ih h)
  | case5 => cases h
  | case6 lead raw _ counts hcounts _ _ _ ih =>
    have hread : (LeadFlag.counts raw).read lead = some { lead with counts := some counts } := by
      rw [LeadFlag.read, hcounts, Option.map_some]
    exact flags_cons hread (ih h)
  | case7 => cases h
  | case8 => cases h
  | case9 lead raw _ ms hms _ _ _ _ ih =>
    have hread : (LeadFlag.timeout (.spaced raw)).read lead = some { lead with budgetMs := some ms } := by
      rw [LeadFlag.read, TimeoutFlag.raw, parseMs_ok_iff.mp hms, Option.map_some]
    exact flags_cons hread (ih h)
  | case10 => cases h
  | case11 lead arg _ _ _ _ _ _ raw hraw ms hms ih =>
    have hread : (LeadFlag.timeout (.joined raw)).read lead = some { lead with budgetMs := some ms } := by
      rw [LeadFlag.read, TimeoutFlag.raw, parseMs_ok_iff.mp hms, Option.map_some]
    rw [stripPrefix_eq_some_iff.mp hraw]
    exact flags_cons hread (ih h)
  | case12 => cases h
  | case13 => cases h

/-- One flag that can be read. -/
theorem leading_flag {flag : LeadFlag} {mid : Lead} (hread : flag.read lead = some mid) :
    leading env lead (flag.tokens ++ tokens) = leading env mid tokens := by
  cases flag with
  | json =>
    obtain rfl := Option.some.inj hread
    show leading env lead ("--json" :: tokens) = _
    rw [leading.eq_def]
    simp
  | gateHooks =>
    obtain rfl := Option.some.inj hread
    show leading env lead ("--gate-hooks" :: tokens) = _
    rw [leading.eq_def]
    simp
  | counts raw =>
    obtain ⟨counts, hcounts, rfl⟩ := Option.map_eq_some_iff.mp hread
    show leading env lead ("--counts" :: raw :: tokens) = _
    rw [leading]
    simp [hcounts]
  | timeout flag =>
    obtain ⟨ms, hms, rfl⟩ := Option.map_eq_some_iff.mp hread
    have hparse : parseMs env flag.raw = .ok ms := parseMs_ok_iff.mpr hms
    cases flag with
    | spaced raw =>
      show leading env lead ("--timeout-ms" :: raw :: tokens) = _
      rw [leading]
      simp [show parseMs env raw = .ok ms from hparse]
    | joined raw =>
      show leading env lead (("--timeout-ms=" ++ raw) :: tokens) = _
      rw [leading.eq_def]
      dsimp only
      rw [if_neg (joined_ne (by decide)), if_neg (joined_ne (by decide)), if_neg (joined_ne (by decide)),
        if_neg (joined_ne (by decide)), if_neg (joined_ne (by decide)), stripPrefix_append]
      simp only [show parseMs env raw = .ok ms from hparse]

/-- **The flags in front** are exactly what can be read as flags, up to a `--` that is no value. -/
theorem leading_ok_iff : leading env lead tokens = .ok (lead', rest) ↔
    ∃ flags, tokens = flags.flatMap LeadFlag.tokens ++ "--" :: rest ∧ readAll lead flags = some lead' := by
  constructor
  · exact flags_of_leading
  · rintro ⟨flags, rfl, hall⟩
    induction flags generalizing lead with
    | nil =>
      obtain rfl := Option.some.inj hall
      show leading env lead ("--" :: rest) = _
      rw [leading.eq_def]
      simp
    | cons flag flags ih =>
      rw [readAll, Option.bind_eq_some_iff] at hall
      obtain ⟨mid, hread, hall⟩ := hall
      rw [List.flatMap_cons, List.append_assoc, leading_flag hread]
      exact ih hall

theorem leading_ne_panicked : leading env lead tokens ≠ .error .panicked := by
  fun_induction leading env lead tokens with
  | case3 _ _ _ ih => exact ih
  | case4 _ _ _ _ ih => exact ih
  | case6 _ _ _ _ _ _ _ _ ih => exact ih
  | case9 _ _ _ _ _ _ _ _ _ ih => exact ih
  | case10 _ raw _ e he =>
    exact fun h => parseMs_ne_panicked raw (he.trans (congrArg Except.error (Except.error.inj h)))
  | case11 _ _ _ _ _ _ _ _ _ _ _ _ ih => exact ih
  | case12 _ _ _ _ _ _ _ _ raw _ e he =>
    exact fun h => parseMs_ne_panicked raw (he.trans (congrArg Except.error (Except.error.inj h)))
  | _ => simp

end Leading

/-! ## The commands -/

section Ops

variable {env : BatchEnv} {args : List String} {ops : List (List String)} {counts : List Nat} {index last : Nat}

/-- A list lies at a position with another one behind it. -/
theorem append_isPrefix_drop {op l : List String} : op ++ l <+: args.drop index ↔
    op.length ≤ args.length - index ∧ (args.drop index).take op.length = op ∧
      l <+: args.drop (index + op.length) := by
  constructor
  · rintro ⟨rest, hrest⟩
    have hlength := congrArg List.length hrest
    rw [List.length_append, List.length_append, List.length_drop] at hlength
    refine ⟨by omega, ?_, rest, ?_⟩
    · rw [← hrest, List.append_assoc, List.take_left]
    · rw [← List.drop_drop, ← hrest, List.append_assoc, List.drop_left]
  · rintro ⟨-, htake, rest, hrest⟩
    refine ⟨rest, ?_⟩
    rw [List.append_assoc, hrest, ← List.drop_drop]
    exact (congrArg (· ++ _) htake.symm).trans (List.take_append_drop _ _)

/-- **The commands** are what the counts cut off, each of them allowed. -/
theorem takeOps_ok_iff (hfits : args.length < usizeBound) (hindex : index ≤ args.length) :
    takeOps env args index counts = .ok (ops, last) ↔
      counts = ops.map List.length ∧ (∀ op ∈ ops, hookBatchOpAllowed op = true) ∧
        ops.flatten <+: args.drop index ∧ last = index + ops.flatten.length := by
  induction counts generalizing index ops last with
  | nil =>
    rw [takeOps, Except.ok.injEq, Prod.mk.injEq]
    constructor
    · rintro ⟨rfl, rfl⟩
      exact ⟨rfl, by simp, List.nil_prefix, rfl⟩
    · rintro ⟨hnil, -, -, rfl⟩
      obtain rfl : ops = [] := List.map_eq_nil_iff.mp hnil.symm
      exact ⟨rfl, rfl⟩
  | cons count counts ih =>
    have hcons : takeOps env args index (count :: counts) = .ok (ops, last) ↔
        index + count ≤ args.length ∧ hookBatchOpAllowed ((args.drop index).take count) = true ∧
          ∃ ops' last', takeOps env args (index + count) counts = .ok (ops', last') ∧
            ops = (args.drop index).take count :: ops' ∧ last = last' := by
      rw [takeOps]
      dsimp only
      split_ifs with hover hshort hallowed
      · simp only [false_iff, not_and]
        omega
      · simp only [false_iff, not_and]
        omega
      · simp only [false_iff, not_and]
        intro _ h
        simp [h] at hallowed
      · rw [map_eq_ok_iff]
        rw [Bool.not_eq_true', Bool.not_eq_false] at hallowed
        constructor
        · rintro ⟨⟨ops', last'⟩, hrest, heq⟩
          obtain ⟨rfl, rfl⟩ := Prod.mk.inj heq
          exact ⟨by omega, hallowed, ops', _, hrest, rfl, rfl⟩
        · rintro ⟨-, -, ops', last', hrest, rfl, rfl⟩
          exact ⟨(ops', last), hrest, rfl⟩
    rw [hcons]
    constructor
    · rintro ⟨hle, hallowed, ops', last', hrest, rfl, rfl⟩
      obtain ⟨rfl, hall, hprefix, rfl⟩ := (ih hle).mp hrest
      have hlength : ((args.drop index).take count).length = count := by
        rw [List.length_take, List.length_drop]
        omega
      refine ⟨by rw [List.map_cons, hlength], List.forall_mem_cons.mpr ⟨hallowed, hall⟩, ?_, ?_⟩
      · rw [List.flatten_cons, append_isPrefix_drop, hlength]
        exact ⟨by omega, rfl, hprefix⟩
      · rw [List.flatten_cons, List.length_append, hlength]
        omega
    · rintro ⟨hcounts, hall, hprefix, rfl⟩
      cases ops with
      | nil => cases hcounts
      | cons op ops =>
        obtain ⟨rfl, rfl⟩ := List.cons.inj hcounts
        rw [List.flatten_cons, append_isPrefix_drop] at hprefix
        obtain ⟨hle, htake, hprefix⟩ := hprefix
        rw [List.forall_mem_cons] at hall
        have hle' : index + op.length ≤ args.length := by omega
        refine ⟨hle', htake.symm ▸ hall.1, ops, _, (ih hle').mpr ⟨rfl, hall.2, hprefix, rfl⟩, by rw [htake], ?_⟩
        rw [List.flatten_cons, List.length_append]
        omega

/-- A count that does not fit behind commands that do. -/
def PastUsize (args : List String) (index : Nat) (counts : List Nat) : Prop :=
  ∃ (ops : List (List String)) (count : Nat) (more : List Nat), counts = ops.map List.length ++ count :: more ∧
    (∀ op ∈ ops, hookBatchOpAllowed op = true) ∧ ops.flatten <+: args.drop index ∧
    usizeBound ≤ index + ops.flatten.length + count

/-- Where the first count fits, the one that does not comes behind its command. -/
theorem pastUsize_cons_iff {count : Nat} (hfit : index + count < usizeBound) (hindex : index ≤ args.length) :
    PastUsize args index (count :: counts) ↔ index + count ≤ args.length ∧
      hookBatchOpAllowed ((args.drop index).take count) = true ∧ PastUsize args (index + count) counts := by
  constructor
  · rintro ⟨ops, wide, more, hcounts, hall, hprefix, hover⟩
    cases ops with
    | nil =>
      obtain ⟨rfl, rfl⟩ := List.cons.inj hcounts
      rw [List.flatten_nil, List.length_nil] at hover
      omega
    | cons op ops =>
      obtain ⟨rfl, rfl⟩ := List.cons.inj hcounts
      rw [List.flatten_cons, append_isPrefix_drop] at hprefix
      obtain ⟨hle, htake, hprefix⟩ := hprefix
      rw [List.forall_mem_cons] at hall
      rw [List.flatten_cons, List.length_append] at hover
      exact ⟨by omega, htake.symm ▸ hall.1, ops, wide, more, rfl, hall.2, hprefix, by omega⟩
  · rintro ⟨hle, hallowed, ops, wide, more, rfl, hall, hprefix, hover⟩
    have hlength : ((args.drop index).take count).length = count := by
      rw [List.length_take, List.length_drop]
      omega
    refine ⟨(args.drop index).take count :: ops, wide, more, by rw [List.map_cons, hlength, List.cons_append],
      List.forall_mem_cons.mpr ⟨hallowed, hall⟩, ?_, ?_⟩
    · rw [List.flatten_cons, append_isPrefix_drop, hlength]
      exact ⟨by omega, rfl, hprefix⟩
    · rw [List.flatten_cons, List.length_append, hlength]
      omega

theorem map_eq_error_iff {α β : Type} {x : Except Failure α} {f : α → β} {e : Failure} :
    x.map f = .error e ↔ x = .error e := by
  cases x <;> simp [Except.map]

/-- **The loop stops the process** exactly at a count that does not fit behind commands that do. -/
theorem takeOps_panicked_iff (hindex : index ≤ args.length) :
    takeOps env args index counts = .error .panicked ↔ PastUsize args index counts := by
  induction counts generalizing index with
  | nil => simp [takeOps, PastUsize]
  | cons count counts ih =>
    rw [takeOps]
    dsimp only
    split_ifs with hover hshort hallowed
    · simp only [true_iff]
      exact ⟨[], count, counts, rfl, by simp, List.nil_prefix, by simpa using hover⟩
    · rw [pastUsize_cons_iff (by omega) hindex]
      simp only [Except.error.injEq, reduceCtorEq, false_iff, not_and]
      omega
    · rw [pastUsize_cons_iff (by omega) hindex]
      simp only [Except.error.injEq, reduceCtorEq, false_iff, not_and]
      intro _ h
      simp [h] at hallowed
    · rw [Bool.not_eq_true', Bool.not_eq_false] at hallowed
      rw [map_eq_error_iff, ih (by omega), pastUsize_cons_iff (by omega) hindex]
      simp only [hallowed, true_and]
      exact ⟨fun h => ⟨by omega, h⟩, fun h => h.2⟩

end Ops

/-! ## The budget behind the commands -/

section Trailing

variable {env : BatchEnv} {budgetMs final : Option Nat} {rest : List String}

theorem map_parseMs_ok_iff {raw : String} : (parseMs env raw).map some = .ok final ↔
    (parseU64 raw).map some = some final := by
  rw [map_eq_ok_iff, Option.map_eq_some_iff]
  simp only [parseMs_ok_iff]

/-- **Behind the commands** stands one budget flag or nothing. -/
theorem trailingBudget_ok_iff : trailingBudget env budgetMs rest = .ok final ↔
    ∃ trailing, rest = trailingTokens trailing ∧ finalBudget budgetMs trailing = some final := by
  constructor
  · intro h
    unfold trailingBudget at h
    split at h
    · exact ⟨none, rfl, congrArg some (Except.ok.inj h)⟩
    · rename_i flag raw
      split_ifs at h with hflag
      exact ⟨some (.spaced raw), by rw [hflag]; rfl, map_parseMs_ok_iff.mp h⟩
    · rename_i flag
      split at h
      · rename_i raw hraw
        exact ⟨some (.joined raw), by rw [stripPrefix_eq_some_iff.mp hraw]; rfl, map_parseMs_ok_iff.mp h⟩
      · cases h
    · cases h
  · rintro ⟨trailing, rfl, hfinal⟩
    cases trailing with
    | none => exact congrArg Except.ok (Option.some.inj hfinal)
    | some flag =>
      cases flag with
      | spaced raw => exact map_parseMs_ok_iff.mpr hfinal
      | joined raw =>
        simp only [trailingBudget, trailingTokens, Option.elim_some, TimeoutFlag.tokens, stripPrefix_append]
        exact map_parseMs_ok_iff.mpr hfinal

theorem trailingBudget_ne_panicked : trailingBudget env budgetMs rest ≠ .error .panicked := by
  have hparse : ∀ raw, (parseMs env raw).map some ≠ .error .panicked := fun raw h =>
    parseMs_ne_panicked raw (map_eq_error_iff.mp h)
  unfold trailingBudget
  split
  · simp
  · split_ifs
    · exact hparse _
    · simp
  · split
    · exact hparse _
    · simp
  · simp

end Trailing

/-! ## The whole command line -/

/-- Arguments as a process receives them: no slice is longer than half the words. -/
structure Argv where
  args : List String
  fits : args.length < 2 ^ 63

/-- A command line whose flags can be read and one of whose counts, behind counts that cut off allowed commands,
does not fit a word when it is added to the position it counts from. -/
def Overruns (args : List String) : Prop :=
  ∃ flags lead counts rest, args.drop 2 = flags.flatMap LeadFlag.tokens ++ "--" :: rest ∧
    readAll {} flags = some lead ∧ lead.counts = some counts ∧
    0 < counts.length ∧ counts.length ≤ hookBatchMaxOps ∧ PastUsize args (args.length - rest.length) counts

section Whole

variable {env : BatchEnv} {argv : Argv} {spec : HookBatchSpec}

/-- Where the rest begins. -/
theorem drop_sub_length {args tokens rest : List String} (h : args.drop 2 = tokens ++ "--" :: rest) :
    args.length - rest.length ≤ args.length ∧ args.drop (args.length - rest.length) = rest := by
  have hlength := congrArg List.length h
  rw [List.length_drop, List.length_append, List.length_cons] at hlength
  refine ⟨Nat.sub_le _ _, ?_⟩
  have hdrop : args.drop (args.length - rest.length) = (args.drop 2).drop (tokens.length + 1) := by
    rw [List.drop_drop]
    congr 1
    omega
  rw [hdrop, h, List.append_cons, List.drop_left' (by simp)]

theorem overruns_iff {args rest : List String} {lead : Lead}
    (h : leading env {} (args.drop 2) = .ok (lead, rest)) :
    Overruns args ↔ ∃ counts, lead.counts = some counts ∧ 0 < counts.length ∧ counts.length ≤ hookBatchMaxOps ∧
      PastUsize args (args.length - rest.length) counts := by
  constructor
  · rintro ⟨flags, lead', counts, rest', htokens, hread, hcounts, hover⟩
    have hsame : leading env {} (args.drop 2) = .ok (lead', rest') := leading_ok_iff.mpr ⟨flags, htokens, hread⟩
    rw [h] at hsame
    obtain ⟨rfl, rfl⟩ := Prod.mk.inj (Except.ok.inj hsame)
    exact ⟨counts, hcounts, hover⟩
  · rintro ⟨counts, hcounts, hover⟩
    obtain ⟨flags, htokens, hread⟩ := leading_ok_iff.mp h
    exact ⟨flags, lead, counts, rest, htokens, hread, hcounts, hover⟩

theorem invocation_eq {args : List String} (h : isHookBatchInvocation args = true) :
    args = "hook" :: "batch" :: args.drop 2 := by
  rw [isHookBatchInvocation, Bool.and_eq_true, beq_iff_eq, beq_iff_eq] at h
  rcases args with _ | ⟨first, _ | ⟨second, rest⟩⟩
  · exact absurd h.1 (by decide)
  · exact absurd h.2 (by simp)
  · obtain rfl := Option.some.inj h.1
    obtain rfl := Option.some.inj h.2
    rfl

/-- **Only a count can stop the process.** -/
theorem parseHookBatch_panicked_iff : parseHookBatch env argv.args = .error .panicked ↔ Overruns argv.args := by
  unfold parseHookBatch
  cases hlead : leading env {} (argv.args.drop 2) with
  | error e =>
    constructor
    · intro h
      have he : e = .panicked := Except.error.inj h
      exact absurd (he ▸ hlead) leading_ne_panicked
    · rintro ⟨flags, lead, counts, rest, htokens, hread, -⟩
      rw [leading_ok_iff.mpr ⟨flags, htokens, hread⟩] at hlead
      cases hlead
  | ok found =>
    obtain ⟨lead, rest⟩ := found
    obtain ⟨flags, htokens, hread⟩ := leading_ok_iff.mp hlead
    obtain ⟨hindex, hdrop⟩ := drop_sub_length htokens
    rw [overruns_iff hlead, ok_bind]
    dsimp only
    cases hcounts : lead.counts with
    | none => simp
    | some counts =>
      dsimp only
      by_cases hfew : (counts.isEmpty || hookBatchMaxOps < counts.length) = true
      · rw [if_pos hfew]
        simp only [Except.error.injEq, reduceCtorEq, Option.some.injEq, false_iff]
        rintro ⟨counts, rfl, hpos, hle, -⟩
        rw [Bool.or_eq_true, List.isEmpty_iff, decide_eq_true_eq] at hfew
        rcases hfew with rfl | hlt
        · cases hpos
        · omega
      · rw [if_neg hfew]
        rw [Bool.or_eq_true, List.isEmpty_iff, decide_eq_true_eq, not_or] at hfew
        have hpos := List.length_pos_iff.mpr hfew.1
        have hstop : ∀ r : Except Failure HookBatchSpec, r = (takeOps env argv.args
            (argv.args.length - rest.length) counts >>= fun p =>
              trailingBudget env lead.budgetMs (argv.args.drop p.2) >>= fun budgetMs =>
                .ok ⟨p.1, lead.gateHooks, budgetMs.elim (resolveWatchdogTimeout env) clampBudget⟩) →
            (r = .error .panicked ↔ PastUsize argv.args (argv.args.length - rest.length) counts) := by
          rintro r rfl
          rw [← takeOps_panicked_iff hindex]
          cases takeOps env argv.args (argv.args.length - rest.length) counts with
          | error e => simp only [error_bind, Except.error.injEq]
          | ok p =>
            simp only [ok_bind, reduceCtorEq, iff_false]
            cases hbudget : trailingBudget env lead.budgetMs (argv.args.drop p.2) with
            | error e =>
              intro h
              have he : e = .panicked := Except.error.inj h
              exact absurd (he ▸ hbudget) trailingBudget_ne_panicked
            | ok budgetMs => exact fun h => by cases h
        rw [hstop _ rfl]
        constructor
        · intro h
          exact ⟨counts, rfl, hpos, by omega, h⟩
        · rintro ⟨counts, heq, -, -, h⟩
          obtain rfl := Option.some.inj heq
          exact h

/-- **The grammar**: what is accepted is a batch on a command line, and a batch on a command line is accepted. -/
theorem parseHookBatch_ok_iff : isHookBatchInvocation argv.args = true ∧ parseHookBatch env argv.args = .ok spec ↔
    ∃ b : Batch, b.args = argv.args ∧ b.spec env = spec := by
  have hfits := argv.fits
  unfold parseHookBatch
  constructor
  · rintro ⟨hinvocation, h⟩
    obtain ⟨⟨lead, rest⟩, hlead, h⟩ := bind_ok_iff.mp h
    obtain ⟨flags, htokens, hread⟩ := leading_ok_iff.mp hlead
    obtain ⟨hindex, hdrop⟩ := drop_sub_length htokens
    dsimp only at h
    cases hcounts : lead.counts with
    | none =>
      rw [hcounts] at h
      cases h
    | some counts =>
      rw [hcounts] at h
      dsimp only at h
      split_ifs at h with hfew
      rw [Bool.or_eq_true, List.isEmpty_iff, decide_eq_true_eq, not_or] at hfew
      obtain ⟨⟨ops, last⟩, hops, h⟩ := bind_ok_iff.mp h
      obtain ⟨budgetMs, hbudget, h⟩ := bind_ok_iff.mp h
      obtain rfl := Except.ok.inj h
      obtain ⟨rfl, hallowed, ⟨behind, hbehind⟩, rfl⟩ :=
        (takeOps_ok_iff (by unfold usizeBound; omega) hindex).mp hops
      obtain ⟨trailing, htrailing, hfinal⟩ := trailingBudget_ok_iff.mp hbudget
      have hbehind' : behind = trailingTokens trailing := by
        rw [← htrailing, ← List.drop_drop, ← hbehind, List.drop_left]
      refine ⟨⟨flags, lead, hread, ops, hcounts, ?_, hallowed, trailing, budgetMs, hfinal⟩, ?_, rfl⟩
      · have hlength : (ops.map List.length).length = ops.length := List.length_map _
        have hpos := List.length_pos_iff.mpr hfew.1
        omega
      · show "hook" :: "batch" ::
          (flags.flatMap LeadFlag.tokens ++ "--" :: (ops.flatten ++ trailingTokens trailing)) = _
        rw [← hbehind', hbehind, hdrop, ← htokens]
        exact (invocation_eq hinvocation).symm
  · rintro ⟨b, hargs, rfl⟩
    obtain ⟨args, _⟩ := argv
    obtain rfl : b.args = args := hargs
    have htokens : b.args.drop 2 = b.flags.flatMap LeadFlag.tokens ++
        "--" :: (b.ops.flatten ++ trailingTokens b.trailing) := rfl
    obtain ⟨hindex, hdrop⟩ := drop_sub_length htokens
    have hbound : b.args.length < usizeBound := by
      unfold usizeBound
      dsimp only at hfits
      omega
    have hops := (@takeOps_ok_iff env b.args b.ops _ _ _ hbound hindex).mpr
      ⟨rfl, b.allowed, by rw [hdrop]; exact List.prefix_append _ _, rfl⟩
    have hfew := b.some_few
    refine ⟨rfl, bind_ok_iff.mpr ⟨_, leading_ok_iff.mpr ⟨_, htokens, b.read⟩, ?_⟩⟩
    dsimp only
    rw [b.counted]
    dsimp only
    rw [if_neg, hops, ok_bind]
    · dsimp only
      rw [← List.drop_drop, hdrop, List.drop_left, trailingBudget_ok_iff.mpr ⟨_, rfl, b.budget⟩]
      rfl
    · rw [Bool.or_eq_true, List.isEmpty_iff, decide_eq_true_eq, not_or, List.map_eq_nil_iff, List.length_map]
      exact ⟨List.length_pos_iff.mp hfew.1, by omega⟩

end Whole

/-! ## There and back -/

/-- The command line of a batch, with its budget behind the commands. -/
def encode (ops : List (List String)) (budget : Option Nat) : List String :=
  ["hook", "batch", "--counts", join "," (ops.map fun op => toString op.length), "--"] ++ ops.flatten ++
    budget.elim [] fun ms => ["--timeout-ms", toString ms]

section Encode

variable {ops : List (List String)} {budget : Option Nat}

theorem not_mem_digits (n : Nat) : ',' ∉ (toString n).toList := by
  intro h
  have hlist : (toString n).toList = Nat.toDigits 10 n := Nat.toList_repr
  rw [hlist] at h
  exact absurd (Nat.isDigit_of_mem_toDigits (by decide) (by decide) h) (by decide)

/-- The counts are read back. -/
theorem parseCounts_join (hne : ops ≠ []) (h : ∀ op ∈ ops, 0 < op.length ∧ op.length < 2 ^ 64) :
    parseCounts (join "," (ops.map fun op => toString op.length)) = some (ops.map List.length) := by
  have hsplit : split ',' (join "," (ops.map fun op => toString op.length)) =
      ops.map fun op => toString op.length := by
    refine split_join (fun hnil => hne (List.map_eq_nil_iff.mp hnil)) fun piece hpiece => ?_
    obtain ⟨op, -, rfl⟩ := List.mem_map.mp hpiece
    exact not_mem_digits _
  rw [parseCounts, hsplit]
  clear hsplit hne
  induction ops with
  | nil => rfl
  | cons op ops ih =>
    rw [List.forall_mem_cons] at h
    have hpos : (some op.length).filter (fun n => decide (0 < n)) = some op.length :=
      Option.filter_some_pos (decide_eq_true h.1.1)
    rw [List.map_cons, List.map_cons, List.mapM_cons, ih h.2, parseU64_toString h.1.2, hpos]
    rfl

/-- A command that is allowed has a name. -/
theorem length_pos_of_allowed {op : List String} (h : hookBatchOpAllowed op = true) : 0 < op.length := by
  cases op with
  | nil => exact absurd h (by decide)
  | cons _ _ => exact Nat.succ_pos _

/-- An encoding is a batch on a command line. -/
theorem exists_batch (env : BatchEnv) (hsome : 0 < ops.length ∧ ops.length ≤ hookBatchMaxOps)
    (hallowed : ∀ op ∈ ops, hookBatchOpAllowed op = true) (hbudget : ∀ ms, budget = some ms → ms < 2 ^ 64)
    (hfits : (encode ops budget).length < 2 ^ 63) :
    ∃ b : Batch, b.args = encode ops budget ∧
      b.spec env = ⟨ops, false, budget.elim (resolveWatchdogTimeout env) clampBudget⟩ := by
  have hcounts : parseCounts (join "," (ops.map fun op => toString op.length)) = some (ops.map List.length) := by
    refine parseCounts_join (List.length_pos_iff.mp hsome.1) fun op hop =>
      ⟨length_pos_of_allowed (hallowed op hop), ?_⟩
    have hle : op.length ≤ ops.flatten.length := (List.sublist_flatten_of_mem hop).length_le
    unfold encode at hfits
    rw [List.length_append, List.length_append] at hfits
    omega
  have hread : readAll {} [.counts (join "," (ops.map fun op => toString op.length))] =
      some { counts := some (ops.map List.length) } := by
    rw [readAll, LeadFlag.read, hcounts]
    rfl
  have htrailing : finalBudget none (budget.map fun ms => .spaced (toString ms)) = some budget := by
    cases budget with
    | none => rfl
    | some ms =>
      show (parseU64 (toString ms)).map some = _
      rw [parseU64_toString (hbudget ms rfl)]
      rfl
  refine ⟨⟨_, _, hread, ops, rfl, hsome, hallowed, _, _, htrailing⟩, ?_, rfl⟩
  cases budget with
  | none => simp [Batch.args, encode, LeadFlag.tokens, trailingTokens]
  | some ms => simp [Batch.args, encode, LeadFlag.tokens, trailingTokens, TimeoutFlag.tokens]

end Encode

namespace BatchGrammarSample

def env : BatchEnv := ⟨fun text => "\"" ++ text ++ "\"", .notPresent⟩

/-- The commands of the third word are words of the grammar. -/
example : parseHookBatch env ["hook", "batch", "--gate-hooks", "--counts", "1,4", "--", "room", "next", "--",
    "--counts", "1", "--timeout-ms", "90000"] = .ok ⟨[["room"], ["next", "--", "--counts", "1"]], true, 60000⟩ := by
  decide +kernel

def overrunning : Argv := ⟨["hook", "batch", "--counts", "18446744073709551615", "--", "enter"], by decide⟩

end BatchGrammarSample

end RallyPoint.BatchGrammar
