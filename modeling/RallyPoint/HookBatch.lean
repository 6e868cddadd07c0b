/-
# RallyPoint.HookBatch — the frame of a batch of hook calls (`lib.rs`, `rally-coordination-hook.sh`).

One process runs the calls of a hook and prints one frame: a header line with the exit code and the byte length
of every output, then the outputs, one behind the other. The wrapper captures the frame with a command
substitution and cuts it apart again by the lengths. The capture drops every line break at the end, and it is the
break behind the header line that decides whether there is a frame to cut: it survives the capture exactly when
something other than a line break comes after it.
-/
import RallyPoint.Lib.Shell

namespace RallyPoint.HookBatch

open Lib Lib.Shell

/-! ## Running the operations -/

def trimEndNewlines (stdout : Bytes) : Bytes := stdout.rdropWhile (· == newline)

theorem getLast?_trimEndNewlines (stdout : Bytes) : (trimEndNewlines stdout).getLast? ≠ some newline := by
  intro h
  have hne : trimEndNewlines stdout ≠ [] := fun hnil => by simp [hnil] at h
  have hlast := List.rdropWhile_last_not (· == newline) stdout hne
  rw [List.getLast?_eq_getLast_of_ne_nil hne, Option.some.injEq] at h
  exact hlast (by simpa [trimEndNewlines] using h)

/-- The exit code and the output of one operation; an output has no line break at its end. -/
structure BatchResult where
  code : UInt8
  output : Bytes
  stripped : output.getLast? ≠ some newline

def hookBatchRcTimeout : UInt8 := 124
def hookBatchRcSkipped : UInt8 := 125

/-- How an operation that was started came back. -/
inductive OpRun
  | completed (exitCode : UInt8) (stdout : Bytes) (hooksEnabled : Option Bool)
  | timedOut

/-- The results of the operations, in order; `true` beside an operation says that too little time was left. -/
def collect (gateHooks : Bool) : Bool → List (Bool × OpRun) → List BatchResult
  | _, [] => []
  | stopped, (late, run) :: rest =>
    if stopped || late then ⟨hookBatchRcSkipped, [], by decide⟩ :: collect gateHooks true rest
    else
      match run with
      | .completed exitCode stdout hooksEnabled =>
        ⟨exitCode, trimEndNewlines stdout, getLast?_trimEndNewlines stdout⟩ ::
          collect gateHooks (gateHooks && hooksEnabled == some false) rest
      | .timedOut => ⟨hookBatchRcTimeout, [], by decide⟩ :: collect gateHooks true rest

/-! ## The frame -/

def colon : UInt8 := 58

def hookBatchHeader : Bytes := ascii "RALLY-HOOK-BATCH/1".toList

/-- One entry of the header line. -/
def headerItem (r : BatchResult) : Bytes := decimal r.code.toNat ++ colon :: decimal r.output.length

def headerItems (results : List BatchResult) : Bytes := results.flatMap fun r => blank :: headerItem r

def bodyOf (results : List BatchResult) : Bytes := results.flatMap (·.output)

def frame (results : List BatchResult) : Bytes :=
  hookBatchHeader ++ headerItems results ++ newline :: bodyOf results

/-- What the process prints: the frame as one line. -/
def printed (results : List BatchResult) : Bytes := frame results ++ [newline]

/-! ## The wrapper -/

/-- `${item%%:*}` and `${item#*:}`. -/
def splitItem (item : Bytes) : Bytes × Bytes :=
  (item.takeWhile (· != colon), if item.contains colon then (item.dropWhile (· != colon)).drop 1 else item)

/-- The loop over the header entries, from byte `off` of the body on. -/
def splitItems (body : Bytes) (off : Nat) : List Bytes → Option (List (Bytes × Bytes) × Nat)
  | [] => some ([], off)
  | item :: rest =>
    let (rc, len) := splitItem item
    if (rc ++ len).isEmpty || !(rc ++ len).all isDigit then none
    else
      match shellNumber len with
      -- an arithmetic error
      | none => none
      | some n =>
        if off + n ≤ body.length then
          (splitItems body (off + n) rest).map fun (outs, last) =>
            ((rc, (body.drop off).take n) :: outs, last)
        else none

/-- `_rally_batch_split`: the codes and the outputs, in order. -/
def batchSplit (raw : Bytes) (count : Nat) : Option (List (Bytes × Bytes)) :=
  let pre := hookBatchHeader ++ [blank]
  if !pre.isPrefixOf raw then none
  else
    let header := raw.takeWhile (· != newline)
    if header = raw then none
    else
      let body := raw.drop (header.length + 1)
      match splitItems body 0 (fields (header.drop pre.length)) with
      | some (outs, off) => if outs.length = count ∧ off = body.length then some outs else none
      | none => none

/-- What the wrapper goes on with. -/
inductive BatchOutcome
  | results (values : List (Bytes × Bytes))
  /-- Killed at the deadline: every value is empty. -/
  | failOpen
  /-- The calls are made again, one process each. -/
  | rerun
  deriving DecidableEq

def batchOutcome (rawRc : Nat) (raw : Bytes) (count : Nat) : BatchOutcome :=
  match batchSplit raw count with
  | some values => .results values
  | none => if rawRc = 124 ∨ rawRc = 137 then .failOpen else .rerun

/-- The values a result stands for. -/
def valueOf (r : BatchResult) : Bytes × Bytes := (decimal r.code.toNat, r.output)

/-! ## Cutting a frame apart -/

section Split

variable {results : List BatchResult} {r : BatchResult}

theorem isFieldSeparator_of_digit {b : UInt8} (h : isDigit b = true) : isFieldSeparator b = false := by
  simp only [isDigit, Bool.and_eq_true, decide_eq_true_eq, UInt8.le_iff_toNat_le] at h
  simp only [isFieldSeparator, Bool.or_eq_false_iff, beq_eq_false_iff_ne, ne_eq, blank, newline]
  refine ⟨⟨?_, ?_⟩, ?_⟩ <;> rintro rfl <;> exact absurd h (by decide)

theorem digit_ne_colon {b : UInt8} (h : isDigit b = true) : b ≠ colon := by
  rintro rfl
  exact absurd h (by decide)

theorem headerItem_plain (r : BatchResult) : ∀ b ∈ headerItem r, isFieldSeparator b = false := by
  intro b hb
  rcases List.mem_append.mp hb with hb | hb
  · exact isFieldSeparator_of_digit (isDigit_of_mem_decimal hb)
  · rcases List.mem_cons.mp hb with rfl | hb
    · decide
    · exact isFieldSeparator_of_digit (isDigit_of_mem_decimal hb)

theorem headerItem_ne_nil (r : BatchResult) : headerItem r ≠ [] := by simp [headerItem]

/-- **The header entries are the fields** of the header line. -/
theorem fields_headerItems (r : BatchResult) (results : List BatchResult) :
    fields (headerItem r ++ headerItems results) = (r :: results).map headerItem := by
  induction results generalizing r with
  | nil => simpa [headerItems] using fields_of_plain (headerItem_plain r) (headerItem_ne_nil r)
  | cons r' results ih =>
    rw [show headerItems (r' :: results) = blank :: (headerItem r' ++ headerItems results) from rfl,
      fields_append_blank (headerItem_plain r) (headerItem_ne_nil r), ih]
    rfl

theorem takeWhile_digits_colon {n : Nat} {rest : Bytes} :
    (decimal n ++ colon :: rest).takeWhile (· != colon) = decimal n := by
  have hplain : ∀ b ∈ decimal n, (b != colon) = true := fun b hb => by
    simpa using digit_ne_colon (isDigit_of_mem_decimal hb)
  rw [List.takeWhile_append_of_pos hplain, List.takeWhile_cons_of_neg (by simp), List.append_nil]

theorem splitItem_headerItem (r : BatchResult) :
    splitItem (headerItem r) = (decimal r.code.toNat, decimal r.output.length) := by
  have hplain : ∀ b ∈ decimal r.code.toNat, (b != colon) = true := fun b hb => by
    simpa using digit_ne_colon (isDigit_of_mem_decimal hb)
  have hdrop : (headerItem r).dropWhile (· != colon) = colon :: decimal r.output.length := by
    rw [headerItem, List.dropWhile_append_of_pos hplain, List.dropWhile_cons_of_neg (by simp)]
  have hcolon : (headerItem r).contains colon = true := by simp [headerItem]
  rw [splitItem, hcolon, if_pos rfl, hdrop, headerItem, takeWhile_digits_colon]
  rfl

theorem items_numeric (r : BatchResult) :
    ((decimal r.code.toNat ++ decimal r.output.length).isEmpty ||
      !(decimal r.code.toNat ++ decimal r.output.length).all isDigit) = false := by
  have hall : (decimal r.code.toNat ++ decimal r.output.length).all isDigit = true :=
    List.all_eq_true.mpr fun b hb => (List.mem_append.mp hb).elim isDigit_of_mem_decimal isDigit_of_mem_decimal
  rw [hall]
  simp [decimal_ne_nil]

/-- **The lengths cut the body** into the outputs, and use all of it. -/
theorem splitItems_headerItems {body : Bytes} {off : Nat} (hoff : off ≤ body.length)
    (hbody : body.drop off = bodyOf results) :
    splitItems body off (results.map headerItem) = some (results.map valueOf, body.length) := by
  induction results generalizing off with
  | nil =>
    have hend : body.length ≤ off := List.drop_eq_nil_iff.mp hbody
    rw [List.map_nil, List.map_nil, splitItems, show off = body.length by omega]
  | cons r results ih =>
    have hcons : body.drop off = r.output ++ bodyOf results := hbody
    have hlength := congrArg List.length hcons
    rw [List.length_drop, List.length_append] at hlength
    have hnext : body.drop (off + r.output.length) = bodyOf results := by
      rw [← List.drop_drop, hcons, List.drop_left]
    have htake : (body.drop off).take r.output.length = r.output := by rw [hcons, List.take_left]
    rw [List.map_cons, splitItems, splitItem_headerItem]
    simp only [items_numeric, Bool.false_eq_true, if_false, shellNumber_decimal,
      if_pos (show off + r.output.length ≤ body.length by omega), ih (by omega) hnext, htake, Option.map_some]
    rfl

end Split

/-! ## The capture -/

section Capture

variable {results : List BatchResult}

theorem header_plain : ∀ b ∈ hookBatchHeader, b ≠ 0 ∧ b ≠ newline := by
  have hall : (hookBatchHeader.all fun b => b != 0 && b != newline) = true := by decide
  simpa [List.all_eq_true] using hall

theorem headerItems_plain : ∀ b ∈ headerItems results, b ≠ 0 ∧ b ≠ newline := by
  have hdigit : ∀ b : UInt8, isDigit b = true → b ≠ 0 ∧ b ≠ newline := by
    intro b hb
    constructor <;> rintro rfl <;> exact absurd hb (by decide)
  intro b hb
  obtain ⟨r, -, hb⟩ := List.mem_flatMap.mp hb
  rcases List.mem_cons.mp hb with rfl | hb
  · decide
  · rcases List.mem_append.mp hb with hb | hb
    · exact hdigit b (isDigit_of_mem_decimal hb)
    · rcases List.mem_cons.mp hb with rfl | hb
      · decide
      · exact hdigit b (isDigit_of_mem_decimal hb)

/-- The header line, before its line break. -/
def headerLine (results : List BatchResult) : Bytes := hookBatchHeader ++ headerItems results

theorem headerLine_plain : ∀ b ∈ headerLine results, b ≠ 0 ∧ b ≠ newline := by
  intro b hb
  rcases List.mem_append.mp hb with hb | hb
  · exact header_plain b hb
  · exact headerItems_plain b hb

/-- The outputs one behind the other end in no line break. -/
theorem getLast?_bodyOf : (bodyOf results).getLast? ≠ some newline := by
  induction results with
  | nil => simp [bodyOf]
  | cons r results ih =>
    have hcons : bodyOf (r :: results) = r.output ++ bodyOf results := rfl
    rw [hcons, List.getLast?_append]
    cases hlast : (bodyOf results).getLast? with
    | none => simpa using r.stripped
    | some b => simpa [hlast] using ih

theorem bodyOf_eq_nil_iff : bodyOf results = [] ↔ ∀ r ∈ results, r.output = [] := List.flatMap_eq_nil_iff

/-- **What the wrapper captures:** the frame, or its header line when every output is empty. -/
theorem commandSubstitution_printed (hnul : ∀ r ∈ results, (0 : UInt8) ∉ r.output) :
    commandSubstitution (printed results) =
      if bodyOf results = [] then headerLine results else frame results := by
  have hbody : ∀ b ∈ bodyOf results, b ≠ 0 := by
    intro b hb
    obtain ⟨r, hr, hb⟩ := List.mem_flatMap.mp hb
    exact fun hzero => hnul r hr (hzero ▸ hb)
  have hfilter : (printed results).filter (· != 0) = printed results := by
    refine List.filter_eq_self.mpr fun b hb => ?_
    rw [printed, frame, List.mem_append, List.mem_append, List.mem_cons, List.mem_singleton] at hb
    rcases hb with (hb | rfl | hb) | rfl
    · simpa using (headerLine_plain b hb).1
    · decide
    · simpa using hbody b hb
    · decide
  have hlast : ∀ text : Bytes, text.getLast? ≠ some newline → text.rdropWhile (· == newline) = text := by
    intro text htext
    refine List.rdropWhile_eq_self_iff.mpr fun hne hnewline => htext ?_
    rw [List.getLast?_eq_getLast_of_ne_nil hne]
    simpa using hnewline
  rw [commandSubstitution, hfilter, printed, List.rdropWhile_concat_pos _ _ _ (by simp)]
  split
  case isTrue hnil =>
    have hframe : frame results = headerLine results ++ [newline] := by rw [frame, hnil, headerLine]
    rw [hframe, List.rdropWhile_concat_pos _ _ _ (by simp)]
    refine hlast _ fun h => ?_
    exact (headerLine_plain newline (List.mem_of_getLast? h)).2 rfl
  case isFalse hne =>
    refine hlast _ ?_
    have hframe : frame results = headerLine results ++ [newline] ++ bodyOf results := by simp [frame, headerLine]
    rw [hframe, List.getLast?_append_of_ne_nil _ hne]
    exact getLast?_bodyOf

/-- A text of one line is no frame. -/
theorem batchSplit_of_line {raw : Bytes} (hline : ∀ b ∈ raw, b ≠ newline) (count : Nat) :
    batchSplit raw count = none := by
  have hheader : raw.takeWhile (· != newline) = raw :=
    List.takeWhile_eq_self_iff.mpr fun b hb => by simpa using hline b hb
  rw [batchSplit, hheader, if_pos rfl]
  simp

/-- **A frame is cut** into the codes and the outputs it was made of. -/
theorem batchSplit_frame (hne : results ≠ []) :
    batchSplit (frame results) results.length = some (results.map valueOf) := by
  obtain ⟨r, rest, rfl⟩ := List.exists_cons_of_ne_nil hne
  have hline : headerLine (r :: rest) = hookBatchHeader ++ [blank] ++ (headerItem r ++ headerItems rest) := by
    simp [headerLine, headerItems]
  have hframe : frame (r :: rest) = headerLine (r :: rest) ++ newline :: bodyOf (r :: rest) := rfl
  have hpre : (hookBatchHeader ++ [blank]).isPrefixOf (frame (r :: rest)) = true := by
    rw [hframe, hline, List.isPrefixOf_iff_prefix, List.append_assoc]
    exact List.prefix_append _ _
  have hheader : (frame (r :: rest)).takeWhile (· != newline) = headerLine (r :: rest) := by
    have hplain : ∀ b ∈ headerLine (r :: rest), (b != newline) = true := fun b hb => by
      simpa using (headerLine_plain b hb).2
    rw [hframe, List.takeWhile_append_of_pos hplain, List.takeWhile_cons_of_neg (by simp), List.append_nil]
  have hbody : (frame (r :: rest)).drop ((headerLine (r :: rest)).length + 1) = bodyOf (r :: rest) := by
    rw [hframe, ← List.drop_drop, List.drop_left]
    rfl
  have hproper : headerLine (r :: rest) ≠ frame (r :: rest) := by
    intro heq
    have := congrArg List.length heq
    rw [hframe, List.length_append] at this
    simp at this
  have hitems : fields ((headerLine (r :: rest)).drop (hookBatchHeader ++ [blank]).length) =
      (r :: rest).map headerItem := by
    rw [hline, List.drop_left, fields_headerItems]
  rw [batchSplit]
  simp only [hpre, Bool.not_true, Bool.false_eq_true, if_false, hheader, hproper, hbody, hitems,
    splitItems_headerItems (Nat.zero_le _) (List.drop_zero), List.length_map, and_self, if_true]

/-- **Batch frames round-trip** exactly when some output is not empty. -/
theorem batch_round_trip_iff (results : List BatchResult) (hnul : ∀ r ∈ results, (0 : UInt8) ∉ r.output) :
    batchOutcome 0 (commandSubstitution (printed results)) results.length = .results (results.map valueOf) ↔
      ∃ r ∈ results, r.output ≠ [] := by
  have hnonempty : (∃ r ∈ results, r.output ≠ []) ↔ bodyOf results ≠ [] := by
    rw [ne_eq, bodyOf_eq_nil_iff]
    simp
  rw [hnonempty, commandSubstitution_printed hnul]
  constructor
  · rintro houtcome hnil
    rw [if_pos hnil, batchOutcome, batchSplit_of_line fun b hb => (headerLine_plain b hb).2] at houtcome
    simp at houtcome
  · intro hbody
    have hne : results ≠ [] := fun hnil => hbody (by rw [hnil]; rfl)
    rw [if_neg hbody, batchOutcome, batchSplit_frame hne]

/-- A completed batch whose outputs are all empty is run again. -/
theorem batchOutcome_of_empty (hempty : ∀ r ∈ results, r.output = []) :
    batchOutcome 0 (commandSubstitution (printed results)) results.length = .rerun := by
  have hnil := bodyOf_eq_nil_iff.mpr hempty
  rw [commandSubstitution_printed fun r hr => by simp [hempty r hr], if_pos hnil, batchOutcome,
    batchSplit_of_line fun b hb => (headerLine_plain b hb).2]
  rfl

end Capture

/-! ## Two batches -/

namespace Batches

/-- The first operation runs into the watchdog; the others are skipped. -/
def timedOut : List BatchResult :=
  collect true false [(false, .timedOut), (false, .completed 0 (ascii "{}".toList) none),
    (false, .completed 0 (ascii "{}".toList) none)]

/-- The first operation answers and the second has nothing to say. -/
def answered : List BatchResult :=
  collect true false [(false, .completed 0 (ascii "\x7b\n\x7d\n".toList) (some true)), (false, .completed 3 [] none)]

end Batches

/-- An empty output between its neighbours does no harm. -/
theorem batch_round_trip_answered :
    batchOutcome 0 (commandSubstitution (printed Batches.answered)) Batches.answered.length =
      .results (Batches.answered.map valueOf) :=
  (batch_round_trip_iff Batches.answered (by decide)).mpr (by decide)

/-- A batch that timed out on its first operation completes, prints its frame, and is run again. -/
theorem batch_timed_out_reruns :
    Batches.timedOut.map (fun r => (r.code, r.output)) = [(124, []), (125, []), (125, [])] ∧
      printed Batches.timedOut = ascii "RALLY-HOOK-BATCH/1 124:0 125:0 125:0\n\n".toList ∧
      batchOutcome 0 (commandSubstitution (printed Batches.timedOut)) Batches.timedOut.length = .rerun := by
  refine ⟨by decide, by decide, batchOutcome_of_empty (by decide)⟩

end RallyPoint.HookBatch
