/-
# RallyPoint.ContentHashes — what a file held when a handoff or a claim was posted (`open_queue.rs`,
`source_grounding.rs`, `check.rs`).

A handoff records the room's commit and a hash for each file of its scope, a claim a hash for each of its files. Each
is a marker of its own in the evidence, path and hash joined by `=`; the reader takes what stands before the first
`=` for the path. A path with an `=` in it therefore comes back cut short, under the name of another file and with
the rest of it in the hash. `readsBack_iff` says that this is the only thing that goes wrong: without such a path the
recorded hashes come back, and the consumers compare against them.
-/
import RallyPoint.Lib.OrderedMap
import RallyPoint.Lib.UnixPath
import RallyPoint.Offers
import RallyPoint.StableId
import RallyPoint.WriteCheck
import Mathlib.Algebra.GroupWithZero.Nat

namespace RallyPoint.ContentHashes

open Lib

/-! ## Files -/

/-- A regular file. -/
structure RegularFile where
  content : List UInt8
  readable : Bool := true
  modified : Option Int := none

/-- The file system as the probe asks it: what a path resolves to, and the regular files by resolved path. -/
structure FileTree where
  canonicalize : String → Option String
  file : String → Option RegularFile

/-- `Path::join` of a text. -/
def joinPath (root raw : String) : String :=
  if isAbsolute raw then raw else if (stripSuffix "/" root).isSome then root ++ raw else root ++ "/" ++ raw

/-- `Path::strip_prefix` of resolved paths, as the components that are left. -/
def insideComponents (root resolved : String) : Option (List String) :=
  if (components root).isPrefixOf (components resolved) then
    some ((components resolved).drop (components root).length)
  else none

@[irreducible] def confinedFile (tree : FileTree) (root raw : String) : Option String := do
  let raw := trim ((stripPrefix "file:" raw).getD raw)
  if raw = "" || raw.toList.contains '\x00' then none
  else
    let resolved ← tree.canonicalize (joinPath root raw)
    let inside ← insideComponents root resolved
    -- the room's own state and git's are nobody's scope
    if inside.head? = some ".rally" || inside.head? = some ".git" then none
    else if (tree.file resolved).isSome then some resolved else none

def maxHashedBytes : Nat := 4 * 1024 * 1024

def maxFilesPerItem : Nat := 16

/-- At most `max` bytes of a file, and whether it has more. -/
def readRegular (tree : FileTree) (path : String) (max : Nat) : Option (List UInt8 × Bool) :=
  match tree.file path with
  | some file => if file.readable then some (file.content.take max, decide (max < file.content.length)) else none
  | none => none

/-- `hash_bytes`: FNV-1a 64 in sixteen digits. -/
def hashBytes (data : List UInt8) : String := hex16 (data.foldl fnvStep 0xcbf29ce484222325)

def boundedHash (tree : FileTree) (path : String) : Option String :=
  match readRegular tree path maxHashedBytes with
  | some (bytes, truncated) => if truncated then none else some (hashBytes bytes)
  | none => none

/-! ## The markers of a handoff -/

def baseHashPrefix : String := "basehash:"

def baseCommitPrefix : String := "base_commit:"

/-- `(path, hash)` pairs into a map, the last one of a path winning. -/
def collectHashes (pairs : List (String × String)) : List (String × String) :=
  OrderedMap.updateAll (fun hash _ => hash) [] pairs

def baseHashes (evidence : List String) : List (String × String) :=
  collectHashes ((evidence.filterMap (stripPrefix baseHashPrefix)).filterMap (splitOnce '='))

def isHexDigit (c : Char) : Bool := c.isDigit || ('a' ≤ c && c ≤ 'f') || ('A' ≤ c && c ≤ 'F')

/-- The last commit marker, when it is an object id of 7 to 64 hex digits. -/
def baseCommit (evidence : List String) : Option String :=
  ((evidence.reverse.findSome? (stripPrefix baseCommitPrefix)).map trim).filter fun sha =>
    7 ≤ byteLen sha && byteLen sha ≤ 64 && sha.toList.all isHexDigit

def isReservedBaseMarker (entry : String) : Bool :=
  startsWith baseHashPrefix entry || startsWith baseCommitPrefix entry

/-- What `git rev-parse HEAD` prints when it succeeds: the hex digits of an object id. -/
structure RevParse where
  stdout : Option String
  objectId : ∀ text, stdout = some text → byteLen (trim text) ≤ 64

def gitHead (git : RevParse) : Option String :=
  (git.stdout.map trim).filter fun sha => 7 ≤ byteLen sha && sha.toList.all isHexDigit

/-- The path of a file scope. -/
@[irreducible] def relOf (raw : String) : String := (stripPrefix "file:" raw).getD raw

/-- The file scopes that are looked at. -/
def fileScopes (scope : List String) : List String := (scope.filter (startsWith "file:")).take maxFilesPerItem

def baseMarkers (tree : FileTree) (git : RevParse) (root : String) (scope : List String) : List String :=
  match tree.canonicalize root with
  | none => []
  | some root =>
    (gitHead git).toList.map (baseCommitPrefix ++ ·) ++
      (fileScopes scope).filterMap fun raw =>
        ((confinedFile tree root (relOf raw)).bind (boundedHash tree)).map fun hash =>
          baseHashPrefix ++ relOf raw ++ "=" ++ hash

/-! ## The markers of a claim -/

/-- `fs::read` of a path. -/
def readPath (tree : FileTree) (path : String) : Option (List UInt8) :=
  ((tree.canonicalize path).bind tree.file).bind fun file => if file.readable then some file.content else none

def hashFile (tree : FileTree) (path : String) : Option String := (readPath tree path).map hashBytes

def claimHashPrefix : String := "claimhash:"

def claimHashes (tree : FileTree) (repoRoot : String) (filePaths : List String) : List String :=
  filePaths.filterMap fun raw =>
    (hashFile tree (joinPath repoRoot (relOf raw))).map fun hash => claimHashPrefix ++ relOf raw ++ "=" ++ hash

def parseClaimHashes (evidence : List String) : List (String × String) :=
  collectHashes ((evidence.filterMap (stripPrefix claimHashPrefix)).filterMap (splitOnce '='))

/-! ## The consumers -/

/-- The claimed files that still have the content of the claim. -/
def ungroundedPaths (tree : FileTree) (repoRoot : String) (hashes : List (String × String)) : List String :=
  hashes.filterMap fun entry =>
    if hashFile tree (joinPath repoRoot entry.1) = some entry.2 then some entry.1 else none

structure RevalidateReason where
  code : String
  detail : String
  deriving DecidableEq

/-- The length that a probe of a file is charged with. -/
def chargedLength (tree : FileTree) (path : String) (cap : Nat) : Nat :=
  ((tree.file path).map fun file => min file.content.length cap).getD cap

/-- A charge to the budget; none once it is spent. -/
def spend (tree : FileTree) (budget : Nat) (path : String) (cap : Nat) : Option Nat :=
  if budget < chargedLength tree path cap then none else some (budget - chargedLength tree path cap)

/-- One round of the loop over a handoff's file scopes, on the reasons and the budget so far. -/
def scopeChange (tree : FileTree) (root : String) (recorded : List (String × String))
    (posted : Option Int) (s : List RevalidateReason × Nat) (raw : String) : List RevalidateReason × Nat :=
  match confinedFile tree root (relOf raw) with
  | none => s
  | some path =>
    match OrderedMap.get recorded (relOf raw) with
    | some base =>
      -- a recorded base is authoritative
      match spend tree s.2 path maxHashedBytes with
      | none => s
      | some budget =>
        if (boundedHash tree path).any (· != base) then (s.1 ++ [⟨"scope_changed_since_posted", relOf raw⟩], budget)
        else (s.1, budget)
    | none =>
      if posted.any fun posted => ((tree.file path).bind (·.modified)).any (posted < ·) then
        (s.1 ++ [⟨"scope_changed_since_posted", relOf raw⟩], s.2)
      else s

def scopeChanges (ext : Externals) (tree : FileTree) (fact : Fact) (root : String) (budget : Nat) :
    List RevalidateReason × Nat :=
  (fileScopes fact.scope).foldl (scopeChange tree root (baseHashes fact.evidence)
    ((ext.parseFromRfc3339 fact.createdAt).map timestamp)) ([], budget)

section Check

variable (repoRelativePath : String → Option String) (shellQuote : String → String)

/-- An id that can stand in a suggested command. -/
def idShaped (eventId : String) : Bool :=
  byteLen eventId ≤ 96 && eventId.toList.all fun c => isAsciiAlphanumeric c || c == '_' || c == '-'

def baseBehindMessage (handoff : Fact) (rel : String) : String :=
  let commit := baseCommit handoff.evidence
  let named := if idShaped handoff.eventId then " (" ++ handoff.eventId ++ ")" else ""
  let based := (commit.map fun sha => " (base commit " ++ String.ofList (sha.toList.take 12) ++ ")").getD ""
  let locate := if idShaped handoff.eventId then " and `rally locate " ++ handoff.eventId ++ " --json`" else ""
  let hint := (commit.map fun sha => " Compare with `git diff " ++ sha ++ " -- " ++ shellQuote rel ++ "`.").getD ""
  "an open handoff" ++ named ++ " was written against an older version of " ++ shellQuote rel ++ based ++
    "; the file has changed since. Re-read the current file" ++ locate ++ " before overwriting." ++ hint

/-- Once the tool has claimed the path after the handoff it has seen the warning. -/
def alreadyTaken (snapshot : RoomSnapshot) (tool path : String) (handoff : Fact) : Bool :=
  snapshot.activeClaims.any fun claim => claim.tool == some tool && decide (handoff.seq < claim.seq) &&
    claim.scope.any fun scope => pathMatchesScope repoRelativePath scope path

/-- The comparison for one handoff; `current` is the hash of the file now. -/
def handoffBaseFinding (snapshot : RoomSnapshot) (tool path : String) (current : Option String) (handoff : Fact) :
    Option CheckFinding :=
  if handoffAddress handoff tool = .elsewhere then none
  else
    match OrderedMap.get (baseHashes handoff.evidence) (relOf path) with
    | none => none
    | some base =>
      if alreadyTaken repoRelativePath snapshot tool path handoff then none
      else
        match current with
        | none => none
        | some now =>
          if now = base then none
          else some
            { code := "handoff_base_behind"
              severity := "warn"
              message := baseBehindMessage shellQuote handoff (relOf path)
              factId := some handoff.eventId
              owner := handoff.tool
              path := some path
              scope := handoff.scope }

/-- The hash of the file a path names now. -/
def currentHash (tree : FileTree) (root path : String) : Option String :=
  (confinedFile tree root (relOf path)).bind (boundedHash tree)

def checkHandoffBase (tree : FileTree) (snapshot : RoomSnapshot) (tool path root : String) : List CheckFinding :=
  match tree.canonicalize root with
  | none => []
  | some root =>
    snapshot.openHandoffs.filterMap
      (handoffBaseFinding repoRelativePath shellQuote snapshot tool path (currentHash tree root path))

end Check

/-! ## What was recorded -/

/-- The content of a file that is within the size bound. -/
def boundedContent (tree : FileTree) (path : String) : Option (List UInt8) :=
  (tree.file path).bind fun file =>
    if file.readable && decide (file.content.length ≤ maxHashedBytes) then some file.content else none

theorem boundedHash_eq (tree : FileTree) (path : String) :
    boundedHash tree path = (boundedContent tree path).map hashBytes := by
  rw [boundedHash, readRegular, boundedContent]
  cases tree.file path with
  | none => rfl
  | some file =>
    by_cases hread : file.readable = true
    · by_cases hlen : file.content.length ≤ maxHashedBytes
      · simp [hread, hlen, List.take_of_length_le hlen]
      · have hover : maxHashedBytes < file.content.length := Nat.lt_of_not_le hlen
        simp [hread, hlen, hover]
    · simp [hread]

/-- The paths a handoff records, with what the files held. -/
def recordedContents (tree : FileTree) (root : String) (scope : List String) : List (String × List UInt8) :=
  match tree.canonicalize root with
  | none => []
  | some root => (fileScopes scope).filterMap fun raw =>
      ((confinedFile tree root (relOf raw)).bind (boundedContent tree)).map fun content => (relOf raw, content)

/-- The hashes that belong to them. -/
def recordedPairs (tree : FileTree) (root : String) (scope : List String) : List (String × String) :=
  (recordedContents tree root scope).map fun entry => (entry.1, hashBytes entry.2)

def recordedCommit (tree : FileTree) (git : RevParse) (root : String) : Option String :=
  (tree.canonicalize root).bind fun _ => gitHead git

/-- The paths a claim records, with their hashes. -/
def claimedPairs (tree : FileTree) (repoRoot : String) (filePaths : List String) : List (String × String) :=
  filePaths.filterMap fun raw => (hashFile tree (joinPath repoRoot (relOf raw))).map fun hash => (relOf raw, hash)

/-- A marker for one path. -/
def hashMarker (opening : String) (entry : String × String) : String := opening ++ entry.1 ++ "=" ++ entry.2

theorem baseMarkers_eq (tree : FileTree) (git : RevParse) (root : String) (scope : List String) :
    baseMarkers tree git root scope = (recordedCommit tree git root).toList.map (baseCommitPrefix ++ ·) ++
      (recordedPairs tree root scope).map (hashMarker baseHashPrefix) := by
  rw [baseMarkers, recordedCommit, recordedPairs, recordedContents]
  cases tree.canonicalize root with
  | none => rfl
  | some root =>
    rw [List.map_map, List.map_filterMap]
    refine congrArg (_ ++ ·) (List.filterMap_congr fun raw _ => ?_)
    rw [Option.map_map]
    cases confinedFile tree root (relOf raw) with
    | none => rfl
    | some path =>
      rw [Option.bind_some, Option.bind_some, boundedHash_eq, Option.map_map]
      rfl

theorem claimHashes_eq (tree : FileTree) (repoRoot : String) (filePaths : List String) :
    claimHashes tree repoRoot filePaths =
      (claimedPairs tree repoRoot filePaths).map (hashMarker claimHashPrefix) := by
  rw [claimHashes, claimedPairs, List.map_filterMap]
  refine List.filterMap_congr fun raw _ => ?_
  rw [Option.map_map]
  rfl

/-! ## Reading the markers -/

section Codec

variable {opening : String} {pairs : List (String × String)}

/-- What stands before the first separator is free of it. -/
theorem notMem_of_splitOnce {sep : Char} {text key value : String} (h : splitOnce sep text = some (key, value)) :
    sep ∉ key.toList := by
  have hchars : ∀ (cs : List Char) (p : List Char × List Char), splitOnceChars sep cs = some p → sep ∉ p.1 := by
    intro cs
    induction cs with
    | nil =>
      intro p hp
      cases hp
    | cons c cs ih =>
      intro p hp
      rw [splitOnceChars] at hp
      split_ifs at hp with hc
      · obtain rfl := Option.some.inj hp
        exact List.not_mem_nil
      · obtain ⟨q, hq, rfl⟩ := Option.map_eq_some_iff.mp hp
        rw [List.mem_cons, not_or]
        exact ⟨fun heq => hc heq.symm, ih q hq⟩
  obtain ⟨p, hp, hkey⟩ := Option.map_eq_some_iff.mp h
  cases hkey
  rw [String.toList_ofList]
  exact hchars text.toList p hp

/-- **The map comes back exactly when no path has the separator,** whatever other evidence stands before. -/
theorem collect_markers_iff {others : List String} (hothers : ∀ entry ∈ others, stripPrefix opening entry = none) :
    collectHashes (((others ++ pairs.map (hashMarker opening)).filterMap (stripPrefix opening)).filterMap
        (splitOnce '=')) = collectHashes pairs ↔ ∀ entry ∈ pairs, '=' ∉ entry.1.toList := by
  have hstrip : (others ++ pairs.map (hashMarker opening)).filterMap (stripPrefix opening) =
      pairs.map fun entry => entry.1 ++ "=" ++ entry.2 := by
    rw [List.filterMap_append, List.filterMap_eq_nil_iff.mpr hothers, List.nil_append, List.filterMap_map]
    have hone : (stripPrefix opening ∘ hashMarker opening) = some ∘ fun entry => entry.1 ++ "=" ++ entry.2 := by
      funext entry
      rw [Function.comp_apply, hashMarker, String.append_assoc, String.append_assoc, stripPrefix_append,
        Function.comp_apply, String.append_assoc]
    rw [hone, List.filterMap_eq_map]
  rw [hstrip]
  constructor
  · intro heq entry hentry hmem
    -- the recorded map has the path, and no decoded path has the separator
    have hrecorded : OrderedMap.get (collectHashes pairs) entry.1 ≠ none := by
      rw [collectHashes, OrderedMap.get_updateAll_last, ne_eq, List.getLast?_eq_none_iff]
      refine List.ne_nil_of_mem (a := entry.2) (List.mem_map.mpr ⟨entry, List.mem_filter.mpr ⟨hentry, ?_⟩, rfl⟩)
      exact decide_eq_true rfl
    rw [← heq, collectHashes, OrderedMap.get_updateAll_last, ne_eq, List.getLast?_eq_none_iff] at hrecorded
    obtain ⟨hash, hhash⟩ := List.exists_mem_of_ne_nil _ hrecorded
    obtain ⟨read, hread, -⟩ := List.mem_map.mp hhash
    obtain ⟨hread, hkey⟩ := List.mem_filter.mp hread
    obtain ⟨text, -, hsplit⟩ := List.mem_filterMap.mp hread
    have hfree := notMem_of_splitOnce (show splitOnce '=' text = some (read.1, read.2) from hsplit)
    rw [of_decide_eq_true hkey] at hfree
    exact hfree hmem
  · intro hfree
    have hback : (pairs.map fun entry => entry.1 ++ "=" ++ entry.2).filterMap (splitOnce '=') = pairs := by
      rw [List.filterMap_map]
      have hsome : ∀ entry ∈ pairs, (splitOnce '=' ∘ fun entry : String × String => entry.1 ++ "=" ++ entry.2) entry =
          some entry := fun entry hentry => splitOnce_append (hfree entry hentry)
      rw [List.filterMap_congr hsome, List.filterMap_some]
    rw [hback]

/-- A recorded pair is what the map has, when a path has one hash. -/
theorem get_collectHashes (hone : ∀ entry ∈ pairs, ∀ other ∈ pairs, entry.1 = other.1 → entry.2 = other.2)
    {path hash : String} (hmem : (path, hash) ∈ pairs) : OrderedMap.get (collectHashes pairs) path = some hash := by
  have hvalue : hash ∈ OrderedMap.valuesAt pairs path :=
    List.mem_map.mpr ⟨(path, hash), List.mem_filter.mpr ⟨hmem, decide_eq_true rfl⟩, rfl⟩
  rw [collectHashes, OrderedMap.get_updateAll_last]
  cases hlast : (OrderedMap.valuesAt pairs path).getLast? with
  | none =>
    rw [List.getLast?_eq_none_iff] at hlast
    rw [hlast] at hvalue
    cases hvalue
  | some other =>
    obtain ⟨entry, hentry, rfl⟩ := List.mem_map.mp (List.mem_of_getLast? hlast)
    obtain ⟨hentry, hkey⟩ := List.mem_filter.mp hentry
    exact congrArg some (hone entry hentry (path, hash) hmem (of_decide_eq_true hkey))

end Codec

/-! ## The evidence of a handoff -/

section Evidence

variable {tree : FileTree} {git : RevParse} {root : String} {scope caller : List String}

theorem stripPrefix_reserved {entry : String} (h : isReservedBaseMarker entry = false) :
    stripPrefix baseHashPrefix entry = none ∧ stripPrefix baseCommitPrefix entry = none := by
  rw [isReservedBaseMarker, Bool.or_eq_false_iff] at h
  exact ⟨stripPrefix_eq_none h.1, stripPrefix_eq_none h.2⟩

theorem bases_iff (hcaller : ∀ entry ∈ caller, isReservedBaseMarker entry = false) :
    baseHashes (caller ++ baseMarkers tree git root scope) = collectHashes (recordedPairs tree root scope) ↔
      ∀ entry ∈ recordedPairs tree root scope, '=' ∉ entry.1.toList := by
  rw [baseMarkers_eq, ← List.append_assoc, baseHashes]
  refine collect_markers_iff fun entry hentry => ?_
  rcases List.mem_append.mp hentry with hentry | hentry
  · exact (stripPrefix_reserved (hcaller entry hentry)).1
  · obtain ⟨sha, -, rfl⟩ := List.mem_map.mp hentry
    exact stripPrefix_eq_none (startsWith_append_of_apart (by decide) (by decide) sha)

/-- The commit comes back, since Rally's marker is the only one. -/
theorem baseCommit_eq (hcaller : ∀ entry ∈ caller, isReservedBaseMarker entry = false) :
    baseCommit (caller ++ baseMarkers tree git root scope) = recordedCommit tree git root := by
  have hhashes : ((recordedPairs tree root scope).map (hashMarker baseHashPrefix)).reverse.findSome?
      (stripPrefix baseCommitPrefix) = none := by
    rw [List.findSome?_eq_none_iff]
    intro entry hentry
    obtain ⟨pair, -, rfl⟩ := List.mem_map.mp (List.mem_reverse.mp hentry)
    rw [hashMarker, String.append_assoc, String.append_assoc]
    exact stripPrefix_eq_none (startsWith_append_of_apart (by decide) (by decide) _)
  have hnone : caller.reverse.findSome? (stripPrefix baseCommitPrefix) = none := by
    rw [List.findSome?_eq_none_iff]
    exact fun entry hentry => (stripPrefix_reserved (hcaller entry (List.mem_reverse.mp hentry))).2
  rw [baseCommit, baseMarkers_eq, List.reverse_append, List.reverse_append, List.append_assoc, List.findSome?_append,
    hhashes, Option.none_or, List.findSome?_append, hnone, Option.or_none]
  cases hcommit : recordedCommit tree git root with
  | none => rfl
  | some sha =>
    -- what git printed was trimmed and checked before it was recorded
    obtain ⟨-, -, hhead⟩ := Option.bind_eq_some_iff.mp hcommit
    obtain ⟨hsha, hchecked⟩ := Option.filter_eq_some_iff.mp hhead
    obtain ⟨text, htext, rfl⟩ := Option.map_eq_some_iff.mp hsha
    rw [Bool.and_eq_true, decide_eq_true_iff] at hchecked
    simp only [Option.toList_some, List.map_cons, List.map_nil, List.reverse_singleton, List.findSome?_cons,
      stripPrefix_append, Option.map_some, trim_trim]
    exact if_pos (by simp [hchecked.1, hchecked.2, git.objectId text htext])

end Evidence

/-! ## Changes of a scope -/

/-- The reason that names a path. -/
def changeReason (raw : String) : RevalidateReason := ⟨"scope_changed_since_posted", relOf raw⟩

/-- Whether a scope counts as changed while the budget lasts. -/
def changedNow (tree : FileTree) (root : String) (recorded : List (String × String)) (posted : Option Int)
    (raw : String) : Bool :=
  match confinedFile tree root (relOf raw) with
  | none => false
  | some path =>
    match OrderedMap.get recorded (relOf raw) with
    | some base => (boundedHash tree path).any (· != base)
    | none => posted.any fun posted => ((tree.file path).bind (·.modified)).any (posted < ·)

/-- What a scope takes from the budget. -/
def probeCost (tree : FileTree) (root : String) (recorded : List (String × String)) (raw : String) : Nat :=
  match confinedFile tree root (relOf raw) with
  | none => 0
  | some path =>
    if (OrderedMap.get recorded (relOf raw)).isSome then chargedLength tree path maxHashedBytes else 0

section Changes

variable {tree : FileTree} {root : String} {recorded : List (String × String)} {posted : Option Int}

theorem spend_eq {budget : Nat} {path : String} {cap : Nat} (h : chargedLength tree path cap ≤ budget) :
    spend tree budget path cap = some (budget - chargedLength tree path cap) := if_neg (Nat.not_lt.mpr h)

theorem probeCost_of_some {raw path : String} (hpath : confinedFile tree root (relOf raw) = some path) :
    probeCost tree root recorded raw =
      if (OrderedMap.get recorded (relOf raw)).isSome then chargedLength tree path maxHashedBytes else 0 := by
  rw [probeCost, hpath]

theorem changedNow_of_base {raw path base : String} (hpath : confinedFile tree root (relOf raw) = some path)
    (hbase : OrderedMap.get recorded (relOf raw) = some base) :
    changedNow tree root recorded posted raw = (boundedHash tree path).any (· != base) := by
  rw [changedNow, hpath]
  simp only [hbase]

theorem scopeChange_eq {out : List RevalidateReason} {budget : Nat} {raw : String}
    (hbudget : probeCost tree root recorded raw ≤ budget) :
    scopeChange tree root recorded posted (out, budget) raw =
      (out ++ (if changedNow tree root recorded posted raw then [changeReason raw] else []),
        budget - probeCost tree root recorded raw) := by
  cases hpath : confinedFile tree root (relOf raw) with
  | none => simp only [scopeChange, changedNow, probeCost, hpath, Bool.false_eq_true, if_false, List.append_nil,
      Nat.sub_zero]
  | some path =>
    rw [probeCost_of_some hpath] at hbudget ⊢
    cases hbase : OrderedMap.get recorded (relOf raw) with
    | none =>
      simp only [scopeChange, changedNow, hpath, hbase, Option.isSome_none, Bool.false_eq_true, if_false,
        Nat.sub_zero, changeReason]
      split_ifs
      · rfl
      · rw [List.append_nil]
    | some base =>
      rw [hbase, Option.isSome_some, if_pos rfl] at hbudget
      rw [changedNow_of_base hpath hbase]
      simp only [scopeChange, hpath, hbase, spend_eq hbudget, Option.isSome_some, if_true, changeReason]
      split_ifs
      · rfl
      · rw [List.append_nil]

/-- **With budget enough** the loop collects the scopes that changed, in order. -/
theorem foldl_scopeChange {raws : List String} {out : List RevalidateReason} {budget : Nat}
    (hbudget : (raws.map (probeCost tree root recorded)).sum ≤ budget) :
    (raws.foldl (scopeChange tree root recorded posted) (out, budget)).1 =
      out ++ (raws.filter (changedNow tree root recorded posted)).map changeReason := by
  induction raws generalizing out budget with
  | nil => simp
  | cons raw raws ih =>
    rw [List.map_cons, List.sum_cons] at hbudget
    have hhead : probeCost tree root recorded raw ≤ budget := Nat.le_of_add_right_le hbudget
    have htail : (raws.map (probeCost tree root recorded)).sum ≤ budget - probeCost tree root recorded raw :=
      Nat.le_sub_of_add_le' hbudget
    rw [List.foldl_cons, scopeChange_eq hhead, ih htail, List.filter_cons]
    split_ifs
    · rw [List.map_cons, List.append_assoc, List.singleton_append]
    · rw [List.append_nil]

end Changes

/-! ## Reading back -/

section Recorded

variable {tree : FileTree} {root : String} {scope : List String}

/-- A recorded path, its scope, and what its file held. -/
theorem exists_scope_of_recorded {rel : String} {content : List UInt8}
    (h : (rel, content) ∈ recordedContents tree root scope) :
    ∃ raw ∈ fileScopes scope, relOf raw = rel ∧ ∃ base, tree.canonicalize root = some base ∧
      (confinedFile tree base rel).bind (boundedContent tree) = some content := by
  rw [recordedContents] at h
  cases hroot : tree.canonicalize root with
  | none =>
    rw [hroot] at h
    cases h
  | some base =>
    rw [hroot] at h
    obtain ⟨raw, hraw, hsome⟩ := List.mem_filterMap.mp h
    obtain ⟨content', hcontent, heq⟩ := Option.map_eq_some_iff.mp hsome
    cases heq
    exact ⟨raw, hraw, rfl, base, rfl, hcontent⟩

/-- A path is recorded with one hash. -/
theorem recordedPairs_one : ∀ entry ∈ recordedPairs tree root scope, ∀ other ∈ recordedPairs tree root scope,
    entry.1 = other.1 → entry.2 = other.2 := by
  intro entry hentry other hother hrel
  obtain ⟨⟨rel, content⟩, hmem, rfl⟩ := List.mem_map.mp hentry
  obtain ⟨⟨rel', content'⟩, hmem', rfl⟩ := List.mem_map.mp hother
  obtain rfl : rel = rel' := hrel
  obtain ⟨-, -, -, base, hbase, hcontent⟩ := exists_scope_of_recorded hmem
  obtain ⟨-, -, -, base', hbase', hcontent'⟩ := exists_scope_of_recorded hmem'
  obtain rfl := Option.some.inj (hbase.symm.trans hbase')
  rw [Option.some.inj (hcontent.symm.trans hcontent')]

end Recorded

/-- What was recorded is what is read back and compared against. -/
structure ReadsBack (repoRelativePath : String → Option String) (shellQuote : String → String) (tree : FileTree)
    (git : RevParse) (root : String) (scope evidence : List String) (repoRoot : String) (filePaths : List String) :
    Prop where
  bases : baseHashes evidence = collectHashes (recordedPairs tree root scope)
  commit : baseCommit evidence = recordedCommit tree git root
  claims : parseClaimHashes (claimHashes tree repoRoot filePaths) =
    collectHashes (claimedPairs tree repoRoot filePaths)
  changed : ∀ (ext : Externals) (now : FileTree) (nowRoot : String) (fact : Fact) (budget : Nat) (rel path : String)
      (old new : List UInt8), fact.scope = scope → fact.evidence = evidence →
    ((fileScopes scope).map (probeCost now nowRoot (baseHashes evidence))).sum ≤ budget →
    (rel, old) ∈ recordedContents tree root scope →
    confinedFile now nowRoot rel = some path → boundedContent now path = some new →
    (hashBytes new = hashBytes old → new = old) →
    ((⟨"scope_changed_since_posted", rel⟩ : RevalidateReason) ∈ (scopeChanges ext now fact nowRoot budget).1 ↔
      new ≠ old)
  compared : ∀ (snapshot : RoomSnapshot) (tool path : String) (current : Option String) (handoff : Fact)
      (hash : String), handoff.evidence = evidence → (relOf path, hash) ∈ recordedPairs tree root scope →
    ((handoffBaseFinding repoRelativePath shellQuote snapshot tool path current handoff).isSome = true ↔
      handoffAddress handoff tool ≠ .elsewhere ∧
        alreadyTaken repoRelativePath snapshot tool path handoff = false ∧ ∃ now, current = some now ∧ now ≠ hash)

section Iff

variable {repoRelativePath : String → Option String} {shellQuote : String → String} {tree : FileTree} {git : RevParse}
  {root : String} {scope evidence : List String}

theorem parseClaimHashes_iff (repoRoot : String) (filePaths : List String) :
    parseClaimHashes (claimHashes tree repoRoot filePaths) = collectHashes (claimedPairs tree repoRoot filePaths) ↔
      ∀ entry ∈ claimedPairs tree repoRoot filePaths, '=' ∉ entry.1.toList := by
  rw [claimHashes_eq, parseClaimHashes]
  exact @collect_markers_iff _ _ [] fun entry hentry => absurd hentry List.not_mem_nil

/-- A recorded path has its hash in the map. -/
theorem get_baseHashes (hbases : baseHashes evidence = collectHashes (recordedPairs tree root scope))
    {rel hash : String} (hmem : (rel, hash) ∈ recordedPairs tree root scope) :
    OrderedMap.get (baseHashes evidence) rel = some hash := by
  rw [hbases]
  exact get_collectHashes recordedPairs_one hmem

/-- Whether a recorded scope counts as changed is whether the bytes differ, when they do not collide. -/
theorem changedNow_iff (hbases : baseHashes evidence = collectHashes (recordedPairs tree root scope))
    (raw : String) (posted : Option Int) {now : FileTree} {nowRoot path : String} {old new : List UInt8}
    (hmem : (relOf raw, old) ∈ recordedContents tree root scope)
    (hpath : confinedFile now nowRoot (relOf raw) = some path) (hnew : boundedContent now path = some new)
    (hcollide : hashBytes new = hashBytes old → new = old) :
    changedNow now nowRoot (baseHashes evidence) posted raw = true ↔ new ≠ old := by
  have hbase := get_baseHashes hbases (List.mem_map.mpr ⟨(relOf raw, old), hmem, rfl⟩)
  have hhash : boundedHash now path = some (hashBytes new) := by rw [boundedHash_eq, hnew, Option.map_some]
  rw [changedNow_of_base hpath hbase, hhash, Option.any_some, bne_iff_ne]
  exact not_congr ⟨hcollide, congrArg hashBytes⟩

/-- **The loop names a recorded path exactly when its bytes have changed.** -/
theorem mem_scopeChanges_iff (hbases : baseHashes evidence = collectHashes (recordedPairs tree root scope))
    (ext : Externals) {now : FileTree} {nowRoot rel path : String} {fact : Fact} {budget : Nat} {old new : List UInt8}
    (hscope : fact.scope = scope) (hevidence : fact.evidence = evidence)
    (hbudget : ((fileScopes scope).map (probeCost now nowRoot (baseHashes evidence))).sum ≤ budget)
    (hmem : (rel, old) ∈ recordedContents tree root scope) (hpath : confinedFile now nowRoot rel = some path)
    (hnew : boundedContent now path = some new) (hcollide : hashBytes new = hashBytes old → new = old) :
    (⟨"scope_changed_since_posted", rel⟩ : RevalidateReason) ∈ (scopeChanges ext now fact nowRoot budget).1 ↔
      new ≠ old := by
  rw [scopeChanges, hscope, hevidence, foldl_scopeChange hbudget, List.nil_append, List.mem_map]
  obtain ⟨raw, hraw, hrel, -⟩ := exists_scope_of_recorded hmem
  subst hrel
  have hchanged := changedNow_iff hbases raw ((ext.parseFromRfc3339 fact.createdAt).map timestamp) hmem hpath hnew
    hcollide
  constructor
  · rintro ⟨other, hother, hreason⟩
    -- another scope with the same path is judged alike
    have hrel : relOf other = relOf raw := congrArg RevalidateReason.detail hreason
    refine (changedNow_iff hbases other _ ?_ ?_ hnew hcollide).mp (List.mem_filter.mp hother).2
    · rw [hrel]
      exact hmem
    · rw [hrel]
      exact hpath
  · intro hne
    exact ⟨raw, List.mem_filter.mpr ⟨hraw, hchanged.mpr hne⟩, rfl⟩

/-- A finding compares the file with the recorded hash. -/
theorem handoffBaseFinding_isSome_iff (hbases : baseHashes evidence = collectHashes (recordedPairs tree root scope))
    {snapshot : RoomSnapshot} {tool path hash : String} {current : Option String} {handoff : Fact}
    (hevidence : handoff.evidence = evidence) (hmem : (relOf path, hash) ∈ recordedPairs tree root scope) :
    (handoffBaseFinding repoRelativePath shellQuote snapshot tool path current handoff).isSome = true ↔
      handoffAddress handoff tool ≠ .elsewhere ∧
        alreadyTaken repoRelativePath snapshot tool path handoff = false ∧
          ∃ now, current = some now ∧ now ≠ hash := by
  rw [handoffBaseFinding, hevidence, get_baseHashes hbases hmem]
  by_cases hmine : handoffAddress handoff tool = .elsewhere
  · simp [hmine]
  · cases htaken : alreadyTaken repoRelativePath snapshot tool path handoff with
    | true => simp
    | false =>
      cases current with
      | none => simp
      | some now =>
        by_cases heq : now = hash
        · simp [heq]
        · simp [hmine, heq]

/-- A claimed file is ungrounded exactly when it has the hash of the claim. -/
theorem mem_ungroundedPaths_iff {repoRoot rel hash : String} {filePaths : List String} {now : FileTree}
    (hclaims : parseClaimHashes (claimHashes tree repoRoot filePaths) =
      collectHashes (claimedPairs tree repoRoot filePaths))
    (hmem : (rel, hash) ∈ claimedPairs tree repoRoot filePaths) :
    rel ∈ ungroundedPaths now repoRoot (parseClaimHashes (claimHashes tree repoRoot filePaths)) ↔
      hashFile now (joinPath repoRoot rel) = some hash := by
  have hone : ∀ entry ∈ claimedPairs tree repoRoot filePaths,
      hashFile tree (joinPath repoRoot entry.1) = some entry.2 := by
    intro entry hentry
    obtain ⟨raw, -, hsome⟩ := List.mem_filterMap.mp hentry
    obtain ⟨other, hother, rfl⟩ := Option.map_eq_some_iff.mp hsome
    exact hother
  have hget : OrderedMap.get (collectHashes (claimedPairs tree repoRoot filePaths)) rel = some hash := by
    refine get_collectHashes (fun entry hentry other hother hrel => Option.some.inj ?_) hmem
    rw [← hone entry hentry, ← hone other hother, hrel]
  have hordered : KeyOrdered (·.1) (collectHashes (claimedPairs tree repoRoot filePaths)) :=
    OrderedMap.keyOrdered_updateAll List.Pairwise.nil
  rw [hclaims, ungroundedPaths, List.mem_filterMap]
  constructor
  · rintro ⟨entry, hentry, hsome⟩
    obtain ⟨hnow, heq⟩ := Option.ite_none_right_eq_some.mp hsome
    obtain rfl := Option.some.inj heq
    rw [(OrderedMap.mem_iff_get hordered).mp hentry] at hget
    rw [hnow, hget]
  · intro hnow
    exact ⟨(rel, hash), (OrderedMap.mem_iff_get hordered).mpr hget, if_pos hnow⟩

/-- **The recorded hashes read back exactly when no recorded path has an equals sign.** -/
theorem readsBack_iff {caller : List String} {repoRoot : String} {filePaths : List String}
    (hcaller : ∀ entry ∈ caller, isReservedBaseMarker entry = false) :
    ReadsBack repoRelativePath shellQuote tree git root scope (caller ++ baseMarkers tree git root scope) repoRoot
        filePaths ↔
      (∀ entry ∈ recordedPairs tree root scope, '=' ∉ entry.1.toList) ∧
        ∀ entry ∈ claimedPairs tree repoRoot filePaths, '=' ∉ entry.1.toList := by
  constructor
  · intro h
    exact ⟨(bases_iff hcaller).mp h.bases, (parseClaimHashes_iff repoRoot filePaths).mp h.claims⟩
  · rintro ⟨hscope, hclaimed⟩
    have hbases : baseHashes (caller ++ baseMarkers tree git root scope) =
        collectHashes (recordedPairs tree root scope) := (bases_iff hcaller).mpr hscope
    exact
      { bases := hbases
        commit := baseCommit_eq hcaller
        claims := (parseClaimHashes_iff repoRoot filePaths).mpr hclaimed
        changed := fun ext _ _ _ _ _ _ _ _ hfact hevidence hbudget hmem hpath hnew hcollide =>
          mem_scopeChanges_iff hbases ext hfact hevidence hbudget hmem hpath hnew hcollide
        compared := fun _ _ _ _ _ _ hevidence hmem => handoffBaseFinding_isSome_iff hbases hevidence hmem }

end Iff

namespace HashSample

/-- A room with a file of an ordinary name and one with an equals sign in its name. -/
def tree : FileTree where
  canonicalize path := some path
  file path :=
    if path = "/room/a" then some { content := [1] }
    else if path = "/room/a=b" then some { content := [2] } else none

def git : RevParse := ⟨none, fun _ h => nomatch h⟩

/-- Ordinary names come back. -/
theorem plain_readsBack : ReadsBack (fun _ => none) id tree git "/room" ["file:a"]
    (["note"] ++ baseMarkers tree git "/room" ["file:a"]) "/room" ["a"] :=
  (readsBack_iff (by decide +kernel)).mpr (by decide +kernel)

/-- The entry of the other file is overwritten: what is read for it is the end of the name and the other hash. -/
theorem equals_overwrites : OrderedMap.get (recordedPairs tree "/room" ["file:a", "file:a=b"]) "a" =
      some (hashBytes [1]) ∧
    OrderedMap.get (baseHashes (baseMarkers tree git "/room" ["file:a", "file:a=b"])) "a" =
      some ("b=" ++ hashBytes [2]) ∧
    ¬ ReadsBack (fun _ => none) id tree git "/room" ["file:a", "file:a=b"]
      ([] ++ baseMarkers tree git "/room" ["file:a", "file:a=b"]) "/room" [] := by
  refine ⟨by decide +kernel, by decide +kernel, fun h => ?_⟩
  have hread : OrderedMap.get (baseHashes (baseMarkers tree git "/room" ["file:a", "file:a=b"])) "a" =
      OrderedMap.get (collectHashes (recordedPairs tree "/room" ["file:a", "file:a=b"])) "a" :=
    congrArg (OrderedMap.get · "a") h.bases
  revert hread
  decide +kernel

end HashSample

end RallyPoint.ContentHashes
