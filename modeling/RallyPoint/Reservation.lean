/-
# RallyPoint.Reservation — the identity of a managed session (`reserve_numbered_session` in `lib.rs`).

`rally run` gives each session a name with a number behind it, the lowest one that no active session of that name
has, and the session id and tool that follow from the name. The number is chosen from a read of the active sessions;
the append goes through only if no session fact was written since, and otherwise everything is read again.
`numbered_name_free_iff` says for which names the number is free: what sanitizing trims off a name is between the
name and its number, where the number is not found again. `reservations_apart` says what the conditional append is
for, over every interleaving of runs, stops and refreshed records.
-/
import Mathlib.Data.List.DropRight
import Mathlib.Order.WithBot
import RallyPoint.Handoff
import RallyPoint.Lib.Distinct
import RallyPoint.Lib.Steps
import RallyPoint.Lib.Versioned

namespace RallyPoint.Reservation

open Lib

/-! ## Identities -/

structure AgentSpec where
  agent : String
  tool : String

structure SessionIdentity where
  name : String
  sessionId : String
  tool : String
  deriving DecidableEq, Repr

/-- What the command line asks for. -/
structure SessionReservationInput where
  requestedName : Option String := none
  requestedSessionId : Option String := none
  requestedTool : Option String := none

def sanitizeChar (c : Char) : Char := if isAsciiAlphanumeric c || c == '-' || c == '_' then c else '-'

/-- `trim_matches('-')`. -/
def trimDashes (cs : List Char) : List Char := (cs.dropWhile (· == '-')).rdropWhile (· == '-')

def sanitizeId (value : String) : String := String.ofList (trimDashes (value.toList.map sanitizeChar))

/-- `str::rsplit_once`. -/
def rsplitOnce (sep : Char) (s : String) : Option (String × String) :=
  (splitOnceChars sep s.toList.reverse).map fun parts =>
    (String.ofList parts.2.reverse, String.ofList parts.1.reverse)

def splitNumberedSuffix (value : String) : Option (String × Nat) :=
  (rsplitOnce '-' value).bind fun (stem, suffix) =>
    if byteLen suffix < 2 || !suffix.toList.all (·.isDigit) then none
    else ((parseU64 suffix).filter (· != 0)).map fun number => (stem, number)

def stripNumberedSuffix (value : String) : String := ((splitNumberedSuffix value).map (·.1)).getD value

/-- The number a value uses up for a base. -/
def noteUsedIdentityNumber (baseKey value : String) : Option Nat :=
  if value = baseKey then some 1
  else ((splitNumberedSuffix value).filter fun split => split.1 == baseKey).map (·.2)

def noteUsedBareIdentityNumber (value : String) : Option Nat :=
  if 2 ≤ byteLen value && value.toList.all (·.isDigit) then (parseU64 value).filter (· != 0) else none

/-- The numbers one active session uses up. -/
def usedBySession (spec : AgentSpec) (baseKey : String) (session : ManagedSession) : List Nat :=
  (noteUsedIdentityNumber baseKey (sanitizeId session.name)).toList ++
    match (stripPrefix spec.tool session.tool).bind (stripPrefix ":") with
    | none => []
    | some toolSuffix =>
      (noteUsedIdentityNumber baseKey toolSuffix).toList ++
        if baseKey = spec.agent then (noteUsedBareIdentityNumber toolSuffix).toList else []

/-- The first number from `number` on that is not used; none when the 64 bits run out. -/
def findFree (used : List Nat) : Nat → Nat → Option Nat
  | 0, _ => none
  | fuel + 1, number =>
    if number ∈ used then (if number + 1 < 2 ^ 64 then findFree used fuel (number + 1) else none)
    else some number

def nextIdentityNumber (spec : AgentSpec) (nameBase : String) (active : List ManagedSession) : Except String Nat :=
  let baseKey := sanitizeId nameBase
  let used := active.flatMap (usedBySession spec baseKey)
  match findFree used (used.length + 1) 1 with
  | some number => .ok number
  | none => .error s!"no available numbered identity for {baseKey}"

/-- `{:02}`. -/
def padTwo (n : Nat) : String := if n < 10 then "0" ++ toString n else toString n

def numberedName (nameBase : String) (number : Nat) : String := nameBase ++ "-" ++ padTwo number

/-- The name a number is put behind. -/
def nameBase (spec : AgentSpec) (requestedName : Option String) : String :=
  let rawBaseName := ((requestedName.map trim).filter fun name => !name.toList.isEmpty).getD spec.agent
  let strippedNameBase := stripNumberedSuffix rawBaseName
  if (sanitizeId strippedNameBase).toList.isEmpty then spec.agent else strippedNameBase

def ensureUniqueSessionIdentity (identity : SessionIdentity) : List ManagedSession → Except String Unit
  | [] => .ok ()
  | session :: rest =>
    if session.sessionId = identity.sessionId then
      .error s!"active managed session already uses session-id {identity.sessionId}"
    else if session.tool = identity.tool ∧ session.name = identity.name then
      .error s!"active managed session already uses tool {identity.tool} with name {identity.name}"
    else if session.name = identity.name then
      .error s!"active managed session already uses name {identity.name}"
    else ensureUniqueSessionIdentity identity rest

/-- The identity that follows from a name. -/
def identityOf (spec : AgentSpec) (input : SessionReservationInput) (name : String) : SessionIdentity :=
  let nameKey := sanitizeId name
  let ofAgent := stripPrefix (spec.agent ++ "-") nameKey
  { name := name
    sessionId := input.requestedSessionId.getD (if ofAgent.isSome then nameKey else spec.agent ++ "-" ++ nameKey)
    tool := input.requestedTool.getD (spec.tool ++ ":" ++ ofAgent.getD nameKey) }

def numberedSessionIdentity (spec : AgentSpec) (input : SessionReservationInput) (active : List ManagedSession) :
    Except String SessionIdentity := do
  let base := nameBase spec input.requestedName
  let number ← nextIdentityNumber spec base active
  let identity := identityOf spec input (numberedName base number)
  ensureUniqueSessionIdentity identity active
  pure identity

/-! ## Numbers behind names -/

section Numbers

variable {n : Nat} {stem : String}

/-- What `padTwo` prints. -/
def padDigits (n : Nat) : List Char := if n < 10 then '0' :: Nat.toDigits 10 n else Nat.toDigits 10 n

theorem toList_padTwo (n : Nat) : (padTwo n).toList = padDigits n := by
  have hlist : (toString n).toList = Nat.toDigits 10 n := Nat.toList_repr
  unfold padTwo padDigits
  split_ifs
  · rw [String.toList_append, hlist]
    rfl
  · exact hlist

theorem isDigit_of_mem_padDigits {c : Char} (hc : c ∈ padDigits n) : c.isDigit = true := by
  have hdigits : ∀ c ∈ Nat.toDigits 10 n, c.isDigit = true := fun c hc =>
    Nat.isDigit_of_mem_toDigits (by decide) (by decide) hc
  unfold padDigits at hc
  split_ifs at hc
  · rcases List.mem_cons.mp hc with rfl | hc
    · rfl
    · exact hdigits c hc
  · exact hdigits c hc

theorem two_le_length_padDigits (n : Nat) : 2 ≤ (padDigits n).length := by
  have hpos : ∀ m, 1 ≤ (Nat.toDigits 10 m).length := fun m =>
    List.length_pos_iff.mpr (Nat.toDigits_ne_nil)
  unfold padDigits
  split_ifs with hn
  · rw [List.length_cons]
    exact Nat.succ_le_succ (hpos n)
  · rw [Nat.toDigits_of_base_le (by decide) (by omega), List.length_append, List.length_singleton]
    exact Nat.succ_le_succ (hpos (n / 10))

theorem padDigits_ne_nil (n : Nat) : padDigits n ≠ [] :=
  List.length_pos_iff.mp (Nat.lt_of_lt_of_le Nat.zero_lt_two (two_le_length_padDigits n))

theorem isDigit_ne_dash {c : Char} (hc : c.isDigit = true) : c ≠ '-' := by
  rintro rfl
  exact absurd hc (by decide)

theorem isAsciiAlphanumeric_of_isDigit {c : Char} (hc : c.isDigit = true) : isAsciiAlphanumeric c = true := by
  have hrange : '0' ≤ c ∧ c ≤ '9' := by
    unfold Char.isDigit at hc
    simpa [Char.le_def] using hc
  simp [isAsciiAlphanumeric, hrange.1, hrange.2]

theorem parseU64_padTwo (hn : n < 2 ^ 64) : parseU64 (padTwo n) = some n := by
  unfold padTwo
  split_ifs with hsmall
  · have hlist : (toString n).toList = Nat.toDigits 10 n := Nat.toList_repr
    have hparse : parseNat (dropPlus ("0" ++ toString n).toList) = some n := by
      rw [String.toList_append, hlist]
      show parseDigits (0 * 10 + 0) (Nat.toDigits 10 n) = some n
      exact parseDigits_toDigits n
    rw [parseU64, hparse]
    exact if_pos hn
  · exact parseU64_toString hn

theorem two_le_byteLen {s : String} (h : 2 ≤ s.toList.length) : 2 ≤ byteLen s := by
  have hlen : ∀ cs : List Char, cs.length ≤ sumOf Char.utf8Size cs := by
    intro cs
    induction cs using List.reverseRecOn with
    | nil => exact Nat.le_refl 0
    | append_singleton cs c ih =>
      rw [List.length_append, List.length_singleton, sumOf_append_singleton]
      have hpos := Char.utf8Size_pos c
      omega
  exact h.trans (hlen s.toList)

/-- The last dash is found behind any stem. -/
theorem rsplitOnce_digits {ds : List Char} (hds : ∀ c ∈ ds, c ≠ '-') (cs : List Char) :
    rsplitOnce '-' (String.ofList (cs ++ '-' :: ds)) = some (String.ofList cs, String.ofList ds) := by
  have hsplit : ∀ ds rest : List Char, (∀ c ∈ ds, c ≠ '-') →
      splitOnceChars '-' (ds ++ '-' :: rest) = some (ds, rest) := by
    intro ds
    induction ds with
    | nil => exact fun rest _ => rfl
    | cons d ds ih =>
      intro rest hds
      obtain ⟨hd, hds⟩ := List.forall_mem_cons.mp hds
      rw [List.cons_append, splitOnceChars, if_neg hd, ih rest hds]
      rfl
  have hreverse : (cs ++ '-' :: ds).reverse = ds.reverse ++ '-' :: cs.reverse := by simp
  have hds' : ∀ c ∈ ds.reverse, c ≠ '-' := fun c hc => hds c (List.mem_reverse.mp hc)
  rw [rsplitOnce, String.toList_ofList, hreverse, hsplit ds.reverse cs.reverse hds']
  simp

/-- A number behind a stem is read back. -/
theorem splitNumberedSuffix_padDigits (cs : List Char) (hpos : n ≠ 0) (hn : n < 2 ^ 64) :
    splitNumberedSuffix (String.ofList (cs ++ '-' :: padDigits n)) = some (String.ofList cs, n) := by
  have hdash : ∀ c ∈ padDigits n, c ≠ '-' := fun c hc => isDigit_ne_dash (isDigit_of_mem_padDigits hc)
  have hsuffix : String.ofList (padDigits n) = padTwo n := by rw [← toList_padTwo, String.ofList_toList]
  have hshape : ¬(byteLen (padTwo n) < 2 || !(padTwo n).toList.all (·.isDigit)) = true := by
    have hlen := two_le_byteLen (s := padTwo n) (by rw [toList_padTwo]; exact two_le_length_padDigits n)
    have hall : (padTwo n).toList.all (·.isDigit) = true := by
      rw [toList_padTwo, List.all_eq_true]
      exact fun c hc => isDigit_of_mem_padDigits hc
    rw [hall, decide_eq_false (Nat.not_lt.mpr hlen)]
    exact Bool.false_ne_true
  rw [splitNumberedSuffix, rsplitOnce_digits hdash, Option.bind_some, hsuffix]
  simp only [if_neg hshape, parseU64_padTwo hn]
  simp [hpos]

end Numbers

/-! ## Sanitized names -/

section Sanitized

variable {base : String} {n : Nat}

/-- Whether sanitizing leaves the end of a base alone. -/
def keepsEnd (base : String) : Bool := base.toList.getLast?.any fun c => sanitizeChar c != '-'

theorem map_sanitizeChar_numbered (base : String) (n : Nat) :
    (numberedName base n).toList.map sanitizeChar = base.toList.map sanitizeChar ++ '-' :: padDigits n := by
  have hdigits : (padDigits n).map sanitizeChar = padDigits n := by
    rw [List.map_congr_left (g := id) fun c hc => ?_, List.map_id]
    simp [sanitizeChar, isAsciiAlphanumeric_of_isDigit (isDigit_of_mem_padDigits hc)]
  rw [numberedName, String.toList_append, String.toList_append, toList_padTwo, List.map_append, List.map_append,
    hdigits, List.append_assoc]
  rfl

/-- The number keeps the end of a sanitized name. -/
theorem rdropWhile_padDigits (cs : List Char) :
    (cs ++ padDigits n).rdropWhile (· == '-') = cs ++ padDigits n := by
  rw [List.rdropWhile_eq_self_iff]
  intro hne hlast
  rw [List.getLast_append_of_ne_nil _ (padDigits_ne_nil n)] at hlast
  exact isDigit_ne_dash (isDigit_of_mem_padDigits (List.getLast_mem (padDigits_ne_nil n))) (by simpa using hlast)

/-- What sanitizing leaves of a base before it trims the end. -/
def front (base : String) : List Char := (base.toList.map sanitizeChar).dropWhile (· == '-')

/-- Sanitizing a numbered name trims the front of its base only. -/
theorem sanitizeId_numberedName (base : String) (n : Nat) :
    sanitizeId (numberedName base n) =
      String.ofList (if front base = [] then padDigits n else front base ++ '-' :: padDigits n) := by
  rw [sanitizeId, map_sanitizeChar_numbered, trimDashes, List.dropWhile_append]
  refine congrArg String.ofList ?_
  change (if (front base).isEmpty then _ else front base ++ _).rdropWhile _ = _
  by_cases hnil : front base = []
  · have hdigits : ('-' :: padDigits n).dropWhile (· == '-') = padDigits n := by
      rw [List.dropWhile_cons_of_pos (by decide), List.dropWhile_eq_self_iff]
      intro hne
      have hhead := isDigit_ne_dash (isDigit_of_mem_padDigits (List.getElem_mem hne))
      simpa using hhead
    rw [if_pos (by simp [hnil]), if_pos hnil, hdigits]
    exact rdropWhile_padDigits []
  · rw [if_neg (by simpa using hnil), if_neg hnil]
    have happend := rdropWhile_padDigits (n := n) (front base ++ ['-'])
    simpa [List.append_assoc] using happend

theorem keepsEnd_iff : keepsEnd base = true ↔ front base ≠ [] ∧ (front base).rdropWhile (· == '-') = front base := by
  have hlast : keepsEnd base = (base.toList.map sanitizeChar).getLast?.any (· != '-') := by
    rw [keepsEnd, List.getLast?_map]
    cases base.toList.getLast? <;> rfl
  have hsuffix : front base <:+ base.toList.map sanitizeChar := List.dropWhile_suffix _
  rw [hlast]
  by_cases hnil : front base = []
  · -- nothing but dashes
    have hall := List.dropWhile_eq_nil_iff.mp hnil
    refine iff_of_false (fun hkept => ?_) fun h => h.1 hnil
    cases hc : (base.toList.map sanitizeChar).getLast? with
    | none => simp [hc] at hkept
    | some c =>
      have hdash := hall c (List.mem_of_getLast? hc)
      simp [hc, beq_iff_eq.mp hdash] at hkept
  · obtain ⟨dashes, hdashes⟩ := hsuffix
    rw [← hdashes, List.getLast?_append_of_ne_nil _ hnil, List.rdropWhile_eq_self_iff,
      List.getLast?_eq_some_getLast hnil]
    simp [hnil]

theorem splitOnceChars_eq_none {sep : Char} {cs : List Char} (h : sep ∉ cs) : splitOnceChars sep cs = none := by
  induction cs with
  | nil => rfl
  | cons c cs ih =>
    rw [List.mem_cons, not_or] at h
    rw [splitOnceChars, if_neg (Ne.symm h.1), ih h.2]
    rfl

/-- **Where the number is found again.** Read back from the sanitized name, the number stands behind the base's key
exactly when sanitizing leaves the end of the base alone. -/
theorem noteUsed_numberedName (hpos : n ≠ 0) (hn : n < 2 ^ 64) :
    noteUsedIdentityNumber (sanitizeId base) (sanitizeId (numberedName base n)) =
      if keepsEnd base then some n else none := by
  have hkey : sanitizeId base = String.ofList ((front base).rdropWhile (· == '-')) := rfl
  rw [sanitizeId_numberedName base n, hkey, noteUsedIdentityNumber]
  by_cases hnil : front base = []
  · have hkept : ¬keepsEnd base = true := fun h => (keepsEnd_iff.mp h).1 hnil
    have hne : ¬String.ofList (padDigits n) = String.ofList ([] : List Char) := fun h =>
      padDigits_ne_nil n (String.ofList_injective h)
    have hdash : '-' ∉ (padDigits n).reverse := fun hmem =>
      isDigit_ne_dash (isDigit_of_mem_padDigits (List.mem_reverse.mp hmem)) rfl
    rw [if_pos hnil, hnil, List.rdropWhile_nil, if_neg hne, if_neg hkept, splitNumberedSuffix, rsplitOnce,
      String.toList_ofList, splitOnceChars_eq_none hdash]
    rfl
  · have hne : ¬String.ofList (front base ++ '-' :: padDigits n) =
        String.ofList ((front base).rdropWhile (· == '-')) := by
      intro h
      have hlen := congrArg List.length (String.ofList_injective h)
      have hle := (List.rdropWhile_prefix (· == '-') (front base)).length_le
      rw [List.length_append, List.length_cons] at hlen
      omega
    rw [if_neg hnil, if_neg hne, splitNumberedSuffix_padDigits _ hpos hn]
    by_cases hkept : keepsEnd base = true
    · rw [if_pos hkept, (keepsEnd_iff.mp hkept).2]
      simp
    · have hkey' : ¬front base = (front base).rdropWhile (· == '-') := fun h =>
        hkept (keepsEnd_iff.mpr ⟨hnil, h.symm⟩)
      rw [if_neg hkept, Option.filter_some, if_neg (fun h => hkey' (String.ofList_injective (beq_iff_eq.mp h)))]
      rfl

end Sanitized

/-! ## The number of a new session -/

section Next

variable {spec : AgentSpec} {active : List ManagedSession} {base : String} {used : List Nat} {number n : Nat}

/-- The number found is free, and every smaller one is used. -/
theorem findFree_eq_some {fuel : Nat} (h : findFree used fuel number = some n) (hnumber : number < 2 ^ 64) :
    n ∉ used ∧ number ≤ n ∧ n < 2 ^ 64 ∧ ∀ m, number ≤ m → m < n → m ∈ used := by
  induction fuel generalizing number with
  | zero => cases h
  | succ fuel ih =>
    rw [findFree] at h
    split_ifs at h with hused hbound
    · obtain ⟨hfree, hle, hlt, hbelow⟩ := ih h hbound
      refine ⟨hfree, Nat.le_of_succ_le hle, hlt, fun m hm hmn => ?_⟩
      rcases Nat.eq_or_lt_of_le hm with rfl | hm
      · exact hused
      · exact hbelow m hm hmn
    · obtain rfl := Option.some.inj h
      exact ⟨hused, Nat.le_refl _, hnumber, fun m hm hmn => absurd hmn (Nat.not_lt.mpr hm)⟩

/-- The loop ends before it has met more numbers than are used. -/
theorem findFree_ne_none (hlen : used.length + 2 < 2 ^ 64) : findFree used (used.length + 1) 1 ≠ none := by
  have hmet : ∀ fuel number, number + fuel < 2 ^ 64 → findFree used fuel number = none →
      ∀ m, number ≤ m → m < number + fuel → m ∈ used := by
    intro fuel
    induction fuel with
    | zero =>
      intro number _ _ m hm hlt
      omega
    | succ fuel ih =>
      intro number hbound h m hm hlt
      rw [findFree] at h
      split_ifs at h with hused hnext
      · rcases Nat.eq_or_lt_of_le hm with rfl | hm
        · exact hused
        · exact ih (number + 1) (by omega) h m hm (by omega)
      · omega
  intro hnone
  have hsub : List.range' 1 (used.length + 1) ⊆ used := by
    intro m hm
    rw [List.mem_range'_1] at hm
    exact hmet _ 1 (by omega) hnone m hm.1 hm.2
  have hle := (List.subperm_of_subset List.nodup_range' hsub).length_le
  rw [List.length_range'] at hle
  omega

theorem nextIdentityNumber_ok_iff : nextIdentityNumber spec base active = .ok n ↔
    findFree (active.flatMap (usedBySession spec (sanitizeId base)))
      ((active.flatMap (usedBySession spec (sanitizeId base))).length + 1) 1 = some n := by
  simp only [nextIdentityNumber]
  split
  case h_1 number hnumber => rw [hnumber, Except.ok.injEq, Option.some.injEq]
  case h_2 hnone =>
    rw [hnone]
    exact iff_of_false (by simp) (by simp)

/-- A session uses up three numbers at most. -/
theorem length_usedBySession (spec : AgentSpec) (baseKey : String) (session : ManagedSession) :
    (usedBySession spec baseKey session).length ≤ 3 := by
  have hone : ∀ o : Option Nat, o.toList.length ≤ 1 := fun o => by cases o <;> simp
  unfold usedBySession
  rw [List.length_append]
  have hname := hone (noteUsedIdentityNumber baseKey (sanitizeId session.name))
  split
  case h_1 =>
    rw [List.length_nil]
    omega
  case h_2 toolSuffix _ =>
    have htool := hone (noteUsedIdentityNumber baseKey toolSuffix)
    have hbare := hone (noteUsedBareIdentityNumber toolSuffix)
    rw [List.length_append]
    split_ifs
    · omega
    · rw [List.length_nil]
      omega

theorem exists_nextIdentityNumber (spec : AgentSpec) (base : String) (hlen : 3 * active.length + 2 < 2 ^ 64) :
    ∃ number, nextIdentityNumber spec base active = .ok number := by
  have hused : (active.flatMap (usedBySession spec (sanitizeId base))).length ≤ 3 * active.length := by
    clear hlen
    induction active with
    | nil => exact Nat.le_refl 0
    | cons session rest ih =>
      have hsession := length_usedBySession spec (sanitizeId base) session
      rw [List.flatMap_cons, List.length_append, List.length_cons]
      omega
  have hbound : (active.flatMap (usedBySession spec (sanitizeId base))).length + 2 < 2 ^ 64 := by omega
  obtain ⟨number, hnumber⟩ := Option.ne_none_iff_exists'.mp (findFree_ne_none hbound)
  exact ⟨number, nextIdentityNumber_ok_iff.mpr hnumber⟩

theorem ensureUniqueSessionIdentity_ok_iff {identity : SessionIdentity} :
    ensureUniqueSessionIdentity identity active = .ok () ↔
      ∀ session ∈ active, session.sessionId ≠ identity.sessionId ∧ session.name ≠ identity.name := by
  induction active with
  | nil => simp [ensureUniqueSessionIdentity]
  | cons session rest ih =>
    rw [ensureUniqueSessionIdentity, List.forall_mem_cons]
    split_ifs with hid hboth hname
    · simp [hid]
    · simp [hboth.2]
    · simp [hname]
    · rw [ih]
      simp [hid, hname]

/-- The number of a new session is not behind the base of an active one, if it can be found there. -/
theorem numberedName_notMem (hkept : keepsEnd base = true) (h : nextIdentityNumber spec base active = .ok n) :
    numberedName base n ∉ active.map (·.name) := by
  intro hmem
  obtain ⟨session, hsession, hname⟩ := List.mem_map.mp hmem
  obtain ⟨hfree, hpos, hn, -⟩ := findFree_eq_some (nextIdentityNumber_ok_iff.mp h) (by decide)
  refine hfree (List.mem_flatMap.mpr ⟨session, hsession, List.mem_append_left _ ?_⟩)
  rw [hname, noteUsed_numberedName (Nat.pos_iff_ne_zero.mp hpos) hn, if_pos hkept]
  exact List.mem_singleton_self n

/-- Where it cannot be found, one session of the base is in the way of the next. -/
theorem nextIdentityNumber_of_trimmed (hkept : keepsEnd base = false) {session : ManagedSession}
    (hname : session.name = numberedName base 1) (htool : session.tool = "") :
    nextIdentityNumber spec base [session] = .ok 1 := by
  have hsuffix : (stripPrefix spec.tool session.tool).bind (stripPrefix ":") = none := by
    rw [htool]
    cases hstrip : stripPrefix spec.tool "" with
    | none => rfl
    | some rest =>
      have hempty := congrArg String.toList (stripPrefix_eq_some_iff.mp hstrip)
      rw [String.toList_append] at hempty
      obtain rfl : rest = "" := String.toList_inj.mp (List.append_eq_nil_iff.mp hempty.symm).2
      rfl
  have hused : [session].flatMap (usedBySession spec (sanitizeId base)) = [] := by
    rw [List.flatMap_singleton, usedBySession, hname, noteUsed_numberedName (by decide) (by decide), hkept, hsuffix]
    rfl
  rw [nextIdentityNumber_ok_iff, hused]
  rfl

end Next

/-- `u64::try_from(seq).unwrap_or(u64::MAX)`. -/
def seqVersion (seq : Int) : Nat := if 0 ≤ seq then seq.toNat else 2 ^ 64 - 1

/-- The context version that a conditional append compares with: the last session fact. -/
def contextVersion (facts : List Fact) : Option Nat :=
  ((facts.filter (·.kind == .session)).map fun f => seqVersion f.seq).max?

/-- `active_session_records_from_facts`: a map, read in the order of the session ids. -/
def activeSessionRecords (facts : List Fact) : List ManagedSession :=
  (activeManagedSessions facts).insertionSort fun a b => a.sessionId ≤ b.sessionId

/-- `session_fact`; the backend is one of the fields that `ManagedSession.rest` holds. -/
def sessionFact (session : ManagedSession) (status : String) (refId : Option String)
    (eventId createdAt backend : String) : Fact where
  eventId := eventId
  threadId := "session-" ++ session.sessionId
  kind := .session
  tool := some session.tool
  subject := s!"managed session {session.name} {status}"
  createdAt := createdAt
  summary := some s!"{status} {session.agent} session via {backend}"
  target := some session.tool
  refId := refId
  status := some status
  session := some session

/-- An append gives the next sequence. -/
def append (ledger : List Fact) (fact : Fact) : List Fact :=
  ledger ++ [{ fact with seq := ((ledger.map (·.seq)).max?).getD 0 + 1 }]

/-- What one attempt carries from its read to its append. -/
structure Pending where
  session : ManagedSession
  expected : Option Nat

/-- The ledger, and the attempt each process is in the middle of. -/
structure State where
  ledger : List Fact
  pending : Nat → Option Pending

def start : State := ⟨[], fun _ => none⟩

inductive Action
  /-- A process reads the active sessions and settles on an identity. `version` is the number of the last session
  record: the index numbers its records anew when it is rebuilt, so it may lie below the canonical sequence. -/
  | read (p : Nat) (spec : AgentSpec) (input : SessionReservationInput) (rest : String) (version : Option Nat)
  /-- The conditional append of the attempt; `admitted` is what the gates of the append say of the fact. -/
  | commit (p : Nat) (eventId createdAt backend : String) (admitted : Bool)
  /-- Any other append: stops, refreshed records, facts of other kinds. -/
  | append (fact : Fact)

/-- `append_session_fact_if_context`, as to the ledger. -/
def appendIfContext (ledger : List Fact) (fact : Fact) (expected : Option Nat) (admitted : Bool) : List Fact :=
  -- a fact that is there already is returned, whatever the context
  if (ledger.map (·.eventId)).contains fact.eventId then ledger
  else if contextVersion ledger ≠ expected then ledger
  else if admitted then append ledger fact
  else ledger

/-- Whether a version is at most another. -/
def notAbove : Option Nat → Option Nat → Bool
  | none, _ => true
  | some _, none => false
  | some v, some v' => decide (v ≤ v')

def step (s : State) : Action → Option State
  | .read p spec input rest version =>
    if notAbove version (contextVersion s.ledger) then
      match numberedSessionIdentity spec input (activeSessionRecords s.ledger) with
      | .ok identity => some { s with pending := Function.update s.pending p (some
          { session :=
              { sessionId := identity.sessionId, name := identity.name, agent := spec.agent, tool := identity.tool
                rest := rest }
            expected := version }) }
      | .error _ => some { s with pending := Function.update s.pending p none }
    else none
  | .commit p eventId createdAt backend admitted =>
    (s.pending p).map fun attempt =>
      { ledger := appendIfContext s.ledger (sessionFact attempt.session "active" none eventId createdAt backend)
          attempt.expected admitted
        pending := Function.update s.pending p none }
  | .append fact => some { s with ledger := append s.ledger fact }

/-- Whether an action writes no record of a session that was stopped meanwhile. -/
def Timely (s : State) : Action → Prop
  | .append fact => fact.kind = .session → fact.status = some "stopped" ∨
      ∀ session, fact.session = some session →
        ∃ held ∈ activeManagedSessions s.ledger, held.sessionId = session.sessionId ∧ held.name = session.name
  | _ => True

/-! ## The ledger under appends -/

section Ledger

variable {F : List Fact} {fact : Fact}

/-- A ledger in the order of its sequence. -/
structure Ordered (F : List Fact) : Prop where
  sorted : F.Pairwise fun a b => a.seq < b.seq
  nonneg : ∀ f ∈ F, 0 ≤ f.seq

def lastSeq (F : List Fact) : Int := ((F.map (·.seq)).max?).getD 0

theorem le_lastSeq {f : Fact} (hf : f ∈ F) : f.seq ≤ lastSeq F := by
  cases hmax : (F.map (·.seq)).max? with
  | none =>
    rw [List.max?_eq_none_iff, List.map_eq_nil_iff] at hmax
    rw [hmax] at hf
    cases hf
  | some m =>
    rw [lastSeq, hmax]
    exact (List.max?_eq_some_iff.mp hmax).2 f.seq (List.mem_map_of_mem hf)

theorem lastSeq_nonneg (h : Ordered F) : 0 ≤ lastSeq F := by
  cases F with
  | nil => exact Int.le_refl 0
  | cons f rest => exact (h.nonneg f List.mem_cons_self).trans (le_lastSeq List.mem_cons_self)

theorem append_eq (F : List Fact) (fact : Fact) : append F fact = F ++ [{ fact with seq := lastSeq F + 1 }] := rfl

theorem Ordered.append (h : Ordered F) (fact : Fact) : Ordered (append F fact) := by
  rw [append_eq]
  constructor
  · refine List.pairwise_append.mpr ⟨h.sorted, List.pairwise_singleton _ _, fun f hf g hg => ?_⟩
    rw [List.mem_singleton.mp hg]
    exact Int.lt_add_one_of_le (le_lastSeq hf)
  · intro f hf
    rcases List.mem_append.mp hf with hf | hf
    · exact h.nonneg f hf
    · rw [List.mem_singleton.mp hf]
      exact (lastSeq_nonneg h).trans (Int.le_add_one (Int.le_refl _))

/-- What a session fact does to the active sessions. -/
def applySession (active : List ManagedSession) (candidate : Fact) : List ManagedSession :=
  match candidate.session with
  | none => active
  | some session =>
    let others := active.filter fun held => held.sessionId != session.sessionId
    if candidate.status == some "stopped" then others else others ++ [session]

theorem activeManagedSessions_eq (h : F.Pairwise fun a b => a.seq < b.seq) :
    activeManagedSessions F = (F.filter (·.kind == .session)).foldl applySession [] := by
  rw [activeManagedSessions, List.Pairwise.insertionSort_eq (h.imp fun hlt => Int.le_of_lt hlt)]
  rfl

theorem activeManagedSessions_append (h : Ordered F) :
    activeManagedSessions (append F fact) =
      if fact.kind = .session then applySession (activeManagedSessions F) fact else activeManagedSessions F := by
  rw [activeManagedSessions_eq (h.append fact).sorted, activeManagedSessions_eq h.sorted, append_eq,
    List.filter_append, List.foldl_append]
  by_cases hkind : fact.kind = .session
  · rw [if_pos hkind, List.filter_cons_of_pos (by simpa using hkind)]
    rfl
  · rw [if_neg hkind, List.filter_cons_of_neg (by simpa using hkind)]
    rfl

/-- Versions in their order, a ledger without sessions first. -/
def token (v : Option Nat) : WithBot Nat := v

def version (F : List Fact) : WithBot Nat := token (contextVersion F)

theorem le_version_of_notAbove {v : Option Nat} (h : notAbove v (contextVersion F) = true) :
    token v ≤ version F := by
  unfold version
  cases hcontext : contextVersion F with
  | none =>
    cases v with
    | none => exact le_refl _
    | some v => simp [notAbove, hcontext] at h
  | some c =>
    rw [hcontext] at h
    cases v with
    | none => exact bot_le (α := WithBot Nat)
    | some v => exact WithBot.coe_le_coe.mpr (of_decide_eq_true h)

theorem seqVersion_lt (h : Ordered F) {f : Fact} (hf : f ∈ F) : seqVersion f.seq < seqVersion (lastSeq F + 1) := by
  have hnonneg := h.nonneg f hf
  have hle := le_lastSeq hf
  rw [seqVersion, seqVersion, if_pos hnonneg, if_pos (by omega)]
  omega

/-- A session fact brings a version that no earlier one had. -/
theorem version_lt_append (h : Ordered F) (hkind : fact.kind = .session) : version F < version (append F fact) := by
  have hnew : version (append F fact) = (seqVersion (lastSeq F + 1) : WithBot Nat) := by
    refine congrArg token (List.max?_eq_some_iff.mpr ⟨?_, ?_⟩)
    · refine List.mem_map.mpr ⟨{ fact with seq := lastSeq F + 1 }, ?_, rfl⟩
      refine List.mem_filter.mpr ⟨?_, by simpa using hkind⟩
      exact List.mem_append_right _ (List.mem_singleton_self _)
    · intro v hv
      obtain ⟨f, hf, rfl⟩ := List.mem_map.mp hv
      rcases List.mem_append.mp (List.mem_filter.mp hf).1 with hf | hf
      · exact (seqVersion_lt h hf).le
      · rw [List.mem_singleton.mp hf]
        exact Nat.le_refl _
  cases hold : contextVersion F with
  | none =>
    have hbot : version F = ⊥ := congrArg token hold
    rw [hbot, hnew]
    exact WithBot.bot_lt_coe _
  | some v =>
    have hsome : version F = (v : WithBot Nat) := congrArg token hold
    obtain ⟨f, hf, rfl⟩ := List.mem_map.mp (List.max?_eq_some_iff.mp hold).1
    rw [hsome, hnew]
    exact WithBot.coe_lt_coe.mpr (seqVersion_lt h (List.mem_filter.mp hf).1)

/-- **An append advances the version**, unless the sessions are what they were. -/
theorem advances_append (h : Ordered F) (fact : Fact) :
    Advances version activeManagedSessions F (append F fact) := by
  by_cases hkind : fact.kind = .session
  · exact .inl (version_lt_append h hkind)
  · refine .inr ⟨?_, by rw [activeManagedSessions_append h, if_neg hkind]⟩
    rw [version, version, contextVersion, contextVersion, append_eq, List.filter_append,
      List.filter_cons_of_neg (by simpa using hkind), List.filter_nil, List.append_nil]

end Ledger

/-! ## Runs -/

section Runs

variable {s t : State} {a : Action} {F : List Fact}

/-- No active session has the id or the name of this one. -/
def Unique (session : ManagedSession) (active : List ManagedSession) : Prop :=
  ∀ held ∈ active, held.sessionId ≠ session.sessionId ∧ held.name ≠ session.name

/-- What holds along every run: an attempt that still may append has an identity of its own. -/
structure Valid (s : State) : Prop where
  ordered : Ordered s.ledger
  attempts : ∀ p attempt, s.pending p = some attempt →
    Current version activeManagedSessions (Unique attempt.session) (token attempt.expected) s.ledger

/-- Two active sessions never share a name or an id. -/
structure Apart (F : List Fact) : Prop where
  names : ((activeManagedSessions F).map (·.name)).Nodup
  ids : ((activeManagedSessions F).map (·.sessionId)).Nodup

theorem unique_of_identity {spec : AgentSpec} {input : SessionReservationInput} {identity : SessionIdentity}
    (h : numberedSessionIdentity spec input (activeSessionRecords F) = .ok identity) {session : ManagedSession}
    (hid : session.sessionId = identity.sessionId) (hname : session.name = identity.name) :
    Unique session (activeManagedSessions F) := by
  unfold numberedSessionIdentity at h
  simp only [bind_ok_iff] at h
  obtain ⟨number, -, ⟨⟩, hunique, hsame⟩ := h
  rw [Except.ok.inj hsame] at hunique
  intro held hheld
  rw [hid, hname]
  exact ensureUniqueSessionIdentity_ok_iff.mp hunique held ((List.mem_insertionSort _).mpr hheld)

/-- The conditional append is an append or nothing; it is an append only at the version of the attempt. -/
theorem appendIfContext_cases (F : List Fact) (fact : Fact) (expected : Option Nat) (admitted : Bool) :
    appendIfContext F fact expected admitted = F ∨
      contextVersion F = expected ∧ appendIfContext F fact expected admitted = append F fact := by
  unfold appendIfContext
  split_ifs with hthere hcontext hadmitted
  · exact .inl rfl
  · exact .inl rfl
  · exact .inr ⟨by simpa using hcontext, rfl⟩
  · exact .inl rfl

theorem Valid.advance (h : Valid s) (fact : Fact) {pending : Nat → Option Pending}
    (hpending : ∀ p attempt, pending p = some attempt → s.pending p = some attempt) :
    Valid ⟨append s.ledger fact, pending⟩ where
  ordered := h.ordered.append fact
  attempts p attempt hattempt := (h.attempts p attempt (hpending p attempt hattempt)).advance
    (advances_append h.ordered fact)

theorem pending_of_update {f : Nat → Option Pending} {p q : Nat} {attempt : Pending}
    (h : Function.update f p none q = some attempt) : f q = some attempt := by
  rcases update_eq_some h with ⟨-, hnone⟩ | ⟨-, hold⟩
  · cases hnone
  · exact hold

/-- Every action keeps the attempts good. -/
theorem valid_step (h : Valid s) (hstep : step s a = some t) : Valid t := by
  cases a with
  | read p spec input rest v =>
    simp only [step] at hstep
    split_ifs at hstep with hversion
    split at hstep
    case h_1 identity hidentity =>
      obtain rfl := Option.some.inj hstep
      refine ⟨h.ordered, fun q attempt hattempt => ?_⟩
      rcases update_eq_some hattempt with ⟨-, hnew⟩ | ⟨-, hold⟩
      · rw [← Option.some.inj hnew]
        exact Current.of_read (le_version_of_notAbove hversion) (unique_of_identity hidentity rfl rfl)
      · exact h.attempts q attempt hold
    case h_2 =>
      obtain rfl := Option.some.inj hstep
      exact ⟨h.ordered, fun q attempt hattempt => h.attempts q attempt (pending_of_update hattempt)⟩
  | commit p eventId createdAt backend admitted =>
    obtain ⟨attempt, -, rfl⟩ := Option.map_eq_some_iff.mp hstep
    rcases appendIfContext_cases s.ledger (sessionFact attempt.session "active" none eventId createdAt backend)
      attempt.expected admitted with heq | ⟨-, heq⟩
    · rw [heq]
      exact ⟨h.ordered, fun q attempt hattempt => h.attempts q attempt (pending_of_update hattempt)⟩
    · rw [heq]
      exact h.advance _ fun q attempt hattempt => pending_of_update hattempt
  | append fact =>
    obtain rfl := Option.some.inj hstep
    exact h.advance fact fun _ _ hattempt => hattempt

theorem valid_start : Valid start where
  ordered := ⟨List.Pairwise.nil, fun _ hf => absurd hf List.not_mem_nil⟩
  attempts _ attempt hattempt := absurd hattempt.symm (Option.some_ne_none attempt)

/-- A session that nothing active is called like joins the others. -/
theorem Apart.add (h : Apart F) (hF : Ordered F) {fact : Fact} {session : ManagedSession}
    (hkind : fact.kind = .session) (hsession : fact.session = some session) (hstatus : fact.status ≠ some "stopped")
    (hnew : ∀ held ∈ activeManagedSessions F, held.sessionId ≠ session.sessionId → held.name ≠ session.name) :
    Apart (append F fact) := by
  have hstatus' : (fact.status == some "stopped") = false := beq_eq_false_iff_ne.mpr hstatus
  have hactive : activeManagedSessions (append F fact) =
      (activeManagedSessions F).filter (fun held => held.sessionId != session.sessionId) ++ [session] := by
    rw [activeManagedSessions_append hF, if_pos hkind, applySession, hsession]
    simp only [hstatus', Bool.false_eq_true, if_false]
  have hsub : ((activeManagedSessions F).filter fun held => held.sessionId != session.sessionId).Sublist
      (activeManagedSessions F) := List.filter_sublist
  constructor
  · rw [hactive]
    refine nodup_map_concat (h.names.sublist (hsub.map _)) fun hmem => ?_
    obtain ⟨held, hheld, hname⟩ := List.mem_map.mp hmem
    obtain ⟨hheld, hid⟩ := List.mem_filter.mp hheld
    exact hnew held hheld (by simpa using hid) hname
  · rw [hactive]
    refine nodup_map_concat (h.ids.sublist (hsub.map _)) fun hmem => ?_
    obtain ⟨held, hheld, hid⟩ := List.mem_map.mp hmem
    simp [hid] at hheld

/-- A stop, or any fact that is no session, takes nothing new in. -/
theorem Apart.keep (h : Apart F) (hF : Ordered F) {fact : Fact}
    (hfact : fact.kind ≠ .session ∨ fact.session = none ∨ fact.status = some "stopped") : Apart (append F fact) := by
  have hsub : (activeManagedSessions (append F fact)).Sublist (activeManagedSessions F) := by
    rw [activeManagedSessions_append hF]
    split_ifs with hkind
    · unfold applySession
      split
      case h_1 => exact List.Sublist.refl _
      case h_2 session hsession =>
        rcases hfact with hfact | hfact | hfact
        · exact absurd hkind hfact
        · rw [hfact] at hsession
          cases hsession
        · simp only [hfact, beq_self_eq_true, if_true]
          exact List.filter_sublist
    · exact List.Sublist.refl _
  exact ⟨h.names.sublist (hsub.map _), h.ids.sublist (hsub.map _)⟩

/-- A refreshed record of a session that is still active puts the record in its own place. -/
theorem Apart.refresh (h : Apart F) (hF : Ordered F) {fact : Fact} {held session : ManagedSession}
    (hkind : fact.kind = .session) (hsession : fact.session = some session) (hstatus : fact.status ≠ some "stopped")
    (hheld : held ∈ activeManagedSessions F) (hid : held.sessionId = session.sessionId)
    (hname : held.name = session.name) : Apart (append F fact) := by
  refine h.add hF hkind hsession hstatus fun other hother hne heq => hne ?_
  rw [List.inj_on_of_nodup_map h.names hother hheld (heq.trans hname.symm), hid]

theorem apart_step (hs : Valid s) (h : Apart s.ledger) (htimely : Timely s a) (hstep : step s a = some t) :
    Apart t.ledger := by
  cases a with
  | read p spec input rest v =>
    simp only [step] at hstep
    split_ifs at hstep
    split at hstep
    case h_1 => exact (Option.some.inj hstep) ▸ h
    case h_2 => exact (Option.some.inj hstep) ▸ h
  | commit p eventId createdAt backend admitted =>
    obtain ⟨attempt, hattempt, rfl⟩ := Option.map_eq_some_iff.mp hstep
    show Apart (appendIfContext _ _ _ _)
    rcases appendIfContext_cases s.ledger (sessionFact attempt.session "active" none eventId createdAt backend)
      attempt.expected admitted with heq | ⟨hcontext, heq⟩
    · rw [heq]
      exact h
    · rw [heq]
      refine h.add hs.ordered rfl rfl (by simp [sessionFact]) fun held hheld _ => ?_
      exact ((hs.attempts p attempt hattempt).still (congrArg token hcontext.symm) held hheld).2
  | append fact =>
    obtain rfl := Option.some.inj hstep
    by_cases hkind : fact.kind = .session
    · cases hsession : fact.session with
      | none => exact h.keep hs.ordered (.inr (.inl hsession))
      | some session =>
        by_cases hstatus : fact.status = some "stopped"
        · exact h.keep hs.ordered (.inr (.inr hstatus))
        · obtain ⟨held, hheld, hid, hname⟩ := (htimely hkind).resolve_left hstatus session hsession
          exact h.refresh hs.ordered hkind hsession hstatus hheld hid hname
    · exact h.keep hs.ordered (.inl hkind)

end Runs

/-- **Reservations keep apart.** However reads, conditional appends and other appends of any number of processes
interleave, a reservation that goes through takes an id and a name that no session active at that moment has; and
while no record of a stopped session is written again, no two active sessions ever share a name or an id. -/
theorem reservations_apart :
    (∀ s t p eventId createdAt backend admitted, Reaches step (fun _ _ => True) start s →
      step s (.commit p eventId createdAt backend admitted) = some t →
      t.ledger = s.ledger ∨ ∃ session,
        t.ledger = append s.ledger (sessionFact session "active" none eventId createdAt backend) ∧
          Unique session (activeManagedSessions s.ledger)) ∧
    ∀ s, Reaches step Timely start s → Apart s.ledger := by
  constructor
  · intro s t p eventId createdAt backend admitted hreach hstep
    have hvalid : Valid s := hreach.invariant valid_start fun _ _ _ hs _ => valid_step hs
    obtain ⟨attempt, hattempt, rfl⟩ := Option.map_eq_some_iff.mp hstep
    rcases appendIfContext_cases s.ledger (sessionFact attempt.session "active" none eventId createdAt backend)
      attempt.expected admitted with heq | ⟨hcontext, heq⟩
    · exact .inl heq
    · exact .inr ⟨attempt.session, heq, (hvalid.attempts p attempt hattempt).still (congrArg token hcontext.symm)⟩
  · intro s hreach
    have hboth : Valid s ∧ Apart s.ledger := by
      refine hreach.invariant (P := fun s => Valid s ∧ Apart s.ledger) ?_ ?_
      · exact ⟨valid_start, List.nodup_nil, List.nodup_nil⟩
      · exact fun _ _ _ hs htimely hstep => ⟨valid_step hs.1 hstep, apart_step hs.1 hs.2 htimely hstep⟩
    exact hboth.2

/-- Claude's session `alpha` is stopped while it launches, Codex takes the name, and Claude's launch writes its
record once more. -/
def lateRefresh : List Action :=
  let alpha : SessionReservationInput := { requestedName := some "alpha" }
  let claude : ManagedSession :=
    { sessionId := "claude-alpha-01", name := "alpha-01", agent := "claude", tool := "claude_code:alpha-01"
      rest := "" }
  [.read 0 ⟨"claude", "claude_code"⟩ alpha "" none, .commit 0 "f1" "2026-01-01T00:00:00Z" "tmux" true,
    .append (sessionFact claude "stopped" (some "f1") "f2" "2026-01-01T00:00:01Z" "tmux"),
    .read 1 ⟨"codex", "codex"⟩ alpha "" (some 2), .commit 1 "f3" "2026-01-01T00:00:02Z" "tmux" true,
    .append (sessionFact claude "active" (some "f1") "f4" "2026-01-01T00:00:03Z" "tmux")]

/-- A record that is written after its session was stopped brings the name back beside its new holder. -/
theorem late_refresh_collides : ∃ s, Reaches step (fun _ _ => True) start s ∧ ¬Apart s.ledger := by
  have hrun : ((runActions step (fun _ _ => True) start lateRefresh).map fun s =>
      (activeManagedSessions s.ledger).map (·.name)) = some ["alpha-01", "alpha-01"] := by decide +kernel
  obtain ⟨s, hs, hnames⟩ := Option.map_eq_some_iff.mp hrun
  refine ⟨s, reaches_of_run hs, fun h => ?_⟩
  have hnodup := h.names
  rw [hnames] at hnodup
  exact absurd hnodup (by decide)
end RallyPoint.Reservation
