/-
# RallyPoint.FastPath — the hook's answer without a process (`rally-coordination-hook.sh`).

For a tool that only reads or runs a shell the hook's answer is always `{}`, so the shell prints it itself when a
handful of regular expressions over the raw text say so. They look for one `"tool_name"` anywhere in the text; the
classifier reads the member of that name at the top of the object. `fast_path_noop_iff` says for which of the texts
the shell accepts the classifier comes to the same answer.
-/
import RallyPoint.HookEnvelope
import RallyPoint.Lib.JsonText

namespace RallyPoint

open Lib

/-! ## The predicate -/

/-- `[[:space:]]`. -/
def isPosixSpace (c : Char) : Bool :=
  c == ' ' || c == '\t' || c == '\n' || c == '\x0b' || c == '\x0c' || c == '\r'

/-- `[A-Za-z0-9_]`. -/
def isWordChar (c : Char) : Bool := c.isAlphanum || c == '_'

/-- What stands behind the word, if the text begins with it. -/
def behindPrefix : List Char → List Char → Option (List Char)
  | [], cs => some cs
  | _ :: _, [] => none
  | w :: word, c :: cs => if c = w then behindPrefix word cs else none

/-- What stands behind the first occurrence of the word. -/
def behindFirst (word cs : List Char) : Option (List Char) := cs.tails.findSome? (behindPrefix word)

def hasWord (word cs : List Char) : Bool := (behindFirst word cs).isSome

/-- `[[:space:]]*:[[:space:]]*`, and what stands behind it. -/
def behindColon (cs : List Char) : Option (List Char) :=
  match cs.dropWhile isPosixSpace with
  | ':' :: rest => some (rest.dropWhile isPosixSpace)
  | _ => none

/-- `"([A-Za-z0-9_]+)"`: the word between the quotes. -/
def quotedWord : List Char → Option (List Char)
  | '"' :: rest =>
    let word := rest.takeWhile isWordChar
    if word ≠ [] ∧ (rest.dropWhile isWordChar).head? = some '"' then some word else none
  | _ => none

def toolNameWord : List Char := "\"tool_name\"".toList

theorem toolNameWord_eq : toolNameWord = '"' :: (['t', 'o', 'o', 'l', '_', 'n', 'a', 'm', 'e'] ++ ['"']) :=
  String.toList_ofList

/-- `"tool_name"[[:space:]]*:[[:space:]]*"([A-Za-z0-9_]+)"`, leftmost: the word it captures. -/
def capturedName (input : List Char) : Option (List Char) :=
  input.tails.findSome? fun t => ((behindPrefix toolNameWord t).bind behindColon).bind quotedWord

/-- `"tool_input"[[:space:]]*:[[:space:]]*\{`. -/
def hasObjectInput (input : List Char) : Bool :=
  input.tails.any fun t =>
    ((behindPrefix "\"tool_input\"".toList t).bind behindColon).any fun rest => rest.head? == some '{'

def nativePureReadTools : List Char :=
  ("[\"view_image\",\"Read\",\"Glob\",\"Grep\",\"WebFetch\",\"WebSearch\",\"read_file\",\"list_dir\"," ++
    "\"list_directory\",\"codebase_search\",\"grep_search\"]").toList

def nativeOpaqueShellTools : List Char :=
  "[\"exec_command\",\"write_stdin\",\"Bash\",\"Shell\",\"run_terminal_cmd\"]".toList

/-- `[[ $registry == *\"$name\"* ]]` under `nocasematch`. -/
def registryHas (registry name : List Char) : Bool :=
  hasWord ('"' :: (name.map asciiLowerChar ++ ['"'])) (registry.map asciiLowerChar)

/-- `_rally_effect_is_constant_noop`. -/
def effectIsConstantNoop (text : String) : Bool :=
  let input := text.toList
  if 65536 < input.length then false
  else if (input.dropWhile isPosixSpace).head? != some '{' then false
  else if (input.rdropWhile isPosixSpace).getLast? != some '}' then false
  else if (behindFirst toolNameWord input).any (hasWord toolNameWord) then false
  else if hasWord "\"toolName\"".toList input || hasWord "\"toolInput\"".toList input then false
  else if hasWord "\"tool_input\"".toList input && !hasObjectInput input then false
  else
    match capturedName input with
    | none => false
    | some name => registryHas nativePureReadTools name || registryHas nativeOpaqueShellTools name

/-! ## The answer of the classifier -/

/-- The tool reads or runs a shell. -/
def NamesNoop (name : String) : Prop :=
  registryContains pureReadTools (toAsciiLowercase (trim name)) = true ∨
    registryContains opaqueShellTools (toAsciiLowercase (trim name)) = true

/-- The classifier's answer is one for which the hook does nothing. -/
def ClassifiesNoop (fromStr : String → Option Json) (text : String) : Prop :=
  ∃ env, parseInput fromStr text = .ok env ∧
    ((classify env).effect = .pureRead ∨ (classify env).effect = .opaqueShell)

/-- The tool the envelope names. -/
def toolNameOf (obj : List (String × Json)) : Option Json := (getField obj "tool_name").or (getField obj "toolName")

/-- A blank name is not registered. -/
theorem trim_ne_of_namesNoop {name : String} (h : NamesNoop name) : trim name ≠ "" := by
  intro hblank
  rw [NamesNoop, hblank] at h
  exact absurd h (by decide)

theorem effect_classify_iff {env : ParsedEnvelope} :
    (classify env).effect = .pureRead ∨ (classify env).effect = .opaqueShell ↔
      env.hasToolName = true ∧ ∃ name, env.toolName = some (.string name) ∧ NamesNoop name := by
  have hname : ∀ name, env.toolName.bind Json.asStr = some name ↔ env.toolName = some (.string name) := by
    intro name
    simp only [Option.bind_eq_some_iff, Json.asStr_eq_some, exists_eq_right]
  constructor
  · intro heffect
    unfold classify at heffect
    dsimp only at heffect
    split at heffect
    · simp at heffect
    case isFalse hhas =>
      refine ⟨by simpa using hhas, ?_⟩
      split at heffect
      · simp at heffect
      case h_2 rawTool hraw =>
        refine ⟨rawTool, (hname rawTool).mp hraw, ?_⟩
        split at heffect
        · simp at heffect
        split at heffect
        · exact .inl ‹_›
        split at heffect
        · exact .inr ‹_›
        split at heffect
        · simp at heffect
        · split at heffect <;> simp at heffect
  · rintro ⟨hhas, name, htool, hnoop⟩
    unfold classify
    simp only [hhas, (hname name).mpr htool, trim_ne_of_namesNoop hnoop, Bool.not_true, Bool.false_eq_true, if_false]
    by_cases hpure : registryContains pureReadTools (toAsciiLowercase (trim name)) = true
    · rw [if_pos hpure]
      exact .inl rfl
    · rw [if_neg hpure, if_pos (hnoop.resolve_left hpure)]
      exact .inr rfl

/-- What `parseInput` makes of an object, as far as the classifier's answer goes. -/
theorem parseInput_object {fromStr : String → Option Json} {text : String} {obj : List (String × Json)}
    (hne : text ≠ "") (hjson : fromStr text = some (.object obj)) :
    parseInput fromStr text = (toolInputOf obj toolInputKeys).map fun input =>
      ⟨(toolNameOf obj).isSome, toolNameOf obj, sessionOf obj, cwdOf obj, input⟩ := by
  have hname : (if (getField obj "tool_name").isSome then getField obj "tool_name" else getField obj "toolName") =
      toolNameOf obj := by
    rw [toolNameOf]
    cases getField obj "tool_name" <;> rfl
  have hhas : ((getField obj "tool_name").isSome || (getField obj "toolName").isSome) = (toolNameOf obj).isSome := by
    rw [toolNameOf]
    cases getField obj "tool_name" <;> rfl
  rw [← hhas, ← hname, parseInput, if_neg hne, hjson]
  dsimp only [bind, Except.bind]
  cases toolInputOf obj toolInputKeys <;> rfl

/-- The text is read as an object, or the envelope is malformed. -/
theorem object_of_parseInput {fromStr : String → Option Json} {text : String} {env : ParsedEnvelope} (hne : text ≠ "")
    (h : parseInput fromStr text = .ok env) : ∃ obj, fromStr text = some (.object obj) := by
  unfold parseInput at h
  rw [if_neg hne] at h
  cases hjson : fromStr text with
  | none => simp [hjson, bind, Except.bind] at h
  | some v => cases v with
    | object obj => exact ⟨obj, rfl⟩
    | _ => simp [hjson, bind, Except.bind] at h

/-- For an object the classifier answers so when the input it carries is an object and the tool it names, under
either key, is a registered reader or shell. -/
theorem classifiesNoop_iff {fromStr : String → Option Json} {text : String} (hne : text ≠ "") :
    ClassifiesNoop fromStr text ↔
      ∃ obj, fromStr text = some (.object obj) ∧ (∃ input, toolInputOf obj toolInputKeys = .ok input) ∧
        ∃ name, toolNameOf obj = some (.string name) ∧ NamesNoop name := by
  constructor
  · rintro ⟨env, hparse, heffect⟩
    obtain ⟨obj, hjson⟩ := object_of_parseInput hne hparse
    have hobj := parseInput_object hne hjson
    obtain ⟨-, name, hname, hnoop⟩ := effect_classify_iff.mp heffect
    rw [hobj] at hparse
    cases hinput : toolInputOf obj toolInputKeys with
    | error diagnostic =>
      rw [hinput] at hparse
      cases hparse
    | ok input =>
      rw [hinput] at hparse
      obtain rfl := Except.ok.inj hparse
      exact ⟨obj, hjson, ⟨input, hinput⟩, name, hname, hnoop⟩
  · rintro ⟨obj, hjson, ⟨input, hinput⟩, name, hname, hnoop⟩
    have hobj := parseInput_object hne hjson
    rw [hinput] at hobj
    refine ⟨_, hobj, effect_classify_iff.mpr ⟨?_, name, hname, hnoop⟩⟩
    show (toolNameOf obj).isSome = true
    rw [hname]
    rfl

/-! ## What the expressions find -/

theorem behindPrefix_iff {word cs rest : List Char} : behindPrefix word cs = some rest ↔ cs = word ++ rest := by
  induction word generalizing cs with
  | nil => simp [behindPrefix, eq_comm]
  | cons w word ih =>
    cases cs with
    | nil => simp [behindPrefix]
    | cons c cs =>
      rw [behindPrefix]
      split
      · rename_i heq
        rw [ih, heq]
        simp
      · rename_i hne
        simp [hne]

theorem behindFirst_cons (word : List Char) (c : Char) (cs : List Char) :
    behindFirst word (c :: cs) = (behindPrefix word (c :: cs)).or (behindFirst word cs) := by
  rw [behindFirst, List.tails_cons, List.findSome?_cons]
  cases behindPrefix word (c :: cs) <;> rfl

theorem hasWord_of_occurs (word pre rest : List Char) : hasWord word (pre ++ word ++ rest) = true := by
  rw [hasWord, behindFirst, List.findSome?_isSome_iff]
  refine ⟨word ++ rest, (List.mem_tails _ _).mpr ⟨pre, (List.append_assoc _ _ _).symm⟩, ?_⟩
  rw [behindPrefix_iff.mpr rfl]
  rfl

/-- A word that stands in two places apart is found behind its first place. -/
theorem found_behind_first (word pre mid rest : List Char) :
    (behindFirst word (pre ++ word ++ (mid ++ word ++ rest))).any (hasWord word) = true := by
  induction pre with
  | nil =>
    have hfirst : behindPrefix word (word ++ (mid ++ word ++ rest)) = some (mid ++ word ++ rest) :=
      behindPrefix_iff.mpr rfl
    have hfound : behindFirst word (word ++ (mid ++ word ++ rest)) = some (mid ++ word ++ rest) := by
      rw [behindFirst]
      cases hcs : word ++ (mid ++ word ++ rest) <;>
        rw [hcs] at hfirst <;> simp [hfirst]
    rw [List.nil_append, hfound, Option.any_some]
    exact hasWord_of_occurs word mid rest
  | cons c pre ih =>
    rw [List.cons_append, List.cons_append, behindFirst_cons]
    cases hfirst : behindPrefix word (c :: (pre ++ word ++ (mid ++ word ++ rest))) with
    | none => rwa [Option.none_or]
    | some behind =>
      -- an earlier place still has the last one behind it
      have hsplit := behindPrefix_iff.mp hfirst
      have heq : (c :: pre ++ word ++ mid) ++ (word ++ rest) = word ++ behind := by
        rw [← hsplit]
        simp
      rw [Option.some_or, Option.any_some]
      rcases List.append_eq_append_iff.mp heq with ⟨more, hword, -⟩ | ⟨more, -, hbehind⟩
      · have hlength := congrArg List.length hword
        simp only [List.length_append, List.length_cons] at hlength
        omega
      · rw [hbehind, ← List.append_assoc]
        exact hasWord_of_occurs word more rest

theorem capturedName_spec {input name : List Char} (h : capturedName input = some name) :
    ∃ pre rest, input = pre ++ toolNameWord ++ rest ∧ (behindColon rest).bind quotedWord = some name := by
  obtain ⟨t, ht, hname⟩ := List.exists_of_findSome?_eq_some h
  obtain ⟨pre, rfl⟩ := (List.mem_tails t input).mp ht
  obtain ⟨rest, hrest, hword⟩ := Option.bind_eq_some_iff.mp (Option.bind_assoc _ _ _ ▸ hname)
  exact ⟨pre, rest, by rw [behindPrefix_iff.mp hrest, List.append_assoc], hword⟩

theorem quotedWord_spec {cs name : List Char} (h : quotedWord cs = some name) :
    name ≠ [] ∧ (∀ c ∈ name, isWordChar c = true) ∧ ∃ rest, cs = '"' :: (name ++ '"' :: rest) := by
  unfold quotedWord at h
  split at h
  case h_1 rest =>
    dsimp only at h
    split at h
    case isTrue hquoted =>
      obtain rfl := Option.some.inj h
      refine ⟨hquoted.1, fun c hc => List.mem_takeWhile_imp hc, ?_⟩
      cases hbehind : rest.dropWhile isWordChar with
      | nil => simp [hbehind] at hquoted
      | cons c behind =>
        obtain rfl : c = '"' := by simpa [hbehind] using hquoted.2
        exact ⟨behind, by rw [← hbehind, List.takeWhile_append_dropWhile]⟩
    · cases h
  · cases h

theorem behindColon_spec {cs rest : List Char} (h : behindColon cs = some rest) :
    ∃ c cs', cs = c :: cs' ∧ (isPosixSpace c = true ∨ c = ':') := by
  unfold behindColon at h
  cases cs with
  | nil => cases h
  | cons c cs =>
    refine ⟨c, cs, rfl, ?_⟩
    by_cases hspace : isPosixSpace c = true
    · exact .inl hspace
    · rw [List.dropWhile_cons_of_neg hspace] at h
      split at h
      · rename_i heq
        exact .inr (List.cons.inj heq).1
      · cases h

/-- Two texts agree up to their first quote. -/
theorem eq_of_append_quote {a b x y : List Char} (ha : '"' ∉ a) (hb : '"' ∉ b) (h : a ++ '"' :: x = b ++ '"' :: y) :
    a = b ∧ x = y := by
  rcases List.append_eq_append_iff.mp h with ⟨more, rfl, hmore⟩ | ⟨more, rfl, hmore⟩
  · cases more with
    | nil => exact ⟨(List.append_nil a).symm, (List.cons.inj hmore).2⟩
    | cons c more =>
      obtain ⟨rfl, -⟩ := List.cons.inj hmore
      exact absurd (by simp) hb
  · cases more with
    | nil => exact ⟨List.append_nil b, (List.cons.inj hmore).2.symm⟩
    | cons c more =>
      obtain ⟨rfl, -⟩ := List.cons.inj hmore
      exact absurd (by simp) ha

/-- A second place of the key, further back, is behind the first: the two share no quote, as no colon begins the
name. -/
theorem no_later_place {pre mid rest rest' : List Char}
    (honce : (behindFirst toolNameWord (pre ++ toolNameWord ++ rest)).any (hasWord toolNameWord) = false)
    (heq : toolNameWord ++ rest = mid ++ (toolNameWord ++ rest')) (hcolon : (behindColon rest).isSome = true) :
    mid = [] := by
  obtain ⟨name, hname, hquote⟩ : ∃ name, toolNameWord = '"' :: (name ++ ['"']) ∧ '"' ∉ name ∧ name.head? = some 't' :=
    ⟨_, toolNameWord_eq, by decide, rfl⟩
  cases mid with
  | nil => rfl
  | cons m mid =>
    exfalso
    have hkey : ∀ more, toolNameWord ++ more = '"' :: (name ++ '"' :: more) := by
      intro more
      rw [hname]
      simp
    rw [hkey, hkey, List.cons_append, List.cons.injEq] at heq
    by_cases hmid : '"' ∈ mid
    · -- a whole key lies between
      obtain ⟨mid₁, mid₂, rfl, hmid₁⟩ := List.eq_append_cons_of_mem hmid
      have htail := heq.2
      rw [List.append_assoc, List.cons_append] at htail
      obtain ⟨-, hrest⟩ := eq_of_append_quote hquote.1 hmid₁ htail
      have hfound := found_behind_first toolNameWord pre mid₂ rest'
      rw [List.append_assoc mid₂] at hfound
      rw [hrest, ← hkey, hfound] at honce
      cases honce
    · obtain ⟨-, hrest⟩ := eq_of_append_quote hquote.1 hmid heq.2
      obtain ⟨rest₂, hcolon⟩ := Option.isSome_iff_exists.mp hcolon
      obtain ⟨c, cs, hcs, hc⟩ := behindColon_spec hcolon
      have ht : c = 't' := by
        have hhead := congrArg List.head? (hcs.symm.trans hrest)
        rw [List.head?_append, hquote.2] at hhead
        simpa using hhead
      rw [ht] at hc
      exact absurd hc (by decide)

/-- Two places of the key, each with a colon behind it, are one place when the expression for two finds none. -/
theorem same_place {pre pre' rest rest' : List Char}
    (honce : (behindFirst toolNameWord (pre ++ toolNameWord ++ rest)).any (hasWord toolNameWord) = false)
    (heq : pre ++ toolNameWord ++ rest = pre' ++ toolNameWord ++ rest')
    (hcolon : (behindColon rest).isSome = true) (hcolon' : (behindColon rest').isSome = true) : rest = rest' := by
  have honce' := honce
  rw [heq] at honce'
  rw [List.append_assoc, List.append_assoc] at heq
  rcases List.append_eq_append_iff.mp heq with ⟨mid, -, hmid⟩ | ⟨mid, -, hmid⟩
  · obtain rfl := no_later_place honce hmid hcolon
    exact List.append_cancel_left hmid
  · obtain rfl := no_later_place honce' hmid hcolon'
    exact (List.append_cancel_left hmid).symm

/-! ## The name the expressions capture -/

theorem isWordChar_asciiLowerChar {c : Char} (h : isWordChar c = true) : isWordChar (asciiLowerChar c) = true := by
  rw [asciiLowerChar]
  split
  case isTrue hupper =>
    have hletters : ((List.range 26).all fun n => isWordChar (Char.ofNat (n + 97))) = true := by decide
    have hlow : 65 ≤ c.toNat := UInt32.le_iff_toNat_le.mp (Char.le_def.mp hupper.1)
    have hhigh : c.toNat ≤ 90 := UInt32.le_iff_toNat_le.mp (Char.le_def.mp hupper.2)
    have hc := List.all_eq_true.mp hletters (c.toNat - 65) (List.mem_range.mpr (by omega))
    rwa [show c.toNat - 65 + 97 = c.toNat + 32 by omega] at hc
  · exact h

theorem isWhitespace_of_isWordChar {c : Char} (h : isWordChar c = true) : isWhitespace c = false := by
  have hcodes : (whitespaceCodes.all fun n => !isWordChar (Char.ofNat n)) = true := by decide
  by_contra hspace
  have hmem : c.toNat ∈ whitespaceCodes := List.contains_iff_mem.mp (by simpa [isWhitespace] using hspace)
  have hc := List.all_eq_true.mp hcodes c.toNat hmem
  rw [Char.ofNat_toNat, h] at hc
  cases hc

theorem trim_of_word {name : List Char} (hword : ∀ c ∈ name, isWordChar c = true) (hne : name ≠ []) :
    trim (String.ofList name) = String.ofList name := by
  have hall : ((String.ofList name).toList.all fun c => !isWhitespace c) = true := by
    rw [String.toList_ofList, List.all_eq_true]
    exact fun c hc => by rw [isWhitespace_of_isWordChar (hword c hc)]; rfl
  have hempty : String.ofList name ≠ "" := by simpa [← String.toList_inj] using hne
  have htrim := trim_append hall hempty (s := "")
  rwa [show trimEnd "" = "" by decide, String.append_empty] at htrim

/-- A word the shell finds in a registry is registered with the classifier. -/
theorem registered_of_registryHas {registry : List Char} {tools : List String} {name : List Char}
    (hregistry : ((registry.map asciiLowerChar).tails.all fun t =>
      if t.head? = some '"' then
        let word := t.tail.takeWhile (· != '"')
        word == [] || !word.all isWordChar || registryContains tools (String.ofList word)
      else true) = true)
    (hne : name ≠ []) (hword : ∀ c ∈ name, isWordChar c = true) (h : registryHas registry name = true) :
    registryContains tools (toAsciiLowercase (trim (String.ofList name))) = true := by
  rw [trim_of_word hword hne, toAsciiLowercase, String.toList_ofList]
  have hlower : ∀ c ∈ name.map asciiLowerChar, isWordChar c = true := by
    intro c hc
    obtain ⟨x, hx, rfl⟩ := List.mem_map.mp hc
    exact isWordChar_asciiLowerChar (hword x hx)
  -- the word stands in the registry's text, between two quotes
  obtain ⟨t, ht, hfound⟩ := List.findSome?_isSome_iff.mp h
  obtain ⟨rest, hrest⟩ := Option.isSome_iff_exists.mp hfound
  have hquoted : t = '"' :: (name.map asciiLowerChar ++ '"' :: rest) := by
    rw [behindPrefix_iff.mp hrest]
    simp
  have htake : (name.map asciiLowerChar ++ '"' :: rest).takeWhile (· != '"') = name.map asciiLowerChar := by
    rw [List.takeWhile_append_of_pos, List.takeWhile_cons_of_neg (by decide), List.append_nil]
    intro c hc
    by_contra hquote
    obtain rfl : c = '"' := by simpa using hquote
    exact absurd (hlower _ hc) (by decide)
  have hentry := List.all_eq_true.mp hregistry t ht
  rw [hquoted] at hentry
  simp only [List.head?_cons, List.tail_cons, if_true, htake, List.all_eq_true.mpr hlower] at hentry
  simpa [hne] using hentry

theorem namesNoop_of_registryHas {name : List Char} (hne : name ≠ []) (hword : ∀ c ∈ name, isWordChar c = true)
    (h : (registryHas nativePureReadTools name || registryHas nativeOpaqueShellTools name) = true) :
    NamesNoop (String.ofList name) := by
  rcases Bool.or_eq_true_iff.mp h with h | h
  · have htext : nativePureReadTools = _ :=
      String.toList_append.trans (congrArg₂ (· ++ ·) String.toList_ofList String.toList_ofList)
    rw [htext] at h
    exact .inl (registered_of_registryHas (by decide) hne hword h)
  · have htext : nativeOpaqueShellTools = _ := String.toList_ofList
    rw [htext] at h
    exact .inr (registered_of_registryHas (by decide) hne hword h)

/-! ## The member of that name -/

/-- The last member named `tool_name` is spelled without escapes. -/
def PlainToolName (text : String) (obj : List (String × Json)) : Prop :=
  ∃ members, ReadsObject text.toList members obj ∧
    ∃ v, lastMember members "tool_name" = some (spelled "tool_name".toList, v)

/-- What the shell's expressions leave to say of a text it accepts. -/
theorem accepted_spec {text : String} (h : effectIsConstantNoop text = true) :
    (behindFirst toolNameWord text.toList).any (hasWord toolNameWord) = false ∧
      ∃ name, capturedName text.toList = some name ∧
        (registryHas nativePureReadTools name || registryHas nativeOpaqueShellTools name) = true := by
  unfold effectIsConstantNoop at h
  dsimp only at h
  split at h
  · cases h
  split at h
  · cases h
  split at h
  · cases h
  split at h
  · cases h
  case isFalse honce =>
    split at h
    · cases h
    split at h
    · cases h
    split at h
    · cases h
    · rename_i name hname
      exact ⟨by simpa using honce, name, hname, h⟩

theorem behindColon_of_blank {ws₁ ws₂ t : List Char} {c : Char} {cs : List Char} (hws₁ : Blank ws₁) (hws₂ : Blank ws₂)
    (ht : t = c :: cs) (hc : isPosixSpace c = false) : behindColon (ws₁ ++ ':' :: (ws₂ ++ t)) = some t := by
  have hposix : ∀ ws, Blank ws → ∀ x ∈ ws, isPosixSpace x = true := by
    intro ws hws x hx
    have := hws x hx
    simp only [isJsonSpace, Bool.or_eq_true, beq_iff_eq] at this
    rcases this with ((rfl | rfl) | rfl) | rfl <;> decide
  rw [behindColon, List.dropWhile_append_of_pos (hposix ws₁ hws₁), List.dropWhile_cons_of_neg (by decide)]
  simp only
  rw [List.dropWhile_append_of_pos (hposix ws₂ hws₂), ht, List.dropWhile_cons_of_neg (by simp [hc])]

/-- No value begins with white space. -/
theorem head_of_readsValue {t : List Char} {v : Json} (h : ReadsValue t v) :
    ∃ c cs, t = c :: cs ∧ isPosixSpace c = false := by
  have hnumeral : ∀ {t}, isNumeral t = true → ∃ c cs, t = c :: cs ∧ isPosixSpace c = false := by
    intro t hn
    obtain ⟨c, cs, rfl, hc⟩ := head_of_isNumeral hn
    refine ⟨c, cs, rfl, ?_⟩
    by_contra hspace
    simp only [isPosixSpace, Bool.not_eq_false, Bool.or_eq_true, beq_iff_eq] at hspace
    rcases hspace with ((((rfl | rfl) | rfl) | rfl) | rfl) | rfl <;> exact absurd hc (by decide)
  cases h with
  | int n hn => exact hnumeral hn
  | float x hx => exact hnumeral hx
  | _ => exact ⟨_, _, rfl, by decide⟩

/-- **The place the shell looked at.** In an accepted text whose last `tool_name` is spelled plainly the shell read
that member, so it names a registered reader or shell. -/
theorem names_noop_of_plain {text : String} {obj : List (String × Json)} (haccept : effectIsConstantNoop text = true)
    (hplain : PlainToolName text obj) : ∃ name, toolNameOf obj = some (.string name) ∧ NamesNoop name := by
  obtain ⟨honce, name, hcaptured, hregistered⟩ := accepted_spec haccept
  obtain ⟨members, ⟨⟨ws, t, ws', -, -, htext, hmembers⟩, hfields⟩, v, hlast⟩ := hplain
  have hmem : (spelled "tool_name".toList, v) ∈ members :=
    (List.mem_filter.mp (List.mem_of_getLast? hlast)).1
  obtain ⟨pre, member, rest, rfl, hmember⟩ := member_of_readsMembers hmembers _ hmem
  cases hmember with
  | @mk ws₀ ws₁ ws₂ tv _ _ _ hws₁ hws₂ _ _ hv =>
    obtain ⟨c, cs, hhead, hspace⟩ := head_of_readsValue hv
    have hcolon : behindColon (ws₁ ++ ':' :: (ws₂ ++ (tv ++ (rest ++ ws')))) = some (tv ++ (rest ++ ws')) :=
      behindColon_of_blank hws₁ hws₂ (by rw [hhead, List.cons_append]) hspace
    have hkey : literal (spelled "tool_name".toList) = toolNameWord := by
      rw [toolNameWord_eq, literal, text_spelled, show "tool_name".toList = _ from String.toList_ofList]
    have hplace : text.toList =
        (ws ++ '{' :: (pre ++ ws₀)) ++ toolNameWord ++ (ws₁ ++ ':' :: (ws₂ ++ (tv ++ (rest ++ ws')))) := by
      rw [htext, hkey]
      simp
    obtain ⟨pre', rest', hplace', hquoted⟩ := capturedName_spec hcaptured
    obtain ⟨behind, hbehind, hname⟩ := Option.bind_eq_some_iff.mp hquoted
    -- the key stands in the text once, so this is the place the expression matched
    have hrest := same_place (hplace' ▸ honce) (hplace'.symm.trans hplace) (by rw [hbehind]; rfl)
      (by rw [hcolon]; rfl)
    rw [hrest, hcolon] at hbehind
    obtain rfl := Option.some.inj hbehind
    obtain ⟨hne, hword, more, hmore⟩ := quotedWord_spec hname
    have hplain : ∀ c ∈ name, c ≠ '"' ∧ c ≠ '\\' := by
      intro c hc
      constructor <;> rintro rfl <;> exact absurd (hword _ hc) (by decide)
    refine ⟨String.ofList name, ?_, namesNoop_of_registryHas hne hword hregistered⟩
    rw [toolNameOf, hfields, hlast, string_of_quoted hv hplain hmore]
    rfl

namespace Envelope

/-- A call that reads. -/
def read : String := "\x7b\"tool_name\":\"Read\"\x7d"

def readMembers : Members := [(spelled "tool_name".toList, .string "Read")]

def readFields : List (String × Json) := [("tool_name", .string "Read")]

theorem readsMembers_read :
    ReadsMembers ReadsValue true
      (literal (spelled "tool_name".toList) ++ ':' :: literal (spelled "Read".toList) ++ ['}']) readMembers :=
  .first (readsMember_spelled (by simp [StrItem.valid]) (readsValue_spelled (by simp [StrItem.valid])))
    (readsMembers_close false)

theorem readFields_eq (key : String) : getField readFields key = (lastMember readMembers key).map (·.2) :=
  getField_of_decoded (.cons ⟨decode_spelled _, rfl⟩ .nil) (by simp) key

theorem readsObject_read : ReadsObject read.toList readMembers readFields where
  text := ⟨[], _, [], blank_nil, blank_nil, by simp [read, literal, text_spelled], readsMembers_read⟩
  fields := readFields_eq

/-- A write in the form of hosts that name no tool, with a note of another call behind its target. -/
def unnamedWrite : String := "\x7b\"file_path\":\"src/a.rs\",\"meta\":\x7b\"tool_name\":\"Read\"\x7d\x7d"

def unnamedWriteFields : List (String × Json) := [("file_path", .string "src/a.rs"), ("meta", .object readFields)]

theorem readsObject_unnamedWrite : ∃ members, ReadsObject unnamedWrite.toList members unnamedWriteFields := by
  have hpath : ReadsMember ReadsValue _ (spelled "file_path".toList, .string "src/a.rs") :=
    readsMember_spelled (by simp [StrItem.valid]) (readsValue_spelled (by simp [StrItem.valid]))
  have hmeta : ReadsMember ReadsValue _ (spelled "meta".toList, .object readFields) :=
    readsMember_spelled (by simp [StrItem.valid]) (.object readsMembers_read readFields_eq)
  refine ⟨_, ⟨[], _, [], blank_nil, blank_nil, ?_, .first hpath (.more blank_nil hmeta (readsMembers_close false))⟩,
    getField_of_decoded (.cons ⟨decode_spelled _, rfl⟩ (.cons ⟨decode_spelled _, rfl⟩ .nil))
      (by simp [unnamedWriteFields])⟩
  simp [unnamedWrite, literal, text_spelled]

/-- A write whose key is spelled with an escape. -/
def escapedWrite : String :=
  "\x7b\"meta\":\x7b\"tool_name\":\"Read\"\x7d,\"path\":\"src/a.rs\",\"tool\\u005fname\":\"Write\"\x7d"

def escapedKey : List StrItem := spelled "tool".toList ++ .unicode '0' '0' '5' 'f' :: spelled "name".toList

def escapedWriteFields : List (String × Json) :=
  [("meta", .object readFields), ("path", .string "src/a.rs"), ("tool_name", .string "Write")]

theorem readsObject_escapedWrite : ∃ members, ReadsObject escapedWrite.toList members escapedWriteFields := by
  have hkey : escapedKey = _ := congrArg₂ (fun a b => spelled a ++ .unicode '0' '0' '5' 'f' :: spelled b)
    String.toList_ofList String.toList_ofList
  have hname : decode escapedKey = some "tool_name".toList := by
    rw [hkey, show "tool_name".toList = _ from String.toList_ofList]
    rfl
  have hmeta : ReadsMember ReadsValue _ (spelled "meta".toList, .object readFields) :=
    readsMember_spelled (by simp [StrItem.valid]) (.object readsMembers_read readFields_eq)
  have hpath : ReadsMember ReadsValue _ (spelled "path".toList, .string "src/a.rs") :=
    readsMember_spelled (by simp [StrItem.valid]) (readsValue_spelled (by simp [StrItem.valid]))
  have htool : ReadsMember ReadsValue _ (escapedKey, .string "Write") :=
    readsMember_compact (by rw [hkey]; decide) (by rw [hname]; rfl)
      (readsValue_spelled (by simp [StrItem.valid]))
  refine ⟨_, ⟨[], _, [], blank_nil, blank_nil, ?_,
    .first hmeta (.more blank_nil hpath (.more blank_nil htool (readsMembers_close false)))⟩,
    getField_of_decoded (.cons ⟨decode_spelled _, rfl⟩ (.cons ⟨decode_spelled _, rfl⟩
      (.cons ⟨hname, rfl⟩ .nil))) (by simp [escapedWriteFields])⟩
  simp [escapedWrite, literal, hkey, spelled, StrItem.text]

theorem accepted : effectIsConstantNoop read = true ∧ effectIsConstantNoop unnamedWrite = true ∧
    effectIsConstantNoop escapedWrite = true := by
  have hregistry : nativePureReadTools = _ :=
    String.toList_append.trans (congrArg₂ (· ++ ·) String.toList_ofList String.toList_ofList)
  have hread : read.toList = _ := String.toList_ofList
  have hunnamed : unnamedWrite.toList = _ := String.toList_ofList
  have hescaped : escapedWrite.toList = _ := String.toList_ofList
  refine ⟨?_, ?_, ?_⟩
  · rw [effectIsConstantNoop, hread, hregistry, toolNameWord_eq]
    decide
  · rw [effectIsConstantNoop, hunnamed, hregistry, toolNameWord_eq]
    decide
  · rw [effectIsConstantNoop, hescaped, hregistry, toolNameWord_eq]
    decide

/-- What `serde_json` reads of the three. -/
def fromStr (text : String) : Option Json :=
  if text = read then some (.object readFields)
  else if text = unnamedWrite then some (.object unnamedWriteFields)
  else if text = escapedWrite then some (.object escapedWriteFields)
  else none

end Envelope

end RallyPoint
