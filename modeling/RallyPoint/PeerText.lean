/-
# RallyPoint.PeerText — what hook messages quote from the ledger (`hook_runtime.rs`).

A hook message reaches a model with high trust, and what it names was written by peers. The trust label at its start
says so. Every text on its way in therefore loses what a reader cannot see and every copy of the label, in whatever
case and with whatever white space, and is shown in guillemets unless it has the shape of an identifier.

`boundary_holds` says what comes out, for every text and every cap: no label, and no guillemets but the two around it.
-/
import RallyPoint.Fact
import RallyPoint.InjectFrame
import RallyPoint.Lib.LoosePhrase
import RallyPoint.Lib.Quoted
import RallyPoint.Lib.Words

namespace RallyPoint.PeerText

open Lib

/-! ## The boundary -/

/-- `char::to_lowercase`, as far as it is used: ASCII letters have their ASCII counterparts, white space stays and
nothing becomes white space, and of all other characters only two have an ASCII letter in their lower-case text. -/
structure Lowercase where
  toLowercase : Char → List Char
  nonempty : ∀ c, toLowercase c ≠ []
  ascii : ∀ c, c.toNat < 128 → toLowercase c = [asciiLowerChar c]
  other : ∀ c, 128 ≤ c.toNat → ∀ d ∈ toLowercase c, d.toNat < 128 → d = 'i' ∨ d = 'k'
  space : ∀ c, isWhitespace c = true → toLowercase c = [c]
  noSpace : ∀ c, isWhitespace c = false → ∀ d ∈ toLowercase c, isWhitespace d = false

def labelReplacement : String := "[trust-label-removed]"
def identMaxLen : Nat := 64
def identMaxWordsPerPart : Nat := 2
def identMaxWords : Nat := 4
def identMinWordLen : Nat := 3

def isStrippedClass (c : Char) : Bool :=
  isControl c || c.toNat == 0x2028 || c.toNat == 0x2029 || c.toNat == 0x00ad || inRange c.toNat (0x0600, 0x0605) ||
    c.toNat == 0x061c || c.toNat == 0x06dd || c.toNat == 0x070f || c.toNat == 0x08e2 || c.toNat == 0x180e ||
    inRange c.toNat (0x200b, 0x200f) || inRange c.toNat (0x202a, 0x202e) || inRange c.toNat (0x2060, 0x2064) ||
    inRange c.toNat (0x2066, 0x206f) || c.toNat == 0xfeff || inRange c.toNat (0xfff9, 0xfffb) ||
    inRange c.toNat (0xe000, 0xf8ff) || inRange c.toNat (0xf0000, 0xffffd) || inRange c.toNat (0x100000, 0x10fffd)

def labelWords : List (List Char) := ["untrusted", "ledger", "data", "follows"].map String.toList

/-- What is left behind the words at the front of a lower-case text. -/
def matchMarker (lower : List Char) : Option (List Char) := matchPhraseLoose isWhitespace (· == ·) labelWords lower

variable (low : Lowercase)

/-- The lower-case text, character by character. -/
def lowered (chars : List Char) : List Char :=
  let lower := chars.flatMap low.toLowercase
  if lower.length = chars.length then lower else chars.map asciiLowerChar

/-- The loop of `strip_label`: it matches in one text and copies from the other; `skip` characters are of a match. -/
def stripLabelFrom : Nat → List Char → List Char → List Char
  | skip + 1, _ :: chars, _ :: lower => stripLabelFrom skip chars lower
  | 0, c :: chars, l :: lower =>
    match matchMarker (l :: lower) with
    | some rest => labelReplacement.toList ++ stripLabelFrom (lower.length - rest.length) chars lower
    | none => c :: stripLabelFrom 0 chars lower
  | _, _, _ => []

def stripLabel (value : String) : String :=
  String.ofList (stripLabelFrom 0 value.toList (lowered low value.toList))

def clipWith (ending value : String) (max : Nat) : String :=
  if value.toList.length ≤ max then value else String.ofList (value.toList.take max) ++ ending

def clip (value : String) (max : Nat) : String := clipWith "...[truncated]" value max

def clipId (value : String) (max : Nat) : String := clipWith "...+truncated" value max

def line (value : String) (max : Nat) : String :=
  let spaced := String.ofList (value.toList.map fun c => if isStrippedClass c then ' ' else c)
  clip (stripLabel low (join " " (splitWhitespace spaced))) max

/-- The characters `scrub` lets through. -/
def allowed (c : Char) : Bool := c.isAlphanum || ['.', '_', ':', '@', '/', '+', '-'].contains c

def scrub (value : String) : String :=
  let removed := String.ofList (value.toList.filter fun c => !isStrippedClass c)
  String.ofList ((stripLabel low (trim removed)).toList.map fun c => if allowed c then c else '?')

/-- The words of a part of an identifier, unless one is too short. -/
def partWords (part : List Char) : Option Nat :=
  (cutAt (fun c => c = '-' || c = '_') part).foldlM (fun count segment =>
    if segment.isEmpty || !segment.all Char.isAlpha then some count
    else if segment.length < identMinWordLen then none
    else some (count + 1)) 0

def isBareShape (value : String) : Bool :=
  if value.toList.isEmpty || identMaxLen < value.toList.length || value.toList.contains '?' then false
  else
    let words := (cutAt (fun c => [':', '/', '@', '.', '+'].contains c) value.toList).foldlM (fun words part =>
      if part.isEmpty then some words
      else (partWords part).bind fun count => if identMaxWordsPerPart < count then none else some (words + count)) 0
    words.any fun words => words ≤ identMaxWords

def inGuillemets (text : String) : String := "«" ++ text ++ "»"

def ident (value : String) (max : Nat) : String :=
  let full := scrub low value
  if full.toList.isEmpty then "?"
  else
    let out := clipId full max
    if isBareShape full then out else inGuillemets out

def hostId (value : String) (max : Nat) : String :=
  let out := clipId (scrub low value) max
  if out.toList.isEmpty then "?" else out

def prose (value : String) (max : Nat) : String :=
  inGuillemets (line low (String.ofList (value.toList.map fun c => if c = '«' || c = '»' then '"' else c)) max)

/-! ## What comes out -/

/-- The trust label: its words in any case, with any white space between them. -/
def Label : List Char → Prop := Spelled isWhitespace eqIgnoreAsciiCaseChar 0 labelWords

/-- One pair of guillemets, around the text and nowhere in it. -/
def Guarded (text : String) : Prop :=
  ∃ inner, text.toList = '«' :: (inner ++ ['»']) ∧ '«' ∉ inner ∧ '»' ∉ inner

/-- What holds of one text at one cap. -/
structure Boundary (v : String) (cap : Nat) : Prop where
  line : Clean Label (line low v cap).toList
  scrub : Clean Label (scrub low v).toList
  ident : Clean Label (ident low v cap).toList
  hostId : Clean Label (hostId low v cap).toList
  prose : Clean Label (prose low v cap).toList
  prose_guarded : Guarded (PeerText.prose low v cap)
  ident_guarded : PeerText.scrub low v ≠ "" → isBareShape (PeerText.scrub low v) = false →
    Guarded (PeerText.ident low v cap)

/-! ## The label -/

section Label

theorem solid_label : Solid isWhitespace eqIgnoreAsciiCaseChar labelWords := by
  have hwords : labelWords = (split ' ' "untrusted ledger data follows").map String.toList := by decide
  rw [hwords]
  exact InjectFrame.solid_of_words (by decide)

/-- A character the label may have. -/
def inLabel (c : Char) : Bool := inPhrase isWhitespace eqIgnoreAsciiCaseChar labelWords c

theorem reads_label : Reads (matchPhraseLoose isWhitespace eqIgnoreAsciiCaseChar labelWords) Label :=
  reads_matchPhraseLoose solid_label

theorem madeOf_label : MadeOf (fun c => inLabel c = true) Label := madeOf_spelled (by decide)

/-- The letters of the label are small ASCII letters, and `i` and `k` are not among them. -/
theorem label_letters {word : List Char} (hword : word ∈ labelWords) {w : Char} (hw : w ∈ word) :
    w.toNat < 128 ∧ w ≠ 'i' ∧ w ≠ 'k' ∧ asciiLowerChar w = w := by
  have hcheck : (labelWords.all fun word => word.all fun w =>
      decide (w.toNat < 128) && w != 'i' && w != 'k' && asciiLowerChar w == w) = true := by decide
  have h := List.all_eq_true.mp (List.all_eq_true.mp hcheck word hword) w hw
  simpa [and_assoc] using h

theorem asciiLowerChar_of_ge {c : Char} (hc : 128 ≤ c.toNat) : asciiLowerChar c = c := by
  rcases asciiLowerChar_cases c with h | ⟨k, hk, hcode, -⟩
  · exact h
  · omega

/-- The folding of a text is one of its characters, and white space and the letters of the label see through it. -/
structure Folds (fold : Char → Char) : Prop where
  space : ∀ c, isWhitespace (fold c) = isWhitespace c
  letter : ∀ c, ∀ word ∈ labelWords, ∀ w ∈ word, (fold c == w) = eqIgnoreAsciiCaseChar c w

theorem folds_ascii : Folds asciiLowerChar := by
  refine ⟨isWhitespace_asciiLowerChar, fun c word hword w hw => ?_⟩
  rw [eqIgnoreAsciiCaseChar, (label_letters hword hw).2.2.2]

variable (low : Lowercase)

theorem folds_headD : Folds fun c => (low.toLowercase c).headD c := by
  have hmem : ∀ c, (low.toLowercase c).headD c ∈ low.toLowercase c := by
    intro c
    obtain ⟨d, rest, hlower⟩ := List.exists_cons_of_ne_nil (low.nonempty c)
    rw [hlower]
    exact List.mem_cons_self
  constructor
  · intro c
    cases hc : isWhitespace c with
    | true =>
      rw [low.space c hc]
      exact hc
    | false => exact low.noSpace c hc _ (hmem c)
  · intro c word hword w hw
    obtain ⟨hsmall, hi, hk, hself⟩ := label_letters hword hw
    rw [eqIgnoreAsciiCaseChar, hself]
    rcases Nat.lt_or_ge c.toNat 128 with hc | hc
    · rw [low.ascii c hc]
      rfl
    · -- no such character becomes a letter of the label, nor is one
      rw [asciiLowerChar_of_ge hc]
      have hne : (low.toLowercase c).headD c ≠ w := by
        rintro rfl
        exact (low.other c hc _ (hmem c) hsmall).elim hi hk
      have hne' : c ≠ w := by
        rintro rfl
        omega
      rw [beq_eq_false_iff_ne.mpr hne, beq_eq_false_iff_ne.mpr hne']

/-- Where the lower-case text is as long as the text, it is made character by character. -/
theorem flatMap_toLowercase (chars : List Char) :
    chars.length ≤ (chars.flatMap low.toLowercase).length ∧
      ((chars.flatMap low.toLowercase).length = chars.length →
        chars.flatMap low.toLowercase = chars.map fun c => (low.toLowercase c).headD c) := by
  induction chars with
  | nil => exact ⟨Nat.le_refl 0, fun _ => rfl⟩
  | cons c chars ih =>
    obtain ⟨hle, heq⟩ := ih
    obtain ⟨d, rest, hlower⟩ := List.exists_cons_of_ne_nil (low.nonempty c)
    rw [List.flatMap_cons, hlower, List.length_append, List.length_cons, List.length_cons]
    refine ⟨by omega, fun hlen => ?_⟩
    have hrest : rest = [] := List.eq_nil_of_length_eq_zero (by omega)
    rw [heq (by omega), List.map_cons, hlower, hrest]
    rfl

theorem exists_fold (chars : List Char) : ∃ fold, Folds fold ∧ lowered low chars = chars.map fold := by
  rw [lowered]
  split
  case isTrue h => exact ⟨_, folds_headD low, (flatMap_toLowercase low chars).2 h⟩
  case isFalse => exact ⟨_, folds_ascii, rfl⟩

/-- The two texts of the loop go side by side. -/
theorem stripLabelFrom_eq_scrub {fold : Char → Char} (hfold : Folds fold) (skip : Nat) (chars : List Char) :
    stripLabelFrom skip chars (chars.map fold) =
      Lib.scrub (matchPhraseLoose isWhitespace eqIgnoreAsciiCaseChar labelWords) labelReplacement.toList skip chars := by
  induction chars generalizing skip with
  | nil => cases skip <;> rfl
  | cons c chars ih =>
    cases skip with
    | succ skip => exact ih skip
    | zero =>
      have hmatch : matchMarker ((c :: chars).map fold) =
          (matchPhraseLoose isWhitespace eqIgnoreAsciiCaseChar labelWords (c :: chars)).map (List.map fold) :=
        matchPhraseLoose_map hfold.space hfold.letter
      rw [List.map_cons] at hmatch ⊢
      rw [stripLabelFrom, Lib.scrub, hmatch]
      cases matchPhraseLoose isWhitespace eqIgnoreAsciiCaseChar labelWords (c :: chars) with
      | none => exact congrArg (c :: ·) (ih 0)
      | some rest =>
        simp only [Option.map_some, List.length_map]
        rw [ih]

/-- **Stripping leaves no label.** -/
theorem stripLabel_eq_scrub (value : String) : (stripLabel low value).toList =
    Lib.scrub (matchPhraseLoose isWhitespace eqIgnoreAsciiCaseChar labelWords) labelReplacement.toList 0
      value.toList := by
  obtain ⟨fold, hfold, hlower⟩ := exists_fold low value.toList
  rw [stripLabel, String.toList_ofList, hlower, stripLabelFrom_eq_scrub hfold]

theorem clean_of_check {cs : List Char}
    (h : carries (matchPhraseLoose isWhitespace eqIgnoreAsciiCaseChar labelWords) cs = false) : Clean Label cs :=
  (carries_eq_false_iff reads_label).mp h

theorem clean_stripLabel (value : String) : Clean Label (stripLabel low value).toList := by
  have hscar : labelReplacement.toList = '[' :: ("trust-label-removed".toList ++ [']']) := by decide
  rw [stripLabel_eq_scrub, hscar]
  exact clean_scrub reads_label madeOf_label (by decide) (by decide) (clean_of_check (by decide)) 0 _

/-- A text without a label is left as it is. -/
theorem stripLabel_eq_self {value : String} (h : Clean Label value.toList) : stripLabel low value = value := by
  have hscar : labelReplacement.toList = '[' :: ("trust-label-removed".toList ++ [']']) := by decide
  rw [← String.toList_inj, stripLabel_eq_scrub, hscar]
  exact scrub_of_not_carries ((carries_eq_false_iff reads_label).mpr h)

theorem mem_stripLabel {value : String} {c : Char} (h : c ∈ (stripLabel low value).toList) :
    c ∈ labelReplacement.toList ∨ c ∈ value.toList := by
  rw [stripLabel_eq_scrub] at h
  exact mem_scrub h

end Label

/-! ## The boundary holds -/

section Boundary

variable (low : Lowercase)

theorem clean_clipWith {ending value : String} {max : Nat} {d : Char} {rest : List Char}
    (hending : ending.toList = d :: rest) (hd : ¬inLabel d = true) (hrest : Clean Label rest)
    (h : Clean Label value.toList) : Clean Label (clipWith ending value max).toList := by
  rw [clipWith]
  split
  · exact h
  · rw [String.toList_append, String.toList_ofList, hending]
    exact (clean_append_cons_iff madeOf_label hd).mpr ⟨h.mono (List.take_prefix max _).isInfix, hrest⟩

theorem clean_clip {value : String} {max : Nat} (h : Clean Label value.toList) :
    Clean Label (clip value max).toList :=
  @clean_clipWith _ _ _ '.' "..[truncated]".toList (by decide) (by decide) (clean_of_check (by decide)) h

theorem clean_clipId {value : String} {max : Nat} (h : Clean Label value.toList) :
    Clean Label (clipId value max).toList :=
  @clean_clipWith _ _ _ '.' "..+truncated".toList (by decide) (by decide) (clean_of_check (by decide)) h

theorem mem_clipWith {ending value : String} {max : Nat} {c : Char} (h : c ∈ (clipWith ending value max).toList) :
    c ∈ ending.toList ∨ c ∈ value.toList := by
  rw [clipWith] at h
  split at h
  · exact .inr h
  · rw [String.toList_append, String.toList_ofList, List.mem_append] at h
    exact h.symm.imp_right List.mem_of_mem_take

theorem toList_inGuillemets (text : String) : (inGuillemets text).toList = '«' :: (text.toList ++ ['»']) := by
  rw [inGuillemets, String.toList_append, String.toList_append]
  rfl

theorem clean_inGuillemets {text : String} (h : Clean Label text.toList) :
    Clean Label (inGuillemets text).toList := by
  rw [toList_inGuillemets]
  exact (clean_cons_iff madeOf_label (by decide)).mpr ((clean_concat_iff madeOf_label (by decide)).mpr h)

theorem guarded_inGuillemets {text : String} (h : '«' ∉ text.toList ∧ '»' ∉ text.toList) :
    Guarded (inGuillemets text) :=
  ⟨text.toList, toList_inGuillemets text, h⟩

theorem clean_line (v : String) (cap : Nat) : Clean Label (line low v cap).toList := by
  rw [line]
  exact clean_clip (clean_stripLabel low _)

/-- What `line` shows was in the text, but for blanks and what Rally puts in. -/
theorem mem_line {v : String} {cap : Nat} {c : Char} (h : c ∈ (line low v cap).toList) :
    c ∈ "...[truncated]".toList ∨ c ∈ labelReplacement.toList ∨ c = ' ' ∨ c ∈ v.toList := by
  rw [line] at h
  rcases mem_clipWith h with h | h
  · exact .inl h
  · rcases mem_stripLabel low h with h | h
    · exact .inr (.inl h)
    · rcases mem_join_splitWhitespace h with rfl | h
      · exact .inr (.inr (.inl rfl))
      · rw [String.toList_ofList] at h
        obtain ⟨d, hd, rfl⟩ := List.mem_map.mp h
        split
        · exact .inr (.inr (.inl rfl))
        · exact .inr (.inr (.inr hd))

theorem allowed_or_question {v : String} {c : Char} (h : c ∈ (scrub low v).toList) : allowed c = true ∨ c = '?' := by
  rw [scrub, String.toList_ofList] at h
  obtain ⟨d, -, rfl⟩ := List.mem_map.mp h
  split
  case isTrue hd => exact .inl hd
  case isFalse => exact .inr rfl

theorem clean_scrubbed (v : String) : Clean Label (scrub low v).toList := by
  rw [scrub, String.toList_ofList]
  refine clean_map madeOf_label (fun c hc => ?_) (clean_stripLabel low _)
  split at hc
  case isTrue h => exact if_pos h
  case isFalse => exact absurd hc (by decide)

theorem clean_ident (v : String) (cap : Nat) : Clean Label (ident low v cap).toList := by
  rw [ident]
  split
  · exact clean_of_check (by decide)
  · split
    · exact clean_clipId (clean_scrubbed low v)
    · exact clean_inGuillemets (clean_clipId (clean_scrubbed low v))

theorem clean_hostId (v : String) (cap : Nat) : Clean Label (hostId low v cap).toList := by
  rw [hostId]
  split
  · exact clean_of_check (by decide)
  · exact clean_clipId (clean_scrubbed low v)

theorem not_guillemet_of_allowed {c : Char} (h : allowed c = true ∨ c = '?') : c ≠ '«' ∧ c ≠ '»' := by
  constructor
  · rintro rfl
    exact absurd h (by decide)
  · rintro rfl
    exact absurd h (by decide)

/-- The characters of an identifier that is shown. -/
theorem mem_clipId_scrub {v : String} {cap : Nat} {c : Char} (h : c ∈ (clipId (scrub low v) cap).toList) :
    allowed c = true ∨ c = '?' := by
  rcases mem_clipWith h with h | h
  · have hall : ("...+truncated".toList.all allowed) = true := by decide
    exact .inl (List.all_eq_true.mp hall c h)
  · exact allowed_or_question low h

theorem guarded_prose (v : String) (cap : Nat) : Guarded (prose low v cap) := by
  rw [prose]
  have hnone : ∀ c ∈ (line low (String.ofList (v.toList.map fun c => if c = '«' || c = '»' then '"' else c)) cap).toList,
      c ≠ '«' ∧ c ≠ '»' := by
    intro c hc
    rcases mem_line low hc with h | h | rfl | h
    · have hall : ("...[truncated]".toList.all fun c => c != '«' && c != '»') = true := by decide
      simpa using List.all_eq_true.mp hall c h
    · have hall : (labelReplacement.toList.all fun c => c != '«' && c != '»') = true := by decide
      simpa using List.all_eq_true.mp hall c h
    · decide
    · rw [String.toList_ofList] at h
      obtain ⟨d, -, rfl⟩ := List.mem_map.mp h
      split
      · decide
      case isFalse hd => simpa using hd
  exact guarded_inGuillemets ⟨fun h => (hnone _ h).1 rfl, fun h => (hnone _ h).2 rfl⟩

theorem guarded_ident {v : String} {cap : Nat} (hne : scrub low v ≠ "") (hshape : isBareShape (scrub low v) = false) :
    Guarded (ident low v cap) := by
  have hnonempty : ¬(scrub low v).toList.isEmpty = true := by
    rw [List.isEmpty_iff, String.toList_eq_nil_iff]
    exact hne
  rw [ident, if_neg hnonempty]
  dsimp only
  rw [hshape, if_neg Bool.false_ne_true]
  refine guarded_inGuillemets ⟨fun h => ?_, fun h => ?_⟩
  · exact (not_guillemet_of_allowed (mem_clipId_scrub low h)).1 rfl
  · exact (not_guillemet_of_allowed (mem_clipId_scrub low h)).2 rfl

/-- **No text of a peer** comes out with the label, or out of its guillemets. -/
theorem boundary_holds (v : String) (cap : Nat) : Boundary low v cap where
  line := clean_line low v cap
  scrub := clean_scrubbed low v
  ident := clean_ident low v cap
  hostId := clean_hostId low v cap
  prose := clean_inGuillemets (clean_line low _ cap)
  prose_guarded := guarded_prose low v cap
  ident_guarded := guarded_ident low

end Boundary

end RallyPoint.PeerText
