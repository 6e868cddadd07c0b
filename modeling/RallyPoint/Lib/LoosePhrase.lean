/-
# RallyPoint.Lib.LoosePhrase — phrases whose words may touch.

The matcher here needs no white space between two words. What it reads are the stretches of `Spelled` with `least = 0`.
A phrase runs across a piece of text less often than its characters suggest: where white space is crossed, the whole
last word stands behind it, and where it begins, the first character of the first word does. `joint` is that as a
computation: the text between two others that a phrase of theirs cannot cross.
-/
import RallyPoint.Lib.Phrase

namespace RallyPoint.Lib

section Matching

variable {α : Type} (isSpace : α → Bool) (same : α → α → Bool)

/-- Any white space and a word, again and again. -/
def matchWordsLoose : List (List α) → List α → Option (List α)
  | [], cs => some cs
  | word :: words, cs => (matchWord same word (cs.dropWhile isSpace)).bind (matchWordsLoose words)

/-- Words with any white space between them stand at the front. -/
def matchPhraseLoose : List (List α) → List α → Option (List α)
  | [], cs => some cs
  | word :: words, cs => (matchWord same word cs).bind (matchWordsLoose isSpace same words)

variable {isSpace same} {words : List (List α)} {word cs rest : List α}

theorem matchWordsLoose_eq_some_iff (h : Solid isSpace same words) :
    matchWordsLoose isSpace same words cs = some rest ↔ ∃ m, SpelledRest isSpace same 0 words m ∧ cs = m ++ rest := by
  induction words generalizing cs with
  | nil =>
    constructor
    · intro hcs
      exact ⟨[], rfl, Option.some.inj hcs⟩
    · rintro ⟨m, rfl, rfl⟩
      rfl
  | cons word words ih =>
    rw [matchWordsLoose, Option.bind_eq_some_iff]
    constructor
    · rintro ⟨behind, hword, hrest⟩
      obtain ⟨spelled, hspelled, hbehind⟩ := matchWord_eq_some_iff.mp hword
      obtain ⟨m, hm, rfl⟩ := (ih h.tail).mp hrest
      have hsplit : cs.takeWhile isSpace ++ cs.dropWhile isSpace = cs := List.takeWhile_append_dropWhile
      refine ⟨cs.takeWhile isSpace ++ (spelled ++ m), ⟨_, spelled, m, rfl, Nat.zero_le _, fun c hc => ?_, hspelled,
        hm⟩, ?_⟩
      · exact List.mem_takeWhile_imp hc
      · rw [List.append_assoc, List.append_assoc, ← hbehind, hsplit]
    · rintro ⟨_, ⟨space, spelled, m, rfl, -, hspace, hspelled, hm⟩, rfl⟩
      refine ⟨m ++ rest, matchWord_eq_some_iff.mpr ⟨spelled, hspelled, ?_⟩, (ih h.tail).mpr ⟨m, hm, rfl⟩⟩
      rw [List.append_assoc, List.append_assoc]
      exact dropWhile_space h hspace hspelled

/-- **The loose matcher of a phrase** answers exactly where it stands. -/
theorem reads_matchPhraseLoose (h : Solid isSpace same words) :
    Reads (matchPhraseLoose isSpace same words) (Spelled isSpace same 0 words) := by
  intro cs rest
  cases words with
  | nil =>
    constructor
    · intro hcs
      exact ⟨[], rfl, Option.some.inj hcs⟩
    · rintro ⟨m, rfl, rfl⟩
      rfl
  | cons word words =>
    rw [matchPhraseLoose, Option.bind_eq_some_iff]
    constructor
    · rintro ⟨behind, hword, hrest⟩
      obtain ⟨spelled, hspelled, rfl⟩ := matchWord_eq_some_iff.mp hword
      obtain ⟨m, hm, rfl⟩ := (matchWordsLoose_eq_some_iff h.tail).mp hrest
      exact ⟨spelled ++ m, ⟨spelled, m, rfl, hspelled, hm⟩, by rw [List.append_assoc]⟩
    · rintro ⟨_, ⟨spelled, m, rfl, hspelled, hm⟩, rfl⟩
      refine ⟨m ++ rest, matchWord_eq_some_iff.mpr ⟨spelled, hspelled, by rw [List.append_assoc]⟩, ?_⟩
      exact (matchWordsLoose_eq_some_iff h.tail).mpr ⟨m, hm, rfl⟩

end Matching

/-! ## Folded texts -/

section Folded

variable {α : Type} {fold : α → α} {isSpace : α → Bool} {same same' : α → α → Bool} {words : List (List α)}
  {word cs : List α}

/-- To match a folded text is to match the text with the folding taken into the comparison. -/
theorem matchWord_map (hsame : ∀ c, ∀ w ∈ word, same (fold c) w = same' c w) :
    matchWord same word (cs.map fold) = (matchWord same' word cs).map (List.map fold) := by
  induction word generalizing cs with
  | nil => rfl
  | cons w word ih =>
    cases cs with
    | nil => rfl
    | cons c cs =>
      rw [List.map_cons, matchWord, matchWord, hsame c w List.mem_cons_self]
      split
      · exact ih fun c w hw => hsame c w (List.mem_cons_of_mem _ hw)
      · rfl

theorem matchWordsLoose_map (hspace : ∀ c, isSpace (fold c) = isSpace c)
    (hsame : ∀ c, ∀ word ∈ words, ∀ w ∈ word, same (fold c) w = same' c w) :
    matchWordsLoose isSpace same words (cs.map fold) =
      (matchWordsLoose isSpace same' words cs).map (List.map fold) := by
  induction words generalizing cs with
  | nil => rfl
  | cons word words ih =>
    have hdrop : (cs.map fold).dropWhile isSpace = (cs.dropWhile isSpace).map fold := by
      rw [List.dropWhile_map]
      exact congrArg (fun p => (cs.dropWhile p).map fold) (funext hspace)
    rw [matchWordsLoose, matchWordsLoose, hdrop, matchWord_map fun c => hsame c word List.mem_cons_self]
    cases matchWord same' word (cs.dropWhile isSpace) with
    | none => rfl
    | some behind => exact ih fun c v hv => hsame c v (List.mem_cons_of_mem _ hv)

theorem matchPhraseLoose_map (hspace : ∀ c, isSpace (fold c) = isSpace c)
    (hsame : ∀ c, ∀ word ∈ words, ∀ w ∈ word, same (fold c) w = same' c w) :
    matchPhraseLoose isSpace same words (cs.map fold) =
      (matchPhraseLoose isSpace same' words cs).map (List.map fold) := by
  cases words with
  | nil => rfl
  | cons word words =>
    rw [matchPhraseLoose, matchPhraseLoose, matchWord_map fun c => hsame c word List.mem_cons_self]
    cases matchWord same' word cs with
    | none => rfl
    | some behind => exact matchWordsLoose_map hspace fun c v hv => hsame c v (List.mem_cons_of_mem _ hv)

end Folded

/-! ## Texts side by side -/

section Joints

variable {α : Type} {isSpace : α → Bool} {same : α → α → Bool} {least : Nat} {word : List α} {words : List (List α)}
  {cs xs ys m t : List α}

/-- A phrase ends with its last word. -/
theorem lastWord_of_spelledRest (hne : words ≠ []) (h : SpelledRest isSpace same least words m) :
    ∃ front spelled, m = front ++ spelled ∧
      List.Forall₂ (fun c w => same c w = true) spelled (words.getLast hne) := by
  induction words generalizing m with
  | nil => exact absurd rfl hne
  | cons word words ih =>
    obtain ⟨space, spelled, rest, rfl, -, -, hspelled, hrest⟩ := h
    by_cases hwords : words = []
    · subst hwords
      obtain rfl := hrest
      exact ⟨space, spelled, by rw [List.append_nil], hspelled⟩
    · obtain ⟨front, last, rfl, hlast⟩ := ih hwords hrest
      exact ⟨space ++ (spelled ++ front), last, by simp only [List.append_assoc], by
        rwa [List.getLast_cons hwords]⟩

theorem lastWord_of_spelled (h : Spelled isSpace same least (word :: words) m) :
    ∃ front spelled, m = front ++ spelled ∧ List.Forall₂ (fun c w => same c w = true) spelled
      ((word :: words).getLast (List.cons_ne_nil word words)) := by
  obtain ⟨spelled, rest, rfl, hspelled, hrest⟩ := h
  by_cases hwords : words = []
  · subst hwords
    obtain rfl := hrest
    exact ⟨[], spelled, by rw [List.append_nil, List.nil_append], hspelled⟩
  · obtain ⟨front, last, rfl, hlast⟩ := lastWord_of_spelledRest hwords hrest
    exact ⟨spelled ++ front, last, by rw [List.append_assoc], by rwa [List.getLast_cons hwords]⟩

/-- A list without a separator ends a text when it ends the text's last piece. -/
theorem suffix_append_cons {p : List α} {d : α} (hd : d ∉ p) (h : p <:+ xs ++ d :: ys) : p <:+ ys := by
  rw [← List.reverse_prefix] at h ⊢
  rw [List.reverse_append, List.reverse_cons, List.append_assoc, List.singleton_append] at h
  exact (prefix_append_cons_iff (by simpa using hd)).mp h

/-- **White space and a text without the first character of the last word** are in no phrase that begins before. -/
theorem barred_space_cons (h : Solid isSpace same (word :: words)) {d w : α} {last : List α}
    (hlast : (word :: words).getLast (List.cons_ne_nil word words) = w :: last) (hd : isSpace d = true)
    (hys : ∀ c ∈ ys, same c w = false) : Barred (Spelled isSpace same least (word :: words)) (d :: ys) := by
  rintro xs hxs m hm ⟨before, after, heq⟩
  obtain ⟨front, spelled, rfl, hspelled⟩ := lastWord_of_spelled hm
  have hmem : (word :: words).getLast (List.cons_ne_nil word words) ∈ word :: words := List.getLast_mem _
  -- the last word has no white space, and begins with a character that is not behind it
  have hnospace : d ∉ spelled := by
    intro hin
    obtain ⟨v, hv, hsame⟩ := exists_same hspelled d hin
    rw [h.noSpace _ hmem v hv d hsame] at hd
    cases hd
  rw [hlast] at hspelled
  cases hspelled with
  | @cons c _ spelled _ hsame hrest =>
    rcases List.append_eq_append_iff.mp heq with ⟨rest, rfl, hrest'⟩ | ⟨rest, hfront, hafter⟩
    · exact hxs _ hm ⟨before, rest, by rw [List.append_assoc]⟩
    · cases rest with
      | nil =>
        rw [List.append_nil] at hfront
        exact hxs _ hm ⟨before, [], by rw [hfront, List.append_nil]⟩
      | cons e rest =>
        obtain ⟨rfl, hys'⟩ := List.cons.inj hafter
        have hsuffix : c :: spelled <:+ xs ++ d :: rest := by
          rw [← hfront]
          exact (List.suffix_append front _).trans (List.suffix_append before _)
        have hin := (suffix_append_cons hnospace hsuffix).subset List.mem_cons_self
        have hno := hys c (hys' ▸ List.mem_append_left _ hin)
        rw [hsame] at hno
        cases hno

/-- A text without the first character of the first word, in front of one without a phrase. -/
theorem clean_append_of_opens {w : α} (hxs : ∀ c ∈ xs, same c w = false)
    (hys : Clean (Spelled isSpace same least ((w :: word) :: words)) ys) :
    Clean (Spelled isSpace same least ((w :: word) :: words)) (xs ++ ys) := by
  induction xs with
  | nil => exact hys
  | cons d xs ih =>
    rw [List.forall_mem_cons] at hxs
    intro m hm hpart
    rcases List.infix_cons_iff.mp hpart with hpre | hpart
    · obtain ⟨spelled, rest, rfl, hspelled, -⟩ := hm
      cases hspelled with
      | @cons c _ spelled _ hsame _ =>
        have hcd : c = d := (List.cons_prefix_cons.mp hpre).1
        rw [hcd, hxs.1] at hsame
        cases hsame
    · exact ih hxs.2 m hm hpart

/-- Up to its first character that is in no phrase, a text is nothing, or white space and then nothing the last word
could begin with. -/
def opensApart (isSpace : α → Bool) (same : α → α → Bool) (words : List (List α)) (w : α) (t : List α) : Bool :=
  match t.takeWhile (inPhrase isSpace same words) with
  | [] => true
  | s :: front => isSpace s && front.all fun c => !same c w

/-- Behind its last character that is in no phrase, a text has nothing the first word could begin with. -/
def closesApart (isSpace : α → Bool) (same : α → α → Bool) (words : List (List α)) (w : α) (t : List α) : Bool :=
  (t.rtakeWhile (inPhrase isSpace same words)).all fun c => !same c w

variable {f l : α} {first last : List α}

/-- What follows such a text is cut off at its last character that is in no phrase. -/
theorem sealed_of_closes (hout : t.any (fun c => !inPhrase isSpace same ((f :: first) :: words) c) = true)
    (hcloses : closesApart isSpace same ((f :: first) :: words) f t = true)
    (ht : Clean (Spelled isSpace same least ((f :: first) :: words)) t) :
    Sealed (Spelled isSpace same least ((f :: first) :: words)) t := by
  obtain ⟨o, ho, hoout⟩ := List.any_eq_true.mp hout
  rw [Bool.not_eq_true'] at hoout
  intro ys hys
  have hne : t.rdropWhile (inPhrase isSpace same ((f :: first) :: words)) ≠ [] := by
    intro hnil
    rw [List.rdropWhile_eq_nil_iff] at hnil
    rw [hnil o ho] at hoout
    cases hoout
  have hsplit := List.rdropWhile_append_rtakeWhile (p := inPhrase isSpace same ((f :: first) :: words)) (l := t)
  have hend := List.rdropWhile_last_not (inPhrase isSpace same ((f :: first) :: words)) t hne
  rw [← List.dropLast_append_getLast hne, List.append_assoc, List.singleton_append] at hsplit
  rw [← hsplit, List.append_assoc, List.cons_append]
  refine (clean_append_cons_iff (madeOf_spelled (List.cons_ne_nil f first)) hend).mpr
    ⟨ht.mono ⟨[], _, by rw [List.nil_append, hsplit]⟩, clean_append_of_opens (fun c hc => ?_) hys⟩
  simpa using List.all_eq_true.mp hcloses c hc

/-- **A text that keeps its neighbours apart.** -/
theorem tight_of_apart (h : Solid isSpace same ((f :: first) :: words))
    (hlast : ((f :: first) :: words).getLast (List.cons_ne_nil (f :: first) words) = l :: last)
    (hout : t.any (fun c => !inPhrase isSpace same ((f :: first) :: words) c) = true)
    (hopens : opensApart isSpace same ((f :: first) :: words) l t = true)
    (hcloses : closesApart isSpace same ((f :: first) :: words) f t = true)
    (ht : Clean (Spelled isSpace same least ((f :: first) :: words)) t) :
    Tight (Spelled isSpace same least ((f :: first) :: words)) t := by
  have hmade : MadeOf (fun c => inPhrase isSpace same ((f :: first) :: words) c = true)
      (Spelled isSpace same least ((f :: first) :: words)) := madeOf_spelled (List.cons_ne_nil f first)
  intro xs ys hxs hys
  have hbehind := sealed_of_closes hout hcloses ht ys hys
  -- what precedes the text is cut off at its first such character
  have hne : t.dropWhile (inPhrase isSpace same ((f :: first) :: words)) ≠ [] := by
    obtain ⟨o, ho, hoout⟩ := List.any_eq_true.mp hout
    intro hnil
    rw [List.dropWhile_eq_nil_iff] at hnil
    rw [hnil o ho] at hoout
    cases hoout
  obtain ⟨d, rest, hrest⟩ := List.exists_cons_of_ne_nil hne
  have hd : ¬inPhrase isSpace same ((f :: first) :: words) d = true := by
    have hhead := List.head_dropWhile_not (inPhrase isSpace same ((f :: first) :: words)) hne
    simpa [hrest] using hhead
  have hsplit := List.takeWhile_append_dropWhile (p := inPhrase isSpace same ((f :: first) :: words)) (l := t)
  rw [hrest] at hsplit
  rw [← hsplit, List.append_assoc, List.cons_append] at hbehind ⊢
  rw [← List.append_assoc]
  refine (clean_append_cons_iff hmade hd).mpr ⟨?_, ((clean_append_cons_iff hmade hd).mp hbehind).2⟩
  rw [opensApart] at hopens
  cases hfront : t.takeWhile (inPhrase isSpace same ((f :: first) :: words)) with
  | nil => rwa [List.append_nil]
  | cons s front =>
    rw [hfront] at hopens
    obtain ⟨hs, hno⟩ := Bool.and_eq_true_iff.mp hopens
    refine barred_space_cons h hlast hs (fun c hc => ?_) xs hxs
    simpa using List.all_eq_true.mp hno c hc

end Joints

end RallyPoint.Lib
