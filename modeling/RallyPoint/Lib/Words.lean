/-
# RallyPoint.Lib.Words — the words of a text, and texts that are made of them.

Splitting at white space and joining with blanks gives a text back when its white space is single blanks between words.
That is a run over the characters (`spacing`), so it is found out piece by piece.
-/
import RallyPoint.Lib.Pieces

namespace RallyPoint.Lib

section Words

variable {word w cs : List Char} {c : Char} {values : List String} {sep : String}

theorem mem_of_mem_wordsFrom (hw : w ∈ wordsFrom word cs) (hc : c ∈ w) : c ∈ word ∨ c ∈ cs := by
  induction cs generalizing word with
  | nil =>
    rw [wordsFrom] at hw
    split at hw
    · cases hw
    · obtain rfl := List.mem_singleton.mp hw
      exact .inl hc
  | cons d cs ih =>
    rw [wordsFrom] at hw
    split at hw
    · split at hw
      · exact .inr (List.mem_cons_of_mem d ((ih hw).resolve_left (List.not_mem_nil)))
      · rcases List.mem_cons.mp hw with rfl | hw
        · exact .inl hc
        · exact .inr (List.mem_cons_of_mem d ((ih hw).resolve_left (List.not_mem_nil)))
    · rcases ih hw with h | h
      · rcases List.mem_append.mp h with h | h
        · exact .inl h
        · exact .inr (List.mem_singleton.mp h ▸ List.mem_cons_self)
      · exact .inr (List.mem_cons_of_mem d h)

theorem mem_join (h : c ∈ (join sep values).toList) : c ∈ sep.toList ∨ ∃ v ∈ values, c ∈ v.toList := by
  induction values with
  | nil => cases h
  | cons v values ih =>
    cases values with
    | nil => exact .inr ⟨v, List.mem_cons_self, h⟩
    | cons w values =>
      rw [join, String.toList_append, String.toList_append, List.mem_append, List.mem_append] at h
      · rcases h with (h | h) | h
        · exact .inr ⟨v, List.mem_cons_self, h⟩
        · exact .inl h
        · rcases ih h with h | ⟨u, hu, hc⟩
          · exact .inl h
          · exact .inr ⟨u, List.mem_cons_of_mem v hu, hc⟩
      · exact fun h => List.cons_ne_nil w values h

/-- What is left of a text when its words are put together again has a blank or a character of the text. -/
theorem mem_join_splitWhitespace {s : String} (h : c ∈ (join " " (splitWhitespace s)).toList) :
    c = ' ' ∨ c ∈ s.toList := by
  rcases mem_join h with h | ⟨v, hv, hc⟩
  · exact .inl (List.mem_singleton.mp h)
  · obtain ⟨w, hw, rfl⟩ := List.mem_map.mp hv
    rw [String.toList_ofList] at hc
    exact .inr ((mem_of_mem_wordsFrom hw hc).resolve_left (List.not_mem_nil))

/-! ## Single blanks -/

/-- One character of a run that stops at white space other than a blank behind a word. -/
def spacingStep (blank : Bool) (c : Char) : Option Bool :=
  if isWhitespace c then (if blank || c != ' ' then none else some true) else some false

/-- Whether the text ends with a blank, or begins, when its white space is single blanks. -/
def spacing (blank : Bool) (cs : List Char) : Option Bool := cs.foldlM spacingStep blank

@[simp] theorem spacing_nil (blank : Bool) : spacing blank [] = some blank := rfl

theorem spacing_append (blank : Bool) (xs ys : List Char) :
    spacing blank (xs ++ ys) = (spacing blank xs).bind fun blank => spacing blank ys := List.foldlM_append

theorem spacing_cons_word (blank : Bool) (hc : isWhitespace c = false) (cs : List Char) :
    spacing blank (c :: cs) = spacing false cs := by
  rw [spacing, List.foldlM_cons, spacingStep, if_neg (by simp [hc])]
  rfl

/-- A word may stand anywhere. -/
theorem spacing_word (blank : Bool) (hcs : ∀ c ∈ cs, isWhitespace c = false) (hne : cs ≠ []) :
    spacing blank cs = some false := by
  induction cs generalizing blank with
  | nil => exact absurd rfl hne
  | cons c cs ih =>
    rw [List.forall_mem_cons] at hcs
    rw [spacing_cons_word blank hcs.1]
    by_cases hcs' : cs = []
    · rw [hcs']
      rfl
    · exact ih false hcs.2 hcs'

theorem spacing_cons_blank {blank last : Bool} (hc : isWhitespace c = true) (h : spacing blank (c :: cs) = some last) :
    blank = false ∧ c = ' ' ∧ spacing true cs = some last := by
  rw [spacing, List.foldlM_cons, spacingStep, if_pos hc] at h
  by_cases hstop : (blank || c != ' ') = true
  · rw [if_pos hstop] at h
    cases h
  · rw [if_neg hstop] at h
    simp only [Bool.or_eq_true, bne_iff_ne, not_or, Bool.not_eq_true, not_not] at hstop
    exact ⟨hstop.1, hstop.2, h⟩

/-- The words of a text behind a word of theirs. -/
theorem join_wordsFrom (h : spacing word.isEmpty cs = some false) :
    (join " " ((wordsFrom word cs).map String.ofList)).toList = word ++ cs ∧ wordsFrom word cs ≠ [] := by
  induction cs generalizing word with
  | nil =>
    have hword : word ≠ [] := by
      rintro rfl
      cases h
    rw [wordsFrom, if_neg hword]
    exact ⟨by rw [List.map_singleton, join, String.toList_ofList, List.append_nil], List.cons_ne_nil _ _⟩
  | cons c cs ih =>
    cases hc : isWhitespace c with
    | true =>
      obtain ⟨hword, rfl, hrest⟩ := spacing_cons_blank hc h
      rw [List.isEmpty_eq_false_iff] at hword
      obtain ⟨hjoin, hne⟩ := @ih [] hrest
      rw [wordsFrom, if_pos hc, if_neg hword]
      refine ⟨?_, List.cons_ne_nil _ _⟩
      rw [List.map_cons, join, String.toList_append, String.toList_append, String.toList_ofList, hjoin,
        List.append_assoc]
      · rfl
      · exact fun hnil => hne (List.map_eq_nil_iff.mp hnil)
    | false =>
      rw [spacing_cons_word _ hc] at h
      have hword : (word ++ [c]).isEmpty = false := List.isEmpty_eq_false_iff.mpr (by simp)
      obtain ⟨hjoin, hne⟩ := @ih (word ++ [c]) (hword ▸ h)
      rw [wordsFrom, if_neg (by simp [hc])]
      exact ⟨by rw [hjoin, List.append_assoc, List.singleton_append], hne⟩

/-- **A text with single blanks between its words** is its words, put together again. -/
theorem join_splitWhitespace (h : spacing true cs = some false) :
    join " " (splitWhitespace (String.ofList cs)) = String.ofList cs := by
  have hjoin := (@join_wordsFrom [] cs h).1
  rw [← String.toList_inj, splitWhitespace, String.toList_ofList, hjoin, List.nil_append]

end Words

end RallyPoint.Lib
