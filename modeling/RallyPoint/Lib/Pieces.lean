/-
# RallyPoint.Lib.Pieces — what a split leaves and a join puts together.

Splitting at a character gives pieces without it; joining them with the character gives the text back
(`join_split`), and pieces without the character survive the way there and back (`split_join`). What is added at an
end of the text is added to the piece there.
-/
import RallyPoint.Lib.Str

namespace RallyPoint.Lib

/-! ## Characters -/

theorem splitChars_append (sep : Char) (xs ys : List Char) :
    splitChars sep (xs ++ sep :: ys) = splitChars sep xs ++ splitChars sep ys := by
  induction xs with
  | nil =>
    rw [List.nil_append, splitChars]
    cases hpieces : splitChars sep ys with
    | nil => exact absurd hpieces (splitChars_ne_nil sep ys)
    | cons piece rest => simp [splitChars, hpieces]
  | cons c cs ih =>
    rw [List.cons_append, splitChars, splitChars, ih]
    cases hpieces : splitChars sep cs with
    | nil => exact absurd hpieces (splitChars_ne_nil sep cs)
    | cons piece rest =>
      simp only [List.cons_append]
      split <;> rfl

/-- A character other than the separator lengthens the first piece. -/
theorem splitChars_cons {sep c : Char} (hc : c ≠ sep) (cs : List Char) :
    ∃ piece rest, splitChars sep cs = piece :: rest ∧ splitChars sep (c :: cs) = (c :: piece) :: rest := by
  cases hpieces : splitChars sep cs with
  | nil => exact absurd hpieces (splitChars_ne_nil sep cs)
  | cons piece rest => exact ⟨piece, rest, rfl, by simp [splitChars, hpieces, hc]⟩

/-- At the end it lengthens the last one. -/
theorem splitChars_snoc {sep c : Char} (hc : c ≠ sep) (cs : List Char) :
    ∃ front piece, splitChars sep cs = front ++ [piece] ∧ splitChars sep (cs ++ [c]) = front ++ [piece ++ [c]] := by
  induction cs with
  | nil => exact ⟨[], [], rfl, by simp [splitChars, hc]⟩
  | cons d cs ih =>
    obtain ⟨front, piece, hcs, hsnoc⟩ := ih
    rw [List.cons_append, splitChars, splitChars, hcs, hsnoc]
    cases front with
    | nil =>
      by_cases hd : d = sep
      · exact ⟨[[]], piece, by simp [hd], by simp [hd]⟩
      · exact ⟨[], d :: piece, by simp [hd], by simp [hd]⟩
    | cons first front =>
      by_cases hd : d = sep
      · exact ⟨[] :: first :: front, piece, by simp [hd], by simp [hd]⟩
      · exact ⟨(d :: first) :: front, piece, by simp [hd], by simp [hd]⟩

/-- A word without the separator stays in front of the first piece. -/
theorem splitChars_word {sep : Char} {pre : List Char} (hpre : sep ∉ pre) (cs : List Char) :
    ∃ piece rest, splitChars sep cs = piece :: rest ∧ splitChars sep (pre ++ cs) = (pre ++ piece) :: rest := by
  induction pre with
  | nil =>
    cases hpieces : splitChars sep cs with
    | nil => exact absurd hpieces (splitChars_ne_nil sep cs)
    | cons piece rest => exact ⟨piece, rest, rfl, hpieces⟩
  | cons c pre ih =>
    rw [List.mem_cons, not_or] at hpre
    obtain ⟨piece, rest, hcs, happend⟩ := ih hpre.2
    exact ⟨piece, rest, hcs, by simp [splitChars, happend, Ne.symm hpre.1]⟩

theorem splitChars_eq_singleton {sep : Char} {cs : List Char} (h : sep ∉ cs) : splitChars sep cs = [cs] := by
  obtain ⟨piece, rest, hnil, hpre⟩ := splitChars_word h []
  rw [splitChars] at hnil
  cases hnil
  simpa using hpre

theorem not_mem_of_mem_splitChars {sep : Char} {cs piece : List Char} (h : piece ∈ splitChars sep cs) :
    sep ∉ piece := by
  induction cs generalizing piece with
  | nil =>
    rw [splitChars, List.mem_singleton] at h
    rw [h]
    exact List.not_mem_nil
  | cons c cs ih =>
    by_cases hc : c = sep
    · rw [splitChars] at h
      cases hpieces : splitChars sep cs with
      | nil => exact absurd hpieces (splitChars_ne_nil sep cs)
      | cons first rest =>
        simp only [hpieces, if_pos hc, List.mem_cons] at h
        rcases h with rfl | h
        · exact List.not_mem_nil
        · exact ih (hpieces ▸ List.mem_cons.mpr h)
    · obtain ⟨first, rest, hcs, hcons⟩ := splitChars_cons hc cs
      rw [hcons, List.mem_cons] at h
      rcases h with rfl | h
      · rw [List.mem_cons, not_or]
        exact ⟨Ne.symm hc, ih (hcs ▸ List.mem_cons_self)⟩
      · exact ih (hcs ▸ List.mem_cons_of_mem _ h)

theorem mem_of_mem_splitChars {sep c : Char} {cs piece : List Char} (h : piece ∈ splitChars sep cs) (hc : c ∈ piece) :
    c ∈ cs := by
  induction cs generalizing piece with
  | nil =>
    rw [splitChars, List.mem_singleton] at h
    rwa [h] at hc
  | cons d cs ih =>
    by_cases hd : d = sep
    · have hsplit : splitChars sep (d :: cs) = [] :: splitChars sep cs := by
        rw [hd]
        exact splitChars_append sep [] cs
      rw [hsplit, List.mem_cons] at h
      rcases h with rfl | h
      · cases hc
      · exact List.mem_cons_of_mem d (ih h hc)
    · obtain ⟨first, rest, hcs, hcons⟩ := splitChars_cons hd cs
      rw [hcons, List.mem_cons] at h
      rcases h with rfl | h
      · rcases List.mem_cons.mp hc with rfl | hc
        · exact List.mem_cons_self
        · exact List.mem_cons_of_mem d (ih (hcs ▸ List.mem_cons_self) hc)
      · exact List.mem_cons_of_mem d (ih (hcs ▸ List.mem_cons_of_mem _ h) hc)

/-- A word at the end changes the last piece. -/
theorem splitChars_append_word {sep : Char} {word : List Char} (h : sep ∉ word) (cs : List Char) :
    ∃ front piece, splitChars sep cs = front ++ [piece] ∧ splitChars sep (cs ++ word) = front ++ [piece ++ word] := by
  induction word using List.reverseRecOn with
  | nil =>
    obtain ⟨front, piece, hcs⟩ := List.eq_nil_or_concat (splitChars sep cs) |>.resolve_left (splitChars_ne_nil sep cs)
    exact ⟨front, piece, by simpa using hcs, by simpa using hcs⟩
  | append_singleton word c ih =>
    rw [List.mem_append, not_or, List.mem_singleton] at h
    obtain ⟨front, piece, hcs, hword⟩ := ih h.1
    obtain ⟨front', piece', hcs', hsnoc⟩ := splitChars_snoc (Ne.symm h.2) (cs ++ word)
    rw [hword] at hcs'
    obtain ⟨rfl, hpiece⟩ := List.append_inj' hcs' rfl
    obtain rfl := List.singleton_inj.mp hpiece
    refine ⟨front, piece, hcs, ?_⟩
    rw [← List.append_assoc, hsnoc, List.append_assoc]

/-! ## Words -/

/-- The words of a text after the characters of the word it continues. -/
def wordsFrom (word : List Char) : List Char → List (List Char)
  | [] => if word = [] then [] else [word]
  | c :: cs =>
    if isWhitespace c then (if word = [] then wordsFrom [] cs else word :: wordsFrom [] cs)
    else wordsFrom (word ++ [c]) cs

/-- `str::split_whitespace`. -/
def splitWhitespace (s : String) : List String := (wordsFrom [] s.toList).map String.ofList

/-- A word ends with the white space after it. -/
theorem wordsFrom_append {word w rest : List Char} {c : Char} (hw : ∀ x ∈ w, isWhitespace x = false)
    (hne : word ++ w ≠ []) (hc : isWhitespace c = true) :
    wordsFrom word (w ++ c :: rest) = (word ++ w) :: wordsFrom [] rest := by
  induction w generalizing word with
  | nil =>
    rw [List.append_nil] at hne ⊢
    rw [List.nil_append, wordsFrom, if_pos hc, if_neg hne]
  | cons x w ih =>
    rw [List.forall_mem_cons] at hw
    have hlist : word ++ x :: w = (word ++ [x]) ++ w := by simp
    rw [List.cons_append, wordsFrom, if_neg (by simp [hw.1]), hlist]
    exact ih hw.2 (by simp)

/-- A text that is one word. -/
structure IsWord (s : String) : Prop where
  nonempty : s ≠ ""
  noBlank : ∀ c ∈ s.toList, isWhitespace c = false

theorem splitWhitespace_append {s t : String} {c : Char} (hs : IsWord s) (hc : isWhitespace c = true) :
    splitWhitespace (s ++ String.singleton c ++ t) = s :: splitWhitespace t := by
  have hchars : (s ++ String.singleton c ++ t).toList = s.toList ++ c :: t.toList := by
    simp [String.toList_append]
  have hne : [] ++ s.toList ≠ [] := fun h => hs.nonempty (String.toList_inj.mp h)
  rw [splitWhitespace, hchars, wordsFrom_append hs.noBlank hne hc, List.map_cons, List.nil_append,
    String.ofList_toList]
  rfl

/-- `str::lines`: what stands before each line feed, less one carriage return, and what stands behind the last one
unless that is nothing. -/
def lines (s : String) : List String :=
  (split '\n' s).dropLast.map (fun piece => (stripSuffix "\r" piece).getD piece) ++
    (split '\n' s).getLast?.toList.filter (· ≠ "")

/-! ## Texts -/

section Pieces

variable {sep : Char} {s t : String} {l m : List String}

theorem startsWith_iff {pre : String} : startsWith pre s = true ↔ ∃ rest, s = pre ++ rest := by
  rw [startsWith, List.isPrefixOf_iff_prefix]
  constructor
  · rintro ⟨rest, hrest⟩
    exact ⟨String.ofList rest, by rw [← String.toList_inj, String.toList_append, String.toList_ofList, hrest]⟩
  · rintro ⟨rest, rfl⟩
    exact ⟨rest.toList, (String.toList_append).symm⟩

/-- A separator parts the pieces before it from the pieces behind it. -/
theorem split_append_sep (sep : Char) (s t : String) :
    split sep (s ++ String.singleton sep ++ t) = split sep s ++ split sep t := by
  have hchars : (s ++ String.singleton sep ++ t).toList = s.toList ++ sep :: t.toList := by simp
  rw [split, hchars, splitChars_append, List.map_append]
  rfl

theorem split_of_notMem (h : sep ∉ s.toList) : split sep s = [s] := by
  rw [split, splitChars_eq_singleton h, List.map_singleton, String.ofList_toList]

theorem split_ne_nil (sep : Char) (s : String) : split sep s ≠ [] := by
  rw [split, Ne, List.map_eq_nil_iff]
  exact splitChars_ne_nil sep s.toList

/-- No piece has a separator in it. -/
theorem notMem_of_mem_split {piece : String} (h : piece ∈ split sep s) : sep ∉ piece.toList := by
  obtain ⟨cs, hcs, rfl⟩ := List.mem_map.mp h
  rw [String.toList_ofList]
  exact not_mem_of_mem_splitChars hcs

/-- What stands in front without a separator stays with the first piece. -/
theorem mem_split_append {pre piece : String} (hpre : sep ∉ pre.toList) (h : piece ∈ split sep (pre ++ s)) :
    piece ∈ split sep s ∨ ∃ rest, piece = pre ++ rest := by
  obtain ⟨first, rest, hs, happend⟩ := splitChars_word hpre s.toList
  rw [split, String.toList_append, happend, List.map_cons, List.mem_cons] at h
  rcases h with rfl | h
  · exact .inr ⟨String.ofList first, by simp⟩
  · refine .inl ?_
    rw [split, hs, List.map_cons]
    exact List.mem_cons_of_mem _ h

theorem join_cons_of_ne_nil {sep : String} (h : l ≠ []) : join sep (s :: l) = s ++ sep ++ join sep l := by
  cases l with
  | nil => exact absurd rfl h
  | cons _ _ => rfl

theorem join_append {sep : String} (hl : l ≠ []) (hm : m ≠ []) :
    join sep (l ++ m) = join sep l ++ sep ++ join sep m := by
  induction l with
  | nil => exact absurd rfl hl
  | cons s l ih =>
    by_cases h : l = []
    · subst h
      exact join_cons_of_ne_nil hm
    · rw [List.cons_append, join_cons_of_ne_nil (by simp [h]), ih h, join_cons_of_ne_nil h]
      simp only [String.append_assoc]

/-- Pieces that were joined are found again. -/
theorem split_join (hne : l ≠ []) (h : ∀ piece ∈ l, sep ∉ piece.toList) :
    split sep (join (String.singleton sep) l) = l := by
  induction l with
  | nil => exact absurd rfl hne
  | cons s l ih =>
    rw [List.forall_mem_cons] at h
    by_cases hl : l = []
    · subst hl
      exact split_of_notMem h.1
    · rw [join_cons_of_ne_nil hl, split_append_sep, split_of_notMem h.1, ih hl h.2, List.singleton_append]

/-- Fewer pieces make a part of the text. -/
theorem join_sublist {sep : String} (h : l.Sublist m) : (join sep l).toList.Sublist (join sep m).toList := by
  induction h with
  | slnil => exact .refl _
  | @cons l m s _ ih =>
    refine ih.trans ?_
    by_cases hm : m = []
    · subst hm
      exact List.nil_sublist _
    · rw [join_cons_of_ne_nil hm, String.toList_append]
      exact List.sublist_append_right _ _
  | @cons_cons l m s hsub ih =>
    by_cases hl : l = []
    · subst hl
      by_cases hm : m = []
      · subst hm
        exact .refl _
      · rw [join_cons_of_ne_nil hm, String.append_assoc, String.toList_append]
        exact List.sublist_append_left _ _
    · have hm : m ≠ [] := fun hm => hl (List.sublist_nil.mp (hm ▸ hsub))
      rw [join_cons_of_ne_nil hl, join_cons_of_ne_nil hm, @String.toList_append (s ++ sep),
        @String.toList_append (s ++ sep)]
      exact (List.Sublist.refl _).append ih

/-- A text that begins with white space. -/
def startsBlank (s : String) : Bool := s.toList.head?.any isWhitespace

/-- A text that ends with white space. -/
def endsBlank (s : String) : Bool := s.toList.getLast?.any isWhitespace

theorem trim_sublist (s : String) : (trim s).toList.Sublist s.toList := by
  rw [trim, String.toList_ofList]
  have hend := (List.dropWhile_sublist (l := (s.toList.dropWhile isWhitespace).reverse) isWhitespace).reverse
  rw [List.reverse_reverse] at hend
  exact hend.trans (List.dropWhile_sublist _)

/-- Trimming changes exactly the texts with white space at an end. -/
theorem trim_eq_self_iff : trim s = s ↔ startsBlank s = false ∧ endsBlank s = false := by
  have hdrop : ∀ cs : List Char, cs.dropWhile isWhitespace = cs ↔ cs.head?.any isWhitespace = false := by
    intro cs
    cases cs with
    | nil => simp
    | cons c cs =>
      cases hc : isWhitespace c with
      | false => simp [hc]
      | true =>
        have hlen := (List.dropWhile_sublist (l := cs) isWhitespace).length_le
        simp only [List.dropWhile_cons, hc, if_true, List.head?_cons, Option.any_some, Bool.true_eq_false,
          iff_false]
        intro heq
        rw [heq, List.length_cons] at hlen
        omega
  rw [startsBlank, endsBlank, ← hdrop, ← List.head?_reverse, ← hdrop]
  constructor
  · intro h
    have hlist : ((s.toList.dropWhile isWhitespace).reverse.dropWhile isWhitespace).reverse = s.toList := by
      rw [← String.toList_ofList (l := ((s.toList.dropWhile isWhitespace).reverse.dropWhile isWhitespace).reverse)]
      exact congrArg String.toList h
    -- nothing is lost in either pass, since nothing is lost in both
    have hone := List.dropWhile_sublist (l := s.toList) isWhitespace
    have htwo := List.dropWhile_sublist (l := (s.toList.dropWhile isWhitespace).reverse) isWhitespace
    have hlen := congrArg List.length hlist
    rw [List.length_reverse] at hlen
    have hstart : s.toList.dropWhile isWhitespace = s.toList := by
      refine hone.eq_of_length_le ?_
      have := htwo.length_le
      rw [List.length_reverse] at this
      omega
    rw [hstart] at hlist
    exact ⟨hstart, by rw [← List.reverse_inj, List.reverse_reverse, hlist]⟩
  · rintro ⟨hstart, hend⟩
    rw [trim, hstart, hend, List.reverse_reverse, String.ofList_toList]

/-- A text without white space is trimmed. -/
theorem trim_of_noBlank (h : ∀ c ∈ s.toList, isWhitespace c = false) : trim s = s := by
  rw [trim_eq_self_iff, startsBlank, endsBlank]
  constructor
  · cases hhead : s.toList.head? with
    | none => rfl
    | some c => exact h c (List.mem_of_mem_head? hhead)
  · cases hlast : s.toList.getLast? with
    | none => rfl
    | some c => exact h c (List.mem_of_mem_getLast? hlast)

/-- No white space stands in a printed number. -/
theorem noBlank_toString (n : Nat) : ∀ c ∈ (toString n).toList, isWhitespace c = false := by
  have hlist : (toString n).toList = Nat.toDigits 10 n := Nat.toList_repr
  intro c hc
  have hdigit : c.isDigit = true := Nat.isDigit_of_mem_toDigits (by decide) (by decide) (hlist ▸ hc)
  have hcodes : (whitespaceCodes.all fun n => !(Char.ofNat n).isDigit) = true := by decide
  by_contra hspace
  have hmem : c.toNat ∈ whitespaceCodes := List.contains_iff_mem.mp (by simpa [isWhitespace] using hspace)
  have hno := List.all_eq_true.mp hcodes c.toNat hmem
  rw [Char.ofNat_toNat, hdigit] at hno
  cases hno

theorem isWord_toString (n : Nat) : IsWord (toString n) where
  nonempty := by
    intro h
    have hlist : (toString n).toList = Nat.toDigits 10 n := Nat.toList_repr
    rw [h] at hlist
    exact Nat.toDigits_ne_nil hlist.symm
  noBlank := noBlank_toString n

/-- A blank in front is trimmed off. -/
theorem trim_blank_append (s : String) : trim (" " ++ s) = trim s := by
  rw [trim, trim, String.toList_append]
  exact congrArg _ (congrArg (fun cs => (List.dropWhile isWhitespace (List.reverse cs)).reverse)
    (List.dropWhile_cons_of_pos (by decide)))

theorem startsBlank_append (s : String) (hs : s ≠ "") (t : String) : startsBlank (s ++ t) = startsBlank s := by
  have hlist : s.toList ≠ [] := fun h => hs (String.toList_inj.mp h)
  rw [startsBlank, startsBlank, String.toList_append, List.head?_append_of_ne_nil _ hlist]

theorem endsBlank_append (s t : String) (ht : t ≠ "") : endsBlank (s ++ t) = endsBlank t := by
  have hlist : t.toList ≠ [] := fun h => ht (String.toList_inj.mp h)
  rw [endsBlank, endsBlank, String.toList_append, List.getLast?_append_of_ne_nil _ hlist]

/-- Joined, nonempty pieces begin as the first of them does. -/
theorem startsBlank_join {sep : String} (h : ∀ piece ∈ l, piece ≠ "") :
    startsBlank (join sep l) = l.head?.any startsBlank := by
  cases l with
  | nil => rfl
  | cons s l =>
    by_cases hl : l = []
    · subst hl
      rfl
    · rw [join_cons_of_ne_nil hl, String.append_assoc, startsBlank_append s (h s List.mem_cons_self)]
      rfl

/-- Joined, nonempty pieces end as the last of them does. -/
theorem endsBlank_join {sep : String} (h : ∀ piece ∈ l, piece ≠ "") :
    endsBlank (join sep l) = l.getLast?.any endsBlank := by
  rcases List.eq_nil_or_concat l with rfl | ⟨init, s, rfl⟩
  · rfl
  · rw [List.concat_eq_append, List.getLast?_concat, Option.any_some]
    by_cases hinit : init = []
    · subst hinit
      rfl
    · rw [join_append hinit (by simp)]
      exact endsBlank_append _ s (h s (by simp))

end Pieces

end RallyPoint.Lib
