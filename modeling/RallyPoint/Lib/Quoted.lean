/-
# RallyPoint.Lib.Quoted — documents that quote other texts.

A document is written piece by piece, and a piece is the writer's own or quoted. Every character of the document
remembers which (`tagged`), so its lines can be told apart from what was quoted on them: a line's skeleton is what the
writer wrote of it. Where no quoted text has a line feed, the skeletons of the lines are the lines of the skeleton
(`skeleton_lines`), and the skeleton does not depend on what is quoted. Where each quotation follows own text on its
line, every line begins with a character of the writer's own (`own_head_of_led`).
-/
import RallyPoint.Lib.Pieces

namespace RallyPoint.Lib

/-! ## Cutting a list -/

/-- The stretches between the elements that cut, the last one always there. -/
def cutAt {α : Type} (cuts : α → Bool) : List α → List (List α)
  | [] => [[]]
  | c :: cs =>
    match cutAt cuts cs with
    | [] => [[c]]
    | piece :: rest => if cuts c then [] :: piece :: rest else (c :: piece) :: rest

section Cutting

variable {α β : Type} {cuts : α → Bool} {cs : List α}

theorem cutAt_ne_nil (cuts : α → Bool) (cs : List α) : cutAt cuts cs ≠ [] := by
  cases cs with
  | nil => exact List.cons_ne_nil _ _
  | cons c cs =>
    rw [cutAt]
    split
    · exact List.cons_ne_nil _ _
    · split <;> exact List.cons_ne_nil _ _

theorem cutAt_cons (c : α) (cs : List α) : ∃ piece rest, cutAt cuts cs = piece :: rest ∧
    cutAt cuts (c :: cs) = if cuts c then [] :: piece :: rest else (c :: piece) :: rest := by
  cases hpieces : cutAt cuts cs with
  | nil => exact absurd hpieces (cutAt_ne_nil cuts cs)
  | cons piece rest => exact ⟨piece, rest, rfl, by rw [cutAt, hpieces]⟩

theorem cutAt_map {cuts' : β → Bool} {f : α → β} (h : ∀ c, cuts' (f c) = cuts c) :
    (cutAt cuts cs).map (List.map f) = cutAt cuts' (cs.map f) := by
  induction cs with
  | nil => rfl
  | cons c cs ih =>
    obtain ⟨piece, rest, hcs, hcons⟩ := @cutAt_cons α cuts c cs
    rw [hcs, List.map_cons] at ih
    rw [hcons, List.map_cons, cutAt, ← ih, h]
    dsimp only
    split <;> simp

/-- Elements that do not cut may be left out before or after the cutting. -/
theorem cutAt_filter {keep : α → Bool} (h : ∀ c ∈ cs, keep c = false → cuts c = false) :
    (cutAt cuts cs).map (List.filter keep) = cutAt cuts (cs.filter keep) := by
  induction cs with
  | nil => rfl
  | cons c cs ih =>
    rw [List.forall_mem_cons] at h
    have ih := ih h.2
    obtain ⟨piece, rest, hcs, hcons⟩ := @cutAt_cons α cuts c cs
    rw [hcs, List.map_cons] at ih
    rw [hcons]
    cases hkeep : keep c with
    | false =>
      have hcut : cuts c = false := h.1 hkeep
      rw [List.filter_cons_of_neg (by simp [hkeep]), ← ih, hcut, if_neg Bool.false_ne_true, List.map_cons,
        List.filter_cons_of_neg (by simp [hkeep])]
    | true =>
      rw [List.filter_cons_of_pos hkeep, cutAt, ← ih]
      dsimp only
      split <;> simp [hkeep]

theorem splitChars_eq_cutAt (sep : Char) (cs : List Char) : splitChars sep cs = cutAt (· = sep) cs := by
  induction cs with
  | nil => rfl
  | cons c cs ih =>
    obtain ⟨piece, rest, hcs, hcons⟩ := @cutAt_cons Char (fun c => decide (c = sep)) c cs
    rw [hcons, splitChars, ih, hcs]
    simp

end Cutting

/-! ## Documents -/

/-- A piece of a document. -/
inductive Piece
  | own (text : String)
  | quoted (text : String)
  deriving DecidableEq, Repr

/-- The characters of a piece, each with whether it is quoted. -/
def Piece.tagged : Piece → List (Char × Bool)
  | own text => text.toList.map fun c => (c, false)
  | quoted text => text.toList.map fun c => (c, true)

def tagged (doc : List Piece) : List (Char × Bool) := doc.flatMap Piece.tagged

def textOf (cs : List (Char × Bool)) : List Char := cs.map Prod.fst

/-- The characters that are the writer's own. -/
def skeleton (cs : List (Char × Bool)) : List Char := textOf (cs.filter fun c => !c.2)

/-- The lines of a document, whoever wrote the line feeds. -/
def docLines (doc : List Piece) : List (List (Char × Bool)) := cutAt (fun c => c.1 = '\n') (tagged doc)

def written (doc : List Piece) : String := String.ofList (textOf (tagged doc))

/-- No quoted text has a line feed. -/
def Flat (cs : List (Char × Bool)) : Prop := ∀ c ∈ cs, c.2 = true → c.1 ≠ '\n'

/-- A quoted character has another character before it on its line; `start` is whether a line begins. -/
def Led (start : Bool) : List (Char × Bool) → Prop
  | [] => True
  | c :: cs => (c.2 = true → start = false) ∧ Led (c.1 = '\n') cs

section Documents

variable {doc doc' : List Piece} {cs xs ys : List (Char × Bool)} {start : Bool}

@[simp] theorem tagged_nil : tagged [] = [] := rfl

@[simp] theorem tagged_cons (piece : Piece) (doc : List Piece) :
    tagged (piece :: doc) = piece.tagged ++ tagged doc := rfl

@[simp] theorem tagged_append (doc doc' : List Piece) : tagged (doc ++ doc') = tagged doc ++ tagged doc' :=
  List.flatMap_append

@[simp] theorem textOf_append (xs ys : List (Char × Bool)) : textOf (xs ++ ys) = textOf xs ++ textOf ys :=
  List.map_append

@[simp] theorem skeleton_append (xs ys : List (Char × Bool)) :
    skeleton (xs ++ ys) = skeleton xs ++ skeleton ys := by
  rw [skeleton, List.filter_append, textOf_append]
  rfl

@[simp] theorem textOf_tagged_own (text : String) : textOf (Piece.own text).tagged = text.toList := by
  rw [textOf, Piece.tagged, List.map_map]
  exact List.map_id _

@[simp] theorem textOf_tagged_quoted (text : String) : textOf (Piece.quoted text).tagged = text.toList := by
  rw [textOf, Piece.tagged, List.map_map]
  exact List.map_id _

@[simp] theorem skeleton_own (text : String) : skeleton (Piece.own text).tagged = text.toList := by
  have hall : (Piece.own text).tagged.filter (fun c => !c.2) = (Piece.own text).tagged := by
    refine List.filter_eq_self.mpr fun c hc => ?_
    obtain ⟨_, -, rfl⟩ := List.mem_map.mp hc
    rfl
  rw [skeleton, hall, textOf_tagged_own]

@[simp] theorem skeleton_quoted (text : String) : skeleton (Piece.quoted text).tagged = [] := by
  have hnone : (Piece.quoted text).tagged.filter (fun c => !c.2) = [] := by
    refine List.filter_eq_nil_iff.mpr fun c hc => ?_
    obtain ⟨_, -, rfl⟩ := List.mem_map.mp hc
    exact Bool.false_ne_true
  rw [skeleton, hnone]
  rfl

theorem flat_tagged (h : ∀ text, .quoted text ∈ doc → '\n' ∉ text.toList) : Flat (tagged doc) := by
  intro c hc hquoted
  obtain ⟨piece, hpiece, hc⟩ := List.mem_flatMap.mp hc
  cases piece with
  | own text =>
    obtain ⟨d, -, rfl⟩ := List.mem_map.mp hc
    cases hquoted
  | quoted text =>
    obtain ⟨d, hd, rfl⟩ := List.mem_map.mp hc
    exact ne_of_mem_of_not_mem hd (h text hpiece)

/-- The lines of a document are those of its text. -/
theorem docLines_text (doc : List Piece) : (docLines doc).map textOf = splitChars '\n' (written doc).toList := by
  rw [splitChars_eq_cutAt, written, String.toList_ofList]
  exact cutAt_map fun _ => rfl

/-- **The skeletons of the lines** are the lines of the skeleton. -/
theorem skeleton_lines (h : Flat (tagged doc)) :
    (docLines doc).map skeleton = splitChars '\n' (skeleton (tagged doc)) := by
  have hkeep : ∀ c ∈ tagged doc, (!c.2) = false → decide (c.1 = '\n') = false := by
    intro c hc hquoted
    rw [Bool.not_eq_false'] at hquoted
    exact decide_eq_false (h c hc hquoted)
  have hsplit : (docLines doc).map skeleton = ((docLines doc).map (List.filter fun c => !c.2)).map textOf := by
    rw [List.map_map]
    rfl
  rw [splitChars_eq_cutAt, hsplit, docLines, cutAt_filter hkeep]
  exact cutAt_map fun _ => rfl

theorem Led.mono (h : Led true cs) : Led start cs := by
  cases cs with
  | nil => trivial
  | cons c cs => exact ⟨fun hc => absurd (h.1 hc) Bool.noConfusion, h.2⟩

theorem Led.append (hxs : Led start xs) (hys : Led true ys) : Led start (xs ++ ys) := by
  induction xs generalizing start with
  | nil => exact hys.mono
  | cons c xs ih => exact ⟨hxs.1, ih hxs.2⟩

theorem led_own (text : String) : Led start (Piece.own text).tagged := by
  rw [Piece.tagged]
  induction text.toList generalizing start with
  | nil => trivial
  | cons c cs ih => exact ⟨fun h => Bool.noConfusion h, ih⟩

theorem led_of_own (h : ∀ piece ∈ doc, ∃ text, piece = .own text) : Led true (tagged doc) := by
  induction doc with
  | nil => trivial
  | cons piece doc ih =>
    rw [List.forall_mem_cons] at h
    obtain ⟨⟨text, rfl⟩, h⟩ := h
    rw [tagged_cons]
    exact (led_own text).append (ih h)

theorem led_false_of_flat (h : ∀ c ∈ cs, c.1 ≠ '\n') : Led false cs := by
  induction cs with
  | nil => trivial
  | cons c cs ih =>
    rw [List.forall_mem_cons] at h
    have hnext : decide (c.1 = '\n') = false := decide_eq_false h.1
    refine ⟨fun _ => rfl, ?_⟩
    rw [hnext]
    exact ih h.2

/-- What goes on with a line that is there already. -/
theorem Led.append_line (hxs : Led start xs) (hlast : xs.getLast?.any (fun c => c.1 != '\n') = true)
    (hys : ∀ c ∈ ys, c.1 ≠ '\n') : Led start (xs ++ ys) := by
  induction xs generalizing start with
  | nil => cases hlast
  | cons c xs ih =>
    refine ⟨hxs.1, ?_⟩
    cases xs with
    | nil =>
      have hnext : decide (c.1 = '\n') = false := by simpa using hlast
      rw [hnext]
      exact led_false_of_flat hys
    | cons d xs => exact ih hxs.2 (by rwa [List.getLast?_cons_cons] at hlast)

/-- A quotation behind own text that does not end its line. -/
theorem led_quote {own quoted : String} (hown : own.toList.getLast?.any (fun c => c != '\n') = true)
    (hquoted : '\n' ∉ quoted.toList) : Led true (tagged [.own own, .quoted quoted]) := by
  rw [tagged_cons, tagged_cons, tagged_nil, List.append_nil]
  refine (led_own own).append_line ?_ ?_
  · rw [Piece.tagged, List.getLast?_map, Option.any_map]
    exact hown
  · intro c hc
    obtain ⟨x, hx, rfl⟩ := List.mem_map.mp hc
    exact ne_of_mem_of_not_mem hx hquoted

/-- **Every line begins with a character of the writer's own.** -/
theorem own_head_of_led (h : Led start cs) :
    ∃ line rest, cutAt (fun c => decide (c.1 = '\n')) cs = line :: rest ∧
      (start = true → ∀ c ∈ line.head?, c.2 = false) ∧ ∀ other ∈ rest, ∀ c ∈ other.head?, c.2 = false := by
  induction cs generalizing start with
  | nil =>
    refine ⟨[], [], rfl, ?_, ?_⟩
    · rintro - c hc
      cases hc
    · intro other hother
      cases hother
  | cons c cs ih =>
    obtain ⟨line, rest, hcs, hline, hrest⟩ := ih h.2
    rw [cutAt, hcs]
    dsimp only
    by_cases hfeed : c.1 = '\n'
    · rw [if_pos (decide_eq_true hfeed)]
      refine ⟨[], line :: rest, rfl, ?_, ?_⟩
      · rintro - c hc
        cases hc
      · intro other hother
        rcases List.mem_cons.mp hother with rfl | hother
        · exact hline (decide_eq_true hfeed)
        · exact hrest other hother
    · rw [if_neg (by simpa using hfeed)]
      refine ⟨c :: line, rest, rfl, ?_, hrest⟩
      rintro rfl d hd
      obtain rfl := Option.some.inj hd
      exact Bool.eq_false_iff.mpr fun hquoted => Bool.noConfusion (h.1 hquoted)

theorem own_head_of_mem_docLines (h : Led true (tagged doc)) {line : List (Char × Bool)}
    (hline : line ∈ docLines doc) : ∀ c ∈ line.head?, c.2 = false := by
  obtain ⟨first, rest, hlines, hfirst, hrest⟩ := own_head_of_led h
  rw [docLines, hlines] at hline
  rcases List.mem_cons.mp hline with rfl | hline
  · exact hfirst rfl
  · exact hrest line hline

end Documents

/-! ## Titles -/

section Titles

variable {mark : Char} {titles : List (List Char)} {xs ys cs : List Char}

/-- The lines that begin with the mark are among the titles. -/
def TitledBy (mark : Char) (titles : List (List Char)) (cs : List Char) : Prop :=
  ∀ line ∈ splitChars '\n' cs, line.head? = some mark → line ∈ titles

/-- Whole lines, which add no line that begins with the mark but titles. -/
def WholeLines (mark : Char) (titles : List (List Char)) (xs : List Char) : Prop :=
  ∀ ys, TitledBy mark titles ys → TitledBy mark titles (xs ++ ys)

theorem titledBy_nil : TitledBy mark titles [] := by
  intro line hline hhead
  rw [splitChars, List.mem_singleton] at hline
  rw [hline] at hhead
  cases hhead

theorem wholeLines_nil : WholeLines mark titles [] := fun _ h => h

theorem WholeLines.append (hxs : WholeLines mark titles xs) (hys : WholeLines mark titles ys) :
    WholeLines mark titles (xs ++ ys) := by
  intro zs hzs
  rw [List.append_assoc]
  exact hxs _ (hys zs hzs)

theorem wholeLines_flatten {blocks : List (List Char)} (h : ∀ block ∈ blocks, WholeLines mark titles block) :
    WholeLines mark titles blocks.flatten := by
  induction blocks with
  | nil => exact wholeLines_nil
  | cons block blocks ih =>
    rw [List.forall_mem_cons] at h
    exact h.1.append (ih h.2)

theorem TitledBy.wholeLines (h : TitledBy mark titles xs) : WholeLines mark titles (xs ++ ['\n']) := by
  intro ys hys line hmem hhead
  rw [List.append_assoc, List.singleton_append, splitChars_append, List.mem_append] at hmem
  rcases hmem with hmem | hmem
  · exact h line hmem hhead
  · exact hys line hmem hhead

theorem wholeLines_line (hline : '\n' ∉ xs) (htitle : xs.head? = some mark → xs ∈ titles) :
    WholeLines mark titles (xs ++ ['\n']) := by
  apply TitledBy.wholeLines
  intro line hmem hhead
  rw [splitChars_eq_singleton hline, List.mem_singleton] at hmem
  rw [hmem] at hhead ⊢
  exact htitle hhead

theorem wholeLines_of_notMem (h : mark ∉ xs) : WholeLines mark titles (xs ++ ['\n']) := by
  apply TitledBy.wholeLines
  intro line hline hhead
  exact absurd (mem_of_mem_splitChars hline (List.mem_of_mem_head? hhead)) h

/-- Lines that are known. -/
theorem wholeLines_of_check
    (h : ((splitChars '\n' xs).all fun line => line.head? != some mark || titles.contains line) = true) :
    WholeLines mark titles (xs ++ ['\n']) := by
  apply TitledBy.wholeLines
  intro line hline hhead
  have hcheck := List.all_eq_true.mp h line hline
  rw [hhead] at hcheck
  simpa using hcheck

end Titles

end RallyPoint.Lib
