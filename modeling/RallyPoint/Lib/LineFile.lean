/-
# RallyPoint.Lib.LineFile — a file that grows by lines, read from byte offsets.

A line is complete when its separator has been written. A boundary is an offset that no line crosses: the start of the
file, or right after a separator. What stands below a boundary never changes while the file is appended to
(`lineAt_append_iff`), and reading one line from a boundary leads to the next boundary (`lineAt_readLine`), with no
other line in between.
-/
import Mathlib.Data.List.Basic

namespace RallyPoint.Lib

variable {α : Type*}

/-! ## Boundaries -/

/-- An offset that no line of the file crosses. -/
def Boundary (sep : α) (file : List α) (c : Nat) : Prop :=
  c ≤ file.length ∧ ∀ a ∈ (file.take c).getLast?, a = sep

section Boundaries

variable {sep : α} {file : List α} {c o : Nat}

theorem boundary_zero : Boundary sep file 0 := ⟨Nat.zero_le _, fun _ h => by cases h⟩

/-- Writing more keeps a boundary. -/
theorem Boundary.append (h : Boundary sep file c) (chunk : List α) : Boundary sep (file ++ chunk) c := by
  constructor
  · rw [List.length_append]
    exact Nat.le_add_right_of_le h.1
  · rw [List.take_append_of_le_length h.1]
    exact h.2

/-- Within what was there before, boundaries are the old ones. -/
theorem boundary_append_iff (hc : c ≤ file.length) (chunk : List α) :
    Boundary sep (file ++ chunk) c ↔ Boundary sep file c := by
  constructor
  · intro h
    have hsame : (file ++ chunk).take c = file.take c := List.take_append_of_le_length hc
    exact ⟨hc, hsame ▸ h.2⟩
  · exact fun h => h.append chunk

/-- Right before a later boundary stands a separator. -/
theorem Boundary.mem_drop (h : Boundary sep file c) (ho : o < c) : sep ∈ (file.drop o).take (c - o) := by
  have hlen : (file.take c).length = c := List.length_take_of_le h.1
  have hlast : (file.take c).getLast? = some sep := by
    cases hl : (file.take c).getLast? with
    | none =>
      rw [List.getLast?_eq_none_iff] at hl
      rw [hl] at hlen
      exact absurd ho (by rw [← hlen]; exact Nat.not_lt_zero o)
    | some a => rw [h.2 a hl]
  have hsplit : file.take c = file.take o ++ (file.drop o).take (c - o) := by
    conv_lhs => rw [show c = o + (c - o) by omega]
    rw [List.take_add]
  have hne : (file.drop o).take (c - o) ≠ [] := by
    intro hnil
    rw [hsplit, hnil, List.append_nil, List.length_take] at hlen
    omega
  rw [hsplit, List.getLast?_append_of_ne_nil _ hne] at hlast
  exact List.mem_of_getLast? hlast

/-- A file of whole lines ends at a boundary, also when whole lines are added. -/
theorem boundary_length_append (hc : Boundary sep file file.length) {chunk : List α}
    (hchunk : Boundary sep chunk chunk.length) : Boundary sep (file ++ chunk) (file ++ chunk).length := by
  refine ⟨Nat.le_refl _, ?_⟩
  rw [List.take_length]
  cases chunk with
  | nil =>
    rw [List.append_nil]
    have h := hc.2
    rwa [List.take_length] at h
  | cons a rest =>
    rw [List.getLast?_append_of_ne_nil _ (List.cons_ne_nil a rest)]
    have h := hchunk.2
    rwa [List.take_length] at h

end Boundaries

/-! ## Lines -/

variable [DecidableEq α]

/-- What a read gives: all up to the first separator and that separator, or all there is. -/
def readLine (sep : α) : List α → List α
  | [] => []
  | a :: rest => if a = sep then [a] else a :: readLine sep rest

/-- Whether a line has its separator. -/
def isComplete (sep : α) (line : List α) : Bool := line.getLast? = some sep

/-- The complete line that starts at an offset. -/
structure LineAt (sep : α) (file : List α) (o : Nat) (line : List α) : Prop where
  start : Boundary sep file o
  read : readLine sep (file.drop o) = line
  complete : isComplete sep line = true

/-! ## One line -/

section Read

variable {sep : α}

theorem readLine_prefix (sep : α) (xs : List α) : readLine sep xs <+: xs := by
  induction xs with
  | nil => exact List.prefix_rfl
  | cons a rest ih =>
    rw [readLine]
    split_ifs
    · exact List.cons_prefix_cons.mpr ⟨rfl, List.nil_prefix⟩
    · exact List.cons_prefix_cons.mpr ⟨rfl, ih⟩

/-- A complete line is a piece without separator and the separator. -/
theorem isComplete_readLine_iff {xs : List α} :
    isComplete sep (readLine sep xs) = true ↔ ∃ body, sep ∉ body ∧ readLine sep xs = body ++ [sep] := by
  rw [isComplete, decide_eq_true_iff]
  constructor
  · intro h
    induction xs with
    | nil => cases h
    | cons a rest ih =>
      rw [readLine] at h ⊢
      split_ifs at h ⊢ with ha
      · exact ⟨[], List.not_mem_nil, by rw [ha, List.nil_append]⟩
      · have hrest : (readLine sep rest).getLast? = some sep := by
          rw [List.getLast?_cons] at h
          cases hlast : (readLine sep rest).getLast? with
          | none =>
            rw [hlast] at h
            exact absurd (Option.some.inj h) ha
          | some b =>
            rw [hlast] at h
            exact h
        obtain ⟨body, hbody, heq⟩ := ih hrest
        refine ⟨a :: body, ?_, by rw [heq, List.cons_append]⟩
        rw [List.mem_cons, not_or]
        exact ⟨fun h => ha h.symm, hbody⟩
  · rintro ⟨body, -, heq⟩
    rw [heq, List.getLast?_concat]

/-- A complete line stays what it is when more is written. -/
theorem readLine_append {xs : List α} (h : isComplete sep (readLine sep xs) = true) (ys : List α) :
    readLine sep (xs ++ ys) = readLine sep xs := by
  induction xs with
  | nil => cases h
  | cons a rest ih =>
    rw [List.cons_append, readLine, readLine]
    rw [readLine] at h
    split_ifs at h ⊢ with ha
    · rfl
    · rw [ih]
      rw [isComplete, decide_eq_true_iff, List.getLast?_cons] at h
      rw [isComplete, decide_eq_true_iff]
      cases hlast : (readLine sep rest).getLast? with
      | none =>
        rw [hlast] at h
        exact absurd (Option.some.inj h) ha
      | some b =>
        rw [hlast] at h
        exact h

/-- A separator in what is read completes the line. -/
theorem isComplete_of_mem {xs : List α} (h : sep ∈ xs) : isComplete sep (readLine sep xs) = true := by
  induction xs with
  | nil => cases h
  | cons a rest ih =>
    rw [readLine]
    split_ifs with ha
    · rw [isComplete, ha]
      exact decide_eq_true rfl
    · have hrest := ih ((List.mem_cons.mp h).resolve_left fun heq => ha heq.symm)
      rw [isComplete, decide_eq_true_iff] at hrest ⊢
      rw [List.getLast?_cons, hrest, Option.getD_some]

theorem length_pos_of_isComplete {line : List α} (h : isComplete sep line = true) : 0 < line.length := by
  cases line with
  | nil => cases h
  | cons a rest => exact Nat.succ_pos _

end Read

/-! ## Lines and boundaries -/

/-- **Reading from a boundary** gives a line there, when it is complete, and leads to the next boundary. -/
theorem lineAt_readLine {sep : α} {file : List α} {c : Nat} (h : Boundary sep file c) (hcomplete : isComplete sep (readLine sep (file.drop c)) = true) :
    LineAt sep file c (readLine sep (file.drop c)) ∧ Boundary sep file (c + (readLine sep (file.drop c)).length) := by
  refine ⟨⟨h, rfl, hcomplete⟩, ?_⟩
  obtain ⟨rest, hrest⟩ := readLine_prefix sep (file.drop c)
  have hlen := congrArg List.length hrest
  rw [List.length_append, List.length_drop] at hlen
  have hpos := length_pos_of_isComplete hcomplete
  refine ⟨by omega, ?_⟩
  have htake : file.take (c + (readLine sep (file.drop c)).length) = file.take c ++ readLine sep (file.drop c) := by
    rw [List.take_add]
    conv_lhs => rw [← hrest]
    rw [List.take_left']
    rw [hrest]
  have hne : readLine sep (file.drop c) ≠ [] := List.ne_nil_of_length_pos hpos
  rw [htake, List.getLast?_append_of_ne_nil _ hne]
  rw [isComplete, decide_eq_true_iff] at hcomplete
  rintro a ha
  rw [hcomplete] at ha
  exact (Option.some.inj ha).symm

namespace LineAt

variable {sep : α} {file : List α} {b c o o' : Nat} {line line' : List α}

theorem pos (h : LineAt sep file o line) : 0 < line.length := length_pos_of_isComplete h.complete

theorem unique (h : LineAt sep file o line) (h' : LineAt sep file o line') : line = line' := h.read.symm.trans h'.read

/-- Where a line ends is a boundary. -/
theorem boundary_end (h : LineAt sep file o line) : Boundary sep file (o + line.length) := by
  obtain ⟨hstart, rfl, hcomplete⟩ := h
  exact (lineAt_readLine hstart hcomplete).2

theorem end_le_length (h : LineAt sep file o line) : o + line.length ≤ file.length := h.boundary_end.1

/-- **No line crosses a boundary.** -/
theorem end_le (h : LineAt sep file o line) (hb : Boundary sep file b) (hlt : o < b) : o + line.length ≤ b := by
  by_contra hover
  obtain ⟨-, hread, hcomplete⟩ := h
  have hpre := readLine_prefix sep (file.drop o)
  rw [← hread] at hcomplete
  obtain ⟨body, hbody, heq⟩ := isComplete_readLine_iff.mp hcomplete
  have hlen : line.length = body.length + 1 := by rw [← hread, heq, List.length_append, List.length_singleton]
  have hmem := hb.mem_drop hlt
  obtain ⟨rest, hrest⟩ := hpre
  rw [← hrest, heq, List.append_assoc, List.take_append_of_le_length (by omega)] at hmem
  exact hbody (List.mem_of_mem_take hmem)

/-- Of two lines the earlier one ends before the other begins. -/
theorem end_le_start (h : LineAt sep file o line) (h' : LineAt sep file o' line') (hlt : o < o') :
    o + line.length ≤ o' := h.end_le h'.start hlt

/-- Writing more keeps a line. -/
theorem append (h : LineAt sep file o line) (chunk : List α) : LineAt sep (file ++ chunk) o line := by
  obtain ⟨hstart, rfl, hcomplete⟩ := h
  refine ⟨hstart.append chunk, ?_, hcomplete⟩
  rw [List.drop_append_of_le_length hstart.1, readLine_append hcomplete]

end LineAt

section Append

variable {sep : α} {file : List α} {b c o : Nat} {line : List α}

/-- **Below a boundary** a file that is appended to keeps its lines and gets no others. -/
theorem lineAt_append_iff (hb : Boundary sep file b) (ho : o < b) (chunk : List α) :
    LineAt sep (file ++ chunk) o line ↔ LineAt sep file o line := by
  constructor
  · rintro ⟨hstart, hread, hcomplete⟩
    have hlen : o ≤ file.length := Nat.le_trans (Nat.le_of_lt ho) hb.1
    have hmem : sep ∈ file.drop o := List.mem_of_mem_take (hb.mem_drop ho)
    rw [List.drop_append_of_le_length hlen, readLine_append (isComplete_of_mem hmem)] at hread
    exact ⟨(boundary_append_iff hlen chunk).mp hstart, hread, hcomplete⟩
  · exact fun h => h.append chunk

/-- Where nothing complete can be read from a boundary, all lines stand below it. -/
theorem lt_of_lineAt (hend : isComplete sep (readLine sep (file.drop c)) = false)
    (h : LineAt sep file o line) : o < c := by
  by_contra hle
  rcases Nat.lt_or_eq_of_le (Nat.le_of_not_lt hle) with hlt | rfl
  · have hmem : sep ∈ file.drop c := List.mem_of_mem_take (h.start.mem_drop hlt)
    rw [isComplete_of_mem hmem] at hend
    cases hend
  · rw [h.read, h.complete] at hend
    cases hend

/-- Before the line that is read from a boundary there is none from that boundary on. -/
theorem lt_or_eq_of_lineAt {o' : Nat} {line' : List α} (h : LineAt sep file c line) (h' : LineAt sep file o' line')
    (hlt : o' < c + line.length) : o' < c ∨ o' = c := by
  rcases Nat.lt_trichotomy o' c with hbefore | heq | hafter
  · exact .inl hbefore
  · exact .inr heq
  · have hend := h.end_le_start h' hafter
    omega

/-- The lines of two files of whole lines, one written after the other. -/
theorem lineAt_append_cases {chunk : List α} (hend : Boundary sep file file.length)
    (h : LineAt sep (file ++ chunk) o line) :
    LineAt sep file o line ∨ ∃ k, o = file.length + k ∧ LineAt sep chunk k line := by
  rcases Nat.lt_or_ge o file.length with hlt | hge
  · exact .inl ((lineAt_append_iff hend hlt chunk).mp h)
  · obtain ⟨k, rfl⟩ := Nat.exists_eq_add_of_le hge
    obtain ⟨⟨hle, hsep⟩, hread, hcomplete⟩ := h
    rw [List.length_append] at hle
    rw [List.drop_length_add_append] at hread
    rw [List.take_length_add_append, List.getLast?_append] at hsep
    refine .inr ⟨k, rfl, ⟨by omega, fun a ha => hsep a ?_⟩, hread, hcomplete⟩
    rw [Option.mem_def] at ha ⊢
    rw [ha, Option.some_or]

/-- From a boundary before the end of a file of whole lines a complete line can be read. -/
theorem isComplete_of_lt (hend : Boundary sep file file.length) (hlt : c < file.length) :
    isComplete sep (readLine sep (file.drop c)) = true :=
  isComplete_of_mem (List.mem_of_mem_take (hend.mem_drop hlt))

end Append

end RallyPoint.Lib
