/-
# RallyPoint.Lib.Frames — texts cut into frames by a separator.

A log file is a sequence of frames, each completed by a separator, and whatever was written after the last
one: the tail. A text determines its frames and is determined by them (`frames_eq_iff`), so a proof about a
file may name the frames and forget the bytes. Appending moves nothing that is completed, and it continues
the tail (`frames_append`); a text without a tail is at a boundary.
-/
import Mathlib.Data.List.Basic
import Mathlib.Tactic.Common

namespace RallyPoint.Lib

variable {α : Type*} [DecidableEq α] {sep : α}

/-- The completed frames of a text, without their separators, and the tail after the last of them. -/
def frames (sep : α) : List α → List (List α) × List α
  | [] => ([], [])
  | c :: cs =>
    if c = sep then ([] :: (frames sep cs).1, (frames sep cs).2)
    else
      match (frames sep cs).1 with
      | [] => ([], c :: (frames sep cs).2)
      | frame :: rest => ((c :: frame) :: rest, (frames sep cs).2)

/-- What reading up to the separator hands out, again and again: whether the separator was there, and the
frame or the tail before it. -/
def frameReads (sep : α) (l : List α) : List (Bool × List α) :=
  (frames sep l).1.map (true, ·) ++ if (frames sep l).2.isEmpty then [] else [(false, (frames sep l).2)]

/-- Frames written out, each with its separator. -/
def framed (sep : α) (fs : List (List α)) : List α := fs.flatMap (· ++ [sep])

omit [DecidableEq α] in
@[simp] theorem framed_nil : framed sep ([] : List (List α)) = [] := rfl

omit [DecidableEq α] in
@[simp] theorem framed_cons (f : List α) (fs : List (List α)) :
    framed sep (f :: fs) = f ++ sep :: framed sep fs := by
  simp [framed]

omit [DecidableEq α] in
@[simp] theorem framed_append (fs gs : List (List α)) :
    framed sep (fs ++ gs) = framed sep fs ++ framed sep gs := by
  simp [framed]

/-- Symbols without a separator continue the first frame, or the tail when there is none. -/
theorem frames_append_of_notMem {t : List α} (ht : sep ∉ t) (r : List α) :
    frames sep (t ++ r) =
      match (frames sep r).1 with
      | [] => ([], t ++ (frames sep r).2)
      | f :: fs => ((t ++ f) :: fs, (frames sep r).2) := by
  induction t with
  | nil =>
    rw [List.nil_append]
    split
    case _ h => exact Prod.ext h rfl
    case _ f fs h => exact Prod.ext h rfl
  | cons c t ih =>
    rw [List.mem_cons, not_or] at ht
    rw [List.cons_append, frames, if_neg (Ne.symm ht.1), ih ht.2]
    cases (frames sep r).1 with
    | nil => rfl
    | cons f fs => rfl

theorem frames_of_notMem {t : List α} (ht : sep ∉ t) : frames sep t = ([], t) := by
  have h := frames_append_of_notMem ht []
  simpa [frames] using h

/-- A frame written out is read back. -/
theorem frames_frame_append {f : List α} (hf : sep ∉ f) (r : List α) :
    frames sep (f ++ sep :: r) = (f :: (frames sep r).1, (frames sep r).2) := by
  rw [frames_append_of_notMem hf, frames, if_pos rfl]
  simp only [List.append_nil]

theorem frames_framed_append {fs : List (List α)} (hfs : ∀ f ∈ fs, sep ∉ f) (r : List α) :
    frames sep (framed sep fs ++ r) = (fs ++ (frames sep r).1, (frames sep r).2) := by
  induction fs with
  | nil => rfl
  | cons f fs ih =>
    rw [List.forall_mem_cons] at hfs
    rw [framed_cons, List.append_assoc, List.cons_append, frames_frame_append hfs.1, ih hfs.2]
    rfl

/-- The frames and the tail hold no separator. -/
theorem notMem_frames (l : List α) : (∀ f ∈ (frames sep l).1, sep ∉ f) ∧ sep ∉ (frames sep l).2 := by
  induction l with
  | nil => simp [frames]
  | cons c cs ih =>
    rw [frames]
    split
    case isTrue => exact ⟨List.forall_mem_cons.mpr ⟨List.not_mem_nil, ih.1⟩, ih.2⟩
    case isFalse hc =>
      cases h : (frames sep cs).1 with
      | nil => exact ⟨fun f hf => absurd hf List.not_mem_nil, by simp [Ne.symm hc, ih.2]⟩
      | cons f fs =>
        rw [h, List.forall_mem_cons] at ih
        exact ⟨List.forall_mem_cons.mpr ⟨by simp [Ne.symm hc, ih.1.1], ih.1.2⟩, ih.2⟩

/-- A text is its frames and its tail. -/
theorem framed_frames (l : List α) : framed sep (frames sep l).1 ++ (frames sep l).2 = l := by
  induction l with
  | nil => rfl
  | cons c cs ih =>
    rw [frames]
    split
    case isTrue hc =>
      rw [framed_cons, List.nil_append, List.cons_append, ih, hc]
    case isFalse =>
      cases h : (frames sep cs).1 with
      | nil =>
        rw [h, framed_nil, List.nil_append] at ih
        rw [framed_nil, List.nil_append, ih]
      | cons f fs =>
        rw [h, framed_cons, List.append_assoc] at ih
        rw [framed_cons, List.cons_append, List.cons_append, List.append_assoc, ih]

/-- **Frames are unique:** a text has the one decomposition into separator-free parts. -/
theorem frames_eq_iff {l t : List α} {fs : List (List α)} :
    frames sep l = (fs, t) ↔ l = framed sep fs ++ t ∧ (∀ f ∈ fs, sep ∉ f) ∧ sep ∉ t := by
  constructor
  · intro h
    have hfree := @notMem_frames _ _ sep l
    have hl := @framed_frames _ _ sep l
    rw [h] at hfree hl
    exact ⟨hl.symm, hfree⟩
  · rintro ⟨rfl, hfs, ht⟩
    rw [frames_framed_append hfs, frames_of_notMem ht, List.append_nil]

/-- **Appending** moves no completed frame and continues the tail. -/
theorem frames_append (l r : List α) :
    frames sep (l ++ r) =
      ((frames sep l).1 ++ (frames sep ((frames sep l).2 ++ r)).1, (frames sep ((frames sep l).2 ++ r)).2) := by
  have h := frames_framed_append (@notMem_frames _ _ sep l).1 ((frames sep l).2 ++ r)
  rwa [← List.append_assoc, framed_frames] at h

/-- A frame behind a tail completes it. -/
theorem frames_append_frame {f : List α} (hf : sep ∉ f) (l : List α) :
    frames sep (l ++ (f ++ [sep])) = ((frames sep l).1 ++ [(frames sep l).2 ++ f], []) := by
  have htail : sep ∉ (frames sep l).2 ++ f := by
    rw [List.mem_append, not_or]
    exact ⟨(notMem_frames l).2, hf⟩
  rw [frames_append, ← List.append_assoc, frames_frame_append htail]
  rfl

/-- Symbols without a separator lengthen the tail. -/
theorem frames_append_piece {p : List α} (hp : sep ∉ p) (l : List α) :
    frames sep (l ++ p) = ((frames sep l).1, (frames sep l).2 ++ p) := by
  have htail : sep ∉ (frames sep l).2 ++ p := by
    rw [List.mem_append, not_or]
    exact ⟨(notMem_frames l).2, hp⟩
  rw [frames_append, frames_of_notMem htail, List.append_nil]

/-- A text at a boundary has no tail: it is empty or ends in a separator. -/
theorem frames_snd_eq_nil_iff {l : List α} : (frames sep l).2 = [] ↔ l = [] ∨ l.getLast? = some sep := by
  constructor
  · intro h
    have hl := @framed_frames _ _ sep l
    rw [h, List.append_nil] at hl
    rcases List.eq_nil_or_concat' (frames sep l).1 with hnil | ⟨fs, f, hfs⟩
    · left
      rw [← hl, hnil, framed_nil]
    · right
      rw [← hl, hfs, framed_append, framed_cons, framed_nil]
      simp
  · rintro (rfl | h)
    · rfl
    · by_contra hne
      have hlast : (frames sep l).2.getLast? = some sep := by
        have hl := @framed_frames _ _ sep l
        rw [← hl, List.getLast?_append] at h
        cases hlast : (frames sep l).2.getLast? with
        | none => exact absurd (List.getLast?_eq_none_iff.mp hlast) hne
        | some c => simpa [hlast] using h
      exact (notMem_frames l).2 (List.mem_of_getLast? hlast)

/-- Behind a boundary a text is read as if it stood alone. -/
theorem frames_append_of_boundary {l : List α} (hl : (frames sep l).2 = []) (r : List α) :
    frames sep (l ++ r) = ((frames sep l).1 ++ (frames sep r).1, (frames sep r).2) := by
  rw [frames_append, hl, List.nil_append]

/-! ## What the frames contribute -/

section Gather

variable {β : Type*}

/-- The contributions of all frames, none when one frame is refused. -/
def gather (f : List α → Option (List β)) : List (List α) → Option (List β)
  | [] => some []
  | frame :: rest => (f frame).bind fun xs => (gather f rest).map (xs ++ ·)

variable {f : List α → Option (List β)}

omit [DecidableEq α] in
theorem gather_append_eq_some_iff {fs gs : List (List α)} {out : List β} :
    gather f (fs ++ gs) = some out ↔
      ∃ xs ys, gather f fs = some xs ∧ gather f gs = some ys ∧ out = xs ++ ys := by
  induction fs generalizing out with
  | nil => simp [gather]
  | cons frame fs ih =>
    rw [List.cons_append, gather, gather]
    simp only [Option.bind_eq_some_iff, Option.map_eq_some_iff, ih]
    constructor
    · rintro ⟨a, ha, _, ⟨xs, ys, hxs, hys, rfl⟩, rfl⟩
      exact ⟨a ++ xs, ys, ⟨a, ha, xs, hxs, rfl⟩, hys, by rw [List.append_assoc]⟩
    · rintro ⟨_, ys, ⟨a, ha, xs, hxs, rfl⟩, hys, rfl⟩
      exact ⟨a, ha, xs ++ ys, ⟨xs, ys, hxs, hys, rfl⟩, by rw [List.append_assoc]⟩

omit [DecidableEq α] in
theorem gather_singleton {frame : List α} : gather f [frame] = f frame := by
  rw [gather]
  cases f frame <;> simp [gather]

end Gather

end RallyPoint.Lib
