/-
# RallyPoint.Lib.Scrub — replacing the marker phrases of a text by a scar.

A matcher looks at what stands at a position and answers what is left behind a match. `scrub` walks the text once,
writes the scar where the matcher matches, goes on behind the match, and copies everything else. What a scrubbed text
is in relation to the text is said by its first scar (`Scarred`): before it the two agree, and where the scar begins
the text has the first character of a match. That is enough to compare two scrubbers, however many passes they make.
-/
import Mathlib.Data.List.Infix

namespace RallyPoint.Lib

section Scrub

variable {α : Type} (matchAt : List α → Option (List α))

/-- `skip` characters of a match are still to be passed over. -/
def scrub (scar : List α) : Nat → List α → List α
  | _, [] => []
  | skip + 1, _ :: cs => scrub scar skip cs
  | 0, c :: cs => match matchAt (c :: cs) with
    | some rest => scar ++ scrub scar (cs.length - rest.length) cs
    | none => c :: scrub scar 0 cs

/-- Something matches somewhere in the text. -/
def carries (cs : List α) : Bool := cs.tails.any fun t => (matchAt t).isSome

@[simp] theorem carries_nil : carries matchAt [] = (matchAt []).isSome := by simp [carries]

@[simp] theorem carries_cons (c : α) (cs : List α) :
    carries matchAt (c :: cs) = ((matchAt (c :: cs)).isSome || carries matchAt cs) := by
  simp [carries]

/-- The scrubbed text agrees with the text up to a scar, and there the text has an opening character. -/
def Scarred (opens : α → Prop) (scar : α) (cs body : List α) : Prop :=
  ∃ pre c rest more, cs = pre ++ c :: rest ∧ opens c ∧ body = pre ++ scar :: more

variable {matchAt} {opens opens' : α → Prop} {scar : α} {tail cs body body' : List α}

theorem scrub_of_not_carries (h : carries matchAt cs = false) : scrub matchAt (scar :: tail) 0 cs = cs := by
  induction cs with
  | nil => rfl
  | cons c cs ih =>
    rw [carries_cons, Bool.or_eq_false_iff, Option.isSome_eq_false_iff, Option.isNone_iff_eq_none] at h
    rw [scrub, h.1]
    exact congrArg (c :: ·) (ih h.2)

theorem scarred_scrub (hnil : matchAt [] = none)
    (hopens : ∀ c cs, (matchAt (c :: cs)).isSome = true → opens c) (h : carries matchAt cs = true) :
    Scarred opens scar cs (scrub matchAt (scar :: tail) 0 cs) := by
  induction cs with
  | nil => simp [hnil] at h
  | cons c cs ih =>
    rw [carries_cons] at h
    rw [scrub]
    cases hmatch : matchAt (c :: cs) with
    | some rest => exact ⟨[], c, cs, _, rfl, hopens c cs (by rw [hmatch]; rfl), rfl⟩
    | none =>
      rw [hmatch] at h
      obtain ⟨pre, d, rest, more, hcs, hd, hbody⟩ := ih (by simpa using h)
      refine ⟨c :: pre, d, rest, more, by rw [hcs, List.cons_append], hd, ?_⟩
      exact congrArg (c :: ·) hbody

namespace Scarred

/-- A second pass scars at the first scar or before it. -/
theorem trans (h : Scarred opens scar cs body) (h' : Scarred opens scar body body') (hscar : ¬opens scar) :
    Scarred opens scar cs body' := by
  obtain ⟨pre, c, rest, more, rfl, hc, rfl⟩ := h
  obtain ⟨pre', d, rest', more', heq, hd, rfl⟩ := h'
  rcases List.append_eq_append_iff.mp heq with ⟨mid, rfl, hmid⟩ | ⟨mid, rfl, hmid⟩
  · -- behind the first scar, which is kept
    cases mid with
    | nil =>
      obtain ⟨rfl, -⟩ := List.cons.inj hmid
      exact absurd hd hscar
    | cons e mid =>
      obtain ⟨rfl, -⟩ := List.cons.inj hmid
      exact ⟨pre, c, rest, mid ++ scar :: more', rfl, hc, by simp⟩
  · -- before it, where the text is still as it was
    cases mid with
    | nil =>
      obtain ⟨rfl, -⟩ := List.cons.inj hmid
      exact absurd hd hscar
    | cons e mid =>
      obtain ⟨rfl, -⟩ := List.cons.inj hmid
      exact ⟨pre', d, mid ++ c :: rest, more', by simp, hd, rfl⟩

theorem ne (h : Scarred opens scar cs body) (hscar : ¬opens scar) : body ≠ cs := by
  obtain ⟨pre, c, rest, more, rfl, hc, rfl⟩ := h
  intro heq
  obtain ⟨rfl, -⟩ := List.cons.inj (List.append_cancel_left heq)
  exact hscar hc

/-- Scrubbers of phrases that open differently leave different texts. -/
theorem ne_of_disjoint (h : Scarred opens scar cs body) (h' : Scarred opens' scar cs body') (hscar : ¬opens scar)
    (hscar' : ¬opens' scar) (hdisjoint : ∀ c, opens c → ¬opens' c) : body ≠ body' := by
  obtain ⟨pre, c, rest, more, rfl, hc, rfl⟩ := h
  obtain ⟨pre', d, rest', more', hcs, hd, rfl⟩ := h'
  intro heq
  rcases List.append_eq_append_iff.mp heq with ⟨mid, rfl, hmid⟩ | ⟨mid, rfl, hmid⟩
  · rw [List.append_assoc, List.append_cancel_left_eq] at hcs
    cases mid with
    | nil =>
      obtain ⟨rfl, -⟩ := List.cons.inj hcs
      exact hdisjoint c hc hd
    | cons e mid =>
      obtain ⟨rfl, -⟩ := List.cons.inj hmid
      obtain ⟨rfl, -⟩ := List.cons.inj hcs
      exact hscar hc
  · rw [List.append_assoc, List.append_cancel_left_eq] at hcs
    cases mid with
    | nil =>
      obtain ⟨rfl, -⟩ := List.cons.inj hcs
      exact hdisjoint _ hc hd
    | cons e mid =>
      obtain ⟨rfl, -⟩ := List.cons.inj hmid
      obtain ⟨rfl, -⟩ := List.cons.inj hcs
      exact hscar' hd

end Scarred

/-- Matchers that agree on every end of the text scrub it alike. -/
theorem scrub_congr {matchAt' : List α → Option (List α)} (removed : List α) (skip : Nat)
    (h : ∀ t, t <:+ cs → matchAt t = matchAt' t) :
    scrub matchAt removed skip cs = scrub matchAt' removed skip cs := by
  induction cs generalizing skip with
  | nil => cases skip <;> rfl
  | cons c cs ih =>
    have htail : ∀ t, t <:+ cs → matchAt t = matchAt' t := fun t ht => h t (ht.trans (List.suffix_cons c cs))
    cases skip with
    | succ skip => exact ih skip htail
    | zero =>
      rw [scrub, scrub, ← h _ List.suffix_rfl]
      cases matchAt (c :: cs) with
      | none => exact congrArg (c :: ·) (ih 0 htail)
      | some rest => exact congrArg (removed ++ ·) (ih _ htail)

theorem carries_congr {matchAt' : List α → Option (List α)} (h : ∀ t, t <:+ cs → matchAt t = matchAt' t) :
    carries matchAt cs = carries matchAt' cs := by
  rw [carries, carries, Bool.eq_iff_iff, List.any_eq_true, List.any_eq_true]
  refine exists_congr fun t => and_congr_right fun ht => ?_
  rw [h t ((List.mem_tails t cs).mp ht)]

end Scrub

/-! ## Phrases -/

section Phrase

variable {α : Type} (isSpace : α → Bool) (same : α → α → Bool)

/-- The word stands at the front; what is left behind it. -/
def matchWord : List α → List α → Option (List α)
  | [], cs => some cs
  | _ :: _, [] => none
  | w :: word, c :: cs => if same c w then matchWord word cs else none

/-- White space and a word, again and again. -/
def matchWords : List (List α) → List α → Option (List α)
  | [], cs => some cs
  | word :: words, cs =>
    let behind := cs.dropWhile isSpace
    if behind.length = cs.length then none else (matchWord same word behind).bind (matchWords words)

/-- Words with white space between them stand at the front. -/
def matchPhrase : List (List α) → List α → Option (List α)
  | [], cs => some cs
  | word :: words, cs => (matchWord same word cs).bind (matchWords isSpace same words)

variable {isSpace same} {isSpace' : α → Bool} {cs rest : List α}

theorem matchWord_suffix {word : List α} (h : matchWord same word cs = some rest) : rest <:+ cs := by
  induction word generalizing cs with
  | nil =>
    obtain rfl := Option.some.inj h
    exact List.suffix_rfl
  | cons w word ih =>
    cases cs with
    | nil => cases h
    | cons c cs =>
      rw [matchWord] at h
      split at h
      · exact (ih h).trans (List.suffix_cons c cs)
      · cases h

theorem matchPhrase_nil {w : α} {word : List α} {words : List (List α)} :
    matchPhrase isSpace same ((w :: word) :: words) [] = none := rfl

theorem matchPhrase_opens {w c : α} {word : List α} {words : List (List α)}
    (h : (matchPhrase isSpace same ((w :: word) :: words) (c :: cs)).isSome = true) : same c w = true := by
  rw [matchPhrase, matchWord] at h
  by_contra hsame
  rw [if_neg hsame] at h
  cases h

theorem dropWhile_congr {p q : α → Bool} (h : ∀ c ∈ cs, p c = q c) : cs.dropWhile p = cs.dropWhile q := by
  induction cs with
  | nil => rfl
  | cons c cs ih =>
    rw [List.forall_mem_cons] at h
    rw [List.dropWhile_cons, List.dropWhile_cons, h.1, ih h.2]

theorem matchWords_congr (words : List (List α)) (h : ∀ c ∈ cs, isSpace c = isSpace' c) :
    matchWords isSpace same words cs = matchWords isSpace' same words cs := by
  induction words generalizing cs with
  | nil => rfl
  | cons word words ih =>
    rw [matchWords, matchWords, dropWhile_congr h]
    split
    · rfl
    · cases hword : matchWord same word (cs.dropWhile isSpace') with
      | none => rfl
      | some rest =>
        have hrest : rest ⊆ cs :=
          ((matchWord_suffix hword).trans (List.dropWhile_suffix isSpace')).subset
        exact ih fun c hc => h c (hrest hc)

/-- What counts as white space matters for the characters of the text only. -/
theorem matchPhrase_congr (words : List (List α)) (h : ∀ c ∈ cs, isSpace c = isSpace' c) :
    matchPhrase isSpace same words cs = matchPhrase isSpace' same words cs := by
  cases words with
  | nil => rfl
  | cons word words =>
    rw [matchPhrase, matchPhrase]
    cases hword : matchWord same word cs with
    | none => rfl
    | some rest => exact matchWords_congr words fun c hc => h c ((matchWord_suffix hword).subset hc)

end Phrase

end RallyPoint.Lib
