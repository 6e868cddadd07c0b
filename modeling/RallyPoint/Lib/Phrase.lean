/-
# RallyPoint.Lib.Phrase — where a text reads as a phrase, and texts that nowhere do.

A phrase is a language of stretches: its words, each spelled in any way that counts as the same, with at least so much
white space between them (`Spelled`). A matcher reads the language when it answers at a position exactly if a stretch
stands there (`Reads`); the matchers of phrases do (`reads_matchPhrase`).

Where a text is cut at a character that no stretch contains, its occurrences are those of the two parts
(`occursAt_append_cons`). A scrubbed text consists of copied parts and of scars that begin and end with such a
character, so that nothing can be put together from both (`infix_scrub`): it has no stretch of the language that was
scrubbed (`clean_scrub`), and none of another language that was not there before (`clean_scrub_other`).
-/
import RallyPoint.Lib.MarkerScan
import RallyPoint.Lib.Scrub
import Mathlib.Data.List.DropRight
import Mathlib.Data.List.TakeWhile

namespace RallyPoint.Lib

/-! ## Occurrences -/

section Occurrences

variable {α : Type} {S T : List α → Prop} {inside : α → Prop} {cs xs ys m : List α} {d : α} {n : Nat}

/-- A stretch of the language stands at a place of the text. -/
def OccursAt (S : List α → Prop) (cs : List α) (n : Nat) : Prop := ∃ m, S m ∧ m <+: cs.drop n

/-- No stretch of the language stands anywhere in the text. -/
def Clean (S : List α → Prop) (cs : List α) : Prop := ∀ m, S m → ¬m <:+: cs

/-- The stretches of a language are made of certain characters, and there is one at least. -/
structure MadeOf (inside : α → Prop) (S : List α → Prop) : Prop where
  nonempty : ∀ {m}, S m → m ≠ []
  chars : ∀ {m}, S m → ∀ c ∈ m, inside c

theorem clean_iff_occursAt : Clean S cs ↔ ∀ n, ¬OccursAt S cs n := by
  constructor
  · rintro h n ⟨m, hm, hpre⟩
    exact h m hm (hpre.isInfix.trans (List.drop_suffix n cs).isInfix)
  · rintro h m hm ⟨before, after, rfl⟩
    refine h before.length ⟨m, hm, ?_⟩
    rw [List.append_assoc, List.drop_left]
    exact List.prefix_append m after

theorem Clean.mono (h : Clean S ys) (hxs : xs <:+: ys) : Clean S xs := fun m hm hpart => h m hm (hpart.trans hxs)

theorem clean_nil (hS : MadeOf inside S) : Clean S [] := fun _ hm hpart =>
  hS.nonempty hm (List.infix_nil.mp hpart)

/-- **Occurrences on the two sides** of a character that is in no stretch. -/
theorem occursAt_append_cons (hS : MadeOf inside S) (hd : ¬inside d) :
    OccursAt S (xs ++ d :: ys) n ↔ OccursAt S xs n ∨ ∃ k, n = xs.length + 1 + k ∧ OccursAt S ys k := by
  rcases Nat.lt_or_ge xs.length n with hn | hn
  · obtain ⟨k, rfl⟩ := Nat.exists_eq_add_of_le hn
    have hdrop : (xs ++ d :: ys).drop (xs.length.succ + k) = ys.drop k := by
      have hlength : xs.length.succ + k = xs.length + (1 + k) := by omega
      rw [hlength, ← List.drop_drop, List.drop_left, Nat.add_comm 1 k]
      rfl
    have hxs : ¬OccursAt S xs (xs.length.succ + k) := by
      rintro ⟨m, hm, hpre⟩
      rw [List.drop_of_length_le (by omega)] at hpre
      exact hS.nonempty hm (List.prefix_nil.mp hpre)
    constructor
    · rintro ⟨m, hm, hpre⟩
      rw [hdrop] at hpre
      exact .inr ⟨k, rfl, m, hm, hpre⟩
    · rintro (h | ⟨k', heq, m, hm, hpre⟩)
      · exact absurd h hxs
      · obtain rfl : k = k' := by omega
        exact ⟨m, hm, by rwa [hdrop]⟩
  · have hdrop : (xs ++ d :: ys).drop n = xs.drop n ++ d :: ys := List.drop_append_of_le_length hn
    constructor
    · rintro ⟨m, hm, hpre⟩
      rw [hdrop, prefix_append_cons_iff fun hmem => hd (hS.chars hm d hmem)] at hpre
      exact .inl ⟨m, hm, hpre⟩
    · rintro (⟨m, hm, hpre⟩ | ⟨k, heq, -⟩)
      · refine ⟨m, hm, ?_⟩
        rw [hdrop, prefix_append_cons_iff fun hmem => hd (hS.chars hm d hmem)]
        exact hpre
      · omega

theorem clean_append_cons_iff (hS : MadeOf inside S) (hd : ¬inside d) :
    Clean S (xs ++ d :: ys) ↔ Clean S xs ∧ Clean S ys := by
  rw [clean_iff_occursAt, clean_iff_occursAt, clean_iff_occursAt]
  constructor
  · intro h
    refine ⟨fun n hxs => h n ((occursAt_append_cons hS hd).mpr (.inl hxs)), fun n hys => ?_⟩
    exact h _ ((occursAt_append_cons hS hd).mpr (.inr ⟨n, rfl, hys⟩))
  · rintro ⟨hxs, hys⟩ n hn
    rcases (occursAt_append_cons hS hd).mp hn with h | ⟨k, -, h⟩
    · exact hxs n h
    · exact hys k h

theorem clean_cons_iff (hS : MadeOf inside S) (hd : ¬inside d) : Clean S (d :: ys) ↔ Clean S ys := by
  have h := @clean_append_cons_iff α S inside [] ys d hS hd
  rw [List.nil_append] at h
  rw [h, and_iff_right (clean_nil hS)]

theorem clean_concat_iff (hS : MadeOf inside S) (hd : ¬inside d) : Clean S (xs ++ [d]) ↔ Clean S xs := by
  rw [clean_append_cons_iff hS hd, and_iff_left (clean_nil hS)]

theorem clean_append_outside (hS : MadeOf inside S) (hys : ∀ c ∈ ys, ¬inside c) (h : Clean S xs) :
    Clean S (xs ++ ys) := by
  induction ys using List.reverseRecOn with
  | nil => rwa [List.append_nil]
  | append_singleton ys c ih =>
    rw [← List.append_assoc, clean_concat_iff hS (hys c (by simp))]
    exact ih fun d hd => hys d (List.mem_append_left _ hd)

/-- Where stretches do not end with a character, one at the end of a text is in none. -/
theorem clean_concat_of_last (hlast : ∀ m, S m → m.getLast? ≠ some d) (h : Clean S xs) : Clean S (xs ++ [d]) := by
  rintro m hm ⟨before, after, heq⟩
  rcases List.eq_nil_or_concat after with rfl | ⟨front, c, rfl⟩
  · rw [List.append_nil] at heq
    rcases List.eq_nil_or_concat m with rfl | ⟨front, c, rfl⟩
    · exact h [] hm (List.nil_infix)
    · rw [List.concat_eq_append, ← List.append_assoc] at heq
      obtain ⟨-, hc⟩ := List.append_inj' heq rfl
      rw [List.concat_eq_append] at hm
      refine hlast _ hm ?_
      rw [List.getLast?_concat, (List.cons.inj hc).1]
  · rw [List.concat_eq_append, ← List.append_assoc] at heq
    obtain ⟨hxs, -⟩ := List.append_inj' heq rfl
    exact h m hm ⟨before, front, hxs⟩

/-- A text that any clean text may follow. -/
def Sealed (S : List α → Prop) (xs : List α) : Prop := ∀ ys, Clean S ys → Clean S (xs ++ ys)

theorem Sealed.append (hxs : Sealed S xs) (hys : Sealed S ys) : Sealed S (xs ++ ys) := by
  intro zs hzs
  rw [List.append_assoc]
  exact hxs _ (hys zs hzs)

theorem sealed_concat (hS : MadeOf inside S) (hd : ¬inside d) (hxs : Clean S xs) : Sealed S (xs ++ [d]) := by
  intro ys hys
  rw [List.append_assoc]
  exact (clean_append_cons_iff hS hd).mpr ⟨hxs, hys⟩

/-- A text that any clean text may precede. -/
def Barred (S : List α → Prop) (ys : List α) : Prop := ∀ xs, Clean S xs → Clean S (xs ++ ys)

/-- A text that clean texts may stand on both sides of. -/
def Tight (S : List α → Prop) (mid : List α) : Prop := ∀ xs ys, Clean S xs → Clean S ys → Clean S (xs ++ (mid ++ ys))

theorem Barred.append (hxs : Barred S xs) (hys : Barred S ys) : Barred S (xs ++ ys) := by
  intro zs hzs
  rw [← List.append_assoc]
  exact hys _ (hxs zs hzs)

theorem barred_nil : Barred S [] := by
  intro xs hxs
  rwa [List.append_nil]

theorem barred_flatten {blocks : List (List α)} (h : ∀ block ∈ blocks, Barred S block) : Barred S blocks.flatten := by
  induction blocks with
  | nil => exact barred_nil
  | cons block blocks ih =>
    rw [List.forall_mem_cons] at h
    exact h.1.append (ih h.2)

theorem Barred.clean (hS : MadeOf inside S) (h : Barred S ys) : Clean S ys := by
  rw [← List.nil_append ys]
  exact h [] (clean_nil hS)

theorem barred_cons (hS : MadeOf inside S) (hd : ¬inside d) (hys : Clean S ys) : Barred S (d :: ys) := fun _ hxs =>
  (clean_append_cons_iff hS hd).mpr ⟨hxs, hys⟩

theorem barred_outside (hS : MadeOf inside S) (hys : ∀ c ∈ ys, ¬inside c) : Barred S ys := fun _ hxs =>
  clean_append_outside hS hys hxs

theorem clean_outside_append (hS : MadeOf inside S) (hxs : ∀ c ∈ xs, ¬inside c) (hys : Clean S ys) :
    Clean S (xs ++ ys) := by
  induction xs with
  | nil => exact hys
  | cons c xs ih =>
    rw [List.forall_mem_cons] at hxs
    exact (clean_cons_iff hS hxs.1).mpr (ih hxs.2)

theorem Tight.barred_append (hxs : Tight S xs) (hys : Clean S ys) : Barred S (xs ++ ys) := fun zs hzs =>
  hxs zs ys hzs hys

/-- Writing characters over by others that are in no stretch puts none together. -/
theorem clean_map (hS : MadeOf inside S) {f : α → α} (hf : ∀ c, inside (f c) → f c = c) (hxs : Clean S xs) :
    Clean S (xs.map f) := by
  rintro m hm hpart
  obtain ⟨part, hsub, rfl⟩ := List.infix_map_iff.mp hpart
  have hself : part.map f = part.map id := List.map_congr_left fun c hc =>
    hf c (hS.chars hm (f c) (List.mem_map_of_mem hc))
  rw [hself, List.map_id] at hm
  exact hxs part hm hsub

/-- Nothing occurs beyond a character that is in no stretch, when what follows is clean. -/
theorem occursAt_append_of_clean (hS : MadeOf inside S) (hd : ¬inside d) (hys : Clean S ys) :
    OccursAt S (xs ++ [d] ++ ys) n ↔ OccursAt S (xs ++ [d]) n := by
  have hnone : ∀ zs, Clean S zs → ((∃ k, n = xs.length + 1 + k ∧ OccursAt S zs k) ↔ False) := by
    intro zs hzs
    rw [iff_false]
    rintro ⟨k, -, hk⟩
    exact clean_iff_occursAt.mp hzs k hk
  rw [List.append_assoc, List.singleton_append, occursAt_append_cons hS hd, occursAt_append_cons hS hd,
    hnone ys hys, hnone [] (clean_nil hS)]

end Occurrences

/-! ## Scrubbing -/

section Scrubbing

variable {α : Type} {matchAt : List α → Option (List α)} {S T : List α → Prop} {inside : α → Prop}
  {cs mid m : List α} {a b : α}

/-- A matcher that answers exactly where a stretch of the language stands, with what is left behind it. -/
def Reads (matchAt : List α → Option (List α)) (S : List α → Prop) : Prop :=
  ∀ cs rest, matchAt cs = some rest ↔ ∃ m, S m ∧ cs = m ++ rest

theorem Reads.eq_none_iff (h : Reads matchAt S) : matchAt cs = none ↔ ∀ m, S m → ¬m <+: cs := by
  rw [Option.eq_none_iff_forall_not_mem]
  constructor
  · rintro hnone m hm ⟨rest, rfl⟩
    exact hnone rest ((h _ rest).mpr ⟨m, hm, rfl⟩)
  · rintro hnone rest hrest
    obtain ⟨m, hm, rfl⟩ := (h cs rest).mp hrest
    exact hnone m hm (List.prefix_append m rest)

theorem carries_eq_false_iff (h : Reads matchAt S) : carries matchAt cs = false ↔ Clean S cs := by
  rw [carries, List.any_eq_false]
  constructor
  · rintro hnone m hm ⟨before, after, rfl⟩
    have htail := hnone (m ++ after) ((List.mem_tails _ _).mpr ⟨before, by rw [List.append_assoc]⟩)
    rw [(h _ after).mpr ⟨m, hm, rfl⟩] at htail
    exact htail rfl
  · intro hclean t ht
    have hnone : matchAt t = none :=
      h.eq_none_iff.mpr fun m hm hpre => hclean m hm (hpre.isInfix.trans ((List.mem_tails t cs).mp ht).isInfix)
    rw [hnone]
    simp

theorem mem_scrub {scar : List α} {c : α} {skip : Nat} (h : c ∈ scrub matchAt scar skip cs) : c ∈ scar ∨ c ∈ cs := by
  induction cs generalizing skip with
  | nil => cases skip <;> cases h
  | cons d cs ih =>
    cases skip with
    | succ skip => exact (ih h).imp_right (List.mem_cons_of_mem d)
    | zero =>
      rw [scrub] at h
      cases hmatch : matchAt (d :: cs) with
      | some rest =>
        rw [hmatch] at h
        rcases List.mem_append.mp h with h | h
        · exact .inl h
        · exact (ih h).imp_right (List.mem_cons_of_mem d)
      | none =>
        rw [hmatch] at h
        rcases List.mem_cons.mp h with rfl | h
        · exact .inr List.mem_cons_self
        · exact (ih h).imp_right (List.mem_cons_of_mem d)

/-- What a scrubbed text begins with, up to a scar, the text begins with. -/
theorem prefix_scrub (ha : a ∉ m) (hne : m ≠ []) (h : m <+: scrub matchAt (a :: mid) 0 cs) :
    m <+: cs ∧ matchAt cs = none := by
  induction m generalizing cs with
  | nil => exact absurd rfl hne
  | cons x m ih =>
    rw [List.mem_cons, not_or] at ha
    cases cs with
    | nil => exact absurd (List.prefix_nil.mp h) (List.cons_ne_nil x m)
    | cons c cs =>
      rw [scrub] at h
      cases hmatch : matchAt (c :: cs) with
      | some rest =>
        rw [hmatch] at h
        exact absurd (List.cons_prefix_cons.mp h).1.symm ha.1
      | none =>
        rw [hmatch] at h
        obtain ⟨rfl, htail⟩ := List.cons_prefix_cons.mp h
        refine ⟨?_, rfl⟩
        by_cases hm : m = []
        · rw [hm]
          exact List.cons_prefix_cons.mpr ⟨rfl, List.nil_prefix⟩
        · exact List.cons_prefix_cons.mpr ⟨rfl, (ih ha.2 hm htail).1⟩

/-- **What stands in a scrubbed text** stands inside a scar, or was copied from a place where nothing matched. -/
theorem infix_scrub (ha : a ∉ m) (hb : b ∉ m) (hne : m ≠ []) {skip : Nat}
    (h : m <:+: scrub matchAt (a :: (mid ++ [b])) skip cs) :
    m <:+: mid ∨ ∃ t, t <:+ cs ∧ m <+: t ∧ matchAt t = none := by
  have hlater : ∀ {c cs'}, (m <:+: mid ∨ ∃ t, t <:+ cs' ∧ m <+: t ∧ matchAt t = none) →
      m <:+: mid ∨ ∃ t, t <:+ c :: cs' ∧ m <+: t ∧ matchAt t = none := by
    rintro c cs' (hmid | ⟨t, ht, hpre, hnone⟩)
    · exact .inl hmid
    · exact .inr ⟨t, ht.trans (List.suffix_cons c cs'), hpre, hnone⟩
  have hS : MadeOf (· ∈ m) (· = m) := ⟨fun hm => hm ▸ hne, fun hm c hc => hm ▸ hc⟩
  induction cs generalizing skip with
  | nil =>
    cases skip <;> exact absurd (List.infix_nil.mp h) hne
  | cons c cs ih =>
    cases skip with
    | succ skip => exact hlater (ih h)
    | zero =>
      cases hmatch : matchAt (c :: cs) with
      | some rest =>
        rw [scrub, hmatch] at h
        by_contra hnot
        have hout : Clean (· = m) (scrub matchAt (a :: (mid ++ [b])) (cs.length - rest.length) cs) := by
          rintro _ rfl hpart
          exact hnot (hlater (ih hpart))
        have hmid : Clean (· = m) mid := by
          rintro _ rfl hpart
          exact hnot (.inl hpart)
        have hscar : Clean (· = m)
            (a :: (mid ++ b :: scrub matchAt (a :: (mid ++ [b])) (cs.length - rest.length) cs)) :=
          (clean_cons_iff hS ha).mpr ((clean_append_cons_iff hS hb).mpr ⟨hmid, hout⟩)
        refine hscar m rfl ?_
        simpa using h
      | none =>
        have hstep : scrub matchAt (a :: (mid ++ [b])) 0 (c :: cs) = c :: scrub matchAt (a :: (mid ++ [b])) 0 cs := by
          rw [scrub, hmatch]
        rw [hstep] at h
        rcases List.infix_cons_iff.mp h with hpre | hpart
        · rw [← hstep] at hpre
          obtain ⟨hcs, hnone⟩ := prefix_scrub ha hne hpre
          exact .inr ⟨c :: cs, List.suffix_rfl, hcs, hnone⟩
        · exact hlater (ih hpart)

/-- **A scrubbed text has no stretch left.** -/
theorem clean_scrub (hreads : Reads matchAt S) (hS : MadeOf inside S) (ha : ¬inside a) (hb : ¬inside b)
    (hmid : Clean S mid) (skip : Nat) (cs : List α) : Clean S (scrub matchAt (a :: (mid ++ [b])) skip cs) := by
  intro m hm hpart
  rcases infix_scrub (fun h => ha (hS.chars hm a h)) (fun h => hb (hS.chars hm b h)) (hS.nonempty hm) hpart with
    h | ⟨t, -, hpre, hnone⟩
  · exact hmid m hm h
  · exact hreads.eq_none_iff.mp hnone m hm hpre

/-- Scrubbing puts no stretch of another language together. -/
theorem clean_scrub_other (hS : MadeOf inside S) (ha : ¬inside a) (hb : ¬inside b) (hmid : Clean S mid) (skip : Nat)
    (h : Clean S cs) : Clean S (scrub matchAt (a :: (mid ++ [b])) skip cs) := by
  intro m hm hpart
  rcases infix_scrub (fun h => ha (hS.chars hm a h)) (fun h => hb (hS.chars hm b h)) (hS.nonempty hm) hpart with
    hscar | ⟨t, ht, hpre, -⟩
  · exact hmid m hm hscar
  · exact h m hm (hpre.isInfix.trans ht.isInfix)

end Scrubbing

/-! ## Phrases -/

section Phrases

variable {α : Type} (isSpace : α → Bool) (same : α → α → Bool)

/-- White space and a word, again and again. -/
def SpelledRest (least : Nat) : List (List α) → List α → Prop
  | [], m => m = []
  | word :: words, m => ∃ space spelled rest, m = space ++ (spelled ++ rest) ∧ least ≤ space.length ∧
      (∀ c ∈ space, isSpace c = true) ∧ List.Forall₂ (fun c w => same c w = true) spelled word ∧
      SpelledRest least words rest

/-- The words of a phrase, with white space between them, `least` characters of it at least. -/
def Spelled (least : Nat) : List (List α) → List α → Prop
  | [], m => m = []
  | word :: words, m => ∃ spelled rest, m = spelled ++ rest ∧
      List.Forall₂ (fun c w => same c w = true) spelled word ∧ SpelledRest isSpace same least words rest

/-- What counts as a character of a word is no white space, and no word is empty. -/
structure Solid (words : List (List α)) : Prop where
  nonempty : ∀ word ∈ words, word ≠ []
  noSpace : ∀ word ∈ words, ∀ w ∈ word, ∀ c, same c w = true → isSpace c = false

/-- A character a spelled phrase may have. -/
def inPhrase (words : List (List α)) (c : α) : Bool := isSpace c || words.any fun word => word.any fun w => same c w

variable {isSpace same} {least : Nat} {word : List α} {words : List (List α)} {cs m rest : List α}

theorem matchWord_eq_some_iff : matchWord same word cs = some rest ↔
    ∃ spelled, List.Forall₂ (fun c w => same c w = true) spelled word ∧ cs = spelled ++ rest := by
  induction word generalizing cs with
  | nil =>
    constructor
    · intro h
      obtain rfl := Option.some.inj h
      exact ⟨[], .nil, rfl⟩
    · rintro ⟨spelled, hspelled, rfl⟩
      cases hspelled
      rfl
  | cons w word ih =>
    constructor
    · intro h
      cases cs with
      | nil => cases h
      | cons c cs =>
        rw [matchWord] at h
        split_ifs at h with hsame
        obtain ⟨spelled, hspelled, rfl⟩ := ih.mp h
        exact ⟨c :: spelled, .cons hsame hspelled, rfl⟩
    · rintro ⟨spelled, hspelled, rfl⟩
      cases hspelled with
      | @cons c _ spelled _ hsame hspelled =>
        rw [List.cons_append, matchWord, if_pos hsame]
        exact ih.mpr ⟨spelled, hspelled, rfl⟩

theorem exists_same {spelled : List α} (h : List.Forall₂ (fun c w => same c w = true) spelled word) :
    ∀ c ∈ spelled, ∃ w ∈ word, same c w = true := by
  induction h with
  | nil =>
    intro c hc
    cases hc
  | @cons d v spelled word hsame _ ih =>
    intro c hc
    rcases List.mem_cons.mp hc with rfl | hc
    · exact ⟨v, List.mem_cons_self, hsame⟩
    · obtain ⟨w, hw, hcw⟩ := ih c hc
      exact ⟨w, List.mem_cons_of_mem v hw, hcw⟩

theorem Solid.tail (h : Solid isSpace same (word :: words)) : Solid isSpace same words :=
  ⟨fun v hv => h.nonempty v (List.mem_cons_of_mem _ hv), fun v hv => h.noSpace v (List.mem_cons_of_mem _ hv)⟩

/-- White space in front of a word is all there is before it. -/
theorem dropWhile_space {space spelled : List α} (h : Solid isSpace same (word :: words))
    (hspace : ∀ c ∈ space, isSpace c = true) (hspelled : List.Forall₂ (fun c w => same c w = true) spelled word) :
    (space ++ (spelled ++ rest)).dropWhile isSpace = spelled ++ rest := by
  rw [List.dropWhile_append_of_pos hspace]
  cases hspelled with
  | nil => exact absurd rfl (h.nonempty [] List.mem_cons_self)
  | @cons c w spelled word hsame hrest =>
    rw [List.cons_append, List.dropWhile_cons_of_neg]
    rw [h.noSpace (w :: word) List.mem_cons_self w List.mem_cons_self c hsame]
    exact Bool.false_ne_true

theorem matchWords_eq_some_iff (h : Solid isSpace same words) :
    matchWords isSpace same words cs = some rest ↔ ∃ m, SpelledRest isSpace same 1 words m ∧ cs = m ++ rest := by
  induction words generalizing cs with
  | nil =>
    constructor
    · intro hcs
      exact ⟨[], rfl, Option.some.inj hcs⟩
    · rintro ⟨m, rfl, rfl⟩
      rfl
  | cons word words ih =>
    rw [matchWords]
    constructor
    · intro hcs
      split_ifs at hcs with hnone
      obtain ⟨behind, hword, hrest⟩ := Option.bind_eq_some_iff.mp hcs
      obtain ⟨spelled, hspelled, hbehind⟩ := matchWord_eq_some_iff.mp hword
      obtain ⟨m, hm, rfl⟩ := (ih h.tail).mp hrest
      have hsplit : cs.takeWhile isSpace ++ cs.dropWhile isSpace = cs := List.takeWhile_append_dropWhile
      refine ⟨cs.takeWhile isSpace ++ (spelled ++ m), ⟨_, spelled, m, rfl, ?_, fun c hc => ?_, hspelled, hm⟩, ?_⟩
      · have hlength := congrArg List.length hsplit
        rw [List.length_append] at hlength
        omega
      · exact List.mem_takeWhile_imp hc
      · rw [List.append_assoc, List.append_assoc, ← hbehind, hsplit]
    · rintro ⟨_, ⟨space, spelled, m, rfl, hleast, hspace, hspelled, hm⟩, rfl⟩
      have hdrop : (space ++ (spelled ++ m) ++ rest).dropWhile isSpace = spelled ++ (m ++ rest) := by
        rw [List.append_assoc, List.append_assoc]
        exact dropWhile_space h hspace hspelled
      have hlength : (spelled ++ (m ++ rest)).length ≠ (space ++ (spelled ++ m) ++ rest).length := by
        simp only [List.length_append]
        omega
      rw [hdrop, if_neg hlength, Option.bind_eq_some_iff]
      exact ⟨m ++ rest, matchWord_eq_some_iff.mpr ⟨spelled, hspelled, rfl⟩, (ih h.tail).mpr ⟨m, hm, rfl⟩⟩

/-- **The matcher of a phrase** answers exactly where it stands. -/
theorem reads_matchPhrase (h : Solid isSpace same words) :
    Reads (matchPhrase isSpace same words) (Spelled isSpace same 1 words) := by
  intro cs rest
  cases words with
  | nil =>
    constructor
    · intro hcs
      exact ⟨[], rfl, Option.some.inj hcs⟩
    · rintro ⟨m, rfl, rfl⟩
      rfl
  | cons word words =>
    rw [matchPhrase, Option.bind_eq_some_iff]
    constructor
    · rintro ⟨behind, hword, hrest⟩
      obtain ⟨spelled, hspelled, rfl⟩ := matchWord_eq_some_iff.mp hword
      obtain ⟨m, hm, rfl⟩ := (matchWords_eq_some_iff h.tail).mp hrest
      exact ⟨spelled ++ m, ⟨spelled, m, rfl, hspelled, hm⟩, by rw [List.append_assoc]⟩
    · rintro ⟨_, ⟨spelled, m, rfl, hspelled, hm⟩, rfl⟩
      refine ⟨m ++ rest, matchWord_eq_some_iff.mpr ⟨spelled, hspelled, by rw [List.append_assoc]⟩, ?_⟩
      exact (matchWords_eq_some_iff h.tail).mpr ⟨m, hm, rfl⟩

theorem inPhrase_of_spelled {spelled : List α} (hword : word ∈ words)
    (h : List.Forall₂ (fun c w => same c w = true) spelled word) :
    ∀ c ∈ spelled, inPhrase isSpace same words c = true := by
  intro c hc
  obtain ⟨w, hw, hsame⟩ := exists_same h c hc
  rw [inPhrase, Bool.or_eq_true]
  exact .inr (List.any_eq_true.mpr ⟨word, hword, List.any_eq_true.mpr ⟨w, hw, hsame⟩⟩)

theorem inPhrase_of_spelledRest {all : List (List α)} (hsub : words ⊆ all)
    (h : SpelledRest isSpace same least words m) : ∀ c ∈ m, inPhrase isSpace same all c = true := by
  induction words generalizing m with
  | nil =>
    obtain rfl := h
    intro c hc
    cases hc
  | cons word words ih =>
    obtain ⟨space, spelled, rest, rfl, -, hspace, hspelled, hrest⟩ := h
    intro c hc
    rcases List.mem_append.mp hc with hc | hc
    · rw [inPhrase, hspace c hc, Bool.true_or]
    rcases List.mem_append.mp hc with hc | hc
    · exact inPhrase_of_spelled (hsub List.mem_cons_self) hspelled c hc
    · exact ih (fun v hv => hsub (List.mem_cons_of_mem _ hv)) hrest c hc

theorem madeOf_spelled (hne : word ≠ []) :
    MadeOf (fun c => inPhrase isSpace same (word :: words) c = true)
      (Spelled isSpace same least (word :: words)) := by
  constructor
  · rintro _ ⟨spelled, rest, rfl, hspelled, -⟩ hnil
    obtain ⟨rfl, -⟩ := List.append_eq_nil_iff.mp hnil
    cases hspelled
    exact hne rfl
  · rintro _ ⟨spelled, rest, rfl, hspelled, hrest⟩ c hc
    rcases List.mem_append.mp hc with hc | hc
    · exact inPhrase_of_spelled List.mem_cons_self hspelled c hc
    · exact inPhrase_of_spelledRest (List.subset_cons_self word words) hrest c hc

/-- A phrase begins with a word. -/
theorem head_of_spelled (h : Solid isSpace same (word :: words))
    (hm : Spelled isSpace same least (word :: words) m) : ∃ c rest, m = c :: rest ∧ isSpace c = false := by
  obtain ⟨spelled, rest, rfl, hspelled, -⟩ := hm
  cases hspelled with
  | nil => exact absurd rfl (h.nonempty [] List.mem_cons_self)
  | @cons c w spelled word hsame hrest =>
    exact ⟨c, spelled ++ rest, rfl, h.noSpace (w :: word) List.mem_cons_self w List.mem_cons_self c hsame⟩

theorem getLast_of_spelledWord {spelled : List α} (h : Solid isSpace same (word :: words))
    (hspelled : List.Forall₂ (fun c w => same c w = true) spelled word) :
    ∃ front c, spelled = front ++ [c] ∧ isSpace c = false := by
  rcases List.eq_nil_or_concat spelled with rfl | ⟨front, c, rfl⟩
  · cases hspelled
    exact absurd rfl (h.nonempty [] List.mem_cons_self)
  · rw [List.concat_eq_append] at hspelled
    obtain ⟨w, hw, hsame⟩ := exists_same hspelled c (List.mem_append_right front (.head []))
    exact ⟨front, c, List.concat_eq_append, h.noSpace word List.mem_cons_self w hw c hsame⟩

theorem getLast_of_spelledRest (h : Solid isSpace same words) (hne : words ≠ [])
    (hm : SpelledRest isSpace same least words m) : ∃ front c, m = front ++ [c] ∧ isSpace c = false := by
  induction words generalizing m with
  | nil => exact absurd rfl hne
  | cons word words ih =>
    obtain ⟨space, spelled, rest, rfl, -, -, hspelled, hrest⟩ := hm
    by_cases hwords : words = []
    · obtain ⟨front, c, rfl, hc⟩ := getLast_of_spelledWord h hspelled
      subst hwords
      obtain rfl := hrest
      exact ⟨space ++ front, c, by rw [List.append_nil, List.append_assoc], hc⟩
    · obtain ⟨front, c, rfl, hc⟩ := ih h.tail hwords hrest
      exact ⟨space ++ (spelled ++ front), c, by simp only [List.append_assoc], hc⟩

/-- A phrase ends with a word. -/
theorem getLast_of_spelled (h : Solid isSpace same (word :: words))
    (hm : Spelled isSpace same least (word :: words) m) : ∃ front c, m = front ++ [c] ∧ isSpace c = false := by
  obtain ⟨spelled, rest, rfl, hspelled, hrest⟩ := hm
  by_cases hwords : words = []
  · subst hwords
    obtain rfl := hrest
    rw [List.append_nil]
    exact getLast_of_spelledWord h hspelled
  · obtain ⟨front, c, rfl, hc⟩ := getLast_of_spelledRest h.tail hwords hrest
    exact ⟨spelled ++ front, c, by rw [List.append_assoc], hc⟩

/-- White space at an end of a text is in no phrase of it. -/
theorem clean_cons_space (h : Solid isSpace same (word :: words)) {c : α} (hc : isSpace c = true)
    (hcs : Clean (Spelled isSpace same least (word :: words)) cs) :
    Clean (Spelled isSpace same least (word :: words)) (c :: cs) := by
  intro m hm hpart
  rcases List.infix_cons_iff.mp hpart with hpre | hpart
  · obtain ⟨d, rest, rfl, hd⟩ := head_of_spelled h hm
    rw [(List.cons_prefix_cons.mp hpre).1, hc] at hd
    cases hd
  · exact hcs m hm hpart

theorem clean_concat_space (h : Solid isSpace same (word :: words)) {c : α} (hc : isSpace c = true)
    (hcs : Clean (Spelled isSpace same least (word :: words)) cs) :
    Clean (Spelled isSpace same least (word :: words)) (cs ++ [c]) := by
  refine clean_concat_of_last (fun m hm hlast => ?_) hcs
  obtain ⟨front, d, rfl, hd⟩ := getLast_of_spelled h hm
  rw [List.getLast?_concat, Option.some.injEq] at hlast
  rw [hlast, hc] at hd
  cases hd

theorem clean_spaces_append (h : Solid isSpace same (word :: words)) {space : List α}
    (hspace : ∀ c ∈ space, isSpace c = true) (hcs : Clean (Spelled isSpace same least (word :: words)) cs) :
    Clean (Spelled isSpace same least (word :: words)) (space ++ cs) := by
  induction space with
  | nil => exact hcs
  | cons c space ih =>
    rw [List.forall_mem_cons] at hspace
    exact clean_cons_space h hspace.1 (ih hspace.2)

theorem barred_spaces (h : Solid isSpace same (word :: words)) {space : List α}
    (hspace : ∀ c ∈ space, isSpace c = true) : Barred (Spelled isSpace same least (word :: words)) space := by
  intro xs hxs
  induction space using List.reverseRecOn with
  | nil => rwa [List.append_nil]
  | append_singleton space c ih =>
    rw [← List.append_assoc]
    refine clean_concat_space h (hspace c (List.mem_append_right _ (List.mem_singleton_self c))) ?_
    exact ih fun d hd => hspace d (List.mem_append_left _ hd)

/-- Behind white space, a character that is in no phrase keeps a text apart from what precedes it. -/
theorem barred_of_head (h : Solid isSpace same (word :: words)) {text : List α}
    (hfirst : (text.dropWhile isSpace).head?.all (fun c => !inPhrase isSpace same (word :: words) c) = true)
    (htext : Clean (Spelled isSpace same least (word :: words)) text) :
    Barred (Spelled isSpace same least (word :: words)) text := by
  rw [← List.takeWhile_append_dropWhile (p := isSpace) (l := text)] at htext ⊢
  refine (barred_spaces h fun c hc => List.mem_takeWhile_imp hc).append ?_
  cases hrest : text.dropWhile isSpace with
  | nil => exact barred_nil
  | cons d rest =>
    rw [hrest] at hfirst htext
    have hd : ¬inPhrase isSpace same (word :: words) d = true := by simpa using hfirst
    refine barred_cons (madeOf_spelled (h.nonempty word List.mem_cons_self)) hd (htext.mono ?_)
    exact ((List.suffix_cons d rest).trans (List.suffix_append _ _)).isInfix

/-- One at each end keeps it apart on both sides. -/
theorem tight_of_ends (h : Solid isSpace same (word :: words)) {text : List α}
    (hfirst : (text.dropWhile isSpace).head?.all (fun c => !inPhrase isSpace same (word :: words) c) = true)
    (hlast : (text.rdropWhile isSpace).getLast?.any (fun c => !inPhrase isSpace same (word :: words) c) = true)
    (htext : Clean (Spelled isSpace same least (word :: words)) text) :
    Tight (Spelled isSpace same least (word :: words)) text := by
  intro xs ys hxs hys
  obtain ⟨e, he, hout⟩ := Option.any_eq_true _ _ |>.mp hlast
  obtain ⟨front, hfront⟩ := List.getLast?_eq_some_iff.mp he
  have hcut : text = front ++ e :: text.rtakeWhile isSpace := by
    have hends := List.rdropWhile_append_rtakeWhile (p := isSpace) (l := text)
    rw [hfront, List.append_assoc, List.singleton_append] at hends
    exact hends.symm
  have hnotin : ¬inPhrase isSpace same (word :: words) e = true := by
    rw [Bool.not_eq_true]
    exact Bool.not_eq_true' _ ▸ hout
  have hbehind : Clean (Spelled isSpace same least (word :: words)) (text ++ ys) := by
    rw [hcut, List.append_assoc, List.cons_append]
    refine (clean_append_cons_iff (madeOf_spelled (h.nonempty word List.mem_cons_self)) hnotin).mpr
      ⟨htext.mono ?_, clean_spaces_append h (fun c hc => List.mem_rtakeWhile_imp hc) hys⟩
    rw [hcut]
    exact (List.prefix_append _ _).isInfix
  -- the character at the end is no white space, so there is one at the front
  have hspace : isSpace e = false := by
    have hno := hnotin
    rw [inPhrase, Bool.or_eq_true, not_or] at hno
    exact eq_false_of_ne_true hno.1
  have hne : (text.dropWhile isSpace).isEmpty = false := by
    rw [List.isEmpty_eq_false_iff]
    intro hnil
    have hall := List.dropWhile_eq_nil_iff.mp hnil e (hcut ▸ by simp)
    rw [hspace] at hall
    cases hall
  refine barred_of_head h ?_ hbehind xs hxs
  rw [List.dropWhile_append, if_neg (by simp [hne]), List.head?_append]
  cases hrest : text.dropWhile isSpace with
  | nil =>
    rw [hrest] at hne
    cases hne
  | cons d rest =>
    rw [hrest] at hfirst
    exact hfirst

/-- Two words are not spelled without white space. -/
theorem clean_of_noSpace {next : List α} (hleast : 0 < least) (hcs : ∀ c ∈ cs, isSpace c = false) :
    Clean (Spelled isSpace same least (word :: next :: words)) cs := by
  rintro _ ⟨spelled, _, rfl, -, space, spelled', rest', rfl, hspace, hall, -, -⟩ hpart
  cases space with
  | nil => exact absurd hspace (by simp; omega)
  | cons c space =>
    have hc := hcs c (hpart.subset (by simp))
    rw [hall c List.mem_cons_self] at hc
    cases hc

end Phrases

/-! ## Texts that are known -/

section Known

variable {α : Type} {matchAt : List α → Option (List α)} {S : List α → Prop} {inside : α → Prop} {cs : List α}

/-- The places where the matcher answers. -/
def occurrences (matchAt : List α → Option (List α)) (cs : List α) : List Nat :=
  (List.range cs.length).filter fun n => (matchAt (cs.drop n)).isSome

theorem mem_occurrences_iff (hreads : Reads matchAt S) (hS : MadeOf inside S) {n : Nat} :
    n ∈ occurrences matchAt cs ↔ OccursAt S cs n := by
  rw [occurrences, List.mem_filter, List.mem_range, Option.isSome_iff_exists]
  constructor
  · rintro ⟨-, rest, hrest⟩
    obtain ⟨m, hm, heq⟩ := (hreads _ rest).mp hrest
    exact ⟨m, hm, heq ▸ List.prefix_append m rest⟩
  · rintro ⟨m, hm, rest, hrest⟩
    refine ⟨?_, rest, (hreads _ rest).mpr ⟨m, hm, hrest.symm⟩⟩
    by_contra hlen
    rw [List.drop_of_length_le (by omega), List.append_eq_nil_iff] at hrest
    exact hS.nonempty hm hrest.1

end Known

end RallyPoint.Lib
