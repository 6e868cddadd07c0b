/-
# RallyPoint.Lib.MarkerScan — the token behind the first readable marker of a text.

A scan looks for a marker from the left. An occurrence counts when it stands at the boundary of a word and a token
follows it; after one that does not count the search goes on behind it. When no end of the marker is a beginning of
it, no occurrence hides inside another, and the scan finds what `NamesFirst` says (`find_eq_some_iff`). Across a
character that is in no marker and in no token, a text is scanned piece by piece (`find_append`).
-/
import Mathlib.Data.List.Infix

namespace RallyPoint.Lib

/-- A list without a separator is a prefix of a text when it is one of the text's first piece. -/
theorem prefix_append_cons_iff {α : Type*} {p xs ys : List α} {d : α} (hd : d ∉ p) : p <+: xs ++ d :: ys ↔ p <+: xs := by
  constructor
  · intro h
    rcases List.prefix_or_prefix_of_prefix h (List.prefix_append xs (d :: ys)) with hp | hxs
    · exact hp
    · obtain ⟨rest, rfl⟩ := hxs
      obtain ⟨more, hmore⟩ := h
      rw [List.append_assoc, List.append_cancel_left_eq] at hmore
      cases rest with
      | nil => rw [List.append_nil]
      | cons c rest =>
        cases hmore
        exact absurd (List.mem_append_right xs List.mem_cons_self) hd
  · exact fun h => h.trans (List.prefix_append xs (d :: ys))

/-- A marker, the characters that make what follows them part of a word, and the characters of a token. -/
structure Scan where
  marker : List Char
  word : Char → Bool
  token : Char → Bool

namespace Scan

variable (S : Scan)

def boundary (before : Option Char) : Bool := before.all fun c => !S.word c

/-- The search from one place of a text, `before` being the character before it; `skip` more characters belong to an
occurrence that did not count. -/
def find (before : Option Char) (skip : Nat) : List Char → Option (List Char)
  | [] => none
  | c :: cs =>
    match skip with
    | k + 1 => find (some c) k cs
    | 0 =>
      if S.marker.isPrefixOf (c :: cs) then
        let token := ((c :: cs).drop S.marker.length).takeWhile S.token
        if S.boundary before && !token.isEmpty then some token
        else find (some c) (S.marker.length - 1) cs
      else find (some c) 0 cs

/-- At a place of a text a marker names a token: it stands there at the boundary of a word, and the token follows. -/
structure NamesAt (text : List Char) (n : Nat) (id : List Char) : Prop where
  occurs : S.marker <+: text.drop n
  bounded : S.boundary (text.take n).getLast? = true
  token : id = (text.drop (n + S.marker.length)).takeWhile S.token
  nonempty : id ≠ []

/-- The token of the first place that names one. -/
def NamesFirst (text id : List Char) : Prop := ∃ n, S.NamesAt text n id ∧ ∀ k other, S.NamesAt text k other → n ≤ k

variable {S}

/-- A marker no end of which is a beginning of it. -/
def Borderless (marker : List Char) : Prop := ∀ j, 0 < j → j < marker.length → ¬marker.drop j <+: marker

theorem find_skip {before : Option Char} {k : Nat} {c : Char} {cs : List Char} :
    S.find before (k + 1) (c :: cs) = S.find (some c) k cs := rfl

theorem find_hit {before : Option Char} {c : Char} {cs : List Char} (hocc : S.marker.isPrefixOf (c :: cs) = true) :
    S.find before 0 (c :: cs) =
      if S.boundary before && !(((c :: cs).drop S.marker.length).takeWhile S.token).isEmpty then
        some (((c :: cs).drop S.marker.length).takeWhile S.token)
      else S.find (some c) (S.marker.length - 1) cs := by
  rw [find, if_pos hocc]

theorem find_miss {before : Option Char} {c : Char} {cs : List Char} (hocc : S.marker.isPrefixOf (c :: cs) = false) :
    S.find before 0 (c :: cs) = S.find (some c) 0 cs := by
  rw [find, hocc, if_neg Bool.false_ne_true]

/-- What stands before a text matters by being a boundary or not. -/
theorem find_congr {before before' : Option Char} (h : S.boundary before = S.boundary before') (skip : Nat)
    (cs : List Char) : S.find before skip cs = S.find before' skip cs := by
  cases cs with
  | nil => rfl
  | cons c cs =>
    cases skip with
    | zero => rw [find, find, h]
    | succ k => rfl

/-! ## Pieces -/

theorem takeWhile_append_cons {p : Char → Bool} {xs ys : List Char} {d : Char} (hd : p d = false) :
    (xs ++ d :: ys).takeWhile p = xs.takeWhile p := by
  induction xs with
  | nil => exact List.takeWhile_cons_of_neg (by simp [hd])
  | cons x xs ih => rw [List.cons_append, List.takeWhile_cons, List.takeWhile_cons, ih]

/-- **A text is scanned piece by piece** across a separator. -/
theorem find_append {d : Char} (hmarker : d ∉ S.marker) (hne : S.marker ≠ []) (htoken : S.token d = false)
    (before : Option Char) (skip : Nat) (xs ys : List Char) (hskip : skip ≤ xs.length) :
    S.find before skip (xs ++ d :: ys) = (S.find before skip xs).or (S.find (some d) 0 ys) := by
  induction xs generalizing before skip with
  | nil =>
    obtain rfl := Nat.le_zero.mp hskip
    have hmiss : S.marker.isPrefixOf (d :: ys) = false := by
      rw [Bool.eq_false_iff, ne_eq, List.isPrefixOf_iff_prefix]
      intro h
      exact hne (List.prefix_nil.mp ((@prefix_append_cons_iff _ _ [] _ _ hmarker).mp h))
    exact find_miss hmiss
  | cons c xs ih =>
    cases skip with
    | succ k => exact ih (some c) k (Nat.le_of_succ_le_succ hskip)
    | zero =>
      by_cases hocc : S.marker <+: c :: xs
      · have hlen : S.marker.length ≤ xs.length + 1 := hocc.length_le
        have htail : ((c :: (xs ++ d :: ys)).drop S.marker.length).takeWhile S.token =
            ((c :: xs).drop S.marker.length).takeWhile S.token := by
          rw [← List.cons_append, List.drop_append_of_le_length hlen, takeWhile_append_cons htoken]
        have hoccAll : S.marker <+: c :: (xs ++ d :: ys) := hocc.trans (List.prefix_append (c :: xs) (d :: ys))
        rw [List.cons_append, find_hit (List.isPrefixOf_iff_prefix.mpr hocc),
          find_hit (List.isPrefixOf_iff_prefix.mpr hoccAll), htail]
        split_ifs
        · rfl
        · exact ih (some c) _ (by omega)
      · have hmiss : S.marker.isPrefixOf (c :: xs) = false := by
          rwa [Bool.eq_false_iff, ne_eq, List.isPrefixOf_iff_prefix]
        have hmissAll : S.marker.isPrefixOf (c :: (xs ++ d :: ys)) = false := by
          rw [Bool.eq_false_iff, ne_eq, List.isPrefixOf_iff_prefix, ← List.cons_append,
            prefix_append_cons_iff hmarker]
          exact hocc
        rw [List.cons_append, find_miss hmiss, find_miss hmissAll]
        exact ih (some c) 0 (Nat.zero_le _)

/-! ## What is found -/

/-- Inside an occurrence of a borderless marker there is no other. -/
theorem no_occurrence_inside (hborder : Borderless S.marker) {text : List Char} {n j : Nat}
    (hocc : S.marker <+: text.drop n) (hpos : 0 < j) (hj : j < S.marker.length) :
    ¬S.marker <+: text.drop (n + j) := by
  intro hinside
  have hrest : S.marker.drop j <+: text.drop (n + j) := by
    rw [← List.drop_drop]
    exact hocc.drop j
  refine hborder j hpos hj (List.prefix_of_prefix_length_le hrest hinside ?_)
  rw [List.length_drop]
  omega

/-- The search from a place finds the first place from there on, when nothing occurs in what it skips. -/
theorem find_eq_some_iff_from (hborder : Borderless S.marker) (hne : S.marker ≠ []) {pre cs id : List Char}
    {skip : Nat} (hskip : ∀ k, pre.length ≤ k → k < pre.length + skip → ¬S.marker <+: (pre ++ cs).drop k) :
    S.find pre.getLast? skip cs = some id ↔
      ∃ n, pre.length ≤ n ∧ S.NamesAt (pre ++ cs) n id ∧
        ∀ k other, pre.length ≤ k → S.NamesAt (pre ++ cs) k other → n ≤ k := by
  induction cs generalizing pre skip with
  | nil =>
    -- at the end of the text no marker occurs
    have hnone : ∀ k other, pre.length ≤ k → ¬S.NamesAt (pre ++ []) k other := by
      intro k other hk hnames
      have hocc := hnames.occurs
      rw [List.append_nil, List.drop_of_length_le hk, List.prefix_nil] at hocc
      exact hne hocc
    constructor
    · intro h
      cases h
    · rintro ⟨n, hn, hnames, -⟩
      exact absurd hnames (hnone n id hn)
  | cons c cs ih =>
    have hmove : pre ++ c :: cs = (pre ++ [c]) ++ cs := by simp
    have hlast : (pre ++ [c]).getLast? = some c := by simp
    have hlength : (pre ++ [c]).length = pre.length + 1 := by simp
    have hdrop : (pre ++ c :: cs).drop pre.length = c :: cs := List.drop_left
    -- when nothing is named here, the places from here on are the places from the next one on
    have hnext : ∀ skip', S.find (some c) skip' cs = S.find pre.getLast? skip (c :: cs) →
        (∀ other, ¬S.NamesAt (pre ++ c :: cs) pre.length other) →
        (∀ k, pre.length + 1 ≤ k → k < pre.length + 1 + skip' → ¬S.marker <+: (pre ++ c :: cs).drop k) →
        (S.find pre.getLast? skip (c :: cs) = some id ↔
          ∃ n, pre.length ≤ n ∧ S.NamesAt (pre ++ c :: cs) n id ∧
            ∀ k other, pre.length ≤ k → S.NamesAt (pre ++ c :: cs) k other → n ≤ k) := by
      intro skip' hfind hnot hskip'
      rw [hmove, ← hlength] at hskip'
      rw [← hfind, ← hlast, ih hskip', hlength, ← hmove]
      have hpast : ∀ n other, S.NamesAt (pre ++ c :: cs) n other → pre.length ≤ n → pre.length + 1 ≤ n := by
        intro n other hnames hn
        rcases Nat.lt_or_eq_of_le hn with hlt | rfl
        · exact hlt
        · exact absurd hnames (hnot other)
      constructor
      · rintro ⟨n, hn, hnames, hleast⟩
        exact ⟨n, by omega, hnames, fun k other hk hother => hleast k other (hpast k other hother hk) hother⟩
      · rintro ⟨n, hn, hnames, hleast⟩
        exact ⟨n, hpast n id hnames hn, hnames, fun k other hk hother => hleast k other (by omega) hother⟩
    cases skip with
    | succ k =>
      have hhere : ¬S.marker <+: (pre ++ c :: cs).drop pre.length := hskip pre.length (Nat.le_refl _) (by omega)
      exact hnext k rfl (fun other hnames => hhere hnames.occurs) fun k hk hk' => hskip k (by omega) (by omega)
    | zero =>
      by_cases hocc : S.marker <+: c :: cs
      · have hhit := @find_hit S pre.getLast? c cs (List.isPrefixOf_iff_prefix.mpr hocc)
        have htoken : (pre ++ c :: cs).drop (pre.length + S.marker.length) = (c :: cs).drop S.marker.length := by
          rw [← List.drop_drop, hdrop]
        have htake : (pre ++ c :: cs).take pre.length = pre := List.take_left
        by_cases hread : (S.boundary pre.getLast? &&
            !(((c :: cs).drop S.marker.length).takeWhile S.token).isEmpty) = true
        · rw [hhit, if_pos hread]
          rw [Bool.and_eq_true, Bool.not_eq_true', List.isEmpty_eq_false_iff] at hread
          have hnames : S.NamesAt (pre ++ c :: cs) pre.length (((c :: cs).drop S.marker.length).takeWhile S.token) :=
            { occurs := hdrop.symm ▸ hocc
              bounded := htake.symm ▸ hread.1
              token := by rw [htoken]
              nonempty := hread.2 }
          constructor
          · intro hid
            obtain rfl := Option.some.inj hid
            exact ⟨pre.length, Nat.le_refl _, hnames, fun k other hk _ => hk⟩
          · rintro ⟨n, hn, hother, hleast⟩
            obtain rfl : n = pre.length := Nat.le_antisymm (hleast _ _ (Nat.le_refl _) hnames) hn
            rw [hother.token, htoken]
        · refine hnext (S.marker.length - 1) (by rw [hhit, if_neg hread]) ?_ ?_
          · intro other hnames
            apply hread
            have htok := hnames.token
            rw [htoken] at htok
            rw [Bool.and_eq_true, Bool.not_eq_true', List.isEmpty_eq_false_iff, ← htok]
            exact ⟨htake ▸ hnames.bounded, hnames.nonempty⟩
          · intro k hk hk'
            obtain ⟨j, rfl⟩ := Nat.exists_eq_add_of_le (show pre.length ≤ k by omega)
            exact no_occurrence_inside hborder (hdrop.symm ▸ hocc) (by omega) (by omega)
      · have hmiss : S.marker.isPrefixOf (c :: cs) = false := by
          rwa [Bool.eq_false_iff, ne_eq, List.isPrefixOf_iff_prefix]
        refine hnext 0 (find_miss hmiss).symm (fun other hnames => hocc (hdrop ▸ hnames.occurs)) ?_
        intro k hk hk'
        omega

/-- **The scan of a text** finds the token of the first place that names one. -/
theorem find_eq_some_iff (hborder : Borderless S.marker) (hne : S.marker ≠ []) {text id : List Char} :
    S.find none 0 text = some id ↔ S.NamesFirst text id := by
  have h := @find_eq_some_iff_from S hborder hne [] text id 0 fun k hk hk' => absurd hk' (by simp)
  simpa [NamesFirst] using h

end Scan

end RallyPoint.Lib
