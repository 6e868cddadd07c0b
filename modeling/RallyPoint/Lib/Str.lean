/-
# RallyPoint.Lib.Str — the `str` operations of the Rust standard library, on Lean strings.

Every definition reads its argument through `String.toList` and recurses on that list, so each one
reduces in the kernel and a closed call is settled by `decide`. The documented behaviour is Rust's:
`trim` strips the Unicode `White_Space` code points, `splitOnce` cuts at the FIRST separator,
`split` keeps empty pieces, integer parsing accepts one leading sign and refuses overflow; a byte string is a
`List UInt8`.
Nothing here mentions the program that uses it.
-/
import Mathlib.Algebra.Group.Int.Defs
import Mathlib.Data.List.DropRight
import Mathlib.Data.List.Induction
import Mathlib.Data.List.Infix
import Mathlib.Data.List.Sort
import Mathlib.Data.String.Basic

namespace RallyPoint.Lib

/-! ## Characters -/

/-- The code points Rust's `char::is_whitespace` accepts (Unicode `White_Space`). -/
def whitespaceCodes : List Nat :=
  [0x9, 0xa, 0xb, 0xc, 0xd, 0x20, 0x85, 0xa0, 0x1680, 0x2000, 0x2001, 0x2002, 0x2003, 0x2004,
    0x2005, 0x2006, 0x2007, 0x2008, 0x2009, 0x200a, 0x2028, 0x2029, 0x202f, 0x205f, 0x3000]

def isWhitespace (c : Char) : Bool := whitespaceCodes.contains c.toNat

/-- Unicode general category `Cc`, which is what `char::is_control` tests. -/
def isControl (c : Char) : Bool := c.toNat < 0x20 || (0x7f ≤ c.toNat && c.toNat ≤ 0x9f)

def asciiLowerChar (c : Char) : Char :=
  if 'A' ≤ c ∧ c ≤ 'Z' then Char.ofNat (c.toNat + 32) else c

/-- A character stays as it is, or is an upper-case letter and becomes its lower-case one. -/
theorem asciiLowerChar_cases (c : Char) :
    asciiLowerChar c = c ∨ ∃ k < 26, c.toNat = 65 + k ∧ asciiLowerChar c = Char.ofNat (97 + k) := by
  by_cases h : 'A' ≤ c ∧ c ≤ 'Z'
  · have hlow : 65 ≤ c.toNat := h.1
    have hhigh : c.toNat ≤ 90 := h.2
    refine .inr ⟨c.toNat - 65, by omega, by omega, ?_⟩
    rw [asciiLowerChar, if_pos h]
    congr 1
    omega
  · exact .inl (if_neg h)

theorem isWhitespace_asciiLowerChar (c : Char) : isWhitespace (asciiLowerChar c) = isWhitespace c := by
  rcases asciiLowerChar_cases c with h | ⟨k, hk, hc, h⟩
  · rw [h]
  · rw [h, isWhitespace, isWhitespace, hc]
    clear hc h
    revert k
    decide

theorem asciiLowerChar_idem (c : Char) : asciiLowerChar (asciiLowerChar c) = asciiLowerChar c := by
  rcases asciiLowerChar_cases c with h | ⟨k, hk, hc, h⟩
  · rw [h, h]
  · rw [h]
    clear hc h
    revert k
    decide

/-! ## Trimming and prefixes -/

/-- `str::trim`. -/
def trim (s : String) : String :=
  String.ofList (((s.toList.dropWhile isWhitespace).reverse.dropWhile isWhitespace).reverse)

/-- Whether nothing but white space is left, `s.trim().is_empty()`. -/
def isBlank (s : String) : Bool := s.toList.all isWhitespace

/-- `str::starts_with`. -/
def startsWith (pre s : String) : Bool := pre.toList.isPrefixOf s.toList

/-- `str::strip_prefix`. -/
def stripPrefix (pre s : String) : Option String :=
  if startsWith pre s then some (String.ofList (s.toList.drop pre.toList.length)) else none

/-- `str::strip_suffix`. -/
def stripSuffix (suf s : String) : Option String :=
  if suf.toList.isSuffixOf s.toList then some (String.ofList (s.toList.take (s.toList.length - suf.toList.length)))
  else none

/-- `str::strip_prefix` takes back what was put in front. -/
@[simp]
theorem stripPrefix_append (pre s : String) : stripPrefix pre (pre ++ s) = some s := by
  have hpre : pre.toList.isPrefixOf (pre.toList ++ s.toList) = true :=
    List.isPrefixOf_iff_prefix.mpr (List.prefix_append _ _)
  rw [stripPrefix, startsWith, String.toList_append, if_pos hpre, List.drop_left, String.ofList_toList]

/-- Only a text that starts with the prefix is stripped. -/
theorem stripPrefix_eq_none {pre s : String} (h : startsWith pre s = false) : stripPrefix pre s = none := by
  rw [stripPrefix, h, if_neg Bool.false_ne_true]

theorem stripPrefix_eq_some_iff {pre s t : String} : stripPrefix pre s = some t ↔ s = pre ++ t := by
  constructor
  · intro h
    rw [stripPrefix] at h
    split at h
    case isTrue hpre =>
      obtain ⟨suf, hsuf⟩ := List.isPrefixOf_iff_prefix.mp hpre
      rw [← Option.some.inj h, ← String.toList_inj, ← hsuf]
      simp
    case isFalse => cases h
  · rintro rfl
    exact stripPrefix_append pre t

theorem stripSuffix_eq_some_iff {suf s t : String} : stripSuffix suf s = some t ↔ s = t ++ suf := by
  have hlist : s = t ++ suf ↔ s.toList = t.toList ++ suf.toList := by
    rw [← String.toList_inj, String.toList_append]
  rw [hlist, stripSuffix]
  constructor
  · intro h
    split at h
    case isTrue hsuf =>
      obtain ⟨pre, hpre⟩ := List.isSuffixOf_iff_suffix.mp hsuf
      rw [← Option.some.inj h, ← hpre]
      simp
    case isFalse => cases h
  · intro h
    have hsuf : suf.toList.isSuffixOf s.toList = true :=
      List.isSuffixOf_iff_suffix.mpr ⟨t.toList, h.symm⟩
    rw [if_pos hsuf, h]
    simp

/-- Two texts of which neither begins the other part ways, whatever follows. -/
theorem startsWith_append_of_apart {pre words : String} (h : startsWith pre words = false)
    (h' : startsWith words pre = false) (rest : String) : startsWith pre (words ++ rest) = false := by
  rw [← Bool.not_eq_true, startsWith, List.isPrefixOf_iff_prefix] at h h' ⊢
  rw [String.toList_append]
  intro hpre
  rcases List.prefix_or_prefix_of_prefix hpre (List.prefix_append _ _) with hle | hle
  · exact h hle
  · exact h' hle

/-- A text that begins with something else than white space begins as its trimmed text does. -/
theorem startsWith_of_trim {pre s : String} (hhead : ∀ c ∈ s.toList.head?, isWhitespace c = false)
    (h : startsWith pre (trim s) = true) : startsWith pre s = true := by
  have hfront : s.toList.dropWhile isWhitespace = s.toList := by
    cases hcs : s.toList with
    | nil => rfl
    | cons c cs => exact List.dropWhile_cons_of_neg (by simp [hhead c (by simp [hcs])])
  have hpre : (trim s).toList <+: s.toList := by
    have hback : (trim s).toList = (s.toList.dropWhile isWhitespace).rdropWhile isWhitespace :=
      String.toList_ofList
    rw [hback, hfront]
    exact List.rdropWhile_prefix isWhitespace _
  rw [startsWith, List.isPrefixOf_iff_prefix] at h ⊢
  exact h.trans hpre

/-- A trimmed text has nothing left to trim. -/
theorem trim_trim (s : String) : trim (trim s) = trim s := by
  let front := s.toList.dropWhile isWhitespace
  have htrim : trim s = String.ofList (front.rdropWhile isWhitespace) := rfl
  -- what the back leaves begins as the front does, with no white space
  have hfront : (front.rdropWhile isWhitespace).dropWhile isWhitespace = front.rdropWhile isWhitespace := by
    cases hcs : front.rdropWhile isWhitespace with
    | nil => rfl
    | cons c cs =>
      obtain ⟨rest, hrest⟩ := hcs ▸ List.rdropWhile_prefix (p := isWhitespace) (l := front)
      have hhead := List.head?_dropWhile_not isWhitespace s.toList
      have hc : (s.toList.dropWhile isWhitespace).head? = some c := by
        rw [show s.toList.dropWhile isWhitespace = front from rfl, ← hrest]
        rfl
      rw [hc] at hhead
      exact List.dropWhile_cons_of_neg (by simpa using hhead)
  have hback := List.rdropWhile_idempotent isWhitespace front
  rw [htrim, trim, String.toList_ofList, hfront]
  exact congrArg String.ofList hback

/-- `str::contains`, of a text. -/
def containsStr (needle s : String) : Bool := s.toList.tails.any needle.toList.isPrefixOf

theorem containsStr_iff {needle s : String} : containsStr needle s = true ↔ needle.toList <:+: s.toList := by
  rw [containsStr, List.any_eq_true, List.infix_iff_prefix_suffix]
  simp only [List.mem_tails, List.isPrefixOf_iff_prefix]
  exact ⟨fun ⟨t, ht, hp⟩ => ⟨t, hp, ht⟩, fun ⟨t, hp, ht⟩ => ⟨t, ht, hp⟩⟩

/-- A text that is in neither of two others is in them together only across the seam, so not at all when the
second one starts with none of its later characters. -/
theorem not_infix_append {needle xs ys : List Char} (hx : ¬needle <:+: xs) (hy : ¬needle <:+: ys)
    (hseam : ∀ c ∈ needle.tail, ys.head? ≠ some c) : ¬needle <:+: xs ++ ys := by
  intro h
  rcases List.infix_append_iff.mp h with h | h | ⟨l₁, l₂, hneedle, hl₁, hl₂⟩
  · exact hx h
  · exact hy h
  · cases l₂ with
    | nil =>
      rw [List.append_nil] at hneedle
      exact hx (hneedle ▸ hl₁.isInfix)
    | cons c l₂ =>
      cases l₁ with
      | nil => exact hy (hneedle ▸ hl₂.isInfix)
      | cons d l₁ =>
        obtain ⟨rest, rfl⟩ := hl₂
        refine hseam c ?_ rfl
        rw [hneedle]
        simp

/-- `str::to_ascii_lowercase`. -/
def toAsciiLowercase (s : String) : String := String.ofList (s.toList.map asciiLowerChar)

/-- `str::eq_ignore_ascii_case`. -/
def eqIgnoreAsciiCase (s t : String) : Bool := toAsciiLowercase s == toAsciiLowercase t

/-- The sizes of a list added up, `Iterator::sum`. -/
def sumOf {α : Type*} (size : α → Nat) (l : List α) : Nat := l.foldl (fun n x => n + size x) 0

theorem sumOf_append_singleton {α : Type*} (size : α → Nat) (l : List α) (x : α) :
    sumOf size (l ++ [x]) = sumOf size l + size x := by
  rw [sumOf, List.foldl_append]
  rfl

theorem sumOf_append {α : Type*} (size : α → Nat) (l l' : List α) :
    sumOf size (l ++ l') = sumOf size l + sumOf size l' := by
  induction l' using List.reverseRecOn with
  | nil => simp [sumOf]
  | append_singleton l' x ih =>
    rw [← List.append_assoc, sumOf_append_singleton, sumOf_append_singleton, ih, Nat.add_assoc]

/-- A sum of bounded sizes. -/
theorem sumOf_le_mul {α : Type*} {size : α → Nat} {limit : Nat} {l : List α} (h : ∀ x ∈ l, size x ≤ limit) :
    sumOf size l ≤ l.length * limit := by
  induction l using List.reverseRecOn with
  | nil => simp [sumOf]
  | append_singleton l x ih =>
    rw [sumOf_append_singleton, List.length_append, List.length_singleton, Nat.add_mul, Nat.one_mul]
    exact Nat.add_le_add (ih fun y hy => h y (List.mem_append_left _ hy)) (h x (by simp))

/-- Where every element has a size, only the empty list has none. -/
theorem eq_nil_of_sumOf_eq_zero {α : Type*} {size : α → Nat} (hpos : ∀ x, 0 < size x) {l : List α}
    (h : sumOf size l = 0) : l = [] := by
  cases l using List.reverseRecOn with
  | nil => rfl
  | append_singleton l x =>
    rw [sumOf_append_singleton] at h
    exact absurd (hpos x) (by omega)

/-- `str::len`, the number of UTF-8 bytes. -/
def byteLen (s : String) : Nat := sumOf Char.utf8Size s.toList

/-- Of two equal texts, beginnings of the same length are the same. -/
theorem append_inj_of_byteLen {a b x y : String} (h : a ++ x = b ++ y) (hlen : byteLen a = byteLen b) :
    a = b ∧ x = y := by
  have hlist := congrArg String.toList h
  rw [String.toList_append, String.toList_append] at hlist
  have hnil : ∀ {c : List Char}, sumOf Char.utf8Size c = 0 → c = [] :=
    eq_nil_of_sumOf_eq_zero Char.utf8Size_pos
  unfold byteLen at hlen
  rcases List.append_eq_append_iff.mp hlist with ⟨c, hb, hx⟩ | ⟨c, ha, hy⟩
  · rw [hb, sumOf_append] at hlen
    obtain rfl := hnil (c := c) (by omega)
    exact ⟨String.toList_inj.mp (by simpa using hb.symm), String.toList_inj.mp (by simpa using hx)⟩
  · rw [ha, sumOf_append] at hlen
    obtain rfl := hnil (c := c) (by omega)
    exact ⟨String.toList_inj.mp (by simpa using ha), String.toList_inj.mp (by simpa using hy.symm)⟩

/-! ## Bytes -/

/-- The byte `\n`. -/
def newline : UInt8 := 10

/-- `u8::is_ascii_whitespace`. -/
def isAsciiWhitespace (byte : UInt8) : Bool :=
  byte == 32 || byte == 9 || byte == 10 || byte == 12 || byte == 13

/-- A line of nothing but ASCII white space. -/
def isBlankLine (bytes : List UInt8) : Bool := bytes.all isAsciiWhitespace

/-- The bytes of an ASCII text. -/
def ascii (text : String) : List UInt8 := text.toList.map fun c => UInt8.ofNat c.toNat

/-- `str::trim_end`. -/
def trimEnd (s : String) : String := String.ofList (s.toList.rdropWhile isWhitespace)

theorem dropWhile_rdropWhile {α : Type*} (p : α → Bool) (l : List α) :
    (l.rdropWhile p).dropWhile p = (l.dropWhile p).rdropWhile p := by
  induction l using List.reverseRecOn with
  | nil => rfl
  | append_singleton l x ih =>
    rw [List.dropWhile_append]
    by_cases hx : p x = true
    · rw [List.rdropWhile_concat_pos p l x hx, ih, List.dropWhile_cons_of_pos hx, List.dropWhile_nil]
      split
      case isTrue hl => rw [List.isEmpty_iff.mp hl]
      case isFalse => rw [List.rdropWhile_concat_pos p _ x hx]
    · rw [List.rdropWhile_concat_neg p l x hx, List.dropWhile_append, List.dropWhile_cons_of_neg hx]
      split
      case isTrue => rw [List.rdropWhile_singleton, if_neg hx]
      case isFalse => rw [List.rdropWhile_concat_neg p _ x hx]

/-- What `trim` leaves is the same whether or not the end was trimmed before. -/
theorem trim_trimEnd (s : String) : trim (trimEnd s) = trim s := by
  have htrim : ∀ s : String, trim s = String.ofList ((s.toList.dropWhile isWhitespace).rdropWhile isWhitespace) :=
    fun _ => rfl
  rw [htrim, htrim, trimEnd, String.toList_ofList, dropWhile_rdropWhile, List.rdropWhile_idempotent]

theorem trimEnd_of_trim {s : String} (h : trim s = s) : trimEnd s = s := by
  have hchars : (s.toList.dropWhile isWhitespace).rdropWhile isWhitespace = s.toList :=
    String.toList_ofList.symm.trans (congrArg String.toList h)
  rw [trimEnd, ← hchars, List.rdropWhile_idempotent, hchars, String.ofList_toList]

/-- Nothing is trimmed off a word that stands in front. -/
theorem trim_append {pre s : String} (hword : (pre.toList.all fun c => !isWhitespace c) = true) (hne : pre ≠ "") :
    trim (pre ++ s) = pre ++ trimEnd s := by
  have hchars : ∀ c ∈ pre.toList, isWhitespace c = false := by simpa using hword
  have hpre : pre.toList ≠ [] := by simpa using hne
  have hfront : ∀ rest, (pre.toList ++ rest).dropWhile isWhitespace = pre.toList ++ rest := by
    intro rest
    cases hcs : pre.toList with
    | nil => exact absurd hcs hpre
    | cons c cs => exact List.dropWhile_cons_of_neg (by simp [hchars c (by simp [hcs])])
  have hback : ∀ rest : List Char, (pre.toList ++ rest).rdropWhile isWhitespace =
      pre.toList ++ rest.rdropWhile isWhitespace := by
    intro rest
    induction rest using List.reverseRecOn with
    | nil =>
      rw [List.append_nil, List.rdropWhile_nil, List.append_nil, List.rdropWhile_eq_self_iff]
      intro hl
      simp [hchars _ (List.getLast_mem hl)]
    | append_singleton rest x ih =>
      rw [← List.append_assoc, List.rdropWhile_concat, List.rdropWhile_concat, ih]
      split <;> simp
  rw [← String.toList_inj, String.toList_append, trimEnd, String.toList_ofList, ← hback, ← hfront s.toList,
    hfront s.toList]
  show (String.ofList (((pre ++ s).toList.dropWhile isWhitespace).rdropWhile isWhitespace)).toList = _
  rw [String.toList_ofList, String.toList_append, hfront]

/-! ## Splitting and joining -/

/-- The characters before and after the first separator. -/
def splitOnceChars (sep : Char) : List Char → Option (List Char × List Char)
  | [] => none
  | c :: cs =>
    if c = sep then some ([], cs)
    else (splitOnceChars sep cs).map fun p => (c :: p.1, p.2)

/-- `str::split_once`. -/
def splitOnce (sep : Char) (s : String) : Option (String × String) :=
  (splitOnceChars sep s.toList).map fun p => (String.ofList p.1, String.ofList p.2)

/-- `str::split` on one character; the last piece is always there, possibly empty. -/
def splitChars (sep : Char) : List Char → List (List Char)
  | [] => [[]]
  | c :: cs =>
    match splitChars sep cs with
    | [] => [[c]]
    | piece :: rest => if c = sep then [] :: piece :: rest else (c :: piece) :: rest

def split (sep : Char) (s : String) : List String := (splitChars sep s.toList).map String.ofList

/-- `[String]::join`. -/
def join (sep : String) : List String → String
  | [] => ""
  | [s] => s
  | s :: rest => s ++ sep ++ join sep rest

/-- `slice::sort` on strings; code-point order is the byte order of UTF-8. -/
def sortStrings (xs : List String) : List String := xs.insertionSort (· ≤ ·)

/-- `Vec::dedup`: consecutive repeats only. -/
def dedupConsecutive : List String → List String
  | [] => []
  | [s] => [s]
  | s :: t :: rest =>
    if s = t then dedupConsecutive (t :: rest) else s :: dedupConsecutive (t :: rest)

theorem mem_dedupConsecutive {x : String} {l : List String} : x ∈ dedupConsecutive l ↔ x ∈ l := by
  induction l using dedupConsecutive.induct with
  | case1 => rfl
  | case2 s => rfl
  | case3 s rest ih =>
    rw [dedupConsecutive, if_pos rfl, ih]
    simp
  | case4 s t rest hne ih =>
    rw [dedupConsecutive, if_neg hne, List.mem_cons, ih]
    simp

theorem pairwise_dedupConsecutive {l : List String} (h : l.Pairwise (· ≤ ·)) :
    (dedupConsecutive l).Pairwise (· < ·) := by
  induction l using dedupConsecutive.induct with
  | case1 => exact .nil
  | case2 s => exact List.pairwise_singleton _ _
  | case3 s rest ih =>
    rw [dedupConsecutive, if_pos rfl]
    exact ih (List.pairwise_cons.mp h).2
  | case4 s t rest hne ih =>
    obtain ⟨hhead, htail⟩ := List.pairwise_cons.mp h
    rw [dedupConsecutive, if_neg hne, List.pairwise_cons]
    refine ⟨fun x hx => ?_, ih htail⟩
    have hst : s < t := lt_of_le_of_ne (hhead t List.mem_cons_self) hne
    rcases List.mem_cons.mp (mem_dedupConsecutive.mp hx) with rfl | hx
    · exact hst
    · exact hst.trans_le ((List.pairwise_cons.mp htail).1 x hx)

/-- `slice::sort` and then `Vec::dedup`: the members in increasing order, each once. -/
def sortDedup (xs : List String) : List String := dedupConsecutive (sortStrings xs)

theorem mem_sortDedup {x : String} {xs : List String} : x ∈ sortDedup xs ↔ x ∈ xs := by
  rw [sortDedup, mem_dedupConsecutive, sortStrings, List.mem_insertionSort]

theorem pairwise_sortDedup (xs : List String) : (sortDedup xs).Pairwise (· < ·) :=
  pairwise_dedupConsecutive (List.pairwise_insertionSort _ _)

/-- An increasing list is what sorting makes of its members. -/
theorem eq_sortDedup {xs ys : List String} (h : xs.Pairwise (· < ·)) (hmem : ∀ x, x ∈ xs ↔ x ∈ ys) :
    xs = sortDedup ys :=
  h.eq_of_mem_iff (pairwise_sortDedup ys) fun x => (hmem x).trans mem_sortDedup.symm

theorem sortDedup_eq_self_iff {xs : List String} : sortDedup xs = xs ↔ xs.Pairwise (· < ·) :=
  ⟨fun h => h ▸ pairwise_sortDedup xs, fun h => (eq_sortDedup h fun _ => Iff.rfl).symm⟩

@[simp]
theorem sortDedup_sortDedup (xs : List String) : sortDedup (sortDedup xs) = sortDedup xs :=
  sortDedup_eq_self_iff.mpr (pairwise_sortDedup xs)

/-- A common beginning does not count in the order. -/
theorem lt_of_append_lt_append {pre s t : String} (h : pre ++ s < pre ++ t) : s < t := by
  rcases lt_trichotomy s t with hlt | rfl | hgt
  · exact hlt
  · exact absurd h (lt_irrefl _)
  · have hgt' : pre ++ t < pre ++ s := by
      rw [String.lt_iff_toList_lt] at hgt ⊢
      simpa using List.append_left_lt hgt
    exact absurd h hgt'.asymm

/-- The entries under a prefix come out in increasing order, each once. -/
theorem filterMap_stripPrefix_sortDedup (pre : String) (xs : List String) :
    (sortDedup xs).filterMap (stripPrefix pre) = sortDedup (xs.filterMap (stripPrefix pre)) := by
  apply eq_sortDedup
  · refine List.pairwise_filterMap.mpr ((pairwise_sortDedup xs).imp fun {a b} hlt s hs t ht => ?_)
    rw [stripPrefix_eq_some_iff.mp hs, stripPrefix_eq_some_iff.mp ht] at hlt
    exact lt_of_append_lt_append hlt
  · simp only [List.mem_filterMap, mem_sortDedup, implies_true]

/-- The first piece of a split ends before the first separator. -/
theorem head?_split (sep : Char) (s : String) :
    (split sep s).head? = some (String.ofList (s.toList.takeWhile (· != sep))) := by
  have hchars : ∀ cs : List Char, (splitChars sep cs).head? = some (cs.takeWhile (· != sep)) := by
    intro cs
    induction cs with
    | nil => rfl
    | cons c cs ih =>
      rw [splitChars]
      cases hrest : splitChars sep cs with
      | nil => simp [hrest] at ih
      | cons piece rest =>
        rw [hrest, List.head?_cons, Option.some.injEq] at ih
        by_cases hc : c = sep
        · simp [hc]
        · simp [hc, ih]
  rw [split, List.head?_map, hchars, Option.map_some]

theorem splitOnce_append {sep : Char} {pre s : String} (h : sep ∉ pre.toList) :
    splitOnce sep (pre ++ String.singleton sep ++ s) = some (pre, s) := by
  have hchars : ∀ cs : List Char, sep ∉ cs → splitOnceChars sep (cs ++ sep :: s.toList) = some (cs, s.toList) := by
    intro cs hcs
    induction cs with
    | nil => simp [splitOnceChars]
    | cons c cs ih =>
      rw [List.mem_cons, not_or] at hcs
      obtain ⟨hc, hcs⟩ := hcs
      simp [splitOnceChars, Ne.symm hc, ih hcs]
  rw [splitOnce]
  simp [hchars _ h]

theorem splitChars_ne_nil (sep : Char) (cs : List Char) : splitChars sep cs ≠ [] := by
  cases cs with
  | nil => simp [splitChars]
  | cons c cs =>
    rw [splitChars]
    cases splitChars sep cs with
    | nil => simp
    | cons piece rest => simp only; split <;> simp

/-- A separator at the end leaves an empty last piece. -/
theorem splitChars_concat (sep : Char) (cs : List Char) :
    splitChars sep (cs ++ [sep]) = splitChars sep cs ++ [[]] := by
  induction cs with
  | nil => simp [splitChars]
  | cons c cs ih =>
    rw [List.cons_append, splitChars, splitChars, ih]
    cases hpieces : splitChars sep cs with
    | nil => exact absurd hpieces (splitChars_ne_nil sep cs)
    | cons piece rest =>
      simp only [List.cons_append]
      split <;> rfl

/-- The pieces of a split, joined, are the text. -/
theorem join_split (sep : Char) (s : String) : join (String.singleton sep) (split sep s) = s := by
  have hchars : ∀ cs : List Char, splitChars sep cs ≠ [] ∧
      join (String.singleton sep) ((splitChars sep cs).map String.ofList) = String.ofList cs := by
    intro cs
    induction cs with
    | nil => exact ⟨by simp [splitChars], rfl⟩
    | cons c cs ih =>
      obtain ⟨hne, hjoin⟩ := ih
      rw [splitChars]
      cases hpieces : splitChars sep cs with
      | nil => exact absurd hpieces hne
      | cons piece rest =>
        rw [hpieces] at hjoin
        refine ⟨by simp only; split <;> simp, ?_⟩
        rw [← String.toList_inj] at hjoin ⊢
        by_cases hc : c = sep
        · subst hc
          simpa [join] using hjoin
        · cases rest <;> simpa [hc, join] using hjoin
  rw [split, (hchars s.toList).2, String.ofList_toList]

/-! ## Integer parsing -/

def digitValue (c : Char) : Option Nat :=
  if '0' ≤ c ∧ c ≤ '9' then some (c.toNat - 48) else none

def parseDigits : Nat → List Char → Option Nat
  | acc, [] => some acc
  | acc, c :: cs =>
    match digitValue c with
    | some d => parseDigits (acc * 10 + d) cs
    | none => none

/-- A nonempty run of decimal digits. -/
def parseNat (cs : List Char) : Option Nat := if cs.isEmpty then none else parseDigits 0 cs

/-- The part after an optional `+`, which Rust's integer parsers all accept. -/
def dropPlus : List Char → List Char
  | '+' :: cs => cs
  | cs => cs

/-- `str::parse::<u16>`. -/
def parseU16 (s : String) : Option Nat :=
  match parseNat (dropPlus s.toList) with
  | some n => if n < 65536 then some n else none
  | none => none

/-- `str::parse::<u64>`, and `usize` on 64 bits. -/
def parseU64 (s : String) : Option Nat :=
  match parseNat (dropPlus s.toList) with
  | some n => if n < 2 ^ 64 then some n else none
  | none => none

/-- `str::parse::<i64>`. -/
def parseI64 (s : String) : Option Int :=
  match s.toList with
  | '-' :: cs =>
    match parseNat cs with
    | some n => if n ≤ 2 ^ 63 then some (-(n : Int)) else none
    | none => none
  | cs =>
    match parseNat (dropPlus cs) with
    | some n => if n < 2 ^ 63 then some (n : Int) else none
    | none => none

theorem parseDigits_append (acc : Nat) (cs ds : List Char) :
    parseDigits acc (cs ++ ds) = (parseDigits acc cs).bind fun n => parseDigits n ds := by
  induction cs generalizing acc with
  | nil => rfl
  | cons c cs ih =>
    rw [List.cons_append, parseDigits, parseDigits]
    cases digitValue c with
    | none => rfl
    | some d => exact ih _

/-- Digits that were printed are read back. -/
theorem parseDigits_toDigits (n : Nat) : parseDigits 0 (Nat.toDigits 10 n) = some n := by
  have hdigit : ∀ d < 10, digitValue d.digitChar = some d := by decide
  induction n using Nat.strongRecOn with
  | ind n ih =>
    by_cases hn : n < 10
    · rw [Nat.toDigits_of_lt_base hn, parseDigits, hdigit n hn]
      simp [parseDigits]
    · rw [Nat.toDigits_of_base_le (by decide) (by omega), parseDigits_append, ih (n / 10) (by omega),
        Option.bind_some]
      simp only [parseDigits, hdigit _ (Nat.mod_lt n (by decide))]
      exact congrArg some (by omega)

theorem dropPlus_toDigits (n : Nat) : dropPlus (Nat.toDigits 10 n) = Nat.toDigits 10 n := by
  have hdigits : ∀ c ∈ Nat.toDigits 10 n, c.isDigit = true := fun c hc =>
    Nat.isDigit_of_mem_toDigits (by decide) (by decide) hc
  unfold dropPlus
  split
  case h_1 cs hcs => exact absurd (hdigits '+' (by simp [hcs])) (by decide)
  case h_2 => rfl

/-- Printed digits are a nonempty run of digits, without a sign. -/
theorem parseNat_toDigits (n : Nat) : parseNat (dropPlus (Nat.toDigits 10 n)) = some n := by
  rw [dropPlus_toDigits, parseNat, if_neg (by simp [Nat.toDigits_ne_nil]), parseDigits_toDigits]

theorem parseU16_toString {n : Nat} (h : n < 65536) : parseU16 (toString n) = some n := by
  have hlist : (toString n).toList = Nat.toDigits 10 n := Nat.toList_repr
  rw [parseU16, hlist, parseNat_toDigits]
  exact if_pos h

theorem parseU64_toString {n : Nat} (h : n < 2 ^ 64) : parseU64 (toString n) = some n := by
  have hlist : (toString n).toList = Nat.toDigits 10 n := Nat.toList_repr
  rw [parseU64, hlist, parseNat_toDigits]
  exact if_pos h

theorem parseI64_toString {n : Nat} (h : n < 2 ^ 63) : parseI64 (toString (n : Int)) = some (n : Int) := by
  have hlist : (toString (n : Int)).toList = Nat.toDigits 10 n := Nat.toList_repr
  have hdigits : ∀ c ∈ Nat.toDigits 10 n, c.isDigit = true := fun c hc =>
    Nat.isDigit_of_mem_toDigits (by decide) (by decide) hc
  unfold parseI64
  rw [hlist]
  split
  case h_1 cs hcs => exact absurd (hdigits '-' (by simp [hcs])) (by decide)
  case h_2 => simpa [parseNat_toDigits] using h

/-- A printed 64-bit integer is read back. -/
theorem parseI64_toString_int {n : Int} (hlow : -2 ^ 63 ≤ n) (hhigh : n < 2 ^ 63) :
    parseI64 (toString n) = some n := by
  cases n with
  | ofNat m =>
    apply parseI64_toString
    have : (m : Int) < 2 ^ 63 := hhigh
    omega
  | negSucc m =>
    have hlist : (toString (Int.negSucc m)).toList = '-' :: Nat.toDigits 10 (m + 1) := by
      show (Int.repr (Int.negSucc m)).toList = _
      rw [Int.repr]
      simp [String.toList_append, Nat.toList_repr]
    have hread : parseNat (Nat.toDigits 10 (m + 1)) = some (m + 1) := by
      have h := parseNat_toDigits (m + 1)
      rwa [dropPlus_toDigits] at h
    have hle : m + 1 ≤ 2 ^ 63 := by omega
    rw [parseI64, hlist]
    simp only [hread]
    exact if_pos hle

/-! ## Decimal fields -/

/-- The decimal digits of a number end at the first character that is no digit, so a number followed by
such a separator can be read back. -/
theorem toDigits_append_sep_inj {n m : Nat} {sep : Char} {x y : List Char} (hsep : sep.isDigit = false)
    (h : Nat.toDigits 10 n ++ sep :: x = Nat.toDigits 10 m ++ sep :: y) : n = m ∧ x = y := by
  have hdigits : ∀ k, ∀ c ∈ Nat.toDigits 10 k, c.isDigit = true := fun k c hc =>
    Nat.isDigit_of_mem_toDigits (by decide) (by decide) hc
  -- reading digits stops at the separator, whatever follows it
  have htake : ∀ k z, (Nat.toDigits 10 k ++ sep :: z).takeWhile Char.isDigit = Nat.toDigits 10 k := by
    intro k z
    rw [List.takeWhile_append_of_pos (hdigits k), List.takeWhile_cons_of_neg (by simp [hsep]), List.append_nil]
  have heq : Nat.toDigits 10 n = Nat.toDigits 10 m := by rw [← htake n x, h, htake m y]
  refine ⟨?_, ?_⟩
  · rw [← Nat.ofDigitChars_ten_toDigits (n := n), heq, Nat.ofDigitChars_ten_toDigits]
  · rw [heq] at h
    exact (List.cons.inj (List.append_cancel_left h)).2

/-! ## Ordered sets of strings -/

/-- `BTreeSet<String>`: iteration visits the members in increasing order, each once. -/
structure StrSet where
  elems : List String
  sorted : elems.Pairwise (· < ·)
  deriving DecidableEq, Repr

namespace StrSet

instance : EmptyCollection StrSet := ⟨⟨[], .nil⟩⟩

instance : Inhabited StrSet := ⟨∅⟩

/-- `BTreeSet::contains`. -/
def contains (s : StrSet) (x : String) : Bool := s.elems.contains x

/-- `BTreeSet::is_empty`. -/
def isEmpty (s : StrSet) : Bool := s.elems.isEmpty

/-- The set with one member. -/
def singleton (x : String) : StrSet := ⟨[x], List.pairwise_singleton _ _⟩

end StrSet

/-! ## 64-bit signed arithmetic -/

/-- Two's-complement wrap-around, what `+` and `*` on `i64` compute in a release build. -/
def wrapI64 (x : Int) : Int := Int.bmod x (2 ^ 64)

/-- `2 ^ 63`, one above `i64::MAX`. -/
def i64Bound : Int := 9223372036854775808

/-- `i64::saturating_mul` clamps to the range instead of wrapping. -/
def saturateI64 (x : Int) : Int := max (-i64Bound) (min (i64Bound - 1) x)

end RallyPoint.Lib
