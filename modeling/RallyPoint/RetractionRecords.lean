/-
# RallyPoint.RetractionRecords — the text of a retraction and what is read back of it (`retraction.rs`).

A retraction carries its target in the subject and, in a bracket at the end of its summary, the id of the fact that
replaces the target. The bracket shares the summary with the reason, and the reader takes the first marker of the
whole text. The target always comes back (`targetOf_subjectFor`); the replacement comes back when no readable marker
of the reason or of the target stands before the bracket, or when the first one names the same id
(`roundTrips_iff`).
-/
import RallyPoint.Retraction
import RallyPoint.Lib.MarkerScan
import RallyPoint.Lib.Pieces

namespace RallyPoint.RetractionRecords

open Lib

/-! ## Characters -/

/-- `char::is_alphanumeric`, of which only the ASCII part is fixed here. -/
structure Alphanumeric where
  holds : Char → Bool
  ascii : ∀ c : Char, c.toNat < 128 → holds c = c.isAlphanum

/-- The characters of an event id. -/
def isIdChar (c : Char) : Bool := c.isAlphanum || c == '_' || c == '-'

/-! ## Writing and reading -/

/-- The reason as a summary opens with it. -/
def reasonText (reason : String) : String := if trim reason = "" then "retracted" else trim reason

def summaryFor (target reason : String) (supersededBy : Option String) : String :=
  match supersededBy with
  | some replacement =>
    reasonText reason ++ " [retracts=" ++ target ++ " superseded_by=" ++ replacement ++ "]"
  | none => reasonText reason ++ " [retracts=" ++ target ++ "]"

def supersededMarker : List Char := "superseded_by=".toList

/-- `token_after` for one marker, as a scan. -/
def tokenScan (alnum : Alphanumeric) (marker : List Char) : Scan where
  marker := marker
  word c := alnum.holds c || c == '_'
  token := isIdChar

def tokenAfter (alnum : Alphanumeric) (text : String) (marker : List Char) : Option String :=
  ((tokenScan alnum marker).find none 0 text.toList).map String.ofList

/-- The replacement a retraction points at. -/
def supersededByOf (alnum : Alphanumeric) (fact : Fact) : Option String :=
  fact.summary.bind fun s => tokenAfter alnum s supersededMarker

/-! ## The target -/

/-- **The target comes back** from the subject, whatever else the fact says. -/
theorem targetOf_subjectFor {fact : Fact} {target : String} (hne : target ≠ "")
    (hword : ∀ c ∈ target.toList, isWhitespace c = false) (hsubject : fact.subject = subjectFor target) :
    targetOf fact = some target := by
  have htrim : trim (subjectFor target) = subjectPrefix ++ (" " ++ target) := by
    have hends : startsBlank (subjectFor target) = false ∧ endsBlank (subjectFor target) = false := by
      constructor
      · exact startsBlank_append "retract: " (by decide) target
      · exact (endsBlank_append "retract: " target hne).trans (trim_eq_self_iff.mp (trim_of_noBlank hword)).2
    rw [trim_eq_self_iff.mpr hends, subjectFor, subjectPrefix, ← String.append_assoc]
    rfl
  have hlist : target.toList ≠ [] := fun h => hne (String.toList_inj.mp h)
  have hplain : (!target.toList.isEmpty && !target.toList.any isWhitespace) = true := by
    simpa [hlist] using hword
  have hread : subjectTarget (subjectFor target) = some target := by
    simp only [subjectTarget, htrim, stripPrefix_append, trim_blank_append, trim_of_noBlank hword]
    rw [if_pos hplain]
  rw [targetOf, hsubject, hread]

/-! ## The replacement -/

section Replacement

variable {alnum : Alphanumeric}

theorem not_alnum_of_ascii {c : Char} (hascii : c.toNat < 128) (hc : c.isAlphanum = false) : alnum.holds c = false :=
  (alnum.ascii c hascii).trans hc

theorem supersededMarker_borderless : Scan.Borderless supersededMarker := by
  intro j hpos hlt
  rw [← List.isPrefixOf_iff_prefix]
  have hall : ∀ j < supersededMarker.length, 0 < j →
      (supersededMarker.drop j).isPrefixOf supersededMarker = false := by decide
  simp [hall j hlt hpos]

theorem tokenAfter_eq_some_iff {text id : String} :
    tokenAfter alnum text supersededMarker = some id ↔
      (tokenScan alnum supersededMarker).NamesFirst text.toList id.toList := by
  rw [← Scan.find_eq_some_iff supersededMarker_borderless (show supersededMarker ≠ [] by decide), tokenAfter,
    Option.map_eq_some_iff]
  constructor
  · rintro ⟨cs, hcs, rfl⟩
    rwa [String.toList_ofList]
  · intro h
    exact ⟨id.toList, h, String.ofList_toList⟩

/-- A text never names the empty id. -/
theorem tokenAfter_ne_empty {text : String} : tokenAfter alnum text supersededMarker ≠ some "" := by
  intro h
  obtain ⟨n, hnames, -⟩ := tokenAfter_eq_some_iff.mp h
  exact hnames.nonempty rfl

/-- The scan at the bracket: nothing of the bracket's first marker is read, and the target follows a boundary. -/
theorem find_bracket (before : Option Char) (cs : List Char) :
    (tokenScan alnum supersededMarker).find before 0 ("[retracts=".toList ++ cs) =
      (tokenScan alnum supersededMarker).find none 0 cs := by
  have hequals : (tokenScan alnum supersededMarker).boundary (some '=') = true := by
    simp [Scan.boundary, tokenScan, not_alnum_of_ascii]
  rw [@Scan.find_congr _ none (some '=') hequals.symm]
  rfl

/-- The scan at the bracket's own marker. -/
theorem find_own {replacement : List Char} (hid : ∀ c ∈ replacement, isIdChar c = true) :
    (tokenScan alnum supersededMarker).find (some ' ') 0 (supersededMarker ++ (replacement ++ [']'])) =
      if replacement = [] then none else some replacement := by
  have hblank : (tokenScan alnum supersededMarker).boundary (some ' ') = true := by
    simp [Scan.boundary, tokenScan, not_alnum_of_ascii]
  have htoken : ((supersededMarker ++ (replacement ++ [']'])).drop supersededMarker.length).takeWhile isIdChar =
      replacement := by
    rw [List.drop_left, List.takeWhile_append_of_pos hid]
    simp [isIdChar]
  have hhit := @Scan.find_hit (tokenScan alnum supersededMarker) (some ' ') 's'
    ("uperseded_by=".toList ++ (replacement ++ [']'])) (List.isPrefixOf_iff_prefix.mpr (List.prefix_append _ _))
  have hread : (tokenScan alnum supersededMarker).find (some ' ') 0 (supersededMarker ++ (replacement ++ [']'])) =
      if !replacement.isEmpty then some replacement
      else (tokenScan alnum supersededMarker).find (some 's') 13
        ("uperseded_by=".toList ++ (replacement ++ [']'])) := by
    refine hhit.trans ?_
    have hsame : List.takeWhile (tokenScan alnum supersededMarker).token
        (List.drop (tokenScan alnum supersededMarker).marker.length
          ('s' :: ("uperseded_by=".toList ++ (replacement ++ [']'])))) = replacement := htoken
    rw [hsame, hblank, Bool.true_and]
    rfl
  rw [hread]
  cases replacement with
  | nil => rfl
  | cons c cs => rfl

/-- **What is read back of a summary:** the first marker of the reason, else of the target, else the bracket's. -/
theorem tokenAfter_summaryFor {target reason : String} {supersededBy : Option String}
    (hid : ∀ id ∈ supersededBy, ∀ c ∈ id.toList, isIdChar c = true) :
    tokenAfter alnum (summaryFor target reason supersededBy) supersededMarker =
      ((tokenAfter alnum (reasonText reason) supersededMarker).or (tokenAfter alnum target supersededMarker)).or
        (supersededBy.filter (· ≠ "")) := by
  have hpieces : ∀ (d : Char) (xs ys : List Char) (before : Option Char), d = ' ' ∨ d = ']' →
      (tokenScan alnum supersededMarker).find before 0 (xs ++ d :: ys) =
        ((tokenScan alnum supersededMarker).find before 0 xs).or
          ((tokenScan alnum supersededMarker).find (some d) 0 ys) := by
    rintro d xs ys before (rfl | rfl)
    · exact Scan.find_append (show ' ' ∉ supersededMarker by decide) (show supersededMarker ≠ [] by decide)
        (show isIdChar ' ' = false by decide) before 0 xs ys (Nat.zero_le _)
    · exact Scan.find_append (show ']' ∉ supersededMarker by decide) (show supersededMarker ≠ [] by decide)
        (show isIdChar ']' = false by decide) before 0 xs ys (Nat.zero_le _)
  have hbracket : " [retracts=".toList = ' ' :: "[retracts=".toList := rfl
  have hclose : "]".toList = [']'] := rfl
  have hmarker : " superseded_by=".toList = ' ' :: supersededMarker := rfl
  cases supersededBy with
  | none =>
    have hlist : (summaryFor target reason none).toList =
        (reasonText reason).toList ++ ' ' :: ("[retracts=".toList ++ (target.toList ++ ']' :: [])) := by
      simp only [summaryFor, String.toList_append, hbracket, hclose, List.append_assoc, List.cons_append]
    rw [tokenAfter, hlist, hpieces _ _ _ _ (.inl rfl), find_bracket, hpieces _ _ _ _ (.inr rfl)]
    simp [tokenAfter, Scan.find, Option.map_or]
  | some replacement =>
    have hlist : (summaryFor target reason (some replacement)).toList =
        (reasonText reason).toList ++ ' ' :: ("[retracts=".toList ++
          (target.toList ++ ' ' :: (supersededMarker ++ (replacement.toList ++ [']'])))) := by
      simp only [summaryFor, String.toList_append, hbracket, hclose, hmarker, List.append_assoc, List.cons_append]
    have hown : (tokenScan alnum supersededMarker).find (some ' ') 0
        (supersededMarker ++ (replacement.toList ++ [']'])) =
        ((some replacement).filter (· ≠ "")).map String.toList := by
      rw [find_own (hid replacement rfl)]
      by_cases hempty : replacement = ""
      · simp [hempty]
      · have hne : replacement.toList ≠ [] := fun h => hempty (String.toList_inj.mp h)
        simp [hempty, hne]
    rw [tokenAfter, hlist, hpieces _ _ _ _ (.inl rfl), find_bracket, hpieces _ _ _ _ (.inl rfl), hown]
    simp [tokenAfter, Option.map_or, Option.or_assoc, Function.comp_def]

end Replacement

/-! ## The round trip -/

/-- A text names an id: the first readable marker of it does. -/
def Names (alnum : Alphanumeric) (text id : String) : Prop :=
  (tokenScan alnum supersededMarker).NamesFirst text.toList id.toList

/-- A retraction of a target reads back as it was written. -/
structure RoundTrips (alnum : Alphanumeric) (fact : Fact) (target : String) (supersededBy : Option String) :
    Prop where
  target : targetOf fact = some target
  replacement : supersededByOf alnum fact = supersededBy

/-- **A retraction record comes back exactly when** its replacement is no empty id and the first marker that the
reason names, or else the target, is the replacement's own. -/
theorem roundTrips_iff (alnum : Alphanumeric) {target reason : String} {supersededBy : Option String}
    (hne : target ≠ "") (hword : ∀ c ∈ target.toList, isWhitespace c = false)
    (hid : ∀ id ∈ supersededBy, ∀ c ∈ id.toList, isIdChar c = true) {fact : Fact}
    (hsubject : fact.subject = subjectFor target)
    (hsummary : fact.summary = some (summaryFor target reason supersededBy)) :
    RoundTrips alnum fact target supersededBy ↔
      supersededBy ≠ some "" ∧
        ∀ id, Names alnum (reasonText reason) id ∨
            ((∀ other, ¬Names alnum (reasonText reason) other) ∧ Names alnum target id) →
          supersededBy = some id := by
  have hread : supersededByOf alnum fact =
      ((tokenAfter alnum (reasonText reason) supersededMarker).or (tokenAfter alnum target supersededMarker)).or
        (supersededBy.filter (· ≠ "")) := by
    rw [supersededByOf, hsummary, Option.bind_some]
    exact tokenAfter_summaryFor hid
  have hnames : ∀ text id, Names alnum text id ↔ tokenAfter alnum text supersededMarker = some id :=
    fun text id => tokenAfter_eq_some_iff.symm
  have htrips : RoundTrips alnum fact target supersededBy ↔ supersededByOf alnum fact = supersededBy :=
    ⟨fun h => h.replacement, fun h => ⟨targetOf_subjectFor hne hword hsubject, h⟩⟩
  rw [htrips, hread]
  simp only [hnames]
  cases hreason : tokenAfter alnum (reasonText reason) supersededMarker with
  | some first =>
    have hfirst : first ≠ "" := fun h => tokenAfter_ne_empty (h ▸ hreason)
    simp only [Option.some_or]
    constructor
    · rintro rfl
      refine ⟨by simpa using hfirst, ?_⟩
      rintro id (hsome | ⟨hnone, -⟩)
      · exact hsome
      · exact absurd rfl (hnone first)
    · rintro ⟨-, h⟩
      exact (h first (.inl rfl)).symm
  | none =>
    cases htarget : tokenAfter alnum target supersededMarker with
    | some first =>
      have hfirst : first ≠ "" := fun h => tokenAfter_ne_empty (h ▸ htarget)
      simp only [Option.none_or, Option.some_or]
      constructor
      · rintro rfl
        refine ⟨by simpa using hfirst, ?_⟩
        rintro id (hsome | ⟨-, hsome⟩)
        · cases hsome
        · exact hsome
      · rintro ⟨-, h⟩
        exact (h first (.inr ⟨(fun other hother => nomatch hother), rfl⟩)).symm
    | none =>
      -- nothing is named before the bracket, so its own marker is read unless its id is empty
      simp only [Option.none_or]
      constructor
      · intro h
        refine ⟨fun hempty => ?_, ?_⟩
        · rw [hempty] at h
          cases h
        · rintro id (hsome | ⟨-, hsome⟩)
          · cases hsome
          · cases hsome
      · rintro ⟨hempty, -⟩
        cases supersededBy with
        | none => rfl
        | some replacement =>
          have hreplacement : replacement ≠ "" := fun h => hempty (congrArg some h)
          simp [hreplacement]

/-! ## A reason that quotes a retraction -/

namespace RetractionSample

/-- A table of ASCII letters and digits. -/
def asciiTable : Alphanumeric := ⟨Char.isAlphanum, fun _ _ => rfl⟩

def quoting : Fact :=
  { eventId := "r1", kind := .artifact, subject := subjectFor "fact_a"
    summary := some (summaryFor "fact_a" "not superseded_by=fact_x after all" (some "fact_b")) }

/-- The reason's marker is read in place of the bracket's. -/
theorem quoting_reads_reason : ¬RoundTrips asciiTable quoting "fact_a" (some "fact_b") := by
  intro h
  have hread : supersededByOf asciiTable quoting = some "fact_x" := by decide +kernel
  have hclash := hread.symm.trans h.replacement
  revert hclash
  decide

def plain : Fact :=
  { eventId := "r2", kind := .artifact, subject := subjectFor "fact_a"
    summary := some (summaryFor "fact_a" "wrong port" (some "fact_b")) }

theorem plain_roundTrips :
    RoundTrips asciiTable plain "fact_a" (some "fact_b") ↔ some "fact_b" ≠ some "" ∧
      ∀ id, Names asciiTable (reasonText "wrong port") id ∨
          ((∀ other, ¬Names asciiTable (reasonText "wrong port") other) ∧ Names asciiTable "fact_a" id) →
        some "fact_b" = some id := by
  have hword : "fact_a".toList.any isWhitespace = false := by decide
  refine roundTrips_iff asciiTable (by decide) (fun c hc => ?_) ?_ rfl rfl
  · exact Bool.eq_false_iff.mpr (List.any_eq_false.mp hword c hc)
  · rintro id ⟨⟩
    exact List.all_eq_true.mp (by decide +kernel)

end RetractionSample

end RallyPoint.RetractionRecords
