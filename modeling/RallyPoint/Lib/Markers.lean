/-
# RallyPoint.Lib.Markers — `key=value` markers on one line, joined by a bar and split at it again.

The writer joins `key=value` texts with a bar between blanks; the reader splits at every bar, trims, and takes what
stands before and after the first `=`, the last marker of a key winning. A value that has no bar comes back trimmed.
A value that has one comes back as what stands before it, and the rest of it is read as markers of its own:
`markersOf_render` says exactly which.
-/
import RallyPoint.Lib.OrderedMap
import RallyPoint.Lib.Pieces

namespace RallyPoint.Lib

/-! ## Markers -/

/-- One marker; a text without `=` is a flag with an empty value. -/
def marker (piece : String) : Option (String × String) :=
  let text := trim piece
  if text = "" then none
  else
    match splitOnce '=' text with
    | some (key, value) => some (trim key, trim value)
    | none => some (text, "")

/-- The markers of a line, in order. -/
def markersOf (line : String) : List (String × String) := (split '|' line).filterMap marker

/-- The markers that a value brings in behind its first bar. -/
def injected (value : String) : List (String × String) := (split '|' value).tail.filterMap marker

/-- What is left of a value under its own key. -/
def ownValue (value : String) : String := trim ((split '|' value).head?.getD "")

/-- The last value of a key. -/
def lastValue (markers : List (String × String)) (key : String) : Option String :=
  (OrderedMap.valuesAt markers key).getLast?

/-- The markers of a line as a map, the last one of a key winning. -/
def markerMap (line : String) : List (String × String) := OrderedMap.updateAll (fun v _ => v) [] (markersOf line)

def renderMarker (field : String × String) : String := field.1 ++ "=" ++ field.2

def renderMarkers (fields : List (String × String)) : String := join " | " (fields.map renderMarker)

/-- A key that is read as it was written. -/
structure PlainKey (key : String) : Prop where
  word : (key.toList.all fun c => !isWhitespace c) = true
  noBar : '|' ∉ key.toList
  noEquals : '=' ∉ key.toList

variable {fields : List (String × String)} {markers later : List (String × String)} {key value line : String}

theorem lastValue_append (front back : List (String × String)) :
    lastValue (front ++ back) key = (lastValue back key).or (lastValue front key) := by
  rw [lastValue, OrderedMap.valuesAt, List.filter_append, List.map_append, List.getLast?_append]
  rfl

theorem get_markerMap : OrderedMap.get (markerMap line) key = lastValue (markersOf line) key :=
  OrderedMap.get_updateAll_last

theorem marker_congr {a b : String} (h : trim a = trim b) : marker a = marker b := by
  unfold marker
  rw [h]

/-- The blanks the writer puts around a bar are trimmed off again. -/
theorem markersOf_blank_end (line : String) : markersOf (line ++ " ") = markersOf line := by
  obtain ⟨front, piece, hline, hblank⟩ := @splitChars_snoc '|' ' ' (by decide) line.toList
  have htrim : trim (String.ofList (piece ++ [' '])) = trim (String.ofList piece) := by
    rw [← trim_trimEnd, ← trim_trimEnd (String.ofList piece), trimEnd, trimEnd, String.toList_ofList,
      String.toList_ofList, List.rdropWhile_concat_pos _ _ _ (by decide)]
  have happend : (line ++ " ").toList = line.toList ++ [' '] := String.toList_append
  rw [markersOf, markersOf, split, split, happend, hline, hblank, List.map_append, List.map_append,
    List.filterMap_append, List.filterMap_append, List.map_singleton, List.map_singleton, List.filterMap_cons,
    List.filterMap_cons, marker_congr htrim]

theorem markersOf_blank_start (line : String) : markersOf (" " ++ line) = markersOf line := by
  obtain ⟨piece, rest, hline, hblank⟩ := @splitChars_cons '|' ' ' (by decide) line.toList
  have htrim : trim (String.ofList (' ' :: piece)) = trim (String.ofList piece) := by
    unfold trim
    rw [String.toList_ofList, String.toList_ofList, List.dropWhile_cons_of_pos (by decide)]
  have happend : (" " ++ line).toList = ' ' :: line.toList := String.toList_append
  rw [markersOf, markersOf, split, split, happend, hline, hblank, List.map_cons, List.map_cons, List.filterMap_cons,
    List.filterMap_cons, marker_congr htrim]

theorem markersOf_append (front back : String) :
    markersOf (front ++ " | " ++ back) = markersOf front ++ markersOf back := by
  have hchars : (front ++ " | " ++ back).toList = (front ++ " ").toList ++ '|' :: (" " ++ back).toList := by
    simp [String.toList_append]
  rw [← markersOf_blank_end front, ← markersOf_blank_start back, markersOf, split, hchars, splitChars_append,
    List.map_append, List.filterMap_append]
  rfl

/-- **One field comes back** as its own marker and the ones its value brings in. -/
theorem markersOf_renderMarker (hkey : PlainKey key) :
    markersOf (renderMarker (key, value)) = (key, ownValue value) :: injected value := by
  have hpre : '|' ∉ (key ++ "=").toList := by
    rw [String.toList_append, List.mem_append, not_or]
    exact ⟨hkey.noBar, by decide⟩
  obtain ⟨piece, rest, hvalue, happend⟩ := splitChars_word hpre value.toList
  have hword : ((key ++ "=").toList.all fun c => !isWhitespace c) = true := by
    rw [String.toList_append, List.all_append, hkey.word]
    decide
  have hne : key ++ "=" ≠ "" := by
    intro hempty
    have hlen := congrArg (fun s : String => s.toList.length) hempty
    simp [String.toList_append] at hlen
  have htrimKey : trim key = key := by
    have hchars : ∀ c ∈ key.toList, isWhitespace c = false := by simpa using hkey.word
    have hdrop : key.toList.dropWhile isWhitespace = key.toList := by
      cases hcs : key.toList with
      | nil => rfl
      | cons c cs => exact List.dropWhile_cons_of_neg (by simp [hchars c (by simp [hcs])])
    have hrdrop : key.toList.rdropWhile isWhitespace = key.toList := by
      rw [List.rdropWhile_eq_self_iff]
      intro hl
      simp [hchars _ (List.getLast_mem hl)]
    show String.ofList ((key.toList.dropWhile isWhitespace).rdropWhile isWhitespace) = key
    rw [hdrop, hrdrop, String.ofList_toList]
  have hmarker : marker (String.ofList ((key ++ "=").toList ++ piece)) = some (key, trim (String.ofList piece)) := by
    have htext : String.ofList ((key ++ "=").toList ++ piece) = key ++ "=" ++ String.ofList piece := by
      rw [← String.toList_inj]
      simp [String.toList_append]
    have htrim : trim (key ++ "=" ++ String.ofList piece) = key ++ "=" ++ trimEnd (String.ofList piece) :=
      trim_append hword hne
    have hfull : key ++ "=" ++ trimEnd (String.ofList piece) ≠ "" := by
      intro hempty
      have hlen := congrArg (fun s : String => s.toList.length) hempty
      simp [String.toList_append] at hlen
    have hsplit : splitOnce '=' (key ++ "=" ++ trimEnd (String.ofList piece)) =
        some (key, trimEnd (String.ofList piece)) := splitOnce_append hkey.noEquals
    rw [htext, marker]
    simp only [htrim, if_neg hfull, hsplit, htrimKey, trim_trimEnd]
  rw [markersOf, renderMarker, split, String.toList_append, happend, List.map_cons, List.filterMap_cons, hmarker,
    injected, ownValue, split, hvalue, List.map_cons, List.head?_cons, Option.getD_some, List.tail_cons]

/-- **A line comes back** as the markers of its fields, each followed by the ones its value brings in. -/
theorem markersOf_render (hkeys : ∀ field ∈ fields, PlainKey field.1) :
    markersOf (renderMarkers fields) =
      fields.flatMap fun field => (field.1, ownValue field.2) :: injected field.2 := by
  induction fields with
  | nil => decide
  | cons field rest ih =>
    have hfield := @markersOf_renderMarker field.1 field.2 (hkeys field List.mem_cons_self)
    have hrest := ih fun other hother => hkeys other (List.mem_cons_of_mem _ hother)
    cases rest with
    | nil => simpa [renderMarkers, join] using hfield
    | cons next rest =>
      have hjoin : renderMarkers (field :: next :: rest) =
          renderMarker field ++ " | " ++ renderMarkers (next :: rest) :=
        rfl
      have hmarker : markersOf (renderMarker field) = (field.1, ownValue field.2) :: injected field.2 := hfield
      rw [hjoin, markersOf_append, hrest, hmarker]
      rfl

/-! ## Which values come back -/

theorem mem_dropWhile_of_neg {α : Type*} {p : α → Bool} {x : α} {l : List α} (hx : p x = false) (h : x ∈ l) :
    x ∈ l.dropWhile p := by
  induction l with
  | nil => cases h
  | cons y l ih =>
    by_cases hy : p y = true
    · rw [List.dropWhile_cons_of_pos hy]
      rcases List.mem_cons.mp h with rfl | h
      · rw [hx] at hy
        cases hy
      · exact ih h
    · rw [List.dropWhile_cons_of_neg hy]
      exact h

/-- What is no blank stays when a text is trimmed. -/
theorem mem_trim {c : Char} (hc : isWhitespace c = false) {s : String} : c ∈ (trim s).toList ↔ c ∈ s.toList := by
  have htrim : (trim s).toList = (s.toList.dropWhile isWhitespace).rdropWhile isWhitespace := String.toList_ofList
  rw [htrim, List.rdropWhile, List.mem_reverse]
  constructor
  · intro h
    exact (List.dropWhile_sublist _).subset (List.mem_reverse.mp ((List.dropWhile_sublist _).subset h))
  · intro h
    exact mem_dropWhile_of_neg hc (List.mem_reverse.mpr (mem_dropWhile_of_neg hc h))

theorem splitOnceChars_subset {sep : Char} {cs : List Char} {p : List Char × List Char}
    (h : splitOnceChars sep cs = some p) : p.2 ⊆ cs := by
  induction cs generalizing p with
  | nil => cases h
  | cons c cs ih =>
    rw [splitOnceChars] at h
    split_ifs at h with hc
    · obtain rfl := Option.some.inj h
      exact List.subset_cons_self c cs
    · obtain ⟨q, hq, rfl⟩ := Option.map_eq_some_iff.mp h
      exact List.Subset.trans (@ih q hq) (List.subset_cons_self c cs)

/-- The value of a marker brings no bar from outside its piece. -/
theorem noBar_of_marker {piece : String} {m : String × String} (hpiece : '|' ∉ piece.toList)
    (h : marker piece = some m) : '|' ∉ m.2.toList := by
  have htrim : '|' ∉ (trim piece).toList := fun hmem => hpiece ((mem_trim (by decide)).mp hmem)
  unfold marker at h
  dsimp only at h
  split_ifs at h with hempty
  cases hsplit : splitOnce '=' (trim piece) with
  | none =>
    rw [hsplit] at h
    obtain rfl := Option.some.inj h
    show '|' ∉ "".toList
    decide
  | some p =>
    rw [hsplit] at h
    obtain rfl := Option.some.inj h
    obtain ⟨q, hq, rfl⟩ := Option.map_eq_some_iff.mp hsplit
    intro hmem
    apply htrim
    apply splitOnceChars_subset hq
    simpa using (mem_trim (by decide)).mp hmem

theorem noBar_of_mem_injected {m : String × String} (h : m ∈ injected value) : '|' ∉ m.2.toList := by
  obtain ⟨piece, hpiece, hmarker⟩ := List.mem_filterMap.mp h
  exact noBar_of_marker (notMem_of_mem_split (List.mem_of_mem_tail hpiece)) hmarker

theorem noBar_ownValue (value : String) : '|' ∉ (ownValue value).toList := by
  rw [ownValue]
  cases hpieces : (split '|' value).head? with
  | none => decide
  | some piece =>
    intro hmem
    exact notMem_of_mem_split (List.mem_of_head? hpieces) ((mem_trim (by decide)).mp hmem)

/-- A value without a bar is read whole, and brings nothing in. -/
theorem value_of_noBar (h : '|' ∉ value.toList) : ownValue value = trim value ∧ injected value = [] := by
  have hsplit : split '|' value = [value] := split_of_notMem h
  rw [ownValue, injected, hsplit]
  exact ⟨rfl, rfl⟩

theorem mem_valuesAt {w : String} (h : lastValue markers key = some w) : (key, w) ∈ markers := by
  have hmem : w ∈ OrderedMap.valuesAt markers key := List.mem_of_getLast? h
  obtain ⟨m, hm, rfl⟩ := List.mem_map.mp hmem
  obtain ⟨hm, hkey⟩ := List.mem_filter.mp hm
  have hkey : m.1 = key := by simpa using hkey
  rwa [← hkey]

theorem lastValue_eq_none_iff : lastValue markers key = none ↔ ∀ m ∈ markers, m.1 ≠ key := by
  rw [lastValue, List.getLast?_eq_none_iff, OrderedMap.valuesAt, List.map_eq_nil_iff, List.filter_eq_nil_iff]
  simp

/-- What fields of other keys leave under a key comes from inside their values. -/
theorem lastValue_flatMap (h : ∀ field ∈ later, field.1 ≠ key) :
    lastValue (later.flatMap fun field => (field.1, ownValue field.2) :: injected field.2) key =
      lastValue (later.flatMap fun field => injected field.2) key := by
  induction later with
  | nil => rfl
  | cons field later ih =>
    rw [List.flatMap_cons, List.flatMap_cons, lastValue_append, lastValue_append,
      ih fun other hother => h other (List.mem_cons_of_mem _ hother)]
    have hother : field.1 ≠ key := h field List.mem_cons_self
    have hown : lastValue ((field.1, ownValue field.2) :: injected field.2) key =
        lastValue (injected field.2) key := by
      rw [lastValue, lastValue, OrderedMap.valuesAt, List.filter_cons_of_neg (by simpa using hother)]
      rfl
    rw [hown]

/-- **A field comes back** exactly when its value has no bar and no later value overrides it with another. -/
theorem lastValue_field_iff {earlier : List (String × String)} (hkeys : ∀ field ∈ later, field.1 ≠ key) :
    lastValue ((earlier ++ (key, value) :: later).flatMap fun field =>
        (field.1, ownValue field.2) :: injected field.2) key = some (trim value) ↔
      '|' ∉ value.toList ∧
        ∀ w, lastValue (later.flatMap fun field => injected field.2) key = some w → w = trim value := by
  have hown : lastValue ((key, ownValue value) :: injected value) key =
      (lastValue (injected value) key).or (some (ownValue value)) := by
    rw [← List.singleton_append, lastValue_append]
    congr 1
    rw [lastValue, OrderedMap.valuesAt, List.filter_cons_of_pos (by simp)]
    rfl
  have hread : lastValue ((earlier ++ (key, value) :: later).flatMap fun field =>
      (field.1, ownValue field.2) :: injected field.2) key =
      ((lastValue (later.flatMap fun field => injected field.2) key).or (lastValue (injected value) key)).or
        (some (ownValue value)) := by
    rw [List.flatMap_append, lastValue_append, List.flatMap_cons, lastValue_append, lastValue_flatMap hkeys, hown]
    cases lastValue (later.flatMap fun field => injected field.2) key with
    | some w => rfl
    | none => cases lastValue (injected value) key <;> rfl
  rw [hread]
  constructor
  · intro h
    -- a value that is read has no bar, so neither has the one that was written
    have hread : ∀ w, ((lastValue (later.flatMap fun field => injected field.2) key).or
        (lastValue (injected value) key)).or (some (ownValue value)) = some w → '|' ∉ w.toList := by
      intro w hw
      rcases Option.or_eq_some_iff.mp hw with hw | ⟨-, hw⟩
      · rcases Option.or_eq_some_iff.mp hw with hw | ⟨-, hw⟩
        · obtain ⟨field, -, hm⟩ := List.mem_flatMap.mp (mem_valuesAt hw)
          exact noBar_of_mem_injected hm
        · exact noBar_of_mem_injected (mem_valuesAt hw)
      · exact Option.some.inj hw ▸ noBar_ownValue value
    have hbar : '|' ∉ value.toList := fun hmem => hread _ h ((mem_trim (by decide)).mpr hmem)
    refine ⟨hbar, fun w hw => ?_⟩
    rw [hw, Option.some_or, Option.some_or] at h
    exact Option.some.inj h
  · rintro ⟨hbar, hlater⟩
    obtain ⟨hvalue, hnil⟩ := value_of_noBar hbar
    rw [hnil, hvalue]
    cases hw : lastValue (later.flatMap fun field => injected field.2) key with
    | none => rfl
    | some w => rw [hlater w hw, Option.some_or, Option.some_or]

/-- **A key nobody wrote stays absent** exactly when no value brings it in. -/
theorem lastValue_absent_iff (hkeys : ∀ field ∈ fields, field.1 ≠ key) :
    lastValue (fields.flatMap fun field => (field.1, ownValue field.2) :: injected field.2) key = none ↔
      ∀ field ∈ fields, ∀ m ∈ injected field.2, m.1 ≠ key := by
  rw [lastValue_flatMap hkeys, lastValue_eq_none_iff]
  constructor
  · intro h field hfield m hm
    exact h m (List.mem_flatMap.mpr ⟨field, hfield, hm⟩)
  · intro h m hm
    obtain ⟨field, hfield, hm⟩ := List.mem_flatMap.mp hm
    exact h field hfield m hm

/-! ## Lines of flags -/

theorem splitOnce_eq_none {sep : Char} {text : String} (h : sep ∉ text.toList) : splitOnce sep text = none := by
  have hchars : ∀ cs : List Char, sep ∉ cs → splitOnceChars sep cs = none := by
    intro cs hcs
    induction cs with
    | nil => rfl
    | cons c cs ih =>
      rw [List.mem_cons, not_or] at hcs
      rw [splitOnceChars, if_neg (Ne.symm hcs.1), ih hcs.2, Option.map_none]
  rw [splitOnce, hchars _ h, Option.map_none]

/-- A line without a `key=value` marker holds flags only. -/
theorem lastValue_flags_eq_none_iff {text : String} (h : '=' ∉ text.toList) (hkey : key ≠ "") :
    lastValue (markersOf text) key = none ↔ key ∉ (split '|' text).map trim := by
  have hmarker : ∀ piece ∈ split '|' text,
      marker piece = if trim piece = "" then none else some (trim piece, "") := by
    intro piece hpiece
    obtain ⟨cs, hcs, rfl⟩ := List.mem_map.mp hpiece
    have hnone : splitOnce '=' (trim (String.ofList cs)) = none := by
      apply splitOnce_eq_none
      rw [mem_trim (by decide), String.toList_ofList]
      exact fun hmem => h (mem_of_mem_splitChars hcs hmem)
    unfold marker
    simp only [hnone]
  rw [lastValue_eq_none_iff, markersOf]
  constructor
  · intro hall hmem
    obtain ⟨piece, hpiece, htrim⟩ := List.mem_map.mp hmem
    refine hall (key, "") (List.mem_filterMap.mpr ⟨piece, hpiece, ?_⟩) rfl
    rw [hmarker piece hpiece, htrim, if_neg hkey]
  · intro hnot m hm hmkey
    obtain ⟨piece, hpiece, hread⟩ := List.mem_filterMap.mp hm
    rw [hmarker piece hpiece] at hread
    split_ifs at hread with hempty
    obtain rfl := Option.some.inj hread
    exact hnot (List.mem_map.mpr ⟨piece, hpiece, hmkey⟩)

end RallyPoint.Lib
