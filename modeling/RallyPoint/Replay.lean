/-
# RallyPoint.Replay — which segment files are replayed, and what they give each engagement (`store.rs`).

Segments live in two directories: `log/` for those that are written and `archive/` for those rotated away.
The room's history is folded from both, except for one archive name that a migration reserved for the ledger
it replaced. A single engagement is read from its own live file and from every archived one: a row belongs to
the engagement it is stamped with, and a row without a stamp to the engagement its file is named after.
-/
import Mathlib.Data.List.AList
import RallyPoint.Segments

namespace RallyPoint

open Lib

/-! ## Directories -/

/-- A directory: one content for each file name. -/
abbrev Dir (α : Type) := AList fun _ : String => α

def archivedMonolithFilename : String := "ledger-pre-segment.jsonl"

/-- What a directory listing takes for a segment: the extension `jsonl` and no `.tmp-` in the name. -/
def isSegmentFile (name : String) : Bool :=
  (stripSuffix ".jsonl" name).any (· != "") && !containsStr ".tmp-" name

/-- `read_segment_files`: the segments of a directory, sorted by name. -/
def readSegmentFiles {α : Type} (dir : Dir α) : List (String × α) :=
  ((dir.entries.filter fun e => isSegmentFile e.1).map fun e => (e.1, e.2)).insertionSort fun a b => a.1 ≤ b.1

def replayArchiveSegments {α : Type} (archive : Dir α) : List (String × α) :=
  (readSegmentFiles archive).filter fun f => f.1 != archivedMonolithFilename

section

variable {α : Type} {dir : Dir α} {name : String} {content : α}

theorem mem_readSegmentFiles :
    (name, content) ∈ readSegmentFiles dir ↔ dir.lookup name = some content ∧ isSegmentFile name = true := by
  rw [readSegmentFiles, (List.perm_insertionSort _ _).mem_iff, List.mem_map]
  constructor
  · rintro ⟨e, he, heq⟩
    rw [Prod.mk.injEq] at heq
    obtain ⟨rfl, rfl⟩ := heq
    obtain ⟨hmem, hseg⟩ := List.mem_filter.mp he
    exact ⟨AList.mem_lookup_iff.mpr hmem, hseg⟩
  · rintro ⟨hlookup, hseg⟩
    exact ⟨⟨name, content⟩, List.mem_filter.mpr ⟨AList.mem_lookup_iff.mp hlookup, hseg⟩, rfl⟩

theorem nodup_readSegmentFiles (dir : Dir α) : ((readSegmentFiles dir).map Prod.fst).Nodup := by
  rw [readSegmentFiles, ((List.perm_insertionSort _ _).map Prod.fst).nodup_iff, List.map_map]
  exact dir.keys_nodup.sublist (List.filter_sublist.map Sigma.fst)

theorem mem_replayArchiveSegments :
    (name, content) ∈ replayArchiveSegments dir ↔
      dir.lookup name = some content ∧ isSegmentFile name = true ∧ name ≠ archivedMonolithFilename := by
  rw [replayArchiveSegments, List.mem_filter, mem_readSegmentFiles, bne_iff_ne, and_assoc]

end

/-! ## The room and its engagements -/

/-- A directory whose segments are given by their rows. -/
abbrev RowDir := Dir (List SegmentRow)

/-- `canonical_segment_entries` over the log and the replayed part of the archive. -/
def roomEntries (log archive : RowDir) : Result (List SegmentRow) :=
  canonicalSegmentEntries (fun f => .ok f.2) (readSegmentFiles log) (replayArchiveSegments archive)

/-- `sanitise_engagement`: no white space around the label and no path separator or NUL in it. -/
def sanitiseEngagement (value : String) : String :=
  String.ofList ((trim value).toList.filter fun c => !(['/', Char.ofNat 92, Char.ofNat 0].contains c))

def validateScopedEngagement (value : String) : Result String :=
  let trimmed := trim value
  let cleaned := sanitiseEngagement trimmed
  if cleaned = "" then .error (.usage "scoped snapshot requires a non-empty engagement")
  else if value != trimmed || cleaned != trimmed then
    .error (.usage (s!"invalid engagement label {String.quote value}: leading/trailing whitespace, path " ++
      "separators, and NUL bytes are not allowed"))
  else .ok cleaned

/-- The stamp of a row wins; the name of its file only stands in for one that is missing. -/
def belongsToEngagement (engagement : String) (exactLegacyName : Bool) (entry : SegmentRow) : Bool :=
  match entry.engagement with
  | some actual => actual == engagement
  | none => exactLegacyName

/-- The rows an engagement's reading folds, each with whether it belongs: its live file, then every replayed
archive file. -/
def engagementSources (engagement : String) (log archive : RowDir) : List (SegmentRow × Bool) :=
  let fileName := engagement ++ ".jsonl"
  let source (exactLegacyName : Bool) (rows : List SegmentRow) :=
    rows.map fun entry => (entry, belongsToEngagement engagement exactLegacyName entry)
  source true ((log.lookup fileName).getD []) ++
    (replayArchiveSegments archive).flatMap fun f => source (f.1 == fileName) f.2

/-- `facts_from_engagement_segments`. -/
def factsFromEngagementSegments (codec : SegmentCodec) (log archive : RowDir) (engagement : String) :
    Result (List Fact) :=
  match validateScopedEngagement engagement with
  | .error e => .error e
  | .ok engagement =>
    match markRows (·.seq) [] (engagementSources engagement log archive) with
    | .error seq => .error (.message (s!"conflicting canonical rows for engagement {String.quote engagement} " ++
        s!"at seq {seq}: live/archive rows differ"))
    | .ok bySeq => (bySeq.filter (·.2)).mapM fun e => factFromSegmentValue codec e.1.payload e.1.seq

/-! ## Which rows count

Neither reading looks at more than which rows lie in which files. -/

section Spec

variable {log archive log' archive' : RowDir} {name engagement : String} {row : SegmentRow}
variable {out : List SegmentRow}

def InFile (dir : RowDir) (name : String) (row : SegmentRow) : Prop :=
  ∃ rows, dir.lookup name = some rows ∧ row ∈ rows

theorem inFile_singleton {file : String} {rows : List SegmentRow} :
    InFile (AList.singleton file rows) name row ↔ name = file ∧ row ∈ rows := by
  constructor
  · rintro ⟨rows', hrows', hrow⟩
    cases List.mem_singleton.mp (AList.mem_lookup_iff.mp hrows')
    exact ⟨rfl, hrow⟩
  · rintro ⟨rfl, hrow⟩
    exact ⟨rows, AList.mem_lookup_iff.mpr (List.mem_singleton.mpr rfl), hrow⟩

theorem inFile_insert {target : String} {rows : List SegmentRow} (hfree : log.lookup target = none) :
    InFile (log.insert target rows) name row ↔ InFile log name row ∨ (name = target ∧ row ∈ rows) := by
  unfold InFile
  by_cases hname : name = target
  · subst hname
    rw [AList.lookup_insert, hfree]
    simp
  · rw [AList.lookup_insert_ne hname]
    simp [hname]

theorem inFile_erase {segment : String} :
    InFile (log.erase segment) name row ↔ name ≠ segment ∧ InFile log name row := by
  unfold InFile
  by_cases hname : name = segment
  · subst hname
    rw [AList.lookup_erase]
    simp
  · rw [AList.lookup_erase_ne hname]
    simp [hname]

/-- The archive names that are replayed. -/
def Replayed (name : String) : Prop := isSegmentFile name = true ∧ name ≠ archivedMonolithFilename

/-- The rows of the room's history. -/
def InRoom (log archive : RowDir) (row : SegmentRow) : Prop :=
  (∃ name, isSegmentFile name = true ∧ InFile log name row) ∨ ∃ name, Replayed name ∧ InFile archive name row

/-- The rows an engagement's reading folds. -/
def Visible (engagement : String) (log archive : RowDir) (row : SegmentRow) : Prop :=
  InFile log (engagement ++ ".jsonl") row ∨ ∃ name, Replayed name ∧ InFile archive name row

/-- The rows it returns. -/
def Belongs (engagement : String) (log archive : RowDir) (row : SegmentRow) : Prop :=
  (InFile log (engagement ++ ".jsonl") row ∧ belongsToEngagement engagement true row = true) ∨
    ∃ name, Replayed name ∧ InFile archive name row ∧
      belongsToEngagement engagement (name == engagement ++ ".jsonl") row = true

theorem mem_readSegmentFiles_flatMap :
    row ∈ (readSegmentFiles log).flatMap (·.2) ↔ ∃ name, isSegmentFile name = true ∧ InFile log name row := by
  rw [List.mem_flatMap]
  constructor
  · rintro ⟨⟨name, rows⟩, hmem, hrow⟩
    obtain ⟨hlookup, hseg⟩ := mem_readSegmentFiles.mp hmem
    exact ⟨name, hseg, rows, hlookup, hrow⟩
  · rintro ⟨name, hseg, rows, hlookup, hrow⟩
    exact ⟨(name, rows), mem_readSegmentFiles.mpr ⟨hlookup, hseg⟩, hrow⟩

theorem mem_replayArchiveSegments_flatMap :
    row ∈ (replayArchiveSegments archive).flatMap (·.2) ↔ ∃ name, Replayed name ∧ InFile archive name row := by
  rw [List.mem_flatMap]
  constructor
  · rintro ⟨⟨name, rows⟩, hmem, hrow⟩
    obtain ⟨hlookup, hreplayed⟩ := mem_replayArchiveSegments.mp hmem
    exact ⟨name, hreplayed, rows, hlookup, hrow⟩
  · rintro ⟨name, hreplayed, rows, hlookup, hrow⟩
    exact ⟨(name, rows), mem_replayArchiveSegments.mpr ⟨hlookup, hreplayed⟩, hrow⟩

theorem sourceRows_files (files : List (String × List SegmentRow)) :
    sourceRows (fun f => .ok f.2) files = some (files.flatMap (·.2)) := by
  induction files with
  | nil => rfl
  | cons file files ih =>
    rw [sourceRows, ih]
    rfl

/-- **The room's history** is the rows of the room. -/
theorem roomEntries_congr (h : ∀ row, InRoom log archive row ↔ InRoom log' archive' row) :
    roomEntries log archive = .ok out ↔ roomEntries log' archive' = .ok out := by
  unfold roomEntries canonicalSegmentEntries
  rw [foldSources_ok_iff, foldSources_ok_iff, sourceRows_files, sourceRows_files]
  simp only [Option.some.injEq, exists_eq_left']
  refine mergeRows_congr fun row => ?_
  rw [List.flatMap_append, List.flatMap_append, List.mem_append, List.mem_append, mem_readSegmentFiles_flatMap,
    mem_readSegmentFiles_flatMap, mem_replayArchiveSegments_flatMap, mem_replayArchiveSegments_flatMap]
  exact h row

/-- The room's history in sequence order. -/
theorem roomEntries_ok (h : roomEntries log archive = .ok out) :
    KeyOrdered (·.seq) out ∧ ∀ row, row ∈ out ↔ InRoom log archive row := by
  unfold roomEntries at h
  obtain ⟨rows, hrows, -, hordered, hmem⟩ := canonicalSegmentEntries_ok_iff.mp h
  rw [sourceRows_files, Option.some.injEq] at hrows
  refine ⟨hordered, fun row => (hmem row).trans ?_⟩
  rw [← hrows, List.flatMap_append, List.mem_append, mem_readSegmentFiles_flatMap, mem_replayArchiveSegments_flatMap]
  exact Iff.rfl

theorem mem_engagementSources {belongs : Bool} :
    (row, belongs) ∈ engagementSources engagement log archive ↔
      (InFile log (engagement ++ ".jsonl") row ∧ belongsToEngagement engagement true row = belongs) ∨
        ∃ name, Replayed name ∧ InFile archive name row ∧
          belongsToEngagement engagement (name == engagement ++ ".jsonl") row = belongs := by
  unfold engagementSources
  dsimp only
  rw [List.mem_append]
  refine or_congr ?_ ?_
  · rw [List.mem_map]
    constructor
    · rintro ⟨entry, hentry, heq⟩
      rw [Prod.mk.injEq] at heq
      obtain ⟨rfl, hbelongs⟩ := heq
      cases hlookup : log.lookup (engagement ++ ".jsonl") with
      | none =>
        rw [hlookup] at hentry
        exact absurd hentry List.not_mem_nil
      | some rows =>
        rw [hlookup] at hentry
        exact ⟨⟨rows, hlookup, hentry⟩, hbelongs⟩
    · rintro ⟨⟨rows, hlookup, hrow⟩, hbelongs⟩
      refine ⟨row, ?_, by rw [hbelongs]⟩
      rw [hlookup]
      exact hrow
  · rw [List.mem_flatMap]
    constructor
    · rintro ⟨⟨name, rows⟩, hfile, hrow⟩
      obtain ⟨entry, hentry, heq⟩ := List.mem_map.mp hrow
      rw [Prod.mk.injEq] at heq
      obtain ⟨rfl, hbelongs⟩ := heq
      obtain ⟨hlookup, hreplayed⟩ := mem_replayArchiveSegments.mp hfile
      exact ⟨name, hreplayed, ⟨rows, hlookup, hentry⟩, hbelongs⟩
    · rintro ⟨name, hreplayed, ⟨rows, hlookup, hrow⟩, hbelongs⟩
      exact ⟨(name, rows), mem_replayArchiveSegments.mpr ⟨hlookup, hreplayed⟩,
        List.mem_map.mpr ⟨row, hrow, by rw [hbelongs]⟩⟩

theorem mem_engagementSources_fst :
    row ∈ (engagementSources engagement log archive).map Prod.fst ↔ Visible engagement log archive row := by
  rw [List.mem_map]
  constructor
  · rintro ⟨⟨_, belongs⟩, hmem, rfl⟩
    rcases mem_engagementSources.mp hmem with ⟨hfile, -⟩ | ⟨name, hreplayed, hfile, -⟩
    · exact .inl hfile
    · exact .inr ⟨name, hreplayed, hfile⟩
  · rintro (hfile | ⟨name, hreplayed, hfile⟩)
    · exact ⟨(row, _), mem_engagementSources.mpr (.inl ⟨hfile, rfl⟩), rfl⟩
    · exact ⟨(row, _), mem_engagementSources.mpr (.inr ⟨name, hreplayed, hfile, rfl⟩), rfl⟩

/-- A label that is let through is read as it stands. -/
theorem validateScopedEngagement_eq {label : String} (h : validateScopedEngagement engagement = .ok label) :
    engagement = label := by
  unfold validateScopedEngagement at h
  dsimp only at h
  rw [check_refuse_ok_iff, check_refuse_ok_iff, Bool.or_eq_true, bne_iff_ne, bne_iff_ne, not_or, not_not,
    not_not] at h
  obtain ⟨-, ⟨htrim, hclean⟩, hlabel⟩ := h
  rw [← Except.ok.inj hlabel, hclean]
  exact htrim

/-- The rows that some reading may come upon. -/
def Held (log archive : RowDir) (row : SegmentRow) : Prop :=
  (∃ name, InFile log name row) ∨ ∃ name, Replayed name ∧ InFile archive name row

theorem Visible.held (h : Visible engagement log archive row) : Held log archive row :=
  h.imp (fun hfile => ⟨_, hfile⟩) id

/-- A row that counts for an engagement is one its reading folds. -/
theorem Belongs.visible (h : Belongs engagement log archive row) : Visible engagement log archive row :=
  h.imp And.left fun ⟨name, hreplayed, hfile, _⟩ => ⟨name, hreplayed, hfile⟩

/-- An engagement whose reading is not refused: its label is let through, and no two rows it folds are in
conflict. -/
structure Readable (engagement : String) (log archive : RowDir) : Prop where
  label : validateScopedEngagement engagement = .ok engagement
  consistent : ∀ x, Visible engagement log archive x → ∀ y, Visible engagement log archive y →
    x.seq = y.seq → x = y

variable {codec : SegmentCodec} {facts : List Fact}

theorem exists_markRows_engagementSources_iff :
    (∃ m, markRows (·.seq) [] (engagementSources engagement log archive) = .ok m) ↔
      ∀ x, Visible engagement log archive x → ∀ y, Visible engagement log archive y →
        x.seq = y.seq → x = y := by
  simp only [exists_markRows_iff, Consistent, mem_engagementSources_fst]

/-- **An engagement's facts** are those of the rows that count for it, in sequence order. -/
theorem factsFromEngagementSegments_ok_iff :
    factsFromEngagementSegments codec log archive engagement = .ok facts ↔
      Readable engagement log archive ∧ ∃ rows, KeyOrdered (·.seq) rows ∧
        (∀ row, row ∈ rows ↔ Belongs engagement log archive row) ∧
        rows.mapM (fun row => factFromSegmentValue codec row.payload row.seq) = .ok facts := by
  unfold factsFromEngagementSegments
  constructor
  · intro h
    split at h
    case _ => cases h
    case _ label hlabel =>
      obtain rfl := validateScopedEngagement_eq hlabel
      split at h
      case _ => cases h
      case _ m hm =>
        obtain ⟨rows, hordered, hmem, hmarked⟩ := markRows_marked hm
        rw [hmarked, List.mapM_map] at h
        refine ⟨⟨hlabel, exists_markRows_engagementSources_iff.mp ⟨m, hm⟩⟩, rows, hordered, fun row => ?_, h⟩
        exact (hmem row).trans mem_engagementSources
  · rintro ⟨⟨hlabel, hconsistent⟩, rows, hordered, hmem, hrows⟩
    obtain ⟨m, hm⟩ := exists_markRows_engagementSources_iff.mpr hconsistent
    obtain ⟨rows', hordered', hmem', hmarked⟩ := markRows_marked hm
    have heq : rows' = rows := hordered'.eq_of_mem_iff hordered fun row =>
      (hmem' row).trans (mem_engagementSources.trans (hmem row).symm)
    rw [hlabel]
    dsimp only
    rw [hm]
    dsimp only
    rw [hmarked, List.mapM_map, heq]
    exact hrows

/-- A readable engagement whose rows decode has facts. -/
theorem Readable.exists_facts (h : Readable engagement log archive)
    (hdecode : ∀ row, Belongs engagement log archive row →
      ∃ fact, factFromSegmentValue codec row.payload row.seq = .ok fact) :
    ∃ facts, factsFromEngagementSegments codec log archive engagement = .ok facts := by
  obtain ⟨m, hm⟩ := exists_markRows_engagementSources_iff.mpr h.consistent
  obtain ⟨rows, hordered, hmem, -⟩ := markRows_marked hm
  have hbelongs := fun row => (hmem row).trans mem_engagementSources
  refine ⟨_, factsFromEngagementSegments_ok_iff.mpr ⟨h, rows, hordered, hbelongs, mapM_ok_iff.mpr ⟨?_, rfl⟩⟩⟩
  exact fun row hrow => hdecode row ((hbelongs row).mp hrow)

/-- The same rows give the same facts. -/
theorem factsFromEngagementSegments_congr
    (hread : Readable engagement log archive ↔ Readable engagement log' archive')
    (hsame : Readable engagement log archive →
      ∀ row, Belongs engagement log archive row ↔ Belongs engagement log' archive' row) :
    factsFromEngagementSegments codec log archive engagement = .ok facts ↔
      factsFromEngagementSegments codec log' archive' engagement = .ok facts := by
  rw [factsFromEngagementSegments_ok_iff, factsFromEngagementSegments_ok_iff, ← hread]
  refine and_congr_right fun h => exists_congr fun rows => and_congr_right fun _ => and_congr_left fun _ => ?_
  exact forall_congr' fun row => by rw [hsame h]

/-- **The same facts** come from the same rows, when one of the two readings folds all that the other does. -/
theorem belongs_of_sameFacts (h : factsFromEngagementSegments codec log archive engagement = .ok facts)
    (h' : factsFromEngagementSegments codec log' archive' engagement = .ok facts)
    (hvisible : ∀ row, Visible engagement log archive row → Visible engagement log' archive' row)
    (hrow : Belongs engagement log' archive' row) : Belongs engagement log archive row := by
  obtain ⟨-, rows, -, hmem, hrows⟩ := factsFromEngagementSegments_ok_iff.mp h
  obtain ⟨hread', rows', -, hmem', hrows'⟩ := factsFromEngagementSegments_ok_iff.mp h'
  obtain ⟨hdecode', hfacts'⟩ := mapM_ok_iff.mp hrows'
  obtain ⟨-, hfacts⟩ := mapM_ok_iff.mp hrows
  obtain ⟨fact, hfact⟩ := hdecode' row ((hmem' row).mpr hrow)
  -- the row's fact is among the facts, so a row of the other reading has its sequence
  have hmemFacts : fact ∈ facts := by
    rw [hfacts']
    exact List.mem_filterMap.mpr ⟨row, (hmem' row).mpr hrow, by rw [hfact]; rfl⟩
  rw [hfacts] at hmemFacts
  obtain ⟨other, hother, hsame⟩ := List.mem_filterMap.mp hmemFacts
  have hseq : other.seq = row.seq :=
    (factFromSegmentValue_seq (ok_of_toOption hsame)).symm.trans (factFromSegmentValue_seq hfact)
  have hbelongs := (hmem other).mp hother
  rwa [hread'.consistent other (hvisible other hbelongs.visible) row hrow.visible hseq] at hbelongs

end Spec

end RallyPoint
