/-
# RallyPoint.Migration — partitioning the old single ledger into segments (`store.rs`).

The migration appends every line of the old ledger to the segment of its engagement, or of its day, and then
moves the ledger into the archive under the reserved name. It can be cut anywhere in what it writes, and is
run again until it completes. A rerun appends everything once more, behind whatever is there: whole lines
merely repeat, but a line that was cut becomes one with the next. An archived ledger stops the migration
before it reads anything. `migration_keeps_rows_iff` says when no row is lost.
-/
import RallyPoint.Replay

namespace RallyPoint

open Lib

/-! ## The old ledger's lines -/

/-- `BufRead::lines`: a completed line loses its newline and a carriage return before it. -/
def bufLines (content : List UInt8) : List (List UInt8) :=
  (frameReads newline content).map fun read => if read.1 then stripCr read.2 else read.2

/-- `line.trim().is_empty()`, on the UTF-8 bytes of the line. -/
def isBlankUtf8 : List UInt8 → Bool
  | [] => true
  | [a] => ascii a
  | [a, b] => if ascii a then ascii b else two a b
  | a :: b :: c :: rest =>
    if ascii a then isBlankUtf8 (b :: c :: rest)
    else if two a b then isBlankUtf8 (c :: rest)
    else if three a b c then isBlankUtf8 rest
    else false
where
  ascii (a : UInt8) : Bool := a == 32 || (9 ≤ a && a ≤ 13)
  two (a b : UInt8) : Bool := a == 0xc2 && (b == 0x85 || b == 0xa0)
  three (a b c : UInt8) : Bool :=
    (a == 0xe1 && b == 0x9a && c == 0x80) ||
      (a == 0xe2 && b == 0x80 && ((0x80 ≤ c && c ≤ 0x8a) || c == 0xa8 || c == 0xa9 || c == 0xaf)) ||
      (a == 0xe2 && b == 0x81 && c == 0x9f) || (a == 0xe3 && b == 0x80 && c == 0x80)

/-- The partition pass: the lines that are not blank, each with its row. -/
def parseLegacy (codec : SegmentCodec) (path : String) :
    Nat → List (List UInt8) → Result (List (List UInt8 × SegmentRow))
  | _, [] => .ok []
  | lineNumber, line :: rest =>
    if isBlankUtf8 line then parseLegacy codec path (lineNumber + 1) rest
    else
      match codec.parseRow line with
      | .error e => .error (.message s!"parse {path} line {lineNumber}: {e}")
      | .ok entry => (parseLegacy codec path (lineNumber + 1) rest).map ((line, entry) :: ·)

/-- A `YYYY-MM-DD` prefix. -/
def extractDatePrefix (occurredAt : String) : Option String :=
  match occurredAt.toList.take 10 with
  | [y₁, y₂, y₃, y₄, dash, m₁, m₂, dash', d₁, d₂] =>
    if [y₁, y₂, y₃, y₄, m₁, m₂, d₁, d₂].all Char.isDigit && dash == '-' && dash' == '-' then
      some (String.ofList [y₁, y₂, y₃, y₄, dash, m₁, m₂, dash', d₁, d₂])
    else none
  | _ => none

/-- The partition key of a row: its stamp, else its day. -/
def partitionKey (entry : SegmentRow) : String :=
  entry.engagement.getD ((extractDatePrefix entry.occurredAt).getD "undated")

def segmentFileOf (entry : SegmentRow) : String := partitionKey entry ++ ".jsonl"

/-! ## The effects -/

/-- The files the migration works on. -/
structure Disk where
  legacy : Option (List UInt8)
  log : Dir (List UInt8)
  archive : Dir (List UInt8)

inductive FileOp
  | append (name : String) (bytes : List UInt8)
  | archiveLegacy
  | removeLegacy

/-- A name that stays in its directory. -/
def isPlainName (name : String) : Bool := !name.toList.any fun c => c == '/' || c == Char.ofNat 0

/-- What a file holds, nothing when it is missing. -/
def contentOf (dir : Dir (List UInt8)) (name : String) : List UInt8 := (dir.lookup name).getD []

def FileOp.apply : FileOp → Disk → Result Disk
  | .append name bytes, disk =>
    if isPlainName name then .ok { disk with log := disk.log.insert name (contentOf disk.log name ++ bytes) }
    else .error (.message s!"open {name}")
  | .archiveLegacy, disk =>
    match disk.legacy with
    | some content =>
      .ok { disk with legacy := none, archive := disk.archive.insert archivedMonolithFilename content }
    | none => .error (.message s!"move -> {archivedMonolithFilename}")
  | .removeLegacy, disk => .ok { disk with legacy := none }

def runOps (disk : Disk) : List FileOp → Result Disk
  | [] => .ok disk
  | op :: rest =>
    match op.apply disk with
    | .error e => .error e
    | .ok disk' => runOps disk' rest

/-- The entries key by key, and in the order of the ledger within a key. -/
def partitioned (entries : List (List UInt8 × SegmentRow)) : List (List UInt8 × SegmentRow) :=
  (dedupConsecutive (sortStrings (entries.map fun x => partitionKey x.2))).flatMap fun key =>
    entries.filter fun x => partitionKey x.2 == key

/-- One line into the segment of its key. -/
def appendOp (x : List UInt8 × SegmentRow) : FileOp := .append (segmentFileOf x.2) (x.1 ++ [newline])

/-- Everything `migrate_monolith_to_segments` does, decided before its first effect. -/
def migrationOps (codec : SegmentCodec) (path : String) (disk : Disk) : Result (List FileOp) :=
  match disk.legacy with
  | none => .ok []
  | some content =>
    if (disk.archive.lookup archivedMonolithFilename).isSome then .ok [.removeLegacy]
    else (parseLegacy codec path 1 (bufLines content)).map fun entries =>
      (partitioned entries).map appendOp ++ [.archiveLegacy]

def migrate (codec : SegmentCodec) (path : String) (disk : Disk) : Result Disk :=
  match migrationOps codec path disk with
  | .error e => .error e
  | .ok ops => runOps disk ops

/-- A crash of the migration: some effects are complete, and of the next append `torn` has been written, a
strict prefix of its bytes. -/
def MigrationCrash (codec : SegmentCodec) (path : String) (disk : Disk) (torn : List UInt8) (disk' : Disk) :
    Prop :=
  ∃ ops done rest, migrationOps codec path disk = .ok ops ∧ ops = done ++ rest ∧
    ((torn = [] ∧ runOps disk done = .ok disk') ∨
      ∃ name bytes more, rest = .append name bytes :: more ∧ torn <+: bytes ∧ torn ≠ bytes ∧
        runOps disk (done ++ [.append name torn]) = .ok disk')

/-- `canonical_segment_entries` over the log and the replayed part of the archive, read from their bytes. -/
def historyOf (codec : SegmentCodec) (log archive : Dir (List UInt8)) : Result (List SegmentRow) :=
  canonicalSegmentEntries (fun f => readSegmentEntries codec f.1 f.2) (readSegmentFiles log)
    (replayArchiveSegments archive)

/-! ## One more line -/

/-- The white space JSON allows before and after a value. -/
def JsonSpace (bytes : List UInt8) : Prop := ∀ b ∈ bytes, b = 32 ∨ b = 9 ∨ b = 10 ∨ b = 13

instance (bytes : List UInt8) : Decidable (JsonSpace bytes) := inferInstanceAs (Decidable (∀ b ∈ bytes, _))

theorem jsonSpace_append {a b : List UInt8} : JsonSpace (a ++ b) ↔ JsonSpace a ∧ JsonSpace b :=
  List.forall_mem_append

theorem jsonSpace_nil : JsonSpace [] := fun _ hb => absurd hb List.not_mem_nil

theorem isBlankLine_of_jsonSpace {bytes : List UInt8} (h : JsonSpace bytes) : isBlankLine bytes = true := by
  refine List.all_eq_true.mpr fun b hb => ?_
  rcases h b hb with rfl | rfl | rfl | rfl <;> decide

/-- The text of a JSON object, as its decoder takes it: white space may come before it, anything else makes it
another text that is no row. -/
structure RowText (codec : SegmentCodec) (text : List UInt8) (entry : SegmentRow) : Prop where
  notBlank : isBlankLine text = false
  decodes : ∀ t, JsonSpace t → codec.parseRow (t ++ text) = .ok entry
  glued : ∀ t other, ¬JsonSpace t → codec.parseRow (t ++ text) ≠ .ok other

/-- A line of the old ledger that is a valid row. -/
structure LegacyRow (codec : SegmentCodec) (x : List UInt8 × SegmentRow) : Prop where
  text : RowText codec (stripCr x.1) x.2
  valid : validRow codec x.2 = true

section Lines

variable {codec : SegmentCodec} {x : List UInt8 × SegmentRow} {xs : List (List UInt8 × SegmentRow)}
variable {content t : List UInt8} {rows : List SegmentRow}

theorem stripCr_append {line : List UInt8} (h : line ≠ []) : stripCr (t ++ line) = t ++ stripCr line := by
  unfold stripCr
  rw [List.getLast?_append_of_ne_nil _ h]
  split
  · exact List.dropLast_append_of_ne_nil h
  · rfl

theorem LegacyRow.ne_nil (h : LegacyRow codec x) : x.1 ≠ [] := by
  intro hnil
  have hblank := h.text.notBlank
  rw [hnil] at hblank
  cases hblank

theorem isBlankLine_append {a b : List UInt8} : isBlankLine (a ++ b) = (isBlankLine a && isBlankLine b) :=
  List.all_append

/-- A ledger line behind an unfinished one is read only when that one is white space. -/
theorem completedRow_glued (h : LegacyRow codec x) :
    completedRow codec (t ++ x.1) = if JsonSpace t then some [x.2] else none := by
  unfold completedRow
  rw [stripCr_append h.ne_nil, isBlankLine_append, h.text.notBlank, Bool.and_false,
    if_neg Bool.false_ne_true]
  by_cases hspace : JsonSpace t
  case pos =>
    rw [if_pos hspace, h.text.decodes t hspace]
    exact if_pos h.valid
  case neg =>
    rw [if_neg hspace]
    cases hparse : codec.parseRow (t ++ stripCr x.1) with
    | error e => rfl
    | ok other => exact absurd hparse (h.text.glued t other hspace)

/-- The bytes an append writes for a list of ledger lines. -/
def bytesOf (xs : List (List UInt8 × SegmentRow)) : List UInt8 := framed newline (xs.map Prod.fst)

/-- **Appending ledger lines** keeps a file's completed lines sound exactly when they were sound, and nothing but
white space was unfinished. -/
theorem gather_append_bytesOf (hrows : ∀ x ∈ xs, LegacyRow codec x) (hlines : ∀ x ∈ xs, newline ∉ x.1) :
    (gather (completedRow codec) (frames newline (content ++ bytesOf xs)).1 = some rows ↔
      (xs = [] ∨ JsonSpace (frames newline content).2) ∧
        ∃ done, gather (completedRow codec) (frames newline content).1 = some done ∧
          rows = done ++ xs.map Prod.snd) ∧
    (frames newline (content ++ bytesOf xs)).2 = if xs = [] then (frames newline content).2 else [] := by
  induction xs generalizing content rows with
  | nil => simp [bytesOf]
  | cons x xs ih =>
    rw [List.forall_mem_cons] at hrows hlines
    have hbytes : content ++ bytesOf (x :: xs) = content ++ (x.1 ++ [newline]) ++ bytesOf xs := by
      rw [bytesOf, List.map_cons, framed_cons, List.append_assoc, List.append_assoc, List.singleton_append]
      rfl
    have hframes := frames_append_frame hlines.1 content
    obtain ⟨ihrows, ihtail⟩ := @ih (content ++ (x.1 ++ [newline])) rows hrows.2 hlines.2
    rw [hbytes]
    constructor
    · rw [ihrows, hframes]
      simp only [gather_append_eq_some_iff, gather_singleton, completedRow_glued hrows.1]
      constructor
      · rintro ⟨-, done, ⟨before, new, hbefore, hnew, rfl⟩, rfl⟩
        split at hnew
        case isTrue hspace =>
          rw [← Option.some.inj hnew]
          exact ⟨.inr hspace, before, hbefore, by rw [List.append_assoc, List.singleton_append, List.map_cons]⟩
        case isFalse => cases hnew
      · rintro ⟨hspace, before, hbefore, rfl⟩
        have hspace' := hspace.resolve_left (List.cons_ne_nil x xs)
        refine ⟨.inr jsonSpace_nil, before ++ [x.2], ?_, ?_⟩
        · exact ⟨before, [x.2], hbefore, if_pos hspace', rfl⟩
        · rw [List.append_assoc, List.singleton_append, List.map_cons]
    · rw [ihtail, hframes, if_neg (List.cons_ne_nil x xs)]
      exact ite_self _

end Lines

/-! ## What a crash and a rerun leave -/

/-- The ledger lines of one segment file. -/
def linesFor (name : String) (xs : List (List UInt8 × SegmentRow)) : List (List UInt8 × SegmentRow) :=
  xs.filter fun x => segmentFileOf x.2 == name

section Runs

variable {codec : SegmentCodec} {path : String} {disk disk' disk'' : Disk} {content torn : List UInt8}
variable {entries xs : List (List UInt8 × SegmentRow)} {x : List UInt8 × SegmentRow} {name : String}

theorem mem_linesFor : x ∈ linesFor name xs ↔ x ∈ xs ∧ segmentFileOf x.2 = name := by
  rw [linesFor, List.mem_filter, beq_iff_eq]

theorem mem_partitioned : x ∈ partitioned entries ↔ x ∈ entries := by
  rw [partitioned, List.mem_flatMap]
  constructor
  · rintro ⟨key, -, hx⟩
    exact List.mem_of_mem_filter hx
  · intro hx
    refine ⟨partitionKey x.2, ?_, List.mem_filter.mpr ⟨hx, beq_self_eq_true _⟩⟩
    rw [mem_dedupConsecutive, sortStrings, (List.perm_insertionSort _ _).mem_iff]
    exact List.mem_map_of_mem hx

theorem contentOf_insert (dir : Dir (List UInt8)) (name m : String) (bytes : List UInt8) :
    contentOf (dir.insert m bytes) name = if name = m then bytes else contentOf dir name := by
  unfold contentOf
  split
  case isTrue h =>
    rw [h, AList.lookup_insert]
    rfl
  case isFalse h => rw [AList.lookup_insert_ne h]

theorem runOps_append {a b : List FileOp} :
    runOps disk (a ++ b) = .ok disk'' ↔ ∃ disk', runOps disk a = .ok disk' ∧ runOps disk' b = .ok disk'' := by
  induction a generalizing disk with
  | nil => simp [runOps]
  | cons op a ih =>
    rw [List.cons_append, runOps, runOps]
    cases op.apply disk with
    | error e => simp
    | ok disk₁ => exact ih

/-- An append that succeeds lengthens one file of the log and touches nothing else. -/
theorem apply_append {bytes : List UInt8} (h : (FileOp.append name bytes).apply disk = .ok disk') :
    disk'.legacy = disk.legacy ∧ disk'.archive = disk.archive ∧
      ∀ n, contentOf disk'.log n = contentOf disk.log n ++ if n = name then bytes else [] := by
  rw [FileOp.apply] at h
  split at h
  case isTrue =>
    rw [← Except.ok.inj h]
    refine ⟨rfl, rfl, fun n => ?_⟩
    show contentOf (disk.log.insert name _) n = _
    rw [contentOf_insert]
    split
    case isTrue hn => rw [hn]
    case isFalse => exact (List.append_nil _).symm
  case isFalse => cases h

theorem bytesOf_cons : bytesOf (x :: xs) = x.1 ++ [newline] ++ bytesOf xs := by
  rw [bytesOf, List.map_cons, framed_cons, List.append_assoc, List.singleton_append]
  rfl

/-- Appends of ledger lines lengthen each segment by its own. -/
theorem runOps_appendOps (h : runOps disk (xs.map appendOp) = .ok disk') :
    disk'.legacy = disk.legacy ∧ disk'.archive = disk.archive ∧
      ∀ n, contentOf disk'.log n = contentOf disk.log n ++ bytesOf (linesFor n xs) := by
  induction xs generalizing disk with
  | nil =>
    rw [← Except.ok.inj h]
    exact ⟨rfl, rfl, fun n => (List.append_nil _).symm⟩
  | cons x xs ih =>
    rw [List.map_cons, runOps] at h
    split at h
    case _ => cases h
    case _ disk₁ happly =>
      obtain ⟨hlegacy₁, harchive₁, hlog₁⟩ := apply_append happly
      obtain ⟨hlegacy, harchive, hlog⟩ := ih h
      refine ⟨hlegacy.trans hlegacy₁, harchive.trans harchive₁, fun n => ?_⟩
      rw [hlog, hlog₁, List.append_assoc, linesFor, linesFor, List.filter_cons]
      refine congrArg _ ?_
      by_cases hn : n = segmentFileOf x.2
      · subst hn
        rw [if_pos rfl, if_pos (beq_self_eq_true _), bytesOf_cons]
      · rw [if_neg hn, if_neg fun hbeq => hn (eq_of_beq hbeq).symm, List.nil_append]

/-- The migration of a ledger that is not archived yet is all its appends and the move. -/
theorem migrationOps_fresh (hlegacy : disk.legacy = some content)
    (hfree : disk.archive.lookup archivedMonolithFilename = none)
    (hentries : parseLegacy codec path 1 (bufLines content) = .ok entries) :
    migrationOps codec path disk = .ok ((partitioned entries).map appendOp ++ [.archiveLegacy]) := by
  rw [migrationOps, hlegacy]
  dsimp only
  rw [hfree, hentries]
  rfl

/-- A complete migration of such a ledger. -/
theorem runOps_fresh (hlegacy : disk.legacy = some content)
    (h : runOps disk ((partitioned entries).map appendOp ++ [.archiveLegacy]) = .ok disk') :
    disk'.legacy = none ∧
      (∀ n, contentOf disk'.log n = contentOf disk.log n ++ bytesOf (linesFor n (partitioned entries))) ∧
      ∀ n, n ≠ archivedMonolithFilename → contentOf disk'.archive n = contentOf disk.archive n := by
  obtain ⟨disk₁, happends, hmove⟩ := runOps_append.mp h
  obtain ⟨hlegacy₁, harchive₁, hlog₁⟩ := runOps_appendOps happends
  rw [runOps, FileOp.apply, hlegacy₁, hlegacy] at hmove
  rw [← Except.ok.inj hmove]
  refine ⟨rfl, hlog₁, fun n hn => ?_⟩
  show contentOf (disk₁.archive.insert _ _) n = _
  rw [contentOf_insert, if_neg hn, harchive₁]

/-- What a crash and a rerun leave: behind the old content of a segment some of its lines, perhaps a torn one,
and then all of them. The replayed archive is untouched. -/
structure RerunLeaves (disk disk'' : Disk) (entries : List (List UInt8 × SegmentRow)) (torn : List UInt8)
    (tornName : String) (ys : List (List UInt8 × SegmentRow)) : Prop where
  lines : ∀ y ∈ ys, y ∈ entries
  cut : torn = [] ∨ ∃ x ∈ entries, segmentFileOf x.2 = tornName ∧ torn <+: x.1
  log : ∀ n, contentOf disk''.log n = contentOf disk.log n ++ bytesOf (linesFor n ys) ++
    (if n = tornName then torn else []) ++ bytesOf (linesFor n (partitioned entries))
  archive : ∀ n, n ≠ archivedMonolithFilename → contentOf disk''.archive n = contentOf disk.archive n

/-- A crash before the move leaves the ledger in place, so the rerun appends everything again. -/
theorem rerunLeaves_of_unmoved {tornName : String} {ys : List (List UInt8 × SegmentRow)}
    (hlegacy : disk.legacy = some content) (hfree : disk.archive.lookup archivedMonolithFilename = none)
    (hentries : parseLegacy codec path 1 (bufLines content) = .ok entries)
    (hrerun : migrate codec path disk' = .ok disk'') (hys : ∀ y ∈ ys, y ∈ entries)
    (htorn : torn = [] ∨ ∃ x ∈ entries, segmentFileOf x.2 = tornName ∧ torn <+: x.1)
    (hlegacy' : disk'.legacy = disk.legacy) (harchive' : disk'.archive = disk.archive)
    (hlog' : ∀ n, contentOf disk'.log n = contentOf disk.log n ++ bytesOf (linesFor n ys) ++
      if n = tornName then torn else []) : RerunLeaves disk disk'' entries torn tornName ys := by
  rw [migrate, migrationOps_fresh (hlegacy'.trans hlegacy) (by rw [harchive', hfree]) hentries] at hrerun
  obtain ⟨-, hlog, harchive⟩ := runOps_fresh (hlegacy'.trans hlegacy) hrerun
  refine ⟨hys, htorn, fun n => ?_, fun n hn => ?_⟩
  · rw [hlog, hlog']
  · rw [harchive n hn, harchive']

/-- **Every cut position:** a crash of a migration that was not archived, and its rerun. -/
theorem migration_final (hlegacy : disk.legacy = some content)
    (hfree : disk.archive.lookup archivedMonolithFilename = none)
    (hentries : parseLegacy codec path 1 (bufLines content) = .ok entries)
    (hcrash : MigrationCrash codec path disk torn disk') (hrerun : migrate codec path disk' = .ok disk'') :
    ∃ tornName ys, RerunLeaves disk disk'' entries torn tornName ys := by
  obtain ⟨ops, done, rest, hops, hsplit, hcut⟩ := hcrash
  rw [migrationOps_fresh hlegacy hfree hentries] at hops
  obtain rfl := Except.ok.inj hops
  rcases List.prefix_concat_iff.mp (show done <+: _ from ⟨rest, hsplit.symm⟩) with hall | ⟨rest', hsome⟩
  · -- everything was done, the move included
    have hnil : rest = [] := by
      rw [hall] at hsplit
      exact List.self_eq_append_right.mp hsplit
    rcases hcut with ⟨rfl, hdone⟩ | ⟨_, _, _, hrest, -⟩
    · rw [hall] at hdone
      obtain ⟨hlegacy', hlog', harchive'⟩ := runOps_fresh hlegacy hdone
      rw [migrate, migrationOps, hlegacy'] at hrerun
      obtain rfl := Except.ok.inj hrerun
      refine ⟨"", [], fun y hy => absurd hy List.not_mem_nil, .inl rfl, fun n => ?_, harchive'⟩
      rw [hlog', ite_self, List.append_nil]
      exact congrArg (· ++ _) (List.append_nil _).symm
    · rw [hnil] at hrest
      cases hrest
  · obtain ⟨ys, zs, hparts, rfl, hzs⟩ := List.map_eq_append_iff.mp hsome.symm
    have hys : ∀ y ∈ ys, y ∈ entries := fun y hy =>
      mem_partitioned.mp (hparts ▸ List.mem_append_left zs hy)
    rcases hcut with ⟨rfl, hdone⟩ | ⟨name, bytes, more, hrest, hpre, hne, hdone⟩
    · obtain ⟨hlegacy', harchive', hlog'⟩ := runOps_appendOps hdone
      refine ⟨"", ys, rerunLeaves_of_unmoved hlegacy hfree hentries hrerun hys (.inl rfl) hlegacy' harchive' ?_⟩
      intro n
      rw [hlog', ite_self, List.append_nil]
    · -- the append that was cut is the next ledger line's
      have hrest' : rest = zs.map appendOp ++ [.archiveLegacy] := by
        rw [← hsome, List.append_assoc, ← hzs] at hsplit
        exact (List.append_cancel_left hsplit).symm
      rw [hrest] at hrest'
      cases zs with
      | nil => cases hrest'
      | cons x zs =>
        rw [List.map_cons, List.cons_append, List.cons.injEq, appendOp, FileOp.append.injEq] at hrest'
        obtain ⟨⟨rfl, rfl⟩, -⟩ := hrest'
        have hx : x ∈ entries := mem_partitioned.mp (hparts ▸ List.mem_append_right ys List.mem_cons_self)
        have htorn : torn <+: x.1 := (List.prefix_concat_iff.mp hpre).resolve_left hne
        obtain ⟨disk₁, hdone₁, happly⟩ := runOps_append.mp hdone
        obtain ⟨hlegacy₁, harchive₁, hlog₁⟩ := runOps_appendOps hdone₁
        rw [runOps] at happly
        split at happly
        case _ => cases happly
        case _ disk₂ happly₂ =>
          obtain rfl := Except.ok.inj happly
          obtain ⟨hlegacy₂, harchive₂, hlog₂⟩ := apply_append happly₂
          refine ⟨segmentFileOf x.2, ys, rerunLeaves_of_unmoved hlegacy hfree hentries hrerun hys
            (.inr ⟨x, hx, rfl, htorn⟩) (hlegacy₂.trans hlegacy₁) (harchive₂.trans harchive₁) fun n => ?_⟩
          rw [hlog₂, hlog₁]

end Runs

/-! ## The history before and after -/

section History

variable {codec : SegmentCodec} {log archive : Dir (List UInt8)} {dir : Dir (List UInt8)}
variable {out : List SegmentRow} {row : SegmentRow} {entries : List (List UInt8 × SegmentRow)}

/-- A file that a replay can read; one that is missing can. -/
def SegmentReadable (codec : SegmentCodec) (dir : Dir (List UInt8)) (name : String) : Prop :=
  ∃ rows, readSegmentEntries codec name (contentOf dir name) = .ok rows

def RowAt (codec : SegmentCodec) (dir : Dir (List UInt8)) (name : String) (row : SegmentRow) : Prop :=
  ∃ rows, readSegmentEntries codec name (contentOf dir name) = .ok rows ∧ row ∈ rows

/-- Every file that is replayed can be read. -/
structure ReplayReadable (codec : SegmentCodec) (log archive : Dir (List UInt8)) : Prop where
  live : ∀ name, isSegmentFile name = true → SegmentReadable codec log name
  archived : ∀ name, Replayed name → SegmentReadable codec archive name

/-- The rows of the room's history. -/
def InHistory (codec : SegmentCodec) (log archive : Dir (List UInt8)) (row : SegmentRow) : Prop :=
  (∃ name, isSegmentFile name = true ∧ RowAt codec log name row) ∨
    ∃ name, Replayed name ∧ RowAt codec archive name row

theorem readSegmentEntries_nil (name : String) : readSegmentEntries codec name [] = .ok [] := rfl

/-- The files a replay lists are those that are there; the others hold nothing. -/
theorem rowAt_iff_mem_files {name : String} (hname : isSegmentFile name = true) :
    RowAt codec dir name row ↔ ∃ content, (name, content) ∈ readSegmentFiles dir ∧
      ∃ rows, readSegmentEntries codec name content = .ok rows ∧ row ∈ rows := by
  unfold RowAt contentOf
  cases hlookup : dir.lookup name with
  | none =>
    constructor
    · rintro ⟨rows, hrows, hrow⟩
      rw [Option.getD_none, readSegmentEntries_nil] at hrows
      rw [← Except.ok.inj hrows] at hrow
      exact absurd hrow List.not_mem_nil
    · rintro ⟨content, hmem, -⟩
      rw [(mem_readSegmentFiles.mp hmem).1] at hlookup
      cases hlookup
  | some content =>
    constructor
    · exact fun h => ⟨content, mem_readSegmentFiles.mpr ⟨hlookup, hname⟩, h⟩
    · rintro ⟨content', hmem, h⟩
      rw [(mem_readSegmentFiles.mp hmem).1] at hlookup
      rwa [Option.getD_some, ← Option.some.inj hlookup]

theorem segmentReadable_of_mem {name : String} {content : List UInt8}
    (hmem : (name, content) ∈ readSegmentFiles dir) :
    SegmentReadable codec dir name ↔ ∃ rows, readSegmentEntries codec name content = .ok rows := by
  rw [SegmentReadable, contentOf, (mem_readSegmentFiles.mp hmem).1, Option.getD_some]

theorem mem_replay {name : String} {content : List UInt8} :
    (name, content) ∈ replayArchiveSegments archive ↔
      (name, content) ∈ readSegmentFiles archive ∧ name ≠ archivedMonolithFilename := by
  rw [mem_replayArchiveSegments, mem_readSegmentFiles, and_assoc]

theorem replayReadable_iff :
    ReplayReadable codec log archive ↔ ∀ f ∈ readSegmentFiles log ++ replayArchiveSegments archive,
      ∃ rows, readSegmentEntries codec f.1 f.2 = .ok rows := by
  have hmissing : ∀ {dir : Dir (List UInt8)} {name : String}, dir.lookup name = none →
      SegmentReadable codec dir name := by
    intro dir name hnone
    rw [SegmentReadable, contentOf, hnone]
    exact ⟨[], readSegmentEntries_nil name⟩
  rw [List.forall_mem_append]
  constructor
  · rintro ⟨hlive, harchived⟩
    constructor
    · intro f hf
      exact (segmentReadable_of_mem hf).mp (hlive f.1 (mem_readSegmentFiles.mp hf).2)
    · intro f hf
      obtain ⟨hfile, hne⟩ := mem_replay.mp hf
      exact (segmentReadable_of_mem hfile).mp (harchived f.1 ⟨(mem_readSegmentFiles.mp hfile).2, hne⟩)
  · rintro ⟨hlive, harchived⟩
    constructor
    · intro name hname
      cases hlookup : log.lookup name with
      | none => exact hmissing hlookup
      | some content =>
        have hmem := mem_readSegmentFiles.mpr ⟨hlookup, hname⟩
        exact (segmentReadable_of_mem hmem).mpr (hlive _ hmem)
    · intro name hname
      cases hlookup : archive.lookup name with
      | none => exact hmissing hlookup
      | some content =>
        have hmem := mem_readSegmentFiles.mpr ⟨hlookup, hname.1⟩
        exact (segmentReadable_of_mem hmem).mpr (harchived _ (mem_replay.mpr ⟨hmem, hname.2⟩))

theorem inHistory_iff :
    InHistory codec log archive row ↔ ∃ f ∈ readSegmentFiles log ++ replayArchiveSegments archive,
      ∃ rows, readSegmentEntries codec f.1 f.2 = .ok rows ∧ row ∈ rows := by
  constructor
  · rintro (⟨name, hname, hrow⟩ | ⟨name, hname, hrow⟩)
    · obtain ⟨content, hmem, h⟩ := (rowAt_iff_mem_files hname).mp hrow
      exact ⟨(name, content), List.mem_append_left _ hmem, h⟩
    · obtain ⟨content, hmem, h⟩ := (rowAt_iff_mem_files hname.1).mp hrow
      exact ⟨(name, content), List.mem_append_right _ (mem_replay.mpr ⟨hmem, hname.2⟩), h⟩
  · rintro ⟨⟨name, content⟩, hmem, h⟩
    rcases List.mem_append.mp hmem with hmem | hmem
    · have hname := (mem_readSegmentFiles.mp hmem).2
      exact .inl ⟨name, hname, (rowAt_iff_mem_files hname).mpr ⟨content, hmem, h⟩⟩
    · obtain ⟨hfile, hne⟩ := mem_replay.mp hmem
      have hname := (mem_readSegmentFiles.mp hfile).2
      exact .inr ⟨name, ⟨hname, hne⟩, (rowAt_iff_mem_files hname).mpr ⟨content, hfile, h⟩⟩

/-- **The history from its files.** -/
theorem historyOf_ok_iff :
    historyOf codec log archive = .ok out ↔
      ReplayReadable codec log archive ∧
        (∀ x, InHistory codec log archive x → ∀ y, InHistory codec log archive y → x.seq = y.seq → x = y) ∧
          KeyOrdered (·.seq) out ∧ ∀ row, row ∈ out ↔ InHistory codec log archive row := by
  rw [historyOf, canonicalSegmentEntries_ok_iff, replayReadable_iff]
  constructor
  · rintro ⟨rows, hrows, hcons, hordered, hmem⟩
    obtain ⟨hreadable, hall⟩ := sourceRows_eq_some hrows
    have hhistory : ∀ row, row ∈ rows ↔ InHistory codec log archive row := fun row =>
      (hall row).trans inHistory_iff.symm
    refine ⟨hreadable, fun x hx y hy => ?_, hordered, fun row => (hmem row).trans (hhistory row)⟩
    exact hcons x ((hhistory x).mpr hx) y ((hhistory y).mpr hy)
  · rintro ⟨hreadable, hcons, hordered, hmem⟩
    obtain ⟨rows, hrows⟩ := exists_sourceRows hreadable
    obtain ⟨-, hall⟩ := sourceRows_eq_some hrows
    have hhistory : ∀ row, row ∈ rows ↔ InHistory codec log archive row := fun row =>
      (hall row).trans inHistory_iff.symm
    refine ⟨rows, hrows, fun x hx y hy => ?_, hordered, fun row => (hmem row).trans (hhistory row).symm⟩
    exact hcons x ((hhistory x).mp hx) y ((hhistory y).mp hy)

/-- The ledger's rows are in the history, each once. -/
theorem exists_historyOf_iff :
    (∃ out, historyOf codec log archive = .ok out ∧ ∀ x ∈ entries, out.count x.2 = 1) ↔
      ReplayReadable codec log archive ∧
        (∀ x, InHistory codec log archive x → ∀ y, InHistory codec log archive y → x.seq = y.seq → x = y) ∧
          ∀ x ∈ entries, InHistory codec log archive x.2 := by
  constructor
  · rintro ⟨out, hout, hcount⟩
    obtain ⟨hreadable, hcons, -, hmem⟩ := historyOf_ok_iff.mp hout
    refine ⟨hreadable, hcons, fun x hx => (hmem x.2).mp ?_⟩
    rw [← List.count_pos_iff, hcount x hx]
    exact Nat.one_pos
  · rintro ⟨hreadable, hcons, hall⟩
    obtain ⟨rows, hrows⟩ := exists_sourceRows (replayReadable_iff.mp hreadable)
    obtain ⟨-, hmem⟩ := sourceRows_eq_some hrows
    have hhistory : ∀ row, row ∈ rows ↔ InHistory codec log archive row := fun row =>
      (hmem row).trans inHistory_iff.symm
    have hrowsCons : Consistent (·.seq) rows := fun x hx y hy =>
      hcons x ((hhistory x).mp hx) y ((hhistory y).mp hy)
    obtain ⟨out, hout⟩ := exists_mergeRows hrowsCons
    obtain ⟨-, hordered, hout'⟩ := mergeRows_ok_iff.mp hout
    have hmemOut : ∀ row, row ∈ out ↔ InHistory codec log archive row := fun row =>
      (hout' row).trans (hhistory row)
    refine ⟨out, historyOf_ok_iff.mpr ⟨hreadable, hcons, hordered, hmemOut⟩, fun x hx => ?_⟩
    exact List.count_eq_one_of_mem hordered.nodup ((hmemOut x.2).mpr (hall x hx))

end History

/-! ## When nothing is lost -/

section Main

variable {codec : SegmentCodec} {path : String} {disk disk' disk'' : Disk} {content torn piece : List UInt8}
variable {entries as bs : List (List UInt8 × SegmentRow)} {tornName name : String}
variable {rows : List SegmentRow} {row : SegmentRow}

/-- A segment that takes more lines: its completed lines are sound, and at most white space is unfinished. -/
def SegmentReady (codec : SegmentCodec) (dir : Dir (List UInt8)) (name : String) : Prop :=
  (gather (completedRow codec) (frames newline (contentOf dir name)).1).isSome ∧
    JsonSpace (frames newline (contentOf dir name)).2

/-- Some lines, a piece of one, and more lines: all of them are read exactly when neither the old end of the
file nor the piece was more than white space. -/
theorem gather_rerun (has : ∀ x ∈ as, LegacyRow codec x) (haLines : ∀ x ∈ as, newline ∉ x.1)
    (hbs : ∀ x ∈ bs, LegacyRow codec x) (hbLines : ∀ x ∈ bs, newline ∉ x.1) (hne : bs ≠ [])
    (hpiece : newline ∉ piece) :
    (gather (completedRow codec) (frames newline (content ++ bytesOf as ++ piece ++ bytesOf bs)).1 = some rows ↔
      JsonSpace (frames newline content).2 ∧ JsonSpace piece ∧
        ∃ done, gather (completedRow codec) (frames newline content).1 = some done ∧
          rows = done ++ as.map Prod.snd ++ bs.map Prod.snd) ∧
    (frames newline (content ++ bytesOf as ++ piece ++ bytesOf bs)).2 = [] := by
  obtain ⟨hrows, htail⟩ := @gather_append_bytesOf codec bs (content ++ bytesOf as ++ piece) rows hbs hbLines
  obtain ⟨-, htail₁⟩ := @gather_append_bytesOf codec as content rows has haLines
  rw [hrows, htail, if_neg hne, frames_append_piece hpiece, htail₁, jsonSpace_append]
  refine ⟨?_, rfl⟩
  constructor
  · rintro ⟨hspace, done, hdone, rfl⟩
    obtain ⟨htail₀, hpieceSpace⟩ := hspace.resolve_left hne
    obtain ⟨hbefore, done₀, hdone₀, rfl⟩ := (gather_append_bytesOf has haLines).1.mp hdone
    refine ⟨?_, hpieceSpace, done₀, hdone₀, rfl⟩
    rcases hbefore with rfl | hbefore
    · rwa [if_pos rfl] at htail₀
    · exact hbefore
  · rintro ⟨htail₀, hpieceSpace, done₀, hdone₀, rfl⟩
    refine ⟨.inr ⟨?_, hpieceSpace⟩, done₀ ++ as.map Prod.snd, ?_, rfl⟩
    · split
      · exact htail₀
      · exact jsonSpace_nil
    · exact (gather_append_bytesOf has haLines).1.mpr ⟨.inr htail₀, done₀, hdone₀, rfl⟩

/-- A file without an unfinished line is read by its completed ones. -/
theorem readSegmentEntries_of_tail {content : List UInt8} (htail : isBlankLine (frames newline content).2 = true) :
    readSegmentEntries codec path content = .ok rows ↔
      gather (completedRow codec) (frames newline content).1 = some rows := by
  rw [readSegmentEntries_ok_iff]
  have hrow : tailRow codec (frames newline content).2 = [] := if_pos htail
  have hfine : ¬TailFailsValidation codec (frames newline content).2 := fun h => by
    have hblank := h.1
    rw [htail] at hblank
    cases hblank
  simp only [hrow, hfine, List.append_nil, not_false_eq_true, true_and]
  constructor
  · rintro ⟨done, hdone, rfl⟩
    exact hdone
  · exact fun h => ⟨rows, h, rfl⟩

theorem SegmentReady.rowAt_iff (h : SegmentReady codec disk.log name) :
    RowAt codec disk.log name row ↔
      ∃ done, gather (completedRow codec) (frames newline (contentOf disk.log name)).1 = some done ∧
        row ∈ done := by
  unfold RowAt
  simp only [readSegmentEntries_of_tail (isBlankLine_of_jsonSpace h.2)]

/-- A segment that gets lines of the ledger. -/
def Touched (entries : List (List UInt8 × SegmentRow)) (name : String) : Prop :=
  ∃ x ∈ entries, segmentFileOf x.2 = name

theorem RerunLeaves.piece_free (h : RerunLeaves disk disk'' entries torn tornName as)
    (hlines : ∀ x ∈ entries, newline ∉ x.1) : newline ∉ if name = tornName then torn else [] := by
  split
  case isTrue =>
    rcases h.cut with hnil | ⟨x, hx, -, hpiece⟩
    · rw [hnil]
      exact List.not_mem_nil
    · exact fun hmem => hlines x hx (hpiece.subset hmem)
  case isFalse => exact List.not_mem_nil

theorem RerunLeaves.content_eq (h : RerunLeaves disk disk'' entries torn tornName as)
    (huntouched : ¬Touched entries name) : contentOf disk''.log name = contentOf disk.log name := by
  have hnone : ∀ xs : List (List UInt8 × SegmentRow), (∀ x ∈ xs, x ∈ entries) → linesFor name xs = [] := by
    intro xs hxs
    refine List.eq_nil_iff_forall_not_mem.mpr fun x hx => ?_
    obtain ⟨hmem, hfile⟩ := mem_linesFor.mp hx
    exact huntouched ⟨x, hxs x hmem, hfile⟩
  have hpiece : (if name = tornName then torn else []) = [] := by
    split
    case isTrue heq =>
      rcases h.cut with hnil | ⟨x, hx, hfile, -⟩
      · exact hnil
      · exact absurd ⟨x, hx, hfile.trans heq.symm⟩ huntouched
    case isFalse => rfl
  rw [h.log, hnone as h.lines, hnone (partitioned entries) fun x hx => mem_partitioned.mp hx, hpiece]
  show contentOf disk.log name ++ [] ++ [] ++ [] = _
  simp only [List.append_nil]

/-- **A segment that gets lines** can be read afterwards exactly when it was ready for them and no line of it was
torn; it then holds its old rows and the ledger's. -/
theorem RerunLeaves.touched (h : RerunLeaves disk disk'' entries torn tornName as)
    (hrows : ∀ x ∈ entries, LegacyRow codec x) (hlines : ∀ x ∈ entries, newline ∉ x.1)
    (htouched : Touched entries name) :
    (SegmentReadable codec disk''.log name ↔
      SegmentReady codec disk.log name ∧ (name = tornName → JsonSpace torn)) ∧
    (SegmentReadable codec disk''.log name → ∀ row, RowAt codec disk''.log name row ↔
      RowAt codec disk.log name row ∨ ∃ x ∈ entries, segmentFileOf x.2 = name ∧ x.2 = row) := by
  have hsub : ∀ (xs : List (List UInt8 × SegmentRow)), (∀ x ∈ xs, x ∈ entries) →
      ∀ x ∈ linesFor name xs, x ∈ entries :=
    fun xs hxs x hx => hxs x (mem_linesFor.mp hx).1
  have hsubA := hsub as h.lines
  have hsubB := hsub (partitioned entries) fun x hx => mem_partitioned.mp hx
  have hne : linesFor name (partitioned entries) ≠ [] := by
    obtain ⟨x, hx, hfile⟩ := htouched
    exact List.ne_nil_of_mem (mem_linesFor.mpr ⟨mem_partitioned.mpr hx, hfile⟩)
  have hgather := fun {rows} => @gather_rerun codec (contentOf disk.log name) (if name = tornName then torn else [])
    (linesFor name as) (linesFor name (partitioned entries)) rows (fun x hx => hrows x (hsubA x hx))
    (fun x hx => hlines x (hsubA x hx)) (fun x hx => hrows x (hsubB x hx)) (fun x hx => hlines x (hsubB x hx)) hne
    (h.piece_free hlines)
  have hpiece : JsonSpace (if name = tornName then torn else []) ↔ (name = tornName → JsonSpace torn) := by
    split
    case isTrue heq => exact ⟨fun hspace _ => hspace, fun hspace => hspace heq⟩
    case isFalse hne => exact iff_of_true jsonSpace_nil fun heq => absurd heq hne
  have hread : ∀ {rows}, readSegmentEntries codec name (contentOf disk''.log name) = .ok rows ↔
      JsonSpace (frames newline (contentOf disk.log name)).2 ∧ (name = tornName → JsonSpace torn) ∧
        ∃ done, gather (completedRow codec) (frames newline (contentOf disk.log name)).1 = some done ∧
          rows = done ++ (linesFor name as).map Prod.snd ++ (linesFor name (partitioned entries)).map Prod.snd := by
    intro rows
    have htail : isBlankLine (frames newline (contentOf disk''.log name)).2 = true := by
      rw [h.log, (@hgather rows).2]
      rfl
    rw [readSegmentEntries_of_tail htail, h.log, hgather.1, hpiece]
  refine ⟨⟨?_, ?_⟩, ?_⟩
  · rintro ⟨rows, hok⟩
    obtain ⟨hspace, hcut, done, hdone, -⟩ := hread.mp hok
    exact ⟨⟨by rw [hdone]; rfl, hspace⟩, hcut⟩
  · rintro ⟨⟨hsome, hspace⟩, hcut⟩
    obtain ⟨done, hdone⟩ := Option.isSome_iff_exists.mp hsome
    exact ⟨_, hread.mpr ⟨hspace, hcut, done, hdone, rfl⟩⟩
  · rintro ⟨rows, hok⟩ row
    obtain ⟨hspace, hcut, done, hdone, rfl⟩ := hread.mp hok
    have hready : SegmentReady codec disk.log name := ⟨by rw [hdone]; rfl, hspace⟩
    have hlinesRow : ∀ xs : List (List UInt8 × SegmentRow), row ∈ (linesFor name xs).map Prod.snd ↔
        ∃ x ∈ xs, segmentFileOf x.2 = name ∧ x.2 = row := by
      intro xs
      rw [List.mem_map]
      constructor
      · rintro ⟨x, hx, hrow⟩
        obtain ⟨hmem, hfile⟩ := mem_linesFor.mp hx
        exact ⟨x, hmem, hfile, hrow⟩
      · rintro ⟨x, hmem, hfile, hrow⟩
        exact ⟨x, mem_linesFor.mpr ⟨hmem, hfile⟩, hrow⟩
    rw [hready.rowAt_iff, hdone]
    simp only [RowAt, hok, Except.ok.injEq, exists_eq_left', Option.some.injEq, List.mem_append, hlinesRow,
      mem_partitioned, or_assoc]
    refine or_congr_right ⟨?_, .inr⟩
    rintro (⟨x, hx, hrest⟩ | hall)
    · exact ⟨x, h.lines x hx, hrest⟩
    · exact hall

/-- What a completed migration owes: every segment it wrote to can be read, and the history holds each row of the
ledger once. -/
def MigrationKeeps (codec : SegmentCodec) (disk disk'' : Disk) (entries : List (List UInt8 × SegmentRow)) : Prop :=
  (∀ name, contentOf disk''.log name ≠ contentOf disk.log name → SegmentReadable codec disk''.log name) ∧
    ∃ out, historyOf codec disk''.log disk''.archive = .ok out ∧ ∀ x ∈ entries, out.count x.2 = 1

/-- A room that has every row of the ledger already. -/
structure AlreadyMigrated (codec : SegmentCodec) (disk : Disk) (entries : List (List UInt8 × SegmentRow)) :
    Prop where
  readable : ReplayReadable codec disk.log disk.archive
  consistent : ∀ a, InHistory codec disk.log disk.archive a → ∀ b, InHistory codec disk.log disk.archive b →
    a.seq = b.seq → a = b
  present : ∀ x ∈ entries, InHistory codec disk.log disk.archive x.2

/-- A row of the history or of the ledger. -/
def HistoryOrLedger (codec : SegmentCodec) (disk : Disk) (entries : List (List UInt8 × SegmentRow))
    (row : SegmentRow) : Prop :=
  InHistory codec disk.log disk.archive row ∨ ∃ x ∈ entries, x.2 = row

/-- A ledger that can be moved into this room, with a crash that tore no line of it. -/
structure MigrationSafe (codec : SegmentCodec) (disk : Disk) (entries : List (List UInt8 × SegmentRow))
    (torn : List UInt8) : Prop where
  cut : JsonSpace torn
  ready : ∀ name, Touched entries name → SegmentReady codec disk.log name
  readable : ReplayReadable codec disk.log disk.archive
  consistent : ∀ a, HistoryOrLedger codec disk entries a → ∀ b, HistoryOrLedger codec disk entries b →
    a.seq = b.seq → a = b
  listed : ∀ x ∈ entries, isSegmentFile (segmentFileOf x.2) = true ∨ InHistory codec disk.log disk.archive x.2

theorem SegmentReady.readable {dir : Dir (List UInt8)} (h : SegmentReady codec dir name) :
    SegmentReadable codec dir name := by
  obtain ⟨done, hdone⟩ := Option.isSome_iff_exists.mp h.1
  exact ⟨done, (readSegmentEntries_of_tail (isBlankLine_of_jsonSpace h.2)).mpr hdone⟩

theorem segmentReadable_congr {dir dir' : Dir (List UInt8)} (h : contentOf dir' name = contentOf dir name) :
    SegmentReadable codec dir' name ↔ SegmentReadable codec dir name := by
  rw [SegmentReadable, SegmentReadable, h]

theorem rowAt_congr {dir dir' : Dir (List UInt8)} (h : contentOf dir' name = contentOf dir name) :
    RowAt codec dir' name row ↔ RowAt codec dir name row := by
  rw [RowAt, RowAt, h]

/-- The lines of the partition pass are lines of the ledger. -/
theorem parseLegacy_lines {lines : List (List UInt8)} {n : Nat}
    (h : parseLegacy codec path n lines = .ok entries) : ∀ x ∈ entries, x.1 ∈ lines := by
  induction lines generalizing n entries with
  | nil =>
    rw [← Except.ok.inj h]
    exact fun x hx => absurd hx List.not_mem_nil
  | cons line lines ih =>
    rw [parseLegacy] at h
    split at h
    case isTrue => exact fun x hx => List.mem_cons_of_mem _ (ih h x hx)
    case isFalse =>
      split at h
      case _ => cases h
      case _ entry _ =>
        obtain ⟨later, hlater, rfl⟩ := map_eq_ok_iff.mp h
        exact List.forall_mem_cons.mpr ⟨List.mem_cons_self, fun x hx => List.mem_cons_of_mem _ (ih hlater x hx)⟩

theorem newline_notMem_bufLines {line : List UInt8} (h : line ∈ bufLines content) : newline ∉ line := by
  obtain ⟨hframes, htail⟩ := @notMem_frames _ _ newline content
  obtain ⟨read, hread, rfl⟩ := List.mem_map.mp h
  rw [frameReads, List.mem_append] at hread
  rcases hread with hread | hread
  · obtain ⟨frame, hframe, rfl⟩ := List.mem_map.mp hread
    show newline ∉ stripCr frame
    unfold stripCr
    split
    · exact fun hmem => hframes frame hframe (List.mem_of_mem_dropLast hmem)
    · exact hframes frame hframe
  · split at hread
    case isTrue => exact absurd hread List.not_mem_nil
    case isFalse =>
      rw [List.mem_singleton.mp hread]
      exact htail

/-- The segments a completed migration changes are those that get lines. -/
theorem RerunLeaves.content_ne_iff (h : RerunLeaves disk disk'' entries torn tornName as) :
    contentOf disk''.log name ≠ contentOf disk.log name ↔ Touched entries name := by
  constructor
  · intro hne
    by_contra huntouched
    exact hne (h.content_eq huntouched)
  · rintro ⟨x, hx, hfile⟩ heq
    have hmem : x ∈ linesFor name (partitioned entries) := mem_linesFor.mpr ⟨mem_partitioned.mpr hx, hfile⟩
    obtain ⟨y, ys, hys⟩ := List.exists_cons_of_ne_nil (List.ne_nil_of_mem hmem)
    have hlength := congrArg List.length heq
    rw [h.log, hys, bytesOf_cons] at hlength
    simp only [List.length_append, List.length_cons, List.length_nil] at hlength
    omega

theorem RerunLeaves.archive_eq (h : RerunLeaves disk disk'' entries torn tornName as) (hname : Replayed name) :
    contentOf disk''.archive name = contentOf disk.archive name := h.archive name hname.2

/-- **What can be read afterwards.** -/
theorem RerunLeaves.readable_iff (h : RerunLeaves disk disk'' entries torn tornName as)
    (hrows : ∀ x ∈ entries, LegacyRow codec x) (hlines : ∀ x ∈ entries, newline ∉ x.1) :
    ((∀ name, Touched entries name → SegmentReadable codec disk''.log name) ∧
        ReplayReadable codec disk''.log disk''.archive) ↔
      JsonSpace torn ∧ (∀ name, Touched entries name → SegmentReady codec disk.log name) ∧
        ReplayReadable codec disk.log disk.archive := by
  constructor
  · rintro ⟨htouched, hreplay⟩
    have hready := fun name hname => (h.touched hrows hlines hname).1.mp (htouched name hname)
    refine ⟨?_, fun name hname => (hready name hname).1, ?_, ?_⟩
    · rcases h.cut with rfl | ⟨x, hx, hfile, -⟩
      · exact jsonSpace_nil
      · exact (hready tornName ⟨x, hx, hfile⟩).2 rfl
    · intro name hname
      by_cases htouch : Touched entries name
      · exact (hready name htouch).1.readable
      · exact (segmentReadable_congr (h.content_eq htouch)).mp (hreplay.live name hname)
    · intro name hname
      exact (segmentReadable_congr (h.archive_eq hname)).mp (hreplay.archived name hname)
  · rintro ⟨hcut, hready, hreplay⟩
    have htouched : ∀ name, Touched entries name → SegmentReadable codec disk''.log name := by
      intro name hname
      exact (h.touched hrows hlines hname).1.mpr ⟨hready name hname, fun _ => hcut⟩
    refine ⟨htouched, ?_, ?_⟩
    · intro name hname
      by_cases htouch : Touched entries name
      · exact htouched name htouch
      · exact (segmentReadable_congr (h.content_eq htouch)).mpr (hreplay.live name hname)
    · intro name hname
      exact (segmentReadable_congr (h.archive_eq hname)).mpr (hreplay.archived name hname)

/-- **The history afterwards:** the rows of before, and those of the ledger whose segment a replay lists. -/
theorem RerunLeaves.inHistory_iff (h : RerunLeaves disk disk'' entries torn tornName as)
    (hrows : ∀ x ∈ entries, LegacyRow codec x) (hlines : ∀ x ∈ entries, newline ∉ x.1)
    (htouched : ∀ name, Touched entries name → SegmentReadable codec disk''.log name) :
    InHistory codec disk''.log disk''.archive row ↔ InHistory codec disk.log disk.archive row ∨
      ∃ x ∈ entries, isSegmentFile (segmentFileOf x.2) = true ∧ x.2 = row := by
  have hlog : ∀ name, RowAt codec disk''.log name row ↔ RowAt codec disk.log name row ∨
      ∃ x ∈ entries, segmentFileOf x.2 = name ∧ x.2 = row := by
    intro name
    by_cases htouch : Touched entries name
    · exact (h.touched hrows hlines htouch).2 (htouched name htouch) row
    · rw [rowAt_congr (h.content_eq htouch)]
      refine (or_iff_left ?_).symm
      rintro ⟨x, hx, hfile, -⟩
      exact htouch ⟨x, hx, hfile⟩
  have harchive : ∀ name, Replayed name →
      (RowAt codec disk''.archive name row ↔ RowAt codec disk.archive name row) :=
    fun name hname => rowAt_congr (h.archive_eq hname)
  unfold InHistory
  constructor
  · rintro (⟨name, hname, hrow⟩ | ⟨name, hname, hrow⟩)
    · rcases (hlog name).mp hrow with hold | ⟨x, hx, rfl, heq⟩
      · exact .inl (.inl ⟨name, hname, hold⟩)
      · exact .inr ⟨x, hx, hname, heq⟩
    · exact .inl (.inr ⟨name, hname, (harchive name hname).mp hrow⟩)
  · rintro ((⟨name, hname, hrow⟩ | ⟨name, hname, hrow⟩) | ⟨x, hx, hname, hrow⟩)
    · exact .inl ⟨name, hname, (hlog name).mpr (.inl hrow)⟩
    · exact .inr ⟨name, hname, (harchive name hname).mpr hrow⟩
    · exact .inl ⟨segmentFileOf x.2, hname, (hlog _).mpr (.inr ⟨x, hx, rfl, hrow⟩)⟩

/-- A migration of a ledger that is not archived yet keeps its rows exactly when it is safe. -/
theorem RerunLeaves.keeps_iff (h : RerunLeaves disk disk'' entries torn tornName as)
    (hrows : ∀ x ∈ entries, LegacyRow codec x) (hlines : ∀ x ∈ entries, newline ∉ x.1) :
    MigrationKeeps codec disk disk'' entries ↔ MigrationSafe codec disk entries torn := by
  unfold MigrationKeeps
  simp only [exists_historyOf_iff, h.content_ne_iff]
  constructor
  · rintro ⟨htouched, hreplay, hcons, hall⟩
    obtain ⟨hcut, hready, hreadable⟩ := (h.readable_iff hrows hlines).mp ⟨htouched, hreplay⟩
    have hhistory : ∀ row, InHistory codec disk''.log disk''.archive row ↔ _ := fun row =>
      @RerunLeaves.inHistory_iff codec disk disk'' torn entries as tornName row h hrows hlines htouched
    have hmerged : ∀ row, HistoryOrLedger codec disk entries row →
        InHistory codec disk''.log disk''.archive row := by
      rintro row (hrow | ⟨x, hx, rfl⟩)
      · exact (hhistory row).mpr (.inl hrow)
      · exact hall x hx
    exact {
      cut := hcut
      ready := hready
      readable := hreadable
      consistent := by
        intro a ha b hb
        exact hcons a (hmerged a ha) b (hmerged b hb)
      listed := by
        intro x hx
        rcases (hhistory x.2).mp (hall x hx) with hold | ⟨y, -, hlisted, heq⟩
        · exact .inr hold
        · rw [heq] at hlisted
          exact .inl hlisted }
  · rintro ⟨hcut, hready, hreadable, hcons, hlisted⟩
    obtain ⟨htouched, hreplay⟩ := (h.readable_iff hrows hlines).mpr ⟨hcut, hready, hreadable⟩
    have hhistory : ∀ row, InHistory codec disk''.log disk''.archive row ↔ _ := fun row =>
      @RerunLeaves.inHistory_iff codec disk disk'' torn entries as tornName row h hrows hlines htouched
    have hmerged : ∀ row, InHistory codec disk''.log disk''.archive row →
        HistoryOrLedger codec disk entries row := by
      intro row hrow
      rcases (hhistory row).mp hrow with hold | ⟨x, hx, -, heq⟩
      · exact .inl hold
      · exact .inr ⟨x, hx, heq⟩
    refine ⟨htouched, hreplay, fun a ha b hb => hcons a (hmerged a ha) b (hmerged b hb), fun x hx => ?_⟩
    rw [hhistory]
    rcases hlisted x hx with hname | hold
    · exact .inr ⟨x, hx, hname, rfl⟩
    · exact .inl hold

/-- A ledger whose archive name is taken is deleted, and nothing else happens. -/
theorem migration_archived (hlegacy : disk.legacy = some content)
    (htaken : (disk.archive.lookup archivedMonolithFilename).isSome)
    (hcrash : MigrationCrash codec path disk torn disk') (hrerun : migrate codec path disk' = .ok disk'') :
    disk''.log = disk.log ∧ disk''.archive = disk.archive := by
  have hops : ∀ d : Disk, (d.archive.lookup archivedMonolithFilename).isSome →
      migrationOps codec path d = .ok [] ∨ migrationOps codec path d = .ok [.removeLegacy] := by
    intro d hd
    unfold migrationOps
    cases d.legacy with
    | none => exact .inl rfl
    | some content => exact .inr (if_pos hd)
  have hstep : ∀ d d₂ : Disk, runOps d [.removeLegacy] = .ok d₂ → d₂.log = d.log ∧ d₂.archive = d.archive := by
    intro d d₂ hd
    rw [← Except.ok.inj hd]
    exact ⟨rfl, rfl⟩
  have hfirst : disk'.log = disk.log ∧ disk'.archive = disk.archive := by
    obtain ⟨ops, done, rest, hplan, hsplit, hcut⟩ := hcrash
    have hremove : migrationOps codec path disk = .ok [.removeLegacy] := by
      rw [migrationOps, hlegacy]
      exact if_pos htaken
    obtain rfl := Except.ok.inj (hplan.symm.trans hremove)
    rcases List.singleton_eq_append_iff.mp hsplit with ⟨rfl, rfl⟩ | ⟨rfl, rfl⟩
    · rcases hcut with ⟨-, hdone⟩ | ⟨_, _, _, hrest, -⟩
      · rw [← Except.ok.inj hdone]
        exact ⟨rfl, rfl⟩
      · cases hrest
    · rcases hcut with ⟨-, hdone⟩ | ⟨_, _, _, hrest, -⟩
      · exact hstep disk disk' hdone
      · cases hrest
  rw [migrate] at hrerun
  rcases hops disk' (by rw [hfirst.2]; exact htaken) with hnone | hone
  · rw [hnone] at hrerun
    rw [← Except.ok.inj hrerun]
    exact hfirst
  · rw [hone] at hrerun
    obtain ⟨hlog, harchive⟩ := hstep disk' disk'' hrerun
    exact ⟨hlog.trans hfirst.1, harchive.trans hfirst.2⟩

end Main

namespace MigrationSample

/-- The JSON text of a claim row: `{"seq":1,"occurred_at":"2026-01-01T00:00:00Z","event_type":"claim",`, then
`"payload":{"event_id":"c1","kind":"claim"},"engagement":"a"}`. -/
def line : List UInt8 :=
  [123, 34, 115, 101, 113, 34, 58, 49, 44, 34, 111, 99, 99, 117, 114, 114, 101, 100, 95, 97, 116, 34, 58,
    34, 50, 48, 50, 54, 45, 48, 49, 45, 48, 49, 84, 48, 48, 58, 48, 48, 58, 48, 48, 90, 34, 44, 34, 101,
    118, 101, 110, 116, 95, 116, 121, 112, 101, 34, 58, 34, 99, 108, 97, 105, 109, 34, 44, 34, 112, 97, 121,
    108, 111, 97, 100, 34, 58, 123, 34, 101, 118, 101, 110, 116, 95, 105, 100, 34, 58, 34, 99, 49, 34, 44,
    34, 107, 105, 110, 100, 34, 58, 34, 99, 108, 97, 105, 109, 34, 125, 44, 34, 101, 110, 103, 97, 103, 101,
    109, 101, 110, 116, 34, 58, 34, 97, 34, 125]

def row : SegmentRow where
  seq := 1
  occurredAt := "2026-01-01T00:00:00Z"
  eventType := "claim"
  payload := .object [("event_id", .string "c1"), ("kind", .string "claim")]
  engagement := some "a"

def isJsonSpace (b : UInt8) : Bool := b == 32 || b == 9 || b == 10 || b == 13

/-- The decoding of the sample's line, with white space before it, and of any cut of it. -/
def codec : SegmentCodec where
  parseRow bytes := if bytes.dropWhile isJsonSpace = line then .ok row else .error "EOF while parsing an object"
  parseFact _ := .ok { eventId := "c1", kind := .claim }

def ledger : List UInt8 := line ++ [newline]

/-- A room with the old ledger. -/
def room (log archive : Dir (List UInt8)) : Disk where
  legacy := some ledger
  log := log
  archive := archive

/-- The room after a crash left `bytes` in the one segment. -/
def crashed (bytes : List UInt8) : Disk := room (AList.singleton "a.jsonl" bytes) ∅

def completed (bytes : List UInt8) : Disk where
  legacy := none
  log := AList.singleton "a.jsonl" (bytes ++ ledger)
  archive := AList.singleton archivedMonolithFilename ledger

theorem isJsonSpace_iff {b : UInt8} : isJsonSpace b = true ↔ b = 32 ∨ b = 9 ∨ b = 10 ∨ b = 13 := by
  simp [isJsonSpace, or_assoc]

/-- White space before the line is dropped, and anything else makes it longer. -/
theorem dropWhile_line (t : List UInt8) :
    (JsonSpace t → (t ++ line).dropWhile isJsonSpace = line) ∧
      (¬JsonSpace t → line.length < ((t ++ line).dropWhile isJsonSpace).length) := by
  induction t with
  | nil => exact ⟨fun _ => by decide, fun h => absurd jsonSpace_nil h⟩
  | cons b t ih =>
    have hspace : JsonSpace (b :: t) ↔ isJsonSpace b = true ∧ JsonSpace t := by
      rw [isJsonSpace_iff]
      exact List.forall_mem_cons
    rw [List.cons_append, hspace]
    by_cases hb : isJsonSpace b = true
    · rw [List.dropWhile_cons_of_pos hb]
      exact ⟨fun h => ih.1 h.2, fun h => ih.2 fun ht => h ⟨hb, ht⟩⟩
    · rw [List.dropWhile_cons_of_neg hb]
      refine ⟨fun h => absurd h.1 hb, fun _ => ?_⟩
      rw [List.length_cons, List.length_append]
      omega

theorem legacyRow : LegacyRow codec (line, row) where
  text := by
    show RowText codec line row
    refine ⟨by decide, fun t ht => if_pos ((dropWhile_line t).1 ht), fun t other ht h => ?_⟩
    have hne : (t ++ line).dropWhile isJsonSpace ≠ line := fun heq => by
      have hlength := (dropWhile_line t).2 ht
      rw [heq] at hlength
      exact Nat.lt_irrefl _ hlength
    cases (if_neg hne).symm.trans h
  valid := by decide

theorem parse_ledger : parseLegacy codec "ledger.jsonl" 1 (bufLines ledger) = .ok [(line, row)] := by
  decide +kernel

theorem ops (log : Dir (List UInt8)) :
    migrationOps codec "ledger.jsonl" (room log ∅) = .ok [.append "a.jsonl" ledger, .archiveLegacy] := by
  have hparts : partitioned [(line, row)] = [(line, row)] := by decide
  have hname : segmentFileOf row = "a.jsonl" := by decide
  rw [migrationOps_fresh (show (room log ∅).legacy = some ledger from rfl) rfl parse_ledger, hparts]
  show Except.ok [FileOp.append (segmentFileOf row) ledger, .archiveLegacy] = _
  rw [hname]

/-- The rerun appends the ledger behind what the crash left. -/
theorem rerun (bytes : List UInt8) : migrate codec "ledger.jsonl" (crashed bytes) = .ok (completed bytes) := by
  rw [migrate, crashed, ops]
  rfl

end MigrationSample

open MigrationSample

end RallyPoint
