/-
# RallyPoint.DbMigration — a history that only `facts.db` holds, written out as a canonical segment (`store.rs`).

The offline migration takes the rows of the database in the database's own order and writes one canonical line
for each, ordered by the sequence of its fact. A database row has two sequences: the position the database gave
it, and the one its payload carries, which wins unless it is zero or missing. The written payload gets the
winning one, so the reader of segments, which asks the envelope, finds what the reader of the database found.

The receipt of a migration binds the written bytes. Afterwards the file may only grow: the check compares the
bytes that were there, and then asks of every row whether it belongs behind them.

The JSON decoder and its writer are parameters. `LawfulPayloads` is what a derived decoder does with the `seq`
member, `WritesBack` what the writer and the decoder owe each other for one row: they need not agree on the
payload itself, whose numbers may come back in the last digit changed, but on what is read from it.
-/
import RallyPoint.Lib.Codec
import RallyPoint.Lib.Log
import RallyPoint.Replay

namespace RallyPoint

open Lib

/-! ## Rendering -/

/-- What the migration takes from the JSON and the time libraries: `renderRow` is `serde_json::to_writer` of a
row, `parseTime` is `DateTime::parse_from_rfc3339` with the text of its refusal. -/
structure MigrationCodec extends SegmentCodec where
  renderRow : SegmentRow → List UInt8
  parseTime : String → Except String Int

structure DbOnlyMigrationSegment where
  bytes : List UInt8
  rowCount : Nat
  maxSeq : Int
  deriving DecidableEq

structure DbOnlyMigrationSourceRow where
  databaseSeq : Codec.I64
  occurredAt : String
  eventType : String
  payload : Value

/-- `Fact::from_value`: a payload without a sequence takes the database's. -/
def factFromValue (codec : SegmentCodec) (payload : Value) (seq : Int) : Result Fact :=
  match codec.parseFact payload with
  | .ok fact => .ok (if fact.seq = 0 then { fact with seq := seq } else fact)
  | .error e => .error (.message s!"parse fact payload: {e}")

/-- `Map::insert`: the members of an object stand in the order of their keys. -/
def insertMember (key : String) (value : Value) : List (String × Value) → List (String × Value)
  | [] => [(key, value)]
  | field :: rest =>
    if field.1 = key then (key, value) :: rest
    else if key < field.1 then (key, value) :: field :: rest
    else field :: insertMember key value rest

/-- The canonical row of a database row whose fact has the given sequence. -/
def migratedRow (engagement : String) (record : DbOnlyMigrationSourceRow) (fields : List (String × Value))
    (logicalSeq : Int) : SegmentRow where
  seq := logicalSeq
  occurredAt := record.occurredAt
  eventType := record.eventType
  payload := .object (insertMember "seq" (.number (toString logicalSeq)) fields)
  engagement := some engagement

section Render

variable (codec : MigrationCodec)

/-- The fact of a database row. -/
def sourceFact (record : DbOnlyMigrationSourceRow) : Result Fact :=
  factFromValue codec.toSegmentCodec record.payload record.databaseSeq.val

/-- The fact of a canonical row. -/
def segmentFact (entry : SegmentRow) : Result Fact :=
  factFromSegmentValue codec.toSegmentCodec entry.payload entry.seq

/-- One turn of the loop of `render_db_only_migration_segment`, up to the row it inserts. -/
def migrationEntry (engagement : String) (record : DbOnlyMigrationSourceRow) : Result SegmentRow :=
  match sourceFact codec record with
  | .error e => .error e
  | .ok fact =>
    if fact.seq ≤ 0 then
      .error (.message s!"DB-only row {fact.eventId} has non-positive logical seq {fact.seq}")
    else
      match record.payload with
      | .object fields =>
        let entry := migratedRow engagement record fields fact.seq
        match codec.parseTime entry.occurredAt with
        | .error e => .error (.message (s!"DB-only row at logical seq {fact.seq} has invalid occurred_at " ++
            s!"{String.quote entry.occurredAt}: {e}"))
        | .ok _ => (validateCanonicalLineAt codec.toSegmentCodec entry).map fun _ => entry
      | _ => .error (.message
          s!"DB-only row at record seq {record.databaseSeq.val} is not an object payload")

/-- The loop, behind the database position it saw last. The map is the list of its rows in key order. -/
def migrationEntries (engagement : String) :
    Int → List SegmentRow → List DbOnlyMigrationSourceRow → Result (List SegmentRow)
  | _, rows, [] => .ok rows
  | previous, rows, record :: rest =>
    if record.databaseSeq.val ≤ previous then
      .error (.message
        s!"DB-only source record seq {record.databaseSeq.val} is not strictly newer than {previous}")
    else
      match migrationEntry codec engagement record with
      | .error e => .error e
      | .ok entry =>
        match insertNew (·.seq) rows entry with
        | none => .error (.message (s!"DB-only history has more than one row at logical seq {entry.seq}; " ++
            "migration cannot choose canonical precedence"))
        | some rows => migrationEntries engagement record.databaseSeq.val rows rest

/-- The lines of the map, with the receipt's figures. -/
def segmentOf (rows : List SegmentRow) : DbOnlyMigrationSegment where
  bytes := framed newline (rows.map codec.renderRow)
  rowCount := rows.length
  maxSeq := (rows.getLast?.map (·.seq)).getD 0

def renderDbOnlyMigrationSegment (sourceRows : List DbOnlyMigrationSourceRow) (engagement : String) :
    Result DbOnlyMigrationSegment :=
  match validateScopedEngagement engagement with
  | .error e => .error e
  | .ok engagement =>
    match migrationEntries codec engagement 0 [] sourceRows with
    | .error e => .error e
    | .ok rows =>
      if rows = [] then .error (.usage "facts.db contains no rows; there is no DB-only history to migrate")
      else .ok (segmentOf codec rows)

end Render

/-! ## The checks of the written file -/

/-- What a path holds, as `symlink_metadata` tells it. -/
inductive MigrationTarget
  | regular (content : List UInt8)
  | special

section Verify

variable (codec : MigrationCodec) (path : String)

def verifyDbOnlyMigrationSegment (target : MigrationTarget) (expected : DbOnlyMigrationSegment) : Result Unit :=
  match target with
  | .special => .error (.usage
      s!"migration segment {path} must be a regular file, not a symlink or special file")
  | .regular observed =>
    if observed != expected.bytes then
      .error (.message s!"migration segment {path} differs from the marker-bound canonical candidate")
    else
      match readSegmentEntriesStrict codec.toSegmentCodec path observed with
      | .error e => .error e
      | .ok entries =>
        if entries.length != expected.rowCount ||
            (entries.getLast?.map (·.seq)).getD 0 != expected.maxSeq then
          .error (.message s!"migration segment {path} readback stats differ from the marker-bound candidate")
        else .ok ()

/-- Every row bears the receipt's stamp and a time. -/
def checkStamps (engagement : String) : List SegmentRow → Result Unit
  | [] => .ok ()
  | entry :: rest =>
    if entry.engagement != some engagement then
      .error (.message (s!"migration target {path} seq {entry.seq} is not stamped for receipt engagement " ++
        String.quote engagement))
    else
      match codec.parseTime entry.occurredAt with
      | .error e => .error (.message (s!"migration target {path} seq {entry.seq} has invalid occurred_at " ++
          s!"{String.quote entry.occurredAt}: {e}"))
      | .ok _ => checkStamps engagement rest

/-- Every row is newer than the one before it. -/
def checkExtension : Int → List SegmentRow → Result Unit
  | _, [] => .ok ()
  | previous, entry :: rest =>
    if entry.seq ≤ previous then
      .error (.message s!"migration target {path} extension seq {entry.seq} is not newer than {previous}")
    else checkExtension entry.seq rest

def verifyDbOnlyMigrationExtension (target : MigrationTarget) (expectedPrefix : DbOnlyMigrationSegment)
    (expectedEngagement : String) : Result Unit :=
  match target with
  | .special => .error (.usage
      s!"migration target {path} must be a regular file, not a symlink or special file")
  | .regular observed =>
    if !expectedPrefix.bytes.isPrefixOf observed then
      .error (.message s!"migration target {path} diverges from its immutable receipt-bound prefix")
    else
      match readSegmentEntriesStrict codec.toSegmentCodec path observed with
      | .error e => .error e
      | .ok entries =>
        if decide (entries.length < expectedPrefix.rowCount) ||
            ((entries[expectedPrefix.rowCount - 1]?).map (·.seq)).getD 0 != expectedPrefix.maxSeq then
          .error (.message s!"migration target {path} no longer contains the receipt-bound row boundary")
        else
          checkStamps codec path expectedEngagement entries >>= fun _ =>
            checkExtension path expectedPrefix.maxSeq (entries.drop expectedPrefix.rowCount)

end Verify

/-! ## Which histories are rendered -/

/-- The conditions on a history that can be told row by row and between rows, `facts` being what the database
reads from it. -/
structure SoundDbHistory (codec : MigrationCodec) (sourceRows : List DbOnlyMigrationSourceRow) (facts : List Fact) :
    Prop where
  nonempty : sourceRows ≠ []
  positions : List.IsChain (· < ·) (0 :: sourceRows.map (·.databaseSeq.val))
  decoded : sourceRows.mapM (sourceFact codec) = .ok facts
  positive : ∀ fact ∈ facts, 0 < fact.seq
  distinct : (facts.map (·.seq)).Nodup
  times : ∀ record ∈ sourceRows, ∃ t, codec.parseTime record.occurredAt = .ok t

/-- A database row whose payload is an object and whose canonical row is one a replay would take. -/
def Canonical (codec : MigrationCodec) (engagement : String) (record : DbOnlyMigrationSourceRow) : Prop :=
  ∀ fact, sourceFact codec record = .ok fact → ∃ fields, record.payload = .object fields ∧
    validRow codec.toSegmentCodec (migratedRow engagement record fields fact.seq) = true

/-- A history the migration takes. -/
structure Migratable (codec : MigrationCodec) (engagement : String) (sourceRows : List DbOnlyMigrationSourceRow)
    (facts : List Fact) : Prop extends SoundDbHistory codec sourceRows facts where
  label : validateScopedEngagement engagement = .ok engagement
  canonical : ∀ record ∈ sourceRows, Canonical codec engagement record

/-- What one row of the database is turned into, and out of which fact. -/
structure Migrates (codec : MigrationCodec) (engagement : String) (record : DbOnlyMigrationSourceRow)
    (fact : Fact) (entry : SegmentRow) : Prop where
  decoded : sourceFact codec record = .ok fact
  positive : 0 < fact.seq
  payload : ∃ fields, record.payload = .object fields ∧ entry = migratedRow engagement record fields fact.seq
  time : ∃ t, codec.parseTime record.occurredAt = .ok t
  valid : validRow codec.toSegmentCodec entry = true

section Spec

variable {codec : MigrationCodec} {engagement : String} {record : DbOnlyMigrationSourceRow}
variable {sourceRows : List DbOnlyMigrationSourceRow} {entry : SegmentRow} {rows out : List SegmentRow}
variable {fact : Fact} {facts : List Fact}

theorem validateCanonicalLineAt_map_ok_iff {codec : SegmentCodec} {other : SegmentRow} :
    (validateCanonicalLineAt codec entry).map (fun _ => entry) = .ok other ↔
      validRow codec entry = true ∧ other = entry := by
  rw [map_eq_ok_iff]
  rcases validateCanonicalLineAt_cases codec entry with ⟨fact, hval, hvalid⟩ | ⟨e, hval, hvalid⟩
  · simp [hval, hvalid, eq_comm]
  · simp [hval, hvalid]

/-- **One row** is migrated exactly when it decodes to a fact of positive sequence, its payload is an object, its
time is a time, and the canonical row is valid. -/
theorem migrationEntry_ok_iff :
    migrationEntry codec engagement record = .ok entry ↔ ∃ fact, Migrates codec engagement record fact entry := by
  unfold migrationEntry
  constructor
  · intro h
    cases hfact : sourceFact codec record with
    | error e => simp [hfact] at h
    | ok fact =>
      simp only [hfact, check_refuse_ok_iff, not_le] at h
      obtain ⟨hpos, h⟩ := h
      cases hpayload : record.payload with
      | object fields =>
        simp only [hpayload] at h
        cases htime : codec.parseTime (migratedRow engagement record fields fact.seq).occurredAt with
        | error e => simp [htime] at h
        | ok t =>
          simp only [htime, validateCanonicalLineAt_map_ok_iff] at h
          obtain ⟨hvalid, rfl⟩ := h
          exact ⟨fact, hfact, hpos, ⟨fields, hpayload, rfl⟩, ⟨t, htime⟩, hvalid⟩
      | null | bool _ | number _ | string _ | array _ => simp [hpayload] at h
  · rintro ⟨fact, hfact, hpos, ⟨fields, hpayload, rfl⟩, ⟨t, htime⟩, hvalid⟩
    simp only [hfact, hpayload, if_neg (not_le.mpr hpos)]
    rw [show codec.parseTime (migratedRow engagement record fields fact.seq).occurredAt = .ok t from htime]
    exact validateCanonicalLineAt_map_ok_iff.mpr ⟨hvalid, rfl⟩

/-- **The loop** takes database rows in increasing position, and its map is the one ordered list of their
canonical rows. -/
theorem migrationEntries_ok_iff {previous : Int} (hrows : KeyOrdered (·.seq) rows) :
    migrationEntries codec engagement previous rows sourceRows = .ok out ↔
      List.IsChain (· < ·) (previous :: sourceRows.map (·.databaseSeq.val)) ∧
        ∃ entries, sourceRows.mapM (migrationEntry codec engagement) = .ok entries ∧
          KeyOrdered (·.seq) out ∧ out.Perm (entries ++ rows) := by
  induction sourceRows generalizing previous rows with
  | nil =>
    simp only [migrationEntries, Except.ok.injEq, List.map_nil, List.IsChain.singleton, true_and, List.mapM_nil,
      pure, Except.pure, exists_eq_left', List.nil_append]
    constructor
    · rintro rfl
      exact ⟨hrows, List.Perm.refl _⟩
    · rintro ⟨hout, hperm⟩
      exact hrows.eq_of_mem_iff hout fun z => hperm.symm.mem_iff
  | cons record rest ih =>
    rw [migrationEntries, check_refuse_ok_iff, not_le, List.map_cons, List.isChain_cons_cons, and_assoc]
    refine and_congr_right fun _ => ?_
    simp only [List.mapM_cons, bind_ok_iff, pure, Except.pure, Except.ok.injEq]
    cases hentry : migrationEntry codec engagement record with
    | error e => simp
    | ok entry =>
      simp only [Except.ok.injEq, exists_eq_left']
      cases hinsert : insertNew (·.seq) rows entry with
      | none =>
        -- nothing ordered holds this row beside one of its sequence
        refine iff_of_false (by simp) ?_
        rintro ⟨-, _, ⟨entries, -, rfl⟩, hout, hperm⟩
        exact hout.not_perm_of_taken (insertNew_eq_none_iff.mp hinsert) hperm
      | some rows' =>
        obtain ⟨hrows', hperm'⟩ := (insertNew_eq_some_iff hrows).mp hinsert
        simp only [ih hrows']
        refine and_congr_right fun _ => ?_
        constructor
        · rintro ⟨entries, hentries, hout, hperm⟩
          refine ⟨entry :: entries, ⟨entries, hentries, rfl⟩, hout, ?_⟩
          exact hperm.trans ((hperm'.append_left entries).trans List.perm_middle)
        · rintro ⟨_, ⟨entries, hentries, rfl⟩, hout, hperm⟩
          refine ⟨entries, hentries, hout, ?_⟩
          exact hperm.trans ((hperm'.append_left entries).trans List.perm_middle).symm

theorem renderDbOnlyMigrationSegment_ok_iff {segment : DbOnlyMigrationSegment} :
    renderDbOnlyMigrationSegment codec sourceRows engagement = .ok segment ↔
      validateScopedEngagement engagement = .ok engagement ∧
        ∃ rows, migrationEntries codec engagement 0 [] sourceRows = .ok rows ∧ rows ≠ [] ∧
          segment = segmentOf codec rows := by
  unfold renderDbOnlyMigrationSegment
  cases hlabel : validateScopedEngagement engagement with
  | error e => simp
  | ok label =>
    -- a label that is let through is used as it stands
    obtain rfl := validateScopedEngagement_eq hlabel
    simp only [true_and]
    cases hrows : migrationEntries codec engagement 0 [] sourceRows with
    | error e => simp
    | ok rows => simp only [Except.ok.injEq, exists_eq_left', check_refuse_ok_iff, eq_comm (a := segment), ne_eq]

/-- The rows of a history that is taken, each with its fact. -/
theorem mapM_migrationEntry (h : sourceRows.mapM (migrationEntry codec engagement) = .ok out) :
    ∃ facts, sourceRows.mapM (sourceFact codec) = .ok facts ∧
      List.Forall₂ (fun fact entry => ∃ record ∈ sourceRows, Migrates codec engagement record fact entry)
        facts out := by
  induction sourceRows generalizing out with
  | nil =>
    cases h
    exact ⟨[], rfl, .nil⟩
  | cons record rest ih =>
    simp only [List.mapM_cons, bind_ok_iff, pure, Except.pure, Except.ok.injEq] at h ⊢
    obtain ⟨entry, hentry, entries, hentries, rfl⟩ := h
    obtain ⟨fact, hmigrates⟩ := migrationEntry_ok_iff.mp hentry
    obtain ⟨facts, hfacts, hall⟩ := ih hentries
    refine ⟨fact :: facts, ⟨fact, hmigrates.decoded, facts, hfacts, rfl⟩, .cons ?_ (hall.imp ?_)⟩
    · exact ⟨record, List.mem_cons_self, hmigrates⟩
    · rintro fact entry ⟨other, hother, hmigrates⟩
      exact ⟨other, List.mem_cons_of_mem record hother, hmigrates⟩

theorem Migrates.seq_eq (h : Migrates codec engagement record fact entry) : entry.seq = fact.seq := by
  obtain ⟨fields, -, rfl⟩ := h.payload
  rfl

/-- The rows have the sequences of their facts. -/
theorem map_seq_of_migrates
    (h : List.Forall₂ (fun fact entry => ∃ record ∈ sourceRows, Migrates codec engagement record fact entry)
      facts out) : out.map (·.seq) = facts.map (·.seq) := by
  induction h with
  | nil => rfl
  | cons hhead _ ih =>
    obtain ⟨record, -, hmigrates⟩ := hhead
    rw [List.map_cons, List.map_cons, hmigrates.seq_eq, ih]

/-- **Which histories are rendered.** The loop comes to a non-empty map exactly on those that are migratable,
under a label that is let through. -/
theorem exists_migrationEntries_iff (hlabel : validateScopedEngagement engagement = .ok engagement) :
    (∃ rows, migrationEntries codec engagement 0 [] sourceRows = .ok rows ∧ rows ≠ []) ↔
      ∃ facts, Migratable codec engagement sourceRows facts := by
  simp only [migrationEntries_ok_iff (List.Pairwise.nil : KeyOrdered (·.seq) ([] : List SegmentRow)),
    List.append_nil]
  constructor
  · rintro ⟨rows, ⟨hpositions, entries, hentries, hordered, hperm⟩, hne⟩
    obtain ⟨facts, hfacts, hall⟩ := mapM_migrationEntry hentries
    have hdone : ∀ record ∈ sourceRows, ∃ fact entry, Migrates codec engagement record fact entry := by
      intro record hrecord
      obtain ⟨entry, hentry⟩ := (mapM_ok_iff.mp hentries).1 record hrecord
      obtain ⟨fact, hmigrates⟩ := migrationEntry_ok_iff.mp hentry
      exact ⟨fact, entry, hmigrates⟩
    refine ⟨facts, ⟨⟨?_, hpositions, hfacts, ?_, ?_, ?_⟩, hlabel, ?_⟩⟩
    · rintro rfl
      cases hentries
      exact hne hperm.eq_nil
    · intro fact hfact
      rw [(mapM_ok_iff.mp hfacts).2] at hfact
      obtain ⟨record, hrecord, hdecoded⟩ := List.mem_filterMap.mp hfact
      obtain ⟨fact', entry, hmigrates⟩ := hdone record hrecord
      cases hmigrates.decoded.symm.trans (ok_of_toOption hdecoded)
      exact hmigrates.positive
    · rw [← map_seq_of_migrates hall]
      exact (hperm.map _).nodup_iff.mp hordered.nodup_keys
    · intro record hrecord
      obtain ⟨fact, entry, hmigrates⟩ := hdone record hrecord
      exact hmigrates.time
    · intro record hrecord fact hfact
      obtain ⟨fact', entry, hmigrates⟩ := hdone record hrecord
      obtain ⟨fields, hpayload, rfl⟩ := hmigrates.payload
      cases hmigrates.decoded.symm.trans hfact
      exact ⟨fields, hpayload, hmigrates.valid⟩
  · rintro ⟨facts, h⟩
    obtain ⟨hdecodes, -⟩ := mapM_ok_iff.mp h.decoded
    have hdone : ∀ record ∈ sourceRows, ∃ entry, migrationEntry codec engagement record = .ok entry := by
      intro record hrecord
      obtain ⟨fact, hfact⟩ := hdecodes record hrecord
      obtain ⟨fields, hpayload, hvalid⟩ := h.canonical record hrecord fact hfact
      have hmem : fact ∈ facts := by
        rw [(mapM_ok_iff.mp h.decoded).2]
        exact List.mem_filterMap.mpr ⟨record, hrecord, by rw [hfact]; rfl⟩
      exact ⟨_, migrationEntry_ok_iff.mpr
        ⟨fact, hfact, h.positive fact hmem, ⟨fields, hpayload, rfl⟩, h.times record hrecord, hvalid⟩⟩
    obtain ⟨entries, hentries⟩ : ∃ entries, sourceRows.mapM (migrationEntry codec engagement) = .ok entries :=
      ⟨_, mapM_ok_iff.mpr ⟨hdone, rfl⟩⟩
    obtain ⟨facts', hfacts', hall⟩ := mapM_migrationEntry hentries
    cases hfacts'.symm.trans h.decoded
    have hdistinct : (entries.map (·.seq)).Nodup := by
      rw [map_seq_of_migrates hall]
      exact h.distinct
    obtain ⟨rows, hordered, hperm⟩ := exists_keyOrdered_perm hdistinct
    refine ⟨rows, ⟨h.positions, entries, hentries, hordered, hperm⟩, ?_⟩
    -- as many rows as the database has
    rintro rfl
    have hlength : sourceRows.length = 0 := by
      rw [← length_of_mapM hentries, ← hperm.length_eq, List.length_nil]
    exact h.nonempty (List.length_eq_zero_iff.mp hlength)

end Spec

/-! ## Reading the segment back -/

/-- What a derived decoder does with the `seq` member of an object: it is a 64-bit integer, and a positive one
that is put there becomes the fact's sequence and changes nothing else. -/
structure LawfulPayloads (codec : SegmentCodec) : Prop where
  seq_lt : ∀ payload fact, codec.parseFact payload = .ok fact → fact.seq < i64Bound
  set_seq : ∀ fields fact n, 0 < n → n < i64Bound → codec.parseFact (.object fields) = .ok fact →
    codec.parseFact (.object (insertMember "seq" (.number (toString n)) fields)) = .ok { fact with seq := n }

/-- Two rows that no reader of the ledger tells apart. -/
structure SameRow (codec : SegmentCodec) (row row' : SegmentRow) : Prop where
  seq : row'.seq = row.seq
  occurredAt : row'.occurredAt = row.occurredAt
  eventType : row'.eventType = row.eventType
  engagement : row'.engagement = row.engagement
  fact : codec.parseFact row'.payload = codec.parseFact row.payload
  kind : row'.payloadKind = row.payloadKind

/-- What the writer and the decoder owe each other for one row: the text is an object on one line, and decodes
to the row. -/
structure WritesBack (codec : MigrationCodec) (row : SegmentRow) : Prop where
  oneLine : newline ∉ codec.renderRow row
  closed : (codec.renderRow row).getLast? = some 125
  decodes : ∃ row', codec.parseRow (codec.renderRow row) = .ok row' ∧ SameRow codec.toSegmentCodec row row'

section ReadBack

variable {codec : MigrationCodec} {engagement : String} {record : DbOnlyMigrationSourceRow}
variable {sourceRows : List DbOnlyMigrationSourceRow} {entry row row' : SegmentRow} {rows out : List SegmentRow}
variable {fact : Fact} {facts : List Fact}

theorem SameRow.validateCanonicalLineAt_eq {codec : SegmentCodec} (h : SameRow codec row row') :
    validateCanonicalLineAt codec row' = validateCanonicalLineAt codec row := by
  unfold validateCanonicalLineAt unknownFutureKind factFromSegmentValue
  rw [h.seq, h.eventType, h.fact, h.kind]

theorem SameRow.segmentFact_eq (h : SameRow codec.toSegmentCodec row row') :
    segmentFact codec row' = segmentFact codec row := by
  unfold segmentFact factFromSegmentValue
  rw [h.seq, h.fact]

/-- A written line is read as its row. -/
theorem WritesBack.completedRow (h : WritesBack codec row) (hvalid : validRow codec.toSegmentCodec row = true) :
    ∃ row', completedRow codec.toSegmentCodec (codec.renderRow row) = some [row'] ∧
      SameRow codec.toSegmentCodec row row' := by
  obtain ⟨row', hparse, hsame⟩ := h.decodes
  have hstrip : stripCr (codec.renderRow row) = codec.renderRow row := by
    rw [stripCr, h.closed, if_neg (by decide)]
  have hblank : isBlankLine (codec.renderRow row) = false := by
    refine List.all_eq_false.mpr ⟨125, List.mem_of_getLast? h.closed, by decide⟩
  have hvalid' : validRow codec.toSegmentCodec row' = true := by
    rw [validRow, hsame.validateCanonicalLineAt_eq]
    exact hvalid
  refine ⟨row', ?_, hsame⟩
  rw [RallyPoint.completedRow, hstrip, hblank, hparse]
  simp [hvalid']

/-- Written lines are read as their rows. -/
theorem gather_rendered (hwrites : ∀ row ∈ rows, WritesBack codec row)
    (hvalid : ∀ row ∈ rows, validRow codec.toSegmentCodec row = true) :
    ∃ entries, gather (completedRow codec.toSegmentCodec) (rows.map codec.renderRow) = some entries ∧
      List.Forall₂ (SameRow codec.toSegmentCodec) rows entries := by
  induction rows with
  | nil => exact ⟨[], rfl, .nil⟩
  | cons row rows ih =>
    rw [List.forall_mem_cons] at hwrites hvalid
    obtain ⟨row', hrow, hsame⟩ := hwrites.1.completedRow hvalid.1
    obtain ⟨entries, hentries, hall⟩ := ih hwrites.2 hvalid.2
    refine ⟨row' :: entries, ?_, .cons hsame hall⟩
    rw [List.map_cons, gather, hrow, hentries]
    rfl

/-- **One row's fact survives:** the canonical row decodes to the fact the database's row gave. -/
theorem Migrates.segmentFact_eq (h : Migrates codec engagement record fact entry)
    (hlaw : LawfulPayloads codec.toSegmentCodec) : segmentFact codec entry = .ok fact := by
  obtain ⟨fields, hpayload, rfl⟩ := h.payload
  have hfact := h.decoded
  unfold sourceFact factFromValue at hfact
  rw [hpayload] at hfact
  cases hparse : codec.parseFact (.object fields) with
  | error e => simp [hparse] at hfact
  | ok parsed =>
    rw [hparse] at hfact
    have hparsed : { parsed with seq := fact.seq } = fact ∧ fact.seq < i64Bound := by
      rw [← Except.ok.inj hfact]
      split
      · refine ⟨rfl, ?_⟩
        show record.databaseSeq.val < i64Bound
        have := record.databaseSeq.property.2
        simp only [i64Bound]
        omega
      · exact ⟨rfl, hlaw.seq_lt _ _ hparse⟩
    have hset := hlaw.set_seq fields parsed fact.seq h.positive hparsed.2 hparse
    show factFromSegmentValue codec.toSegmentCodec
      (.object (insertMember "seq" (.number (toString fact.seq)) fields)) fact.seq = .ok fact
    rw [factFromSegmentValue, hset]
    exact congrArg Except.ok hparsed.1

theorem mapM_segmentFact_of_migrates (hlaw : LawfulPayloads codec.toSegmentCodec)
    (h : List.Forall₂ (fun fact entry => ∃ record ∈ sourceRows, Migrates codec engagement record fact entry)
      facts out) : out.mapM (segmentFact codec) = .ok facts := by
  induction h with
  | nil => rfl
  | cons hhead _ ih =>
    obtain ⟨record, -, hmigrates⟩ := hhead
    rw [List.mapM_cons, hmigrates.segmentFact_eq hlaw, ih]
    rfl

/-- The facts of canonical rows have the rows' sequences. -/
theorem map_seq_of_segmentFacts (h : rows.mapM (segmentFact codec) = .ok facts) :
    facts.map (·.seq) = rows.map (·.seq) := by
  induction rows generalizing facts with
  | nil =>
    cases h
    rfl
  | cons row rows ih =>
    simp only [List.mapM_cons, bind_ok_iff, pure, Except.pure, Except.ok.injEq] at h
    obtain ⟨fact, hfact, rest, hrest, rfl⟩ := h
    rw [List.map_cons, List.map_cons, factFromSegmentValue_seq hfact, ih hrest]

/-- Rows that no reader tells apart have the same sequences and the same facts. -/
theorem sameRows (h : List.Forall₂ (SameRow codec.toSegmentCodec) rows out) :
    out.map (·.seq) = rows.map (·.seq) ∧ out.mapM (segmentFact codec) = rows.mapM (segmentFact codec) := by
  induction h with
  | nil => exact ⟨rfl, rfl⟩
  | cons hhead _ ih =>
    rw [List.map_cons, List.map_cons, hhead.seq, ih.1, List.mapM_cons, List.mapM_cons, hhead.segmentFact_eq, ih.2]
    exact ⟨rfl, rfl⟩

/-- Every row of the map comes from a row of the database. -/
theorem migrates_of_mem (h : migrationEntries codec engagement 0 [] sourceRows = .ok rows) :
    ∀ row ∈ rows, ∃ record ∈ sourceRows, ∃ fact,
      migrationEntry codec engagement record = .ok row ∧ Migrates codec engagement record fact row := by
  obtain ⟨-, entries, hentries, -, hperm⟩ := (migrationEntries_ok_iff List.Pairwise.nil).mp h
  intro row hrow
  rw [List.append_nil] at hperm
  have hmem := hperm.mem_iff.mp hrow
  rw [(mapM_ok_iff.mp hentries).2] at hmem
  obtain ⟨record, hrecord, hoption⟩ := List.mem_filterMap.mp hmem
  have hentry := ok_of_toOption hoption
  obtain ⟨fact, hmigrates⟩ := migrationEntry_ok_iff.mp hentry
  exact ⟨record, hrecord, fact, hentry, hmigrates⟩

/-- **The rows of the map** decode to the facts of the database, in sequence order. -/
theorem facts_of_migrationEntries (h : migrationEntries codec engagement 0 [] sourceRows = .ok rows)
    (hlaw : LawfulPayloads codec.toSegmentCodec) :
    ∃ facts decoded, sourceRows.mapM (sourceFact codec) = .ok facts ∧
      rows.mapM (segmentFact codec) = .ok decoded ∧ KeyOrdered (·.seq) decoded ∧ decoded.Perm facts := by
  obtain ⟨-, entries, hentries, hordered, hperm⟩ := (migrationEntries_ok_iff List.Pairwise.nil).mp h
  rw [List.append_nil] at hperm
  obtain ⟨facts, hfacts, hall⟩ := mapM_migrationEntry hentries
  have hentryFacts := mapM_segmentFact_of_migrates hlaw hall
  obtain ⟨hdecodes, hfactsEq⟩ := mapM_ok_iff.mp hentryFacts
  have hdecoded := mapM_ok_iff.mpr ⟨fun row hrow => hdecodes row (hperm.mem_iff.mp hrow), rfl⟩
  refine ⟨facts, _, hfacts, hdecoded, ?_, ?_⟩
  · refine List.pairwise_map.mp ?_
    rw [map_seq_of_segmentFacts hdecoded]
    exact List.pairwise_map.mpr hordered
  · rw [hfactsEq]
    exact hperm.filterMap _

end ReadBack

/-! ## The receipt -/

/-- What reading a rendered segment gives: one row for each of the database, in sequence order, with the same
facts. -/
structure ReadsAs (codec : MigrationCodec) (sourceRows : List DbOnlyMigrationSourceRow)
    (segment : DbOnlyMigrationSegment) (entries : List SegmentRow) (facts decoded : List Fact) : Prop where
  read : ∀ path, readSegmentEntriesStrict codec.toSegmentCodec path segment.bytes = .ok entries
  oneEach : entries.length = sourceRows.length
  ascending : KeyOrdered (·.seq) entries
  source : sourceRows.mapM (sourceFact codec) = .ok facts
  decodes : entries.mapM (segmentFact codec) = .ok decoded
  sorted : KeyOrdered (·.seq) decoded
  same : decoded.Perm facts
  rowCount : segment.rowCount = sourceRows.length
  maxSeq : (facts.map (·.seq)).max? = some segment.maxSeq

/-- The check of a grown file accepts completed lines behind the segment exactly when their rows bear the stamp,
have a time, and are each newer than the row before. -/
def ChecksExtensions (codec : MigrationCodec) (engagement : String) (segment : DbOnlyMigrationSegment) : Prop :=
  ∀ path lines later, (∀ line ∈ lines, newline ∉ line) →
    gather (completedRow codec.toSegmentCodec) lines = some later →
      (verifyDbOnlyMigrationExtension codec path (.regular (segment.bytes ++ framed newline lines)) segment
          engagement = .ok () ↔
        (∀ row ∈ later, row.engagement = some engagement ∧ ∃ t, codec.parseTime row.occurredAt = .ok t) ∧
          List.IsChain (· < ·) (segment.maxSeq :: later.map (·.seq)))

section Receipt

variable {codec : MigrationCodec} {path engagement : String} {sourceRows : List DbOnlyMigrationSourceRow}
variable {rows entries : List SegmentRow} {segment : DbOnlyMigrationSegment}

theorem checkStamps_ok_iff :
    checkStamps codec path engagement rows = .ok () ↔
      ∀ row ∈ rows, row.engagement = some engagement ∧ ∃ t, codec.parseTime row.occurredAt = .ok t := by
  induction rows with
  | nil => simp [checkStamps]
  | cons row rows ih =>
    rw [checkStamps, check_refuse_ok_iff, List.forall_mem_cons, bne_iff_ne, not_not, and_assoc]
    refine and_congr_right fun _ => ?_
    cases htime : codec.parseTime row.occurredAt with
    | error e => simp
    | ok t => simp [ih]

theorem checkExtension_ok_iff {previous : Int} :
    checkExtension path previous rows = .ok () ↔ List.IsChain (· < ·) (previous :: rows.map (·.seq)) := by
  induction rows generalizing previous with
  | nil => simp [checkExtension]
  | cons row rows ih =>
    rw [checkExtension, check_refuse_ok_iff, not_le, List.map_cons, List.isChain_cons_cons, ih]

/-- **Reading back:** the rendered lines give the rows of the map. -/
theorem exists_read_rendered (h : migrationEntries codec engagement 0 [] sourceRows = .ok rows)
    (hwrites : ∀ record ∈ sourceRows, ∀ entry, migrationEntry codec engagement record = .ok entry →
      WritesBack codec entry) :
    ∃ entries, gather (completedRow codec.toSegmentCodec) (rows.map codec.renderRow) = some entries ∧
      List.Forall₂ (SameRow codec.toSegmentCodec) rows entries := by
  refine gather_rendered (fun row hrow => ?_) (fun row hrow => ?_)
  · obtain ⟨record, hrecord, -, hentry, -⟩ := migrates_of_mem h row hrow
    exact hwrites record hrecord row hentry
  · obtain ⟨_, _, _, _, hmigrates⟩ := migrates_of_mem h row hrow
    exact hmigrates.valid

theorem newline_notMem_rendered (h : migrationEntries codec engagement 0 [] sourceRows = .ok rows)
    (hwrites : ∀ record ∈ sourceRows, ∀ entry, migrationEntry codec engagement record = .ok entry →
      WritesBack codec entry) : ∀ line ∈ rows.map codec.renderRow, newline ∉ line := by
  intro line hline
  obtain ⟨row, hrow, rfl⟩ := List.mem_map.mp hline
  obtain ⟨record, hrecord, -, hentry, -⟩ := migrates_of_mem h row hrow
  exact (hwrites record hrecord row hentry).oneLine

/-- The last row of an ordered map carries the highest sequence. -/
theorem max?_of_perm {facts : List Fact} {seqs : List Int} (hordered : KeyOrdered (·.seq) rows) (hne : rows ≠ [])
    (hseqs : seqs = rows.map (·.seq)) (hperm : seqs.Perm (facts.map (·.seq))) :
    (facts.map (·.seq)).max? = some (segmentOf codec rows).maxSeq := by
  obtain ⟨init, last, rfl⟩ := (List.eq_nil_or_concat' rows).resolve_left hne
  have hmax : (segmentOf codec (init ++ [last])).maxSeq = last.seq := by
    show (((init ++ [last]).getLast?).map (·.seq)).getD 0 = last.seq
    rw [List.getLast?_concat, Option.map_some, Option.getD_some]
  rw [List.max?_eq_some_iff, hmax]
  subst hseqs
  refine ⟨hperm.mem_iff.mp (List.mem_map_of_mem (List.mem_append_right init List.mem_cons_self)), fun n hn => ?_⟩
  obtain ⟨row, hrow, rfl⟩ := List.mem_map.mp (hperm.mem_iff.mpr hn)
  have hle := le_last_of_ascending hordered row hrow
  rwa [List.getLast?_concat, Option.map_some, Option.getD_some] at hle

/-- **Nothing is lost:** the strict reader finds every row of the database, in order and with its fact. -/
theorem readsAs_of_migrationEntries (hlaw : LawfulPayloads codec.toSegmentCodec)
    (h : migrationEntries codec engagement 0 [] sourceRows = .ok rows) (hne : rows ≠ [])
    (hwrites : ∀ record ∈ sourceRows, ∀ entry, migrationEntry codec engagement record = .ok entry →
      WritesBack codec entry) :
    ∃ entries facts decoded, ReadsAs codec sourceRows (segmentOf codec rows) entries facts decoded := by
  obtain ⟨entries, hgather, hsame⟩ := exists_read_rendered h hwrites
  obtain ⟨facts, decoded, hfacts, hdecoded, hsorted, hperm⟩ := facts_of_migrationEntries h hlaw
  obtain ⟨hseqs, hsameFacts⟩ := sameRows hsame
  obtain ⟨-, migrated, hmigrated, hordered, hrows⟩ := (migrationEntries_ok_iff List.Pairwise.nil).mp h
  rw [List.append_nil] at hrows
  have hlength : rows.length = sourceRows.length := hrows.length_eq.trans (length_of_mapM hmigrated)
  refine ⟨entries, facts, decoded, ?_⟩
  exact {
    read := fun path => (readSegmentEntriesStrict_framed (newline_notMem_rendered h hwrites)).mpr hgather
    oneEach := hsame.length_eq.symm.trans hlength
    ascending := by
      refine List.pairwise_map.mp ?_
      rw [hseqs]
      exact List.pairwise_map.mpr hordered
    source := hfacts
    decodes := hsameFacts.trans hdecoded
    sorted := hsorted
    same := hperm
    rowCount := hlength
    maxSeq := max?_of_perm hordered hne (map_seq_of_segmentFacts hdecoded) (hperm.map _) }

/-- Every row that is read back bears the stamp and a time. -/
theorem stamped_of_rendered (h : migrationEntries codec engagement 0 [] sourceRows = .ok rows)
    (hsame : List.Forall₂ (SameRow codec.toSegmentCodec) rows entries) :
    ∀ row ∈ entries, row.engagement = some engagement ∧ ∃ t, codec.parseTime row.occurredAt = .ok t := by
  have hrows : ∀ row ∈ rows,
      row.engagement = some engagement ∧ ∃ t, codec.parseTime row.occurredAt = .ok t := by
    intro row hrow
    obtain ⟨record, -, fact, -, hmigrates⟩ := migrates_of_mem h row hrow
    obtain ⟨fields, -, rfl⟩ := hmigrates.payload
    exact ⟨rfl, hmigrates.time⟩
  clear h
  induction hsame with
  | nil => exact fun row hrow => absurd hrow List.not_mem_nil
  | cons hhead _ ih =>
    rw [List.forall_mem_cons] at hrows ⊢
    rw [hhead.engagement, hhead.occurredAt]
    exact ⟨hrows.1, ih hrows.2⟩

/-- **The check of a written file** accepts what was rendered. -/
theorem verifyDbOnlyMigrationSegment_rendered
    (h : migrationEntries codec engagement 0 [] sourceRows = .ok rows)
    (hwrites : ∀ record ∈ sourceRows, ∀ entry, migrationEntry codec engagement record = .ok entry →
      WritesBack codec entry) :
    verifyDbOnlyMigrationSegment codec path (.regular (segmentOf codec rows).bytes) (segmentOf codec rows) =
      .ok () := by
  obtain ⟨entries, hgather, hsame⟩ := exists_read_rendered h hwrites
  have hread := (@readSegmentEntriesStrict_framed _ path _ _ (newline_notMem_rendered h hwrites)).mpr hgather
  have hseqs : entries.getLast?.map (·.seq) = rows.getLast?.map (·.seq) := by
    rw [← List.getLast?_map, (sameRows hsame).1, List.getLast?_map]
  have hlength : entries.length = (segmentOf codec rows).rowCount := hsame.length_eq.symm
  unfold verifyDbOnlyMigrationSegment
  dsimp only
  rw [show readSegmentEntriesStrict codec.toSegmentCodec path (segmentOf codec rows).bytes = .ok entries from hread]
  simp [hlength, hseqs, segmentOf]

/-- **The check of a grown file** asks of what was appended, and of nothing else. -/
theorem checksExtensions_of_migrationEntries
    (h : migrationEntries codec engagement 0 [] sourceRows = .ok rows) (hne : rows ≠ [])
    (hwrites : ∀ record ∈ sourceRows, ∀ entry, migrationEntry codec engagement record = .ok entry →
      WritesBack codec entry) : ChecksExtensions codec engagement (segmentOf codec rows) := by
  intro path lines later hlines hlater
  obtain ⟨entries, hgather, hsame⟩ := exists_read_rendered h hwrites
  have hlength : entries.length = (segmentOf codec rows).rowCount := hsame.length_eq.symm
  have hbytes : (segmentOf codec rows).bytes ++ framed newline lines =
      framed newline (rows.map codec.renderRow ++ lines) := (framed_append _ _).symm
  -- the file is read as the rendered rows and then the appended ones
  have hread : readSegmentEntriesStrict codec.toSegmentCodec path
      ((segmentOf codec rows).bytes ++ framed newline lines) = .ok (entries ++ later) := by
    rw [hbytes, readSegmentEntriesStrict_framed]
    · exact gather_append_eq_some_iff.mpr ⟨entries, later, hgather, hlater, rfl⟩
    · intro line hline
      exact (List.mem_append.mp hline).elim (newline_notMem_rendered h hwrites line) (hlines line)
  -- the last rendered row stands where the receipt expects it
  have hboundary : (((entries ++ later)[(segmentOf codec rows).rowCount - 1]?).map (·.seq)).getD 0 =
      (segmentOf codec rows).maxSeq := by
    have hpos : 0 < entries.length := by
      rw [hlength]
      exact List.length_pos_iff.mpr hne
    rw [← hlength, List.getElem?_append_left (by omega), ← List.getLast?_eq_getElem?, ← List.getLast?_map,
      (sameRows hsame).1, List.getLast?_map]
    rfl
  unfold verifyDbOnlyMigrationExtension
  dsimp only
  rw [if_neg (by simp), hread]
  dsimp only
  rw [if_neg (by rw [hboundary]; simp [← hlength]), check_bind_ok_iff, checkStamps_ok_iff, checkExtension_ok_iff,
    ← hlength, List.drop_left, List.forall_mem_append]
  exact and_congr_left fun _ => and_iff_right (stamped_of_rendered h hsame)

/-- **The migration keeps every fact.** A history is rendered exactly when it is migratable. What is rendered
reads as one row for each of the database, in sequence order and with the same facts, passes the check of a
written file, and may be extended by rows that bear the stamp, have a time, and are each newer than the last. -/
theorem dbOnlyMigration_preserves_facts (hlaw : LawfulPayloads codec.toSegmentCodec)
    (hwrites : ∀ record ∈ sourceRows, ∀ entry, migrationEntry codec engagement record = .ok entry →
      WritesBack codec entry) :
    ((∃ segment, renderDbOnlyMigrationSegment codec sourceRows engagement = .ok segment) ↔
      ∃ facts, Migratable codec engagement sourceRows facts) ∧
    ∀ segment, renderDbOnlyMigrationSegment codec sourceRows engagement = .ok segment →
      (∃ entries facts decoded, ReadsAs codec sourceRows segment entries facts decoded) ∧
        (∀ path, verifyDbOnlyMigrationSegment codec path (.regular segment.bytes) segment = .ok ()) ∧
        ChecksExtensions codec engagement segment := by
  simp only [renderDbOnlyMigrationSegment_ok_iff]
  constructor
  · constructor
    · rintro ⟨segment, hlabel, rows, hrows, hne, rfl⟩
      exact (exists_migrationEntries_iff hlabel).mp ⟨rows, hrows, hne⟩
    · rintro ⟨facts, hmigratable⟩
      obtain ⟨rows, hrows, hne⟩ := (exists_migrationEntries_iff hmigratable.label).mpr ⟨facts, hmigratable⟩
      exact ⟨_, hmigratable.label, rows, hrows, hne, rfl⟩
  · rintro segment ⟨-, rows, hrows, hne, rfl⟩
    exact ⟨readsAs_of_migrationEntries hlaw hrows hne hwrites,
      fun path => verifyDbOnlyMigrationSegment_rendered hrows hwrites,
      checksExtensions_of_migrationEntries hrows hne hwrites⟩

end Receipt

namespace DbMigrationSample

def scalar : Value → String
  | .string s => "\"" ++ s ++ "\""
  | .number text => text
  | _ => "null"

def members : Value → String
  | .object fields => ",".intercalate (fields.map fun field => "\"" ++ field.1 ++ "\":" ++ scalar field.2)
  | _ => ""

/-- The JSON text of a row whose payload has no nested values. -/
def renderRow (row : SegmentRow) : List UInt8 :=
  ascii ("\x7b\"seq\":" ++ toString row.seq ++ ",\"occurred_at\":\"" ++ row.occurredAt ++
    "\",\"event_type\":\"" ++ row.eventType ++ "\",\"payload\":\x7b" ++ members row.payload ++
    "\x7d,\"engagement\":\"" ++ row.engagement.getD "" ++ "\"") ++ [125]

def text (payload : Value) (key : String) : Option String := (payload.get key).bind Value.asStr

/-- The derived decoder, with a default for every member: the `seq` member, -/
def parseSeq (payload : Value) : Except String Int :=
  match payload.get "seq" with
  | none => .ok 0
  | some (.number digits) =>
    match parseI64 digits with
    | some n => .ok n
    | none => .error "invalid value: expected i64"
  | some _ => .error "invalid type: expected i64"

/-- the others, -/
def factAt (payload : Value) (seq : Int) : Fact where
  schema := (text payload "schema").getD factSchema
  eventId := (text payload "event_id").getD ""
  seq := seq
  kind := ((text payload "kind").bind FactKind.parse).getD .unknown

/-- and all of them. -/
def parseFact (payload : Value) : Except String Fact :=
  match payload with
  | .object _ => (parseSeq payload).map (factAt payload)
  | _ => .error "invalid type: expected struct Fact"

def record (databaseSeq : Codec.I64) (fields : List (String × Value)) : DbOnlyMigrationSourceRow where
  databaseSeq := databaseSeq
  occurredAt := "2026-01-01T00:00:00Z"
  eventType := "claim"
  payload := .object fields

/-- The first row of the database carries a sequence of its own, above the position of the second. -/
def first : DbOnlyMigrationSourceRow :=
  record ⟨1, by decide⟩ [("event_id", .string "b"), ("kind", .string "claim"), ("seq", .number "7")]

def second : DbOnlyMigrationSourceRow :=
  record ⟨2, by decide⟩ [("event_id", .string "a"), ("kind", .string "claim")]

/-- A row that a replay would refuse for its schema. -/
def foreign : DbOnlyMigrationSourceRow :=
  record ⟨1, by decide⟩
    [("event_id", .string "c"), ("kind", .string "claim"), ("schema", .string "agent-rally.fact.v2")]

def canonicalRow (id : String) (seq : Int) : SegmentRow where
  seq := seq
  occurredAt := "2026-01-01T00:00:00Z"
  eventType := "claim"
  payload := .object [("event_id", .string id), ("kind", .string "claim"), ("seq", .number (toString seq))]
  engagement := some "alpha"

def codec : MigrationCodec where
  parseRow bytes :=
    if bytes = renderRow (canonicalRow "a" 2) then .ok (canonicalRow "a" 2)
    else if bytes = renderRow (canonicalRow "b" 7) then .ok (canonicalRow "b" 7)
    else .error "expected value"
  parseFact := parseFact
  renderRow := renderRow
  parseTime text := if text = "2026-01-01T00:00:00Z" then .ok 1767225600 else .error "premature end of input"

theorem parseI64_lt {text : String} {n : Int} (h : parseI64 text = some n) : n < i64Bound := by
  unfold parseI64 at h
  simp only [i64Bound]
  split at h <;> split at h <;> try cases h
  all_goals
    obtain ⟨hlt, heq⟩ := (Option.ite_none_right_eq_some ..).mp h
    cases heq
    omega

/-- What an object has under a key after an insertion. -/
theorem get_insertMember (key other : String) (value : Value) (fields : List (String × Value)) :
    (Value.object (insertMember key value fields)).get other =
      if other = key then some value else (Value.object fields).get other := by
  have hcons : ∀ (field : String × Value) (rest : List (String × Value)),
      (Value.object (field :: rest)).get other =
        if field.1 = other then some field.2 else (Value.object rest).get other := by
    intro field rest
    by_cases h : field.1 = other <;> simp [Value.get, h]
  induction fields with
  | nil => by_cases h : key = other <;> simp [insertMember, hcons, h, eq_comm (a := other)]
  | cons field rest ih =>
    rw [insertMember]
    by_cases hkey : field.1 = key
    · rw [if_pos hkey, hcons, hcons, hkey]
      by_cases hother : key = other <;> simp [hother, eq_comm (a := other)]
    · rw [if_neg hkey]
      by_cases hlt : key < field.1
      · rw [if_pos hlt, hcons]
        simp only [eq_comm (a := other)]
      · rw [if_neg hlt, hcons, hcons, ih]
        by_cases hother : other = key
        · rw [if_pos hother, if_pos hother, if_neg (by rw [hother]; exact hkey)]
        · rw [if_neg hother, if_neg hother]

theorem parseSeq_lt {payload : Value} {n : Int} (h : parseSeq payload = .ok n) : n < i64Bound := by
  unfold parseSeq at h
  split at h
  case h_1 => cases h; decide
  case h_2 digits _ =>
    split at h
    case h_1 m hm =>
      cases h
      exact parseI64_lt hm
    case h_2 => cases h
  case h_3 => cases h

theorem lawful : LawfulPayloads codec.toSegmentCodec where
  seq_lt payload fact h := by
    change parseFact payload = .ok fact at h
    unfold parseFact at h
    split at h
    case h_1 =>
      obtain ⟨n, hn, rfl⟩ := map_eq_ok_iff.mp h
      exact parseSeq_lt hn
    case h_2 => cases h
  set_seq fields fact n hpos hlt h := by
    obtain ⟨m, rfl⟩ := Int.eq_ofNat_of_zero_le (Int.le_of_lt hpos)
    have hread : parseI64 (toString (m : Int)) = some (m : Int) := by
      apply parseI64_toString
      simp only [i64Bound] at hlt
      omega
    have hfact : (parseSeq (.object fields)).map (factAt (.object fields)) = .ok fact := h
    obtain ⟨n, -, rfl⟩ := map_eq_ok_iff.mp hfact
    refine map_eq_ok_iff.mpr ⟨m, ?_, ?_⟩
    · rw [parseSeq, get_insertMember, if_pos rfl]
      show (match parseI64 (toString (m : Int)) with | some n => Except.ok n | none => _) = _
      rw [hread]
    · simp [factAt, text, get_insertMember]

theorem migrationEntry_first : migrationEntry codec "alpha" first = .ok (canonicalRow "b" 7) := rfl

theorem migrationEntry_second : migrationEntry codec "alpha" second = .ok (canonicalRow "a" 2) := rfl

/-- A sample row is written and read as it is. -/
theorem writesBack_of_parses {row : SegmentRow} (hline : newline ∉ codec.renderRow row)
    (hparse : codec.parseRow (codec.renderRow row) = .ok row) : WritesBack codec row where
  oneLine := hline
  closed := List.getLast?_concat
  decodes := ⟨row, hparse, rfl, rfl, rfl, rfl, rfl, rfl⟩

theorem writes : ∀ record ∈ [first, second], ∀ entry, migrationEntry codec "alpha" record = .ok entry →
    WritesBack codec entry := by
  intro record hrecord entry hentry
  simp only [List.mem_cons, List.not_mem_nil, or_false] at hrecord
  rcases hrecord with rfl | rfl
  · rw [migrationEntry_first] at hentry
    cases hentry
    have hne : renderRow (canonicalRow "b" 7) ≠ renderRow (canonicalRow "a" 2) := by decide +kernel
    exact writesBack_of_parses (by decide +kernel) (by simp only [codec, if_neg hne, if_true])
  · rw [migrationEntry_second] at hentry
    cases hentry
    exact writesBack_of_parses (by decide +kernel) (by simp only [codec, if_true])

end DbMigrationSample

open DbMigrationSample

/-- Two rows whose sequences run against the database's positions. -/
theorem dbOnlyMigration_preserves_facts_reordered :
    ∃ segment, renderDbOnlyMigrationSegment codec [first, second] "alpha" = .ok segment ∧
      segment.maxSeq = 7 ∧
      (∃ entries facts decoded, ReadsAs codec [first, second] segment entries facts decoded) ∧
      ChecksExtensions codec "alpha" segment := by
  have h : renderDbOnlyMigrationSegment codec [first, second] "alpha" =
      .ok (segmentOf codec [canonicalRow "a" 2, canonicalRow "b" 7]) := rfl
  have hkeeps := (dbOnlyMigration_preserves_facts lawful writes).2 _ h
  exact ⟨_, h, rfl, hkeeps.1, hkeeps.2.2⟩

/-- A history that is sound row by row and between rows, and is refused for the schema of its one row. -/
theorem dbOnlyMigration_refuses_schema :
    (∃ facts, SoundDbHistory codec [foreign] facts) ∧
      ∃ e, renderDbOnlyMigrationSegment codec [foreign] "alpha" = .error e := by
  constructor
  · refine ⟨_, ⟨by decide, by decide, rfl, by decide, by decide, ?_⟩⟩
    intro record hrecord
    rw [List.mem_singleton.mp hrecord]
    exact ⟨_, rfl⟩
  · exact ⟨_, rfl⟩

end RallyPoint
