/-
# RallyPoint.RecentFacts — the bounded listing of recent facts (`recent_facts`, `recent_where` in `store.rs`).

`rally recent` answers from an index when it can. SQL narrows the rows by kind, tool, target and time and returns them
newest first, page by page; every row is checked again by the predicate the full load uses, and the pages stop when
there are enough. The pages come in the order of the answer, so stopping early costs nothing. What the SQL narrows by
is a text of the payload, and there the two answers can part: a time bound is compared with `created_at` as text, and
an excluded kind with the spelling a payload has rather than with the kind it is read as. `recentFacts_iff` says for
which facts.
-/
import Mathlib.Data.List.Dedup
import Mathlib.Data.Prod.Lex
import RallyPoint.Wire
import RallyPoint.Lib.Rfc3339
import RallyPoint.Lib.TopPages

namespace RallyPoint

open Lib Wire

/-! ## Queries and rows -/

structure RecentQuery where
  kinds : List String := []
  excludeKinds : List String := []
  tool : Option String := none
  target : Option String := none
  since : Option String := none
  «until» : Option String := none
  limit : Nat
  includeArchived : Bool := false
  nowSecs : Int := 0
  halfLifeSecs : Int := 0
  archiveFloor : Rat := 0
  deriving DecidableEq, Repr

/-- What the listing calls outside the repository. `toRfc3339Secs` is `to_rfc3339_opts` of an instant in UTC, in whole
seconds with a `Z`; `archiveCutoff` the cut-off of the archive floor, which is computed in floating point. -/
structure RecentEnv where
  ext : Externals
  codec : SessionCodec
  toRfc3339Secs : Int → String
  archiveCutoff : RecentQuery → Option String

/-- One row of the table `events`. -/
structure EventRow where
  sequenceNumber : Int
  payload : Json

/-- `json_extract` of a member that is a text; other members are `NULL` here, and no fact has one. -/
def EventRow.text (row : EventRow) (key : String) : Option String :=
  match row.payload with
  | .object fields => (getField fields key).bind Json.asStr
  | _ => none

/-- `Fact::from_value`. -/
def EventRow.decode (codec : SessionCodec) (row : EventRow) : Except String Fact :=
  (factFromWire codec row.payload).map fun fact =>
    if fact.seq = 0 then { fact with seq := row.sequenceNumber } else fact

/-- `SEQ_EXPR`. -/
def EventRow.seqExpr (row : EventRow) : Int :=
  match row.payload with
  | .object fields =>
    match getField fields "seq" with
    | some (.int n) => if n = 0 then row.sequenceNumber else n
    | _ => row.sequenceNumber
  | _ => row.sequenceNumber

/-! ## Kinds by name -/

/-- `FactKind::ALL`. -/
def FactKind.all : List FactKind :=
  [.claim, .claimRenewed, .claimExpired, .release, .blocker, .resolve, .decision, .artifact, .handoff, .risk,
    .lesson, .session, .sessionClosed, .wake, .presence, .read, .backlogItem, .receipt, .standby, .mission, .unknown]

def replaceChars (from_ : List Char) (to_ : Char) (s : String) : String :=
  String.ofList (s.toList.map fun c => if c ∈ from_ then to_ else c)

/-- `norm` of `kind_named`. -/
def kindNorm (s : String) : String := toAsciiLowercase (replaceChars ['-', '.'] '_' s)

/-- The kind a name means, however it is spelled. -/
def kindNamed (name : String) : Option FactKind := FactKind.all.find? fun kind => kindNorm kind.asStr == kindNorm name

/-- What a `--kind` name says of a kind. -/
def namesKind (kind : FactKind) (name : String) : Bool :=
  match kindNamed name with
  | some named => named == kind
  | none => name == kind.asStr

/-! ## The predicate -/

section Predicate

variable (ext : Externals)

/-- `bound` of `recent_fact_matches`. -/
def timeBound (raw : Option String) : Option Int := raw.bind ext.parseFromRfc3339

def recentFactMatches (fact : Fact) (query : RecentQuery) (retracted : List String) : Bool :=
  (query.kinds.isEmpty || query.kinds.any (namesKind fact.kind)) &&
  !query.excludeKinds.any (namesKind fact.kind) &&
  (query.tool.isNone || fact.tool == query.tool) &&
  (query.target.isNone || fact.target == query.target) &&
  !retracted.contains fact.eventId &&
  (match timeBound ext query.since with
    | some since => (ext.parseFromRfc3339 fact.createdAt).any fun created => decide (since ≤ created)
    | none => true) &&
  (match timeBound ext query.«until» with
    | some until_ => (ext.parseFromRfc3339 fact.createdAt).any fun created => decide (created ≤ until_)
    | none => true) &&
  (query.includeArchived ||
    match ext.parseFromRfc3339 fact.createdAt with
    | some created =>
      !isArchivable (recencyWeight ext (query.nowSecs - timestamp created) query.halfLifeSecs) query.archiveFloor
    | none => true)

/-- Newest first: by the text of `created_at`, then by sequence. -/
def newer (a b : Fact) : Prop := b.createdAt < a.createdAt ∨ b.createdAt = a.createdAt ∧ b.seq < a.seq

instance : DecidableRel newer := fun _ _ => inferInstanceAs (Decidable (_ ∨ _))

/-- The comparison of `finish_recent`: equal keys keep their order. -/
def notOlder (a b : Fact) : Prop := b.createdAt < a.createdAt ∨ b.createdAt = a.createdAt ∧ b.seq ≤ a.seq

instance : DecidableRel notOlder := fun _ _ => inferInstanceAs (Decidable (_ ∨ _))

def finishRecent (facts : List Fact) (query : RecentQuery) : List Fact :=
  (facts.insertionSort notOlder).take query.limit

def recentFromFullLoad (all : List Fact) (query : RecentQuery) : List Fact :=
  finishRecent (all.filter fun fact => recentFactMatches ext fact query (retractedIds all)) query

end Predicate

/-! ## The SQL -/

/-- The names of `spellings` for one kind, as typed and as resolved. -/
def spellingsOf (name : String) : List String :=
  [name, ((kindNamed name).map FactKind.asStr).getD name].flatMap fun name =>
    [name, replaceChars ['-'] '_' name, replaceChars ['_'] '-' name]

/-- Every spelling of the names; none when one of them is `unknown`. -/
def spellings : List String → Option (List String)
  | [] => some []
  | name :: rest =>
    if kindNamed name = some .unknown then none
    else (spellings rest).map fun names => (spellingsOf name ++ names).dedup

def oneDay : Int := 86400 * 10 ^ 9

section Sql

variable (env : RecentEnv) (query : RecentQuery)

def widened (raw : Option String) (days : Int) : Option String :=
  (timeBound env.ext raw).map fun d => env.toRfc3339Secs (d + days * oneDay)

/-- `rally_bad_time`. -/
def rallyBadTime (value : Option String) : Bool :=
  match value with
  | some v => (env.ext.parseFromRfc3339 v).isNone
  | none => true

/-- The `WHERE` of `recent_where`. A comparison with `NULL` is not true. -/
def recentWhere (row : EventRow) : Bool :=
  (match (if query.kinds.isEmpty then none else spellings query.kinds) with
    | some names => (row.text "kind").any names.contains
    | none => true) &&
  (match (if query.excludeKinds.isEmpty then none else spellings query.excludeKinds) with
    | some names => !names.contains ((row.text "kind").getD "")
    | none => true) &&
  (query.tool.isNone || (row.text "tool").isSome && row.text "tool" == query.tool) &&
  (query.target.isNone || (row.text "target").isSome && row.text "target" == query.target) &&
  (match widened env query.since (-1) with
    | some since => (row.text "created_at").any fun created => decide (since ≤ created)
    | none => true) &&
  (match widened env query.«until» 1 with
    | some until_ => (row.text "created_at").any fun created => decide (created ≤ until_)
    | none => true) &&
  (match (if query.includeArchived then none else env.archiveCutoff query) with
    | some cutoff =>
      ((row.text "created_at").any fun created => decide (cutoff ≤ created)) ||
        rallyBadTime env (row.text "created_at")
    | none => true)

/-- `ORDER BY created_at DESC, seq DESC`, where `NULL` comes last. -/
def sqlNotOlder (a b : EventRow) : Bool :=
  match b.text "created_at", a.text "created_at" with
  | none, some _ => true
  | some _, none => false
  | none, none => decide (b.seqExpr ≤ a.seqExpr)
  | some created, some created' => decide (created < created' ∨ created = created' ∧ b.seqExpr ≤ a.seqExpr)

/-- The rows `recent_page` cuts its pages from. -/
def recentRows (rows : List EventRow) : List EventRow :=
  (rows.filter (recentWhere env query)).insertionSort fun a b => sqlNotOlder a b = true

/-- `retraction_predicate`: eight characters of the subject behind white space. -/
def retractionPredicate (row : EventRow) : Bool :=
  (row.text "subject").any fun subject =>
    String.ofList ((subject.toList.dropWhile isWhitespace).take 8) == subjectPrefix

def retractionFacts (rows : List EventRow) : Except String (List Fact) :=
  (rows.filter retractionPredicate).mapM (EventRow.decode env.codec)

end Sql

/-! ## The listing -/

def recentPagesLeft : Nat := 8

/-- The indexed path of `recent_facts`; no answer when a row does not decode or the pages run out. -/
def recentIndexed (env : RecentEnv) (rows : List EventRow) (query : RecentQuery) : Option (List Fact) :=
  match retractionFacts env rows with
  | .error _ => none
  | .ok retractions =>
    walk (retractedIds retractions) (max 64 (min query.limit 1024)) recentPagesLeft 0 []
where
  walk (retracted : List String) (page : Nat) : Nat → Nat → List Fact → Option (List Fact)
    | 0, _, _ => none
    | pagesLeft + 1, offset, out =>
      match (((recentRows env query rows).drop offset).take page).mapM (EventRow.decode env.codec) with
      | .error _ => none
      | .ok facts =>
        let out' := out ++ facts.filter fun fact => recentFactMatches env.ext fact query retracted
        if query.limit ≤ out'.length ∨ facts.length < page then some out'
        else walk retracted page pagesLeft (offset + facts.length) out'

/-- `recent_facts` while the derived database is proven canonical and has its indexes. -/
def recentFacts (env : RecentEnv) (rows : List EventRow) (query : RecentQuery) : Except String (List Fact) :=
  if query.limit = 0 then .ok []
  else
    match recentIndexed env rows query with
    | some facts => .ok (finishRecent facts query)
    | none => (rows.mapM (EventRow.decode env.codec)).map fun all => recentFromFullLoad env.ext all query

/-! ## What a row says and what its fact says -/

section Rows

variable {codec : SessionCodec} {row : EventRow} {fact : Fact}

theorem readText_ok {fields : List (String × Json)} {key missing s : String}
    (h : readText fields key missing = .ok s) : s = ((getField fields key).bind Json.asStr).getD missing := by
  unfold readText at h
  split at h
  case h_1 heq => rw [heq]; exact (Except.ok.inj h).symm
  case h_2 t heq => rw [heq]; exact (Except.ok.inj h).symm
  case h_3 => cases h

theorem readOptText_ok {fields : List (String × Json)} {key : String} {t : Option String}
    (h : readOptText fields key = .ok t) : t = (getField fields key).bind Json.asStr := by
  unfold readOptText at h
  split at h
  case h_1 heq => rw [heq]; exact (Except.ok.inj h).symm
  case h_2 heq => rw [heq]; exact (Except.ok.inj h).symm
  case h_3 s heq => rw [heq]; exact (Except.ok.inj h).symm
  case h_4 => cases h

/-- The members of a payload that the SQL looks at, as the fact has them. -/
structure DecodesTo (row : EventRow) (fact : Fact) : Prop where
  kind : fact.kind = kindFromWire ((row.text "kind").getD "unknown")
  tool : fact.tool = row.text "tool"
  target : fact.target = row.text "target"
  subject : fact.subject = (row.text "subject").getD ""
  createdAt : fact.createdAt = (row.text "created_at").getD ""
  seq : fact.seq = row.seqExpr

theorem decodesTo_of_decode (h : row.decode codec = .ok fact) : DecodesTo row fact := by
  obtain ⟨n, payload⟩ := row
  cases payload with
  | object fields =>
    obtain ⟨decoded, hdecoded, rfl⟩ := map_eq_ok_iff.mp h
    unfold factFromWire at hdecoded
    simp only [bind_ok_iff] at hdecoded
    obtain ⟨schema, -, eventId, -, seq, hseq, threadId, -, kind, hkind, tool, htool, role, -, subject, hsubject,
      scope, -, createdAt, hcreatedAt, summary, -, evidence, -, target, htarget, refId, -, status, -, severity, -,
      uri, -, session, -, fromSessionId, -, hdecoded⟩ := hdecoded
    have hseq' : (EventRow.mk n (.object fields)).seqExpr = if seq = 0 then n else seq := by
      unfold readSeq at hseq
      simp only [EventRow.seqExpr]
      cases hfield : getField fields "seq" with
      | none =>
        rw [hfield] at hseq
        obtain rfl := Except.ok.inj hseq
        simp
      | some v =>
        rw [hfield] at hseq
        cases v with
        | int m =>
          by_cases hrange : -i64Bound ≤ m ∧ m < i64Bound
          · simp only [Json.asI64, hrange, and_self, if_true] at hseq
            rw [Except.ok.inj hseq]
          · simp [Json.asI64, hrange] at hseq
        | _ => simp [Json.asI64] at hseq
    have hfact : decoded.kind = kindFromWire kind ∧ decoded.tool = tool ∧ decoded.target = target ∧
        decoded.subject = subject ∧ decoded.createdAt = createdAt ∧ decoded.seq = seq := by
      rw [← Except.ok.inj hdecoded]
      exact ⟨rfl, rfl, rfl, rfl, rfl, rfl⟩
    obtain ⟨hk, ht, htg, hs, hc, hq⟩ := hfact
    rw [readText_ok hkind] at hk
    rw [readOptText_ok htool] at ht
    rw [readOptText_ok htarget] at htg
    rw [readText_ok hsubject] at hs
    rw [readText_ok hcreatedAt] at hc
    rw [← hq] at hseq'
    split
    case isTrue hzero => exact ⟨hk, ht, htg, hs, hc, by rw [hseq', if_pos hzero]⟩
    case isFalse hzero => exact ⟨hk, ht, htg, hs, hc, by rw [hseq', if_neg hzero]⟩
  | _ =>
    obtain ⟨decoded, hdecoded, -⟩ := map_eq_ok_iff.mp h
    cases hdecoded

end Rows

/-! ## Kinds and their spellings -/

section Kinds

variable {kind : FactKind} {name raw : String}

/-- The spellings that are read as a kind. -/
theorem kindFromWire_eq (raw : String) :
    kindFromWire raw = .unknown ∨ raw = (kindFromWire raw).asStr ∨
      raw = "backlog_item" ∧ kindFromWire raw = .backlogItem := by
  unfold kindFromWire
  split <;> simp [FactKind.asStr]

theorem kindNamed_asStr (kind : FactKind) : kindNamed kind.asStr = some kind := by
  cases kind <;> decide

theorem kindNamed_eq_some (h : kindNamed name = some kind) : kindNorm kind.asStr = kindNorm name := by
  have hfound := List.find?_some h
  simpa using hfound

/-- A name means a kind by what is left of it without case and separators. -/
theorem kindNamed_of_norm (h : kindNorm name = kindNorm kind.asStr) : kindNamed name = some kind := by
  rw [kindNamed, h]
  exact kindNamed_asStr kind

theorem kindNorm_replace_dash (s : String) : kindNorm (replaceChars ['-'] '_' s) = kindNorm s := by
  simp only [kindNorm, toAsciiLowercase, replaceChars, String.toList_ofList, List.map_map]
  refine congrArg String.ofList (List.map_congr_left fun c _ => ?_)
  by_cases hc : c = '-' <;> simp [hc]

theorem kindNorm_replace_underscore (s : String) : kindNorm (replaceChars ['_'] '-' s) = kindNorm s := by
  simp only [kindNorm, toAsciiLowercase, replaceChars, String.toList_ofList, List.map_map]
  refine congrArg String.ofList (List.map_congr_left fun c _ => ?_)
  by_cases hc : c = '_' <;> simp [hc]

/-- Every spelling of a name is the name without case and separators. -/
theorem kindNorm_of_mem_spellingsOf (h : raw ∈ spellingsOf name) : kindNorm raw = kindNorm name := by
  have hresolved : kindNorm (((kindNamed name).map FactKind.asStr).getD name) = kindNorm name := by
    cases hnamed : kindNamed name with
    | none => rfl
    | some kind => exact kindNamed_eq_some hnamed
  simp only [spellingsOf, List.mem_flatMap, List.mem_cons, List.not_mem_nil, or_false] at h
  obtain ⟨spelled, hspelled, hraw⟩ := h
  have hnorm : kindNorm spelled = kindNorm name := by
    rcases hspelled with heq | heq
    · rw [heq]
    · rw [heq, hresolved]
  rcases hraw with rfl | rfl | rfl
  · exact hnorm
  · rw [kindNorm_replace_dash, hnorm]
  · rw [kindNorm_replace_underscore, hnorm]

theorem mem_spellings {names all : List String} (h : spellings names = some all) :
    raw ∈ all ↔ ∃ name ∈ names, raw ∈ spellingsOf name := by
  induction names generalizing all with
  | nil =>
    obtain rfl := Option.some.inj h
    simp
  | cons name rest ih =>
    rw [spellings] at h
    by_cases hunknown : kindNamed name = some .unknown
    · rw [if_pos hunknown] at h
      cases h
    · rw [if_neg hunknown] at h
      obtain ⟨later, hlater, rfl⟩ := Option.map_eq_some_iff.mp h
      simp only [List.mem_dedup, List.mem_append, ih hlater, List.mem_cons, exists_eq_or_imp]

theorem not_unknown_of_spellings {names all : List String} (h : spellings names = some all) :
    ∀ name ∈ names, kindNamed name ≠ some .unknown := by
  induction names generalizing all with
  | nil => simp
  | cons name rest ih =>
    rw [spellings] at h
    by_cases hunknown : kindNamed name = some .unknown
    · rw [if_pos hunknown] at h
      cases h
    · rw [if_neg hunknown] at h
      obtain ⟨later, hlater, -⟩ := Option.map_eq_some_iff.mp h
      exact List.forall_mem_cons.mpr ⟨hunknown, ih hlater⟩

/-- A name says a kind exactly when it means the kind. -/
theorem namesKind_iff : namesKind kind name = true ↔ kindNamed name = some kind := by
  unfold namesKind
  cases hnamed : kindNamed name with
  | some named => simp
  | none =>
    simp only [beq_iff_eq, reduceCtorEq, iff_false]
    rintro rfl
    rw [kindNamed_asStr] at hnamed
    cases hnamed

/-- **Narrowing by kind loses nothing.** A row whose fact is of a wanted kind has one of its spellings. -/
theorem mem_spellings_of_namesKind {names all : List String} (hall : spellings names = some all)
    (hname : name ∈ names) (h : namesKind (kindFromWire raw) name = true) : raw ∈ all := by
  have hnamed := namesKind_iff.mp h
  have hknown : kindFromWire raw ≠ .unknown := by
    intro hunknown
    exact not_unknown_of_spellings hall name hname (hunknown ▸ hnamed)
  refine (mem_spellings hall).mpr ⟨name, hname, ?_⟩
  simp only [spellingsOf, hnamed, Option.map_some, Option.getD_some, List.mem_flatMap, List.mem_cons,
    List.not_mem_nil, or_false]
  refine ⟨(kindFromWire raw).asStr, .inr rfl, ?_⟩
  rcases kindFromWire_eq raw with hunknown | hraw | ⟨hraw, hbacklog⟩
  · exact absurd hunknown hknown
  · exact .inl hraw
  · rw [hbacklog]
    exact .inr (.inl (hraw.trans (by decide)))

/-- A spelling that is read as a known kind is excluded only with the kind. -/
theorem namesKind_of_mem_spellings {names all : List String} (hall : spellings names = some all)
    (hknown : kindFromWire raw ≠ .unknown) (hraw : raw ∈ all) :
    ∃ name ∈ names, namesKind (kindFromWire raw) name = true := by
  obtain ⟨name, hname, hspelled⟩ := (mem_spellings hall).mp hraw
  refine ⟨name, hname, namesKind_iff.mpr (kindNamed_of_norm ?_)⟩
  rw [← kindNorm_of_mem_spellingsOf hspelled]
  rcases kindFromWire_eq raw with hunknown | heq | ⟨heq, hbacklog⟩
  · exact absurd hunknown hknown
  · exact congrArg kindNorm heq
  · have hspelling : raw = replaceChars ['-'] '_' FactKind.backlogItem.asStr := heq.trans (by decide)
    rw [hbacklog, hspelling, kindNorm_replace_dash]

end Kinds

/-! ## What the two answers rest on -/

/-- What the RFC 3339 reader takes is a stamp, and it gives the stamp's instant. -/
def ReadsStamps (ext : Externals) : Prop :=
  ∀ raw t, ext.parseFromRfc3339 raw = some t → ∃ s : Stamp, s.Valid ∧ s.text = raw ∧ s.instant = t

/-- The first instant of the year 0, and the first of the year 10000. -/
def firstInstant : Int := -62167219200 * 10 ^ 9
def endInstant : Int := 253402300800 * 10 ^ 9

/-- What the RFC 3339 writer makes of an instant: a stamp with `T` and `Z` in the years of four digits, which may have
lost a leap second; a signed year otherwise. -/
structure WritesStamp (toRfc3339Secs : Int → String) (t : Int) : Prop where
  stamp : firstInstant ≤ t → t < endInstant → ∃ s : Stamp, s.Valid ∧ s.sep = 'T' ∧ s.zone = .utc 'Z' ∧
    s.text = toRfc3339Secs t ∧ s.instant ≤ t ∧ t < s.instant + 2 * 10 ^ 9
  late : endInstant ≤ t → ∃ rest, toRfc3339Secs t = "+" ++ rest
  early : t < firstInstant → ∃ rest, toRfc3339Secs t = "-" ++ rest

/-- The instants of the widened bounds of a query. -/
def widenedBounds (ext : Externals) (query : RecentQuery) : List Int :=
  ((timeBound ext query.since).map fun d => d + -1 * oneDay).toList ++
    ((timeBound ext query.«until»).map fun d => d + 1 * oneDay).toList

/-- The character between date and time is `c`, and the date is the one the bound begins with. -/
def WritesOnDate (c : Char) (createdAt bound : String) : Prop :=
  createdAt.toList[10]? = some c ∧ createdAt.toList.take 10 = bound.toList.take 10

instance (c : Char) (createdAt bound : String) : Decidable (WritesOnDate c createdAt bound) :=
  inferInstanceAs (Decidable (_ ∧ _))

/-- A fact that the SQL lets through if the predicate does. -/
structure Survives (env : RecentEnv) (query : RecentQuery) (row : EventRow) (fact : Fact) : Prop where
  /-- A payload whose kind this program does not know does not spell an excluded one. -/
  kind : fact.kind = .unknown → ∀ names, query.excludeKinds ≠ [] → spellings query.excludeKinds = some names →
    (row.text "kind").getD "" ∉ names
  /-- On the date of the earliest bound there is no blank behind the date. -/
  since : ∀ bound, widened env query.since (-1) = some bound → ¬WritesOnDate ' ' fact.createdAt bound
  /-- The latest bound has a year of four digits, and on its date there is no small `t` behind the date. -/
  «until» : ∀ d, timeBound env.ext query.«until» = some d → d + oneDay < endInstant ∧
    ¬WritesOnDate 't' fact.createdAt (env.toRfc3339Secs (d + oneDay))

/-! ## The time bounds as texts -/

section Times

variable {ext : Externals} {fmt : Int → String} {created bound t : Int} {raw : String}

/-- A text that a reader takes begins with a digit, which comes after either sign. -/
theorem sign_lt_of_reads (hread : ReadsStamps ext) (hraw : ext.parseFromRfc3339 raw = some created)
    (sign : String) (hsign : ∃ c : Char, sign.toList = [c] ∧ c < '0') (rest : String) :
    sign ++ rest < raw ∧ (sign ++ rest).toList.take 10 ≠ raw.toList.take 10 := by
  obtain ⟨stamp, -, rfl, -⟩ := hread raw created hraw
  obtain ⟨c, hc, hlt⟩ := hsign
  obtain ⟨d, more, hchars, hdigit⟩ := stamp.head_isDigit
  have hcd : c < d := lt_of_lt_of_le hlt hdigit
  have htext : stamp.text.toList = d :: more := by rw [Stamp.text, String.toList_ofList, hchars]
  have hsigned : (sign ++ rest).toList = c :: rest.toList := by rw [String.toList_append, hc]; rfl
  constructor
  · rw [String.lt_iff_toList_lt, htext, hsigned, List.cons_lt_cons_iff]
    exact .inl hcd
  · rw [htext, hsigned]
    intro heq
    have hhead := (List.cons.inj heq).1
    exact absurd hcd (hhead ▸ lt_irrefl _)

theorem writesOnDate_iff {c : Char} {s b : Stamp} :
    WritesOnDate c s.text b.text ↔ s.sep = c ∧ s.date.text = b.date.text := by
  simp only [WritesOnDate, Stamp.text, String.toList_ofList, Stamp.getElem?_chars, Stamp.take_chars,
    Option.some.injEq]

/-- A local clock is within an offset of the instant. -/
theorem localSecs_bounds {s : Stamp} (h : s.Valid) :
    s.localSecs * 10 ^ 9 - 86340 * 10 ^ 9 ≤ s.instant ∧ s.instant < s.localSecs * 10 ^ 9 + 86342 * 10 ^ 9 := by
  have hnanos : (s.nanos : Int) < 2 * 10 ^ 9 := by exact_mod_cast Stamp.nanos_lt h
  obtain ⟨hlow, hhigh⟩ := Zone.seconds_bounds h.zone
  unfold Stamp.instant
  constructor <;> omega

/-- **The earliest bound, as text.** Behind the bound less a day every created text comes after the bound's, but for
one with a blank on the bound's date. -/
theorem widened_since_iff (hread : ReadsStamps ext) (hwrite : WritesStamp fmt (bound + -1 * oneDay))
    (hraw : ext.parseFromRfc3339 raw = some created) (h : bound ≤ created) :
    fmt (bound + -1 * oneDay) ≤ raw ↔ ¬WritesOnDate ' ' raw (fmt (bound + -1 * oneDay)) := by
  have hsigned : ∀ {sign : String}, (∃ c : Char, sign.toList = [c] ∧ c < '0') →
      (∃ rest, fmt (bound + -1 * oneDay) = sign ++ rest) →
      (fmt (bound + -1 * oneDay) ≤ raw ↔ ¬WritesOnDate ' ' raw (fmt (bound + -1 * oneDay))) := by
    rintro sign hsign ⟨rest, hfmt⟩
    obtain ⟨hlt, hne⟩ := sign_lt_of_reads hread hraw sign hsign rest
    rw [hfmt]
    exact iff_of_true hlt.le fun hdate => hne hdate.2.symm
  rcases lt_or_ge (bound + -1 * oneDay) firstInstant with hearly | hfirst
  · exact hsigned ⟨'-', rfl, by decide⟩ (hwrite.early hearly)
  · rcases lt_or_ge (bound + -1 * oneDay) endInstant with hend | hlate
    · obtain ⟨b, hb, hT, hzone, hbtext, hle, -⟩ := hwrite.stamp hfirst hend
      obtain ⟨stamp, hstamp, rfl, rfl⟩ := hread raw created hraw
      rw [← hbtext, writesOnDate_iff]
      refine Stamp.le_text_iff hstamp hb hT ?_
      obtain ⟨-, hhigh⟩ := localSecs_bounds hstamp
      have hlocal : b.localSecs * 10 ^ 9 ≤ b.instant := by
        rw [Stamp.instant, hzone]
        simp [Zone.seconds]
      unfold oneDay at hle
      omega
    · exact hsigned ⟨'+', rfl, by decide⟩ (hwrite.late hlate)

/-- **The latest bound, as text.** -/
theorem widened_until_iff (hread : ReadsStamps ext) (hwrite : WritesStamp fmt (bound + 1 * oneDay))
    (hraw : ext.parseFromRfc3339 raw = some created) (h : created ≤ bound) :
    raw ≤ fmt (bound + 1 * oneDay) ↔
      bound + oneDay < endInstant ∧ ¬WritesOnDate 't' raw (fmt (bound + oneDay)) := by
  rw [one_mul] at hwrite ⊢
  rcases lt_or_ge (bound + oneDay) endInstant with hend | hlate
  · obtain ⟨stamp, hstamp, rfl, rfl⟩ := hread raw created hraw
    obtain ⟨hlow, -⟩ := localSecs_bounds hstamp
    have hfirst : firstInstant ≤ bound + oneDay := by
      have hday : (-719528 : Int) ≤ stamp.date.dayNumber := by
        have hpos := hstamp.date.day.1
        unfold CivilDate.dayNumber
        omega
      unfold Stamp.localSecs at hlow
      unfold firstInstant oneDay
      omega
    obtain ⟨b, hb, hT, hzone, hbtext, -, hlt⟩ := hwrite.stamp hfirst hend
    rw [← hbtext, writesOnDate_iff, and_iff_right hend]
    refine Stamp.text_le_iff hstamp hb hT ?_
    have hlocal : b.instant < b.localSecs * 10 ^ 9 + 2 * 10 ^ 9 := by
      have hnanos : (b.nanos : Int) < 2 * 10 ^ 9 := by exact_mod_cast Stamp.nanos_lt hb
      rw [Stamp.instant, hzone]
      simpa [Zone.seconds] using hnanos
    unfold oneDay at hlt
    omega
  · obtain ⟨rest, hfmt⟩ := hwrite.late hlate
    obtain ⟨hlt, -⟩ := sign_lt_of_reads hread hraw "+" ⟨'+', rfl, by decide⟩ rest
    rw [hfmt]
    exact iff_of_false (not_le.mpr hlt) fun hcond => absurd hcond.1 (not_lt.mpr hlate)

end Times

/-! ## The SQL against the predicate -/

section Where

variable {env : RecentEnv} {query : RecentQuery} {row : EventRow} {fact : Fact} {retracted : List String}

/-- A time that is read was a text of the payload. -/
theorem text_of_reads (hread : ReadsStamps env.ext) (hdec : DecodesTo row fact) {t : Int}
    (h : env.ext.parseFromRfc3339 fact.createdAt = some t) : row.text "created_at" = some fact.createdAt := by
  cases htext : row.text "created_at" with
  | some s => rw [hdec.createdAt, htext, Option.getD_some]
  | none =>
    obtain ⟨stamp, -, hstamp, -⟩ := hread _ _ h
    obtain ⟨c, rest, hchars, -⟩ := stamp.head_isDigit
    rw [hdec.createdAt, htext, Option.getD_none] at hstamp
    have hnil := congrArg String.toList hstamp
    rw [Stamp.text, String.toList_ofList, hchars] at hnil
    cases hnil

/-- The wanted kinds never lose a fact. -/
theorem kinds_clause (hdec : DecodesTo row fact)
    (h : (query.kinds.isEmpty || query.kinds.any (namesKind fact.kind)) = true) :
    (match (if query.kinds.isEmpty then none else spellings query.kinds) with
      | some names => (row.text "kind").any names.contains
      | none => true) = true := by
  by_cases hempty : query.kinds.isEmpty = true
  · rw [if_pos hempty]
  · rw [if_neg hempty]
    cases hnames : spellings query.kinds with
    | none => rfl
    | some names =>
      obtain ⟨name, hname, hnamed⟩ : ∃ name ∈ query.kinds, namesKind fact.kind name = true := by
        simpa [hempty] using h
      rw [hdec.kind] at hnamed
      cases hkind : row.text "kind" with
      | none =>
        -- a payload without a kind is of the unknown kind, which no narrowing names
        rw [hkind] at hnamed
        exact absurd (namesKind_iff.mp hnamed) (not_unknown_of_spellings hnames name hname)
      | some raw =>
        rw [hkind] at hnamed
        simpa using mem_spellings_of_namesKind hnames hname hnamed

/-- The excluded kinds lose the facts of an unknown kind that spell one of them, and no others. -/
theorem exclude_clause_iff (hdec : DecodesTo row fact) (h : query.excludeKinds.any (namesKind fact.kind) = false) :
    (match (if query.excludeKinds.isEmpty then none else spellings query.excludeKinds) with
      | some names => !names.contains ((row.text "kind").getD "")
      | none => true) = true ↔
      (fact.kind = .unknown → ∀ names, query.excludeKinds ≠ [] → spellings query.excludeKinds = some names →
        (row.text "kind").getD "" ∉ names) := by
  by_cases hempty : query.excludeKinds = []
  · simp [hempty]
  · rw [if_neg (by simpa using hempty)]
    cases hnames : spellings query.excludeKinds with
    | none => simp
    | some names =>
      simp only [Bool.not_eq_true', List.contains_eq_mem, decide_eq_false_iff_not, Option.some.injEq, ne_eq,
        hempty, not_false_eq_true, forall_const, forall_eq']
      refine ⟨fun hnot _ => hnot, fun hcond hmem => ?_⟩
      have hknown : fact.kind ≠ .unknown := fun hunknown => hcond hunknown hmem
      -- a kind that is known is excluded by the predicate too
      cases hkind : row.text "kind" with
      | none => exact hknown (hdec.kind.trans (by rw [hkind]; rfl))
      | some raw =>
        rw [hkind, Option.getD_some] at hmem
        have hsame : fact.kind = kindFromWire raw := hdec.kind.trans (by rw [hkind, Option.getD_some])
        obtain ⟨name, hname, hnamed⟩ := namesKind_of_mem_spellings hnames (hsame ▸ hknown) hmem
        rw [← hsame] at hnamed
        have hany : query.excludeKinds.any (namesKind fact.kind) = true :=
          List.any_eq_true.mpr ⟨name, hname, hnamed⟩
        rw [h] at hany
        cases hany

theorem tool_clause {wanted column value : Option String} (hcolumn : value = column)
    (h : (wanted.isNone || value == wanted) = true) :
    (wanted.isNone || column.isSome && column == wanted) = true := by
  subst hcolumn
  cases wanted with
  | none => rfl
  | some tool =>
    have heq : value = some tool := by simpa using h
    simp [heq]

theorem since_clause_iff (hread : ReadsStamps env.ext) (hdec : DecodesTo row fact)
    (hwrite : ∀ t ∈ widenedBounds env.ext query, WritesStamp env.toRfc3339Secs t)
    (h : (match timeBound env.ext query.since with
      | some since => (env.ext.parseFromRfc3339 fact.createdAt).any fun created => decide (since ≤ created)
      | none => true) = true) :
    (match widened env query.since (-1) with
      | some since => (row.text "created_at").any fun created => decide (since ≤ created)
      | none => true) = true ↔
      ∀ bound, widened env query.since (-1) = some bound → ¬WritesOnDate ' ' fact.createdAt bound := by
  unfold widened
  cases hbound : timeBound env.ext query.since with
  | none => simp
  | some since =>
    rw [hbound] at h
    have hmem : since + -1 * oneDay ∈ widenedBounds env.ext query := by simp [widenedBounds, hbound]
    cases hcreated : env.ext.parseFromRfc3339 fact.createdAt with
    | none => simp [hcreated] at h
    | some created =>
      have hle : since ≤ created := by simpa [hcreated] using h
      rw [text_of_reads hread hdec hcreated]
      simpa using widened_since_iff hread (hwrite _ hmem) hcreated hle

theorem until_clause_iff (hread : ReadsStamps env.ext) (hdec : DecodesTo row fact)
    (hwrite : ∀ t ∈ widenedBounds env.ext query, WritesStamp env.toRfc3339Secs t)
    (h : (match timeBound env.ext query.«until» with
      | some until_ => (env.ext.parseFromRfc3339 fact.createdAt).any fun created => decide (created ≤ until_)
      | none => true) = true) :
    (match widened env query.«until» 1 with
      | some until_ => (row.text "created_at").any fun created => decide (created ≤ until_)
      | none => true) = true ↔
      ∀ d, timeBound env.ext query.«until» = some d → d + oneDay < endInstant ∧
        ¬WritesOnDate 't' fact.createdAt (env.toRfc3339Secs (d + oneDay)) := by
  unfold widened
  cases hbound : timeBound env.ext query.«until» with
  | none => simp
  | some until_ =>
    rw [hbound] at h
    have hmem : until_ + 1 * oneDay ∈ widenedBounds env.ext query := by simp [widenedBounds, hbound]
    cases hcreated : env.ext.parseFromRfc3339 fact.createdAt with
    | none => simp [hcreated] at h
    | some created =>
      have hle : created ≤ until_ := by simpa [hcreated] using h
      rw [text_of_reads hread hdec hcreated]
      simpa using widened_until_iff hread (hwrite _ hmem) hcreated hle

/-- **What the SQL does to a fact that matches**: it lets it through exactly if the fact survives. -/
theorem recentWhere_iff (hread : ReadsStamps env.ext) (hdec : DecodesTo row fact)
    (hwrite : ∀ t ∈ widenedBounds env.ext query, WritesStamp env.toRfc3339Secs t)
    (harchived : query.includeArchived = true) (h : recentFactMatches env.ext fact query retracted = true) :
    recentWhere env query row = true ↔ Survives env query row fact := by
  simp only [recentFactMatches, Bool.and_eq_true] at h
  obtain ⟨⟨⟨⟨⟨⟨⟨hkinds, hexclude⟩, htool⟩, htarget⟩, -⟩, hsince⟩, huntil⟩, -⟩ := h
  rw [Bool.not_eq_true'] at hexclude
  rw [recentWhere, harchived]
  simp only [if_true, Bool.and_true, Bool.and_eq_true, kinds_clause hdec hkinds,
    tool_clause hdec.tool htool, tool_clause hdec.target htarget, true_and]
  rw [exclude_clause_iff hdec hexclude, since_clause_iff hread hdec hwrite hsince,
    until_clause_iff hread hdec hwrite huntil]
  exact ⟨fun ⟨⟨hkind, hs⟩, hu⟩ => ⟨hkind, hs, hu⟩, fun ⟨hkind, hs, hu⟩ => ⟨⟨hkind, hs⟩, hu⟩⟩

end Where

/-! ## The listing against the full load -/

/-- A fact of the answer: it matches, and fewer than `limit` matching facts are newer. -/
def Listed (ext : Externals) (all : List Fact) (query : RecentQuery) (fact : Fact) : Prop :=
  recentFactMatches ext fact query (retractedIds all) = true ∧
    (all.filter fun other => recentFactMatches ext other query (retractedIds all) &&
      decide (newer other fact)).length <
      query.limit

/-- No row lacks a creation time while another has an empty one. The SQL puts the first behind the second, and the
answer does not. -/
def DatesOrdered (rows : List EventRow) : Prop :=
  (∀ row ∈ rows, row.text "created_at" ≠ none) ∨ ∀ row ∈ rows, row.text "created_at" ≠ some ""

/-- Rows, and the fact of each. -/
structure HoldFacts (codec : SessionCodec) (rows : List EventRow) (factOf : EventRow → Fact) : Prop where
  decodes : ∀ row ∈ rows, row.decode codec = .ok (factOf row)
  distinct : (rows.map fun row => (factOf row).seq).Nodup

section Listing

variable {env : RecentEnv} {query : RecentQuery} {rows : List EventRow} {factOf : EventRow → Fact} {row : EventRow}

theorem mapM_decode {codec : SessionCodec} {some_ : List EventRow}
    (h : ∀ row ∈ some_, row.decode codec = .ok (factOf row)) :
    some_.mapM (EventRow.decode codec) = .ok (some_.map factOf) := by
  refine mapM_ok_iff.mpr ⟨fun row hrow => ⟨_, h row hrow⟩, ?_⟩
  rw [← List.filterMap_eq_map]
  refine List.filterMap_congr fun row hrow => ?_
  rw [h row hrow]
  rfl

theorem HoldFacts.decoded {codec : SessionCodec} (h : HoldFacts codec rows factOf) (hrow : row ∈ rows) :
    DecodesTo row (factOf row) :=
  decodesTo_of_decode (h.decodes row hrow)

theorem HoldFacts.eq_of_seq {codec : SessionCodec} (h : HoldFacts codec rows factOf) {a b : EventRow} (ha : a ∈ rows)
    (hb : b ∈ rows) (hseq : (factOf a).seq = (factOf b).seq) : a = b :=
  List.inj_on_of_nodup_map h.distinct ha hb hseq

theorem mem_recentRows : row ∈ recentRows env query rows ↔ row ∈ rows ∧ recentWhere env query row = true := by
  rw [recentRows, List.mem_insertionSort, List.mem_filter]

/-- The loop over decoded rows is a walk over their facts. -/
theorem walk_eq_walkPages {retracted : List String} {page pagesLeft offset : Nat} {out : List Fact}
    (h : HoldFacts env.codec rows factOf) :
    recentIndexed.walk env rows query retracted page pagesLeft offset out =
      walkPages page query.limit (fun fact => recentFactMatches env.ext fact query retracted)
        ((recentRows env query rows).map factOf) pagesLeft offset out := by
  induction pagesLeft generalizing offset out with
  | zero => rfl
  | succ pagesLeft ih =>
    have hpage : (((recentRows env query rows).drop offset).take page).mapM (EventRow.decode env.codec) =
        .ok (((recentRows env query rows).drop offset).take page |>.map factOf) :=
      mapM_decode fun row hrow =>
        h.decodes row (mem_recentRows.mp (List.mem_of_mem_drop (List.mem_of_mem_take hrow))).1
    rw [recentIndexed.walk, walkPages, hpage, ← List.map_drop, ← List.map_take]
    simp only [ih]

/-- The narrowing to retraction subjects loses no retraction. -/
theorem retractionPredicate_of_targetOf {fact : Fact} (hdec : DecodesTo row fact) (h : targetOf fact ≠ none) :
    retractionPredicate row = true := by
  have hstart : startsWith subjectPrefix (trim fact.subject) = true := by
    by_contra hplain
    exact h (targetOf_of_plain (by simpa using hplain))
  have hprefix : subjectPrefix.toList <+: fact.subject.toList.dropWhile isWhitespace := by
    refine (List.isPrefixOf_iff_prefix.mp hstart).trans ?_
    rw [trim, String.toList_ofList]
    have hsuffix := List.dropWhile_suffix isWhitespace (l := (fact.subject.toList.dropWhile isWhitespace).reverse)
    simpa using List.reverse_prefix.mpr hsuffix
  have htake : (fact.subject.toList.dropWhile isWhitespace).take 8 = subjectPrefix.toList :=
    (List.prefix_iff_eq_take.mp hprefix).symm
  rw [hdec.subject] at htake
  cases hsubject : row.text "subject" with
  | none =>
    rw [hsubject] at htake
    exact absurd htake (by decide)
  | some subject =>
    rw [hsubject, Option.getD_some] at htake
    rw [retractionPredicate, hsubject]
    simp [htake, String.ofList_toList]

theorem mem_retractedIds_filter {codec : SessionCodec} (h : HoldFacts codec rows factOf) {id : String} :
    id ∈ retractedIds ((rows.filter retractionPredicate).map factOf) ↔ id ∈ retractedIds (rows.map factOf) := by
  simp only [retractedIds, List.mem_filterMap, List.mem_map, List.mem_filter]
  constructor
  · rintro ⟨_, ⟨row, ⟨hrow, -⟩, rfl⟩, htarget⟩
    exact ⟨_, ⟨row, hrow, rfl⟩, htarget⟩
  · rintro ⟨_, ⟨row, hrow, rfl⟩, htarget⟩
    have hpred := retractionPredicate_of_targetOf (h.decoded hrow) (by rw [htarget]; simp)
    exact ⟨_, ⟨row, ⟨hrow, hpred⟩, rfl⟩, htarget⟩

/-- The predicate asks only whether an id is withdrawn. -/
theorem recentFactMatches_congr {fact : Fact} {ids ids' : List String} (h : ∀ id, id ∈ ids ↔ id ∈ ids') :
    recentFactMatches env.ext fact query ids = recentFactMatches env.ext fact query ids' := by
  have hcontains : ids.contains fact.eventId = ids'.contains fact.eventId := by
    simp only [List.contains_eq_mem, h fact.eventId]
  rw [recentFactMatches, recentFactMatches, hcontains]

theorem empty_lt {s : String} (h : s ≠ "") : "" < s := by
  rw [String.lt_iff_toList_lt]
  cases hs : s.toList with
  | nil => exact absurd (String.toList_inj.mp (hs.trans (by rfl))) h
  | cons c cs => exact List.nil_lt_cons _ _

/-- The SQL orders rows as the answer orders their facts. -/
theorem sqlNotOlder_iff {codec : SessionCodec} (h : HoldFacts codec rows factOf) (hdates : DatesOrdered rows)
    {a b : EventRow} (ha : a ∈ rows) (hb : b ∈ rows) :
    sqlNotOlder a b = true ↔ notOlder (factOf a) (factOf b) := by
  have hdecA := h.decoded ha
  have hdecB := h.decoded hb
  have hnone : ∀ {x y : EventRow} {s : String}, x ∈ rows → y ∈ rows → x.text "created_at" = none →
      y.text "created_at" = some s → s ≠ "" := by
    rintro x y s hx hy hxt hyt rfl
    rcases hdates with hall | hall
    · exact hall x hx hxt
    · exact hall y hy hyt
  rw [notOlder, hdecA.createdAt, hdecB.createdAt, hdecA.seq, hdecB.seq, sqlNotOlder]
  cases hbt : b.text "created_at" with
  | none =>
    cases hat : a.text "created_at" with
    | none => simp
    | some s => simp [empty_lt (hnone hb ha hbt hat)]
  | some s =>
    cases hat : a.text "created_at" with
    | none =>
      have hne := hnone ha hb hat hbt
      simp [hne, (empty_lt hne).not_gt]
    | some s' => simp

/-- The key of the answer's order. -/
def recentKey (fact : Fact) : (String ×ₗ Int)ᵒᵈ := OrderDual.toDual (toLex (fact.createdAt, fact.seq))

theorem notOlder_iff {a b : Fact} : notOlder a b ↔ recentKey a ≤ recentKey b := by
  rw [recentKey, recentKey, OrderDual.toDual_le_toDual, Prod.Lex.toLex_le_toLex, notOlder]

theorem seq_eq_of_recentKey {a b : Fact} (h : recentKey a = recentKey b) : a.seq = b.seq :=
  congrArg Prod.snd (toLex.injective (OrderDual.toDual.injective h))

/-- The matching rows, in the order of the answer. -/
def matchingRows (ext : Externals) (query : RecentQuery) (factOf : EventRow → Fact) (rows : List EventRow) :
    List EventRow :=
  (rows.filter fun row =>
    recentFactMatches ext (factOf row) query (retractedIds (rows.map factOf))).insertionSort
      fun a b => notOlder (factOf a) (factOf b)

theorem sorted_insertionSort (l : List EventRow) :
    SortedBy (fun row => recentKey (factOf row)) (l.insertionSort fun a b => notOlder (factOf a) (factOf b)) :=
  sortedBy_insertionSort (fun a b => @notOlder_iff (factOf a) (factOf b)) l

/-- The full load answers with the first of the matching rows. -/
theorem recentFromFullLoad_eq (ext : Externals) :
    recentFromFullLoad ext (rows.map factOf) query =
      ((matchingRows ext query factOf rows).take query.limit).map factOf := by
  rw [recentFromFullLoad, finishRecent, List.filter_map, List.map_take, matchingRows]
  exact congrArg (List.take query.limit) (List.map_insertionSort _ _ factOf _ fun _ _ _ _ => Iff.rfl).symm

/-- The indexed path answers with the first of the matching rows that the SQL lets through. -/
theorem finishRecent_indexed_eq (h : HoldFacts env.codec rows factOf) (hdates : DatesOrdered rows) {out : List Fact}
    (hout : recentIndexed env rows query = some out) :
    finishRecent out query =
      (((matchingRows env.ext query factOf rows).filter (recentWhere env query)).take query.limit).map factOf := by
  have hretracted : retractionFacts env rows = .ok ((rows.filter retractionPredicate).map factOf) :=
    mapM_decode fun row hrow => h.decodes row (List.mem_filter.mp hrow).1
  have hwalk : walkPages (max 64 (min query.limit 1024)) query.limit
      (fun fact => recentFactMatches env.ext fact query (retractedIds (rows.map factOf)))
      ((recentRows env query rows).map factOf) recentPagesLeft 0 [] = some out := by
    have hsame := funext fun fact : Fact =>
      @recentFactMatches_congr env query fact _ _ fun id => mem_retractedIds_filter h
    rw [recentIndexed, hretracted] at hout
    simp only [walk_eq_walkPages h, hsame] at hout
    exact hout
  -- the rows come in the order of their facts
  have hrows : recentRows env query rows =
      (rows.filter (recentWhere env query)).insertionSort fun a b => notOlder (factOf a) (factOf b) := by
    have hmap := List.map_insertionSort (fun a b => sqlNotOlder a b = true)
      (fun a b => notOlder (factOf a) (factOf b)) id
      (rows.filter (recentWhere env query)) fun a ha b hb =>
        sqlNotOlder_iff h hdates (List.mem_filter.mp ha).1 (List.mem_filter.mp hb).1
    simpa [recentRows] using hmap
  have hsorted : SortedBy (fun row => recentKey (factOf row)) (recentRows env query rows) := by
    rw [hrows]
    exact sorted_insertionSort _
  have houtSorted : out.insertionSort notOlder = out := by
    refine List.Pairwise.insertionSort_eq ?_
    have hpair : ((recentRows env query rows).map factOf).Pairwise notOlder :=
      List.pairwise_map.mpr (hsorted.imp fun hle => notOlder_iff.mpr hle)
    exact hpair.sublist (sublist_of_walk hwalk)
  have hfilter : (recentRows env query rows).filter (fun row =>
      recentFactMatches env.ext (factOf row) query (retractedIds (rows.map factOf))) =
        (matchingRows env.ext query factOf rows).filter (recentWhere env query) := by
    refine eq_of_perm_of_sorted ?_ (hsorted.filter _)
      ((sorted_insertionSort _).filter _) fun a ha b hb hkey => ?_
    · rw [hrows, matchingRows]
      refine ((List.perm_insertionSort _ _).filter _).trans (.trans ?_ ((List.perm_insertionSort _ _).filter _).symm)
      rw [List.filter_filter, List.filter_filter]
      exact .of_eq (List.filter_congr fun row _ => Bool.and_comm _ _)
    · exact h.eq_of_seq (mem_recentRows.mp (List.mem_filter.mp ha).1).1
        (mem_recentRows.mp (List.mem_filter.mp hb).1).1 (seq_eq_of_recentKey hkey)
  rw [finishRecent, houtSorted, take_of_walk hwalk, List.filter_map, List.map_take]
  exact congrArg (fun l : List EventRow => (l.map factOf).take query.limit) hfilter

/-- A row stands among the first of the matching rows exactly when its fact is listed. -/
theorem mem_take_matchingRows_iff (ext : Externals) (h : HoldFacts env.codec rows factOf) :
    row ∈ (matchingRows ext query factOf rows).take query.limit ↔
      row ∈ rows ∧ Listed ext (rows.map factOf) query (factOf row) := by
  have hmem : ∀ {row}, row ∈ matchingRows ext query factOf rows ↔
      row ∈ rows ∧ recentFactMatches ext (factOf row) query (retractedIds (rows.map factOf)) = true := by
    intro row
    rw [matchingRows, List.mem_insertionSort, List.mem_filter]
  have hstrict : (matchingRows ext query factOf rows).Pairwise fun a b => newer (factOf a) (factOf b) := by
    have hnodup : (matchingRows ext query factOf rows).Nodup :=
      ((List.perm_insertionSort _ _).nodup_iff.mpr (List.Nodup.filter _ (List.Nodup.of_map _ h.distinct)))
    refine ((sorted_insertionSort _).and hnodup).imp_of_mem fun {a b} ha hb hab => ?_
    obtain ⟨hle, hne⟩ := hab
    have hseq : (factOf a).seq ≠ (factOf b).seq := fun hseq =>
      hne (h.eq_of_seq (hmem.mp ha).1 (hmem.mp hb).1 hseq)
    rcases notOlder_iff.mpr hle with hlt | ⟨heq, hle'⟩
    · exact .inl hlt
    · exact .inr ⟨heq, lt_of_le_of_ne hle' hseq.symm⟩
  have hcount : ((matchingRows ext query factOf rows).filter fun other =>
      decide (newer (factOf other) (factOf row))).length =
        ((rows.map factOf).filter fun other => recentFactMatches ext other query (retractedIds (rows.map factOf)) &&
          decide (newer other (factOf row))).length := by
    rw [List.filter_map, List.length_map, matchingRows,
      ((List.perm_insertionSort _ _).filter _).length_eq, List.filter_filter]
    exact congrArg List.length (List.filter_congr fun other _ => Bool.and_comm _ _)
  rw [mem_take_iff (r := fun a b => newer (factOf a) (factOf b)) ?_ ?_ hstrict, hmem, hcount, Listed, and_assoc]
  · rintro a (hlt | ⟨-, hlt⟩)
    · exact absurd hlt (lt_irrefl _)
    · exact absurd hlt (lt_irrefl _)
  · rintro a b (hlt | ⟨heq, hlt⟩) (hlt' | ⟨heq', hlt'⟩)
    · exact absurd (hlt.trans hlt') (lt_irrefl _)
    · exact absurd hlt (heq' ▸ lt_irrefl _)
    · exact absurd hlt' (heq ▸ lt_irrefl _)
    · exact absurd (hlt.trans hlt') (lt_irrefl _)

/-- **The two answers part** exactly at a listed row that the SQL does not let through. -/
theorem finishRecent_indexed_eq_iff (h : HoldFacts env.codec rows factOf) (hdates : DatesOrdered rows)
    {out : List Fact} (hout : recentIndexed env rows query = some out) :
    finishRecent out query = recentFromFullLoad env.ext (rows.map factOf) query ↔
      ∀ row ∈ rows, Listed env.ext (rows.map factOf) query (factOf row) → recentWhere env query row = true := by
  rw [finishRecent_indexed_eq h hdates hout, recentFromFullLoad_eq]
  constructor
  · intro heq row hrow hlisted
    have hmem : factOf row ∈ ((matchingRows env.ext query factOf rows).take query.limit).map factOf :=
      List.mem_map_of_mem ((mem_take_matchingRows_iff env.ext h).mpr ⟨hrow, hlisted⟩)
    rw [← heq] at hmem
    obtain ⟨row', hrow', hsame⟩ := List.mem_map.mp hmem
    obtain ⟨hmatching, hwhere⟩ := List.mem_filter.mp (List.mem_of_mem_take hrow')
    rw [matchingRows, List.mem_insertionSort, List.mem_filter] at hmatching
    rwa [← h.eq_of_seq hmatching.1 hrow (congrArg Fact.seq hsame)]
  · intro hall
    refine congrArg (List.map factOf) (take_filter_eq_iff.mpr fun row hrow => ?_)
    obtain ⟨hmem, hlisted⟩ := (mem_take_matchingRows_iff env.ext h).mp hrow
    exact hall row hmem hlisted

end Listing

/-- **The bounded listing.** When the indexed path answers, over rows of distinct sequence, its answer is the full
load's exactly if every listed fact survives the SQL: a payload whose kind is unknown spells no excluded kind, no text
has a blank behind the date on which the earliest bound less a day falls, none has a small `t` behind the date of the
latest bound and a day, and that bound stays within years of four digits. -/
theorem recentFacts_iff (env : RecentEnv) (query : RecentQuery) {rows : List EventRow} {all out : List Fact}
    (hread : ReadsStamps env.ext) (hwrite : ∀ t ∈ widenedBounds env.ext query, WritesStamp env.toRfc3339Secs t)
    (hall : rows.mapM (EventRow.decode env.codec) = .ok all) (hseqs : (all.map fun fact => fact.seq).Nodup)
    (hdates : DatesOrdered rows) (harchived : query.includeArchived = true)
    (hout : recentIndexed env rows query = some out) :
    finishRecent out query = recentFromFullLoad env.ext all query ↔
      ∀ row ∈ rows, ∀ fact, row.decode env.codec = .ok fact → Listed env.ext all query fact →
        Survives env query row fact := by
  obtain ⟨hdecode, hall'⟩ := mapM_ok_iff.mp hall
  have hdecodes : ∀ row ∈ rows, row.decode env.codec = .ok ((row.decode env.codec).toOption.getD {}) := by
    intro row hrow
    obtain ⟨fact, hfact⟩ := hdecode row hrow
    rw [hfact]
    rfl
  obtain ⟨factOf, hfactOf⟩ : ∃ factOf : EventRow → Fact,
      factOf = fun row => (row.decode env.codec).toOption.getD {} := ⟨_, rfl⟩
  have hsame : all = rows.map factOf := by
    rw [hfactOf]
    exact Except.ok.inj (hall.symm.trans (mapM_decode hdecodes))
  subst hsame
  have hhold : HoldFacts env.codec rows factOf :=
    ⟨by rw [hfactOf]; exact hdecodes, by simpa [Function.comp_def] using hseqs⟩
  rw [finishRecent_indexed_eq_iff hhold hdates hout]
  constructor
  · intro h row hrow fact hfact hlisted
    obtain rfl : fact = factOf row := Except.ok.inj (hfact.symm.trans (hhold.decodes row hrow))
    exact (recentWhere_iff hread (hhold.decoded hrow) hwrite harchived hlisted.1).mp (h row hrow hlisted)
  · intro h row hrow hlisted
    exact (recentWhere_iff hread (hhold.decoded hrow) hwrite harchived hlisted.1).mpr
      (h row hrow _ (hhold.decodes row hrow) hlisted)

namespace Recent

/-- The instants of the sample, as their texts are read and written. -/
def env : RecentEnv where
  ext := { Externals.sample with
    parseFromRfc3339 := fun raw =>
      if raw = "2026-01-02T05:00:00Z" then some (1767330000 * 10 ^ 9)
      else if raw = "2026-01-02T05:30:00Z" then some (1767331800 * 10 ^ 9)
      else if raw = "2026-01-01 19:30:00-10:00" then some (1767331800 * 10 ^ 9)
      else if raw = "2026-01-02T06:00:00Z" then some (1767333600 * 10 ^ 9)
      else if raw = "9999-12-31T12:00:00Z" then some (253402257600 * 10 ^ 9)
      else none }
  codec := .sample
  toRfc3339Secs t :=
    if t = 1767243600 * 10 ^ 9 then "2026-01-01T05:00:00Z"
    else if t = 1767420000 * 10 ^ 9 then "2026-01-03T06:00:00Z"
    else if t = 253402344000 * 10 ^ 9 then "+10000-01-01T12:00:00Z"
    else "1970-01-01T00:00:00Z"
  archiveCutoff _ := none

/-- A decision at half past five, in UTC and as Honolulu writes it with a blank. -/
def decision : Fact :=
  { eventId := "d1", seq := 1, kind := .decision, tool := some "alice", subject := "format"
    createdAt := "2026-01-02T05:30:00Z" }

def honolulu : Fact := { decision with createdAt := "2026-01-01 19:30:00-10:00" }

def rowOf (fact : Fact) : EventRow := ⟨fact.seq, factToWire .sample fact⟩

/-- A row of a kind that this program does not know. -/
def pollRow : EventRow :=
  ⟨2, .object [("created_at", .string "2026-01-02T05:30:00Z"), ("event_id", .string "p1"),
    ("kind", .string "poll"), ("seq", .int 2)]⟩

/-- Everything between five and six o'clock. -/
def hourQuery : RecentQuery where
  since := some "2026-01-02T05:00:00Z"
  «until» := some "2026-01-02T06:00:00Z"
  limit := 10
  includeArchived := true

theorem readsStamps : ReadsStamps env.ext := by
  intro raw t h
  simp only [env] at h
  split_ifs at h with h₁ h₂ h₃ h₄ h₅
  all_goals obtain rfl := Option.some.inj h
  · exact ⟨⟨⟨2026, 1, 2⟩, 'T', ⟨5, 0, 0⟩, [], .utc 'Z'⟩, by decide, h₁ ▸ by decide, by decide⟩
  · exact ⟨⟨⟨2026, 1, 2⟩, 'T', ⟨5, 30, 0⟩, [], .utc 'Z'⟩, by decide, h₂ ▸ by decide, by decide⟩
  · exact ⟨⟨⟨2026, 1, 1⟩, ' ', ⟨19, 30, 0⟩, [], .offset '-' 10 0⟩, by decide, h₃ ▸ by decide, by decide⟩
  · exact ⟨⟨⟨2026, 1, 2⟩, 'T', ⟨6, 0, 0⟩, [], .utc 'Z'⟩, by decide, h₄ ▸ by decide, by decide⟩
  · exact ⟨⟨⟨9999, 12, 31⟩, 'T', ⟨12, 0, 0⟩, [], .utc 'Z'⟩, by decide, h₅ ▸ by decide, by decide⟩

theorem writesStamps : ∀ t ∈ widenedBounds env.ext hourQuery, WritesStamp env.toRfc3339Secs t := by
  have hbounds : widenedBounds env.ext hourQuery = [1767243600 * 10 ^ 9, 1767420000 * 10 ^ 9] := by decide
  rw [hbounds]
  intro t ht
  rcases List.mem_pair.mp ht with rfl | rfl
  · refine ⟨fun _ _ => ?_, fun hlate => absurd hlate (by decide), fun hearly => absurd hearly (by decide)⟩
    exact ⟨⟨⟨2026, 1, 1⟩, 'T', ⟨5, 0, 0⟩, [], .utc 'Z'⟩, by decide, rfl, rfl, by decide, by decide, by decide⟩
  · refine ⟨fun _ _ => ?_, fun hlate => absurd hlate (by decide), fun hearly => absurd hearly (by decide)⟩
    exact ⟨⟨⟨2026, 1, 3⟩, 'T', ⟨6, 0, 0⟩, [], .utc 'Z'⟩, by decide, rfl, rfl, by decide, by decide, by decide⟩

end Recent

/-- A decision of that hour, written with a `T`, is in both answers. -/
theorem recentFacts_iff_hour :
    recentIndexed Recent.env [Recent.rowOf Recent.decision] Recent.hourQuery = some [Recent.decision] ∧
      finishRecent [Recent.decision] Recent.hourQuery =
        recentFromFullLoad Recent.env.ext [Recent.decision] Recent.hourQuery := by
  have hout : recentIndexed Recent.env [Recent.rowOf Recent.decision] Recent.hourQuery =
      some [Recent.decision] := by decide
  refine ⟨hout, (recentFacts_iff Recent.env Recent.hourQuery Recent.readsStamps Recent.writesStamps rfl (by decide)
    (.inl (by decide)) rfl hout).mpr ?_⟩
  intro row hrow fact hfact hlisted
  obtain rfl := List.mem_singleton.mp hrow
  obtain rfl : Recent.decision = fact := Except.ok.inj hfact
  refine ⟨fun hunknown => absurd hunknown (by decide), fun bound hbound => ?_, fun d hd => ?_⟩
  · obtain rfl : "2026-01-01T05:00:00Z" = bound := Option.some.inj hbound
    decide
  · obtain rfl : 1767333600 * 10 ^ 9 = d := Option.some.inj hd
    decide

/-- The indexed path drops the same decision written with a blank, drops everything when the latest bound and a day
lie behind the year 9999, and drops a fact of a kind it does not know by the name that kind is spelled with. -/
theorem recentFacts_counterexample :
    (recentIndexed Recent.env [Recent.rowOf Recent.honolulu] Recent.hourQuery = some [] ∧
      recentFromFullLoad Recent.env.ext [Recent.honolulu] Recent.hourQuery = [Recent.honolulu]) ∧
    (recentIndexed Recent.env [Recent.rowOf Recent.decision]
        { limit := 10, includeArchived := true, «until» := some "9999-12-31T12:00:00Z" } = some [] ∧
      recentFromFullLoad Recent.env.ext [Recent.decision]
        { limit := 10, includeArchived := true, «until» := some "9999-12-31T12:00:00Z" } = [Recent.decision]) ∧
    (Recent.pollRow.decode .sample =
        .ok { eventId := "p1", seq := 2, kind := .unknown, createdAt := "2026-01-02T05:30:00Z" } ∧
      recentIndexed Recent.env [Recent.pollRow] { limit := 10, includeArchived := true, excludeKinds := ["poll"] } =
        some [] ∧
      recentFromFullLoad Recent.env.ext
          [{ eventId := "p1", seq := 2, kind := .unknown, createdAt := "2026-01-02T05:30:00Z" }]
          { limit := 10, includeArchived := true, excludeKinds := ["poll"] } =
        [{ eventId := "p1", seq := 2, kind := .unknown, createdAt := "2026-01-02T05:30:00Z" }]) := by
  exact ⟨⟨by decide, by decide⟩, ⟨by decide, by decide⟩, rfl, by decide, by decide⟩

end RallyPoint
