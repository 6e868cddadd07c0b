/-
# RallyPoint.Rotation — moving old segments from the log to the archive (`rotate.rs`).

A rotation plans every segment whose rows are all older than a cutoff, and installs the plans one by one: a
hard link under an archive name that nothing holds, then the unlink of the live name. It may stop between any
two of these steps and start again. A segment that was already linked is recognised as an exact copy; a name
that holds something else sends the segment on to the next generation of its name.

No step changes the room's history or an archived file. What an engagement is given does change, exactly when
an effect does not keep the facts (`rotation_keeps_history`): when a row without a stamp moves to a generation
of its file's name, which no longer names its engagement (`rotation_loses_unstamped_rows`), or when a linked
row was not live where its stamp says.
-/
import Mathlib.Logic.Relation
import RallyPoint.Replay

namespace RallyPoint

open Lib

/-! ## Archive names -/

def u32Max : Nat := 4294967295

/-- `{generation:04}`. -/
def pad4 (n : Nat) : String := String.ofList ((Nat.toDigits 10 n).leftpad 4 '0')

def archiveTargetName (segment : String) (generation : Nat) : Result String :=
  if generation = 0 then .ok segment
  else
    match stripSuffix ".jsonl" segment with
    | some stem => .ok (stem ++ ".rotated-" ++ pad4 generation ++ ".jsonl")
    | none => .error (.message s!"rotation source is not a JSONL segment: {segment}")

/-- Where a segment may go: a name that is free, or one that holds the segment already. -/
inductive ArchiveTarget
  | missing (name : String)
  | exactCopy (name : String)
  deriving DecidableEq, Repr

def ArchiveTarget.name : ArchiveTarget → String
  | .missing name | .exactCopy name => name

/-- The loop of `choose_archive_target`; `remaining` generations are left after this one. -/
def chooseFrom (archive : RowDir) (segment : String) (source : List SegmentRow) :
    Nat → Nat → Result ArchiveTarget
  | remaining, generation =>
    match archiveTargetName segment generation with
    | .error e => .error e
    | .ok candidate =>
      match archive.lookup candidate with
      | none => .ok (.missing candidate)
      | some content =>
        if source = content then .ok (.exactCopy candidate)
        else
          match remaining with
          | 0 => .error (.message s!"rotation archive generation overflow for {segment}")
          | remaining + 1 => chooseFrom archive segment source remaining (generation + 1)

/-- The reserved archive name is never replayed, so a segment of that name starts at generation 1. -/
def chooseArchiveTarget (archive : RowDir) (segment : String) (source : List SegmentRow) :
    Result ArchiveTarget :=
  let generation := if segment = archivedMonolithFilename then 1 else 0
  chooseFrom archive segment source (u32Max - generation) generation

/-! ## Planning -/

/-- `segment_max_occurred_at`: the latest instant of a segment, none when it has no row. -/
def segmentMaxOccurredAt (ext : Externals) (path : String) : List SegmentRow → Result (Option Int)
  | [] => .ok none
  | row :: rest =>
    match ext.parseFromRfc3339 row.occurredAt with
    | none => .error (.message
        s!"canonical segment {path} has invalid occurred_at {String.quote row.occurredAt}")
    | some instant =>
      (segmentMaxOccurredAt ext path rest).map fun latest => some (latest.elim instant (max instant))

/-- What is left to do for one segment. -/
inductive RotationJob
  | install (segment : String) (planned : ArchiveTarget)
  | unlink (segment target : String)
  deriving DecidableEq, Repr

/-- The loop over the live segments: a recent row keeps its segment live, so does the lack of any row. -/
def planSegments (ext : Externals) (archive : RowDir) (cutoff : Int) :
    List (String × List SegmentRow) → Result (List RotationJob)
  | [] => .ok []
  | (segment, rows) :: rest =>
    match segmentMaxOccurredAt ext segment rows with
    | .error e => .error e
    | .ok none => planSegments ext archive cutoff rest
    | .ok (some latest) =>
      if latest > cutoff then planSegments ext archive cutoff rest
      else
        match chooseArchiveTarget archive segment rows with
        | .error e => .error e
        | .ok target => (planSegments ext archive cutoff rest).map (.install segment target :: ·)

/-- Everything `run_rotate` decides before its first effect: the whole archive must be sound. -/
def planRotation (ext : Externals) (log archive : RowDir) (cutoff : Int) : Result (List RotationJob) :=
  match (readSegmentFiles archive).mapM fun f => segmentMaxOccurredAt ext f.1 f.2 with
  | .error e => .error e
  | .ok _ => planSegments ext archive cutoff (readSegmentFiles log)

/-! ## Installing -/

/-- The two directories, and what the rotation that holds the room's lock has still to do. -/
structure RotationState where
  log : RowDir
  archive : RowDir
  jobs : List RotationJob := []

/-- The next effect of `durable_install_rotation`. A link that finds its name taken chooses again. -/
def RotationState.advance (s : RotationState) : Result RotationState :=
  match s.jobs with
  | [] => .ok s
  | .install segment (.exactCopy target) :: rest => .ok { s with jobs := .unlink segment target :: rest }
  | .install segment (.missing target) :: rest =>
    match s.log.lookup segment with
    | none => .error (.message s!"install rotation archive link {segment} -> {target}")
    | some rows =>
      if (s.archive.lookup target).isSome then
        (chooseArchiveTarget s.archive segment rows).map fun planned =>
          { s with jobs := .install segment planned :: rest }
      else .ok { s with archive := s.archive.insert target rows, jobs := .unlink segment target :: rest }
  | .unlink segment _ :: rest =>
    if (s.log.lookup segment).isSome then .ok { s with log := s.log.erase segment, jobs := rest }
    else .error (.message s!"unlink rotated source {segment}")

/-- A step of a rotation: it starts when none is under way, has its next effect, or stops where it is. -/
inductive RotationStep (ext : Externals) : RotationState → RotationState → Prop
  | start {s : RotationState} {cutoff : Int} {jobs : List RotationJob} : s.jobs = [] →
      planRotation ext s.log s.archive cutoff = .ok jobs → RotationStep ext s { s with jobs := jobs }
  | advance {s s' : RotationState} : s.advance = .ok s' → RotationStep ext s s'
  | stop {s : RotationState} : RotationStep ext s { s with jobs := [] }

/-- A step of the room: a rotation's, or a new segment under a name the log does not have. -/
inductive RoomStep (ext : Externals) : RotationState → RotationState → Prop
  | rotate {s s' : RotationState} : RotationStep ext s s' → RoomStep ext s s'
  | write {s : RotationState} {name : String} {rows : List SegmentRow} : s.jobs = [] →
      s.log.lookup name = none → RoomStep ext s { s with log := s.log.insert name rows }

/-! ## Names -/

section Names

variable {segment target : String} {generation remaining : Nat} {archive : RowDir} {source : List SegmentRow}

/-- A generation's digits. -/
theorem isDigit_of_mem_pad4 {c : Char} (h : c ∈ (pad4 generation).toList) : c.isDigit = true := by
  rw [pad4, String.toList_ofList, List.leftpad, List.mem_append] at h
  rcases h with h | h
  · rw [List.eq_of_mem_replicate h]
    rfl
  · exact Nat.isDigit_of_mem_toDigits (by decide) (by decide) h

theorem pad4_ne_nil : (pad4 generation).toList ≠ [] := by
  rw [pad4, String.toList_ofList]
  intro h
  have hlen := congrArg List.length h
  rw [List.length_leftpad, List.length_nil] at hlen
  omega

/-- A generation of a segment's name is again a segment's. -/
theorem isSegmentFile_generation {stem : String} (h : isSegmentFile (stem ++ ".jsonl") = true) :
    isSegmentFile (stem ++ ".rotated-" ++ pad4 generation ++ ".jsonl") = true := by
  unfold isSegmentFile at h ⊢
  rw [stripSuffix_eq_some_iff.mpr rfl, Bool.and_eq_true] at h ⊢
  obtain ⟨hstem, htmp⟩ := h
  constructor
  · rw [Option.any_some, bne_iff_ne]
    intro h
    have hlen := congrArg (fun t => t.toList.length) h
    simp [String.toList_append] at hlen
  · rw [Bool.not_eq_true', Bool.eq_false_iff, Ne, containsStr_iff] at htmp ⊢
    simp only [String.toList_append, List.append_assoc] at htmp ⊢
    have hin : ¬".tmp-".toList <:+: stem.toList := fun h => htmp (h.trans (List.prefix_append _ _).isInfix)
    have hdigits : ¬".tmp-".toList <:+: (pad4 generation).toList := by
      intro h
      have hdot := isDigit_of_mem_pad4 (h.subset (show '.' ∈ ".tmp-".toList by decide))
      exact absurd hdot (by decide)
    have hnodigit : ".tmp-".toList.tail.all (fun c => !c.isDigit) = true := by decide
    have hnodot : '.' ∉ ".tmp-".toList.tail := by decide
    have hdot : ".jsonl".toList.head? = some '.' := by decide
    -- none of the pieces begins with one of the characters behind the first
    refine not_infix_append hin
      (not_infix_append (by decide) (not_infix_append hdigits (by decide) ?_) ?_) ?_
    · intro c hc hhead
      rw [hdot] at hhead
      exact hnodot (Option.some.inj hhead ▸ hc)
    · intro c hc hhead
      obtain ⟨d, ds, hpad⟩ := List.exists_cons_of_ne_nil (@pad4_ne_nil generation)
      rw [hpad] at hhead
      obtain rfl := Option.some.inj hhead
      have hdigit : d.isDigit = true := isDigit_of_mem_pad4 (hpad ▸ List.mem_cons_self)
      have hnot := List.all_eq_true.mp hnodigit d hc
      rw [hdigit] at hnot
      cases hnot
    · intro c hc hhead
      simp only [List.head?_append] at hhead
      have hseam : c = '.' := by simpa using hhead.symm
      exact hnodot (hseam ▸ hc)

/-- A generation's name is never the reserved one: it has two dots. -/
theorem generation_ne_monolith (stem : String) :
    stem ++ ".rotated-" ++ pad4 generation ++ ".jsonl" ≠ archivedMonolithFilename := by
  intro h
  have hstem : stem ++ ".rotated-" ++ pad4 generation = "ledger-pre-segment" := by
    have hmono : archivedMonolithFilename = "ledger-pre-segment" ++ ".jsonl" := by decide
    rw [hmono, ← String.toList_inj, @String.toList_append _ ".jsonl", @String.toList_append _ ".jsonl"] at h
    exact String.toList_inj.mp (List.append_cancel_right h)
  have hdot : '.' ∈ "ledger-pre-segment".toList := by
    rw [← hstem]
    simp [String.toList_append]
  exact absurd hdot (by decide)

theorem archiveTargetName_replayed (hseg : isSegmentFile segment = true)
    (hstart : segment = archivedMonolithFilename → generation ≠ 0)
    (h : archiveTargetName segment generation = .ok target) : Replayed target := by
  unfold archiveTargetName at h
  split at h
  case isTrue hzero =>
    rw [← Except.ok.inj h]
    exact ⟨hseg, fun hmono => hstart hmono hzero⟩
  case isFalse =>
    split at h
    case _ stem hstem =>
      rw [← Except.ok.inj h]
      rw [stripSuffix_eq_some_iff] at hstem
      subst hstem
      exact ⟨isSegmentFile_generation hseg, generation_ne_monolith stem⟩
    case _ => cases h

theorem chooseFrom_spec {planned : ArchiveTarget} (hseg : isSegmentFile segment = true)
    (hstart : segment = archivedMonolithFilename → generation ≠ 0)
    (h : chooseFrom archive segment source remaining generation = .ok planned) :
    Replayed planned.name ∧ ∀ name, planned = .exactCopy name → archive.lookup name = some source := by
  fun_induction chooseFrom archive segment source remaining generation with
  | case1 => cases h
  | case2 remaining generation candidate hname hfree =>
    rw [← Except.ok.inj h]
    exact ⟨archiveTargetName_replayed hseg hstart hname, fun name heq => ArchiveTarget.noConfusion heq⟩
  | case3 remaining generation candidate hname hcontent =>
    rw [← Except.ok.inj h]
    refine ⟨archiveTargetName_replayed hseg hstart hname, fun name heq => ?_⟩
    rw [← ArchiveTarget.exactCopy.inj heq]
    exact hcontent
  | case4 => cases h
  | case5 generation candidate hname content hcontent hdiffers remaining ih =>
    exact ih (fun _ => Nat.succ_ne_zero _) h

theorem chooseArchiveTarget_spec {planned : ArchiveTarget} (hseg : isSegmentFile segment = true)
    (h : chooseArchiveTarget archive segment source = .ok planned) :
    Replayed planned.name ∧ ∀ name, planned = .exactCopy name → archive.lookup name = some source := by
  refine chooseFrom_spec hseg (fun hmono => ?_) h
  rw [if_pos hmono]
  exact Nat.one_ne_zero

end Names

/-! ## Runs -/

def RotationJob.segment : RotationJob → String
  | .install segment _ | .unlink segment _ => segment

/-- What a rotation knows of a job: its segment is live, its target is replayed, and a target that is taken for
a copy is one. -/
def JobSound (log archive : RowDir) : RotationJob → Prop
  | .install segment planned => ∃ rows, log.lookup segment = some rows ∧ isSegmentFile segment = true ∧
      Replayed planned.name ∧ ∀ name, planned = .exactCopy name → archive.lookup name = some rows
  | .unlink segment target => ∃ rows, log.lookup segment = some rows ∧ isSegmentFile segment = true ∧
      Replayed target ∧ archive.lookup target = some rows

/-- The invariant of a rotation under way. -/
structure RotationSound (s : RotationState) : Prop where
  jobs : ∀ job ∈ s.jobs, JobSound s.log s.archive job
  distinct : (s.jobs.map RotationJob.segment).Nodup

/-- Every archived file is still there, with its content. -/
def ArchiveKept (s s' : RotationState) : Prop :=
  ∀ name rows, s.archive.lookup name = some rows → s'.archive.lookup name = some rows

section Runs

variable {ext : Externals} {s s' s₁ s₂ : RotationState} {log archive log' archive' : RowDir}
variable {jobs : List RotationJob} {cutoff : Int} {codec : SegmentCodec}

theorem ArchiveKept.refl (s : RotationState) : ArchiveKept s s := fun _ _ h => h

theorem ArchiveKept.trans (h : ArchiveKept s s₁) (h' : ArchiveKept s₁ s₂) : ArchiveKept s s₂ :=
  fun name rows hrows => h' name rows (h name rows hrows)

/-- A job stays sound while its segment stays live and the archive keeps its files. -/
theorem JobSound.mono {job : RotationJob} (h : JobSound log archive job)
    (hlog : log'.lookup job.segment = log.lookup job.segment)
    (harchive : ∀ name rows, archive.lookup name = some rows → archive'.lookup name = some rows) :
    JobSound log' archive' job := by
  cases job with
  | install segment planned =>
    obtain ⟨rows, hrows, hseg, hreplayed, hcopy⟩ := h
    exact ⟨rows, hlog.trans hrows, hseg, hreplayed, fun name hname => harchive name rows (hcopy name hname)⟩
  | unlink segment target =>
    obtain ⟨rows, hrows, hseg, hreplayed, hcopy⟩ := h
    exact ⟨rows, hlog.trans hrows, hseg, hreplayed, harchive target rows hcopy⟩

theorem planSegments_spec {files : List (String × List SegmentRow)}
    (h : planSegments ext archive cutoff files = .ok jobs) :
    (jobs.map RotationJob.segment).Sublist (files.map Prod.fst) ∧
      ∀ job ∈ jobs, ∃ segment rows planned, (segment, rows) ∈ files ∧
        chooseArchiveTarget archive segment rows = .ok planned ∧ job = .install segment planned := by
  induction files generalizing jobs with
  | nil =>
    rw [planSegments] at h
    rw [← Except.ok.inj h]
    exact ⟨List.nil_sublist _, fun job hjob => absurd hjob List.not_mem_nil⟩
  | cons file rest ih =>
    obtain ⟨segment, rows⟩ := file
    -- a segment that stays live adds no job
    have hskip : planSegments ext archive cutoff rest = .ok jobs →
        (jobs.map RotationJob.segment).Sublist (((segment, rows) :: rest).map Prod.fst) ∧
          ∀ job ∈ jobs, ∃ segment' rows' planned, (segment', rows') ∈ (segment, rows) :: rest ∧
            chooseArchiveTarget archive segment' rows' = .ok planned ∧ job = .install segment' planned := by
      intro hrest
      obtain ⟨hsub, hjobs⟩ := ih hrest
      refine ⟨hsub.cons _, fun job hjob => ?_⟩
      obtain ⟨segment', rows', planned, hmem, hrest⟩ := hjobs job hjob
      exact ⟨segment', rows', planned, List.mem_cons_of_mem _ hmem, hrest⟩
    rw [planSegments] at h
    split at h
    · cases h
    · exact hskip h
    · split at h
      · exact hskip h
      · split at h
        case _ => cases h
        case _ target htarget =>
          obtain ⟨jobs', hjobs', rfl⟩ := map_eq_ok_iff.mp h
          obtain ⟨hsub, hall⟩ := ih hjobs'
          refine ⟨hsub.cons_cons _, List.forall_mem_cons.mpr ⟨?_, fun job hjob => ?_⟩⟩
          · exact ⟨segment, rows, target, List.mem_cons_self, htarget, rfl⟩
          · obtain ⟨segment', rows', planned, hmem, hrest⟩ := hall job hjob
            exact ⟨segment', rows', planned, List.mem_cons_of_mem _ hmem, hrest⟩

/-- A plan is sound where it was made. -/
theorem planRotation_sound (h : planRotation ext s.log s.archive cutoff = .ok jobs) :
    RotationSound { s with jobs := jobs } := by
  unfold planRotation at h
  split at h
  case _ => cases h
  case _ =>
    obtain ⟨hsub, hjobs⟩ := planSegments_spec h
    refine ⟨fun job hjob => ?_, (nodup_readSegmentFiles s.log).sublist hsub⟩
    obtain ⟨segment, rows, planned, hmem, hchoose, rfl⟩ := hjobs job hjob
    obtain ⟨hlookup, hseg⟩ := mem_readSegmentFiles.mp hmem
    obtain ⟨hreplayed, hcopy⟩ := chooseArchiveTarget_spec hseg hchoose
    exact ⟨rows, hlookup, hseg, hreplayed, hcopy⟩

/-- The next effect is the link of a live segment under a free archive name. -/
structure RotationState.Links (s : RotationState) (segment target : String) (rows : List SegmentRow) : Prop where
  next : ∃ rest, s.jobs = .install segment (.missing target) :: rest
  live : s.log.lookup segment = some rows
  free : s.archive.lookup target = none

/-- The next effect is the unlink of a live segment. -/
structure RotationState.Unlinks (s : RotationState) (segment target : String) (rows : List SegmentRow) : Prop where
  next : ∃ rest, s.jobs = .unlink segment target :: rest
  live : s.log.lookup segment = some rows

/-- **What an effect does** to the two directories: nothing, or a link under a free name, or the unlink of a
segment that is archived. -/
theorem advance_cases (hsound : RotationSound s) (h : s.advance = .ok s') :
    RotationSound s' ∧
      ((s'.log = s.log ∧ s'.archive = s.archive ∧
        ∀ segment target rows, ¬s.Links segment target rows ∧ ¬s.Unlinks segment target rows) ∨
      (∃ segment target rows, s.Links segment target rows ∧ isSegmentFile segment = true ∧ Replayed target ∧
        s'.log = s.log ∧ s'.archive = s.archive.insert target rows) ∨
      ∃ segment target rows, s.Unlinks segment target rows ∧ s.archive.lookup target = some rows ∧
        Replayed target ∧ s'.log = s.log.erase segment ∧ s'.archive = s.archive) := by
  unfold RotationState.advance at h
  obtain ⟨hjobs, hdistinct⟩ := hsound
  split at h
  case _ hnil =>
    rw [← Except.ok.inj h]
    refine ⟨⟨hjobs, hdistinct⟩, .inl ⟨rfl, rfl, fun _ _ _ => ⟨fun hlinks => ?_, fun hunlinks => ?_⟩⟩⟩
    · obtain ⟨rest, hnext⟩ := hlinks.next
      exact List.cons_ne_nil _ _ (hnext.symm.trans hnil)
    · obtain ⟨rest, hnext⟩ := hunlinks.next
      exact List.cons_ne_nil _ _ (hnext.symm.trans hnil)
  case _ segment target rest hhead =>
    rw [hhead, List.forall_mem_cons] at hjobs
    rw [hhead] at hdistinct
    obtain ⟨⟨rows, hrows, hseg, hreplayed, hcopy⟩, hrest⟩ := hjobs
    rw [← Except.ok.inj h]
    refine ⟨⟨List.forall_mem_cons.mpr ⟨?_, hrest⟩, hdistinct⟩, .inl ⟨rfl, rfl, fun _ _ _ => ⟨?_, ?_⟩⟩⟩
    · exact ⟨rows, hrows, hseg, hreplayed, hcopy target rfl⟩
    · rintro ⟨⟨_, hnext⟩, -, -⟩
      cases hhead.symm.trans hnext
    · rintro ⟨⟨_, hnext⟩, -⟩
      cases hhead.symm.trans hnext
  case _ segment target rest hhead =>
    rw [hhead, List.forall_mem_cons] at hjobs
    rw [hhead] at hdistinct
    obtain ⟨⟨rows, hrows, hseg, hreplayed, -⟩, hrest⟩ := hjobs
    rw [hrows] at h
    dsimp only at h
    split at h
    case isTrue htaken =>
      obtain ⟨planned, hplanned, rfl⟩ := map_eq_ok_iff.mp h
      refine ⟨⟨List.forall_mem_cons.mpr ⟨?_, hrest⟩, hdistinct⟩, .inl ⟨rfl, rfl, fun _ _ _ => ⟨?_, ?_⟩⟩⟩
      · exact ⟨rows, hrows, hseg, chooseArchiveTarget_spec hseg hplanned⟩
      · rintro ⟨⟨_, hnext⟩, -, hfree⟩
        cases hhead.symm.trans hnext
        rw [hfree] at htaken
        cases htaken
      · rintro ⟨⟨_, hnext⟩, -⟩
        cases hhead.symm.trans hnext
    case isFalse hfree =>
      rw [Option.not_isSome_iff_eq_none] at hfree
      rw [← Except.ok.inj h]
      have hkept : ∀ name rows', s.archive.lookup name = some rows' →
          (s.archive.insert target rows).lookup name = some rows' := by
        intro name rows' hname
        have hne : name ≠ target := fun heq => by
          rw [heq, hfree] at hname
          cases hname
        exact (AList.lookup_insert_ne hne).trans hname
      refine ⟨⟨List.forall_mem_cons.mpr ⟨?_, fun job hjob => ?_⟩, hdistinct⟩,
        .inr (.inl ⟨segment, target, rows, ⟨⟨rest, hhead⟩, hrows, hfree⟩, hseg, hreplayed, rfl, rfl⟩)⟩
      · exact ⟨rows, hrows, hseg, hreplayed, AList.lookup_insert _⟩
      · exact (hrest job hjob).mono rfl hkept
  case _ segment target rest hhead =>
    rw [hhead, List.forall_mem_cons] at hjobs
    rw [hhead, List.map_cons, List.nodup_cons] at hdistinct
    obtain ⟨⟨rows, hrows, hseg, hreplayed, hcopy⟩, hrest⟩ := hjobs
    rw [hrows, Option.isSome_some, if_pos rfl] at h
    rw [← Except.ok.inj h]
    refine ⟨⟨fun job hjob => (hrest job hjob).mono ?_ fun _ _ => id, hdistinct.2⟩,
      .inr (.inr ⟨segment, target, rows, ⟨⟨rest, hhead⟩, hrows⟩, hcopy, hreplayed, rfl, rfl⟩)⟩
    -- the segments of the jobs are distinct, so this one is not waited for
    have hne : job.segment ≠ segment := fun heq => hdistinct.1 (List.mem_map.mpr ⟨job, hjob, heq⟩)
    exact AList.lookup_erase_ne hne

/-- Starting and stopping have no effect on the directories. -/
theorem RotationStep.cases (hsound : RotationSound s) (h : RotationStep ext s s') :
    RotationSound s' ∧
      ((s'.log = s.log ∧ s'.archive = s.archive) ∨
      (∃ segment target rows, s.Links segment target rows ∧ isSegmentFile segment = true ∧ Replayed target ∧
        s'.log = s.log ∧ s'.archive = s.archive.insert target rows) ∨
      ∃ segment target rows, s.Unlinks segment target rows ∧ s.archive.lookup target = some rows ∧
        Replayed target ∧ s'.log = s.log.erase segment ∧ s'.archive = s.archive) := by
  cases h with
  | start hidle hplan => exact ⟨planRotation_sound hplan, .inl ⟨rfl, rfl⟩⟩
  | stop => exact ⟨⟨fun job hjob => absurd hjob List.not_mem_nil, List.nodup_nil⟩, .inl ⟨rfl, rfl⟩⟩
  | advance h => exact (advance_cases hsound h).imp_right (Or.imp_left fun ⟨hlog, harchive, _⟩ => ⟨hlog, harchive⟩)

/-- What a rotation must not change: the history of the room. -/
def SameHistory (s s' : RotationState) : Prop :=
  ∀ out, roomEntries s.log s.archive = .ok out ↔ roomEntries s'.log s'.archive = .ok out

/-- Nor the facts of any engagement. -/
def SameEngagements (codec : SegmentCodec) (s s' : RotationState) : Prop :=
  ∀ engagement facts, factsFromEngagementSegments codec s.log s.archive engagement = .ok facts ↔
    factsFromEngagementSegments codec s'.log s'.archive engagement = .ok facts

theorem RotationStep.archiveKept (hsound : RotationSound s) (h : RotationStep ext s s') : ArchiveKept s s' := by
  rcases (h.cases hsound).2 with ⟨-, harchive⟩ | ⟨_, target, rows, hlinks, -, -, -, harchive⟩ |
    ⟨_, _, _, -, -, -, -, harchive⟩
  · rw [ArchiveKept, harchive]
    exact fun _ _ => id
  · rw [ArchiveKept, harchive]
    intro name rows' hname
    have hne : name ≠ target := fun heq => by
      rw [heq, hlinks.free] at hname
      cases hname
    exact (AList.lookup_insert_ne hne).trans hname
  · rw [ArchiveKept, harchive]
    exact fun _ _ => id

/-- No step takes a row out of the room or brings one in. -/
theorem RotationStep.inRoom_iff (hsound : RotationSound s) (h : RotationStep ext s s') (row : SegmentRow) :
    InRoom s.log s.archive row ↔ InRoom s'.log s'.archive row := by
  rcases (h.cases hsound).2 with ⟨hlog, harchive⟩ |
    ⟨segment, target, rows, hlinks, hseg, hreplayed, hlog, harchive⟩ |
    ⟨segment, target, rows, hunlinks, hcopy, hreplayed, hlog, harchive⟩
  · rw [hlog, harchive]
  · -- the linked rows are still live
    rw [hlog, harchive]
    constructor
    · rintro (hlive | ⟨name, hname, hfile⟩)
      · exact .inl hlive
      · exact .inr ⟨name, hname, (inFile_insert hlinks.free).mpr (.inl hfile)⟩
    · rintro (hlive | ⟨name, hname, hfile⟩)
      · exact .inl hlive
      · rcases (inFile_insert hlinks.free).mp hfile with hfile | ⟨-, hrow⟩
        · exact .inr ⟨name, hname, hfile⟩
        · exact .inl ⟨segment, hseg, rows, hlinks.live, hrow⟩
  · -- the unlinked rows are in the archive
    rw [hlog, harchive]
    constructor
    · rintro (⟨name, hname, hfile⟩ | harchived)
      · by_cases heq : name = segment
        · obtain ⟨rows', hrows', hrow⟩ := hfile
          rw [heq, hunlinks.live] at hrows'
          exact .inr ⟨target, hreplayed, rows, hcopy, Option.some.inj hrows' ▸ hrow⟩
        · exact .inl ⟨name, hname, inFile_erase.mpr ⟨heq, hfile⟩⟩
      · exact .inr harchived
    · rintro (⟨name, hname, hfile⟩ | harchived)
      · exact .inl ⟨name, hname, (inFile_erase.mp hfile).2⟩
      · exact .inr harchived

theorem RotationStep.sameHistory (hsound : RotationSound s) (h : RotationStep ext s s') : SameHistory s s' :=
  fun _ => roomEntries_congr (h.inRoom_iff hsound)

/-! ### What the engagements are given

A linked segment comes into the reading of every engagement, an unlinked one leaves only that of the engagement
it is named after. -/

/-- **When the next effect leaves every engagement its facts.** For each engagement whose reading is not refused:
a linked row is in conflict with nothing the reading folds, it is folded already when it is stamped with the
engagement, and it is live under the engagement's name when it has no stamp and the archive name is the
engagement's; and a row without a stamp that is unlinked under the engagement's name is archived under it. -/
structure KeepsFacts (s : RotationState) : Prop where
  consistent : ∀ segment target rows, s.Links segment target rows →
    ∀ engagement, Readable engagement s.log s.archive → ∀ row ∈ rows,
      ∀ other, Visible engagement s.log s.archive other ∨ other ∈ rows → row.seq = other.seq → row = other
  stamped : ∀ segment target rows, s.Links segment target rows →
    ∀ engagement, Readable engagement s.log s.archive → ∀ row ∈ rows,
      row.engagement = some engagement → Visible engagement s.log s.archive row
  unstamped : ∀ segment target rows, s.Links segment target rows →
    ∀ engagement, Readable engagement s.log s.archive → ∀ row ∈ rows,
      row.engagement = none → target = engagement ++ ".jsonl" → InFile s.log target row
  unlinked : ∀ segment target rows, s.Unlinks segment target rows →
    ∀ engagement, Readable engagement s.log s.archive → ∀ row ∈ rows,
      row.engagement = none → segment = engagement ++ ".jsonl" →
        Replayed segment ∧ InFile s.archive segment row

/-- Without a link to come, only an unlink can lose facts. -/
theorem KeepsFacts.of_no_link (hnolink : ∀ segment target rows, ¬s.Links segment target rows)
    (hunlinked : ∀ segment target rows, s.Unlinks segment target rows →
      ∀ engagement, Readable engagement s.log s.archive → ∀ row ∈ rows,
        row.engagement = none → segment = engagement ++ ".jsonl" →
          Replayed segment ∧ InFile s.archive segment row) : KeepsFacts s where
  consistent segment target rows hlinks := absurd hlinks (hnolink segment target rows)
  stamped segment target rows hlinks := absurd hlinks (hnolink segment target rows)
  unstamped segment target rows hlinks := absurd hlinks (hnolink segment target rows)
  unlinked := hunlinked

theorem belongsToEngagement_stamped {engagement label : String} {exact : Bool} {row : SegmentRow}
    (h : row.engagement = some label) : belongsToEngagement engagement exact row = (label == engagement) := by
  rw [belongsToEngagement, h]

theorem belongsToEngagement_unstamped {engagement : String} {exact : Bool} {row : SegmentRow}
    (h : row.engagement = none) : belongsToEngagement engagement exact row = exact := by
  rw [belongsToEngagement, h]

/-- A row counts for the engagement it is stamped with wherever the reading comes upon it. -/
theorem Visible.belongs {engagement : String} {row : SegmentRow} (h : Visible engagement log archive row)
    (hstamp : row.engagement = some engagement) : Belongs engagement log archive row := by
  rcases h with hfile | ⟨name, hname, hfile⟩
  · exact .inl ⟨hfile, by rw [belongsToEngagement_stamped hstamp, beq_self_eq_true]⟩
  · exact .inr ⟨name, hname, hfile, by rw [belongsToEngagement_stamped hstamp, beq_self_eq_true]⟩

section Link

variable {segment target engagement : String} {rows : List SegmentRow} {row : SegmentRow}

theorem visible_link_iff (hfree : archive.lookup target = none) (hreplayed : Replayed target) :
    Visible engagement log (archive.insert target rows) row ↔ Visible engagement log archive row ∨ row ∈ rows := by
  constructor
  · rintro (hlive | ⟨name, hname, hfile⟩)
    · exact .inl (.inl hlive)
    · rcases (inFile_insert hfree).mp hfile with hfile | ⟨-, hrow⟩
      · exact .inl (.inr ⟨name, hname, hfile⟩)
      · exact .inr hrow
  · rintro ((hlive | ⟨name, hname, hfile⟩) | hrow)
    · exact .inl hlive
    · exact .inr ⟨name, hname, (inFile_insert hfree).mpr (.inl hfile)⟩
    · exact .inr ⟨target, hreplayed, (inFile_insert hfree).mpr (.inr ⟨rfl, hrow⟩)⟩

theorem belongs_link_iff (hfree : archive.lookup target = none) (hreplayed : Replayed target) :
    Belongs engagement log (archive.insert target rows) row ↔ Belongs engagement log archive row ∨
      row ∈ rows ∧ belongsToEngagement engagement (target == engagement ++ ".jsonl") row = true := by
  constructor
  · rintro (hlive | ⟨name, hname, hfile, hbelongs⟩)
    · exact .inl (.inl hlive)
    · rcases (inFile_insert hfree).mp hfile with hfile | ⟨rfl, hrow⟩
      · exact .inl (.inr ⟨name, hname, hfile, hbelongs⟩)
      · exact .inr ⟨hrow, hbelongs⟩
  · rintro ((hlive | ⟨name, hname, hfile, hbelongs⟩) | ⟨hrow, hbelongs⟩)
    · exact .inl hlive
    · exact .inr ⟨name, hname, (inFile_insert hfree).mpr (.inl hfile), hbelongs⟩
    · exact .inr ⟨target, hreplayed, (inFile_insert hfree).mpr (.inr ⟨rfl, hrow⟩), hbelongs⟩

/-- A link that keeps the facts leaves a reading what it folds free of conflicts. -/
theorem KeepsFacts.readable_link (hkeeps : KeepsFacts s) (hlinks : s.Links segment target rows)
    (hreplayed : Replayed target) :
    Readable engagement s.log s.archive ↔ Readable engagement s.log (s.archive.insert target rows) := by
  constructor
  · intro h
    refine ⟨h.label, fun x hx y hy hseq => ?_⟩
    rw [visible_link_iff hlinks.free hreplayed] at hx hy
    have hnew := hkeeps.consistent segment target rows hlinks engagement h
    rcases hx with hx | hx
    · rcases hy with hy | hy
      · exact h.consistent x hx y hy hseq
      · exact (hnew y hy x (.inl hx) hseq.symm).symm
    · exact hnew x hx y hy hseq
  · intro h
    refine ⟨h.label, fun x hx y hy => h.consistent x ?_ y ?_⟩
    · exact (visible_link_iff hlinks.free hreplayed).mpr (.inl hx)
    · exact (visible_link_iff hlinks.free hreplayed).mpr (.inl hy)

/-- And what counts for the engagement as it was. -/
theorem KeepsFacts.belongs_link (hkeeps : KeepsFacts s) (hlinks : s.Links segment target rows)
    (hreplayed : Replayed target) (h : Readable engagement s.log s.archive) :
    Belongs engagement s.log s.archive row ↔ Belongs engagement s.log (s.archive.insert target rows) row := by
  rw [belongs_link_iff hlinks.free hreplayed, iff_self_or]
  rintro ⟨hrow, hbelongs⟩
  cases hstamp : row.engagement with
  | some label =>
    rw [belongsToEngagement_stamped hstamp, beq_iff_eq] at hbelongs
    subst hbelongs
    exact (hkeeps.stamped segment target rows hlinks label h row hrow hstamp).belongs hstamp
  | none =>
    rw [belongsToEngagement_unstamped hstamp, beq_iff_eq] at hbelongs
    have hlive := hkeeps.unstamped segment target rows hlinks engagement h row hrow hstamp hbelongs
    exact .inl ⟨hbelongs ▸ hlive, belongsToEngagement_unstamped hstamp⟩

/-- A link that leaves an engagement its facts brings no conflict and no row that counts for it. -/
theorem keepsFacts_of_link (hlinks : s.Links segment target rows) (hreplayed : Replayed target)
    (hsame : ∀ engagement, Readable engagement s.log s.archive → ∃ facts,
      factsFromEngagementSegments codec s.log s.archive engagement = .ok facts ∧
        factsFromEngagementSegments codec s.log (s.archive.insert target rows) engagement = .ok facts) :
    KeepsFacts s := by
  have hnew := fun {engagement row} =>
    @visible_link_iff s.log s.archive target engagement rows row hlinks.free hreplayed
  -- a linked row that counts for an engagement counted for it before
  have hold : ∀ engagement, Readable engagement s.log s.archive → ∀ row ∈ rows,
      belongsToEngagement engagement (target == engagement ++ ".jsonl") row = true →
        Belongs engagement s.log s.archive row := by
    intro engagement h row hrow hbelongs
    obtain ⟨facts, hfacts, hfacts'⟩ := hsame engagement h
    exact belongs_of_sameFacts hfacts hfacts' (fun _ hvisible => hnew.mpr (.inl hvisible))
      ((belongs_link_iff hlinks.free hreplayed).mpr (.inr ⟨hrow, hbelongs⟩))
  have hthese : ∀ segment' target' rows', s.Links segment' target' rows' → target' = target ∧ rows' = rows := by
    rintro segment' target' rows' ⟨⟨_, hnext⟩, hlive, -⟩
    obtain ⟨_, hnext'⟩ := hlinks.next
    cases hnext.symm.trans hnext'
    exact ⟨rfl, Option.some.inj (hlive.symm.trans hlinks.live)⟩
  constructor
  · intro segment' target' rows' hlinks' engagement h row hrow other hother hseq
    obtain ⟨rfl, rfl⟩ := hthese segment' target' rows' hlinks'
    obtain ⟨facts, -, hfacts'⟩ := hsame engagement h
    obtain ⟨hread', -⟩ := factsFromEngagementSegments_ok_iff.mp hfacts'
    exact hread'.consistent row (hnew.mpr (.inr hrow)) other (hnew.mpr hother) hseq
  · intro segment' target' rows' hlinks' engagement h row hrow hstamp
    obtain ⟨rfl, rfl⟩ := hthese segment' target' rows' hlinks'
    refine (hold engagement h row hrow ?_).visible
    rw [belongsToEngagement_stamped hstamp, beq_self_eq_true]
  · intro segment' target' rows' hlinks' engagement h row hrow hstamp hname
    obtain ⟨rfl, rfl⟩ := hthese segment' target' rows' hlinks'
    have hbelongs := hold engagement h row hrow (by
      rw [belongsToEngagement_unstamped hstamp, hname, beq_self_eq_true])
    rcases hbelongs with ⟨hfile, -⟩ | ⟨name, -, ⟨rows', hrows', -⟩, hmatch⟩
    · exact hname ▸ hfile
    · -- the target's name was free in the archive
      rw [belongsToEngagement_unstamped hstamp, beq_iff_eq] at hmatch
      rw [hmatch, ← hname, hlinks.free] at hrows'
      cases hrows'
  · rintro segment' target' rows' ⟨⟨_, hnext⟩, -⟩
    obtain ⟨_, hnext'⟩ := hlinks.next
    cases hnext.symm.trans hnext'

end Link

section Unlink

variable {segment target engagement : String} {rows : List SegmentRow} {row : SegmentRow}

/-- What an unlink takes from the log is folded from the archive. -/
theorem visible_unlink_iff (hrows : log.lookup segment = some rows) (hcopy : archive.lookup target = some rows)
    (hreplayed : Replayed target) :
    Visible engagement (log.erase segment) archive row ↔ Visible engagement log archive row := by
  constructor
  · exact Or.imp_left fun hlive => (inFile_erase.mp hlive).2
  · rintro (hlive | harchived)
    · by_cases heq : engagement ++ ".jsonl" = segment
      · obtain ⟨rows', hrows', hrow⟩ := hlive
        rw [heq, hrows] at hrows'
        exact .inr ⟨target, hreplayed, rows, hcopy, Option.some.inj hrows' ▸ hrow⟩
      · exact .inl (inFile_erase.mpr ⟨heq, hlive⟩)
    · exact .inr harchived

theorem readable_unlink_iff (hrows : log.lookup segment = some rows) (hcopy : archive.lookup target = some rows)
    (hreplayed : Replayed target) :
    Readable engagement log archive ↔ Readable engagement (log.erase segment) archive := by
  have hvisible := fun row =>
    @visible_unlink_iff log archive segment target engagement rows row hrows hcopy hreplayed
  constructor
  · intro h
    exact ⟨h.label, fun x hx y hy => h.consistent x ((hvisible x).mp hx) y ((hvisible y).mp hy)⟩
  · intro h
    exact ⟨h.label, fun x hx y hy => h.consistent x ((hvisible x).mpr hx) y ((hvisible y).mpr hy)⟩

/-- An unlink that keeps the facts leaves what counts for an engagement as it was. -/
theorem KeepsFacts.belongs_unlink (hkeeps : KeepsFacts s) (hunlinks : s.Unlinks segment target rows)
    (hcopy : s.archive.lookup target = some rows) (hreplayed : Replayed target)
    (h : Readable engagement s.log s.archive) :
    Belongs engagement s.log s.archive row ↔ Belongs engagement (s.log.erase segment) s.archive row := by
  constructor
  · rintro (⟨hlive, hbelongs⟩ | harchived)
    · by_cases heq : engagement ++ ".jsonl" = segment
      · obtain ⟨rows', hrows', hrow⟩ := id hlive
        rw [heq, hunlinks.live] at hrows'
        obtain rfl := Option.some.inj hrows'
        cases hstamp : row.engagement with
        | some label =>
          rw [belongsToEngagement_stamped hstamp] at hbelongs
          exact .inr ⟨target, hreplayed, ⟨rows, hcopy, hrow⟩, by rwa [belongsToEngagement_stamped hstamp]⟩
        | none =>
          obtain ⟨hname, hfile⟩ :=
            hkeeps.unlinked segment target rows hunlinks engagement h row hrow hstamp heq.symm
          refine .inr ⟨segment, hname, hfile, ?_⟩
          rw [belongsToEngagement_unstamped hstamp, heq, beq_self_eq_true]
      · exact .inl ⟨inFile_erase.mpr ⟨heq, hlive⟩, hbelongs⟩
    · exact .inr harchived
  · exact Or.imp_left fun ⟨hlive, hbelongs⟩ => ⟨(inFile_erase.mp hlive).2, hbelongs⟩

/-- An unlink that leaves an engagement its facts leaves its rows without a stamp in the archive. -/
theorem keepsFacts_of_unlink (hunlinks : s.Unlinks segment target rows)
    (hcopy : s.archive.lookup target = some rows) (hreplayed : Replayed target)
    (hsame : ∀ engagement, Readable engagement s.log s.archive → ∃ facts,
      factsFromEngagementSegments codec s.log s.archive engagement = .ok facts ∧
        factsFromEngagementSegments codec (s.log.erase segment) s.archive engagement = .ok facts) :
    KeepsFacts s := by
  have hnolink : ∀ segment' target' rows', ¬s.Links segment' target' rows' := by
    rintro segment' target' rows' ⟨⟨_, hnext⟩, -, -⟩
    obtain ⟨_, hnext'⟩ := hunlinks.next
    cases hnext.symm.trans hnext'
  refine .of_no_link hnolink ?_
  rintro segment' target' rows' ⟨⟨_, hnext⟩, hlive⟩ engagement h row hrow hstamp rfl
  obtain ⟨_, hnext'⟩ := hunlinks.next
  cases hnext.symm.trans hnext'
  obtain rfl := Option.some.inj (hlive.symm.trans hunlinks.live)
  obtain ⟨facts, hfacts, hfacts'⟩ := hsame engagement h
  -- the row counted before, so it counts afterwards, when its segment is no longer live
  have hbelongs := belongs_of_sameFacts hfacts' hfacts
    (fun _ => (visible_unlink_iff hunlinks.live hcopy hreplayed).mp)
    (.inl ⟨⟨_, hlive, hrow⟩, belongsToEngagement_unstamped hstamp⟩)
  rcases hbelongs with ⟨herased, -⟩ | ⟨name, hname, hfile, hmatch⟩
  · exact absurd rfl (inFile_erase.mp herased).1
  · rw [belongsToEngagement_unstamped hstamp, beq_iff_eq] at hmatch
    subst hmatch
    exact ⟨hname, hfile⟩

end Unlink

/-- **An effect that keeps the facts** keeps them for every engagement. -/
theorem KeepsFacts.sameEngagements (codec : SegmentCodec) (hsound : RotationSound s) (h : s.advance = .ok s')
    (hkeeps : KeepsFacts s) : SameEngagements codec s s' := by
  intro engagement facts
  rcases (advance_cases hsound h).2 with ⟨hlog, harchive, -⟩ |
    ⟨segment, target, rows, hlinks, -, hreplayed, hlog, harchive⟩ |
    ⟨segment, target, rows, hunlinks, hcopy, hreplayed, hlog, harchive⟩
  · rw [hlog, harchive]
  · rw [hlog, harchive]
    exact factsFromEngagementSegments_congr (hkeeps.readable_link hlinks hreplayed) fun hread _ =>
      hkeeps.belongs_link hlinks hreplayed hread
  · rw [hlog, harchive]
    exact factsFromEngagementSegments_congr (readable_unlink_iff hunlinks.live hcopy hreplayed) fun hread _ =>
      hkeeps.belongs_unlink hunlinks hcopy hreplayed hread

/-- Every row of the segments is valid. -/
def SegmentsParse (codec : SegmentCodec) (s : RotationState) : Prop :=
  ∀ row, Held s.log s.archive row → validRow codec row = true

/-- **No other effect does**, where the segments parse. -/
theorem keepsFacts_of_sameEngagements (hsound : RotationSound s) (hparse : SegmentsParse codec s)
    (h : s.advance = .ok s') (hsame : SameEngagements codec s s') : KeepsFacts s := by
  have hfacts : ∀ engagement, Readable engagement s.log s.archive → ∃ facts,
      factsFromEngagementSegments codec s.log s.archive engagement = .ok facts ∧
        factsFromEngagementSegments codec s'.log s'.archive engagement = .ok facts := by
    intro engagement hread
    obtain ⟨facts, hfacts⟩ := hread.exists_facts fun row hrow =>
      exists_fact_of_validRow (hparse row hrow.visible.held)
    exact ⟨facts, hfacts, (hsame engagement facts).mp hfacts⟩
  rcases (advance_cases hsound h).2 with ⟨-, -, hnone⟩ |
    ⟨segment, target, rows, hlinks, -, hreplayed, hlog, harchive⟩ |
    ⟨segment, target, rows, hunlinks, hcopy, hreplayed, hlog, harchive⟩
  · exact .of_no_link (fun segment target rows => (hnone segment target rows).1)
      fun segment target rows hunlinks => absurd hunlinks (hnone segment target rows).2
  · rw [hlog, harchive] at hfacts
    exact keepsFacts_of_link hlinks hreplayed hfacts
  · rw [hlog, harchive] at hfacts
    exact keepsFacts_of_unlink hunlinks hcopy hreplayed hfacts

/-- A step of a rotation whose effect keeps the facts. -/
def KeepingStep (ext : Externals) (s s' : RotationState) : Prop :=
  RotationStep ext s s' ∧ (s.advance = .ok s' → KeepsFacts s)

theorem KeepingStep.sameEngagements (codec : SegmentCodec) (hsound : RotationSound s) (h : KeepingStep ext s s') :
    SameEngagements codec s s' := by
  obtain ⟨hstep, hkeeps⟩ := h
  cases hstep with
  | start => exact fun _ _ => Iff.rfl
  | stop => exact fun _ _ => Iff.rfl
  | advance h => exact (hkeeps h).sameEngagements codec hsound h

/-- No step puts a row where it was not held before. -/
theorem RotationStep.held (hsound : RotationSound s) (h : RotationStep ext s s') {row : SegmentRow}
    (hrow : Held s'.log s'.archive row) : Held s.log s.archive row := by
  rcases (h.cases hsound).2 with ⟨hlog, harchive⟩ | ⟨segment, _, rows, hlinks, -, -, hlog, harchive⟩ |
    ⟨_, _, _, -, -, -, hlog, harchive⟩
  · rwa [hlog, harchive] at hrow
  · rw [hlog, harchive] at hrow
    rcases hrow with hlive | ⟨name, hname, hfile⟩
    · exact .inl hlive
    · rcases (inFile_insert hlinks.free).mp hfile with hfile | ⟨-, hrow⟩
      · exact .inr ⟨name, hname, hfile⟩
      · exact .inl ⟨segment, rows, hlinks.live, hrow⟩
  · rw [hlog, harchive] at hrow
    rcases hrow with ⟨name, hfile⟩ | harchived
    · exact .inl ⟨name, (inFile_erase.mp hfile).2⟩
    · exact .inr harchived

/-- Rotations keep their invariant, and so does the room around them. -/
theorem RoomStep.sound (hsound : RotationSound s) (h : RoomStep ext s s') :
    RotationSound s' ∧ ArchiveKept s s' := by
  cases h with
  | rotate h => exact ⟨(h.cases hsound).1, h.archiveKept hsound⟩
  | write hidle _ =>
    refine ⟨⟨fun job hjob => ?_, ?_⟩, ArchiveKept.refl _⟩
    · rw [hidle] at hjob
      exact absurd hjob List.not_mem_nil
    · rw [hidle]
      exact List.nodup_nil

theorem room_run_sound (hsound : RotationSound s) (hrun : Relation.ReflTransGen (RoomStep ext) s s₁) :
    RotationSound s₁ ∧ ArchiveKept s s₁ := by
  induction hrun with
  | refl => exact ⟨hsound, ArchiveKept.refl s⟩
  | tail _ hstep ih =>
    obtain ⟨hsound', hkept'⟩ := hstep.sound ih.1
    exact ⟨hsound', ih.2.trans hkept'⟩

/-- What a rotation leaves as it was: its own invariant, the room's history and the archived files. -/
theorem rotation_run_sound (hsound : RotationSound s) (hrun : Relation.ReflTransGen (RotationStep ext) s s') :
    RotationSound s' ∧ SameHistory s s' ∧ ArchiveKept s s' ∧
      ∀ row, Held s'.log s'.archive row → Held s.log s.archive row := by
  induction hrun with
  | refl => exact ⟨hsound, fun _ => Iff.rfl, ArchiveKept.refl s, fun _ => id⟩
  | tail _ hstep ih =>
    obtain ⟨hsound', hsame, hkept, hheld⟩ := ih
    exact ⟨(hstep.cases hsound').1, fun out => (hsame out).trans (hstep.sameHistory hsound' out),
      hkept.trans (hstep.archiveKept hsound'), fun row hrow => hheld row (hstep.held hsound' hrow)⟩

/-- **Rotation keeps history.** In a room that started with no rotation under way and went through any
rotations, crashes, restarts and new segments, no archived file was ever overwritten, and however a rotation
goes on from there the room's history stays the same. The facts of every engagement do, too, in a rotation
whose effects all keep them, and where the segments parse no other effect keeps them. -/
theorem rotation_keeps_history (codec : SegmentCodec) (hidle : s.jobs = [])
    (hrun : Relation.ReflTransGen (RoomStep ext) s s₁) :
    ArchiveKept s s₁ ∧
    (∀ s₂, Relation.ReflTransGen (RotationStep ext) s₁ s₂ → SameHistory s₁ s₂ ∧ ArchiveKept s₁ s₂) ∧
    (∀ s₂, Relation.ReflTransGen (KeepingStep ext) s₁ s₂ → SameEngagements codec s₁ s₂) ∧
    (SegmentsParse codec s₁ → ∀ s₂ s₃, Relation.ReflTransGen (RotationStep ext) s₁ s₂ → s₂.advance = .ok s₃ →
      (SameEngagements codec s₂ s₃ ↔ KeepsFacts s₂)) := by
  have hstart : RotationSound s := by
    refine ⟨fun job hjob => ?_, ?_⟩
    · rw [hidle] at hjob
      exact absurd hjob List.not_mem_nil
    · rw [hidle]
      exact List.nodup_nil
  obtain ⟨hsound, hkept⟩ := room_run_sound hstart hrun
  refine ⟨hkept, fun s₂ hrotation => ?_, fun s₂ hrotation => ?_, fun hparse s₂ s₃ hrotation h => ?_⟩
  · obtain ⟨-, hsame, hkept', -⟩ := rotation_run_sound hsound hrotation
    exact ⟨hsame, hkept'⟩
  · suffices h : RotationSound s₂ ∧ SameEngagements codec s₁ s₂ from h.2
    induction hrotation with
    | refl => exact ⟨hsound, fun _ _ => Iff.rfl⟩
    | tail _ hstep ih =>
      obtain ⟨hsound', hsame⟩ := ih
      exact ⟨(hstep.1.cases hsound').1, fun engagement facts =>
        (hsame engagement facts).trans (hstep.sameEngagements codec hsound' engagement facts)⟩
  · obtain ⟨hsound', -, -, hheld⟩ := rotation_run_sound hsound hrotation
    have hparse' : SegmentsParse codec s₂ := fun row hrow => hparse row (hheld row hrow)
    exact ⟨keepsFacts_of_sameEngagements hsound' hparse' h, fun hkeeps => hkeeps.sameEngagements codec hsound' h⟩

end Runs

namespace RotationSample

/-- A row of a day that is old, with or without a stamp. -/
def row (seq : Int) (engagement : Option String) : SegmentRow where
  seq := seq
  occurredAt := "2026-01-01T00:00:00Z"
  eventType := "claim"
  payload := .object [("event_id", .string "c1"), ("kind", .string "claim")]
  engagement := engagement

def fact (seq : Int) : Fact := { eventId := "c1", kind := .claim, seq := seq }

/-- The instant `2026-01-01T12:00:00Z`. -/
def cutoff : Int := 1767268800000000000

/-- A live segment whose name is taken in the archive by an older segment of the same engagement. -/
def collided (engagement : Option String) : RotationState where
  log := AList.singleton "alpha.jsonl" [row 2 engagement]
  archive := AList.singleton "alpha.jsonl" [row 1 engagement]

/-- The segment is to go to the next generation of its name. -/
def planned (engagement : Option String) : RotationState :=
  { collided engagement with jobs := [.install "alpha.jsonl" (.missing "alpha.rotated-0001.jsonl")] }

/-- The segment is linked under its next generation, and not yet unlinked. -/
def linked (engagement : Option String) : RotationState where
  log := AList.singleton "alpha.jsonl" [row 2 engagement]
  archive :=
    (AList.singleton "alpha.jsonl" [row 1 engagement]).insert "alpha.rotated-0001.jsonl" [row 2 engagement]
  jobs := [.unlink "alpha.jsonl" "alpha.rotated-0001.jsonl"]

def rotated (engagement : Option String) : RotationState :=
  { linked engagement with log := ∅, jobs := [] }

theorem plan_collided : ∀ engagement ∈ [none, some "alpha"],
    planRotation Externals.sample (collided engagement).log (collided engagement).archive cutoff =
      .ok [.install "alpha.jsonl" (.missing "alpha.rotated-0001.jsonl")] := by
  decide

theorem advance_planned (engagement : Option String) : (planned engagement).advance = .ok (linked engagement) :=
  rfl

theorem advance_linked (engagement : Option String) :
    (linked engagement).advance = .ok (rotated engagement) := rfl

/-- The rotation of the live segment: its plan, the link and the unlink. -/
theorem run_collided {engagement : Option String} (h : engagement ∈ [none, some "alpha"]) :
    Relation.ReflTransGen (RotationStep Externals.sample) (collided engagement) (rotated engagement) :=
  .head (.start rfl (plan_collided engagement h)) (.head (.advance (advance_planned engagement))
    (.single (.advance (advance_linked engagement))))

/-- The segment's row is stamped with the engagement it is live under. -/
theorem keepsFacts_planned : KeepsFacts (planned (some "alpha")) := by
  have hthese : ∀ segment target rows, (planned (some "alpha")).Links segment target rows →
      rows = [row 2 (some "alpha")] := by
    rintro segment target rows ⟨⟨rest, hnext⟩, hlive, -⟩
    cases hnext
    exact (Option.some.inj hlive).symm
  constructor
  · intro segment target rows hlinks engagement _ new hnew other hother hseq
    obtain rfl := hthese segment target rows hlinks
    obtain rfl := List.mem_singleton.mp hnew
    rcases hother with (hlive | ⟨name, -, harchived⟩) | hother
    · exact (List.mem_singleton.mp (inFile_singleton.mp hlive).2).symm
    · obtain rfl := List.mem_singleton.mp (inFile_singleton.mp harchived).2
      exact absurd hseq (by decide)
    · exact (List.mem_singleton.mp hother).symm
  · intro segment target rows hlinks engagement _ new hnew hstamp
    obtain rfl := hthese segment target rows hlinks
    obtain rfl := List.mem_singleton.mp hnew
    obtain rfl := Option.some.inj hstamp
    exact .inl ⟨_, rfl, hnew⟩
  · intro segment target rows hlinks engagement _ new hnew hstamp
    obtain rfl := hthese segment target rows hlinks
    obtain rfl := List.mem_singleton.mp hnew
    cases hstamp
  · rintro segment target rows ⟨⟨rest, hnext⟩, -⟩
    cases hnext

theorem keepsFacts_linked : KeepsFacts (linked (some "alpha")) := by
  have hnolink : ∀ segment target rows, ¬(linked (some "alpha")).Links segment target rows := by
    rintro segment target rows ⟨⟨rest, hnext⟩, -, -⟩
    cases hnext
  refine .of_no_link hnolink ?_
  rintro segment target rows ⟨⟨rest, hnext⟩, hlive⟩ engagement _ old hold hstamp
  cases hnext
  obtain rfl := Option.some.inj hlive
  obtain rfl := List.mem_singleton.mp hold
  cases hstamp

/-- Every effect of the stamped segment's rotation keeps the facts. -/
theorem keepingRun_collided :
    Relation.ReflTransGen (KeepingStep Externals.sample) (collided (some "alpha")) (rotated (some "alpha")) := by
  have hstart : KeepingStep Externals.sample (collided (some "alpha")) (planned (some "alpha")) :=
    ⟨.start rfl (plan_collided _ (by decide)), fun h =>
      absurd (congrArg RotationState.jobs (Except.ok.inj h)).symm (List.cons_ne_nil _ _)⟩
  exact .head hstart (.head ⟨.advance (advance_planned _), fun _ => keepsFacts_planned⟩
    (.single ⟨.advance (advance_linked _), fun _ => keepsFacts_linked⟩))

end RotationSample

open RotationSample

/-- A stamped segment moves to a generation of its name, and no reading changes. -/
theorem rotation_keeps_history_stamped :
    ArchiveKept (collided (some "alpha")) (rotated (some "alpha")) ∧
      SameHistory (collided (some "alpha")) (rotated (some "alpha")) ∧
      SameEngagements SegmentSample.codec (collided (some "alpha")) (rotated (some "alpha")) := by
  obtain ⟨-, hhistory, hfacts, -⟩ := rotation_keeps_history SegmentSample.codec rfl
    (.refl : Relation.ReflTransGen (RoomStep Externals.sample) (collided (some "alpha")) _)
  obtain ⟨hsame, hkept⟩ := hhistory _ (run_collided (by decide))
  exact ⟨hkept, hsame, hfacts _ keepingRun_collided⟩

/-- A segment whose row has no stamp moves to a generation of its name: its engagement loses the row, and an
engagement nobody opened gains it. -/
theorem rotation_loses_unstamped_rows :
    (∀ old ∈ [row 1 none, row 2 none], validRow SegmentSample.codec old = true) ∧
      Relation.ReflTransGen (RotationStep Externals.sample) (collided none) (rotated none) ∧
      factsFromEngagementSegments SegmentSample.codec (collided none).log (collided none).archive "alpha" =
        .ok [fact 1, fact 2] ∧
      factsFromEngagementSegments SegmentSample.codec (rotated none).log (rotated none).archive "alpha" =
        .ok [fact 1] ∧
      factsFromEngagementSegments SegmentSample.codec (rotated none).log (rotated none).archive
        "alpha.rotated-0001" = .ok [fact 2] :=
  ⟨by decide, run_collided (by decide), by decide, by decide, by decide⟩

end RallyPoint
