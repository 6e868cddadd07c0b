/-
# RallyPoint.Collision — the collision answer of a scoped snapshot, and the room's (`store.rs`).

A path-scoped snapshot shows a claim on its path when nothing ends it among the facts of the engagement that have
to do with the path, or when no fact of the repository closes it. The room shows it when it is not withdrawn and
all that closes it is. `CollisionAgrees` lists the ways in which the two part over one claim, and
`scopedCollisionAnswer_iff` says that there are no others.
-/
import RallyPoint.ScopedSnapshot

namespace RallyPoint

open Lib

/-! ## The lifecycle query -/

section Lifecycle

variable {codec : SegmentCodec} {log archive : RowDir} {row : SegmentRow} {facts lifecycle : List Fact}
variable {seen entries : List SegmentRow} {x : Fact}

/-- A valid row carries the kind of its fact, unless only a newer program knows that. -/
theorem eventType_of_validRow (hvalid : validRow codec row = true)
    (hfact : factFromSegmentValue codec row.payload row.seq = .ok x) (hkind : x.kind ≠ .unknown) :
    row.eventType = x.kind.asStr := by
  have hfuture : unknownFutureKind row x = none := by
    rw [unknownFutureKind, if_pos]
    rw [Bool.or_eq_true, bne_iff_ne]
    exact .inl hkind
  rw [validRow, validateCanonicalLineAt, hfact] at hvalid
  dsimp only at hvalid
  by_contra hne
  have hmismatch : (row.eventType != x.kind.asStr && (unknownFutureKind row x).isNone) = true := by
    rw [hfuture, Option.isNone_none, Bool.and_true, bne_iff_ne]
    exact hne
  simp only [hmismatch, if_true] at hvalid
  split at hvalid
  · cases hvalid
  · split at hvalid
    · cases hvalid
    · split at hvalid
      · cases hvalid
      · split at hvalid <;> cases hvalid

/-- The loop over the lifecycle rows decodes one copy of each sequence. -/
theorem distinctLifecycleFacts_ok (h : distinctLifecycleFacts codec seen entries = .ok lifecycle) :
    ∃ rows : List SegmentRow, rows.mapM (fun r => factFromSegmentValue codec r.payload r.seq) = .ok lifecycle ∧
      rows.Sublist entries ∧ (rows.Pairwise fun a b => a.seq ≠ b.seq) ∧
        (∀ r ∈ rows, ∀ s ∈ seen, s.seq ≠ r.seq) ∧ ∀ r ∈ entries, r ∈ seen ∨ r ∈ rows := by
  induction entries generalizing seen lifecycle with
  | nil => exact ⟨[], h, List.Sublist.refl _, .nil, fun r hr => absurd hr List.not_mem_nil, fun r hr => .inr hr⟩
  | cons entry rest ih =>
    rw [distinctLifecycleFacts] at h
    split at h
    case _ existing hfind =>
      split at h
      case isTrue heq =>
        obtain ⟨rows, hrows, hsub, hne, hseen, hall⟩ := ih h
        refine ⟨rows, hrows, hsub.cons entry, hne, hseen, List.forall_mem_cons.mpr ⟨.inl ?_, hall⟩⟩
        exact heq ▸ List.mem_of_find?_eq_some hfind
      case isFalse => cases h
    case _ hfind =>
      obtain ⟨fact, hfact, h⟩ := bind_ok_iff.mp h
      obtain ⟨later, hlater, hcons⟩ := bind_ok_iff.mp h
      obtain rfl := Except.ok.inj hcons
      obtain ⟨rows, hrows, hsub, hne, hseen, hall⟩ := ih hlater
      refine ⟨entry :: rows, ?_, hsub.cons_cons entry, ?_, ?_,
        List.forall_mem_cons.mpr ⟨.inr List.mem_cons_self, ?_⟩⟩
      · rw [List.mapM_cons, hfact, hrows]
        rfl
      · refine List.pairwise_cons.mpr ⟨fun r hr => ?_, hne⟩
        exact hseen r hr entry List.mem_cons_self
      · rw [List.forall_mem_cons]
        constructor
        · intro s hs
          have hnone := List.find?_eq_none.mp hfind s hs
          rwa [beq_iff_eq] at hnone
        · intro r hr s hs
          exact hseen r hr s (List.mem_cons_of_mem _ hs)
      · intro r hr
        rcases hall r hr with hold | hnew
        · rcases List.mem_cons.mp hold with rfl | hold
          · exact .inr List.mem_cons_self
          · exact .inl hold
        · exact .inr (List.mem_cons_of_mem _ hnew)

/-- **The lifecycle query** finds the facts of the lifecycle kinds among the room's, in the room's order. -/
theorem claimLifecycleFacts_of_room (hvalid : ∀ row, InRoom log archive row → validRow codec row = true)
    (hroom : factsFromSegments codec log archive = .ok facts)
    (hlifecycle : claimLifecycleFactsFromSegments codec log archive = .ok lifecycle) :
    lifecycle.Sublist facts ∧ facts.Nodup ∧
      ∀ x ∈ facts, isClaimLifecycleEventType x.kind.asStr = true → x ∈ lifecycle := by
  obtain ⟨out, hout, hdecode⟩ := bind_ok_iff.mp hroom
  obtain ⟨hordered, hmem⟩ := roomEntries_ok hout
  obtain ⟨hfacts, rfl⟩ := mapM_ok_iff.mp hdecode
  obtain ⟨rows, hrows, hsub, hne, -, hall⟩ := distinctLifecycleFacts_ok hlifecycle
  have hentries : ∀ r, r ∈ rows ↔ r ∈ out.filter fun r => isClaimLifecycleEventType r.eventType := by
    intro r
    have hsource : r ∈ rows ↔ ∃ f ∈ readSegmentFiles log ++ replayArchiveSegments archive,
        r ∈ f.2 ∧ isClaimLifecycleEventType r.eventType = true := by
      constructor
      · intro hr
        have hr' := (List.mem_insertionSort _).mp (hsub.subset hr)
        obtain ⟨f, hf, hr'⟩ := List.mem_flatMap.mp hr'
        exact ⟨f, hf, List.mem_filter.mp hr'⟩
      · rintro ⟨f, hf, hr⟩
        refine (hall r ((List.mem_insertionSort _).mpr ?_)).resolve_left List.not_mem_nil
        exact List.mem_flatMap.mpr ⟨f, hf, List.mem_filter.mpr hr⟩
    rw [hsource, List.mem_filter, hmem, InRoom, ← mem_readSegmentFiles_flatMap, ← mem_replayArchiveSegments_flatMap,
      ← List.mem_append, ← List.flatMap_append, List.mem_flatMap]
    constructor
    · rintro ⟨f, hf, hr, htype⟩
      exact ⟨⟨f, hf, hr⟩, htype⟩
    · rintro ⟨⟨f, hf, hr⟩, htype⟩
      exact ⟨f, hf, hr, htype⟩
  have hrowsOrdered : KeyOrdered (·.seq) rows := by
    have hsorted : rows.Pairwise fun a b => a.seq ≤ b.seq :=
      (List.pairwise_insertionSort (fun a b : SegmentRow => a.seq ≤ b.seq) _).sublist hsub
    exact (hsorted.and hne).imp fun h => lt_of_le_of_ne h.1 h.2
  obtain rfl := hrowsOrdered.eq_of_mem_iff (hordered.sublist List.filter_sublist) hentries
  obtain ⟨-, rfl⟩ := mapM_ok_iff.mp hrows
  refine ⟨List.filter_sublist.filterMap _, ?_, fun x hx htype => ?_⟩
  · refine List.Pairwise.filterMap _ (fun a b hlt x hx y hy heq => ?_) hordered
    have hxseq := factFromSegmentValue_seq (ok_of_toOption hx)
    have hyseq := factFromSegmentValue_seq (ok_of_toOption hy)
    rw [heq, hyseq] at hxseq
    exact absurd hxseq hlt.ne'
  · obtain ⟨r, hr, hfact⟩ := List.mem_filterMap.mp hx
    refine List.mem_filterMap.mpr ⟨r, List.mem_filter.mpr ⟨hr, ?_⟩, hfact⟩
    have hkind : x.kind ≠ .unknown := by
      intro hunknown
      rw [hunknown] at htype
      exact absurd htype (by decide)
    rwa [eventType_of_validRow (hvalid r ((hmem r).mp hr)) (ok_of_toOption hfact) hkind]

end Lifecycle

/-! ## What ends a claim -/

section Ending

variable {facts : List Fact} {c : Fact}

/-- A claim of some facts that nothing among them ends: it is not withdrawn, and all that closes it is. -/
structure OpenIn (facts : List Fact) (c : Fact) : Prop where
  mem : c ∈ facts
  notWithdrawn : c.eventId ∉ retractedIds facts
  closersWithdrawn : ∀ x ∈ facts, closesClaim x c = true → x.eventId ∈ retractedIds facts

theorem activeIn_iff_openIn : ActiveIn facts c ↔ isLocalClaim c = true ∧ OpenIn facts c := by
  rw [ActiveIn, mem_resolvedFacts, isActiveClaimFact_iff]
  constructor
  · rintro ⟨⟨hmem, hkept⟩, hlocal, hopen⟩
    refine ⟨hlocal, hmem, hkept, fun x hx hcloses => ?_⟩
    by_contra hnot
    rw [hopen x (mem_resolvedFacts.mpr ⟨hx, hnot⟩)] at hcloses
    cases hcloses
  · rintro ⟨hlocal, hmem, hkept, hclosers⟩
    refine ⟨⟨hmem, hkept⟩, hlocal, fun x hx => ?_⟩
    obtain ⟨hx, hnot⟩ := mem_resolvedFacts.mp hx
    by_contra hcloses
    exact hnot (hclosers x hx (Bool.of_not_eq_false hcloses))

theorem kind_of_isLocalClaim (h : isLocalClaim c = true) : c.kind = .claim := by
  rw [isLocalClaim, Bool.and_eq_true, beq_iff_eq] at h
  exact h.1

/-- What closes a claim or renews it is of a lifecycle kind. -/
theorem isClaimLifecycle_of_closesClaim {x : Fact} (h : closesClaim x c = true) :
    isClaimLifecycleEventType x.kind.asStr = true := by
  simp only [closesClaim, Bool.and_eq_true, Bool.or_eq_true] at h
  rcases h.2 with (href | hrelease) | hsession
  · rw [laterFactRefsClaim, Bool.and_eq_true] at href
    cases hkind : x.kind <;> rw [hkind] at href <;> first | rfl | cases href.1
  · rw [laterReleaseOverlapsClaimScope, Bool.and_eq_true, beq_iff_eq] at hrelease
    rw [hrelease.1]
    rfl
  · simp only [laterSessionCloseMatchesClaim, isSessionCloseFact, isSessionCloseAttempt, Bool.and_eq_true,
      Bool.or_eq_true, beq_iff_eq] at hsession
    obtain ⟨⟨⟨⟨⟨hkind | ⟨hkind, -⟩, -⟩, -⟩, -⟩, -⟩, -⟩ := hsession <;> rw [hkind] <;> rfl

end Ending

/-! ## The claims of the lifecycle query -/

section Query

variable {repoRelativePath : String → Option String} {ext : Externals} {path : String}
variable {facts lifecycle : List Fact} {c d x : Fact}

/-- The lifecycle facts of a path have all that bears on a claim of that path. -/
theorem mem_claimLifecycleRelevantToPath (hc : c ∈ lifecycle) (hclaim : c.kind = .claim)
    (hpath : onPath repoRelativePath path c = true) (hx : x ∈ lifecycle)
    (h : x = c ∨ x.refId = some c.eventId ∨ closesClaim x c = true) :
    x ∈ claimLifecycleRelevantToPath repoRelativePath lifecycle path := by
  have hrelevant : c ∈ lifecycle.filter fun f => f.kind == .claim && onPath repoRelativePath path f :=
    List.mem_filter.mpr ⟨hc, by rw [hclaim, hpath]; rfl⟩
  have hid : ((lifecycle.filter fun f => f.kind == .claim && onPath repoRelativePath path f).map
      (·.eventId)).contains c.eventId = true := List.contains_iff_mem.mpr (List.mem_map_of_mem hrelevant)
  refine List.mem_filter.mpr ⟨hx, ?_⟩
  simp only [Bool.or_eq_true]
  rcases h with rfl | href | hcloses
  · refine .inl (.inl (.inl ?_))
    rw [hclaim, hid]
    rfl
  · refine .inl (.inl (.inr ?_))
    rw [href]
    exact hid
  · simp only [closesClaim, Bool.and_eq_true, Bool.or_eq_true] at hcloses
    rcases hcloses.2 with (href | hrelease) | hsession
    · rw [laterFactRefsClaim, Bool.and_eq_true, beq_iff_eq] at href
      refine .inl (.inl (.inr ?_))
      rw [href.2]
      exact hid
    · simp only [laterReleaseOverlapsClaimScope, Bool.and_eq_true, List.any_eq_true, beq_iff_eq] at hrelease
      obtain ⟨hkind, scope, hscope, scope', hscope', rfl⟩ := hrelease
      refine .inl (.inr ?_)
      rw [hkind, beq_self_eq_true, Bool.true_and, List.any_eq_true]
      exact ⟨scope', hscope, List.contains_iff_mem.mpr (List.mem_flatMap.mpr ⟨c, hrelevant, hscope'⟩)⟩
    · refine .inr ?_
      rw [Bool.and_eq_true, List.any_eq_true]
      refine ⟨?_, c, hrelevant, hsession⟩
      simp only [laterSessionCloseMatchesClaim, Bool.and_eq_true] at hsession
      exact hsession.1.1.1.1

theorem renewalOf_ne_none (h : renewalOf ext c x ≠ none) : x.kind = .claimRenewed ∧ x.refId = some c.eventId := by
  by_contra hnot
  refine h (if_neg ?_)
  rw [Bool.and_eq_true, Bool.and_eq_true, beq_iff_eq, beq_iff_eq]
  exact fun hall => hnot hall.1

/-- A projection reads nothing but the renewals of its claim. -/
theorem projectEffectiveClaim_congr {F G : List Fact}
    (h : F.filterMap (renewalOf ext c) = G.filterMap (renewalOf ext c)) :
    projectEffectiveClaim ext c F = projectEffectiveClaim ext c G := by
  rw [projectEffectiveClaim, projectEffectiveClaim, latestRenewal, latestRenewal, h]

@[simp] theorem onPath_projectEffectiveClaim (c : Fact) (F : List Fact) :
    onPath repoRelativePath path (projectEffectiveClaim ext c F) = onPath repoRelativePath path c := by
  rw [onPath, onPath, projectEffectiveClaim_scope]

/-- **The claims the query adds** on the path: those that no fact of the room closes, withdrawn or not, with
their lease as all the room's facts have it. -/
theorem mem_projectActiveClaims_lifecycle (hsub : lifecycle.Sublist facts) (hnodup : facts.Nodup)
    (hall : ∀ x ∈ facts, isClaimLifecycleEventType x.kind.asStr = true → x ∈ lifecycle)
    (hpath : onPath repoRelativePath path d = true) :
    d ∈ projectActiveClaims ext (claimLifecycleRelevantToPath repoRelativePath lifecycle path) ↔
      ∃ c ∈ facts, isLocalClaim c = true ∧ (∀ x ∈ facts, closesClaim x c = false) ∧
        d = projectEffectiveClaim ext c facts := by
  have hpart : (claimLifecycleRelevantToPath repoRelativePath lifecycle path).Sublist facts :=
    List.filter_sublist.trans hsub
  have hclaim : ∀ {c : Fact}, c ∈ facts → c.kind = .claim → c ∈ lifecycle := fun hc hkind =>
    hall _ hc (by rw [hkind]; rfl)
  have hlease : ∀ {c : Fact}, c ∈ facts → c.kind = .claim → onPath repoRelativePath path c = true →
      projectEffectiveClaim ext c (claimLifecycleRelevantToPath repoRelativePath lifecycle path) =
        projectEffectiveClaim ext c facts := by
    intro c hc hkind hcpath
    refine projectEffectiveClaim_congr (filterMap_of_sublist hpart hnodup fun x hx hne => ?_)
    obtain ⟨hrenewed, href⟩ := renewalOf_ne_none hne
    have hxlife : x ∈ lifecycle := hall x hx (by rw [hrenewed]; rfl)
    exact mem_claimLifecycleRelevantToPath (hclaim hc hkind) hkind hcpath hxlife (.inr (.inl href))
  rw [mem_projectActiveClaims]
  constructor
  · rintro ⟨c, hc, hactive, rfl⟩
    obtain ⟨hlocal, hopen⟩ := isActiveClaimFact_iff.mp hactive
    have hcfacts := hpart.subset hc
    have hkind := kind_of_isLocalClaim hlocal
    rw [onPath_projectEffectiveClaim] at hpath
    refine ⟨c, hcfacts, hlocal, fun x hx => ?_, hlease hcfacts hkind hpath⟩
    by_contra hnot
    have hcloses := Bool.of_not_eq_false hnot
    have hxlife := hall x hx (isClaimLifecycle_of_closesClaim hcloses)
    rw [hopen x (mem_claimLifecycleRelevantToPath (hclaim hcfacts hkind) hkind hpath hxlife (.inr (.inr hcloses)))]
      at hcloses
    cases hcloses
  · rintro ⟨c, hc, hlocal, hopen, rfl⟩
    have hkind := kind_of_isLocalClaim hlocal
    rw [onPath_projectEffectiveClaim] at hpath
    have hclife := hclaim hc hkind
    have hquery := mem_claimLifecycleRelevantToPath hclife hkind hpath hclife (.inl rfl)
    refine ⟨c, hquery, ?_, (hlease hc hkind hpath).symm⟩
    exact isActiveClaimFact_iff.mpr ⟨hlocal, fun x hx => hopen x (hpart.subset hx)⟩

end Query

/-! ## The answer -/

/-- One external claim after another joins, unless its id is there. -/
theorem mem_addMissingClaims {claims external : List Fact} {d : Fact}
    (hids : ∀ x ∈ external, ∀ y ∈ external, x.eventId = y.eventId → x = y) :
    d ∈ addMissingClaims claims external ↔
      d ∈ claims ∨ d ∈ external ∧ ∀ a ∈ claims, a.eventId ≠ d.eventId := by
  induction external generalizing claims with
  | nil => exact ⟨.inl, fun h => h.elim id fun h => absurd h.1 List.not_mem_nil⟩
  | cons x rest ih =>
    have hrest : ∀ x ∈ rest, ∀ y ∈ rest, x.eventId = y.eventId → x = y := fun y hy z hz =>
      hids y (List.mem_cons_of_mem _ hy) z (List.mem_cons_of_mem _ hz)
    have hhead : d ∈ rest → x.eventId = d.eventId → d = x := fun hd heq =>
      hids d (List.mem_cons_of_mem _ hd) x List.mem_cons_self heq.symm
    rw [addMissingClaims]
    split
    case isTrue hpresent =>
      obtain ⟨a, ha, heq⟩ := List.any_eq_true.mp hpresent
      rw [ih hrest]
      refine or_congr_right (and_congr_left fun hnew => ?_)
      rw [List.mem_cons]
      refine ⟨.inr, fun h => h.resolve_left ?_⟩
      rintro rfl
      exact hnew a ha (eq_of_beq heq)
    case isFalse hmissing =>
      have hx : ∀ a ∈ claims, a.eventId ≠ x.eventId := fun a ha heq =>
        hmissing (List.any_eq_true.mpr ⟨a, ha, beq_iff_eq.mpr heq⟩)
      rw [ih hrest, List.mem_append, List.mem_singleton, List.forall_mem_append, List.forall_mem_singleton]
      constructor
      · rintro ((hd | rfl) | ⟨hd, hnew, -⟩)
        · exact .inl hd
        · exact .inr ⟨List.mem_cons_self, hx⟩
        · exact .inr ⟨List.mem_cons_of_mem _ hd, hnew⟩
      · rintro (hd | ⟨hd, hnew⟩)
        · exact .inl (.inl hd)
        · rcases List.mem_cons.mp hd with rfl | hd
          · exact .inl (.inr rfl)
          · by_cases heq : x.eventId = d.eventId
            · exact .inl (.inr (hhead hd heq))
            · exact .inr ⟨hd, hnew, heq⟩

section Answer

variable {repoRelativePath : String → Option String} {ext : Externals} {codec : SegmentCodec}
variable {coord : CoordinationConfig} {includeArchived includePresenceOnly : Bool} {nowSecs : Int}
variable {log archive : RowDir} {engagement path : String} {snapshot room : RoomSnapshot}
variable {facts engagementFacts lifecycle linked : List Fact} {c d : Fact}

@[simp] theorem withScopedRoster_activeClaims (scopedFacts : List Fact) :
    (withScopedRoster ext coord includeArchived nowSecs snapshot engagementFacts scopedFacts
      includePresenceOnly).activeClaims = snapshot.activeClaims := by
  unfold withScopedRoster
  split <;> rfl

@[simp] theorem withCollisionClaims_activeClaims :
    (withCollisionClaims ext repoRelativePath snapshot lifecycle path).activeClaims =
      sortBySeq (addMissingClaims snapshot.activeClaims
        (sortBySeq (projectActiveClaims ext (claimLifecycleRelevantToPath repoRelativePath lifecycle path)))) := by
  unfold withCollisionClaims
  dsimp only
  split
  · rfl
  · split <;> rfl

theorem mem_sortBySeq {claims : List Fact} : d ∈ sortBySeq claims ↔ d ∈ claims := List.mem_insertionSort _

theorem snapshotAt_activeClaims :
    (snapshotFromFactsWithPolicyAt ext facts coord includeArchived nowSecs).activeClaims =
      projectActiveClaims ext (resolvedFacts facts) := rfl

/-- What a path-scoped snapshot without a run shows as claims. -/
theorem prepareSnapshotScoped_activeClaims
    (hengagement : factsFromEngagementSegments codec log archive engagement = .ok engagementFacts)
    (hsnapshot : prepareSnapshotScoped ext repoRelativePath codec coord includeArchived nowSecs log archive
      engagement none (some path) includePresenceOnly = .ok snapshot) :
    ∃ lifecycle, claimLifecycleFactsFromSegments codec log archive = .ok lifecycle ∧
      snapshot.activeClaims = sortBySeq (addMissingClaims
        (projectActiveClaims ext (resolvedFacts
          (linkedFacts repoRelativePath engagementFacts (normalizePath repoRelativePath (trim path)))))
        (sortBySeq (projectActiveClaims ext (claimLifecycleRelevantToPath repoRelativePath lifecycle
          (normalizePath repoRelativePath (trim path)))))) := by
  obtain ⟨label, hlabel, hlabelled⟩ := bind_ok_iff.mp hsnapshot
  obtain ⟨runMarker, hrun, hmarked⟩ := bind_ok_iff.mp hlabelled
  obtain ⟨normalized, hpath, hnormalized⟩ := bind_ok_iff.mp hmarked
  obtain ⟨own, hown, hread⟩ := bind_ok_iff.mp hnormalized
  rw [scopedPath, Option.map_some] at hpath
  dsimp only at hpath
  rw [check_refuse_ok_iff] at hpath
  rw [← Except.ok.inj hpath.2] at hread
  obtain ⟨lifecycle, hlifecycle, hanswer⟩ := bind_ok_iff.mp hread
  refine ⟨lifecycle, hlifecycle, ?_⟩
  rw [← validateScopedEngagement_eq hlabel, hengagement] at hown
  rw [← Except.ok.inj hanswer, ← Except.ok.inj hown, ← Except.ok.inj hrun, withCollisionClaims_activeClaims,
    withScopedRoster_activeClaims, selectScopedFacts_eq, snapshotAt_activeClaims]

/-- The claims that a list of facts shows, each with its lease. -/
theorem mem_projectActiveClaims_resolved :
    d ∈ projectActiveClaims ext (resolvedFacts facts) ↔
      ∃ c, isLocalClaim c = true ∧ OpenIn facts c ∧ d = projectEffectiveClaim ext c (resolvedFacts facts) := by
  rw [mem_projectActiveClaims]
  constructor
  · rintro ⟨c, hc, hactive, rfl⟩
    obtain ⟨hlocal, hopen⟩ := activeIn_iff_openIn.mp ⟨hc, hactive⟩
    exact ⟨c, hlocal, hopen, rfl⟩
  · rintro ⟨c, hlocal, hopen, rfl⟩
    obtain ⟨hc, hactive⟩ := activeIn_iff_openIn.mpr ⟨hlocal, hopen⟩
    exact ⟨c, hc, hactive, rfl⟩

/-- Claims that share an event id are one claim. -/
def ClaimIdsDistinct (facts : List Fact) : Prop :=
  ∀ a ∈ facts, ∀ b ∈ facts, a.kind = .claim → b.kind = .claim → a.eventId = b.eventId → a = b

/-- **The claims of the answer** on the path: those open among the linked facts, and those that no fact of the
room closes and that are not open there. -/
theorem mem_collisionAnswer (hids : ClaimIdsDistinct (facts ++ linked)) (hsub : lifecycle.Sublist facts)
    (hnodup : facts.Nodup) (hall : ∀ x ∈ facts, isClaimLifecycleEventType x.kind.asStr = true → x ∈ lifecycle)
    (hpath : onPath repoRelativePath path d = true) :
    d ∈ sortBySeq (addMissingClaims (projectActiveClaims ext (resolvedFacts linked))
        (sortBySeq (projectActiveClaims ext (claimLifecycleRelevantToPath repoRelativePath lifecycle path)))) ↔
      (∃ c, isLocalClaim c = true ∧ OpenIn linked c ∧ d = projectEffectiveClaim ext c (resolvedFacts linked)) ∨
        ∃ c ∈ facts, isLocalClaim c = true ∧ ¬OpenIn linked c ∧ (∀ x ∈ facts, closesClaim x c = false) ∧
          d = projectEffectiveClaim ext c facts := by
  have hexternal : ∀ x ∈ sortBySeq (projectActiveClaims ext
        (claimLifecycleRelevantToPath repoRelativePath lifecycle path)), ∀ y ∈ sortBySeq (projectActiveClaims ext
        (claimLifecycleRelevantToPath repoRelativePath lifecycle path)), x.eventId = y.eventId → x = y := by
    intro x hx y hy heq
    obtain ⟨a, ha, hactive, rfl⟩ := mem_projectActiveClaims.mp (mem_sortBySeq.mp hx)
    obtain ⟨b, hb, hactive', rfl⟩ := mem_projectActiveClaims.mp (mem_sortBySeq.mp hy)
    have hmem : ∀ {z : Fact}, z ∈ claimLifecycleRelevantToPath repoRelativePath lifecycle path →
        z ∈ facts ++ linked :=
      fun hz => List.mem_append_left _ (hsub.subset (List.mem_of_mem_filter hz))
    rw [projectEffectiveClaim_eventId, projectEffectiveClaim_eventId] at heq
    rw [hids a (hmem ha) b (hmem hb) (kind_of_isLocalClaim (isActiveClaimFact_iff.mp hactive).1)
      (kind_of_isLocalClaim (isActiveClaimFact_iff.mp hactive').1) heq]
  rw [mem_sortBySeq, mem_addMissingClaims hexternal, mem_sortBySeq, mem_projectActiveClaims_resolved,
    mem_projectActiveClaims_lifecycle hsub hnodup hall hpath]
  refine or_congr_right ?_
  constructor
  · rintro ⟨⟨c, hc, hlocal, hunclosed, rfl⟩, hnew⟩
    refine ⟨c, hc, hlocal, fun hopen => ?_, hunclosed, rfl⟩
    refine hnew _ (mem_projectActiveClaims_resolved.mpr ⟨c, hlocal, hopen, rfl⟩) ?_
    rw [projectEffectiveClaim_eventId, projectEffectiveClaim_eventId]
  · rintro ⟨c, hc, hlocal, hshut, hunclosed, rfl⟩
    refine ⟨⟨c, hc, hlocal, hunclosed, rfl⟩, fun a ha heq => ?_⟩
    obtain ⟨b, hlocal', hopen, rfl⟩ := mem_projectActiveClaims_resolved.mp ha
    rw [projectEffectiveClaim_eventId, projectEffectiveClaim_eventId] at heq
    rw [hids b (List.mem_append_right _ hopen.mem) c (List.mem_append_left _ hc) (kind_of_isLocalClaim hlocal')
      (kind_of_isLocalClaim hlocal) heq] at hopen
    exact hshut hopen

end Answer

/-! ## When the two answers agree -/

/-- The two snapshots show the same claims on a path, with the same leases. -/
def SameClaimsOnPath (repoRelativePath : String → Option String) (path : String) (answer room : RoomSnapshot) :
    Prop :=
  ∀ d, onPath repoRelativePath path d = true → (d ∈ answer.activeClaims ↔ d ∈ room.activeClaims)

/-- What the room's facts and the linked facts of an engagement must have in common over one claim. -/
structure CollisionAgrees (ext : Externals) (facts linked : List Fact) (c : Fact) : Prop where
  /-- A claim open among the linked facts is in a file that the room replays. -/
  listed : OpenIn linked c → c ∈ facts
  /-- A withdrawn claim was closed as well, and the linked facts end it. -/
  withdrawn : c ∈ facts → c.eventId ∈ retractedIds facts →
    (∃ x ∈ facts, closesClaim x c = true) ∧ ¬OpenIn linked c
  /-- A claim closed by a fact that stands is ended among the linked facts. -/
  closed : c ∈ facts → (∃ x ∈ facts, closesClaim x c = true ∧ x.eventId ∉ retractedIds facts) → ¬OpenIn linked c
  /-- A claim whose closers were all withdrawn is open among the linked facts. -/
  reopened : OpenIn facts c → (∃ x ∈ facts, closesClaim x c = true) → OpenIn linked c
  /-- The renewals of the linked facts, or with those the room withdrew, give the lease of the room. -/
  lease : OpenIn facts c →
    (OpenIn linked c →
      projectEffectiveClaim ext c (resolvedFacts linked) = projectEffectiveClaim ext c (resolvedFacts facts)) ∧
    (¬OpenIn linked c → projectEffectiveClaim ext c facts = projectEffectiveClaim ext c (resolvedFacts facts))

section Agreement

variable {repoRelativePath : String → Option String} {ext : Externals} {codec : SegmentCodec}
variable {coord : CoordinationConfig} {includeArchived includePresenceOnly : Bool} {nowSecs : Int}
variable {log archive : RowDir} {engagement path : String} {snapshot : RoomSnapshot}
variable {facts engagementFacts linked : List Fact} {c d : Fact}

/-- A claim that the answer shows is open in the room and has the room's lease there, and one that is open in the
room is shown. -/
structure ShownAlike (ext : Externals) (facts linked : List Fact) (c : Fact) : Prop where
  linkedOpen : OpenIn linked c → OpenIn facts c ∧
    projectEffectiveClaim ext c (resolvedFacts linked) = projectEffectiveClaim ext c (resolvedFacts facts)
  unclosed : c ∈ facts → ¬OpenIn linked c → (∀ x ∈ facts, closesClaim x c = false) →
    OpenIn facts c ∧ projectEffectiveClaim ext c facts = projectEffectiveClaim ext c (resolvedFacts facts)
  roomOpen : OpenIn facts c → OpenIn linked c ∨ ∀ x ∈ facts, closesClaim x c = false

theorem shownAlike_iff : ShownAlike ext facts linked c ↔ CollisionAgrees ext facts linked c := by
  have hnone : (∀ x ∈ facts, closesClaim x c = false) ↔ ¬∃ x ∈ facts, closesClaim x c = true := by
    simp only [not_exists, not_and, Bool.not_eq_true]
  constructor
  · rintro ⟨hlinked, hunclosed, hroom⟩
    exact {
      listed := by
        intro hopen
        exact (hlinked hopen).1.mem
      withdrawn := by
        intro hc hwithdrawn
        have hshut : ¬OpenIn linked c := by
          intro hopen
          exact (hlinked hopen).1.notWithdrawn hwithdrawn
        refine ⟨?_, hshut⟩
        by_contra hcloser
        exact (hunclosed hc hshut (hnone.mpr hcloser)).1.notWithdrawn hwithdrawn
      closed := by
        rintro hc ⟨x, hx, hcloses, hstands⟩ hopen
        exact hstands ((hlinked hopen).1.closersWithdrawn x hx hcloses)
      reopened := by
        intro hopen hcloser
        apply (hroom hopen).resolve_right
        intro h
        exact hnone.mp h hcloser
      lease := by
        intro hopen
        refine ⟨fun hlink => (hlinked hlink).2, ?_⟩
        intro hshut
        exact (hunclosed hopen.mem hshut ((hroom hopen).resolve_left hshut)).2 }
  · rintro ⟨hlisted, hwithdrawn, hclosed, hreopened, hlease⟩
    exact {
      linkedOpen := by
        intro hopen
        have hc := hlisted hopen
        have hroom : OpenIn facts c := by
          refine ⟨hc, fun h => (hwithdrawn hc h).2 hopen, ?_⟩
          intro x hx hcloses
          by_contra hstands
          exact hclosed hc ⟨x, hx, hcloses, hstands⟩ hopen
        exact ⟨hroom, (hlease hroom).1 hopen⟩
      unclosed := by
        intro hc hshut hunclosed
        have hroom : OpenIn facts c := by
          refine ⟨hc, fun h => hnone.mp hunclosed (hwithdrawn hc h).1, ?_⟩
          intro x hx hcloses
          rw [hunclosed x hx] at hcloses
          cases hcloses
        exact ⟨hroom, (hlease hroom).2 hshut⟩
      roomOpen := by
        intro hopen
        by_cases hcloser : ∃ x ∈ facts, closesClaim x c = true
        · exact .inl (hreopened hopen hcloser)
        · exact .inr (hnone.mpr hcloser) }

/-- **The path-scoped answer is the room's** exactly when the linked facts of the engagement and the facts of the
room agree over every claim of the path that either of them has. -/
theorem scopedCollisionAnswer_iff
    (hvalid : ∀ row, InRoom log archive row → validRow codec row = true)
    (hroom : factsFromSegments codec log archive = .ok facts)
    (hengagement : factsFromEngagementSegments codec log archive engagement = .ok engagementFacts)
    (hids : ClaimIdsDistinct (facts ++ engagementFacts))
    (hsnapshot : prepareSnapshotScoped ext repoRelativePath codec coord includeArchived nowSecs log archive
      engagement none (some path) includePresenceOnly = .ok snapshot) :
    SameClaimsOnPath repoRelativePath (normalizePath repoRelativePath (trim path)) snapshot
        (snapshotFromFactsWithPolicyAt ext facts coord includeArchived nowSecs) ↔
      ∀ c ∈ facts ++ linkedFacts repoRelativePath engagementFacts (normalizePath repoRelativePath (trim path)),
        isLocalClaim c = true → onPath repoRelativePath (normalizePath repoRelativePath (trim path)) c = true →
          CollisionAgrees ext facts
            (linkedFacts repoRelativePath engagementFacts (normalizePath repoRelativePath (trim path))) c := by
  obtain ⟨lifecycle, hlifecycle, hactive⟩ := prepareSnapshotScoped_activeClaims hengagement hsnapshot
  obtain ⟨hsub, hnodup, hall⟩ := claimLifecycleFacts_of_room hvalid hroom hlifecycle
  generalize normalizePath repoRelativePath (trim path) = path at hactive ⊢
  have hpart : ∀ x ∈ linkedFacts repoRelativePath engagementFacts path, x ∈ engagementFacts := fun x hx =>
    (mem_linkedFacts.mp hx).mem
  generalize linkedFacts repoRelativePath engagementFacts path = linked at hactive hpart ⊢
  have hlinkedIds : ClaimIdsDistinct (facts ++ linked) := by
    have hincl : ∀ x ∈ facts ++ linked, x ∈ facts ++ engagementFacts := fun x hx =>
      List.mem_append.mpr ((List.mem_append.mp hx).imp id (hpart x))
    exact fun a ha b hb => hids a (hincl a ha) b (hincl b hb)
  -- an id tells the claims of both lists apart
  have hsame : ∀ {a b : Fact} {F G : List Fact}, a ∈ facts ++ linked → b ∈ facts ++ linked →
      isLocalClaim a = true → isLocalClaim b = true →
      projectEffectiveClaim ext a F = projectEffectiveClaim ext b G → a = b := by
    intro a b F G ha hb hla hlb heq
    have hid := congrArg Fact.eventId heq
    rw [projectEffectiveClaim_eventId, projectEffectiveClaim_eventId] at hid
    exact hlinkedIds a ha b hb (kind_of_isLocalClaim hla) (kind_of_isLocalClaim hlb) hid
  have hfacts : ∀ {a : Fact}, a ∈ facts → a ∈ facts ++ linked := List.mem_append_left _
  have hlinked : ∀ {a : Fact}, a ∈ linked → a ∈ facts ++ linked := List.mem_append_right _
  have hscope : ∀ {a : Fact} (G : List Fact), onPath repoRelativePath path a = true →
      onPath repoRelativePath path (projectEffectiveClaim ext a G) = true := fun G ha =>
    (onPath_projectEffectiveClaim _ G).trans ha
  have hanswer := fun d =>
    @mem_collisionAnswer repoRelativePath ext path facts lifecycle linked d hlinkedIds hsub hnodup hall
  rw [← hactive] at hanswer
  unfold SameClaimsOnPath
  simp only [snapshotAt_activeClaims, mem_projectActiveClaims_resolved, ← shownAlike_iff]
  constructor
  · intro hagree c hc hlocal hpath
    -- what one side shows of `c` is what the other shows under its id
    exact {
      linkedOpen := by
        intro hopen
        have hd := hscope (resolvedFacts linked) hpath
        obtain ⟨b, hlb, hb, heq⟩ := (hagree _ hd).mp ((hanswer _ hd).mpr (.inl ⟨c, hlocal, hopen, rfl⟩))
        obtain rfl := hsame hc (hfacts hb.mem) hlocal hlb heq
        exact ⟨hb, heq⟩
      unclosed := by
        intro hcf hshut hunclosed
        have hd := hscope facts hpath
        obtain ⟨b, hlb, hb, heq⟩ :=
          (hagree _ hd).mp ((hanswer _ hd).mpr (.inr ⟨c, hcf, hlocal, hshut, hunclosed, rfl⟩))
        obtain rfl := hsame hc (hfacts hb.mem) hlocal hlb heq
        exact ⟨hb, heq⟩
      roomOpen := by
        intro hopen
        have hd := hscope (resolvedFacts facts) hpath
        rcases (hanswer _ hd).mp ((hagree _ hd).mpr ⟨c, hlocal, hopen, rfl⟩) with
          ⟨b, hlb, hb, heq⟩ | ⟨b, hbf, hlb, -, hunclosed, heq⟩
        · obtain rfl := hsame hc (hlinked hb.mem) hlocal hlb heq
          exact .inl hb
        · obtain rfl := hsame hc (hfacts hbf) hlocal hlb heq
          exact .inr hunclosed }
  · intro hagree d hd
    rw [hanswer d hd]
    constructor
    · rintro (⟨c, hlocal, hopen, rfl⟩ | ⟨c, hcf, hlocal, hshut, hunclosed, rfl⟩)
      · rw [onPath_projectEffectiveClaim] at hd
        obtain ⟨hroom, heq⟩ := (hagree c (hlinked hopen.mem) hlocal hd).linkedOpen hopen
        exact ⟨c, hlocal, hroom, heq⟩
      · rw [onPath_projectEffectiveClaim] at hd
        obtain ⟨hroom, heq⟩ := (hagree c (hfacts hcf) hlocal hd).unclosed hcf hshut hunclosed
        exact ⟨c, hlocal, hroom, heq⟩
    · rintro ⟨c, hlocal, hroom, rfl⟩
      rw [onPath_projectEffectiveClaim] at hd
      have halike := hagree c (hfacts hroom.mem) hlocal hd
      by_cases hopen : OpenIn linked c
      · exact .inl ⟨c, hlocal, hopen, (halike.linkedOpen hopen).2.symm⟩
      · have hunclosed := (halike.roomOpen hroom).resolve_left hopen
        exact .inr ⟨c, hroom.mem, hlocal, hopen, hunclosed, (halike.unclosed hroom.mem hopen hunclosed).2.symm⟩

end Agreement

namespace CollisionSample

def row (seq : Int) (kind eventId engagement : String) : SegmentRow where
  seq := seq
  occurredAt := "2026-01-01T00:00:00Z"
  eventType := kind
  payload := .object [("event_id", .string eventId), ("kind", .string kind)]
  engagement := some engagement

def claim : Fact := { eventId := "c1", seq := 2, kind := .claim, tool := some "codex:a", scope := ["file:src/a.rs"] }

def note : Fact := { eventId := "a1", seq := 1, kind := .artifact, scope := ["file:src/a.rs"] }

/-- A claim on a file, what releases and what withdraws it, and another fact on that file. -/
def codec : SegmentCodec where
  parseRow _ := .error "the rows are given"
  parseFact payload :=
    if payload.get "event_id" = some (.string "c1") then .ok { claim with seq := 0 }
    else if payload.get "event_id" = some (.string "x1") then
      .ok { eventId := "x1", kind := .release, refId := some "c1" }
    else if payload.get "event_id" = some (.string "t1") then
      .ok { eventId := "t1", kind := .artifact, subject := "retract: c1" }
    else .ok { note with seq := 0 }

def log (alpha beta : List SegmentRow) : RowDir := (AList.singleton "alpha.jsonl" alpha).insert "beta.jsonl" beta

/-- Engagement alpha asks for the file. -/
def snapshot (alpha beta : List SegmentRow) : Result RoomSnapshot :=
  prepareSnapshotScoped Externals.sample (fun _ => none) codec {} false 0 (log alpha beta) ∅ "alpha" none
    (some "src/a.rs") false

end CollisionSample

open CollisionSample

/-- A claim of another engagement that nothing ends: alpha sees it as the room does. -/
theorem scopedCollisionAnswer_open :
    ∃ answer room, snapshot [row 1 "artifact" "a1" "alpha"] [row 2 "claim" "c1" "beta"] = .ok answer ∧
      factsFromSegments codec (log [row 1 "artifact" "a1" "alpha"] [row 2 "claim" "c1" "beta"]) ∅ = .ok room ∧
      SameClaimsOnPath (fun _ => none) (normalizePath (fun _ => none) (trim "src/a.rs")) answer
        (snapshotFromFactsWithPolicyAt Externals.sample room {} false 0) := by
  have hrows : roomEntries (log [row 1 "artifact" "a1" "alpha"] [row 2 "claim" "c1" "beta"]) ∅ =
      .ok [row 1 "artifact" "a1" "alpha", row 2 "claim" "c1" "beta"] := by decide
  have hroom : factsFromSegments codec (log [row 1 "artifact" "a1" "alpha"] [row 2 "claim" "c1" "beta"]) ∅ =
      .ok [note, claim] := by decide
  have hengagement : factsFromEngagementSegments codec
      (log [row 1 "artifact" "a1" "alpha"] [row 2 "claim" "c1" "beta"]) ∅ "alpha" = .ok [note] := by decide
  have hvalid : ∀ r, InRoom (log [row 1 "artifact" "a1" "alpha"] [row 2 "claim" "c1" "beta"]) ∅ r →
      validRow codec r = true := by
    have hall : ∀ r ∈ [row 1 "artifact" "a1" "alpha", row 2 "claim" "c1" "beta"], validRow codec r = true := by
      decide
    exact fun r hr => hall r (((roomEntries_ok hrows).2 r).mpr hr)
  have hids : ClaimIdsDistinct ([note, claim] ++ [note]) := by
    unfold ClaimIdsDistinct
    decide
  have hsome : (snapshot [row 1 "artifact" "a1" "alpha"] [row 2 "claim" "c1" "beta"]).isOk = true := by
    decide
  cases hanswer : snapshot [row 1 "artifact" "a1" "alpha"] [row 2 "claim" "c1" "beta"] with
  | error e =>
    rw [hanswer] at hsome
    cases hsome
  | ok answer =>
    refine ⟨answer, _, rfl, hroom, (scopedCollisionAnswer_iff hvalid hroom hengagement hids hanswer).mpr ?_⟩
    intro c hc hlocal _
    have hnote : isLocalClaim note = false := by decide
    have hlinked : ∀ x ∈ linkedFacts (fun _ => none) [note] (normalizePath (fun _ => none) (trim "src/a.rs")),
        x = note := fun x hx => List.mem_singleton.mp (mem_linkedFacts.mp hx).mem
    have hclaim : c = claim := by
      rcases List.mem_append.mp hc with hc | hc
      · rcases List.mem_cons.mp hc with rfl | hc
        · rw [hnote] at hlocal
          cases hlocal
        · exact List.mem_singleton.mp hc
      · rw [hlinked c hc, hnote] at hlocal
        cases hlocal
    subst hclaim
    have hshut : ¬OpenIn
        (linkedFacts (fun _ => none) [note] (normalizePath (fun _ => none) (trim "src/a.rs"))) claim :=
      fun hopen => absurd (hlinked _ hopen.mem) (by decide)
    have hunclosed : ∀ x ∈ [note, claim], closesClaim x claim = false := by decide
    exact {
      listed := by
        intro hopen
        exact absurd hopen hshut
      withdrawn := by
        intro _ hwithdrawn
        exact absurd hwithdrawn (by decide)
      closed := fun _ _ => hshut
      reopened := by
        rintro _ ⟨x, hx, hcloses⟩
        rw [hunclosed x hx] at hcloses
        cases hcloses
      lease := fun _ => ⟨fun hopen => absurd hopen hshut, fun _ => by decide⟩ }

/-- The claim c1 is in the answer and not in the room. -/
theorem not_sameClaims {alpha beta : List SegmentRow}
    (hsnapshot : (snapshot alpha beta).map (·.activeClaims) = .ok [{ claim with evidence := ["lease_granted_at:"] }])
    (hroom : (factsFromSegments codec (log alpha beta) ∅).map (fun facts =>
      projectActiveClaims Externals.sample (resolvedFacts facts)) = .ok []) :
    ∃ answer room, snapshot alpha beta = .ok answer ∧ factsFromSegments codec (log alpha beta) ∅ = .ok room ∧
      ¬SameClaimsOnPath (fun _ => none) (normalizePath (fun _ => none) (trim "src/a.rs")) answer
        (snapshotFromFactsWithPolicyAt Externals.sample room {} false 0) := by
  obtain ⟨answer, hanswer, hclaims⟩ := map_eq_ok_iff.mp hsnapshot
  obtain ⟨facts, hfacts, hnone⟩ := map_eq_ok_iff.mp hroom
  refine ⟨answer, facts, hanswer, hfacts, fun hsame => ?_⟩
  have hshown := hsame { claim with evidence := ["lease_granted_at:"] } (by decide)
  rw [hclaims, snapshotAt_activeClaims, hnone] at hshown
  exact absurd (hshown.mp List.mem_cons_self) List.not_mem_nil

/-- A claim that its engagement withdrew, and a claim that another engagement released: alpha still sees both,
the room neither. -/
theorem scopedCollisionAnswer_counterexample :
    (∃ answer room,
      snapshot [row 1 "artifact" "a1" "alpha"] [row 2 "claim" "c1" "beta", row 3 "artifact" "t1" "beta"] =
          .ok answer ∧
      factsFromSegments codec
        (log [row 1 "artifact" "a1" "alpha"] [row 2 "claim" "c1" "beta", row 3 "artifact" "t1" "beta"]) ∅ = .ok room ∧
      ¬SameClaimsOnPath (fun _ => none) (normalizePath (fun _ => none) (trim "src/a.rs")) answer
        (snapshotFromFactsWithPolicyAt Externals.sample room {} false 0)) ∧
    ∃ answer room,
      snapshot [row 2 "claim" "c1" "alpha"] [row 3 "release" "x1" "beta"] = .ok answer ∧
      factsFromSegments codec (log [row 2 "claim" "c1" "alpha"] [row 3 "release" "x1" "beta"]) ∅ = .ok room ∧
      ¬SameClaimsOnPath (fun _ => none) (normalizePath (fun _ => none) (trim "src/a.rs")) answer
        (snapshotFromFactsWithPolicyAt Externals.sample room {} false 0) :=
  ⟨not_sameClaims (by decide) (by decide), not_sameClaims (by decide) (by decide)⟩

end RallyPoint
