/-
# RallyPoint.CompositionAccounts — what the passes over a room keep and count.

Two invariants run through the passes. `Kept` says what survives every cut: everything outside the cuttable buckets,
a top of each budgeted bucket, the handoffs assigned to the caller. `Tallied` says that the block beside the buckets
counts the rest, as long as the totals of the room are the lengths of its buckets.
-/
import RallyPoint.Composition

namespace RallyPoint.Wire.Composition

open Lib

/-! ## The block by its keys -/

namespace Buckets

theorem get_cons (k key : String) (e : BucketComposition) (rest : Buckets) :
    get ((k, e) :: rest) key = if k = key then some e else get rest key := by
  rw [get, List.find?_cons]
  by_cases h : k = key
  · simp [h]
  · rw [show (k == key) = false by simpa using h, if_neg h]
    rfl

theorem get_insert (key key' : String) (e : BucketComposition) (buckets : Buckets) :
    (buckets.insert key e).get key' = if key = key' then some e else buckets.get key' := by
  induction buckets with
  | nil => rw [insert, get_cons]
  | cons entry rest ih =>
    obtain ⟨k, v⟩ := entry
    rw [insert]
    split
    case isTrue hk =>
      subst hk
      rw [get_cons, get_cons]
      split <;> rfl
    case isFalse hk =>
      split
      · rw [get_cons]
      · rw [get_cons, get_cons, ih]
        by_cases h : key = key'
        · rw [if_pos h, if_pos h, if_neg fun heq => hk (heq.trans h.symm)]
        · rw [if_neg h, if_neg h]

theorem ne_nil_of_get {buckets : Buckets} {key : String} {e : BucketComposition} (h : buckets.get key = some e) :
    buckets ≠ [] := by
  rintro rfl
  cases h

end Buckets

/-! ## The buckets of a room -/

section Rooms

variable {s : RoomSnapshot} {b b' : Bucket} {facts : List Fact}

theorem Bucket.mem_all (b : Bucket) : b ∈ Bucket.all := by cases b <;> decide

theorem Bucket.mem_byName (b : Bucket) : b ∈ Bucket.byName := by cases b <;> decide

theorem Bucket.name_inj : b.name = b'.name ↔ b = b' := by
  constructor
  · cases b <;> cases b' <;> first | exact fun _ => rfl | exact fun h => absurd h (by decide)
  · exact congrArg Bucket.name

theorem Bucket.name_ne (b : Bucket) : b.name ≠ "unconsumed_artifacts" ∧ b.name ≠ "stale_facts" := by
  cases b <;> decide

theorem bucketRef_setBucket (s : RoomSnapshot) (facts : List Fact) (b b' : Bucket) :
    bucketRef (setBucket s facts b) b' = if b = b' then facts else bucketRef s b' := by
  cases b <;> cases b' <;> rfl

/-- Everything that no pass cuts. -/
def neverCut (s : RoomSnapshot) : RoomSnapshot :=
  { s with
    currentDecisions := [], currentRisks := [], recentArtifacts := [], openHandoffs := []
    unconsumedArtifacts := [], staleFacts := [], composition := none }

@[simp] theorem unconsumedArtifacts_setBucket :
    (setBucket s facts b).unconsumedArtifacts = s.unconsumedArtifacts := by cases b <;> rfl

/-- Two rooms that differ at most in the buckets that compete and in the artifacts nobody took. -/
structure SameBeside (s s' : RoomSnapshot) : Prop where
  neverCut : neverCut s' = neverCut s
  staleFacts : s'.staleFacts = s.staleFacts
  composition : s'.composition = s.composition

theorem SameBeside.trans {s s' s'' : RoomSnapshot} (h : SameBeside s s') (h' : SameBeside s' s'') :
    SameBeside s s'' :=
  ⟨h'.neverCut.trans h.neverCut, h'.staleFacts.trans h.staleFacts, h'.composition.trans h.composition⟩

theorem sameBeside_setBucket : SameBeside s (setBucket s facts b) := by cases b <;> exact ⟨rfl, rfl, rfl⟩

theorem totals_of_neverCut {s s' : RoomSnapshot} (h : neverCut s = neverCut s') : s.totals = s'.totals :=
  congrArg (·.totals) h

theorem bucketTotal_of_neverCut {s s' : RoomSnapshot} (h : neverCut s = neverCut s') :
    bucketTotal s b = bucketTotal s' b := by
  cases b <;> simp only [bucketTotal, totals_of_neverCut h]

/-- The buckets that a pass may cut, with their names in the block. -/
inductive Cuttable
  | budgeted (b : Bucket) | unconsumedArtifacts | staleFacts

def Cuttable.name : Cuttable → String
  | budgeted b => b.name
  | unconsumedArtifacts => "unconsumed_artifacts"
  | staleFacts => "stale_facts"

def Cuttable.of (s : RoomSnapshot) : Cuttable → List Fact
  | budgeted b => bucketRef s b
  | unconsumedArtifacts => s.unconsumedArtifacts
  | staleFacts => s.staleFacts

theorem Cuttable.name_inj {c c' : Cuttable} (h : c.name = c'.name) : c = c' := by
  cases c with
  | budgeted b =>
    cases c' with
    | budgeted b' => rw [Bucket.name_inj.mp h]
    | unconsumedArtifacts => exact absurd h b.name_ne.1
    | staleFacts => exact absurd h b.name_ne.2
  | unconsumedArtifacts =>
    cases c' with
    | budgeted b => exact absurd h.symm b.name_ne.1
    | unconsumedArtifacts => rfl
    | staleFacts => exact absurd h (by decide)
  | staleFacts =>
    cases c' with
    | budgeted b => exact absurd h.symm b.name_ne.2
    | unconsumedArtifacts => exact absurd h (by decide)
    | staleFacts => rfl

/-- The totals are the lengths of the buckets, as every projection and every filter sets them. -/
structure TrueTotals (s : RoomSnapshot) : Prop where
  budgeted : ∀ b, bucketTotal s b = (bucketRef s b).length
  unconsumed : s.totals.unconsumedArtifacts = s.unconsumedArtifacts.length

end Rooms

/-! ## What is kept and what is counted -/

section Invariants

variable {κ : Type} [LinearOrder κ] (score : Fact → κ) (tool : Option String)

/-- What ranks a fact: its score, then its sequence number. -/
def factRank (fact : Fact) : κ ×ₗ Int := toLex (score fact, fact.seq)

/-- Of a list that holds something, one that nothing outranks is kept. -/
def KeepsTop (before after : List Fact) : Prop :=
  before ≠ [] → ∃ x ∈ after, ∀ y ∈ before, factRank score y ≤ factRank score x

/-- What every pass keeps of the room it was given. -/
structure Kept (s₀ s : RoomSnapshot) : Prop where
  neverCut : neverCut s = neverCut s₀
  part : ∀ c : Cuttable, (c.of s).Subperm (c.of s₀)
  top : ∀ b, KeepsTop score (bucketRef s₀ b) (bucketRef s b)
  assigned : ∀ t, tool = some t → (s.openHandoffs.filter fun fact => handoffAssignedTo fact t) =
    s₀.openHandoffs.filter fun fact => handoffAssignedTo fact t

/-- What is said of a bucket that was cut. -/
def Says (buckets : Buckets) (key : String) (before after : List Fact) : Prop :=
  after.length < before.length → ∃ e, buckets.get key = some e ∧ e.total = before.length ∧
    e.emitted = after.length ∧ e.omitted = before.length - after.length

/-- The block counts what every bucket left out. -/
def Tallied (s₀ s : RoomSnapshot) (buckets : Buckets) : Prop :=
  ∀ c : Cuttable, Says buckets c.name (c.of s₀) (c.of s)

variable {score tool}
variable {before after before' after' : List Fact} {buckets : Buckets} {key : String}

theorem says_refl : Says buckets key before before := fun h => absurd h (lt_irrefl _)

theorem says_of_get {e : BucketComposition} (hget : buckets.get key = some e) (htotal : e.total = before.length)
    (hemitted : e.emitted = after.length) (homitted : e.omitted = before.length - after.length) :
    Says buckets key before after := fun _ => ⟨e, hget, htotal, hemitted, homitted⟩

/-- An entry for another bucket changes nothing. -/
theorem Says.insert {key' : String} {e : BucketComposition} (h : Says buckets key before after) (hne : key' ≠ key) :
    Says (buckets.insert key' e) key before after := by
  intro hcut
  rw [Buckets.get_insert, if_neg hne]
  exact h hcut

theorem keepsTop_refl : KeepsTop score before before := by
  intro hne
  have hsome : before.argmax (factRank score) ≠ none := fun hnone => hne (List.argmax_eq_none.mp hnone)
  obtain ⟨x, hx⟩ := Option.ne_none_iff_exists'.mp hsome
  exact ⟨x, List.argmax_mem hx, fun y hy => List.le_of_mem_argmax hy hx⟩

theorem KeepsTop.append (h : KeepsTop score before after) (h' : KeepsTop score before' after') :
    KeepsTop score (before ++ before') (after ++ after') := by
  intro hne
  rcases eq_or_ne before [] with rfl | hb
  · obtain ⟨x, hx, htop⟩ := h' (by simpa using hne)
    exact ⟨x, List.mem_append_right _ hx, by simpa using htop⟩
  rcases eq_or_ne before' [] with rfl | hb'
  · obtain ⟨x, hx, htop⟩ := h hb
    exact ⟨x, List.mem_append_left _ hx, by simpa using htop⟩
  obtain ⟨x, hx, htop⟩ := h hb
  obtain ⟨x', hx', htop'⟩ := h' hb'
  rcases le_total (factRank score x) (factRank score x') with hle | hle
  · refine ⟨x', List.mem_append_right _ hx', fun y hy => ?_⟩
    rcases List.mem_append.mp hy with hy | hy
    · exact (htop y hy).trans hle
    · exact htop' y hy
  · refine ⟨x, List.mem_append_left _ hx, fun y hy => ?_⟩
    rcases List.mem_append.mp hy with hy | hy
    · exact htop y hy
    · exact (htop' y hy).trans hle

theorem KeepsTop.of_perm (h : KeepsTop score before after) (hperm : before.Perm before') :
    KeepsTop score before' after := by
  intro hne
  obtain ⟨x, hx, htop⟩ := h fun hnil => hne (by rw [hnil] at hperm; exact hperm.nil_eq.symm)
  exact ⟨x, hx, fun y hy => htop y (hperm.mem_iff.mpr hy)⟩

end Invariants

/-! ## The filling pass -/

section Fill

variable {κ : Type} [LinearOrder κ] {sizes : Sizes} {score : Fact → κ} {tool : Option String}
variable {s : RoomSnapshot} {b : Bucket} {facts : List Fact} {order kept : Bucket → List Nat} {buckets : Buckets}

theorem filterMap_range_getElem? {α : Type} (l : List α) : ((List.range l.length).filterMap fun i => l[i]?) = l := by
  induction l with
  | nil => rfl
  | cons a l ih =>
    rw [List.length_cons, List.range_succ_eq_map, List.filterMap_cons, List.filterMap_map]
    exact congrArg (a :: ·) ih

variable (sizes score) in
omit [LinearOrder κ] in
theorem map_index_candidates (b : Bucket) (facts : List Fact) :
    (candidates sizes score b facts).map (·.index) = List.range facts.length := by
  rw [candidates]
  apply List.ext_getElem
  · simp
  · intro i h h'
    simp [candidate]

/-- What a bucket holds after it was rebuilt. -/
def shown (order kept : List Nat) (facts : List Fact) : List Fact :=
  if kept.length = facts.length then facts
  else (order.filter fun i => kept.contains i).filterMap fun i => facts[i]?

theorem shown_subperm {order kept : List Nat} (horder : order.Perm (List.range facts.length)) :
    (shown order kept facts).Subperm facts := by
  rw [shown]
  split
  case isTrue => exact List.Subperm.refl _
  case isFalse =>
    have hsub : ((order.filter fun i => kept.contains i).filterMap fun i => facts[i]?).Sublist
        (order.filterMap fun i => facts[i]?) := List.filter_sublist.filterMap _
    have hperm := horder.filterMap fun i => facts[i]?
    rw [filterMap_range_getElem?] at hperm
    exact hsub.subperm.trans hperm.subperm

variable (sizes score) in
theorem ranked_perm (s : RoomSnapshot) (b : Bucket) :
    ((ranked sizes score s b).map (·.index)).Perm (List.range (bucketRef s b).length) := by
  rw [← map_index_candidates sizes score b, ranked, sortRanked]
  exact (List.perm_insertionSort _ _).map _

/-- The first of a ranked bucket outranks the others. -/
theorem top_of_ranked {top : Candidate κ} (h : (ranked sizes score s b).head? = some top) :
    top.bucket = b ∧ ∃ x, (bucketRef s b)[top.index]? = some x ∧
      ∀ y ∈ bucketRef s b, factRank score y ≤ factRank score x := by
  have hmem : top ∈ candidates sizes score b (bucketRef s b) :=
    (List.perm_insertionSort _ _).mem_iff.mp (List.mem_of_mem_head? h)
  obtain ⟨i, hi, rfl⟩ := List.mem_mapIdx.mp hmem
  refine ⟨rfl, (bucketRef s b)[i], List.getElem?_eq_getElem hi, fun y hy => ?_⟩
  obtain ⟨j, hj, rfl⟩ := List.getElem_of_mem hy
  have hother : candidate sizes score b j (bucketRef s b)[j] ∈ ranked sizes score s b :=
    (List.perm_insertionSort _ _).mem_iff.mpr (List.mem_mapIdx.mpr ⟨j, hj, rfl⟩)
  have : Std.Total fun a b : Candidate κ => b.rank ≤ a.rank := ⟨fun a b => le_total b.rank a.rank⟩
  have : IsTrans (Candidate κ) fun a b => b.rank ≤ a.rank := ⟨fun a b c h h' => h'.trans h⟩
  have hsorted : (ranked sizes score s b).Pairwise fun a b => b.rank ≤ a.rank := List.pairwise_insertionSort _ _
  obtain ⟨rest, hrest⟩ := List.head?_eq_some_iff.mp h
  rw [hrest] at hother hsorted
  rcases List.mem_cons.mp hother with heq | hrest
  · exact (congrArg Candidate.rank heq).le
  · exact (List.pairwise_cons.mp hsorted).1 _ hrest

theorem head_mem_keep {top : Candidate κ} {remaining : Nat} (h : (ranked sizes score s b).head? = some top) :
    top ∈ keep sizes score s remaining :=
  List.mem_append_left _ (List.mem_filterMap.mpr ⟨b, b.mem_byName, h⟩)

/-- **A bucket keeps its top**, whatever the budget. -/
theorem shown_keepsTop {remaining : Nat} :
    KeepsTop score (bucketRef s b) (shown ((ranked sizes score s b).map (·.index))
      (((keep sizes score s remaining).filter fun cand => cand.bucket = b).map (·.index)) (bucketRef s b)) := by
  rw [shown]
  split
  case isTrue => exact keepsTop_refl
  case isFalse =>
    intro hne
    have hranked : ranked sizes score s b ≠ [] := by
      intro hnil
      have hlen := (ranked_perm sizes score s b).length_eq
      rw [hnil, List.map_nil, List.length_nil, List.length_range] at hlen
      exact hne (List.length_eq_zero_iff.mp hlen.symm)
    obtain ⟨top, rest, htop⟩ := List.exists_cons_of_ne_nil hranked
    have hhead : (ranked sizes score s b).head? = some top := by rw [htop]; rfl
    obtain ⟨hbucket, x, hx, houtranks⟩ := top_of_ranked hhead
    refine ⟨x, List.mem_filterMap.mpr ⟨top.index, List.mem_filter.mpr ⟨?_, ?_⟩, hx⟩, houtranks⟩
    · rw [htop]
      exact List.mem_cons_self
    · rw [List.contains_iff_mem]
      exact List.mem_map_of_mem (List.mem_filter.mpr ⟨head_mem_keep hhead, by simpa using hbucket⟩)

/-- One rebuild touches one bucket and its entry. -/
theorem rebuild_spec (order kept : Bucket → List Nat) (s : RoomSnapshot) (buckets : Buckets) (b : Bucket) :
    ∃ buckets', rebuild order kept (s, buckets) b =
        (setBucket s (shown (order b) (kept b) (bucketRef s b)) b, buckets') ∧
      Says buckets' b.name (bucketRef s b) (shown (order b) (kept b) (bucketRef s b)) ∧
      ∀ key, b.name ≠ key → buckets'.get key = buckets.get key := by
  rw [rebuild, shown]
  by_cases hfull : (kept b).length = (bucketRef s b).length
  · refine ⟨buckets, ?_, ?_, fun _ _ => rfl⟩
    · rw [if_pos hfull, if_pos hfull]
      cases b <;> rfl
    · rw [if_pos hfull]
      exact says_refl
  · refine ⟨_, by rw [if_neg hfull, if_neg hfull], ?_, fun key hne => ?_⟩
    · rw [if_neg hfull]
      exact says_of_get (by rw [Buckets.get_insert, if_pos rfl]) rfl rfl rfl
    · rw [Buckets.get_insert, if_neg hne]

/-- All rebuilds together. -/
theorem foldl_rebuild_spec (order kept : Bucket → List Nat) (bs : List Bucket) (hnodup : bs.Nodup) (s : RoomSnapshot)
    (buckets : Buckets) :
    ∃ s' buckets', bs.foldl (rebuild order kept) (s, buckets) = (s', buckets') ∧
      SameBeside s s' ∧ s'.unconsumedArtifacts = s.unconsumedArtifacts ∧
      (∀ b, bucketRef s' b = if b ∈ bs then shown (order b) (kept b) (bucketRef s b) else bucketRef s b) ∧
      (∀ b ∈ bs, Says buckets' b.name (bucketRef s b) (bucketRef s' b)) ∧
      ∀ key, (∀ b ∈ bs, b.name ≠ key) → buckets'.get key = buckets.get key := by
  induction bs generalizing s buckets with
  | nil => exact ⟨s, buckets, rfl, ⟨rfl, rfl, rfl⟩, rfl, fun b => by simp, by simp, fun _ _ => rfl⟩
  | cons b bs ih =>
    obtain ⟨hb, hbs⟩ := List.nodup_cons.mp hnodup
    obtain ⟨buckets₁, hstep, hsays, hget⟩ := rebuild_spec order kept s buckets b
    obtain ⟨s', buckets', hrest, hbeside, hunconsumed, hrefs, hsaid, hgets⟩ := ih hbs
      (setBucket s (shown (order b) (kept b) (bucketRef s b)) b) buckets₁
    refine ⟨s', buckets', by rw [List.foldl_cons, hstep, hrest], sameBeside_setBucket.trans hbeside,
      by simpa using hunconsumed, fun b' => ?_, fun b' hb' => ?_, fun key hkey => ?_⟩
    · rw [hrefs]
      by_cases heq : b = b'
      · subst heq
        rw [if_neg hb, if_pos List.mem_cons_self, bucketRef_setBucket, if_pos rfl]
      · rw [bucketRef_setBucket, if_neg heq]
        have hiff : b' ∈ b :: bs ↔ b' ∈ bs := by simp [Ne.symm heq]
        simp only [hiff]
    · by_cases heq : b = b'
      · subst heq
        have hself : bucketRef s' b = shown (order b) (kept b) (bucketRef s b) := by
          rw [hrefs, if_neg hb, bucketRef_setBucket, if_pos rfl]
        intro hcut
        rw [hgets b.name fun b'' hb'' hname => hb (Bucket.name_inj.mp hname ▸ hb'')]
        rw [hself] at hcut ⊢
        exact hsays hcut
      · have hin : b' ∈ bs := (List.mem_cons.mp hb').resolve_left fun h => heq h.symm
        have hsaid := hsaid b' hin
        rwa [bucketRef_setBucket, if_neg heq] at hsaid
    · rw [hgets key fun b' hb' => hkey b' (List.mem_cons_of_mem _ hb'), hget key (hkey b List.mem_cons_self)]

theorem syncUnconsumedArtifacts_spec (s : RoomSnapshot) (buckets : Buckets) :
    ∃ s' buckets', syncUnconsumedArtifacts s buckets = (s', buckets') ∧ SameBeside s s' ∧
      (∀ b, bucketRef s' b = bucketRef s b) ∧ s'.unconsumedArtifacts.Sublist s.unconsumedArtifacts ∧
      (∀ before : List Fact, s.totals.unconsumedArtifacts = before.length →
        Says buckets' "unconsumed_artifacts" before s'.unconsumedArtifacts) ∧
      ∀ key, "unconsumed_artifacts" ≠ key → buckets'.get key = buckets.get key := by
  refine ⟨_, _, rfl, ⟨rfl, rfl, rfl⟩, fun b => by cases b <;> rfl, List.filter_sublist, fun before htotal hcut => ?_,
    fun key hne => ?_⟩
  · rw [if_pos (htotal ▸ hcut)]
    exact ⟨_, by rw [Buckets.get_insert, if_pos rfl], htotal, rfl, by rw [htotal]⟩
  · split
    · rw [Buckets.get_insert, if_neg hne]
    · rfl

/-- The handoffs of the caller stand in front again, and the entry counts them. -/
theorem reattach_spec (assigned : List Fact) (s : RoomSnapshot) (buckets : Buckets) :
    ∃ buckets', reattach assigned s buckets =
        (setBucket s (assigned ++ bucketRef s .openHandoffs) .openHandoffs, buckets') ∧
      (∀ theirs : List Fact, bucketTotal s .openHandoffs = assigned.length + theirs.length →
        Says buckets Bucket.openHandoffs.name theirs (bucketRef s .openHandoffs) →
        Says buckets' Bucket.openHandoffs.name (assigned ++ theirs) (assigned ++ bucketRef s .openHandoffs)) ∧
      ∀ key, Bucket.openHandoffs.name ≠ key → buckets'.get key = buckets.get key := by
  rw [reattach]
  by_cases hnil : assigned = []
  · subst hnil
    exact ⟨buckets, by rw [if_pos rfl]; rfl, fun theirs _ hsays => hsays, fun _ _ => rfl⟩
  · refine ⟨_, by rw [if_neg hnil]; rfl, fun theirs htotal hsays hcut => ?_, fun key hne => ?_⟩
    · rw [List.length_append, List.length_append, Nat.add_lt_add_iff_left] at hcut
      obtain ⟨e, hget, -, -, -⟩ := hsays hcut
      have hlength : (assigned ++ theirs).length = bucketTotal s .openHandoffs := by
        rw [List.length_append, htotal]
      rw [hget]
      exact ⟨_, by rw [Buckets.get_insert, if_pos rfl], hlength.symm, rfl, by rw [hlength]; rfl⟩
    · split
      · rfl
      · rw [Buckets.get_insert, if_neg hne]

end Fill

/-! ## Every pass keeps -/

section Passes

variable {κ : Type} [LinearOrder κ] {sizes : Sizes} {score : Fact → κ} {tool : Option String}
variable {s s' s'' : RoomSnapshot} {b : Bucket} {facts : List Fact} {buckets buckets' : Buckets}

theorem Kept.refl (s : RoomSnapshot) : Kept score tool s s where
  neverCut := rfl
  part _ := List.Subperm.refl _
  top _ := keepsTop_refl
  assigned _ _ := rfl

theorem Kept.trans (h : Kept score tool s s') (h' : Kept score tool s' s'') : Kept score tool s s'' where
  neverCut := h'.neverCut.trans h.neverCut
  part c := (h'.part c).trans (h.part c)
  top b := by
    intro hne
    obtain ⟨x, hx, htop⟩ := h.top b hne
    obtain ⟨x', hx', htop'⟩ := h'.top b (List.ne_nil_of_mem hx)
    exact ⟨x', hx', fun y hy => (htop y hy).trans (htop' x hx)⟩
  assigned t ht := (h'.assigned t ht).trans (h.assigned t ht)

/-- The block itself is nothing that is kept. -/
theorem kept_withComposition (s : RoomSnapshot) (c : Option RoomComposition) :
    Kept score tool s { s with composition := c } where
  neverCut := rfl
  part c := by
    cases c with
    | budgeted b => cases b <;> exact List.Subperm.refl _
    | unconsumedArtifacts => exact List.Subperm.refl _
    | staleFacts => exact List.Subperm.refl _
  top b := by cases b <;> exact keepsTop_refl
  assigned _ _ := rfl

theorem honorArchive_kept (includeArchived : Bool) (s : RoomSnapshot) :
    Kept score tool s (honorArchive includeArchived s).1 := by
  rw [honorArchive]
  split
  · exact
      { neverCut := rfl
        part := fun c => by
          cases c with
          | budgeted b => cases b <;> exact List.Subperm.refl _
          | unconsumedArtifacts => exact List.Subperm.refl _
          | staleFacts => exact List.nil_subperm
        top := fun b => by cases b <;> exact keepsTop_refl
        assigned := fun _ _ => rfl }
  · exact Kept.refl s

theorem honorArchive_tallied (includeArchived : Bool) (s : RoomSnapshot) :
    Tallied s (honorArchive includeArchived s).1 (honorArchive includeArchived s).2 := by
  rw [honorArchive]
  split
  · intro c
    cases c with
    | budgeted b => cases b <;> exact says_refl
    | unconsumedArtifacts => exact says_refl
    | staleFacts => exact fun _ => ⟨_, rfl, rfl, rfl, rfl⟩
  · exact fun c => says_refl

/-! ### The filling pass -/

theorem assigned_append_others (tool : Option String) (s : RoomSnapshot) :
    (assignedHandoffs tool s ++ bucketRef (withoutAssigned tool s) .openHandoffs).Perm
      (bucketRef s .openHandoffs) := by
  cases tool with
  | none => exact List.Perm.refl _
  | some tool => exact List.filter_append_perm _ _

theorem sameBeside_withoutAssigned (tool : Option String) (s : RoomSnapshot) :
    SameBeside s (withoutAssigned tool s) := by cases tool <;> exact ⟨rfl, rfl, rfl⟩

theorem unconsumedArtifacts_withoutAssigned (tool : Option String) (s : RoomSnapshot) :
    (withoutAssigned tool s).unconsumedArtifacts = s.unconsumedArtifacts := by cases tool <;> rfl

theorem bucketRef_withoutAssigned (hb : b ≠ .openHandoffs) :
    bucketRef (withoutAssigned tool s) b = bucketRef s b := by
  cases tool <;> cases b <;> first | rfl | exact absurd rfl hb

/-- Nothing assigned is among the handoffs that compete. -/
theorem filter_others {t : String} (htool : tool = some t)
    (hpart : facts.Subperm (bucketRef (withoutAssigned tool s) .openHandoffs)) :
    (facts.filter fun fact => handoffAssignedTo fact t) = [] := by
  subst htool
  rw [List.filter_eq_nil_iff]
  intro fact hfact hassigned
  have hmem := (List.mem_filter.mp (hpart.subset hfact)).2
  rw [hassigned] at hmem
  cases hmem

/-- The filling pass keeps what it must and counts the rest. -/
theorem applyBudget_spec (sizes : Sizes) (score : Fact → κ) (tool : Option String) (budget : Nat)
    (s : RoomSnapshot) (buckets : Buckets) :
    ∃ s' buckets' causes, applyBudget sizes score tool budget s buckets = ((s', buckets'), causes) ∧
      Kept score tool s s' ∧ SameBeside s s' ∧
      (TrueTotals s → (∀ b, Says buckets' b.name (bucketRef s b) (bucketRef s' b)) ∧
        Says buckets' "unconsumed_artifacts" s.unconsumedArtifacts s'.unconsumedArtifacts) ∧
      buckets'.get "stale_facts" = buckets.get "stale_facts" := by
  let kept := keep sizes score (withoutAssigned tool s)
    (budget - (neverCutBytes sizes s).1 - sumOf (factBytes sizes) (assignedHandoffs tool s))
  let order := fun b => (ranked sizes score (withoutAssigned tool s) b).map (·.index)
  let keptOf := fun b => (kept.filter fun cand => cand.bucket = b).map (·.index)
  obtain ⟨s₁, buckets₁, hfold, hbeside₁, hunconsumed, hrefs, hsaid, hget₁⟩ :=
    foldl_rebuild_spec order keptOf Bucket.all (by decide) (withoutAssigned tool s) buckets
  obtain ⟨buckets₂, hreattach, hsays₂, hget₂⟩ := reattach_spec (assignedHandoffs tool s) s₁ buckets₁
  obtain ⟨s', buckets', hsync, hbeside₃, hrefs₃, hsub, hsays₃, hget₃⟩ := syncUnconsumedArtifacts_spec
    (setBucket s₁ (assignedHandoffs tool s ++ bucketRef s₁ .openHandoffs) .openHandoffs) buckets₂
  have hbeside : SameBeside s s' :=
    (sameBeside_withoutAssigned tool s).trans (hbeside₁.trans (sameBeside_setBucket.trans hbeside₃))
  have hperm := assigned_append_others tool s
  have hshown : ∀ b, bucketRef s₁ b = shown (order b) (keptOf b) (bucketRef (withoutAssigned tool s) b) := fun b => by
    rw [hrefs, if_pos b.mem_all]
  have hpart : ∀ b, (bucketRef s₁ b).Subperm (bucketRef (withoutAssigned tool s) b) := fun b =>
    hshown b ▸ shown_subperm (ranked_perm _ _ _ b)
  have htop : ∀ b, KeepsTop score (bucketRef (withoutAssigned tool s) b) (bucketRef s₁ b) := fun b =>
    hshown b ▸ shown_keepsTop
  have hhandoffs : bucketRef s' .openHandoffs = assignedHandoffs tool s ++ bucketRef s₁ .openHandoffs := by
    rw [hrefs₃, bucketRef_setBucket, if_pos rfl]
  have hothers : ∀ {b}, b ≠ .openHandoffs → bucketRef s' b = bucketRef s₁ b := fun hb => by
    rw [hrefs₃, bucketRef_setBucket, if_neg hb.symm]
  have hsame : ∀ {b}, b ≠ .openHandoffs → bucketRef (withoutAssigned tool s) b = bucketRef s b :=
    bucketRef_withoutAssigned
  have hsub : s'.unconsumedArtifacts.Sublist s.unconsumedArtifacts := by
    rwa [unconsumedArtifacts_setBucket, hunconsumed, unconsumedArtifacts_withoutAssigned] at hsub
  refine ⟨s', buckets', if (neverCutBytes sizes s).1 ≤ budget then [] else (neverCutBytes sizes s).2, ?_, ?_, hbeside,
    fun htrue => ⟨fun b => ?_, ?_⟩, ?_⟩
  · rw [applyBudget]
    simp only [kept, order, keptOf] at hfold
    simp only [hfold, hreattach, hsync]
  · refine ⟨hbeside.neverCut, fun c => ?_, fun b => ?_, fun t htool => ?_⟩
    · cases c with
      | budgeted b =>
        by_cases hb : b = .openHandoffs
        · subst hb
          show (bucketRef s' .openHandoffs).Subperm (bucketRef s .openHandoffs)
          rw [hhandoffs]
          exact ((List.subperm_append_left _).mpr (hpart _)).trans hperm.subperm
        · show (bucketRef s' b).Subperm (bucketRef s b)
          rw [hothers hb, ← hsame hb]
          exact hpart b
      | unconsumedArtifacts => exact hsub.subperm
      | staleFacts =>
        show s'.staleFacts.Subperm s.staleFacts
        rw [hbeside.staleFacts]
    · by_cases hb : b = .openHandoffs
      · subst hb
        rw [hhandoffs]
        exact (keepsTop_refl.append (htop _)).of_perm hperm
      · rw [hothers hb, ← hsame hb]
        exact htop b
    · show (bucketRef s' .openHandoffs).filter _ = _
      rw [hhandoffs, List.filter_append, filter_others htool (hpart .openHandoffs), List.append_nil]
      subst htool
      exact List.filter_filter.trans (by simp)
  · have htotals : s₁.totals = s.totals :=
      totals_of_neverCut ((sameBeside_withoutAssigned tool s).trans hbeside₁).neverCut
    by_cases hb : b = .openHandoffs
    · subst hb
      rw [hhandoffs]
      intro hcut
      rw [hget₃ _ (Bucket.name_ne _).1.symm]
      have htotal : bucketTotal s₁ .openHandoffs =
          (assignedHandoffs tool s).length + (bucketRef (withoutAssigned tool s) .openHandoffs).length := by
        rw [← List.length_append, hperm.length_eq, ← htrue.budgeted, bucketTotal, htotals]
        rfl
      rw [← hperm.length_eq] at hcut ⊢
      exact hsays₂ _ htotal (hsaid _ (Bucket.mem_all _)) hcut
    · rw [hothers hb]
      intro hcut
      rw [hget₃ _ (Bucket.name_ne _).1.symm, hget₂ _ fun hname => hb (Bucket.name_inj.mp hname).symm]
      rw [← hsame hb] at hcut ⊢
      exact hsaid b b.mem_all hcut
  · refine hsays₃ _ ?_
    rw [totals_of_neverCut (sameBeside_setBucket.neverCut.trans
      ((sameBeside_withoutAssigned tool s).trans hbeside₁).neverCut)]
    exact htrue.unconsumed
  · rw [hget₃ _ (by decide), hget₂ _ (by decide), hget₁ _ fun b _ => b.name_ne.2]

/-! ### The trimming pass -/

/-- The lowest is removable, and no removable fact of its bucket ranks below it. -/
theorem lowest_spec {cand : Candidate κ} (h : lowest sizes score tool s = some cand) :
    ∃ fact, (bucketRef s cand.bucket)[cand.index]? = some fact ∧ removable tool s cand.bucket fact = true ∧
      ∀ y ∈ bucketRef s cand.bucket, removable tool s cand.bucket y = true →
        factRank score fact ≤ factRank score y := by
  have hmem := List.argmin_mem h
  obtain ⟨b, -, hb⟩ := List.mem_flatMap.mp hmem
  obtain ⟨⟨c, r⟩, hc, hcand⟩ := List.mem_filterMap.mp hb
  obtain ⟨i, hi, heq⟩ := List.mem_mapIdx.mp hc
  obtain ⟨rfl, rfl⟩ := Prod.mk.inj heq
  obtain ⟨hremovable, rfl⟩ : removable tool s b (bucketRef s b)[i] = true ∧
      candidate sizes score b i (bucketRef s b)[i] = cand := by
    by_cases hr : removable tool s b (bucketRef s b)[i] = true
    · simp only [hr, if_true, Option.some.injEq] at hcand
      exact ⟨hr, hcand⟩
    · simp [hr] at hcand
  refine ⟨(bucketRef s b)[i], List.getElem?_eq_getElem hi, hremovable, fun y hy hry => ?_⟩
  obtain ⟨j, hj, rfl⟩ := List.getElem_of_mem hy
  have hle : (candidate sizes score b i (bucketRef s b)[i]).rank ≤
      (candidate sizes score b j (bucketRef s b)[j]).rank := by
    refine List.le_of_mem_argmin ?_ h
    refine List.mem_flatMap.mpr ⟨b, b.mem_all, List.mem_filterMap.mpr ⟨_, List.mem_mapIdx.mpr ⟨j, hj, rfl⟩, ?_⟩⟩
    exact if_pos hry
  exact hle

/-- Beside a removable fact stands another one. -/
theorem exists_other_removable {fact : Fact} {i : Nat} (hfact : (bucketRef s b)[i]? = some fact)
    (h : removable tool s b fact = true) :
    ∃ w ∈ (bucketRef s b).eraseIdx i, w ∈ bucketRef s b ∧ removable tool s b w = true := by
  obtain ⟨hi, rfl⟩ := List.getElem?_eq_some_iff.mp hfact
  have hperm := List.getElem_cons_eraseIdx_perm hi
  have hany : ∀ {p : Fact → Bool}, p (bucketRef s b)[i] = true → 1 < ((bucketRef s b).filter p).length →
      ∃ w ∈ (bucketRef s b).eraseIdx i, p w = true := by
    intro p hp hlen
    rw [← (hperm.filter p).length_eq, List.filter_cons_of_pos hp, List.length_cons] at hlen
    obtain ⟨w, hw⟩ := List.exists_mem_of_length_pos (show 0 < (((bucketRef s b).eraseIdx i).filter p).length by omega)
    exact ⟨w, List.mem_filter.mp hw⟩
  have hmem : ∀ {w}, w ∈ (bucketRef s b).eraseIdx i → w ∈ bucketRef s b := fun hw => List.mem_of_mem_eraseIdx hw
  have hplain : 1 < (bucketRef s b).length → ∃ w ∈ (bucketRef s b).eraseIdx i, w ∈ bucketRef s b := by
    intro hlen
    obtain ⟨w, hw, -⟩ := hany (p := fun _ => true) rfl (by simpa using hlen)
    exact ⟨w, hw, hmem hw⟩
  by_cases hb : b = .openHandoffs
  · subst hb
    cases tool with
    | none =>
      obtain ⟨w, hw, hin⟩ := hplain (by simpa [removable, bucketRef] using h)
      exact ⟨w, hw, hin, h⟩
    | some t =>
      simp only [removable, if_true, Bool.and_eq_true, decide_eq_true_eq] at h
      obtain ⟨w, hw, hother⟩ := hany (p := fun fact => !handoffAssignedTo fact t) h.1 h.2
      refine ⟨w, hw, hmem hw, ?_⟩
      simp only [removable, if_true, Bool.and_eq_true, decide_eq_true_eq]
      exact ⟨hother, h.2⟩
  · obtain ⟨w, hw, hin⟩ := hplain (by simpa [removable, hb] using h)
    exact ⟨w, hw, hin, by simpa [removable, hb] using h⟩

/-- What a trim does to the room and to the block. -/
structure Trims (score : Fact → κ) (tool : Option String) (s s' : RoomSnapshot) (buckets buckets' : Buckets) :
    Prop where
  kept : Kept score tool s s'
  beside : SameBeside s s'
  tallied : ∀ s₀, TrueTotals s₀ → neverCut s = neverCut s₀ → Tallied s₀ s buckets → Tallied s₀ s' buckets'

theorem Trims.refl (s : RoomSnapshot) (buckets : Buckets) : Trims score tool s s buckets buckets :=
  ⟨Kept.refl s, ⟨rfl, rfl, rfl⟩, fun _ _ _ h => h⟩

theorem Trims.trans {buckets'' : Buckets} (h : Trims score tool s s' buckets buckets')
    (h' : Trims score tool s' s'' buckets' buckets'') : Trims score tool s s'' buckets buckets'' :=
  ⟨h.kept.trans h'.kept, h.beside.trans h'.beside, fun s₀ htrue hframe hsaid =>
    h'.tallied s₀ htrue (h.kept.neverCut.trans hframe) (h.tallied s₀ htrue hframe hsaid)⟩

theorem filter_eraseIdx_of_neg {p : Fact → Bool} {i : Nat} {fact : Fact} (hfact : facts[i]? = some fact)
    (hp : p fact = false) : (facts.eraseIdx i).filter p = facts.filter p := by
  obtain ⟨hi, rfl⟩ := List.getElem?_eq_some_iff.mp hfact
  conv_rhs => rw [← List.take_append_drop i facts, List.drop_eq_getElem_cons hi]
  rw [List.eraseIdx_eq_take_drop_succ, List.filter_append, List.filter_append,
    List.filter_cons_of_neg (by rw [hp]; exact Bool.false_ne_true)]

theorem keepsTop_eraseIdx {fact : Fact} {i : Nat} (hfact : facts[i]? = some fact)
    (hother : ∃ w ∈ facts.eraseIdx i, factRank score fact ≤ factRank score w) :
    KeepsTop score facts (facts.eraseIdx i) := by
  intro hne
  obtain ⟨hi, rfl⟩ := List.getElem?_eq_some_iff.mp hfact
  have hkept : KeepsTop score facts facts := keepsTop_refl
  obtain ⟨x, hx, htop⟩ := hkept hne
  rcases List.mem_cons.mp ((List.getElem_cons_eraseIdx_perm hi).mem_iff.mpr hx) with rfl | hx
  · -- the fact that goes was a top: the one beside it is one as well
    obtain ⟨w, hw, hle⟩ := hother
    exact ⟨w, hw, fun y hy => (htop y hy).trans hle⟩
  · exact ⟨x, hx, htop⟩

theorem budgetedItems_eq (s : RoomSnapshot) : budgetedItems s =
    (bucketRef s .currentDecisions).length + (bucketRef s .recentArtifacts).length +
      (bucketRef s .currentRisks).length + (bucketRef s .openHandoffs).length := by
  simp [budgetedItems, Bucket.all, sumOf]

/-- **One trim** takes one fact, and keeps and counts as the filling pass does. -/
theorem trim_spec {savings : Nat}
    (h : trimLowestBudgeted sizes score tool s buckets = some ((s', buckets'), savings)) :
    Trims score tool s s' buckets buckets' ∧ budgetedItems s' < budgetedItems s := by
  rw [trimLowestBudgeted, Option.bind_eq_bind, Option.bind_eq_some_iff] at h
  obtain ⟨cand, hcand, h⟩ := h
  rw [Option.bind_eq_bind, Option.bind_eq_some_iff] at h
  obtain ⟨removed, hremoved, h⟩ := h
  obtain ⟨fact, hfact, hremovable, hlowest⟩ := lowest_spec hcand
  obtain rfl : removed = fact := Option.some.inj (hremoved.symm.trans hfact)
  obtain ⟨b, i, rank, bytes, seq⟩ := cand
  obtain ⟨h, -⟩ := Prod.mk.inj (Option.some.inj h)
  dsimp only at h hfact hremovable hlowest
  obtain ⟨hi, -⟩ := List.getElem?_eq_some_iff.mp hfact
  obtain ⟨s₂, buckets₂, hsync, hbeside, hrefs, hsub, hsays, hget⟩ := syncUnconsumedArtifacts_spec
    (setBucket s ((bucketRef s b).eraseIdx i) b) _
  rw [hsync] at h
  obtain ⟨rfl, rfl⟩ := Prod.mk.inj h
  have hbeside : SameBeside s s₂ := sameBeside_setBucket.trans hbeside
  have hself : bucketRef s₂ b = (bucketRef s b).eraseIdx i := by rw [hrefs, bucketRef_setBucket, if_pos rfl]
  have hothers : ∀ {b'}, b ≠ b' → bucketRef s₂ b' = bucketRef s b' := fun hne => by
    rw [hrefs, bucketRef_setBucket, if_neg hne]
  rw [unconsumedArtifacts_setBucket] at hsub
  refine ⟨⟨⟨hbeside.neverCut, fun c => ?_, fun b' => ?_, fun t htool => ?_⟩, hbeside, ?_⟩, ?_⟩
  · cases c with
    | budgeted b' =>
      show (bucketRef s₂ b').Subperm (bucketRef s b')
      by_cases hb : b = b'
      · subst hb
        rw [hself]
        exact (List.eraseIdx_sublist _ _).subperm
      · rw [hothers hb]
    | unconsumedArtifacts => exact hsub.subperm
    | staleFacts =>
      show s₂.staleFacts.Subperm s.staleFacts
      rw [hbeside.staleFacts]
  · by_cases hb : b = b'
    · subst hb
      obtain ⟨w, hw, hin, hrw⟩ := exists_other_removable hfact hremovable
      rw [hself]
      exact keepsTop_eraseIdx hfact ⟨w, hw, hlowest w hin hrw⟩
    · rw [hothers hb]
      exact keepsTop_refl
  · show (bucketRef s₂ .openHandoffs).filter _ = (bucketRef s .openHandoffs).filter _
    by_cases hb : b = .openHandoffs
    · subst hb htool
      rw [hself]
      refine filter_eraseIdx_of_neg hfact ?_
      simp only [removable, if_true, Bool.and_eq_true, Bool.not_eq_true'] at hremovable
      exact hremovable.1
    · rw [hothers hb]
  · intro s₀ htrue hframe hsaid c
    have htotals : (setBucket s ((bucketRef s b).eraseIdx i) b).totals = s₀.totals :=
      totals_of_neverCut (sameBeside_setBucket.neverCut.trans hframe)
    cases c with
    | budgeted b' =>
      intro hcut
      show ∃ e, buckets₂.get b'.name = some e ∧ _
      rw [hget _ (Bucket.name_ne _).1.symm]
      by_cases hb : b = b'
      · subst hb
        have htotal : bucketTotal s b = (bucketRef s₀ b).length := by
          rw [← htrue.budgeted, bucketTotal_of_neverCut hframe]
        have hemitted : bucketRef (setBucket s ((bucketRef s b).eraseIdx i) b) b = bucketRef s₂ b := (hrefs b).symm
        exact ⟨_, by rw [Buckets.get_insert]; exact if_pos rfl, htotal, congrArg List.length hemitted,
          by rw [htotal, hemitted]; rfl⟩
      · rw [Buckets.get_insert, if_neg fun hname => hb (Bucket.name_inj.mp hname)]
        have hsaid := hsaid (.budgeted b')
        rw [Cuttable.of, Cuttable.of, ← hothers hb] at hsaid
        exact hsaid hcut
    | unconsumedArtifacts => exact hsays _ (htotals ▸ htrue.unconsumed)
    | staleFacts =>
      intro hcut
      show ∃ e, buckets₂.get "stale_facts" = some e ∧ _
      rw [hget _ (by decide), Buckets.get_insert, if_neg b.name_ne.2]
      have hsaid := hsaid .staleFacts
      rw [Cuttable.of, Cuttable.of, ← hbeside.staleFacts] at hsaid
      exact hsaid hcut
  · have hlen : (bucketRef s₂ b).length < (bucketRef s b).length := by
      rw [hself, List.length_eraseIdx_of_lt hi]
      omega
    have hle : ∀ b', (bucketRef s₂ b').length ≤ (bucketRef s b').length := by
      intro b'
      by_cases hb : b = b'
      · exact hb ▸ hlen.le
      · rw [hothers hb]
    have h₁ := hle .currentDecisions
    have h₂ := hle .recentArtifacts
    have h₃ := hle .currentRisks
    have h₄ := hle .openHandoffs
    rw [budgetedItems_eq, budgetedItems_eq]
    cases b <;> omega

end Passes

end RallyPoint.Wire.Composition
