/-
# RallyPoint.FactsPage — the paged ledger read (`facts_page` in `rallyd_core.rs`, `facts` in `store_client.rs`).

A routed client reads the ledger in pages, each small enough for one reply line, following the cursor of one
page to the next while others go on appending. The daemon sorts what lies behind the cursor, fills the page up
to its budget and always takes one fact. One page answers one request of the paging library (`pageOf_factsPage`),
so the client ends up with the ledger as the last page found it.
-/
import RallyPoint.Wire
import RallyPoint.Lib.Paging
import RallyPoint.Lib.StableSort

namespace RallyPoint.Wire

open Lib

/-- `FACTS_PAGE_HEADROOM`: what a page leaves free for the envelope of the reply. -/
def factsPageHeadroom : Nat := 256 * 1024

/-- `FACTS_PAGE_BYTES`: the budget the client asks for. -/
def factsPageBytes : Nat := 4 * 1024 * 1024

/-- What a fact takes in a page: its text and a comma. -/
def factSize (codec : SessionCodec) (fact : Fact) : Nat := (factToWire codec fact).bytes + 1

/-- The page loop of `facts_page`: `used` bytes and `page` so far, the last one of sequence `lastSeq`. -/
def fillPage (codec : SessionCodec) (budget : Nat) : Nat → List Json → Int → List Fact → List Json × Option Int
  | _, page, _, [] => (page, none)
  | used, page, lastSeq, fact :: rest =>
    if !page.isEmpty && budget < used + factSize codec fact then (page, some lastSeq)
    else fillPage codec budget (used + factSize codec fact) (page ++ [factToWire codec fact]) fact.seq rest

def pageBudget (max_bytes : Nat) : Nat := min max_bytes (maxLineBytes - factsPageHeadroom)

/-- The facts behind `after_seq` in sequence order, as far as the budget goes, and the cursor when some are left. -/
def factsPage (codec : SessionCodec) (facts : List Fact) (after_seq : Int) (max_bytes : Nat) :
    List Json × Option Int :=
  let behind := (facts.filter fun fact => after_seq < fact.seq).insertionSort fun a b => a.seq ≤ b.seq
  fillPage codec (pageBudget max_bytes) 0 [] after_seq behind

/-- The reply that carries a page. -/
def factsPageReply (page : List Json × Option Int) : StoreResponse := .ok (.factsPage page.1 page.2)

/-- The client's loop. `serve i` is the ledger the daemon answers request `i` from; the result comes with the
number of the last request. -/
def factsLoop (codec : SessionCodec) (serve : Nat → List Fact) (max_bytes : Nat) :
    Nat → Nat → Int → List Fact → Option (Except CliError (List Fact) × Nat)
  | 0, _, _, _ => none
  | fuel + 1, i, after_seq, all =>
    let page := factsPage codec (serve i) after_seq max_bytes
    match page.1.mapM (factFromWire codec) with
    | .error source => some (.error (.json "parse wire reply" source), i)
    | .ok facts =>
      match page.2 with
      | none => some (.ok (all ++ facts), i)
      | some next =>
        if after_seq < next then factsLoop codec serve max_bytes fuel (i + 1) next (all ++ facts)
        else some (.error (.command
          s!"daemon facts_page cursor did not advance (after_seq {after_seq}, next {next})"), i)

/-- `RoutedRoomStore::facts` with the budget as a parameter: the cursor starts at `i64::MIN`. -/
def routedFacts (codec : SessionCodec) (serve : Nat → List Fact) (max_bytes fuel : Nat) :
    Option (Except CliError (List Fact) × Nat) :=
  factsLoop codec serve max_bytes fuel 0 (-i64Bound) []

/-- A ledger whose sequence numbers are distinct and lie above the least `i64`, which no row has: the reader of
the segments refuses every number that is not positive. -/
structure IsPaged (facts : List Fact) : Prop where
  seq_gt : ∀ f ∈ facts, -i64Bound < f.seq
  seq_lt : ∀ f ∈ facts, f.seq < i64Bound
  distinct : (facts.map (·.seq)).Nodup

/-! ## One page -/

section Page

variable {codec : SessionCodec} {budget used : Nat} {page : List Json} {lastSeq : Int} {rest : List Fact}

/-- **What the loop does.** It takes a beginning of the facts; without a cursor all of them, with one all up to
the cursor, and at least one when the page was empty. -/
theorem fillPage_spec (codec : SessionCodec) (budget used : Nat) (page : List Json) (lastSeq : Int)
    (rest : List Fact) :
    ∃ taken left, rest = taken ++ left ∧
      (fillPage codec budget used page lastSeq rest).1 = page ++ taken.map (factToWire codec) ∧
      ((fillPage codec budget used page lastSeq rest).2 = none ∧ left = [] ∨
        (fillPage codec budget used page lastSeq rest).2 = some ((taken.getLast?.map (·.seq)).getD lastSeq) ∧
          left ≠ [] ∧ (page = [] → taken ≠ [])) := by
  induction rest generalizing used page lastSeq with
  | nil => exact ⟨[], [], rfl, by simp [fillPage], .inl ⟨rfl, rfl⟩⟩
  | cons fact rest ih =>
    by_cases hfull : (!page.isEmpty && decide (budget < used + factSize codec fact)) = true
    · have hpage : page ≠ [] := by
        rintro rfl
        simp at hfull
      rw [fillPage, if_pos hfull]
      exact ⟨[], fact :: rest, rfl, by simp, .inr ⟨rfl, by simp, fun h => absurd h hpage⟩⟩
    · rw [fillPage, if_neg hfull]
      obtain ⟨taken, left, hrest, hpage, hnext⟩ :=
        ih (used + factSize codec fact) (page ++ [factToWire codec fact]) fact.seq
      refine ⟨fact :: taken, left, by rw [hrest]; rfl, by rw [hpage]; simp, ?_⟩
      rcases hnext with hnone | ⟨hsome, hleft, -⟩
      · exact .inl hnone
      · refine .inr ⟨?_, hleft, fun _ => by simp⟩
        rw [hsome]
        cases taken using List.reverseRecOn with
        | nil => rfl
        | append_singleton l x => rw [List.getLast?_concat, ← List.cons_append, List.getLast?_concat]; rfl

/-- Where the facts of the page are below the budget one by one, the whole page is. -/
theorem fillPage_bytes (hused : Json.itemBytes page + page.length = used) (hbudget : used ≤ budget)
    (hsize : ∀ v ∈ (fillPage codec budget used page lastSeq rest).1, v.bytes + 1 ≤ budget) :
    Json.itemBytes (fillPage codec budget used page lastSeq rest).1 +
      (fillPage codec budget used page lastSeq rest).1.length ≤ budget := by
  induction rest generalizing used page lastSeq with
  | nil =>
    rw [fillPage]
    dsimp only
    omega
  | cons fact rest ih =>
    by_cases hfull : (!page.isEmpty && decide (budget < used + factSize codec fact)) = true
    · rw [fillPage, if_pos hfull]
      dsimp only
      omega
    · rw [fillPage, if_neg hfull] at hsize ⊢
      -- the fact is in the page that comes out
      have hfact : factSize codec fact ≤ budget := by
        obtain ⟨taken, left, -, hpage, -⟩ := fillPage_spec codec budget (used + factSize codec fact)
          (page ++ [factToWire codec fact]) fact.seq rest
        exact hsize (factToWire codec fact) (by rw [hpage]; simp)
      refine ih ?_ ?_ hsize
      · simp only [Json.itemBytes_append, Json.itemBytes_cons, Json.itemBytes_nil, List.length_append,
          List.length_singleton]
        unfold factSize
        omega
      · cases page with
        | nil =>
          have hzero : used = 0 := by simpa using hused.symm
          omega
        | cons v rest => simpa using hfull

end Page

section Served

variable {codec : SessionCodec} {facts : List Fact} {after_seq : Int} {max_bytes : Nat}

theorem mem_behind {f : Fact} :
    f ∈ (facts.filter fun fact => after_seq < fact.seq).insertionSort (fun a b => a.seq ≤ b.seq) ↔
      f ∈ facts ∧ after_seq < f.seq := by
  rw [List.mem_insertionSort, List.mem_filter, decide_eq_true_eq]

/-- The facts behind a cursor come in strictly increasing sequence. -/
theorem keyOrdered_behind (after_seq : Int) (h : IsPaged facts) :
    KeyOrdered (·.seq)
      ((facts.filter fun fact => after_seq < fact.seq).insertionSort fun a b => a.seq ≤ b.seq) := by
  have hsorted : SortedBy (fun f : Fact => f.seq)
      ((facts.filter fun fact => after_seq < fact.seq).insertionSort fun a b => a.seq ≤ b.seq) :=
    sortedBy_insertionSort (fun _ _ => Iff.rfl) _
  have hdistinct : (((facts.filter fun fact => after_seq < fact.seq).insertionSort
      fun a b => a.seq ≤ b.seq).map (·.seq)).Nodup := by
    refine (((List.perm_insertionSort _ _).map _).nodup_iff).mpr ?_
    exact h.distinct.sublist (List.filter_sublist.map _)
  have hne := List.pairwise_map.mp hdistinct
  exact (hsorted.and hne).imp fun hab => lt_of_le_of_ne hab.1 hab.2

/-- **A page answers its request.** -/
theorem pageOf_factsPage (codec : SessionCodec) (after_seq : Int) (max_bytes : Nat) (h : IsPaged facts) :
    ∃ taken, (factsPage codec facts after_seq max_bytes).1 = taken.map (factToWire codec) ∧
      PageOf (·.seq) facts after_seq taken (factsPage codec facts after_seq max_bytes).2 := by
  unfold factsPage
  have hordered := keyOrdered_behind after_seq h
  have hmem : ∀ f, f ∈ (facts.filter fun fact => after_seq < fact.seq).insertionSort
      (fun a b => a.seq ≤ b.seq) ↔ f ∈ facts ∧ after_seq < f.seq := fun f => mem_behind
  generalize (facts.filter fun fact => after_seq < fact.seq).insertionSort (fun a b => a.seq ≤ b.seq)
    = behind at hordered hmem
  obtain ⟨taken, left, rfl, hpage, hnext⟩ := fillPage_spec codec (pageBudget max_bytes) 0 [] after_seq behind
  obtain ⟨htaken, -, hbefore⟩ := List.pairwise_append.mp hordered
  refine ⟨taken, by simpa using hpage, htaken, fun f hf => (hmem f).mp (List.mem_append_left _ hf), ?_, ?_⟩
  · intro hnone f hf hafter
    rcases hnext with ⟨-, rfl⟩ | ⟨hsome, -⟩
    · simpa using (hmem f).mpr ⟨hf, hafter⟩
    · rw [hsome] at hnone
      cases hnone
  · intro c hc
    rcases hnext with ⟨hnone, -⟩ | ⟨hsome, -, hne⟩
    · rw [hnone] at hc
      cases hc
    · cases taken using List.reverseRecOn with
      | nil => exact absurd rfl (hne rfl)
      | append_singleton firsts last =>
        rw [hsome, List.getLast?_concat] at hc
        obtain rfl := Option.some.inj hc
        refine ⟨⟨last, by simp, rfl⟩, fun f hf hafter => ?_⟩
        constructor
        · intro hmemTaken
          rcases List.mem_append.mp hmemTaken with hfirst | hlast
          · exact ((List.pairwise_append.mp htaken).2.2 f hfirst last (by simp)).le
          · exact (congrArg (·.seq) (List.mem_singleton.mp hlast)).le
        · intro hle
          rcases List.mem_append.mp ((hmem f).mpr ⟨hf, hafter⟩) with hin | hout
          · exact hin
          · exact absurd (hbefore last (by simp) f hout) hle.not_gt

/-- The envelope of a page's reply takes less than the headroom. -/
theorem factsPageReply_bytes_le {page : List Json × Option Int}
    (hnext : ∀ n ∈ page.2, n.natAbs < 10 ^ 19)
    (hpage : Json.itemBytes page.1 + page.1.length ≤ pageBudget max_bytes) :
    responseLineBytes codec (factsPageReply page) ≤ maxLineBytes := by
  have hcursor : (page.2.elim Json.null .int).bytes ≤ 20 := by
    cases hnone : page.2 with
    | none => decide
    | some n => exact Json.bytes_int_le (by decide) (hnext n hnone)
  have hbudget : pageBudget max_bytes ≤ maxLineBytes - factsPageHeadroom := Nat.min_le_right _ _
  have hlimits : maxLineBytes - factsPageHeadroom + 200 ≤ maxLineBytes := by decide
  have harray := Json.bytes_array page.1
  have hkeys : charBytes (renderString "ok") = 4 ∧ charBytes (renderString "kind") = 6 ∧
      charBytes (renderString "facts") = 7 ∧ charBytes (renderString "next_after_seq") = 16 ∧
      (Json.string "facts_page").bytes = 12 := by decide
  obtain ⟨hok, hkind, hfacts, hafter, hname⟩ := hkeys
  unfold responseLineBytes factsPageReply responseToJson StoreOk.toJson
  simp only [Json.bytes_object, Json.fieldBytes, hok, hkind, hfacts, hafter, hname, harray]
  omega

/-- A decoded page is what was encoded. -/
theorem decodePage {taken : List Fact} (h : ∀ f ∈ taken, -i64Bound ≤ f.seq ∧ f.seq < i64Bound) :
    (taken.map (factToWire codec)).mapM (factFromWire codec) = .ok taken := by
  induction taken with
  | nil => rfl
  | cons f rest ih =>
    rw [List.map_cons, List.mapM_cons, factFromWire_factToWire codec (h f (by simp)),
      ih fun g hg => h g (by simp [hg])]
    rfl

end Served

/-! ## The whole read -/

/-- `checked_add` keeps the sequence numbers within `i64`. -/
theorem seq_lt_of_reachable {ext : Externals} {facts : List Fact} (h : Reachable (AppendStep ext) facts) :
    ∀ f ∈ facts, f.seq < i64Bound := by
  refine Reachable.invariant (P := fun log => ∀ f ∈ log, f.seq < i64Bound) (by simp) ?_ h
  rintro log f - ih ⟨env, fact, -, hcommit⟩ g hg
  obtain ⟨-, -, -, -, -, hbound, rfl⟩ := appendFactUnderLock_committed_iff.mp hcommit
  rcases List.mem_append.mp hg with hg | hg
  · exact ih g hg
  · rw [List.mem_singleton.mp hg]
    exact hbound

/-- The ledger as the daemon answers one request after another from it, with appends in between: nothing is
lost, and each new fact has a larger sequence number than all before it. -/
structure Served (serve : Nat → List Fact) : Prop where
  paged : ∀ i, IsPaged (serve i)
  grows : ∀ i, GrowsTo (·.seq) (serve i) (serve (i + 1))

namespace Served

variable {codec : SessionCodec} {serve : Nat → List Fact} {max_bytes fuel i : Nat} {after_seq : Int}
  {all : List Fact}

theorem above_start (h : Served serve) (i : Nat) : ∀ f ∈ serve i, -i64Bound < f.seq := (h.paged i).seq_gt

/-- **One request.** The page decodes; without a cursor the loop ends with the ledger, with one it goes on at a
larger cursor, holding the facts up to it. -/
theorem request (codec : SessionCodec) (max_bytes : Nat) (h : Served serve)
    (hfetched : Fetched (·.seq) (-i64Bound) (serve i) after_seq all) :
    (∃ all', (∀ fuel, factsLoop codec serve max_bytes (fuel + 1) i after_seq all = some (.ok all', i)) ∧
        KeyOrdered (·.seq) all' ∧ ∀ f, f ∈ all' ↔ f ∈ serve i) ∨
      ∃ next all', (∀ fuel, factsLoop codec serve max_bytes (fuel + 1) i after_seq all =
          factsLoop codec serve max_bytes fuel (i + 1) next all') ∧
        remaining (·.seq) (serve i) next < remaining (·.seq) (serve i) after_seq ∧
        Fetched (·.seq) (-i64Bound) (serve i) next all' := by
  obtain ⟨taken, hpage, hanswer⟩ := pageOf_factsPage codec after_seq max_bytes (h.paged i)
  have hdecode : (factsPage codec (serve i) after_seq max_bytes).1.mapM (factFromWire codec) = .ok taken := by
    rw [hpage]
    refine decodePage fun f hf => ?_
    have hlog := (hanswer.mem f hf).1
    exact ⟨(h.above_start i f hlog).le, (h.paged i).seq_lt f hlog⟩
  cases hnext : (factsPage codec (serve i) after_seq max_bytes).2 with
  | none =>
    rw [hnext] at hanswer
    refine .inl ⟨all ++ taken, fun fuel => ?_, hfetched.last hanswer⟩
    rw [factsLoop]
    simp only [hdecode, hnext]
  | some next =>
    rw [hnext] at hanswer
    obtain ⟨hlt, hfetched'⟩ := hfetched.next hanswer
    refine .inr ⟨next, all ++ taken, fun fuel => ?_, remaining_lt hanswer, hfetched'⟩
    rw [factsLoop]
    simp only [hdecode, hnext, if_pos hlt]

/-- Whatever the loop ends with is the ledger as the last page found it. -/
theorem loop_ok (h : Served serve) (hfetched : Fetched (·.seq) (-i64Bound) (serve i) after_seq all)
    {r : Except CliError (List Fact)} {last : Nat}
    (hrun : factsLoop codec serve max_bytes fuel i after_seq all = some (r, last)) :
    ∃ all', r = .ok all' ∧ KeyOrdered (·.seq) all' ∧ ∀ f, f ∈ all' ↔ f ∈ serve last := by
  induction fuel generalizing i after_seq all with
  | zero => cases hrun
  | succ fuel ih =>
    rcases h.request codec max_bytes hfetched with
      ⟨all', hend, hordered, hmem⟩ | ⟨next, all', hgo, -, hfetched'⟩
    · rw [hend] at hrun
      obtain ⟨rfl, rfl⟩ := Prod.mk.inj (Option.some.inj hrun)
      exact ⟨all', rfl, hordered, hmem⟩
    · rw [hgo] at hrun
      exact ih (hfetched'.grow (h.above_start (i + 1)) (h.grows i)) hrun

/-- While nothing is appended each page leaves less to fetch. -/
theorem loop_ends_of_stable (codec : SessionCodec) (max_bytes : Nat) (h : Served serve)
    (hfetched : Fetched (·.seq) (-i64Bound) (serve i) after_seq all) (hstable : ∀ j, i ≤ j → serve j = serve i) :
    ∃ fuel result, factsLoop codec serve max_bytes fuel i after_seq all = some result := by
  induction hn : remaining (·.seq) (serve i) after_seq using Nat.strong_induction_on
    generalizing i after_seq all with
  | h n ih =>
    rcases h.request codec max_bytes hfetched with ⟨all', hend, -⟩ | ⟨next, all', hgo, hless, hfetched'⟩
    · exact ⟨1, _, hend 0⟩
    · have hsame : serve (i + 1) = serve i := hstable (i + 1) (by omega)
      have hfetchedNext : Fetched (·.seq) (-i64Bound) (serve (i + 1)) next all' := by rwa [hsame]
      obtain ⟨fuel, result, hrest⟩ := ih (remaining (·.seq) (serve (i + 1)) next) (by rw [hsame]; omega)
        hfetchedNext (fun j hj => by rw [hsame]; exact hstable j (by omega)) rfl
      exact ⟨fuel + 1, result, by rw [hgo]; exact hrest⟩

/-- The loop ends when the appends do: `n - i` requests later at the latest the ledger is stable. -/
theorem loop_ends (codec : SessionCodec) (max_bytes : Nat) (h : Served serve) {n : Nat}
    (hstable : ∀ j, n ≤ j → serve j = serve n)
    (hfetched : Fetched (·.seq) (-i64Bound) (serve i) after_seq all) :
    ∃ fuel result, factsLoop codec serve max_bytes fuel i after_seq all = some result := by
  induction hd : n - i generalizing i after_seq all with
  | zero =>
    have hsame : serve i = serve n := hstable i (by omega)
    exact h.loop_ends_of_stable codec max_bytes hfetched fun j hj => by rw [hsame]; exact hstable j (by omega)
  | succ d ih =>
    rcases h.request codec max_bytes hfetched with ⟨all', hend, -⟩ | ⟨next, all', hgo, -, hfetched'⟩
    · exact ⟨1, _, hend 0⟩
    · obtain ⟨fuel, result, hrest⟩ := ih (hfetched'.grow (h.above_start (i + 1)) (h.grows i)) (by omega)
      exact ⟨fuel + 1, result, by rw [hgo]; exact hrest⟩

/-- The ledgers of a run of committed appends, read at any moments, are served. -/
theorem of_extends {ext : Externals} (hstart : Reachable (AppendStep ext) (serve 0))
    (hrun : ∀ i, Extends (AppendStep ext) (serve i) (serve (i + 1))) : Served serve := by
  have hreach : ∀ i, Reachable (AppendStep ext) (serve i) := by
    intro i
    induction i with
    | zero => exact hstart
    | succ i ih => exact (hrun i).reachable ih
  constructor
  · intro i
    have hledger := isLedger_of_reachable (hreach i)
    refine ⟨fun f hf => ?_, seq_lt_of_reachable (hreach i), ?_⟩
    · have hpos := hledger.positive f hf
      unfold i64Bound
      omega
    · exact List.pairwise_map.mpr (hledger.ascending.imp fun hlt => hlt.ne)
  · intro i
    refine Extends.invariant (P := fun log => GrowsTo (·.seq) (serve i) log)
      ⟨fun _ h => h, fun x hx hnew => absurd hx hnew⟩ (fun log f hlog hgrow hstep => ?_) (hrun i)
    have hnewer := (hstep.isLedger (isLedger_of_reachable (hlog.reachable (hreach i)))).2
    constructor
    · exact fun x hx => List.mem_append_left _ (hgrow.kept x hx)
    · intro x hx hnew y hy
      rcases List.mem_append.mp hx with hx | hx
      · exact hgrow.newer x hx hnew y hy
      · rw [List.mem_singleton.mp hx]
        exact hnewer y (hgrow.kept y hy)

end Served

/-- **A paged read is one atomic read.** Whatever the client's loop ends with is the ledger at the last page, each
fact once and in sequence order; it ends when the appends do; and a page whose facts fit the budget one by one
makes a reply within the line cap. -/
theorem paged_read_atomic (codec : SessionCodec) (max_bytes : Nat) (serve : Nat → List Fact)
    (h : Served serve) :
    (∀ fuel r last, routedFacts codec serve max_bytes fuel = some (r, last) →
      ∃ all, r = .ok all ∧ all.Perm (serve last) ∧ all.Pairwise fun f g => f.seq < g.seq) ∧
    ((∃ n, ∀ i, n ≤ i → serve i = serve n) →
      ∃ fuel all last, routedFacts codec serve max_bytes fuel = some (.ok all, last)) ∧
    ∀ i after_seq, (∀ v ∈ (factsPage codec (serve i) after_seq max_bytes).1, v.bytes + 1 ≤ pageBudget max_bytes) →
      responseLineBytes codec (factsPageReply (factsPage codec (serve i) after_seq max_bytes)) ≤ maxLineBytes := by
  have hinit : Fetched (·.seq) (-i64Bound) (serve 0) (-i64Bound) [] := .init (h.above_start 0)
  refine ⟨?_, ?_, ?_⟩
  · intro fuel r last hrun
    obtain ⟨all, hr, hordered, hmem⟩ := h.loop_ok hinit hrun
    have hnodup : (serve last).Nodup := List.Nodup.of_map _ (h.paged last).distinct
    exact ⟨all, hr, (List.perm_ext_iff_of_nodup hordered.nodup hnodup).mpr hmem, hordered⟩
  · rintro ⟨n, hstable⟩
    obtain ⟨fuel, ⟨r, last⟩, hrun⟩ := h.loop_ends codec max_bytes hstable hinit
    obtain ⟨all, rfl, -⟩ := h.loop_ok hinit hrun
    exact ⟨fuel, all, last, hrun⟩
  · intro i after_seq hsize
    obtain ⟨taken, -, hanswer⟩ := pageOf_factsPage codec after_seq max_bytes (h.paged i)
    refine factsPageReply_bytes_le (fun n hn => ?_) (fillPage_bytes rfl (Nat.zero_le _) hsize)
    -- the cursor is the sequence number of a fact
    obtain ⟨⟨f, hf, rfl⟩, -⟩ := hanswer.cursor n hn
    have hlog := (hanswer.mem f hf).1
    have hgt := (h.paged i).seq_gt f hlog
    have hlt := (h.paged i).seq_lt f hlog
    unfold i64Bound at hgt hlt
    omega

/-- Two facts, and from the second request on a third. -/
def growingLedger (i : Nat) : List Fact :=
  if i = 0 then [{ eventId := "a", seq := 1 }, { eventId := "b", seq := 2 }]
  else [{ eventId := "a", seq := 1 }, { eventId := "b", seq := 2 }, { eventId := "c", seq := 3 }]

theorem served_growingLedger : Served growingLedger := by
  have hzero : growingLedger 0 = [{ eventId := "a", seq := 1 }, { eventId := "b", seq := 2 }] := rfl
  have hsucc : ∀ i, growingLedger (i + 1) =
      [{ eventId := "a", seq := 1 }, { eventId := "b", seq := 2 }, { eventId := "c", seq := 3 }] := fun i => by
    simp [growingLedger]
  constructor
  · intro i
    cases i with
    | zero => exact hzero ▸ ⟨by decide, by decide, by decide⟩
    | succ i => exact hsucc i ▸ ⟨by decide, by decide, by decide⟩
  · intro i
    cases i with
    | zero => exact hzero ▸ hsucc 0 ▸ ⟨by decide, by decide⟩
    | succ i =>
      rw [hsucc i, hsucc (i + 1)]
      exact ⟨fun _ h => h, fun x hx hnew => absurd hx hnew⟩

/-- One fact a page, and an append between the first two requests. -/
theorem paged_read_growing : ∃ fuel all last,
    routedFacts .sample growingLedger 1 fuel = some (.ok all, last) ∧ all.Perm (growingLedger last) := by
  obtain ⟨hread, hends, -⟩ := paged_read_atomic .sample 1 growingLedger served_growingLedger
  have hstable : ∀ i, 1 ≤ i → growingLedger i = growingLedger 1 := fun i hi => by
    rw [growingLedger, growingLedger, if_neg (by omega), if_neg (by decide)]
  obtain ⟨fuel, all, last, hrun⟩ := hends ⟨1, hstable⟩
  obtain ⟨all', hall, hperm, -⟩ := hread fuel (.ok all) last hrun
  exact ⟨fuel, all, last, hrun, by rwa [Except.ok.inj hall]⟩

end RallyPoint.Wire
