/-
# RallyPoint.Lib.Paging — reading a growing log page by page.

A server answers "the rows after `after`" with some of them in key order and, when it left some out, the cursor
to go on with (`PageOf`). A reader that follows the cursors holds at each moment the rows up to its cursor
(`Fetched`). The log may grow between two pages as long as every new row has a larger key than all before it;
what the reader ends up with is then the log as the last page found it, and the pages run out when the log
stops growing.
-/
import RallyPoint.Lib.Merge

namespace RallyPoint.Lib

variable {α κ : Type*} [LinearOrder κ] {key : α → κ} {log log' page all : List α} {start after c : κ}

/-- One answer to the request for the rows after `after`. -/
structure PageOf (key : α → κ) (log : List α) (after : κ) (page : List α) (next : Option κ) : Prop where
  ordered : KeyOrdered key page
  mem : ∀ x ∈ page, x ∈ log ∧ after < key x
  /-- Without a cursor nothing is left. -/
  final : next = none → ∀ x ∈ log, after < key x → x ∈ page
  /-- The cursor is the key of a row of the page, and what is left lies behind it. -/
  cursor : ∀ c, next = some c → (∃ x ∈ page, key x = c) ∧ ∀ x ∈ log, after < key x → (x ∈ page ↔ key x ≤ c)

/-- The log grew: nothing is gone, and every new row has a larger key than all before it. -/
structure GrowsTo (key : α → κ) (log log' : List α) : Prop where
  kept : ∀ x ∈ log, x ∈ log'
  newer : ∀ x ∈ log', x ∉ log → ∀ y ∈ log, key y < key x

/-- What a reader that started at `start` holds at the cursor `after`. -/
structure Fetched (key : α → κ) (start : κ) (log : List α) (after : κ) (all : List α) : Prop where
  ordered : KeyOrdered key all
  mem : ∀ x, x ∈ all ↔ x ∈ log ∧ key x ≤ after
  cursor : after = start ∨ ∃ x ∈ log, key x = after

namespace Fetched

theorem init (hstart : ∀ x ∈ log, start < key x) : Fetched key start log start [] where
  ordered := .nil
  mem x := by
    constructor
    · intro hx
      cases hx
    · rintro ⟨hx, hle⟩
      exact absurd (hstart x hx) hle.not_gt
  cursor := .inl rfl

/-- Growth is beyond the cursor. -/
theorem grow (h : Fetched key start log after all) (hstart : ∀ x ∈ log', start < key x)
    (hgrow : GrowsTo key log log') : Fetched key start log' after all where
  ordered := h.ordered
  mem x := by
    rw [h.mem]
    constructor
    · rintro ⟨hx, hle⟩
      exact ⟨hgrow.kept x hx, hle⟩
    · rintro ⟨hx, hle⟩
      refine ⟨?_, hle⟩
      by_contra hnew
      rcases h.cursor with rfl | ⟨y, hy, rfl⟩
      · exact absurd (hstart x hx) hle.not_gt
      · exact absurd (hgrow.newer x hx hnew y hy) hle.not_gt
  cursor := by
    rcases h.cursor with hafter | ⟨y, hy, hkey⟩
    · exact .inl hafter
    · exact .inr ⟨y, hgrow.kept y hy, hkey⟩

/-- Every row of a page comes behind the rows fetched before. -/
theorem ordered_append {next : Option κ} (h : Fetched key start log after all)
    (hpage : PageOf key log after page next) : KeyOrdered key (all ++ page) := by
  refine List.pairwise_append.mpr ⟨h.ordered, hpage.ordered, fun x hx y hy => ?_⟩
  exact ((h.mem x).mp hx).2.trans_lt (hpage.mem y hy).2

theorem next (h : Fetched key start log after all) (hpage : PageOf key log after page (some c)) :
    after < c ∧ Fetched key start log c (all ++ page) := by
  obtain ⟨⟨y, hy, rfl⟩, hmem⟩ := hpage.cursor c rfl
  have hafter : after < key y := (hpage.mem y hy).2
  refine ⟨hafter, h.ordered_append hpage, fun x => ?_, .inr ⟨y, (hpage.mem y hy).1, rfl⟩⟩
  rw [List.mem_append, h.mem]
  constructor
  · rintro (⟨hx, hle⟩ | hx)
    · exact ⟨hx, hle.trans hafter.le⟩
    · have hlog := hpage.mem x hx
      exact ⟨hlog.1, (hmem x hlog.1 hlog.2).mp hx⟩
  · rintro ⟨hx, hle⟩
    rcases le_or_gt (key x) after with hx' | hx'
    · exact .inl ⟨hx, hx'⟩
    · exact .inr ((hmem x hx hx').mpr hle)

/-- **Behind the last page the reader holds the log,** in key order, each row once. -/
theorem last (h : Fetched key start log after all) (hpage : PageOf key log after page none) :
    KeyOrdered key (all ++ page) ∧ ∀ x, x ∈ all ++ page ↔ x ∈ log := by
  refine ⟨h.ordered_append hpage, fun x => ?_⟩
  rw [List.mem_append, h.mem]
  constructor
  · rintro (⟨hx, -⟩ | hx)
    · exact hx
    · exact (hpage.mem x hx).1
  · intro hx
    rcases le_or_gt (key x) after with hx' | hx'
    · exact .inl ⟨hx, hx'⟩
    · exact .inr (hpage.final rfl x hx hx')

end Fetched

/-- What a reader at `after` still has to fetch. -/
def remaining (key : α → κ) (log : List α) (after : κ) : Nat := log.countP fun x => after < key x

/-- A page with a cursor leaves less to fetch. -/
theorem remaining_lt (hpage : PageOf key log after page (some c)) :
    remaining key log c < remaining key log after := by
  obtain ⟨⟨y, hy, rfl⟩, -⟩ := hpage.cursor c rfl
  obtain ⟨hlog, hafter⟩ := hpage.mem y hy
  unfold remaining
  obtain ⟨before, behind, rfl⟩ := List.append_of_mem hlog
  have hmono : ∀ l : List α, (l.countP fun x => key y < key x) ≤ l.countP fun x => after < key x := by
    intro l
    refine List.countP_mono_left fun x _ hx => ?_
    simp only [decide_eq_true_eq] at hx ⊢
    exact hafter.trans hx
  have hbefore := hmono before
  have hbehind := hmono behind
  simp only [List.countP_append, List.countP_cons, lt_irrefl, decide_false, Bool.false_eq_true, if_false,
    hafter, decide_true, if_true]
  omega

end RallyPoint.Lib
