/-
# RallyPoint.MutationDeadline — when a routed mutation must have started (`store_client.rs`, `rallyd_core.rs`).

The client stamps a request with an absolute wall-clock deadline and with the budget that led to it; the daemon
turns the two into one instant of its monotonic clock. The wall clock may be set between any two readings, so
neither stamp is enough alone: the deadline sees the delay before the receipt, the budget bounds what a clock that
was set back can add to it. Everything is computed from words a peer may have chosen, in whole milliseconds, on
types that end.
-/
import RallyPoint.Routed
import RallyPoint.Lib.Time

namespace RallyPoint.MutationDeadline

open Lib
open Wire (StoreResponse StoreError)

/-! ## The client -/

/-- `OP_TIMEOUT`. -/
def opTimeout : Duration := .fromSecs 10

/-- `MUTATION_DEADLINE_RESERVE`. -/
def mutationDeadlineReserve : Duration := .fromMillis 250

/-- What the client has left for the mutation: the watchdog's remainder, where there is a watchdog. -/
def mutationBudget (outer : Option Duration) : Duration :=
  ((outer.getD opTimeout).min opTimeout).saturatingSub mutationDeadlineReserve

/-- The wall-clock instant the client gives the mutation, `now` itself when the sum is out of range. -/
def clientDeadline (times : Horizon) (now : Int) (outer : Option Duration) : Int :=
  (times.checkedAdd now (mutationBudget outer)).getD now

/-- `mutation_deadline`: the deadline and the budget in milliseconds. -/
def mutationDeadline (times : Horizon) (now : Int) (outer : Option Duration) : UInt64 × UInt64 :=
  (unixMs (clientDeadline times now outer), clampU64 (mutationBudget outer).asMillis)

/-! ## The daemon -/

/-- `CONN_TIMEOUT`. -/
def connTimeout : Duration := .fromSecs 10

/-- `MUTATION_REPLY_RESERVE`. -/
def mutationReplyReserve : Duration := .fromMillis 250

def mutationCap : Duration := connTimeout.saturatingSub mutationReplyReserve

structure RequestReceipt where
  monotonic : Int
  unixMs : UInt64

/-- What the peer asked for, at most the cap. -/
def requestedBudget (mutation_budget_ms : Option UInt64) : Duration :=
  ((mutation_budget_ms.map Duration.fromMillis).getD mutationCap).min mutationCap

/-- `absolute_remaining`. -/
def absoluteRemaining (deadline_unix_ms : Option UInt64) (nowUnixMs : UInt64) : Option Duration :=
  match deadline_unix_ms with
  | some deadline =>
    if deadline ≤ nowUnixMs then none
    else some ((Duration.fromMillis (saturatingSubU64 deadline nowUnixMs)).min mutationCap)
  | none => some mutationCap

/-- `bounded_mutation_deadline`. -/
def boundedMutationDeadline (instants : Horizon) (deadline_unix_ms mutation_budget_ms : Option UInt64)
    (receipt : RequestReceipt) (dispatchUnixMs : UInt64) (dispatchMonotonic : Int) : Option Int := do
  let requested := requestedBudget mutation_budget_ms
  if requested.isZero then none
  else
    let atReceipt := requested.min (← absoluteRemaining deadline_unix_ms receipt.unixMs)
    let receiptDeadline ← instants.checkedAdd receipt.monotonic atReceipt
    let dispatchDeadline ← instants.checkedAdd dispatchMonotonic
      (← absoluteRemaining deadline_unix_ms dispatchUnixMs)
    let deadline := min receiptDeadline dispatchDeadline
    if deadline ≤ dispatchMonotonic then none else some deadline

/-- `with_mutation_deadline_at`: a nested deadline can only shorten the one that is installed. -/
def withMutationDeadlineAt {α : Type} (previous : Option Int) (requested : Int) (work : Option Int → α) : α :=
  work (some (previous.elim requested fun prior => min prior requested))

/-- `dispatch_one_received` on a mutation, behind its prelude: `work` is the store's operation under the deadline
that is installed for it. -/
def dispatchMutation (instants : Horizon) (deadline_unix_ms mutation_budget_ms : Option UInt64)
    (receipt : RequestReceipt) (dispatchUnixMs : UInt64) (dispatchMonotonic : Int) (previous : Option Int)
    (work : Option Int → StoreResponse) : StoreResponse :=
  match boundedMutationDeadline instants deadline_unix_ms mutation_budget_ms receipt dispatchUnixMs
      dispatchMonotonic with
  | none => .error (.new .notStarted
      ("mutation-not-started: client deadline elapsed before daemon dispatch; no durable mutation started " ++
        "and retry is safe"))
  | some deadline => withMutationDeadlineAt previous deadline work

/-! ## The sizes -/

@[simp] theorem nanos_opTimeout : opTimeout.nanos = 10000000000 := rfl

@[simp] theorem nanos_mutationDeadlineReserve : mutationDeadlineReserve.nanos = 250000000 := rfl

@[simp] theorem nanos_mutationCap : mutationCap.nanos = 9750000000 := rfl

theorem nanos_mutationBudget (outer : Option Duration) : (mutationBudget outer).nanos =
    min (outer.getD opTimeout).nanos 10000000000 - 250000000 := by
  simp [mutationBudget]

/-- The client never asks for more than the daemon grants. -/
theorem mutationBudget_le (outer : Option Duration) : (mutationBudget outer).nanos ≤ mutationCap.nanos := by
  have hmin : min (outer.getD opTimeout).nanos 10000000000 ≤ 10000000000 := Nat.min_le_right _ _
  rw [nanos_mutationBudget, nanos_mutationCap]
  omega

theorem clientDeadline_le (times : Horizon) (now : Int) (outer : Option Duration) :
    clientDeadline times now outer ≤ now + (mutationBudget outer).nanos := by
  unfold clientDeadline
  cases hadd : times.checkedAdd now (mutationBudget outer) with
  | none =>
    rw [Option.getD_none]
    omega
  | some t => exact (Horizon.checkedAdd_eq_some_iff.mp hadd).1.le

/-- The budget fits its word, so only its rounding is lost. -/
theorem toNat_budgetMs (times : Horizon) (now : Int) (outer : Option Duration) :
    (mutationDeadline times now outer).2.toNat = (mutationBudget outer).asMillis := by
  have hle := mutationBudget_le outer
  rw [nanos_mutationCap] at hle
  show (clampU64 (mutationBudget outer).asMillis).toNat = _
  rw [toNat_clampU64]
  refine Nat.min_eq_left ?_
  unfold Duration.asMillis nanosPerMilli
  omega

theorem nanos_requestedBudget_le (budget : Option UInt64) :
    (requestedBudget budget).nanos ≤ mutationCap.nanos := by
  rw [requestedBudget, Duration.nanos_min]
  exact Nat.min_le_right _ _

theorem nanos_requestedBudget_le_some (budget : UInt64) :
    (requestedBudget (some budget)).nanos ≤ budget.toNat * nanosPerMilli := by
  rw [requestedBudget, Duration.nanos_min]
  exact Nat.min_le_left _ _

/-- What the daemon reads of the client's budget is not more than the client has. -/
theorem nanos_requestedBudget_client (times : Horizon) (now : Int) (outer : Option Duration) :
    (requestedBudget (some (mutationDeadline times now outer).2)).nanos ≤ (mutationBudget outer).nanos := by
  have hle := nanos_requestedBudget_le_some (mutationDeadline times now outer).2
  rw [toNat_budgetMs] at hle
  exact hle.trans (Nat.div_mul_le_self _ _)

/-! ## What the daemon computes -/

section Daemon

variable {instants : Horizon} {deadline budget : Option UInt64} {receipt : RequestReceipt} {nowMs : UInt64}
  {now : Int}

theorem absoluteRemaining_some {stamp : UInt64} {remaining : Duration}
    (h : absoluteRemaining (some stamp) nowMs = some remaining) :
    nowMs.toNat < stamp.toNat ∧ remaining.nanos ≤ (stamp.toNat - nowMs.toNat) * nanosPerMilli := by
  unfold absoluteRemaining at h
  dsimp only at h
  split_ifs at h with hle
  obtain rfl := Option.some.inj h
  rw [UInt64.le_iff_toNat_le, not_le] at hle
  refine ⟨hle, ?_⟩
  rw [Duration.nanos_min, Duration.nanos_fromMillis, toNat_saturatingSubU64]
  exact Nat.min_le_left _ _

theorem absoluteRemaining_le {remaining : Duration} (h : absoluteRemaining deadline nowMs = some remaining) :
    remaining.nanos ≤ mutationCap.nanos := by
  unfold absoluteRemaining at h
  split at h
  · split_ifs at h
    obtain rfl := Option.some.inj h
    rw [Duration.nanos_min]
    exact Nat.min_le_right _ _
  · obtain rfl := Option.some.inj h
    exact le_rfl

theorem absoluteRemaining_ne_zero {remaining : Duration} (h : absoluteRemaining deadline nowMs = some remaining) :
    remaining.nanos ≠ 0 := by
  unfold absoluteRemaining at h
  split at h
  · split_ifs at h with hle
    obtain rfl := Option.some.inj h
    rw [UInt64.le_iff_toNat_le] at hle
    rw [Duration.nanos_min, Duration.nanos_fromMillis, toNat_saturatingSubU64, nanos_mutationCap]
    unfold nanosPerMilli
    omega
  · obtain rfl := Option.some.inj h
    decide

theorem absoluteRemaining_eq_none_iff :
    absoluteRemaining deadline nowMs = none ↔ ∃ stamp, deadline = some stamp ∧ stamp ≤ nowMs := by
  unfold absoluteRemaining
  cases deadline with
  | none => simp
  | some stamp => simp

/-- **The daemon's deadline**: the budget counted from the receipt and the time to the absolute deadline counted
from either reading, each an instant of the clock. -/
theorem boundedMutationDeadline_eq_some_iff {d : Int} :
    boundedMutationDeadline instants deadline budget receipt nowMs now = some d ↔
      (requestedBudget budget).nanos ≠ 0 ∧ ∃ atReceipt atDispatch,
        absoluteRemaining deadline receipt.unixMs = some atReceipt ∧
        absoluteRemaining deadline nowMs = some atDispatch ∧
        receipt.monotonic + ((requestedBudget budget).min atReceipt).nanos ≤ instants.last ∧
        now + atDispatch.nanos ≤ instants.last ∧
        d = min (receipt.monotonic + ((requestedBudget budget).min atReceipt).nanos) (now + atDispatch.nanos) ∧
        now < d := by
  unfold boundedMutationDeadline
  dsimp only
  by_cases hzero : (requestedBudget budget).nanos = 0
  · rw [if_pos ((Duration.isZero_iff _).mpr hzero)]
    simp [hzero]
  rw [if_neg fun h => hzero ((Duration.isZero_iff _).mp h)]
  simp only [Option.bind_eq_bind, Option.bind_eq_some_iff, Horizon.checkedAdd_eq_some_iff]
  constructor
  · rintro ⟨atReceipt, hreceipt, -, ⟨rfl, hlast⟩, atDispatch, hdispatch, -, ⟨rfl, hlast'⟩, hd⟩
    split_ifs at hd with hle
    obtain rfl := Option.some.inj hd
    exact ⟨hzero, atReceipt, atDispatch, hreceipt, hdispatch, hlast, hlast', rfl, not_le.mp hle⟩
  · rintro ⟨-, atReceipt, atDispatch, hreceipt, hdispatch, hlast, hlast', rfl, hlt⟩
    refine ⟨atReceipt, hreceipt, _, ⟨rfl, hlast⟩, atDispatch, hdispatch, _, ⟨rfl, hlast'⟩, ?_⟩
    rw [if_neg (not_le.mpr hlt)]

theorem requestedBudget_eq_zero_iff : (requestedBudget budget).nanos = 0 ↔ budget = some 0 := by
  cases budget with
  | none =>
    have hcap : (requestedBudget none).nanos = 9750000000 := rfl
    simp [hcap]
  | some millis =>
    have hword : millis = 0 ↔ millis.toNat = 0 := UInt64.toNat_inj.symm
    rw [requestedBudget, Duration.nanos_min, nanos_mutationCap, Option.some.injEq, hword]
    show min (millis.toNat * nanosPerMilli) 9750000000 = 0 ↔ _
    unfold nanosPerMilli
    omega

/-- A granted deadline is bounded from the receipt and from the dispatch. -/
theorem boundedMutationDeadline_le {d : Int}
    (h : boundedMutationDeadline instants deadline budget receipt nowMs now = some d) :
    now < d ∧ d ≤ receipt.monotonic + (requestedBudget budget).nanos ∧ d ≤ instants.last ∧
      ∃ atDispatch, absoluteRemaining deadline nowMs = some atDispatch ∧ d ≤ now + atDispatch.nanos := by
  obtain ⟨-, atReceipt, atDispatch, -, hdispatch, hlast, -, rfl, hlt⟩ :=
    boundedMutationDeadline_eq_some_iff.mp h
  have hmin : (((requestedBudget budget).min atReceipt).nanos : Int) ≤ (requestedBudget budget).nanos := by
    rw [Duration.nanos_min]
    exact Int.ofNat_le.mpr (Nat.min_le_left _ _)
  refine ⟨hlt, ?_, ?_, atDispatch, hdispatch, min_le_right _ _⟩
  · exact (min_le_left _ _).trans (by omega)
  · exact (min_le_left _ _).trans hlast

theorem boundedMutationDeadline_eq_none (h : ∀ d, boundedMutationDeadline instants deadline budget receipt nowMs now =
    some d → False) : boundedMutationDeadline instants deadline budget receipt nowMs now = none :=
  Option.eq_none_iff_forall_ne_some.mpr h

end Daemon

/-! ## What any peer can get -/

/-- What holds of the daemon's answer for every pair of words on the wire and all readings of the clocks. -/
structure Bounded (instants : Horizon) (deadline budget : Option UInt64) (receipt : RequestReceipt) (nowMs : UInt64)
    (now : Int) : Prop where
  /-- A deadline lies behind the dispatch, within the budget and the cap from the receipt on, and on the clock. -/
  granted : ∀ d, boundedMutationDeadline instants deadline budget receipt nowMs now = some d →
    now < d ∧ d ≤ receipt.monotonic + (requestedBudget budget).nanos ∧
      d ≤ receipt.monotonic + mutationCap.nanos ∧ d ≤ instants.last
  budget_over : receipt.monotonic + (requestedBudget budget).nanos ≤ now →
    boundedMutationDeadline instants deadline budget receipt nowMs now = none
  deadline_over : ∀ stamp, deadline = some stamp → stamp ≤ receipt.unixMs ∨ stamp ≤ nowMs →
    boundedMutationDeadline instants deadline budget receipt nowMs now = none
  /-- Where the clock reaches one cap beyond the dispatch no sum fails, and a refusal has no other reason. -/
  refused : receipt.monotonic ≤ now → now + mutationCap.nanos ≤ instants.last →
    boundedMutationDeadline instants deadline budget receipt nowMs now = none →
    budget = some 0 ∨ (∃ stamp, deadline = some stamp ∧ (stamp ≤ receipt.unixMs ∨ stamp ≤ nowMs)) ∨
      ∃ atReceipt, absoluteRemaining deadline receipt.unixMs = some atReceipt ∧
        receipt.monotonic + ((requestedBudget budget).min atReceipt).nanos ≤ now

theorem bounded (instants : Horizon) (deadline budget : Option UInt64) (receipt : RequestReceipt) (nowMs : UInt64)
    (now : Int) : Bounded instants deadline budget receipt nowMs now where
  granted d h := by
    obtain ⟨hlt, hbudget, hlast, -⟩ := boundedMutationDeadline_le h
    have hcap := nanos_requestedBudget_le budget
    exact ⟨hlt, hbudget, by omega, hlast⟩
  budget_over hover := boundedMutationDeadline_eq_none fun d h => by
    obtain ⟨hlt, hbudget, -⟩ := boundedMutationDeadline_le h
    omega
  deadline_over stamp hstamp hover := boundedMutationDeadline_eq_none fun d h => by
    obtain ⟨-, atReceipt, atDispatch, hreceipt, hdispatch, -⟩ := boundedMutationDeadline_eq_some_iff.mp h
    rcases hover with hover | hover
    · rw [absoluteRemaining_eq_none_iff.mpr ⟨stamp, hstamp, hover⟩] at hreceipt
      cases hreceipt
    · rw [absoluteRemaining_eq_none_iff.mpr ⟨stamp, hstamp, hover⟩] at hdispatch
      cases hdispatch
  refused hle hroom hnone := by
    by_contra hnot
    rw [not_or, not_or] at hnot
    obtain ⟨hzero, hdeadline, hbudget⟩ := hnot
    have hremaining : ∀ stampMs, (stampMs = receipt.unixMs ∨ stampMs = nowMs) →
        ∃ left, absoluteRemaining deadline stampMs = some left := by
      intro stampMs hstampMs
      refine Option.ne_none_iff_exists'.mp fun hnothing => hdeadline ?_
      obtain ⟨stamp, hstamp, hover⟩ := absoluteRemaining_eq_none_iff.mp hnothing
      refine ⟨stamp, hstamp, ?_⟩
      rcases hstampMs with rfl | rfl
      · exact .inl hover
      · exact .inr hover
    obtain ⟨atReceipt, hreceipt⟩ := hremaining _ (.inl rfl)
    obtain ⟨atDispatch, hdispatch⟩ := hremaining _ (.inr rfl)
    have hlater : now < receipt.monotonic + ((requestedBudget budget).min atReceipt).nanos :=
      not_le.mp fun hover => hbudget ⟨atReceipt, hreceipt, hover⟩
    have hreceiptCap : ((requestedBudget budget).min atReceipt).nanos ≤ mutationCap.nanos := by
      rw [Duration.nanos_min]
      exact (Nat.min_le_left _ _).trans (nanos_requestedBudget_le budget)
    have hdispatchCap := absoluteRemaining_le hdispatch
    have hpos : now < now + atDispatch.nanos := by
      have hne : atDispatch.nanos ≠ 0 := absoluteRemaining_ne_zero hdispatch
      omega
    have hsome := (@boundedMutationDeadline_eq_some_iff instants deadline budget receipt nowMs now _).mpr
      ⟨fun h => hzero (requestedBudget_eq_zero_iff.mp h), atReceipt, atDispatch, hreceipt, hdispatch,
        by omega, by omega, rfl, lt_min hlater hpos⟩
    rw [hnone] at hsome
    cases hsome

/-! ## One mutation, from the client to the dispatcher -/

/-- One mutation on its way. The processes read their clocks at six instants of the monotonic clock: the client the
wall clock and then the watchdog's remainder, the daemon its two clocks at the receipt and again at the dispatch.
The wall clock shows anything at each of its three readings. -/
structure Journey where
  sampled : Int
  remainder : Int
  receipt : Int
  receiptWall : Int
  dispatch : Int
  dispatchWall : Int
  ordered : sampled ≤ remainder ∧ remainder ≤ receipt ∧ receipt ≤ receiptWall ∧ receiptWall ≤ dispatch ∧
    dispatch ≤ dispatchWall
  wallSampled : Int
  wallReceipt : Int
  wallDispatch : Int

/-- Nobody set the wall clock: it is `c` ahead of the monotonic clock at every reading. -/
def Journey.Uniform (run : Journey) (c : Int) : Prop :=
  run.wallSampled = run.sampled + c ∧ run.wallReceipt = run.receiptWall + c ∧
    run.wallDispatch = run.dispatchWall + c

/-- The client's deadline on the wall clock, when `outer` is left of its watchdog. -/
def Journey.clientDeadline (run : Journey) (times : Horizon) (outer : Option Duration) : Int :=
  MutationDeadline.clientDeadline times run.wallSampled outer

/-- The daemon's deadline for what the client sends. -/
def Journey.deadline (run : Journey) (instants times : Horizon) (outer : Option Duration) : Option Int :=
  let wire := mutationDeadline times run.wallSampled outer
  boundedMutationDeadline instants (some wire.1) (some wire.2) ⟨run.receipt, unixMs run.wallReceipt⟩
    (unixMs run.wallDispatch) run.dispatch

/-- What the client can rely on. -/
structure ClientBounded (instants times : Horizon) (run : Journey) (outer : Option Duration) : Prop where
  granted : ∀ d, run.deadline instants times outer = some d →
    run.dispatch < d ∧ d ≤ run.receipt + (mutationBudget outer).nanos ∧ d ≤ run.receipt + mutationCap.nanos
  /-- A wall clock that nobody sets shows the deadline at most a millisecond behind the client's own. -/
  uniform : ∀ c, run.Uniform c → ∀ d, run.deadline instants times outer = some d →
    d + c ≤ run.clientDeadline times outer + nanosPerMilli
  budget_over : run.receipt + (mutationBudget outer).nanos ≤ run.dispatch →
    run.deadline instants times outer = none
  deadline_over : run.clientDeadline times outer ≤ run.wallDispatch → run.deadline instants times outer = none
  /-- The words are the instant and the span rounded down: no cast loses a digit. -/
  words : (mutationDeadline times run.wallSampled outer).1.toNat =
      min ((run.clientDeadline times outer).toNat / nanosPerMilli) (2 ^ 64 - 1) ∧
    (mutationDeadline times run.wallSampled outer).2.toNat = (mutationBudget outer).asMillis

section Client

variable {instants times : Horizon} {run : Journey} {outer : Option Duration}

/-- Under a uniform wall clock the time left at the dispatch ends less than a millisecond behind the deadline. -/
theorem Journey.deadline_uniform {c d : Int} (huniform : run.Uniform c)
    (h : run.deadline instants times outer = some d) :
    d + c < run.clientDeadline times outer + nanosPerMilli := by
  obtain ⟨-, -, -, atDispatch, hdispatch, hle⟩ := boundedMutationDeadline_le h
  obtain ⟨hlt, hleft⟩ := absoluteRemaining_some hdispatch
  have hstamps := unixMs_sub_lt hlt
  have hordered := run.ordered
  have hread := huniform.2.2
  have hcast : (atDispatch.nanos : Int) ≤ (((unixMs (run.clientDeadline times outer)).toNat -
      (unixMs run.wallDispatch).toNat) * nanosPerMilli : Nat) := Int.ofNat_le.mpr hleft
  show d + c < MutationDeadline.clientDeadline times run.wallSampled outer + nanosPerMilli
  unfold Journey.clientDeadline at hcast
  omega

theorem clientBounded : ClientBounded instants times run outer where
  granted d h := by
    obtain ⟨hlt, hbudget, -⟩ := boundedMutationDeadline_le h
    have hclient := nanos_requestedBudget_client times run.wallSampled outer
    have hcap := mutationBudget_le outer
    dsimp only at hbudget
    exact ⟨hlt, by omega, by omega⟩
  uniform c huniform d h := (Journey.deadline_uniform huniform h).le
  budget_over hover := by
    refine (bounded instants _ _ _ _ _).budget_over ?_
    have hclient := nanos_requestedBudget_client times run.wallSampled outer
    dsimp only
    omega
  deadline_over hover := by
    refine (bounded instants _ _ _ _ _).deadline_over _ rfl (.inr ?_)
    exact UInt64.le_iff_toNat_le.mpr (unixMs_le hover)
  words := ⟨toNat_unixMs _, toNat_budgetMs _ _ _⟩

/-- **The client is still waiting** at the deadline, where its watchdog runs and the wall clock is not set: there
are 249 milliseconds left for the answer. -/
theorem Journey.deadline_before_watchdog {c d : Int} {left : Duration} (huniform : run.Uniform c)
    (h : run.deadline instants times (some left) = some d) :
    d + 249 * nanosPerMilli < run.remainder + left.nanos := by
  have hlate := Journey.deadline_uniform huniform h
  have hclient : run.clientDeadline times (some left) ≤ run.wallSampled + (mutationBudget (some left)).nanos :=
    clientDeadline_le times run.wallSampled (some left)
  have hordered := run.ordered
  have hbudget := nanos_mutationBudget (some left)
  -- A budget of nothing is refused, so the reserve was really taken off.
  have hpos : (mutationBudget (some left)).nanos ≠ 0 := by
    intro hzero
    obtain ⟨hlt, hreceipt, -⟩ := (@clientBounded instants times run (some left)).granted d h
    rw [hzero] at hreceipt
    omega
  have hmin : min left.nanos 10000000000 ≤ left.nanos := Nat.min_le_left _ _
  rw [Option.getD_some] at hbudget
  have hsampled := huniform.1
  unfold nanosPerMilli at hlate ⊢
  omega

end Client

/-- **A mutation never starts late.** The daemon's deadline is behind the dispatch and within the budget and the cap
from the receipt on for all words on the wire and all readings of the wall clock; with the client's own words it is
also within the client's budget, and by a wall clock that nobody sets at most a millisecond behind the client's own
deadline; a bound that is over at the dispatch is a refusal, and the store's work runs under a granted deadline or
not at all. -/
theorem mutation_never_starts_late (instants times : Horizon) :
    (∀ deadline budget receipt nowMs now, Bounded instants deadline budget receipt nowMs now) ∧
    (∀ run outer, ClientBounded instants times run outer) ∧
    ∀ deadline budget receipt nowMs now previous work,
      let answer := dispatchMutation instants deadline budget receipt nowMs now previous work
      let granted := boundedMutationDeadline instants deadline budget receipt nowMs now
      (granted = none → ∃ message, answer = .error (.new .notStarted message)) ∧
        ∀ d, granted = some d → ∃ installed, installed ≤ d ∧ answer = work (some installed) := by
  refine ⟨fun deadline budget receipt nowMs now => bounded _ _ _ _ _ _, fun run outer => clientBounded, ?_⟩
  intro deadline budget receipt nowMs now previous work answer granted
  have hanswer : answer = dispatchMutation instants deadline budget receipt nowMs now previous work := rfl
  constructor
  · intro hnone
    rw [hanswer, dispatchMutation, show boundedMutationDeadline instants deadline budget receipt nowMs now = none
      from hnone]
    exact ⟨_, rfl⟩
  · intro d hsome
    rw [hanswer, dispatchMutation, show boundedMutationDeadline instants deadline budget receipt nowMs now = some d
      from hsome]
    refine ⟨previous.elim d fun prior => min prior d, ?_, rfl⟩
    cases previous with
    | none => exact le_rfl
    | some prior => exact min_le_right _ _

/-- Four hundred milliseconds in the queue are taken off the second that was asked for, also when the wall clock is
set back while the request waits. -/
example : boundedMutationDeadline ⟨2 ^ 63 * 1000000000⟩ (some 2000) (some 1000) ⟨0, 1000⟩ 900 400000000 =
    some 1000000000 := by decide

/-! ## On whole milliseconds -/

section Millis

variable {instants : Horizon} {deadline budget : Option UInt64} {receiptUnix dispatchUnix : UInt64}
  {receiptMs dispatchMs : Nat}

/-- A count of milliseconds as an instant. -/
def atMillis (millis : Nat) : Int := (millis * nanosPerMilli : Nat)

theorem atMillis_le_iff {a b : Nat} : atMillis a ≤ atMillis b ↔ a ≤ b := by
  unfold atMillis nanosPerMilli
  omega

theorem atMillis_min (a b : Nat) : atMillis (min a b) = min (atMillis a) (atMillis b) := by
  unfold atMillis nanosPerMilli
  omega

theorem mutationCapMs_eq : Wire.mutationCapMs = 9750 := rfl

theorem requestedBudget_millis : (requestedBudget budget).nanos =
    min ((budget.map UInt64.toNat).getD Wire.mutationCapMs) Wire.mutationCapMs * nanosPerMilli := by
  cases budget with
  | none => rfl
  | some millis =>
    rw [requestedBudget, Duration.nanos_min, nanos_mutationCap, Option.map_some, Option.map_some,
      Option.getD_some, Option.getD_some, Duration.nanos_fromMillis, mutationCapMs_eq]
    unfold nanosPerMilli
    omega

/-- The remaining time of the coarse model. -/
def remainingMs (deadline : Option Nat) (now : Nat) : Option Nat :=
  match deadline with
  | some stamp => if stamp ≤ now then none else some (min (stamp - now) Wire.mutationCapMs)
  | none => some Wire.mutationCapMs

theorem absoluteRemaining_millis {nowMs : UInt64} : (absoluteRemaining deadline nowMs).map Duration.nanos =
    (remainingMs (deadline.map UInt64.toNat) nowMs.toNat).map (· * nanosPerMilli) := by
  cases deadline with
  | none => rfl
  | some stamp =>
    unfold absoluteRemaining remainingMs
    dsimp only [Option.map_some]
    by_cases hle : stamp ≤ nowMs
    · rw [if_pos hle, if_pos (UInt64.le_iff_toNat_le.mp hle)]
      rfl
    · rw [if_neg hle, if_neg fun h => hle (UInt64.le_iff_toNat_le.mpr h)]
      simp only [Option.map_some, Duration.nanos_min, Duration.nanos_fromMillis, toNat_saturatingSubU64,
        nanos_mutationCap, mutationCapMs_eq, Option.some.injEq]
      unfold nanosPerMilli
      omega

/-- `bounded_mutation_deadline` of the coarse model, by its two remainders. -/
theorem wire_boundedMutationDeadline (deadline budget : Option Nat) (clock : Wire.DispatchClock) :
    Wire.boundedMutationDeadline deadline budget clock =
      if min (budget.getD Wire.mutationCapMs) Wire.mutationCapMs = 0 then none
      else (remainingMs deadline clock.receiptUnix).bind fun leftReceipt =>
        (remainingMs deadline clock.dispatchUnix).bind fun leftDispatch =>
          let due := min (clock.receiptMonotonic + min (min (budget.getD Wire.mutationCapMs) Wire.mutationCapMs)
            leftReceipt) (clock.dispatchMonotonic + leftDispatch)
          if due ≤ clock.dispatchMonotonic then none else some due := rfl

/-- **The coarse deadline is the fine one** where the clocks read whole milliseconds and reach one cap beyond the
dispatch. -/
theorem boundedMutationDeadline_atMillis (hle : receiptMs ≤ dispatchMs)
    (hroom : atMillis (dispatchMs + Wire.mutationCapMs) ≤ instants.last) :
    boundedMutationDeadline instants deadline budget ⟨atMillis receiptMs, receiptUnix⟩ dispatchUnix
        (atMillis dispatchMs) =
      (Wire.boundedMutationDeadline (deadline.map UInt64.toNat) (budget.map UInt64.toNat)
        ⟨receiptMs, receiptUnix.toNat, dispatchMs, dispatchUnix.toNat⟩).map atMillis := by
  have hbudget := @requestedBudget_millis budget
  have hreceipt := @absoluteRemaining_millis deadline receiptUnix
  have hdispatch := @absoluteRemaining_millis deadline dispatchUnix
  have hcap := mutationCapMs_eq
  rw [wire_boundedMutationDeadline]
  unfold boundedMutationDeadline
  dsimp only [Option.bind_eq_bind]
  by_cases hzero : min ((budget.map UInt64.toNat).getD Wire.mutationCapMs) Wire.mutationCapMs = 0
  · rw [if_pos hzero, if_pos ((Duration.isZero_iff _).mpr (by rw [hbudget, hzero, Nat.zero_mul]))]
    rfl
  have hne : ¬(requestedBudget budget).isZero = true := by
    rw [Duration.isZero_iff, hbudget]
    exact Nat.mul_ne_zero hzero (by decide)
  rw [if_neg hzero, if_neg hne]
  cases hr : remainingMs (deadline.map UInt64.toNat) receiptUnix.toNat with
  | none =>
    rw [hr, Option.map_none, Option.map_eq_none_iff] at hreceipt
    rw [hreceipt]
    rfl
  | some leftReceipt =>
    rw [hr, Option.map_some, Option.map_eq_some_iff] at hreceipt
    obtain ⟨atReceipt, hatReceipt, hleftReceipt⟩ := hreceipt
    have hfirst : instants.checkedAdd (atMillis receiptMs) ((requestedBudget budget).min atReceipt) =
        some (atMillis (receiptMs + min (min ((budget.map UInt64.toNat).getD Wire.mutationCapMs) Wire.mutationCapMs)
          leftReceipt)) := by
      rw [Horizon.checkedAdd_eq_some_iff, Duration.nanos_min, hbudget, hleftReceipt]
      unfold atMillis nanosPerMilli at hroom ⊢
      omega
    cases hd : remainingMs (deadline.map UInt64.toNat) dispatchUnix.toNat with
    | none =>
      rw [hd, Option.map_none, Option.map_eq_none_iff] at hdispatch
      simp [hatReceipt, hdispatch]
    | some leftDispatch =>
      rw [hd, Option.map_some, Option.map_eq_some_iff] at hdispatch
      obtain ⟨atDispatch, hatDispatch, hleftDispatch⟩ := hdispatch
      have hsecond : instants.checkedAdd (atMillis dispatchMs) atDispatch =
          some (atMillis (dispatchMs + leftDispatch)) := by
        have hleft := absoluteRemaining_le hatDispatch
        rw [nanos_mutationCap] at hleft
        rw [Horizon.checkedAdd_eq_some_iff, hleftDispatch]
        unfold atMillis at hroom ⊢
        unfold nanosPerMilli at hroom hleftDispatch ⊢
        omega
      rw [hatReceipt, hatDispatch, Option.bind_some, Option.bind_some, Option.bind_some, hfirst, Option.bind_some,
        Option.bind_some, hsecond, Option.bind_some, ← atMillis_min]
      by_cases hdue : min (receiptMs + min (min ((budget.map UInt64.toNat).getD Wire.mutationCapMs)
          Wire.mutationCapMs) leftReceipt) (dispatchMs + leftDispatch) ≤ dispatchMs
      · rw [if_pos (atMillis_le_iff.mpr hdue), if_pos hdue, Option.map_none]
      · rw [if_neg fun h => hdue (atMillis_le_iff.mp h), if_neg hdue, Option.map_some]

end Millis

end RallyPoint.MutationDeadline
