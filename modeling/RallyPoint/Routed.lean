/-
# RallyPoint.Routed — one mutating request between the routed client and the daemon (`store_client.rs`,
`rallyd_core.rs`).

The client writes one line, a connection thread reads it and hands a job to the single dispatcher, the dispatcher
runs the store method, and the reply comes back through a channel, is framed and read. Anything may be lost or
late: `RoutedState.step` has one action for each place where a step of the code can succeed or fail, and a store
method is whatever returns Ok or OutcomeUnknown when its append may have become durable (`StoreReturn`).

A lost reply reads as OutcomeUnknown. A reply too long for the line cap does not: it is replaced by a plain error,
also when it reports a commit, so the runs in which a client can trust an error are those in which the reply of a
durable append fits the line.
-/
import RallyPoint.Wire
import RallyPoint.Lib.Steps

namespace RallyPoint.Wire

open Lib

/-! ## The client's reading of an answer -/

/-- `trim_end_matches("; retry")`: the suffix is taken off as often as it is there. -/
def trimRetry (text : String) : String :=
  match stripSuffix "; retry" text with
  | some rest => if rest.length < text.length then trimRetry rest else text
  | none => text
termination_by text.length

structure MutationQuery where
  operation : String
  selector : Option String
  event_id : Option String

/-- The event id a fact payload names. -/
def factEventId (fact : Json) : Option String := (fact.asObject.bind (getField · "event_id")).bind Json.asStr

def mutationQuery (op : StoreOp) : Option MutationQuery :=
  match op with
  | .appendFact fact | .appendFactVerified fact | .appendStateTransitionVerified fact
  | .appendSessionFactIfContext fact _ =>
    let event_id := factEventId fact
    some ⟨op.kindName, event_id.map fun id => s!"event_id={id}", event_id⟩
  | .rebuildClaimIndex => some ⟨op.kindName, none, none⟩
  | .renewClaimLease claim_id _ event_id _ _ _ _ _ =>
    some ⟨op.kindName, some s!"event_id={event_id},claim_id={claim_id}", some event_id⟩
  | .maybeAppendReadCheckpoint fact read_seq =>
    let event_id := factEventId fact
    some ⟨op.kindName, event_id.map fun id => s!"event_id={id},read_seq={read_seq}", event_id⟩
  | .factsPage .. | .ping | .readOnly .. => none

/-- What a request that got no answer reads as: unknown for a mutation with an event id. -/
def transportError (op : StoreOp) (io_err : String) : CliError :=
  match mutationQuery op with
  | some query =>
    match query.event_id with
    | some event_id => .outcomeUnknown event_id "daemon-transport"
        (s!"daemon transport failure during mutating operation {query.operation}: {io_err}; " ++
          "direct fallback is forbidden")
    | none =>
      let selector := (query.selector.map fun value => s!" for {value}").getD ""
      .command (s!"daemon transport failure during mutating operation {query.operation}: {io_err}; " ++
        s!"outcome unknown. Query `rally room --json`{selector} before repeating the mutation; " ++
        "direct fallback is forbidden")
  | none => .command
      s!"daemon transport failure during read-only operation: {io_err}; run `rally daemon status`"

/-- The phase of an OutcomeUnknown has a text on one line. -/
def isPhase (phase : String) : Bool := !isBlank phase && !phase.toList.any isControl

def storeErrorToRallyError (err : StoreError) : CliError :=
  match err.kind with
  | .usage => .usage err.message
  | .notFound => .notFound err.message
  | .notStarted => .notStarted err.message
  | .outcomeUnknown =>
    match err.event_id with
    | none => .incompatibleWire "daemon returned malformed outcome_unknown without event_id"
    | some event_id =>
      match validateAppendEventId event_id with
      | .error error =>
        let text := (CliError.ofRefusal error).display ""
        .incompatibleWire s!"daemon returned malformed outcome_unknown event_id: {text}"
      | .ok () =>
        match err.phase with
        | none => .incompatibleWire "daemon returned malformed outcome_unknown without phase"
        | some phase =>
          if !isPhase phase then .incompatibleWire "daemon returned malformed outcome_unknown phase"
          else .outcomeUnknown event_id phase err.message
  | .incompatibleWire => .incompatibleWire err.message
  | .command | .message | .internal | .transport => .command err.message

/-- How `dispatch_with_engagement` reads a reply line. -/
def readReply (op : StoreOp) : StoreResponse → Except CliError StoreOk
  | .ok ok => .ok ok
  | .error err =>
    if err.kind = .transport ∧ op.isMutating then
      .error (transportError op s!"{trimRetry err.message}; reconcile before retrying")
    else .error (storeErrorToRallyError err)

/-! ## The daemon's answers -/

/-- What the daemon's texts take from its process. -/
structure DaemonEnv where
  repo_root : String
  pid : Nat
  recovery : String
  releaseCheckUrl : String
  upgradeGuideUrl : String

def rallyToWire (env : DaemonEnv) : CliError → StoreError
  | .outcomeUnknown event_id phase detail => .outcomeUnknown event_id phase detail
  | .usage text => .new .usage text
  | .notFound text => .new .notFound text
  | .command text => .new .command text
  | .message text => .new .message text
  | .notStarted text => .new .notStarted text
  | .incompatibleWire detail => .new .incompatibleWire ((CliError.incompatibleWire detail).display env.recovery)
  | .io context source => .new .internal ((CliError.io context source).display env.recovery)
  | .json context source => .new .internal ((CliError.json context source).display env.recovery)

/-- Answers that need no store. -/
def immediateResponse (env : DaemonEnv) (req : StoreRequest) : Option StoreResponse :=
  if req.wire_version ≠ wireVersion then
    some (.error (.new .incompatibleWire
      (s!"wire_version mismatch: daemon speaks {wireVersion}, client sent {req.wire_version}; " ++
        s!"check releases at {env.releaseCheckUrl}; upgrade steps at {env.upgradeGuideUrl}; coordinate a " ++
        "matching-client and daemon upgrade with peers before restarting")))
  else
    match req.op with
    | .ping => some (.ok (.pong env.repo_root env.pid wireVersion))
    | .readOnly "snapshot_scoped" _ =>
      if req.engagement.isNone then
        some (.error (.new .usage "snapshot_scoped requires StoreRequest.engagement"))
      else none
    | _ => none

/-- `CONN_TIMEOUT` less `MUTATION_REPLY_RESERVE`, in milliseconds. -/
def mutationCapMs : Nat := 10000 - 250

/-- The clocks at the receipt of a request and at its dispatch, in milliseconds. -/
structure DispatchClock where
  receiptMonotonic : Nat
  receiptUnix : Nat
  dispatchMonotonic : Nat
  dispatchUnix : Nat

/-- `bounded_mutation_deadline`: when a mutation must have started, or nothing when that is over. -/
def boundedMutationDeadline (deadline_unix_ms mutation_budget_ms : Option Nat) (clock : DispatchClock) :
    Option Nat := do
  let requested := min (mutation_budget_ms.getD mutationCapMs) mutationCapMs
  if requested = 0 then none
  else
    let absoluteRemaining (now : Nat) : Option Nat :=
      match deadline_unix_ms with
      | some deadline => if deadline ≤ now then none else some (min (deadline - now) mutationCapMs)
      | none => some mutationCapMs
    let atReceipt := min requested (← absoluteRemaining clock.receiptUnix)
    let atDispatch ← absoluteRemaining clock.dispatchUnix
    let deadline := min (clock.receiptMonotonic + atReceipt) (clock.dispatchMonotonic + atDispatch)
    if deadline ≤ clock.dispatchMonotonic then none else some deadline

/-- What a store method did. The contract is the store's own: once the canonical append may be durable it returns
Ok or OutcomeUnknown; OutcomeUnknown comes behind the identity check, names the fact the method was given and a
phase; an outcome is built behind the readback of the row. -/
structure StoreReturn (event_id : String) where
  result : Except CliError StoreOk
  /-- The append may have become durable. -/
  durable : Bool
  /-- The fact is in the ledger. -/
  inLedger : Bool
  ok_or_unknown : durable = true → ∀ e, result = .error e → e.isOutcomeUnknown = true
  unknown_named : ∀ id phase detail, result = .error (.outcomeUnknown id phase detail) →
    id = event_id ∧ validateAppendEventId id = .ok () ∧ isPhase phase = true
  outcome_inLedger : ∀ ok, result = .ok ok → ok.reportsCommit = true → inLedger = true

/-- The fact an operation decodes before it calls the store; a renewal builds its own. -/
def decodeOp (codec : SessionCodec) : StoreOp → Except String Unit
  | .appendFact fact | .appendFactVerified fact | .appendStateTransitionVerified fact
  | .appendSessionFactIfContext fact _ | .maybeAppendReadCheckpoint fact _ =>
    (factFromWire codec fact).map fun _ => ()
  | _ => .ok ()

/-- `run_op` on a mutation: its answer, and whether the store method was called. -/
def runOp (codec : SessionCodec) (env : DaemonEnv) (op : StoreOp) {event_id : String}
    (ret : StoreReturn event_id) : StoreResponse × Bool :=
  match decodeOp codec op with
  | .error e => (.error (.new .command s!"bad fact payload: {e}"), false)
  | .ok () => (ret.result.mapError (rallyToWire env), true)

/-- `dispatch_one_received` on a mutation. -/
def dispatchOneReceived (codec : SessionCodec) (env : DaemonEnv) (req : StoreRequest) (clock : DispatchClock)
    {event_id : String} (ret : StoreReturn event_id) : StoreResponse × Bool :=
  match immediateResponse env req with
  | some response => (response, false)
  | none =>
    match boundedMutationDeadline req.deadline_unix_ms req.mutation_budget_ms clock with
    | none => (.error (.new .notStarted
        ("mutation-not-started: client deadline elapsed before daemon dispatch; no durable mutation started " ++
          "and retry is safe")), false)
    | some _ => runOp codec env req.op ret

/-- `frame_response`: a reply over the line cap is replaced by a typed error. -/
def frameResponse (codec : SessionCodec) (resp : StoreResponse) (op_kind : String) (cap : Nat) : StoreResponse :=
  if responseLineBytes codec resp ≤ cap then resp
  else .error (.new .command
    (s!"reply-too-large: {op_kind} reply is {responseLineBytes codec resp} bytes, exceeding protocol maximum " ++
      s!"{cap}; the request must be bounded or paginated"))

def busyResponse : StoreResponse := .error (.new .notStarted
  "daemon busy before dispatch; no durable mutation started; retry is safe")

def dispatcherStoppedResponse : StoreResponse := .error (.new .notStarted
  "daemon dispatcher stopped before dispatch; no durable mutation started; retry is safe")

def replyTimeoutResponse : StoreResponse := .error (.transport
  "daemon store op timed out after dispatch; outcome unknown; reconcile before retrying")

def replyDroppedResponse : StoreResponse := .error (.transport
  "daemon dispatcher dropped the reply after dispatch; outcome unknown; reconcile before retrying")

/-! ## Runs -/

/-- A mutating request whose fact bears an event id, as the client sends it, and the daemon it goes to. -/
structure RoutedRequest where
  codec : SessionCodec
  env : DaemonEnv
  req : StoreRequest
  event_id : String
  mutating : req.op.isMutating = true
  named : ∃ query, mutationQuery req.op = some query ∧ query.event_id = some event_id

inductive ClientPhase
  | connecting
  | waiting
  | done (result : Except CliError StoreOk)

/-- Where the connection thread stands; a reply comes with the name it is framed under. -/
inductive ConnPhase
  | none
  | reading
  | waiting
  | replying (resp : StoreResponse) (op_kind : String)
  | closed

/-- The reply channel of the job. -/
inductive Channel
  | empty
  | sent (resp : StoreResponse)
  | disconnected

/-- One request under way. `queued`: the job is in the dispatcher's queue; `line`: a reply line is on its way. The
last three are bookkeeping: how often the store method ran, whether its append may be durable, whether the fact
is in the ledger. -/
structure RoutedState where
  client : ClientPhase
  conn : ConnPhase
  queued : Bool
  channel : Channel
  dispatcherUp : Bool
  line : Option StoreResponse
  executions : Nat
  durable : Bool
  inLedger : Bool

/-- What the connection thread gets to read. -/
inductive Received
  | whole
  /-- The stream ended within the line; the text does not parse. -/
  | part (error : String)
  /-- The stream ended before the line. -/
  | nothing
  /-- A read error or a line that is not UTF-8. -/
  | failed (error : String)

inductive RoutedAction (event_id : String)
  | connect
  | connectFails (io : String)
  /-- No thread for the connection: it is answered busy. -/
  | busy
  /-- The store did not open: pending connections are answered with the error. -/
  | storeOpenFailed (message : String)
  | readRequest (got : Received)
  | stopDispatcher
  | execute (clock : DispatchClock) (ret : StoreReturn event_id)
  /-- The dispatcher is gone behind the store method, before it sends. -/
  | executeAndStop (clock : DispatchClock) (ret : StoreReturn event_id)
  | takeReply
  | replyTimeout
  /-- The connection is closed without a reply. -/
  | dropConnection
  | writeReply
  | clientReads
  /-- A timeout, a reset, an empty or a cut reply. -/
  | clientFails (io : String)

namespace RoutedState

def start : RoutedState := ⟨.connecting, .none, false, .empty, true, none, 0, false, false⟩

variable (r : RoutedRequest)

/-- `read_request_line` and the parse: the answer, or the job that is handed over. -/
def receive (s : RoutedState) : Received → RoutedState
  | .whole =>
    if maxLineBytes < r.req.lineBytes then
      { s with conn := .replying (.error (.transport
          s!"request exceeds {maxLineBytes} bytes; run `rally daemon status`")) "unparsed" }
    else if s.dispatcherUp then { s with conn := .waiting, queued := true }
    else { s with conn := .replying dispatcherStoppedResponse r.req.op.kindName }
  | .part error => { s with conn := .replying (.error (.new .command s!"malformed request: {error}")) "unparsed" }
  | .nothing => { s with conn := .replying (.error (.transport "empty request line")) "unparsed" }
  | .failed error => { s with conn := .replying (.error (.transport s!"read request: {error}")) "unparsed" }

/-- The dispatcher takes the job and runs it; `stops` when it is gone before it sends the answer. -/
def dispatch (s : RoutedState) (clock : DispatchClock) (ret : StoreReturn r.event_id) (stops : Bool) :
    RoutedState :=
  let answer := dispatchOneReceived r.codec r.env r.req clock ret
  { s with
    queued := false
    dispatcherUp := s.dispatcherUp && !stops
    channel := if stops then .disconnected else .sent answer.1
    executions := s.executions + if answer.2 then 1 else 0
    durable := s.durable || answer.2 && ret.durable
    inLedger := s.inLedger || answer.2 && ret.inLedger }

def step (s : RoutedState) : RoutedAction r.event_id → Option RoutedState
  | .connect =>
    match s.client, s.conn with
    | .connecting, .none => some { s with client := .waiting, conn := .reading }
    | _, _ => none
  | .connectFails io =>
    match s.client with
    | .connecting => some { s with client := .done (.error (transportError r.req.op io)) }
    | _ => none
  | .busy =>
    match s.client, s.conn with
    | .connecting, .none => some { s with client := .waiting, conn := .replying busyResponse "reply" }
    | _, _ => none
  | .storeOpenFailed message =>
    match s.client, s.conn with
    | .connecting, .none => some { s with
        client := .waiting
        conn := .replying (.error (.new .internal s!"daemon store open failed: {message}")) "reply" }
    | _, _ => none
  | .readRequest got =>
    match s.conn with
    | .reading => some (s.receive r got)
    | _ => none
  | .stopDispatcher => some { s with
      dispatcherUp := false
      queued := false
      channel := if s.queued then .disconnected else s.channel }
  | .execute clock ret => if s.queued ∧ s.dispatcherUp then some (s.dispatch r clock ret false) else none
  | .executeAndStop clock ret => if s.queued ∧ s.dispatcherUp then some (s.dispatch r clock ret true) else none
  | .takeReply =>
    match s.conn, s.channel with
    | .waiting, .sent resp => some { s with conn := .replying resp r.req.op.kindName }
    | .waiting, .disconnected => some { s with conn := .replying replyDroppedResponse r.req.op.kindName }
    | _, _ => none
  | .replyTimeout =>
    match s.conn with
    | .waiting => some { s with conn := .replying replyTimeoutResponse r.req.op.kindName }
    | _ => none
  | .dropConnection =>
    match s.conn with
    | .none => none
    | _ => some { s with conn := .closed }
  | .writeReply =>
    match s.conn with
    | .replying resp op_kind => some { s with
        conn := .closed
        line := some (frameResponse r.codec resp op_kind maxLineBytes) }
    | _ => none
  | .clientReads =>
    match s.client, s.line with
    | .waiting, some resp => some { s with
        line := none
        client := .done
          (if maxLineBytes < responseLineBytes r.codec resp then
            .error (transportError r.req.op
              s!"daemon reply exceeds {maxLineBytes} bytes; run `rally daemon status`")
          else readReply r.req.op resp) }
    | _, _ => none
  | .clientFails io =>
    match s.client with
    | .waiting => some { s with client := .done (.error (transportError r.req.op io)) }
    | _ => none

end RoutedState

/-- **A routed write hides no commit:** an error other than OutcomeUnknown means that nothing was committed, a
reported commit that the fact is in the ledger, and the store method ran once at most. -/
structure HidesNoCommit (s : RoutedState) : Prop where
  error_committed_nothing : ∀ e, s.client = .done (.error e) → e.isOutcomeUnknown = false → s.durable = false
  ok_inLedger : ∀ ok, s.client = .done (.ok ok) → ok.reportsCommit = true → s.inLedger = true
  at_most_once : s.executions ≤ 1

/-- The reply about to be written fits the line cap, if the request's append may be durable. -/
def replyFits (r : RoutedRequest) (s : RoutedState) (a : RoutedAction r.event_id) : Prop :=
  ∀ resp op_kind, a = .writeReply → s.conn = .replying resp op_kind → s.durable = true →
    responseLineBytes r.codec resp ≤ maxLineBytes

/-! ## What an answer may say -/

section Answers

variable {r : RoutedRequest} {s t : RoutedState} {resp : StoreResponse} {e : StoreError}

/-- Nothing is executed any more: the job has been taken or was never handed over. -/
def RoutedState.Past (s : RoutedState) : Prop := s.queued = false ∧ s.conn ≠ .none ∧ s.conn ≠ .reading

/-- An OutcomeUnknown that the client can read. -/
def NamesFact (r : RoutedRequest) (e : StoreError) : Prop :=
  e.kind = .outcomeUnknown ∧ validateAppendEventId r.event_id = .ok () ∧ e.event_id = some r.event_id ∧
    ∃ phase, e.phase = some phase ∧ isPhase phase = true

/-- **What a reply may say in a state:** a commit that is in the ledger, that the outcome is unknown, or anything
else when nothing was committed and nothing will be. -/
def Faithful (r : RoutedRequest) (s : RoutedState) : StoreResponse → Prop
  | .ok ok => ok.reportsCommit = true → s.inLedger = true
  | .error e => e.kind = .transport ∨ NamesFact r e ∨ s.durable = false ∧ s.Past

/-- The same for what the client returned. -/
def ResultFaithful (s : RoutedState) : Except CliError StoreOk → Prop
  | .ok ok => ok.reportsCommit = true → s.inLedger = true
  | .error e => e.isOutcomeUnknown = true ∨ s.durable = false ∧ s.Past

/-- What a step keeps of answers already given. -/
structure Keeps (s t : RoutedState) : Prop where
  past : s.Past → t.Past ∧ t.durable = s.durable
  inLedger : s.inLedger = true → t.inLedger = true

theorem Faithful.keeps (h : Faithful r s resp) (hst : Keeps s t) : Faithful r t resp := by
  cases resp with
  | ok ok => exact fun hreports => hst.inLedger (h hreports)
  | error e =>
    rcases h with h | h | ⟨hdurable, hpast⟩
    · exact .inl h
    · exact .inr (.inl h)
    · obtain ⟨hpast', hsame⟩ := hst.past hpast
      exact .inr (.inr ⟨hsame.trans hdurable, hpast'⟩)

theorem ResultFaithful.keeps {res : Except CliError StoreOk} (h : ResultFaithful s res) (hst : Keeps s t) :
    ResultFaithful t res := by
  cases res with
  | ok ok => exact fun hreports => hst.inLedger (h hreports)
  | error e =>
    rcases h with h | ⟨hdurable, hpast⟩
    · exact .inl h
    · obtain ⟨hpast', hsame⟩ := hst.past hpast
      exact .inr ⟨hsame.trans hdurable, hpast'⟩

/-- A request with an event id that got no answer reads as OutcomeUnknown. -/
theorem transportError_isOutcomeUnknown (r : RoutedRequest) (io : String) :
    (transportError r.req.op io).isOutcomeUnknown = true := by
  obtain ⟨query, hquery, hid⟩ := r.named
  unfold transportError
  simp only [hquery, hid]
  rfl

/-- **The client reads a faithful reply faithfully.** -/
theorem readReply_faithful (h : Faithful r s resp) : ResultFaithful s (readReply r.req.op resp) := by
  cases resp with
  | ok ok => exact h
  | error e =>
    rw [readReply]
    by_cases htransport : e.kind = .transport
    · rw [if_pos ⟨htransport, r.mutating⟩]
      exact .inl (transportError_isOutcomeUnknown r _)
    · rw [if_neg fun h => htransport h.1]
      rcases h with h | ⟨hkind, hvalid, hid, phase, hphase, hwell⟩ | h
      · exact absurd h htransport
      · left
        simp [storeErrorToRallyError, hkind, hid, hvalid, hphase, hwell, CliError.isOutcomeUnknown]
      · exact .inr h

/-- A mutation is answered with an error before the store is called, or with what the store method returned. -/
theorem dispatchOneReceived_cases (clock : DispatchClock) (ret : StoreReturn r.event_id) :
    ((dispatchOneReceived r.codec r.env r.req clock ret).2 = false ∧
        ∃ e, (dispatchOneReceived r.codec r.env r.req clock ret).1 = .error e) ∨
      dispatchOneReceived r.codec r.env r.req clock ret = (ret.result.mapError (rallyToWire r.env), true) := by
  unfold dispatchOneReceived
  cases himm : immediateResponse r.env r.req with
  | some response =>
    refine .inl ⟨rfl, ?_⟩
    have hmut := r.mutating
    unfold immediateResponse at himm
    split at himm
    · exact ⟨_, (Option.some.inj himm).symm⟩
    · split at himm
      · rename_i hop
        rw [hop] at hmut
        cases hmut
      · rename_i hop
        rw [hop] at hmut
        cases hmut
      · cases himm
  | none =>
    dsimp only
    cases boundedMutationDeadline r.req.deadline_unix_ms r.req.mutation_budget_ms clock with
    | none => exact .inl ⟨rfl, _, rfl⟩
    | some deadline =>
      dsimp only [runOp]
      cases decodeOp r.codec r.req.op with
      | error e => exact .inl ⟨rfl, _, rfl⟩
      | ok => exact .inr rfl

/-- **What a store method returned is a faithful answer** once the bookkeeping has it. -/
theorem storeReturn_faithful (ret : StoreReturn r.event_id) (hdurable : ret.durable = false → t.durable = false)
    (hledger : ret.inLedger = true → t.inLedger = true) (hpast : t.Past) :
    Faithful r t (ret.result.mapError (rallyToWire r.env)) := by
  cases hres : ret.result with
  | ok ok => exact fun hreports => hledger (ret.outcome_inLedger ok hres hreports)
  | error e =>
    by_cases hunknown : e.isOutcomeUnknown = true
    · cases e with
      | outcomeUnknown id phase detail =>
        obtain ⟨rfl, hvalid, hphase⟩ := ret.unknown_named id phase detail hres
        exact .inr (.inl ⟨rfl, hvalid, rfl, phase, rfl, hphase⟩)
      | _ => cases hunknown
    · refine .inr (.inr ⟨hdurable ?_, hpast⟩)
      cases hdur : ret.durable with
      | false => rfl
      | true => exact absurd (ret.ok_or_unknown hdur e hres) hunknown

end Answers

/-! ## The invariant of a run -/

/-- Before the job is handed over nothing has happened, a queued job has not run, and every answer that has been
given is faithful. -/
structure RoutedInv (r : RoutedRequest) (s : RoutedState) : Prop where
  early : s.conn = .none ∨ s.conn = .reading → s.queued = false ∧ s.executions = 0 ∧ s.channel = .empty
  queued_fresh : s.queued = true → s.executions = 0 ∧ s.channel = .empty
  fresh : s.executions = 0 → s.durable = false
  at_most_once : s.executions ≤ 1
  channel : ∀ resp, s.channel = .sent resp → Faithful r s resp
  /-- A reply is faithful, and while the job is still queued it says that the wait was over. -/
  replying : ∀ resp op_kind, s.conn = .replying resp op_kind →
    Faithful r s resp ∧ (s.queued = true → resp = replyTimeoutResponse)
  line : ∀ resp, s.line = some resp → Faithful r s resp
  client : ∀ res, s.client = .done res → ResultFaithful s res

section Step

variable {r : RoutedRequest} {s t : RoutedState}

theorem RoutedInv.start (r : RoutedRequest) : RoutedInv r .start where
  early _ := ⟨rfl, rfl, rfl⟩
  queued_fresh h := by cases h
  fresh _ := rfl
  at_most_once := Nat.zero_le 1
  channel _ h := by cases h
  replying _ _ h := by cases h
  line _ h := by cases h
  client _ h := by cases h

/-- A step of the connection thread or the client keeps what was answered. -/
theorem keeps_of_past {client : ClientPhase} {conn : ConnPhase} {line : Option StoreResponse}
    (hconn : conn ≠ .none ∧ conn ≠ .reading) : Keeps s { s with client, conn, line } :=
  ⟨fun hpast => ⟨⟨hpast.1, hconn⟩, rfl⟩, id⟩

/-- Only the dispatcher touches the bookkeeping, and only with a job in the queue. -/
theorem keeps_of_step {a : RoutedAction r.event_id} (h : s.step r a = some t) : Keeps s t := by
  cases a with
  | connect | busy | storeOpenFailed =>
    simp only [RoutedState.step] at h
    split at h
    · rename_i hconn
      obtain rfl := Option.some.inj h
      exact ⟨fun hpast => absurd hconn hpast.2.1, id⟩
    · cases h
  | connectFails =>
    simp only [RoutedState.step] at h
    split at h
    · obtain rfl := Option.some.inj h
      exact ⟨fun hpast => ⟨hpast, rfl⟩, id⟩
    · cases h
  | readRequest got =>
    simp only [RoutedState.step] at h
    split at h
    · rename_i hconn
      obtain rfl := Option.some.inj h
      refine ⟨fun hpast => absurd hconn hpast.2.2, ?_⟩
      unfold RoutedState.receive
      split
      · split
        · exact id
        · split <;> exact id
      all_goals exact id
    · cases h
  | stopDispatcher =>
    obtain rfl := Option.some.inj h
    exact ⟨fun hpast => ⟨⟨rfl, hpast.2⟩, rfl⟩, id⟩
  | execute clock ret | executeAndStop clock ret =>
    simp only [RoutedState.step] at h
    split at h
    · rename_i hqueued
      obtain rfl := Option.some.inj h
      refine ⟨fun hpast => absurd hqueued.1 (by simp [hpast.1]), fun hin => ?_⟩
      simp [RoutedState.dispatch, hin]
    · cases h
  | takeReply =>
    simp only [RoutedState.step] at h
    split at h
    · obtain rfl := Option.some.inj h
      exact keeps_of_past ⟨nofun, nofun⟩
    · obtain rfl := Option.some.inj h
      exact keeps_of_past ⟨nofun, nofun⟩
    · cases h
  | replyTimeout | writeReply =>
    simp only [RoutedState.step] at h
    split at h
    · obtain rfl := Option.some.inj h
      exact keeps_of_past ⟨nofun, nofun⟩
    · cases h
  | dropConnection =>
    simp only [RoutedState.step] at h
    split at h
    · cases h
    · obtain rfl := Option.some.inj h
      exact keeps_of_past ⟨nofun, nofun⟩
  | clientReads | clientFails =>
    simp only [RoutedState.step] at h
    split at h
    · obtain rfl := Option.some.inj h
      exact ⟨fun hpast => ⟨hpast, rfl⟩, id⟩
    · cases h

/-- The timeout reply fits the line. -/
theorem replyTimeoutResponse_fits (codec : SessionCodec) :
    responseLineBytes codec replyTimeoutResponse ≤ maxLineBytes := by
  have hsize : (Json.object [("err", (StoreError.transport
      "daemon store op timed out after dispatch; outcome unknown; reconcile before retrying").toJson)]).bytes + 1 ≤
        maxLineBytes := by decide +kernel
  exact hsize

/-- The connection thread has a reply to write. -/
theorem RoutedInv.reply (hinv : RoutedInv r s) {client : ClientPhase} {resp : StoreResponse} {op_kind : String}
    (hkeeps : Keeps s { s with client, conn := .replying resp op_kind })
    (hfaithful : Faithful r { s with client, conn := .replying resp op_kind } resp)
    (hqueued : s.queued = true → resp = replyTimeoutResponse)
    (hclient : client = s.client ∨ client = .waiting) :
    RoutedInv r { s with client, conn := .replying resp op_kind } where
  early hc := by rcases hc with hc | hc <;> cases hc
  queued_fresh := hinv.queued_fresh
  fresh := hinv.fresh
  at_most_once := hinv.at_most_once
  channel resp' hc := (hinv.channel resp' hc).keeps hkeeps
  replying resp' k hc := by
    obtain ⟨rfl, rfl⟩ := ConnPhase.replying.inj hc
    exact ⟨hfaithful, hqueued⟩
  line resp' hl := (hinv.line resp' hl).keeps hkeeps
  client res hc := by
    rcases hclient with rfl | rfl
    · exact (hinv.client res hc).keeps hkeeps
    · cases hc

/-- Before the job is handed over any refusal is true. -/
theorem RoutedInv.refuse (hinv : RoutedInv r s) {client : ClientPhase} {e : StoreError} {op_kind : String}
    (hkeeps : Keeps s { s with client, conn := .replying (.error e) op_kind })
    (hconn : s.conn = .none ∨ s.conn = .reading) (hclient : client = s.client ∨ client = .waiting) :
    RoutedInv r { s with client, conn := .replying (.error e) op_kind } := by
  obtain ⟨hqueued, hexec, -⟩ := hinv.early hconn
  refine hinv.reply hkeeps (.inr (.inr ⟨hinv.fresh hexec, hqueued, nofun, nofun⟩)) (fun hq => ?_) hclient
  rw [hqueued] at hq
  cases hq

/-- The dispatcher ran the job: its answer is true, whether or not it is sent. -/
theorem RoutedInv.dispatched (hinv : RoutedInv r s) (clock : DispatchClock) (ret : StoreReturn r.event_id)
    (stops : Bool) (hqueued : s.queued = true) (hkeeps : Keeps s (s.dispatch r clock ret stops)) :
    RoutedInv r (s.dispatch r clock ret stops) := by
  have hexec := (hinv.queued_fresh hqueued).1
  have hdurable := hinv.fresh hexec
  have hconn : s.conn ≠ .none ∧ s.conn ≠ .reading := by
    constructor
    · intro hc
      simp [(hinv.early (.inl hc)).1] at hqueued
    · intro hc
      simp [(hinv.early (.inr hc)).1] at hqueued
  have hpast : (s.dispatch r clock ret stops).Past := ⟨rfl, hconn⟩
  have hanswer : Faithful r (s.dispatch r clock ret stops) (dispatchOneReceived r.codec r.env r.req clock ret).1 := by
    rcases dispatchOneReceived_cases clock ret with ⟨hidle, e, he⟩ | hran
    · rw [he]
      exact .inr (.inr ⟨by simp [RoutedState.dispatch, hidle, hdurable], hpast⟩)
    · have hbook : (s.dispatch r clock ret stops).durable = ret.durable ∧
          (ret.inLedger = true → (s.dispatch r clock ret stops).inLedger = true) := by
        simp only [RoutedState.dispatch, hran, hdurable, Bool.true_and, Bool.false_or, Bool.or_eq_true, true_and]
        exact .inr
      rw [hran]
      exact storeReturn_faithful ret (fun h => hbook.1.trans h) hbook.2 hpast
  refine ⟨fun hc => ?_, nofun, ?_, ?_, ?_, ?_, ?_, ?_⟩
  · rcases hc with hc | hc
    · exact absurd hc hconn.1
    · exact absurd hc hconn.2
  · intro hnone
    cases hran : (dispatchOneReceived r.codec r.env r.req clock ret).2 <;>
      simp_all [RoutedState.dispatch]
  · simp only [RoutedState.dispatch, hexec, Nat.zero_add]
    split <;> decide
  · intro resp hc
    cases stops with
    | true => cases hc
    | false =>
      obtain rfl := Channel.sent.inj hc
      exact hanswer
  · exact fun resp k hc => ⟨(hinv.replying resp k hc).1.keeps hkeeps, nofun⟩
  · exact fun resp hl => (hinv.line resp hl).keeps hkeeps
  · exact fun res hc => (hinv.client res hc).keeps hkeeps

theorem RoutedInv.step (hinv : RoutedInv r s) {a : RoutedAction r.event_id} (hfits : replyFits r s a)
    (h : s.step r a = some t) : RoutedInv r t := by
  have hkeeps := keeps_of_step h
  have hchannel : ∀ resp, s.channel = .sent resp → Faithful r t resp :=
    fun resp hc => (hinv.channel resp hc).keeps hkeeps
  have hreplying : ∀ resp op_kind, s.conn = .replying resp op_kind →
      Faithful r t resp ∧ (s.queued = true → resp = replyTimeoutResponse) :=
    fun resp op_kind hc => ⟨(hinv.replying resp op_kind hc).1.keeps hkeeps, (hinv.replying resp op_kind hc).2⟩
  have hline : ∀ resp, s.line = some resp → Faithful r t resp := fun resp hl => (hinv.line resp hl).keeps hkeeps
  have hclient : ∀ res, s.client = .done res → ResultFaithful t res :=
    fun res hc => (hinv.client res hc).keeps hkeeps
  cases a with
  | connect =>
    simp only [RoutedState.step] at h
    split at h
    · rename_i hconn
      obtain rfl := Option.some.inj h
      exact { hinv with
        early := fun _ => hinv.early (.inl hconn)
        channel := hchannel
        replying := fun _ _ hc => by cases hc
        line := hline
        client := fun _ hc => by cases hc }
    · cases h
  | busy =>
    simp only [RoutedState.step] at h
    split at h
    · rename_i hconn
      obtain rfl := Option.some.inj h
      exact hinv.refuse hkeeps (.inl hconn) (.inr rfl)
    · cases h
  | storeOpenFailed message =>
    simp only [RoutedState.step] at h
    split at h
    · rename_i hconn
      obtain rfl := Option.some.inj h
      exact hinv.refuse hkeeps (.inl hconn) (.inr rfl)
    · cases h
  | readRequest got =>
    simp only [RoutedState.step] at h
    split at h
    · rename_i hconn
      obtain rfl := Option.some.inj h
      cases got with
      | part | nothing | failed => exact hinv.refuse hkeeps (.inr hconn) (.inl rfl)
      | whole =>
        have hreceive : s.receive r .whole =
            if maxLineBytes < r.req.lineBytes then
              { s with conn := .replying (.error (.transport
                  s!"request exceeds {maxLineBytes} bytes; run `rally daemon status`")) "unparsed" }
            else if s.dispatcherUp then { s with conn := .waiting, queued := true }
            else { s with conn := .replying dispatcherStoppedResponse r.req.op.kindName } := rfl
        rw [hreceive] at hkeeps hchannel hline hclient ⊢
        split
        · rename_i hlong
          rw [if_pos hlong] at hkeeps
          exact hinv.refuse hkeeps (.inr hconn) (.inl rfl)
        · rename_i hshort
          rw [if_neg hshort] at hkeeps hchannel hline hclient
          split
          · -- the job is handed over
            rename_i hup
            rw [if_pos hup] at hchannel hline hclient
            obtain ⟨-, hexec, hempty⟩ := hinv.early (.inr hconn)
            exact {
              early := fun hc => by rcases hc with hc | hc <;> cases hc
              queued_fresh := fun _ => ⟨hexec, hempty⟩
              fresh := hinv.fresh
              at_most_once := hinv.at_most_once
              channel := hchannel
              replying := fun _ _ hc => by cases hc
              line := hline
              client := hclient }
          · rename_i hdown
            rw [if_neg hdown] at hkeeps
            exact hinv.refuse hkeeps (.inr hconn) (.inl rfl)
    · cases h
  | stopDispatcher =>
    obtain rfl := Option.some.inj h
    refine ⟨fun hc => ⟨rfl, (hinv.early hc).2.1, ?_⟩, nofun, hinv.fresh, hinv.at_most_once, ?_,
      fun resp k hc => ⟨(hreplying resp k hc).1, nofun⟩, hline, hclient⟩
    · obtain ⟨hq, -, hempty⟩ := hinv.early hc
      simp [hq, hempty]
    · intro resp hc
      dsimp only at hc
      split at hc
      · cases hc
      · exact hchannel resp hc
  | execute clock ret | executeAndStop clock ret =>
    simp only [RoutedState.step] at h
    split at h
    · rename_i hqueued
      obtain rfl := Option.some.inj h
      exact hinv.dispatched clock ret _ hqueued.1 hkeeps
    · cases h
  | takeReply =>
    simp only [RoutedState.step] at h
    split at h
    · rename_i hsent
      obtain rfl := Option.some.inj h
      refine hinv.reply hkeeps (hchannel _ hsent) (fun hq => ?_) (.inl rfl)
      rw [(hinv.queued_fresh hq).2] at hsent
      cases hsent
    · rename_i hgone
      obtain rfl := Option.some.inj h
      refine hinv.reply hkeeps (.inl rfl) (fun hq => ?_) (.inl rfl)
      rw [(hinv.queued_fresh hq).2] at hgone
      cases hgone
    · cases h
  | replyTimeout =>
    simp only [RoutedState.step] at h
    split at h
    · obtain rfl := Option.some.inj h
      exact hinv.reply hkeeps (.inl rfl) (fun _ => rfl) (.inl rfl)
    · cases h
  | dropConnection =>
    simp only [RoutedState.step] at h
    split at h
    · cases h
    · obtain rfl := Option.some.inj h
      exact { hinv with
        early := fun hc => by rcases hc with hc | hc <;> cases hc
        channel := hchannel
        replying := fun _ _ hc => by cases hc
        line := hline
        client := hclient }
  | writeReply =>
    simp only [RoutedState.step] at h
    split at h
    · rename_i resp op_kind hconn
      obtain rfl := Option.some.inj h
      refine { hinv with
        early := fun hc => by rcases hc with hc | hc <;> cases hc
        channel := hchannel
        replying := fun _ _ hc => by cases hc
        line := fun resp' hl => ?_
        client := hclient }
      obtain rfl := Option.some.inj hl
      obtain ⟨hfaithful, htimeout⟩ := hreplying resp op_kind hconn
      unfold frameResponse
      split
      · exact hfaithful
      · -- a reply that does not fit comes behind an append that is not durable, and no job is left
        rename_i hlong
        have hdurable : s.durable = false := by
          cases hdur : s.durable with
          | false => rfl
          | true => exact absurd (hfits resp op_kind rfl hconn hdur) hlong
        have hqueued : s.queued = false := by
          cases hq : s.queued with
          | false => rfl
          | true => exact absurd (htimeout hq ▸ replyTimeoutResponse_fits r.codec) hlong
        exact .inr (.inr ⟨hdurable, hqueued, nofun, nofun⟩)
    · cases h
  | clientReads =>
    simp only [RoutedState.step] at h
    split at h
    · rename_i hl
      obtain rfl := Option.some.inj h
      refine { hinv with
        channel := hchannel
        replying := hreplying
        line := fun _ hc => by cases hc
        client := fun res hc => ?_ }
      obtain rfl := ClientPhase.done.inj hc
      split
      · exact .inl (transportError_isOutcomeUnknown r _)
      · exact readReply_faithful (hline _ hl)
    · cases h
  | connectFails io | clientFails io =>
    simp only [RoutedState.step] at h
    split at h
    · obtain rfl := Option.some.inj h
      refine { hinv with
        channel := hchannel
        replying := hreplying
        line := hline
        client := fun res hc => ?_ }
      obtain rfl := ClientPhase.done.inj hc
      exact .inl (transportError_isOutcomeUnknown r io)
    · cases h

end Step

/-- **Where the reply of a durable append fits the line cap, a routed write hides no commit:** in every state of
every run. -/
theorem routed_write_hides_no_commit (r : RoutedRequest) {s : RoutedState}
    (h : Reaches (RoutedState.step r) (replyFits r) .start s) : HidesNoCommit s := by
  have hinv : RoutedInv r s := h.invariant (.start r) fun _ _ _ hinv hfits hstep => hinv.step hfits hstep
  refine ⟨fun e hdone hunknown => ?_, fun ok hdone => hinv.client (.ok ok) hdone, hinv.at_most_once⟩
  rcases hinv.client (.error e) hdone with hu | ⟨hdurable, -⟩
  · rw [hunknown] at hu
    cases hu
  · exact hdurable

/-- A reply within the cap is read as it was sent. -/
theorem fitting_reply_is_read (r : RoutedRequest) {s : RoutedState} {resp : StoreResponse} {op_kind : String}
    (hclient : s.client = .waiting) (hconn : s.conn = .replying resp op_kind)
    (hfits : responseLineBytes r.codec resp ≤ maxLineBytes) :
    ∃ t u, s.step r .writeReply = some t ∧ t.step r .clientReads = some u ∧
      u.client = .done (readReply r.req.op resp) := by
  have hframe : frameResponse r.codec resp op_kind maxLineBytes = resp := if_pos hfits
  refine ⟨{ s with conn := .closed, line := some resp },
    { s with conn := .closed, line := none, client := .done (readReply r.req.op resp) }, ?_, ?_, rfl⟩
  · simp only [RoutedState.step, hconn, hframe]
  · simp only [RoutedState.step, hclient, if_neg hfits.not_gt]

/-- The other side: a reply over the cap is read as a plain error, whatever was committed. -/
theorem oversized_reply_is_plain_error (r : RoutedRequest) {s : RoutedState} {resp : StoreResponse}
    {op_kind : String} (hclient : s.client = .waiting) (hconn : s.conn = .replying resp op_kind)
    (hlong : maxLineBytes < responseLineBytes r.codec resp)
    (hshort : responseLineBytes r.codec (frameResponse r.codec resp op_kind maxLineBytes) ≤ maxLineBytes) :
    ∃ t u e, s.step r .writeReply = some t ∧ t.step r .clientReads = some u ∧ u.durable = s.durable ∧
      u.client = .done (.error e) ∧ e.isOutcomeUnknown = false := by
  obtain ⟨text, hframe⟩ : ∃ text, frameResponse r.codec resp op_kind maxLineBytes =
      .error (.new .command text) := ⟨_, by rw [frameResponse, if_neg hlong.not_ge]⟩
  rw [hframe] at hshort
  refine ⟨{ s with conn := .closed, line := some (.error (.new .command text)) },
    { s with conn := .closed, line := none, client := .done (.error (.command text)) }, .command text, ?_, ?_, rfl,
    rfl, rfl⟩
  · simp only [RoutedState.step, hconn, hframe]
  · simp only [RoutedState.step, hclient, if_neg hshort.not_gt]
    rfl

/-! ## A commit that is hidden -/

/-- A fact whose thread id, which no bound limits, takes `n` bytes. -/
def longThreadFact (n : Nat) (seq : Int) : Fact where
  eventId := "evt-long"
  threadId := String.ofList (List.replicate n 't')
  kind := .decision
  tool := some "codex:01"
  subject := "s"
  createdAt := "2026-01-01T00:00:00Z"
  seq := seq

theorem longThreadId_bytes (n : Nat) (seq : Int) : (Json.string (longThreadFact n seq).threadId).bytes =
    (Json.string (longThreadFact 0 seq).threadId).bytes + n := by
  have hsize : ∀ m, (Json.string (longThreadFact m seq).threadId).bytes = m + 2 :=
    fun m => Json.bytes_string_replicate m (by decide) (by decide)
  rw [hsize n, hsize 0]
  omega

theorem longThreadFact_bytes (n : Nat) (seq : Int) :
    (factToWire .sample (longThreadFact n seq)).bytes = (factToWire .sample (longThreadFact 0 seq)).bytes + n :=
  Json.bytes_member_add
    [("created_at", .string "2026-01-01T00:00:00Z"), ("event_id", .string "evt-long"), ("evidence", texts []),
      ("kind", .string "decision"), ("ref", .null), ("role", .null), ("schema", .string factSchema),
      ("scope", texts []), ("seq", .int seq), ("severity", .null), ("status", .null), ("subject", .string "s"),
      ("summary", .null), ("target", .null)]
    [("tool", .string "codex:01"), ("uri", .null)] "thread_id" (longThreadId_bytes n seq)

/-- The append of such a fact as the client sends it. -/
def longThreadRequest (n : Nat) : RoutedRequest where
  codec := .sample
  env := ⟨"/repo", 1, "", "", ""⟩
  req := { StoreRequest.new (some "2026-01-01") (.appendFact (factToWire .sample (longThreadFact n 0))) with
    deadline_unix_ms := some 1786291200000
    mutation_budget_ms := some 9000 }
  event_id := "evt-long"
  mutating := rfl
  named := ⟨_, rfl, by simp [factEventId, factToWire, factFields, Json.asObject, Json.asStr, longThreadFact]⟩

/-- The row is committed and read back; the derived database cannot be opened. -/
def longThreadReturn (n : Nat) : StoreReturn (longThreadRequest n).event_id where
  result := .ok (.appendFact ⟨longThreadFact n 1,
    [⟨"facts_db", "open facts.db projection: unable to open database file"⟩]⟩)
  durable := true
  inLedger := true
  ok_or_unknown _ _ h := by cases h
  unknown_named _ _ _ h := by cases h
  outcome_inLedger _ _ _ := rfl

/-- The reply that reports the commit. -/
def longThreadReply (n : Nat) : StoreResponse :=
  (longThreadReturn n).result.mapError (rallyToWire (longThreadRequest n).env)

theorem longThreadRequest_lineBytes (n : Nat) : (longThreadRequest n).req.lineBytes = n + 421 := by
  have hzero : (longThreadRequest 0).req.lineBytes = 421 := by decide +kernel
  have hop : (longThreadRequest n).req.op.toJson.bytes = (longThreadRequest 0).req.op.toJson.bytes + n :=
    Json.bytes_member_add [("kind", .string "append_fact")] [] "fact" (longThreadFact_bytes n 0)
  have hline : (longThreadRequest n).req.toJson.bytes = (longThreadRequest 0).req.toJson.bytes + n :=
    Json.bytes_member_add [("wire_version", .int wireVersion), ("engagement", .string "2026-01-01"),
      ("deadline_unix_ms", .int 1786291200000), ("mutation_budget_ms", .int 9000)] [] "op" hop
  rw [StoreRequest.lineBytes] at hzero ⊢
  omega

theorem longThreadReply_lineBytes (n : Nat) : responseLineBytes .sample (longThreadReply n) = n + 476 := by
  have hzero : responseLineBytes .sample (longThreadReply 0) = 476 := by decide +kernel
  have houtcome : ∀ m, longThreadReply m = .ok (.appendFact ⟨longThreadFact m 1,
    [⟨"facts_db", "open facts.db projection: unable to open database file"⟩]⟩) := fun _ => rfl
  have hfact := Json.bytes_member_add [("committed", .bool true)]
    [("projection_complete", .bool false), ("warnings", .array [.object [("code", .string "facts_db"),
      ("message", .string "open facts.db projection: unable to open database file")]])] "fact"
    (longThreadFact_bytes n 1)
  have hok := Json.bytes_member_add [("kind", .string "append_fact")] [] "outcome" hfact
  have hreply : (responseToJson .sample (longThreadReply n)).bytes =
      (responseToJson .sample (longThreadReply 0)).bytes + n := Json.bytes_member_add [] [] "ok" hok
  rw [responseLineBytes] at hzero ⊢
  omega

/-- The state in which the reply is about to be written. -/
def longThreadReplying (n : Nat) : RoutedState where
  client := .waiting
  conn := .replying (longThreadReply n) "append_fact"
  queued := false
  channel := .sent (longThreadReply n)
  dispatcherUp := true
  line := none
  executions := 1
  durable := true
  inLedger := true

/-- The clocks of a request that is dispatched when it is received, ten seconds before its deadline. -/
def promptClock : DispatchClock := ⟨0, 1786291190000, 0, 1786291190000⟩

/-- The dispatcher runs the store method in time. -/
theorem longThread_answer (n : Nat) : dispatchOneReceived (longThreadRequest n).codec (longThreadRequest n).env
    (longThreadRequest n).req promptClock (longThreadReturn n) = (longThreadReply n, true) := by
  have hdecode : decodeOp .sample (longThreadRequest n).req.op = .ok () := by
    have hfact : factFromWire .sample (factToWire .sample (longThreadFact n 0)) = .ok (longThreadFact n 0) :=
      factFromWire_factToWire .sample (by decide : -i64Bound ≤ (0 : Int) ∧ (0 : Int) < i64Bound)
    simp only [longThreadRequest, decodeOp, StoreRequest.new, hfact]
    rfl
  have hdeadline : boundedMutationDeadline (some 1786291200000) (some 9000) promptClock = some 9000 := by decide
  have himm : immediateResponse (longThreadRequest n).env (longThreadRequest n).req = none := rfl
  unfold dispatchOneReceived
  rw [himm]
  dsimp only [longThreadRequest, StoreRequest.new] at hdecode ⊢
  rw [hdeadline]
  dsimp only [runOp]
  rw [hdecode]
  rfl

/-- A request line within the cap is received, run and answered. -/
theorem longThread_reaches_reply {n : Nat} (hfits : n + 421 ≤ maxLineBytes) :
    Reaches (RoutedState.step (longThreadRequest n)) (fun _ a => a ≠ .writeReply) .start
      (longThreadReplying n) := by
  have hconnected : Reaches (RoutedState.step (longThreadRequest n)) (fun _ a => a ≠ .writeReply) .start
      { RoutedState.start with client := .waiting, conn := .reading } :=
    .step (a := .connect) .refl nofun rfl
  have hreceived := hconnected.step (a := .readRequest .whole) nofun
    (u := { RoutedState.start with client := .waiting, conn := .waiting, queued := true }) (by
      have hline : ¬ maxLineBytes < (longThreadRequest n).req.lineBytes := by
        rw [longThreadRequest_lineBytes]
        omega
      simp only [RoutedState.step, RoutedState.receive, if_neg hline]
      rfl)
  have hexecuted := hreceived.step (a := .execute promptClock (longThreadReturn n)) nofun
    (u := { longThreadReplying n with conn := .waiting }) (by
      simp only [RoutedState.step, RoutedState.dispatch, longThread_answer]
      rfl)
  exact hexecuted.step (a := .takeReply) nofun rfl

/-- Within the cap the commit is reported. -/
theorem fitting_reply_reports_commit :
    ∃ s, HidesNoCommit s ∧ s.client = .done (longThreadReturn 0).result := by
  have hfits : 0 + 421 ≤ maxLineBytes := by decide
  have hreply : responseLineBytes .sample (longThreadReply 0) ≤ maxLineBytes := by
    rw [longThreadReply_lineBytes]
    decide
  have hreplying : Reaches (RoutedState.step (longThreadRequest 0)) (replyFits (longThreadRequest 0)) .start
      (longThreadReplying 0) := (longThread_reaches_reply hfits).mono fun _ _ hne _ _ hwrite => absurd hwrite hne
  have hmay : replyFits (longThreadRequest 0) (longThreadReplying 0) .writeReply := by
    intro resp op_kind _ hconn _
    obtain ⟨rfl, -⟩ := ConnPhase.replying.inj hconn
    exact hreply
  obtain ⟨t, u, hwrite, hread, hdone⟩ := fitting_reply_is_read (longThreadRequest 0) (s := longThreadReplying 0)
    rfl rfl hreply
  have hdone_run := (hreplying.step hmay hwrite).step (a := .clientReads) (fun _ _ h => by cases h) hread
  exact ⟨u, routed_write_hides_no_commit _ hdone_run, hdone⟩

/-- **A commit is hidden:** the request line is just as long as the cap allows, the reply is longer by the warning
and so replaced by a plain error, and the fact is in the ledger. -/
theorem oversized_reply_hides_commit :
    ∃ r s, Reaches (RoutedState.step r) (fun _ _ => True) .start s ∧ ¬ HidesNoCommit s := by
  have hfits : 8388187 + 421 ≤ maxLineBytes := by decide
  have hsize : responseLineBytes .sample (longThreadReply 8388187) = 8388663 := longThreadReply_lineBytes 8388187
  have hlong : maxLineBytes < responseLineBytes .sample (longThreadReply 8388187) := by
    rw [hsize]
    decide
  have hshort : responseLineBytes .sample
      (frameResponse .sample (longThreadReply 8388187) "append_fact" maxLineBytes) ≤ maxLineBytes := by
    rw [frameResponse, if_neg hlong.not_ge, hsize]
    decide +kernel
  have hreplying := (longThread_reaches_reply hfits).mono fun _ _ _ => trivial
  obtain ⟨t, u, e, hwrite, hread, hdurable, hdone, hplain⟩ := oversized_reply_is_plain_error
    (longThreadRequest 8388187) (s := longThreadReplying 8388187) rfl rfl hlong hshort
  refine ⟨_, u, (hreplying.step trivial hwrite).step trivial hread, fun hhides => ?_⟩
  have hcommitted : u.durable = true := hdurable
  rw [hhides.error_committed_nothing e hdone hplain] at hcommitted
  cases hcommitted

end RallyPoint.Wire
