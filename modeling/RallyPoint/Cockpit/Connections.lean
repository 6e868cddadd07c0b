/-
# RallyPoint.Cockpit.Connections — which connection may make the cockpit daemon start, steer or stop an agent.

A connection says hello with the token of the daemon and is given a principal: its own, or the one of the client id it
asserts. The sessions it launches belong to the principal. A command is handled in several lock sections: the owner of
the session is looked up in one and the adapter is asked in a later one, a repository path is resolved before the
session exists, and the operator's consent is read again at each dispatch. Every lock section is one action here, so a
run is any interleaving of any number of connections, over files and a consent log that change as they please.

`adapter_calls_authorised` says who is behind each call of the adapter and where an agent is started, `sessions_apart`
who shares a session. Commands that only read, and decisions on approvals, are in the other modules.
-/
import RallyPoint.Cockpit.Daemon
import RallyPoint.Cockpit.Consent
import RallyPoint.Lib.Distinct
import RallyPoint.StableId
import RallyPoint.WriteTargets

namespace RallyPoint.Cockpit.Connections

open Lib WriteTargets

abbrev ConnId := Nat

/-! ## Tokens and principals -/

/-- The loop reads both texts to the end of the longer one and folds every difference into an accumulator. -/
def constantTimeEq (a b : List UInt8) : Bool :=
  (List.range (max a.length b.length)).foldl
    (fun diff i => diff ||| (a.getD i 0 ^^^ b.getD i 0).toNat) (a.length ^^^ b.length) == 0

/-- A token that is not configured, or empty, lets nobody in. -/
def validateToken (configured : Option String) (token : String) : Except String Unit :=
  match configured with
  | some expected =>
    if expected = "" then .error "COCKPIT_TOKEN is set but empty"
    else if constantTimeEq (utf8Bytes token) (utf8Bytes expected) then .ok ()
    else .error "token mismatch"
  | none => .error "COCKPIT_TOKEN not set"

abbrev Principal := String

/-- `Principal::per_connection`, for the identifier that is minted. -/
def perConnection (uuid : String) : Principal := "conn:" ++ uuid

def maxClientIdLen : Nat := 64

def fromClientId (raw : String) : Option Principal :=
  let trimmed := trim raw
  if trimmed = "" ∨ byteLen trimmed > maxClientIdLen then none
  else if trimmed.toList.all fun c => c.isAlphanum || c == '.' || c == '_' || c == '-' then
    some ("client:" ++ trimmed)
  else none

def resolve (minted : String) (clientId : Option String) : Principal :=
  (clientId.bind fromClientId).getD (perConnection minted)

/-! ## Where an agent may work -/

inductive RepoPathRejection
  | noRootsConfigured
  | unresolvable (requested reason : String)
  | notADirectory (requested resolved : String)
  | outsideAllowlist (requested resolved : String) (roots : List String)
  deriving DecidableEq, Repr

def RepoPathRejection.text : RepoPathRejection → String
  | .noRootsConfigured => "no repo roots are configured, so every repo_path is refused. " ++
      "Set COCKPIT_REPO_ALLOWLIST=<colon-separated absolute directories> " ++
      "(for example COCKPIT_REPO_ALLOWLIST=$HOME/dev) and restart cockpitd."
  | .unresolvable requested reason => s!"repo_path '{requested}' cannot be resolved: {reason}"
  | .notADirectory requested resolved =>
    s!"repo_path '{requested}' resolves to '{resolved}', which is not a directory"
  | .outsideAllowlist requested resolved roots =>
    let listed := join ", " roots
    s!"repo_path '{requested}' resolves to '{resolved}', which is outside the allowed roots [{listed}]. " ++
      "Add the root to COCKPIT_REPO_ALLOWLIST (colon-separated) and restart cockpitd if this path is intended."

/-- A list that is set but names nothing allows nothing; one that is not set allows the home directory. -/
def parseRoots (spec home : Option String) : List String :=
  match spec with
  | some s => ((split ':' s).map trim).filter (· != "")
  | none => (home.map trim).toList.filter (· != "")

/-- The place a path leads to, when it is a directory at or below a root; `osError` tells why a path leads nowhere. -/
def resolveRepoPathWithin (fs : FileSystem) (osError : String → String) (requested : String) (roots : List String) :
    Except RepoPathRejection (List String) :=
  if roots = [] then .error .noRootsConfigured
  else
    match fs.canonicalize requested with
    | none => .error (.unresolvable requested (osError requested))
    | some resolved =>
      if fs.node resolved ≠ some .directory then .error (.notADirectory requested (pathText resolved))
      -- a root that leads nowhere is dropped
      else if (roots.filterMap fs.canonicalize).any (·.isPrefixOf resolved) then .ok resolved
      else .error (.outsideAllowlist requested (pathText resolved) roots)

/-! ## The daemon and its surroundings -/

/-- What the daemon reads from outside: its environment, and the files and the consent log as they are at a moment. -/
structure World where
  cockpitToken : Option String
  repoAllowlist : Option String
  home : Option String
  dispatchDepth : Option String
  sha256 : String → String
  osError : String → String
  files : Nat → FileSystem
  consentLog : Nat → List JsonValue

def World.configuredRoots (world : World) : List String := parseRoots world.repoAllowlist world.home

structure Session where
  id : Uuid
  ownerId : Principal
  agentType : String
  repoPath : String
  deriving DecidableEq, Repr

/-- What a hello frame says. -/
structure Hello where
  token : String
  clientId : Option String
  deriving DecidableEq, Repr

/-- A command on a session, behind its owner check. -/
inductive SessionOp
  | send (text : String) (steer : Bool)
  | close
  deriving DecidableEq, Repr

def SessionOp.code : SessionOp → String
  | .send _ false => "send_failed"
  | .send _ true => "steer_failed"
  | .close => "close_failed"

/-- Where the handler of a connection stands. -/
inductive Stage
  | ready
  | operating (op : SessionOp) (session : Uuid)
  /-- The repository path is resolved. -/
  | launching (agentType repoPath : String) (prompt : Option String)
  | launched (session : Uuid) (agentType repoPath : String)
  | audited (session : Uuid)
  deriving DecidableEq, Repr

inductive Connection
  | handshake
  | admitted (principal : Principal) (stage : Stage)
  | closed
  deriving DecidableEq, Repr

inductive AdapterCall
  | start (session : Uuid) (agentType repoPath : String) (prompt : Option String)
  | send (session : Uuid) (text : String)
  | kill (session : Uuid)
  deriving DecidableEq, Repr

def AdapterCall.session : AdapterCall → Uuid
  | .start session .. | .send session _ | .kill session => session

/-- A call of the adapter, the connection whose handler made it, and the moment. -/
structure Made where
  call : AdapterCall
  conn : ConnId
  moment : Nat
  deriving DecidableEq, Repr

/-- A connection that was let in, what it said, and the identifier that was minted for it. -/
structure Admission where
  conn : ConnId
  hello : Hello
  minted : String
  deriving DecidableEq, Repr

def Admission.principal (a : Admission) : Principal := resolve a.minted a.hello.clientId

inductive Failure
  | consentRefused (agentType : String)
  | sessionNotFound (session : Uuid)
  | store
  | adapter (error : String)
  deriving DecidableEq, Repr

inductive ServerEvent
  | helloOk
  | error (code message : String)
  /-- An error whose message is that of a failed call. -/
  | failed (code : String) (failure : Failure)
  | sessionList (sessions : List Session)
  deriving DecidableEq, Repr

inductive AuditEntry
  | launchRefused (actor agentType repoPath reason : String)
  | launch (actor : Principal) (session : Uuid) (agentType repoPath : String)
  deriving DecidableEq, Repr

/-- The daemon. `clock`, `admissions` and `made` are bookkeeping. -/
structure Server where
  clock : Nat
  sessions : List Session
  live : List Uuid
  pendingPumps : List Uuid
  conns : ConnId → Option Connection
  audit : List AuditEntry
  sent : List (ConnId × ServerEvent)
  admissions : List Admission
  made : List Made

/-- The daemon as it starts, over the rows an earlier process left. -/
def Server.boot (rows : List Session) : Server where
  clock := 0
  sessions := rows
  live := []
  pendingPumps := []
  conns := fun _ => none
  audit := []
  sent := []
  admissions := []
  made := []

namespace Server

def getSession (d : Server) (id : Uuid) : Option Session := d.sessions.find? (·.id == id)

def setConn (d : Server) (c : ConnId) (conn : Connection) : Server :=
  { d with conns := Function.update d.conns c (some conn) }

def reply (d : Server) (c : ConnId) (event : ServerEvent) : Server := { d with sent := d.sent ++ [(c, event)] }

def logAudit (d : Server) (entry : AuditEntry) : Server := { d with audit := d.audit ++ [entry] }

/-- The error of a failed call, where there is one. -/
def report (d : Server) (c : ConnId) (code : String) (failure : Option Failure) : Server :=
  { d with sent := d.sent ++ (failure.map fun f => (c, .failed code f)).toList }

def record (d : Server) (c : ConnId) (call : AdapterCall) : Server :=
  { d with made := d.made ++ [⟨call, c, d.clock⟩] }

end Server

/-! ## Lock sections -/

inductive FirstFrame
  /-- A text frame: its value, where it is JSON. -/
  | text (value : Option JsonValue)
  | other

/-- The first frame, where it says hello. -/
def readHello (value : Option JsonValue) : Option Hello :=
  value.bind fun v =>
    if (field v "t").bind (·.asStr) = some "hello" then
      some ⟨((field v "token").bind (·.asStr)).getD "", (field v "client_id").bind (·.asStr)⟩
    else none

/-- The commands that can reach the adapter. -/
inductive ClientCommand
  | sendPrompt (session : Uuid) (text : String)
  | steer (session : Uuid) (text : String)
  | closeSession (session : Uuid)
  | launchSession (agentType repoPath : String) (prompt : Option String)
  deriving DecidableEq, Repr

def product : String := "rally-point"

/-- Consent is asked for under a key of the agent type; a type without one is refused. -/
def keyForAgentType (agentType : String) : Option String :=
  if agentType = "claude" then some (product ++ ":claude")
  else if agentType = "codex" then some (product ++ ":codex")
  else none

def ownerError (verdict : OwnerVerdict) (kind : String) (id : Uuid) : ServerEvent :=
  match verdict with
  | .notFound => .error "not_found" s!"{kind} {id} not found"
  | _ => .error "forbidden" (s!"{kind} {id} belongs to another client; send_prompt, steer, " ++
      "close_session, and approve are restricted to the owning client")

section Handlers

variable (world : World) (d : Server) (c : ConnId) (principal : Principal)

def dispatchAllowed (agentType : String) : Bool :=
  (keyForAgentType agentType).any fun key =>
    (checkWith world.sha256 key (world.consentLog d.clock) world.dispatchDepth).allowed

def handleHello (frame : FirstFrame) (minted : String) : Server :=
  match frame with
  | .text value =>
    match readHello value with
    | some hello =>
      match validateToken world.cockpitToken hello.token with
      | .ok () =>
        { (d.reply c .helloOk).setConn c (.admitted (resolve minted hello.clientId) .ready) with
          admissions := d.admissions ++ [⟨c, hello, minted⟩] }
      | .error reason => (d.reply c (.error "auth_failed" reason)).setConn c .closed
    | none => (d.reply c (.error "bad_handshake" "first frame must be hello")).setConn c .closed
  | .other => d.setConn c .closed

/-- `allow_session_op`. -/
def allowSessionOp (op : SessionOp) (session : Uuid) : Server :=
  let verdict := judgeOwner ((d.getSession session).map (·.ownerId)) principal
  if verdict = .owned then d.setConn c (.admitted principal (.operating op session))
  else d.reply c (ownerError verdict "session" session)

/-- The first lock section of a command. -/
def handleCommand : ClientCommand → Server
  | .sendPrompt session text => allowSessionOp d c principal (.send text false) session
  | .steer session text => allowSessionOp d c principal (.send text true) session
  | .closeSession session => allowSessionOp d c principal .close session
  | .launchSession agentType repoPath prompt =>
    match resolveRepoPathWithin (world.files d.clock) world.osError repoPath world.configuredRoots with
    | .ok resolved => d.setConn c (.admitted principal (.launching agentType (pathText resolved) prompt))
    | .error rejection =>
      (d.logAudit (.launchRefused principal agentType repoPath rejection.text)).reply c
        (.error "repo_path_denied" rejection.text)

/-- `adapter_send`, where `answer` is the adapter's. -/
def adapterSend (session : Uuid) (text : String) (answer : Except String Unit) : Server × Option Failure :=
  match d.getSession session with
  | none => (d, some (.sessionNotFound session))
  | some row =>
    if dispatchAllowed world d row.agentType then
      (d.record c (.send session text), match answer with | .ok () => none | .error e => some (.adapter e))
    else (d, some (.consentRefused row.agentType))

/-- `kill_session`. -/
def killSession (session : Uuid) (answer : Except String Unit) : Server × Option Failure :=
  if session ∈ d.live then
    match answer with
    | .ok () => ({ d.record c (.kill session) with live := d.live.filter (· != session) }, none)
    | .error e => (d.record c (.kill session), some (.adapter e))
  else (d, some (.sessionNotFound session))

def askAdapter (op : SessionOp) (session : Uuid) (answer : Except String Unit) : Server × Option Failure :=
  match op with
  | .send text _ => adapterSend world d c session text answer
  | .close => killSession d c session answer

/-- The second lock section of a command on a session. -/
def operate (op : SessionOp) (session : Uuid) (answer : Except String Unit) : Server :=
  let asked := askAdapter world d c op session answer
  (asked.1.setConn c (.admitted principal .ready)).report c op.code asked.2

/-- `launch_session_async`, for a fresh identifier of which the store may still know. -/
def launchSession (agentType repoPath : String) (prompt : Option String) (id : Uuid) (answer : Except String Unit) :
    Server :=
  let ready := d.setConn c (.admitted principal .ready)
  if !dispatchAllowed world d agentType then ready.reply c (.failed "launch_failed" (.consentRefused agentType))
  else if (d.getSession id).isSome then ready.reply c (.failed "launch_failed" .store)
  else
    -- the row stays, also where the adapter does not start
    let d' : Server := { d.record c (.start id agentType repoPath prompt) with
      sessions := d.sessions ++ [⟨id, principal, agentType, repoPath⟩] }
    match answer with
    | .error e => (d'.setConn c (.admitted principal .ready)).reply c (.failed "launch_failed" (.adapter e))
    | .ok () =>
      { d'.setConn c (.admitted principal (.launched id agentType repoPath)) with
        live := d.live ++ [id]
        pendingPumps := d.pendingPumps ++ [id] }

end Handlers

inductive Action
  | connect (c : ConnId)
  /-- The first frame; `minted` is the identifier that is drawn for it. -/
  | firstFrame (c : ConnId) (frame : FirstFrame) (minted : String)
  | command (c : ConnId) (command : ClientCommand)
  | operate (c : ConnId) (answer : Except String Unit)
  | launch (c : ConnId) (id : Uuid) (answer : Except String Unit)
  | auditLaunch (c : ConnId)
  | takePendingPump (c : ConnId)
  | disconnect (c : ConnId)
  /-- The last lock section of a pump. -/
  | removeLive (session : Uuid)

/-- One lock section, where it is enabled. -/
def act (world : World) (d : Server) : Action → Option Server
  | .connect c =>
    match d.conns c with
    | none => some (d.setConn c .handshake)
    | some _ => none
  | .firstFrame c frame minted =>
    match d.conns c with
    | some .handshake => some (handleHello world d c frame minted)
    | _ => none
  | .command c command =>
    match d.conns c with
    | some (.admitted principal .ready) => some (handleCommand world d c principal command)
    | _ => none
  | .operate c answer =>
    match d.conns c with
    | some (.admitted principal (.operating op session)) => some (operate world d c principal op session answer)
    | _ => none
  | .launch c id answer =>
    match d.conns c with
    | some (.admitted principal (.launching agentType repoPath prompt)) =>
      some (launchSession world d c principal agentType repoPath prompt id answer)
    | _ => none
  | .auditLaunch c =>
    match d.conns c with
    | some (.admitted principal (.launched session agentType repoPath)) =>
      some ((d.logAudit (.launch principal session agentType repoPath)).setConn c
        (.admitted principal (.audited session)))
    | _ => none
  | .takePendingPump c =>
    match d.conns c with
    | some (.admitted principal (.audited session)) =>
      some ({ d.setConn c (.admitted principal .ready) with
        pendingPumps := d.pendingPumps.filter (· != session) }.reply c (.sessionList d.sessions))
    | _ => none
  | .disconnect c =>
    match d.conns c with
    | some (.admitted _ .ready) => some (d.setConn c .closed)
    | _ => none
  | .removeLive session => some { d with live := d.live.filter (· != session) }

def step (world : World) (d : Server) (a : Action) : Option Server :=
  (act world d a).map fun d' => { d' with clock := d.clock + 1 }

/-- An identifier that is minted is a new one. -/
def May (d : Server) : Action → Prop
  | .firstFrame _ _ minted =>
    minted ∉ d.admissions.map (·.minted) ∧ perConnection minted ∉ d.sessions.map (·.ownerId)
  | _ => True

instance (d : Server) : (a : Action) → Decidable (May d a)
  | .firstFrame .. => inferInstanceAs (Decidable (_ ∧ _))
  | .connect _ | .command .. | .operate .. | .launch .. | .auditLaunch _ | .takePendingPump _ | .disconnect _
  | .removeLive _ => inferInstanceAs (Decidable True)

/-! ## Texts -/

section Texts

variable {a b : List UInt8}

theorem foldl_or_eq_zero {l : List Nat} {f : Nat → Nat} {start : Nat} :
    l.foldl (fun diff i => diff ||| f i) start = 0 ↔ start = 0 ∧ ∀ i ∈ l, f i = 0 := by
  induction l generalizing start with
  | nil => simp
  | cons i l ih => rw [List.foldl_cons, ih, Nat.or_eq_zero_iff, List.forall_mem_cons, and_assoc]

/-- The accumulator stays zero exactly for equal texts. -/
theorem constantTimeEq_iff : constantTimeEq a b = true ↔ a = b := by
  have hbyte : ∀ x y : UInt8, (x ^^^ y).toNat = 0 ↔ x = y := fun x y => by
    rw [← UInt8.xor_eq_zero_iff, ← UInt8.toNat_inj, UInt8.toNat_zero]
  rw [constantTimeEq, beq_iff_eq, foldl_or_eq_zero]
  constructor
  · rintro ⟨hxor, hbytes⟩
    have hlength : a.length = b.length := by
      calc a.length = (a.length ^^^ b.length) ^^^ b.length := by rw [Nat.xor_assoc, Nat.xor_self, Nat.xor_zero]
        _ = b.length := by rw [hxor, Nat.zero_xor]
    refine List.ext_getElem hlength fun i hi hi' => ?_
    have hmem : i ∈ List.range (max a.length b.length) := List.mem_range.mpr (by omega)
    have heq := (hbyte _ _).mp (hbytes i hmem)
    rwa [List.getD_eq_getElem?_getD, List.getD_eq_getElem?_getD, List.getElem?_eq_getElem hi,
      List.getElem?_eq_getElem hi', Option.getD_some, Option.getD_some] at heq
  · rintro rfl
    refine ⟨Nat.xor_self _, fun i _ => (hbyte _ _).mpr rfl⟩

theorem utf8Bytes_injective : Function.Injective utf8Bytes := by
  intro s t h
  have hencode : ∀ u : String, u.toByteArray = (utf8Bytes u).toByteArray := fun u => by
    conv_lhs => rw [← String.ofList_toList (s := u), String.toByteArray_ofList]
    rfl
  rw [← String.toByteArray_inj, hencode s, hencode t, h]

/-- A token is accepted when it is the configured one, and that is not empty. -/
theorem validateToken_ok_iff {configured : Option String} {token : String} :
    validateToken configured token = .ok () ↔ configured = some token ∧ token ≠ "" := by
  cases configured with
  | none =>
    rw [validateToken]
    refine ⟨fun h => absurd h (by simp), ?_⟩
    rintro ⟨h, -⟩
    exact absurd h.symm (Option.some_ne_none token)
  | some expected =>
    rw [validateToken]
    split
    case isTrue hempty =>
      refine ⟨fun h => absurd h (by simp), ?_⟩
      rintro ⟨h, hne⟩
      exact absurd ((Option.some.inj h).symm.trans hempty) hne
    case isFalse hne =>
      split
      case isTrue heq =>
        obtain rfl := utf8Bytes_injective (constantTimeEq_iff.mp heq)
        exact ⟨fun _ => ⟨rfl, hne⟩, fun _ => rfl⟩
      case isFalse hdiffer =>
        refine ⟨fun h => absurd h (by simp), ?_⟩
        rintro ⟨h, -⟩
        exact absurd (constantTimeEq_iff.mpr (congrArg utf8Bytes (Option.some.inj h).symm)) hdiffer

theorem perConnection_injective : Function.Injective perConnection := fun _ _ h => String.append_right_inj _ |>.mp h

theorem fromClientId_eq_some {raw : String} {principal : Principal} (h : fromClientId raw = some principal) :
    principal = "client:" ++ trim raw := by
  rw [fromClientId] at h
  split at h
  · cases h
  · split at h
    · exact (Option.some.inj h).symm
    · cases h

/-- No asserted name is one that is minted. -/
theorem fromClientId_ne_perConnection {raw uuid : String} : fromClientId raw ≠ some (perConnection uuid) := by
  intro h
  have hletters := congrArg (fun s : String => s.toList[1]?) (fromClientId_eq_some h)
  simp [perConnection] at hletters

end Texts

/-! ## Directories -/

/-- A requested path leads, all links followed, to a directory at or below the place of an allowed root. -/
structure Contained (fs : FileSystem) (roots : List String) (requested : String) (place : List String) : Prop where
  resolves : fs.Resolves (if isAbsolute requested then [] else fs.processDir) (components requested) place
  directory : fs.node place = some .directory
  physical : ∀ k target, fs.node (place.take k) ≠ some (.link target)
  root : ∃ root ∈ roots, ∃ rootPlace, rootPlace <+: place ∧
    fs.Resolves (if isAbsolute root then [] else fs.processDir) (components root) rootPlace

theorem contained_of_ok {fs : FileSystem} {osError : String → String} {requested : String} {roots place : List String}
    (h : resolveRepoPathWithin fs osError requested roots = .ok place) : Contained fs roots requested place := by
  rw [resolveRepoPathWithin] at h
  split at h
  · cases h
  split at h
  · cases h
  case h_2 resolved hcanonical =>
    split at h
    · cases h
    case isFalse hdir =>
      split at h
      case isTrue hroot =>
        obtain rfl := Except.ok.inj h
        have hdirectory : fs.node resolved = some .directory := not_not.mp hdir
        obtain ⟨rootPlace, hmem, hprefix⟩ := List.any_eq_true.mp hroot
        obtain ⟨root, hlisted, hplace⟩ := List.mem_filterMap.mp hmem
        refine ⟨fs.canonicalize_resolves hcanonical, hdirectory, fun k target => ?_, root, hlisted, rootPlace, ?_, ?_⟩
        · exact PosixTree.notLink_of_place (.inl hdirectory) k target
        · exact List.isPrefixOf_iff_prefix.mp hprefix
        · exact fs.canonicalize_resolves hplace
      case isFalse => cases h

/-- The path was resolved to a directory below a root, at an earlier moment. -/
def Checked (world : World) (now : Nat) (repoPath : String) : Prop :=
  ∃ moment requested place, moment < now ∧
    Contained (world.files moment) world.configuredRoots requested place ∧ repoPath = pathText place

theorem Checked.mono {world : World} {now later : Nat} {repoPath : String} (h : Checked world now repoPath)
    (hle : now ≤ later) : Checked world later repoPath := by
  obtain ⟨moment, requested, place, hlt, hcontained⟩ := h
  exact ⟨moment, requested, place, by omega, hcontained⟩

/-- The operator's consent to a dispatch: the log verifies, and its last answer for the agent says auto. -/
structure Granted (world : World) (moment : Nat) (agentType : String) : Prop where
  depth : depthExceeded world.dispatchDepth = false
  verifies : ∃ last, verifyChain world.sha256 (world.consentLog moment) = .ok last
  auto : ∃ key e, keyForAgentType agentType = some key ∧
    ((world.consentLog moment).filter (answers key)).getLast? = some e ∧ (field e "mode").bind (·.asStr) = some "auto"

theorem granted_of_dispatchAllowed {world : World} {d : Server} {agentType : String}
    (h : dispatchAllowed world d agentType = true) : Granted world d.clock agentType := by
  rw [dispatchAllowed, Option.any_eq_true] at h
  obtain ⟨key, hkey, hallowed⟩ := h
  obtain ⟨hdepth, hverifies, e, hlast, hauto⟩ := (checkWith_allowed_iff ..).mp hallowed
  exact ⟨hdepth, hverifies, key, e, hkey, hlast, hauto⟩
/-! ## What a lock section changes -/

def AdapterCall.dispatches : AdapterCall → Bool
  | .start .. | .send .. => true
  | .kill _ => false

/-- What holds of a handler's stage for what comes next. -/
def StageOk (world : World) (sessions : List Session) (now : Nat) (principal : Principal) : Stage → Prop
  | .operating _ session => ∃ row ∈ sessions, row.id = session ∧ row.ownerId = principal
  | .launching _ repoPath _ => Checked world now repoPath
  | .ready | .launched .. | .audited _ => True

section Stages

variable {world : World} {sessions : List Session} {now : Nat} {principal : Principal} {session : Uuid}

theorem stageOk_ready : StageOk world sessions now principal .ready := trivial

theorem stageOk_launched {agentType repoPath : String} :
    StageOk world sessions now principal (.launched session agentType repoPath) := trivial

theorem stageOk_audited : StageOk world sessions now principal (.audited session) := trivial

end Stages

section Steps

variable (world : World) (d : Server)

/-- How a connection moves on without the adapter. -/
inductive Moves (c : ConnId) : Connection → Prop
  | opened (h : d.conns c = none) : Moves c .handshake
  | left (h : d.conns c ≠ none) : Moves c .closed
  | stays {principal stage stage'} (h : d.conns c = some (.admitted principal stage))
      (hok : StageOk world d.sessions (d.clock + 1) principal stage') : Moves c (.admitted principal stage')

/-- What a lock section does to sessions, connections, admissions and calls. -/
inductive Change : Action → Server → Prop
  | idle {a d'} (hsessions : d'.sessions = d.sessions) (hadmissions : d'.admissions = d.admissions)
      (hmade : d'.made = d.made) (hconns : d'.conns = d.conns) : Change a d'
  | moved {a d' c conn} (hmoves : Moves world d c conn) (hsessions : d'.sessions = d.sessions)
      (hadmissions : d'.admissions = d.admissions) (hmade : d'.made = d.made)
      (hconns : d'.conns = Function.update d.conns c (some conn)) : Change a d'
  | admitted {d' c frame hello minted} (hconn : d.conns c = some .handshake)
      (htoken : validateToken world.cockpitToken hello.token = .ok ()) (hsessions : d'.sessions = d.sessions)
      (hadmissions : d'.admissions = d.admissions ++ [⟨c, hello, minted⟩]) (hmade : d'.made = d.made)
      (hconns : d'.conns = Function.update d.conns c (some (.admitted (resolve minted hello.clientId) .ready))) :
      Change (.firstFrame c frame minted) d'
  | operated {a d' c principal op session call}
      (hconn : d.conns c = some (.admitted principal (.operating op session)))
      (hcall : call = .kill session ∨ ∃ text row, call = .send session text ∧ row ∈ d.sessions ∧ row.id = session ∧
        Granted world d.clock row.agentType)
      (hsessions : d'.sessions = d.sessions) (hadmissions : d'.admissions = d.admissions)
      (hmade : d'.made = d.made ++ [⟨call, c, d.clock⟩])
      (hconns : d'.conns = Function.update d.conns c (some (.admitted principal .ready))) : Change a d'
  | launched {a d' c principal agentType repoPath prompt id stage}
      (hconn : d.conns c = some (.admitted principal (.launching agentType repoPath prompt)))
      (hfresh : d.getSession id = none) (hgranted : Granted world d.clock agentType)
      (hstage : ∀ sessions now, StageOk world sessions now principal stage)
      (hsessions : d'.sessions = d.sessions ++ [⟨id, principal, agentType, repoPath⟩])
      (hadmissions : d'.admissions = d.admissions)
      (hmade : d'.made = d.made ++ [⟨.start id agentType repoPath prompt, c, d.clock⟩])
      (hconns : d'.conns = Function.update d.conns c (some (.admitted principal stage))) : Change a d'

variable {world d} {d' : Server} {c : ConnId} {principal : Principal}

theorem getSession_eq_some {id : Uuid} {row : Session} (h : d.getSession id = some row) :
    row ∈ d.sessions ∧ row.id = id :=
  ⟨List.mem_of_find?_eq_some h, by simpa using List.find?_some h⟩

theorem change_of_handleHello {frame : FirstFrame} {minted : String} (hconn : d.conns c = some .handshake) :
    Change world d (.firstFrame c frame minted) (handleHello world d c frame minted) := by
  have hleft : Moves world d c .closed := .left (by rw [hconn]; exact Option.some_ne_none _)
  rw [handleHello.eq_def]
  split
  · split
    · split
      · exact .admitted hconn (by assumption) rfl rfl rfl rfl
      · exact .moved hleft rfl rfl rfl rfl
    · exact .moved hleft rfl rfl rfl rfl
  · exact .moved hleft rfl rfl rfl rfl

theorem change_of_allowSessionOp {a : Action} {op : SessionOp} {session : Uuid}
    (hconn : d.conns c = some (.admitted principal .ready)) :
    Change world d a (allowSessionOp d c principal op session) := by
  rw [allowSessionOp]
  split
  case isTrue howned =>
    obtain ⟨row, hrow, hprincipal⟩ := Option.map_eq_some_iff.mp (judgeOwner_eq_owned_iff.mp howned)
    obtain ⟨hmem, hid⟩ := getSession_eq_some hrow
    have hok : StageOk world d.sessions (d.clock + 1) principal (.operating op session) :=
      ⟨row, hmem, hid, hprincipal⟩
    exact .moved (.stays hconn hok) rfl rfl rfl rfl
  case isFalse => exact .idle rfl rfl rfl rfl

theorem change_of_handleCommand {a : Action} {command : ClientCommand}
    (hconn : d.conns c = some (.admitted principal .ready)) :
    Change world d a (handleCommand world d c principal command) := by
  cases command with
  | sendPrompt session text => exact change_of_allowSessionOp hconn
  | steer session text => exact change_of_allowSessionOp hconn
  | closeSession session => exact change_of_allowSessionOp hconn
  | launchSession agentType repoPath prompt =>
    rw [handleCommand]
    split
    case h_1 resolved hresolved =>
      refine .moved (.stays hconn ?_) rfl rfl rfl rfl
      exact ⟨d.clock, repoPath, resolved, Nat.lt_succ_self _, contained_of_ok hresolved, rfl⟩
    case h_2 => exact .idle rfl rfl rfl rfl

/-- What the second lock section asks of the adapter, if anything. -/
inductive Asked (world : World) (d : Server) (c : ConnId) (session : Uuid) (d' : Server) : Prop
  | nothing (hsame : d' = d)
  | called {call} (hcall : call = .kill session ∨ ∃ text row, call = .send session text ∧ row ∈ d.sessions ∧
        row.id = session ∧ Granted world d.clock row.agentType)
      (hsessions : d'.sessions = d.sessions) (hadmissions : d'.admissions = d.admissions)
      (hmade : d'.made = d.made ++ [⟨call, c, d.clock⟩]) (hconns : d'.conns = d.conns)

theorem asked_askAdapter {op : SessionOp} {session : Uuid} {answer : Except String Unit} :
    Asked world d c session (askAdapter world d c op session answer).1 := by
  cases op with
  | send text steer =>
    show Asked world d c session (adapterSend world d c session text answer).1
    unfold adapterSend
    split
    · exact .nothing rfl
    case h_2 row hrow =>
      obtain ⟨hmem, hid⟩ := getSession_eq_some hrow
      split
      case isTrue hallowed =>
        refine .called (.inr ⟨text, row, rfl, hmem, hid, granted_of_dispatchAllowed hallowed⟩) rfl rfl rfl rfl
      case isFalse => exact .nothing rfl
  | close =>
    show Asked world d c session (killSession d c session answer).1
    unfold killSession
    split
    · split
      · exact .called (.inl rfl) rfl rfl rfl rfl
      · exact .called (.inl rfl) rfl rfl rfl rfl
    · exact .nothing rfl

theorem change_of_operate {a : Action} {op : SessionOp} {session : Uuid} {answer : Except String Unit}
    (hconn : d.conns c = some (.admitted principal (.operating op session))) :
    Change world d a (operate world d c principal op session answer) := by
  rcases @asked_askAdapter world d c op session answer with hsame | ⟨hcall, hsessions, hadmissions, hmade, hconns⟩
  · rw [operate, hsame]
    exact .moved (.stays hconn stageOk_ready) rfl rfl rfl rfl
  · exact .operated hconn hcall hsessions hadmissions hmade (congrArg (Function.update · c _) hconns)

theorem change_of_launchSession {a : Action} {agentType repoPath : String} {prompt : Option String} {id : Uuid}
    {answer : Except String Unit}
    (hconn : d.conns c = some (.admitted principal (.launching agentType repoPath prompt))) :
    Change world d a (launchSession world d c principal agentType repoPath prompt id answer) := by
  unfold launchSession
  split
  case isTrue => exact .moved (.stays hconn stageOk_ready) rfl rfl rfl rfl
  case isFalse hallowed =>
    split
    case isTrue => exact .moved (.stays hconn stageOk_ready) rfl rfl rfl rfl
    case isFalse hknown =>
      have hfresh : d.getSession id = none := Option.not_isSome_iff_eq_none.mp hknown
      have hgranted : Granted world d.clock agentType :=
        granted_of_dispatchAllowed (by rwa [Bool.not_eq_true', Bool.not_eq_false] at hallowed)
      split
      · exact .launched hconn hfresh hgranted (fun _ _ => stageOk_ready) rfl rfl rfl rfl
      · exact .launched hconn hfresh hgranted (fun _ _ => stageOk_launched) rfl rfl rfl rfl

/-- **What a lock section does.** -/
theorem change_of_act {a : Action} (h : act world d a = some d') : Change world d a d' := by
  cases a with
  | connect c =>
    rw [act] at h
    split at h
    case h_1 hconn =>
      obtain rfl := Option.some.inj h
      exact .moved (.opened hconn) rfl rfl rfl rfl
    case h_2 => cases h
  | firstFrame c frame minted =>
    rw [act] at h
    split at h
    case h_1 hconn =>
      obtain rfl := Option.some.inj h
      exact change_of_handleHello hconn
    case h_2 => cases h
  | command c command =>
    rw [act] at h
    split at h
    case h_1 hconn =>
      obtain rfl := Option.some.inj h
      exact change_of_handleCommand hconn
    case h_2 => cases h
  | operate c answer =>
    rw [act] at h
    split at h
    case h_1 hconn =>
      obtain rfl := Option.some.inj h
      exact change_of_operate hconn
    case h_2 => cases h
  | launch c id answer =>
    rw [act] at h
    split at h
    case h_1 hconn =>
      obtain rfl := Option.some.inj h
      exact change_of_launchSession hconn
    case h_2 => cases h
  | auditLaunch c =>
    rw [act] at h
    split at h
    case h_1 hconn =>
      obtain rfl := Option.some.inj h
      exact .moved (.stays hconn stageOk_audited) rfl rfl rfl rfl
    case h_2 => cases h
  | takePendingPump c =>
    rw [act] at h
    split at h
    case h_1 hconn =>
      obtain rfl := Option.some.inj h
      exact .moved (.stays hconn stageOk_ready) rfl rfl rfl rfl
    case h_2 => cases h
  | disconnect c =>
    rw [act] at h
    split at h
    case h_1 hconn =>
      obtain rfl := Option.some.inj h
      exact .moved (.left (by rw [hconn]; exact Option.some_ne_none _)) rfl rfl rfl rfl
    case h_2 => cases h
  | removeLive session =>
    obtain rfl := Option.some.inj h
    exact .idle rfl rfl rfl rfl

end Steps
/-! ## What every state satisfies -/

/-- Behind a call of the adapter there is an admission, with the token of the daemon, and the row of a session that
belongs to its principal. A dispatch is granted at its moment; an agent is started where the row says, and that was
resolved to a directory below a root before. -/
structure Authorised (world : World) (d : Server) (m : Made) (admission : Admission) (row : Session) : Prop where
  admitted : admission ∈ d.admissions
  conn : admission.conn = m.conn
  stored : row ∈ d.sessions
  session : row.id = m.call.session
  owned : row.ownerId = admission.principal
  granted : m.call.dispatches = true → Granted world m.moment row.agentType
  started : ∀ id agentType repoPath prompt, m.call = .start id agentType repoPath prompt →
    row.agentType = agentType ∧ row.repoPath = repoPath ∧ Checked world m.moment repoPath

/-- What the rows of sessions and the admissions satisfy, where the daemon started over `rows`. -/
structure Ledger (world : World) (rows sessions : List Session) (admissions : List Admission) : Prop where
  ids : (sessions.map (·.id)).Nodup
  kept : rows ⊆ sessions
  tokens : ∀ a ∈ admissions, validateToken world.cockpitToken a.hello.token = .ok ()
  minted : (admissions.map (·.minted)).Nodup
  apart : ∀ a ∈ admissions, ∀ row ∈ rows, row.ownerId ≠ perConnection a.minted
  once : (admissions.map (·.conn)).Nodup

structure Sound (world : World) (rows : List Session) (d : Server) : Prop where
  ledger : Ledger world rows d.sessions d.admissions
  known : ∀ a ∈ d.admissions, d.conns a.conn ≠ none ∧ d.conns a.conn ≠ some .handshake
  stages : ∀ c principal stage, d.conns c = some (.admitted principal stage) →
    (∃ a ∈ d.admissions, a.conn = c ∧ a.principal = principal) ∧ StageOk world d.sessions d.clock principal stage
  made : ∀ m ∈ d.made, ∃ admission row, Authorised world d m admission row

section Invariant

variable {world : World} {rows : List Session} {d d' : Server}

theorem StageOk.mono {sessions sessions' : List Session} {now later : Nat} {principal : Principal} {stage : Stage}
    (h : StageOk world sessions now principal stage) (hsub : sessions ⊆ sessions') (hle : now ≤ later) :
    StageOk world sessions' later principal stage := by
  cases stage with
  | operating op session =>
    obtain ⟨row, hmem, hrow⟩ := h
    exact ⟨row, hsub hmem, hrow⟩
  | launching agentType repoPath prompt => exact Checked.mono h hle
  | ready => trivial
  | launched => trivial
  | audited => trivial

theorem Authorised.mono {m : Made} {admission : Admission} {row : Session} (h : Authorised world d m admission row)
    (hadmissions : d.admissions ⊆ d'.admissions) (hsessions : d.sessions ⊆ d'.sessions) :
    Authorised world d' m admission row :=
  { h with admitted := hadmissions h.admitted, stored := hsessions h.stored }

theorem notMem_ids {id : Uuid} (h : d.getSession id = none) : id ∉ d.sessions.map (·.id) := by
  intro hmem
  obtain ⟨row, hrow, rfl⟩ := List.mem_map.mp hmem
  have hno := List.find?_eq_none.mp h row hrow
  exact hno (beq_self_eq_true _)

theorem Ledger.admit {sessions : List Session} {admissions : List Admission} {a : Admission}
    (h : Ledger world rows sessions admissions) (htoken : validateToken world.cockpitToken a.hello.token = .ok ())
    (hminted : a.minted ∉ admissions.map (·.minted)) (hapart : perConnection a.minted ∉ sessions.map (·.ownerId))
    (hconn : a.conn ∉ admissions.map (·.conn)) : Ledger world rows sessions (admissions ++ [a]) where
  ids := h.ids
  kept := h.kept
  tokens := List.forall_mem_append.mpr ⟨h.tokens, List.forall_mem_singleton.mpr htoken⟩
  minted := nodup_map_concat h.minted hminted
  apart := by
    refine List.forall_mem_append.mpr ⟨h.apart, List.forall_mem_singleton.mpr fun row hrow howner => hapart ?_⟩
    rw [← howner]
    exact List.mem_map_of_mem (h.kept hrow)
  once := nodup_map_concat h.once hconn

theorem Ledger.launch {sessions : List Session} {admissions : List Admission} {row : Session}
    (h : Ledger world rows sessions admissions) (hid : row.id ∉ sessions.map (·.id)) :
    Ledger world rows (sessions ++ [row]) admissions :=
  { h with
    ids := nodup_map_concat h.ids hid
    kept := fun _ hrow => List.mem_append_left _ (h.kept hrow) }

theorem sound_boot (hrows : (rows.map (·.id)).Nodup) : Sound world rows (.boot rows) :=
  ⟨⟨hrows, fun _ h => h, nofun, .nil, nofun, .nil⟩, nofun, nofun, nofun⟩

section Parts

variable {c : ConnId} {conn : Connection} (h : Sound world rows d)

include h

/-- Connections whose handler has come on are still known, and so is the one that does. -/
theorem Sound.known_update (hconns : d'.conns = Function.update d.conns c (some conn)) (hconn : conn ≠ .handshake)
    (a : Admission) (ha : a ∈ d.admissions ∨ a.conn = c) :
    d'.conns a.conn ≠ none ∧ d'.conns a.conn ≠ some .handshake := by
  rw [hconns]
  by_cases hc : a.conn = c
  · rw [hc, Function.update_self]
    exact ⟨Option.some_ne_none _, fun heq => hconn (Option.some.inj heq)⟩
  · rw [Function.update_of_ne hc]
    exact h.known a (ha.resolve_right hc)

/-- The handlers stand where they may, when the one that comes on does. -/
theorem Sound.stages_update (hsessions : d.sessions ⊆ d'.sessions) (hadmissions : d.admissions ⊆ d'.admissions)
    (hconns : d'.conns = Function.update d.conns c (some conn))
    (hnew : ∀ principal stage, conn = .admitted principal stage →
      (∃ a ∈ d'.admissions, a.conn = c ∧ a.principal = principal) ∧
        StageOk world d'.sessions (d.clock + 1) principal stage)
    (c' : ConnId) (principal : Principal) (stage : Stage) (hc' : d'.conns c' = some (.admitted principal stage)) :
    (∃ a ∈ d'.admissions, a.conn = c' ∧ a.principal = principal) ∧
      StageOk world d'.sessions (d.clock + 1) principal stage := by
  rw [hconns] at hc'
  rcases update_eq_some hc' with ⟨rfl, hconn⟩ | ⟨-, hold⟩
  · exact hnew principal stage (Option.some.inj hconn)
  · obtain ⟨⟨a, ha, hconn, hprincipal⟩, hok⟩ := h.stages c' principal stage hold
    exact ⟨⟨a, hadmissions ha, hconn, hprincipal⟩, hok.mono hsessions (Nat.le_succ _)⟩

/-- A new call that is authorised leaves all calls authorised. -/
theorem Sound.made_append {m : Made} (hsessions : d.sessions ⊆ d'.sessions)
    (hadmissions : d'.admissions = d.admissions)
    (hmade : d'.made = d.made ++ [m]) (hnew : ∃ admission row, Authorised world d' m admission row) :
    ∀ m ∈ d'.made, ∃ admission row, Authorised world d' m admission row := by
  rw [hmade]
  refine List.forall_mem_append.mpr ⟨fun m hm => ?_, List.forall_mem_singleton.mpr hnew⟩
  obtain ⟨admission, row, hauthorised⟩ := h.made m hm
  exact ⟨admission, row, hauthorised.mono (by rw [hadmissions]; exact fun _ h => h) hsessions⟩

/-- Calls stay authorised when rows and admissions are added. -/
theorem Sound.made_mono (hsessions : d.sessions ⊆ d'.sessions) (hadmissions : d.admissions ⊆ d'.admissions)
    (hmade : d'.made = d.made) : ∀ m ∈ d'.made, ∃ admission row, Authorised world d' m admission row := by
  rw [hmade]
  intro m hm
  obtain ⟨admission, row, hauthorised⟩ := h.made m hm
  exact ⟨admission, row, hauthorised.mono hadmissions hsessions⟩

end Parts

/-- A lock section keeps the invariant, and time goes on. -/
theorem Sound.change {a : Action} (h : Sound world rows d) (hmay : May d a) (hchange : Change world d a d') :
    Sound world rows { d' with clock := d.clock + 1 } := by
  cases hchange with
  | idle hsessions hadmissions hmade hconns =>
    have hsub : d.sessions ⊆ d'.sessions := hsessions ▸ List.Subset.refl _
    have hsub' : d.admissions ⊆ d'.admissions := hadmissions ▸ List.Subset.refl _
    refine ⟨?_, ?_, ?_, h.made_mono hsub hsub' hmade⟩
    · show Ledger world rows d'.sessions d'.admissions
      rw [hsessions, hadmissions]
      exact h.ledger
    · show ∀ a ∈ d'.admissions, d'.conns a.conn ≠ none ∧ d'.conns a.conn ≠ some .handshake
      rw [hadmissions, hconns]
      exact h.known
    · show ∀ c principal stage, d'.conns c = some (.admitted principal stage) →
        (∃ a ∈ d'.admissions, a.conn = c ∧ a.principal = principal) ∧
          StageOk world d'.sessions (d.clock + 1) principal stage
      rw [hsessions, hadmissions, hconns]
      intro c principal stage hc
      exact ⟨(h.stages c principal stage hc).1, (h.stages c principal stage hc).2.mono (fun _ h => h) (Nat.le_succ _)⟩
  | @moved _ _ c conn hmoves hsessions hadmissions hmade hconns =>
    have hsub : d.sessions ⊆ d'.sessions := hsessions ▸ List.Subset.refl _
    have hsub' : d.admissions ⊆ d'.admissions := hadmissions ▸ List.Subset.refl _
    refine ⟨?_, ?_, h.stages_update hsub hsub' hconns ?_, h.made_mono hsub hsub' hmade⟩
    · show Ledger world rows d'.sessions d'.admissions
      rw [hsessions, hadmissions]
      exact h.ledger
    · intro a ha
      have ha' : a ∈ d.admissions := hadmissions ▸ ha
      cases hmoves with
      | opened hnone =>
        -- nobody was let in on a connection that is only opened now
        have hc : a.conn ≠ c := fun hc => (h.known a ha').1 (hc ▸ hnone)
        show d'.conns a.conn ≠ none ∧ d'.conns a.conn ≠ some .handshake
        rw [hconns, Function.update_of_ne hc]
        exact h.known a ha'
      | left => exact h.known_update hconns nofun a (.inl ha')
      | stays => exact h.known_update hconns nofun a (.inl ha')
    · rintro principal stage rfl
      cases hmoves with
      | stays hold hok =>
        rw [hsessions, hadmissions]
        exact ⟨(h.stages _ _ _ hold).1, hok⟩
  | @admitted _ c frame hello minted hconn htoken hsessions hadmissions hmade hconns =>
    have hsub : d.sessions ⊆ d'.sessions := hsessions ▸ List.Subset.refl _
    have hsub' : d.admissions ⊆ d'.admissions := by
      rw [hadmissions]
      exact List.subset_append_left _ _
    have hnew : c ∉ d.admissions.map (·.conn) := by
      intro hmem
      obtain ⟨a, ha, rfl⟩ := List.mem_map.mp hmem
      exact (h.known a ha).2 hconn
    refine ⟨?_, ?_, h.stages_update hsub hsub' hconns ?_, h.made_mono hsub hsub' hmade⟩
    · show Ledger world rows d'.sessions d'.admissions
      rw [hsessions, hadmissions]
      exact h.ledger.admit htoken hmay.1 hmay.2 hnew
    · intro a ha
      have ha' : a ∈ d.admissions ++ [(⟨c, hello, minted⟩ : Admission)] := hadmissions ▸ ha
      refine h.known_update hconns nofun a ((List.mem_append.mp ha').imp_right fun hlast => ?_)
      rw [List.mem_singleton.mp hlast]
    · rintro principal stage heq
      obtain ⟨rfl, rfl⟩ := Connection.admitted.inj heq
      refine ⟨⟨⟨c, hello, minted⟩, ?_, rfl, rfl⟩, stageOk_ready⟩
      rw [hadmissions]
      exact List.mem_append_right _ (List.mem_singleton_self _)
  | @operated _ _ c principal op session call hconn hcall hsessions hadmissions hmade hconns =>
    have hsub : d.sessions ⊆ d'.sessions := hsessions ▸ List.Subset.refl _
    have hsub' : d.admissions ⊆ d'.admissions := hadmissions ▸ List.Subset.refl _
    obtain ⟨⟨a, ha, haconn, haprincipal⟩, row, hrow, hid, howner⟩ := h.stages c _ _ hconn
    refine ⟨?_, fun a ha => h.known_update hconns nofun a (.inl (hadmissions ▸ ha)),
      h.stages_update hsub hsub' hconns ?_, h.made_append hsub hadmissions hmade ⟨a, row, ?_⟩⟩
    · show Ledger world rows d'.sessions d'.admissions
      rw [hsessions, hadmissions]
      exact h.ledger
    · rintro principal stage heq
      obtain ⟨rfl, rfl⟩ := Connection.admitted.inj heq
      exact ⟨⟨a, hsub' ha, haconn, haprincipal⟩, stageOk_ready⟩
    · refine ⟨hsub' ha, haconn, hsub hrow, ?_, howner.trans haprincipal.symm, ?_, ?_⟩
      · rcases hcall with rfl | ⟨text, row', rfl, -⟩
        · exact hid
        · exact hid
      · rcases hcall with rfl | ⟨text, row', rfl, hrow', hid', hgranted⟩
        · intro hkill
          cases hkill
        · -- one row has the identifier
          have hsame : row' = row := List.inj_on_of_nodup_map h.ledger.ids hrow' hrow (hid'.trans hid.symm)
          exact fun _ => hsame ▸ hgranted
      · rcases hcall with rfl | ⟨text, row', rfl, -⟩
        · intro _ _ _ _ hstart
          cases hstart
        · intro _ _ _ _ hstart
          cases hstart
  | @launched _ _ c principal agentType repoPath prompt id stage hconn hfresh hgranted hstage hsessions hadmissions
      hmade hconns =>
    have hsub : d.sessions ⊆ d'.sessions := by
      rw [hsessions]
      exact List.subset_append_left _ _
    have hsub' : d.admissions ⊆ d'.admissions := hadmissions ▸ List.Subset.refl _
    obtain ⟨⟨a, ha, haconn, haprincipal⟩, hchecked⟩ := h.stages c _ _ hconn
    refine ⟨?_, fun a ha => h.known_update hconns nofun a (.inl (hadmissions ▸ ha)),
      h.stages_update hsub hsub' hconns ?_,
      h.made_append hsub hadmissions hmade ⟨a, ⟨id, principal, agentType, repoPath⟩, ?_⟩⟩
    · show Ledger world rows d'.sessions d'.admissions
      rw [hsessions, hadmissions]
      exact h.ledger.launch (notMem_ids hfresh)
    · rintro principal stage heq
      obtain ⟨rfl, rfl⟩ := Connection.admitted.inj heq
      exact ⟨⟨a, hsub' ha, haconn, haprincipal⟩, hstage _ _⟩
    · refine ⟨hsub' ha, haconn, ?_, rfl, haprincipal.symm, fun _ => hgranted, ?_⟩
      · show _ ∈ d'.sessions
        rw [hsessions]
        exact List.mem_append_right _ (List.mem_singleton_self _)
      · rintro _ _ _ _ ⟨⟩
        exact ⟨rfl, rfl, hchecked⟩

theorem sound_of_reaches (hrows : (rows.map (·.id)).Nodup) (hrun : Reaches (step world) May (.boot rows) d) :
    Sound world rows d := by
  refine hrun.invariant (sound_boot hrows) fun t a u ht hmay hstep => ?_
  obtain ⟨t', hact, rfl⟩ := Option.map_eq_some_iff.mp hstep
  exact ht.change hmay (change_of_act hact)

end Invariant

/-! ## Who is behind a call -/

/-- A connection asserted a client id that makes this principal. -/
def Asserts (d : Server) (c : ConnId) (principal : Principal) : Prop :=
  ∃ a ∈ d.admissions, a.conn = c ∧ a.hello.clientId.bind fromClientId = some principal

section Principals

variable {world : World} {rows : List Session} {d : Server}

theorem principal_cases (a : Admission) :
    a.hello.clientId.bind fromClientId = some a.principal ∨ a.principal = perConnection a.minted := by
  rw [Admission.principal, resolve]
  cases a.hello.clientId.bind fromClientId with
  | none => exact .inr rfl
  | some principal => exact .inl rfl

/-- An asserted name is none of those that are minted. -/
theorem asserted_ne_minted {a : Admission} {principal : Principal} {uuid : String}
    (h : a.hello.clientId.bind fromClientId = some principal) : principal ≠ perConnection uuid := by
  rintro rfl
  obtain ⟨raw, -, hraw⟩ := Option.bind_eq_some_iff.mp h
  exact fromClientId_ne_perConnection hraw

/-- One principal is one connection, or one client id. -/
theorem conn_eq_or_asserts (h : Sound world rows d) {a a' : Admission} (ha : a ∈ d.admissions)
    (ha' : a' ∈ d.admissions) (hprincipal : a.principal = a'.principal) :
    a.conn = a'.conn ∨ Asserts d a.conn a.principal ∧ Asserts d a'.conn a.principal := by
  rcases principal_cases a with hasserted | hminted
  · rcases principal_cases a' with hasserted' | hminted'
    · exact .inr ⟨⟨a, ha, rfl, hasserted⟩, a', ha', rfl, hprincipal ▸ hasserted'⟩
    · exact absurd (hprincipal.trans hminted') (asserted_ne_minted hasserted)
  · rcases principal_cases a' with hasserted' | hminted'
    · exact absurd (hprincipal.symm.trans hminted) (asserted_ne_minted hasserted')
    · have hsame : a.minted = a'.minted :=
        perConnection_injective (hminted.symm.trans (hprincipal.trans hminted'))
      rw [List.inj_on_of_nodup_map h.ledger.minted ha ha' hsame]
      exact .inl rfl

end Principals

/-! ## A phone that comes back -/

namespace ConnectionSample

/-- Consent for `codex`, and two roots, of which one is not there. -/
def world : World where
  cockpitToken := some "s3cret"
  repoAllowlist := some "/repo/src: /srv"
  home := some "/root"
  dispatchDepth := none
  sha256 := Consent.sampleSha256
  osError := fun _ => "No such file or directory (os error 2)"
  files := fun _ => TargetSample.system
  consentLog := fun _ => [Consent.answer]

def phone : FirstFrame :=
  .text (some
    ⟨.object [("client_id", .string "phone"), ("t", .string "hello"), ("token", .string "s3cret")], by decide⟩)

def nameless : FirstFrame := .text (some ⟨.object [("t", .string "hello"), ("token", .string "s3cret")], by decide⟩)

/-- A session of an earlier process, whose owner is gone. -/
def rows : List Session := [⟨3, "conn:u0", "codex", "/repo/src"⟩]

/-- The phone launches a session behind a link and steers it from another connection; a third one may not close it,
and the old session is nobody's. -/
def actions : List Action :=
  [.connect 1, .firstFrame 1 phone "u1", .command 1 (.launchSession "codex" "/repo/cur" none), .launch 1 7 (.ok ()),
    .auditLaunch 1, .connect 2, .firstFrame 2 phone "u2", .command 2 (.steer 7 "stop"), .connect 3,
    .firstFrame 3 nameless "u3", .command 3 (.closeSession 7), .command 3 (.sendPrompt 3 "go on"),
    .operate 2 (.ok ()), .takePendingPump 1]

def calls : List Made :=
  [⟨.start 7 "codex" "/repo/src/deep" none, 1, 3⟩, ⟨.send 7 "stop", 2, 12⟩]

theorem run : ∃ d, Reaches (step world) May (.boot rows) d ∧ d.made = calls := by
  have hmade : (runActions (step world) May (.boot rows) actions).map (·.made) = some calls := by decide +kernel
  obtain ⟨d, hrun, hcalls⟩ := Option.map_eq_some_iff.mp hmade
  exact ⟨d, reaches_of_run hrun, hcalls⟩

end ConnectionSample

/-- **Nobody else makes the daemon do anything.** In every run, behind each call of the adapter there is a connection
that said hello with the token of the daemon, and the session is its principal's. What starts or steers an agent has
the operator's consent at that moment, also where it was withdrawn between two prompts, and an agent is started in a
directory that a requested path led to, at or below an allowed root, with no link on the way. -/
theorem adapter_calls_authorised (world : World) (rows : List Session) (d : Server)
    (hrows : (rows.map (·.id)).Nodup) (hrun : Reaches (step world) May (.boot rows) d) :
    ∀ m ∈ d.made, ∃ admission row, Authorised world d m admission row ∧
      world.cockpitToken = some admission.hello.token ∧ admission.hello.token ≠ "" := by
  have hsound := sound_of_reaches hrows hrun
  intro m hm
  obtain ⟨admission, row, hauthorised⟩ := hsound.made m hm
  exact ⟨admission, row, hauthorised, validateToken_ok_iff.mp (hsound.ledger.tokens _ hauthorised.admitted)⟩

theorem adapter_calls_authorised_phone :
    ∃ d admission row, Reaches (step ConnectionSample.world) May (.boot ConnectionSample.rows) d ∧
      Authorised ConnectionSample.world d ⟨.start 7 "codex" "/repo/src/deep" none, 1, 3⟩ admission row ∧
      admission.hello.token = "s3cret" := by
  obtain ⟨d, hrun, hmade⟩ := ConnectionSample.run
  obtain ⟨admission, row, hauthorised, htoken, -⟩ :=
    adapter_calls_authorised ConnectionSample.world ConnectionSample.rows d (by decide) hrun
      ⟨.start 7 "codex" "/repo/src/deep" none, 1, 3⟩ (by rw [hmade]; exact List.mem_cons_self)
  exact ⟨d, admission, row, hrun, hauthorised, (Option.some.inj htoken).symm⟩

/-- **Sessions are apart.** All calls about one session come from one connection, unless the connections assert one
client id; and a session that an earlier process left is reached only by a connection that asserts the client id it
belongs to. -/
theorem sessions_apart (world : World) (rows : List Session) (d : Server) (hrows : (rows.map (·.id)).Nodup)
    (hrun : Reaches (step world) May (.boot rows) d) :
    (∀ m ∈ d.made, ∀ m' ∈ d.made, m.call.session = m'.call.session →
      m.conn = m'.conn ∨ ∃ principal, Asserts d m.conn principal ∧ Asserts d m'.conn principal) ∧
    ∀ m ∈ d.made, ∀ row ∈ rows, row.id = m.call.session → Asserts d m.conn row.ownerId := by
  have hsound := sound_of_reaches hrows hrun
  constructor
  · intro m hm m' hm' hsession
    obtain ⟨a, row, h⟩ := hsound.made m hm
    obtain ⟨a', row', h'⟩ := hsound.made m' hm'
    have hrow : row = row' :=
      List.inj_on_of_nodup_map hsound.ledger.ids h.stored h'.stored (h.session.trans (hsession.trans h'.session.symm))
    have hprincipal : a.principal = a'.principal := by rw [← h.owned, ← h'.owned, hrow]
    rw [← h.conn, ← h'.conn]
    exact (conn_eq_or_asserts hsound h.admitted h'.admitted hprincipal).imp_right fun hsame => ⟨_, hsame⟩
  · intro m hm row hrow hsession
    obtain ⟨a, row', h⟩ := hsound.made m hm
    have hsame : row' = row :=
      List.inj_on_of_nodup_map hsound.ledger.ids h.stored (hsound.ledger.kept hrow) (h.session.trans hsession.symm)
    rw [← h.conn, ← hsame, h.owned]
    rcases principal_cases a with hasserted | hminted
    · exact ⟨a, h.admitted, rfl, hasserted⟩
    · refine absurd ?_ (hsound.ledger.apart a h.admitted row hrow)
      rw [← hsame, h.owned, hminted]
theorem sessions_apart_phone :
    ∃ d, Reaches (step ConnectionSample.world) May (.boot ConnectionSample.rows) d ∧
      ∃ principal, Asserts d 1 principal ∧ Asserts d 2 principal := by
  obtain ⟨d, hrun, hmade⟩ := ConnectionSample.run
  have hapart := (sessions_apart ConnectionSample.world ConnectionSample.rows d (by decide) hrun).1
    ⟨.start 7 "codex" "/repo/src/deep" none, 1, 3⟩ (by rw [hmade]; exact List.mem_cons_self)
    ⟨.send 7 "stop", 2, 12⟩ (by rw [hmade]; exact List.mem_cons_of_mem _ List.mem_cons_self) rfl
  exact ⟨d, hrun, hapart.resolve_left (by decide)⟩

end RallyPoint.Cockpit.Connections
