/-
# RallyPoint.Sessions — a closed session is closed for good, and only its first token closes it.

The lifecycle gate reads one session: the facts with exactly the writer's tool and session stamp. It runs
over the RAW facts, so no retraction reopens anything, and on the indexed fast path over the rows of that
session alone, which is the same question (`lifecycle_sessionFactsByIndex`). Along a run the hashes carried
by a session's active presences are all equal, because the gate refuses a presence that brings a different
one; so the latest hash, which a close must open, is the first.
-/
import RallyPoint.Append

namespace RallyPoint

open Lib

/-! ## One session's rows -/

section Rows

variable {F : List Fact} {tool sessionId : String}

theorem sessionAlreadyClosed_iff :
    sessionAlreadyClosed F tool sessionId = true ↔
      ∃ k ∈ F, exactSession tool sessionId k = true ∧ isSessionCloseFact k = true := by
  simp only [sessionAlreadyClosed, List.any_eq_true, List.mem_filter, and_assoc]

theorem filter_exactSession_index :
    (sessionFactsByIndex F sessionId).filter (exactSession tool sessionId) =
      F.filter (exactSession tool sessionId) := by
  rw [sessionFactsByIndex, List.filter_filter]
  refine List.filter_congr fun x _ => ?_
  cases hx : exactSession tool sessionId x with
  | false => rfl
  | true =>
    simp only [exactSession, Bool.and_eq_true, beq_iff_eq] at hx
    simp [hx.2]

/-- The index scopes the ledger to the rows the gate reads anyway. -/
theorem lifecycle_sessionFactsByIndex {ext : Externals} {fact : Fact}
    (hsession : fact.fromSessionId = some sessionId) :
    assertSessionLifecycleAuthorized ext fact (sessionFactsByIndex F sessionId) =
      assertSessionLifecycleAuthorized ext fact F := by
  have hclosed : ∀ tool, sessionAlreadyClosed (sessionFactsByIndex F sessionId) tool sessionId =
      sessionAlreadyClosed F tool sessionId := fun tool => by
    rw [sessionAlreadyClosed, sessionAlreadyClosed, filter_exactSession_index]
  have hlatest : ∀ tool, latestCloseHash (sessionFactsByIndex F sessionId) tool sessionId =
      latestCloseHash F tool sessionId := fun tool => by
    rw [latestCloseHash, latestCloseHash, closeHashes, closeHashes, filter_exactSession_index]
  unfold assertSessionLifecycleAuthorized
  cases fact.tool with
  | none => rfl
  | some tool =>
    rw [hsession]
    simp only [hclosed, hlatest]

/-- What one more fact adds to the hashes of a session. -/
theorem closeHashes_append (F : List Fact) (f : Fact) :
    closeHashes (F ++ [f]) tool sessionId =
      closeHashes F tool sessionId ++
        (if exactSession tool sessionId f && isActivePresence f then (closeTokenHashOf f).toList else []) := by
  simp only [closeHashes, List.filter_append, List.filterMap_append]
  congr 1
  cases hexact : exactSession tool sessionId f <;> cases hactive : isActivePresence f <;>
    cases hhash : closeTokenHashOf f <;> simp [hexact, hactive, hhash]

/-- The first hash of a session stays the first. -/
theorem head?_closeHashes_append {f : Fact} {h : String}
    (hh : (closeHashes F tool sessionId).head? = some h) :
    (closeHashes (F ++ [f]) tool sessionId).head? = some h := by
  rw [closeHashes_append, List.head?_append, hh, Option.some_or]

end Rows

/-! ## The gate of one append -/

section Gate

variable {env : AppendEnv} {F : List Fact} {fact f : Fact} {tool sessionId : String}

/-- Every path through the authority stage runs the lifecycle check or does not need it. -/
theorem lifecycle_of_assertAuthority (h : assertAuthority env F fact = .ok ()) :
    assertSessionLifecycleAuthorized env.ext fact F = .ok () := by
  unfold assertAuthority scopedLifecycle at h
  by_cases hscoped : (!needsAuthorityCheck fact && needsSessionLifecycleCheck fact &&
      fact.kind != .claim && env.indexed) = true
  · rw [if_pos hscoped] at h
    cases hsession : fact.fromSessionId with
    | none => simp [assertSessionLifecycleAuthorized, hsession]
    | some sessionId =>
      rw [hsession] at h
      exact (lifecycle_sessionFactsByIndex hsession).symm.trans h
  · rw [if_neg hscoped] at h
    by_cases hneeds : (needsAuthorityCheck fact || needsSessionLifecycleCheck fact) = true
    · simp only [hneeds, if_true] at h
      exact (assertWriteAuthorized_ok_iff.mp h).2.1
    · -- field bounds only: the fact names no session the gate could ask about
      have hnot : needsSessionLifecycleCheck fact = false := by
        rw [Bool.not_eq_true, Bool.or_eq_false_iff] at hneeds
        exact hneeds.2
      simp [assertSessionLifecycleAuthorized, hnot]

theorem lifecycle_of_committed (h : appendFactUnderLock env F fact = .ok (.committed f)) :
    assertSessionLifecycleAuthorized env.ext fact F = .ok () := by
  obtain ⟨-, -, -, -, happend, -⟩ := appendFactUnderLock_committed_iff.mp h
  obtain ⟨-, -, -, -, -, -, hauthority, -⟩ := assertAppendable_ok_iff.mp happend
  exact lifecycle_of_assertAuthority hauthority

/-- **The lifecycle rule of a stamped fact:** its session is open, a close opens the latest hash, and a
presence repeats the hash there is. -/
theorem lifecycle_spec {ext : Externals} (htool : fact.tool = some tool)
    (hsession : fact.fromSessionId = some sessionId) (hne : tool ≠ "" ∧ sessionId ≠ "")
    (h : assertSessionLifecycleAuthorized ext fact F = .ok ()) :
    sessionAlreadyClosed F tool sessionId = false ∧
      (isSessionCloseAttempt fact = true → ∃ expected supplied,
        latestCloseHash F tool sessionId = some expected ∧ closeTokenRevealOf fact = some supplied ∧
          sessionCloseTokenHash ext supplied = expected) ∧
      (isSessionCloseAttempt fact = false → fact.kind = .presence → ∀ expected,
        latestCloseHash F tool sessionId = some expected → closeTokenHashOf fact = some expected) := by
  have hneeds : needsSessionLifecycleCheck fact = true := by
    have hnonempty : ∀ s : String, s ≠ "" → isNonempty (some s) = true := by
      intro s hs
      simpa [isNonempty] using hs
    simp [needsSessionLifecycleCheck, htool, hsession, hnonempty _ hne.1, hnonempty _ hne.2]
  simp only [assertSessionLifecycleAuthorized, hneeds, Bool.not_true, Bool.false_eq_true, if_false, htool,
    hsession] at h
  rw [check_refuse_ok_iff] at h
  obtain ⟨hopen, h⟩ := h
  refine ⟨by simpa using hopen, fun hattempt => ?_, fun hattempt hkind expected hlatest => ?_⟩
  · simp only [hattempt, if_true, assertCloseProof] at h
    cases hlatest : latestCloseHash F tool sessionId with
    | none => simp [hlatest] at h
    | some expected =>
      cases hreveal : closeTokenRevealOf fact with
      | none => simp [hlatest, hreveal] at h
      | some supplied =>
        simp only [hlatest, hreveal, check_refuse_ok_iff, bne_iff_ne, ne_eq, Decidable.not_not] at h
        exact ⟨expected, supplied, rfl, rfl, h.1⟩
  · simp only [hattempt, Bool.false_eq_true, if_false, hkind, beq_self_eq_true, if_true, hlatest,
      check_refuse_ok_iff, bne_iff_ne, ne_eq, Decidable.not_not] at h
    exact h.1

end Gate

/-! ## Runs -/

section Runs

variable {ext : Externals} {F : List Fact} {tool sessionId : String}

/-- A hash that a committed presence adds is the one the session already has, if it has one. -/
theorem latestCloseHash_of_committed {env : AppendEnv} {fact f : Fact} {h : String}
    (hne : tool ≠ "" ∧ sessionId ≠ "") (hok : appendFactUnderLock env F fact = .ok (.committed f))
    (hexact : exactSession tool sessionId f = true) (hactive : isActivePresence f = true)
    (hhash : closeTokenHashOf f = some h) :
    ∀ expected, latestCloseHash F tool sessionId = some expected → h = expected := by
  intro expected hlatest
  obtain ⟨-, -, -, -, -, -, rfl⟩ := appendFactUnderLock_committed_iff.mp hok
  simp only [exactSession, isActivePresence, Bool.and_eq_true, beq_iff_eq] at hexact hactive
  have hkind : fact.kind = .presence := hactive.1
  have hattempt : isSessionCloseAttempt fact = false := by simp [isSessionCloseAttempt, hkind]
  have hrule := (lifecycle_spec hexact.1 hexact.2 hne (lifecycle_of_committed hok)).2.2 hattempt hkind
  have hsame : closeTokenHashOf fact = some h := hhash
  exact Option.some.inj (hsame.symm.trans (hrule expected hlatest))

/-- Along a run all hashes of a session are its first one. -/
theorem closeHashes_constant (hne : tool ≠ "" ∧ sessionId ≠ "") (hrun : Reachable (AppendStep ext) F) :
    ∀ h ∈ closeHashes F tool sessionId, (closeHashes F tool sessionId).head? = some h := by
  refine Reachable.invariant (P := fun F => ∀ h ∈ closeHashes F tool sessionId,
    (closeHashes F tool sessionId).head? = some h) (by simp [closeHashes]) ?_ hrun
  intro F f _ ih hstep h hh
  obtain ⟨env, fact, -, hok⟩ := hstep
  rw [closeHashes_append] at hh ⊢
  rcases List.mem_append.mp hh with hold | hnew
  · rw [List.head?_append, ih h hold, Option.some_or]
  · split at hnew
    case isFalse => simp at hnew
    case isTrue hmine =>
      rw [Bool.and_eq_true] at hmine
      rw [Option.mem_toList] at hnew
      -- the first hash of the session, or a repetition the gate insisted on
      cases hlatest : latestCloseHash F tool sessionId with
      | none => simp [List.getLast?_eq_none_iff.mp hlatest, hmine, hnew]
      | some expected =>
        rw [latestCloseHash_of_committed hne hok hmine.1 hmine.2 hnew expected hlatest,
          List.head?_append, ih expected (List.mem_of_getLast? hlatest), Option.some_or]

/-- The latest hash of a session is its first. -/
theorem latestCloseHash_eq_head? (hne : tool ≠ "" ∧ sessionId ≠ "")
    (hrun : Reachable (AppendStep ext) F) :
    latestCloseHash F tool sessionId = (closeHashes F tool sessionId).head? := by
  cases hlatest : latestCloseHash F tool sessionId with
  | none => simp [List.getLast?_eq_none_iff.mp hlatest]
  | some expected => exact (closeHashes_constant hne hrun expected (List.mem_of_getLast? hlatest)).symm

theorem head?_closeHashes_extends {G : List Fact} {h : String} (hrun : Extends (AppendStep ext) F G)
    (hh : (closeHashes F tool sessionId).head? = some h) :
    (closeHashes G tool sessionId).head? = some h :=
  Extends.invariant (P := fun G => (closeHashes G tool sessionId).head? = some h) hh
    (fun _ _ _ ih _ => head?_closeHashes_append ih) hrun

/-- **Closed sessions are final, and one token closes them.** In every ledger a run of committed appends
reaches, for every nonempty tool and session: once a close of exactly that pair is in the ledger, no fact
carrying the pair is committed; the hash a close must open is that of the session's first active presence
that carried one, and stays so in every continuation; and a close is committed only with its preimage. -/
theorem closed_sessions_final (hne : tool ≠ "" ∧ sessionId ≠ "") (hrun : Reachable (AppendStep ext) F) :
    (∀ k ∈ F, isSessionCloseFact k = true → k.tool = some tool → k.fromSessionId = some sessionId →
      ∀ env fact f, env.ext = ext → fact.tool = some tool → fact.fromSessionId = some sessionId →
        appendFactUnderLock env F fact ≠ .ok (.committed f)) ∧
    latestCloseHash F tool sessionId = (closeHashes F tool sessionId).head? ∧
    (∀ G h, Extends (AppendStep ext) F G → (closeHashes F tool sessionId).head? = some h →
      latestCloseHash G tool sessionId = some h) ∧
    ∀ env fact f, env.ext = ext → isSessionCloseAttempt fact = true → fact.tool = some tool →
      fact.fromSessionId = some sessionId → appendFactUnderLock env F fact = .ok (.committed f) →
      ∃ h supplied, (closeHashes F tool sessionId).head? = some h ∧
        closeTokenRevealOf fact = some supplied ∧ sessionCloseTokenHash ext supplied = h := by
  refine ⟨fun k hk hclose hktool hksession env fact f _ htool hsession hok => ?_,
    latestCloseHash_eq_head? hne hrun, fun G h hext hh => ?_,
    fun env fact f henv hattempt htool hsession hok => ?_⟩
  · have hopen := (lifecycle_spec htool hsession hne (lifecycle_of_committed hok)).1
    have hclosed : sessionAlreadyClosed F tool sessionId = true :=
      sessionAlreadyClosed_iff.mpr ⟨k, hk, by simp [exactSession, hktool, hksession], hclose⟩
    simp [hopen] at hclosed
  · rw [latestCloseHash_eq_head? hne (hext.reachable hrun)]
    exact head?_closeHashes_extends hext hh
  · obtain ⟨expected, supplied, hlatest, hreveal, hhash⟩ :=
      (lifecycle_spec htool hsession hne (lifecycle_of_committed hok)).2.1 hattempt
    rw [latestCloseHash_eq_head? hne hrun] at hlatest
    exact ⟨expected, supplied, hlatest, hreveal, henv ▸ hhash⟩

end Runs

/-- A session opens with the hash of its close token. -/
def openingPresence : Fact :=
  { eventId := "p1", seq := 1, kind := .presence, tool := some "alice"
    fromSessionId := some "sess:alice", subject := "presence", createdAt := "2026-01-01T00:00:00Z"
    evidence := ["protocol:session_state=active", "protocol:session_close_token_sha256=" ++
      "7a1ce3d2596ded6c185cbba7c3606db7632ed37af081e3f50d18d5268b22c30f"] }

/-- And closes by revealing it. -/
def closingFact : Fact :=
  { eventId := "k1", seq := 2, kind := .session, tool := some "alice", fromSessionId := some "sess:alice"
    subject := "session closed", createdAt := "2026-01-01T00:00:00Z"
    evidence := ["protocol:session_state=closed", "protocol:session_close_token=close-token"] }

/-- An opened and closed session takes no further claim. -/
theorem closed_sessions_final_claim_refused :
    Reachable (AppendStep .sample) [openingPresence, closingFact] ∧
      ∀ f, appendFactUnderLock .sample [openingPresence, closingFact]
        { kind := .claim, eventId := "c1", tool := some "alice", fromSessionId := some "sess:alice"
          scope := ["file:src/parser.rs"] } ≠ .ok (.committed f) := by
  have hrun : Reachable (AppendStep .sample) [openingPresence, closingFact] := by
    refine .append (.append .empty ?_) ?_
    · exact ⟨.sample, openingPresence, rfl, by decide +kernel⟩
    · exact ⟨.sample, closingFact, rfl, by decide +kernel⟩
  refine ⟨hrun, fun f => ?_⟩
  exact (closed_sessions_final (by decide) hrun).1 closingFact (by simp) (by decide) rfl rfl
    .sample _ f rfl rfl rfl

end RallyPoint
