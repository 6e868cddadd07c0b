/-
# RallyPoint.Checkpoint — checkpoint.mjs: the directory of checkpoints.

`putCheckpoint` writes a context under a name of its own, links that file under the digest of the context, and removes
its first name. Every operation of it may fail, and the process may stop at any of them. A file that has its digest's
name was written whole before it got the name and is never written again, so whatever became of the calls, every such
file is read back and names a predecessor that is there (`Sound`).
-/
import RallyPoint.CheckpointFormat
import RallyPoint.Lib.Stoppable

namespace RallyPoint.Checkpoint

open Lib Lib.JsData

/-! ## The directory -/

/-- The entries of the directory, the contents of files by inode, and the next inode. -/
structure Disk where
  names : JsString → Option Nat
  inodes : Nat → List Char
  next : Nat

def Disk.empty : Disk := ⟨fun _ => none, fun _ => [], 0⟩

def Disk.text (d : Disk) (name : JsString) : Option (List Char) := (d.names name).map d.inodes

/-- A name given to an inode, or taken away. -/
def Disk.setEntry (d : Disk) (name : JsString) (entry : Option Nat) : Disk :=
  { d with names := Function.update d.names name entry }

/-- A new file of that text. -/
def Disk.withFile (d : Disk) (name : JsString) (text : List Char) : Disk :=
  ⟨Function.update d.names name (some d.next), Function.update d.inodes d.next text, d.next + 1⟩

/-- No name stands for an inode that is still to come. -/
def Disk.Closed (d : Disk) : Prop := ∀ name i, d.names name = some i → i < d.next

section Entries

variable {d : Disk} {name name' : JsString} {entry : Option Nat} {text : List Char}

theorem Disk.text_setEntry_self : (d.setEntry name entry).text name = entry.map d.inodes :=
  by
  show Option.map d.inodes (Function.update d.names name entry name) = _
  rw [Function.update_self]

theorem Disk.text_setEntry_of_ne (h : name' ≠ name) : (d.setEntry name entry).text name' = d.text name' := by
  show Option.map d.inodes (Function.update d.names name entry name') = _
  rw [Function.update_of_ne h, Disk.text]

theorem Disk.Closed.setEntry (hclosed : d.Closed) (h : ∀ i, entry = some i → i < d.next) :
    (d.setEntry name entry).Closed := by
  intro name' i hi
  have hi' : Function.update d.names name entry name' = some i := hi
  by_cases hname : name' = name
  · subst hname
    rw [Function.update_self] at hi'
    exact h i hi'
  · rw [Function.update_of_ne hname] at hi'
    exact hclosed name' i hi'

theorem Disk.text_withFile_of_ne (hclosed : d.Closed) (h : name' ≠ name) :
    (d.withFile name text).text name' = d.text name' := by
  show Option.map (Function.update d.inodes d.next text) (Function.update d.names name (some d.next) name') = _
  rw [Function.update_of_ne h, Disk.text]
  cases hname : d.names name' with
  | none => rfl
  | some i => rw [Option.map_some, Option.map_some, Function.update_of_ne (Nat.ne_of_lt (hclosed name' i hname))]

theorem Disk.Closed.withFile (hclosed : d.Closed) : (d.withFile name text).Closed := by
  intro name' i hi
  have hi' : Function.update d.names name (some d.next) name' = some i := hi
  show i < d.next + 1
  by_cases hname : name' = name
  · subst hname
    rw [Function.update_self] at hi'
    obtain rfl := Option.some.inj hi'
    exact Nat.lt_succ_self _
  · rw [Function.update_of_ne hname] at hi'
    exact Nat.lt_succ_of_lt (hclosed name' i hi')

end Entries

abbrev Action (α : Type) := Prog Disk Failure α

/-! ## File operations -/

/-- `mkdirSync`, `fsyncSync`, `closeSync`, `openSync` of the directory: no name and no content changes. -/
def touch : Action Unit := Prog.op fun d => .ok ((), d)

/-- `openSync(path, O_RDONLY | O_NOFOLLOW)`. -/
def openRead (name : JsString) : Action Nat := Prog.op fun d =>
  match d.names name with
  | some fd => .ok (fd, d)
  | none => .error (.system "ENOENT")

/-- `fstatSync(fd).size`. -/
def fstatSize (fd : Nat) : Action Nat := Prog.op fun d => .ok (charBytes (d.inodes fd), d)

/-- The loop of `readSync`. -/
def readAll (fd : Nat) : Action (List Char) := Prog.op fun d => .ok (d.inodes fd, d)

/-- `openSync(path, 'wx')`. -/
def openNew (name : JsString) : Action Nat := Prog.op fun d =>
  match d.names name with
  | some _ => .error (.system "EEXIST")
  | none => .ok (d.next, d.withFile name [])

def writeChar (fd : Nat) (c : Char) : Action Unit := Prog.op fun d =>
  .ok ((), { d with inodes := Function.update d.inodes fd (d.inodes fd ++ [c]) })

/-- `writeFileSync(fd, text)`, which may be left behind any part of the text. -/
def writeFileSync (fd : Nat) : List Char → Action Unit
  | [] => pure ()
  | c :: rest => do
    writeChar fd c
    writeFileSync fd rest

def linkSync (existing new : JsString) : Action Unit := Prog.op fun d =>
  match d.names existing, d.names new with
  | none, _ => .error (.system "ENOENT")
  | some _, some _ => .error (.system "EEXIST")
  | some fd, none => .ok ((), d.setEntry new (some fd))

def unlinkSync (name : JsString) : Action Unit := Prog.op fun d =>
  match d.names name with
  | none => .error (.system "ENOENT")
  | some _ => .ok ((), d.setEntry name none)

/-! ## checkpoint.mjs -/

/-- `${sha256}.json`. -/
def fileName (sha256 : JsString) : JsString := sha256 ++ utf16 ".json"

/-- `.${sha256}.${process.pid}.${...}.tmp`, with the digest of the clock as it was drawn. -/
def tempName (sha256 pid nonce : JsString) : JsString :=
  utf16 "." ++ sha256 ++ utf16 "." ++ pid ++ utf16 "." ++ nonce ++ utf16 ".tmp"

section Programs

variable {N : Numbers}

def readBounded (name : JsString) : Action (JsValue N.Num) := do
  let fd ← openRead name
  Prog.finally_ (do
    let size ← fstatSize fd
    Prog.ofExcept (refuse (decide (size > maxBytes)) "checkpoint must be a bounded regular file")
    let text ← readAll fd
    Prog.ofExcept (parseFile text)) touch

variable (digest : List Char → JsString)

def readCheckpoint (name : JsString) (expected : JsValue N.Num) : Action (JsValue N.Num) := do
  let envelope ← readBounded name
  Prog.ofExcept (checkEnvelope digest expected envelope)

/-- `{ key: c.key, ... }`; a property that is undefined is as good as none. -/
def pick (c : JsValue N.Num) (keys : List String) : JsValue N.Num :=
  .object (keys.filterMap fun key => (get c key).map (Prod.mk (utf16 key)))

/-- `${v}`. -/
def templateText (v : Option (JsValue N.Num)) : Except Failure JsString :=
  match v with
  | none => .ok (utf16 "undefined")
  | some v =>
    match toText v with
    | some s => .ok s
    | none => .error .typeError

/-- The generation of a context, which is a safe integer wherever this is asked. -/
def generation (c : Option (JsValue N.Num)) : Option Int := safeInteger (field c "generation")

/-- The first thing `putCheckpoint` does behind `mkdirSync`. -/
def checkPredecessor (c : JsValue N.Num) : Action Unit :=
  if truthy (get c "previous") then do
    let previous ← Prog.ofExcept (templateText (get c "previous"))
    let prior ← readCheckpoint digest (fileName previous) (pick c ["run_id", "task_id"])
    Prog.ofExcept (refuse (!strictEquals (get prior "sha256") (get c "previous"))
      "checkpoint predecessor digest differs from requested hash")
    Prog.ofExcept (refuse (decide ((generation (get prior "checkpoint")).map (· + 1) ≠ generation (some c)))
      "checkpoint generation gap")
  else pure ()

/-- The file that was written gets its digest's name, unless a file has it that is the checkpoint. -/
def linkCheckpoint (temp : JsString) (c : JsValue N.Num) (sha256 : JsString) : Action Unit :=
  Prog.catching (linkSync temp (fileName sha256)) fun e =>
    if e = .system "EEXIST" then do
      let existing ← readCheckpoint digest (fileName sha256) c
      Prog.ofExcept (refuse (!strictEquals (get existing "sha256") (some (.string sha256)))
        "existing checkpoint digest differs from filename")
    else Prog.throw e

def syncDirectory : Action Unit := do
  touch
  Prog.finally_ touch touch

/-- What `putCheckpoint` returns: the file's name in the directory, and the digest. -/
structure PutResult where
  path : JsString
  sha256 : JsString
  deriving DecidableEq

def putCheckpoint (c : JsValue N.Num) (pid nonce : JsString) : Action PutResult := do
  let serialized ← Prog.ofExcept (validateCheckpoint (some c) (.object []))
  let sha256 := digest serialized
  touch
  checkPredecessor digest c
  let temp := tempName sha256 pid nonce
  let fd ← openNew temp
  Prog.finally_ (do
    writeFileSync fd (fileText digest c)
    touch) touch
  Prog.finally_ (do
    linkCheckpoint digest temp c sha256
    syncDirectory) (unlinkSync temp)
  return ⟨fileName sha256, sha256⟩

/-! ## Names -/

theorem fileName_injective {a b : JsString} (h : fileName a = fileName b) : a = b := List.append_cancel_right h

theorem fileName_ne_tempName (h sha256 pid nonce : JsString) : fileName h ≠ tempName sha256 pid nonce := by
  intro heq
  have hjson : (utf16 ".json").getLast? = some 0x6e := by decide +kernel
  have htmp : (utf16 ".tmp").getLast? = some 0x70 := by decide +kernel
  have hlast := congrArg List.getLast? heq
  rw [fileName, tempName, List.getLast?_append, List.getLast?_append, hjson, htmp] at hlast
  exact absurd (Option.some.inj hlast) (by decide)

/-! ## Reading -/

/-- What a reader finds under a name. -/
def Reads (d : Disk) (name : JsString) (expected e : JsValue N.Num) : Prop :=
  ∃ text, d.text name = some text ∧ parseFile text = .ok e ∧ checkEnvelope digest expected e = .ok e

variable {digest}

theorem triple_touch {P R : Disk → Prop} (h : ∀ d, P d → R d) : Prog.Triple P touch (fun _ => P) R :=
  Prog.triple_op (fun _ _ _ hd hact => by
    cases hact
    exact hd) h

theorem triple_readBounded {P R : Disk → Prop} {name : JsString} (h : ∀ d, P d → R d) :
    Prog.Triple P (readBounded name : Action (JsValue N.Num))
      (fun e d => P d ∧ ∃ text, d.text name = some text ∧ parseFile text = .ok e) R := by
  have hopen : Prog.Triple P (openRead name) (fun fd d => P d ∧ d.names name = some fd) R := by
    refine Prog.triple_op (fun d fd d' hd hact => ?_) h
    split at hact
    · next fd hfd =>
      cases hact
      exact ⟨hd, hfd⟩
    · cases hact
  refine Prog.triple_bind hopen fun fd => ?_
  refine Prog.triple_finally (R := R) (Q := fun e d => P d ∧ ∃ text, d.text name = some text ∧ parseFile text = .ok e)
    ?_ (fun e => triple_touch fun d hd => h d hd.1) (triple_touch fun _ hd => hd) fun _ hd => hd
  have hleft : ∀ d, P d ∧ d.names name = some fd → R d := fun d hd => h d hd.1
  refine Prog.triple_bind (M := fun _ d => P d ∧ d.names name = some fd)
    (Prog.triple_op (fun d _ _ hd hact => by cases hact; exact hd) hleft) fun size => ?_
  refine Prog.triple_bind (M := fun _ d => P d ∧ d.names name = some fd)
    (Prog.triple_ofExcept (fun _ _ _ hd => hd) hleft) fun _ => ?_
  refine Prog.triple_bind (M := fun text d => P d ∧ d.text name = some text)
    (Prog.triple_op (fun d _ _ hd hact => by cases hact; exact ⟨hd.1, congrArg (Option.map d.inodes) hd.2⟩) hleft)
    fun text => ?_
  exact Prog.triple_ofExcept (fun e he d hd => ⟨hd.1, text, hd.2, he⟩) fun d hd => h d hd.1

theorem triple_readCheckpoint {P R : Disk → Prop} {name : JsString} {expected : JsValue N.Num} (h : ∀ d, P d → R d) :
    Prog.Triple P (readCheckpoint digest name expected) (fun e d => P d ∧ Reads digest d name expected e) R := by
  refine Prog.triple_bind (triple_readBounded h) fun e => Prog.triple_ofExcept ?_ fun d hd => h d hd.1
  rintro e' hcheck d ⟨hd, text, htext, hparse⟩
  obtain rfl := ((checkEnvelope_ok_iff digest).mp hcheck).1
  exact ⟨hd, text, htext, hparse, hcheck⟩

/-- Undisturbed, a reader returns what there is. -/
theorem run_readCheckpoint {d : Disk} {name : JsString} {expected e : JsValue N.Num}
    (h : Reads digest d name expected e) : (readCheckpoint digest name expected).run d = (.ok e, d) := by
  obtain ⟨text, htext, hparse, hcheck⟩ := h
  obtain ⟨fd, hfd, rfl⟩ := Option.map_eq_some_iff.mp htext
  have hsize : refuse (decide (charBytes (d.inodes fd) > maxBytes)) "checkpoint must be a bounded regular file" =
      .ok () := by
    rw [refuse_ok_iff, decide_eq_false_iff_not]
    intro hlarge
    rw [parseFile, if_pos hlarge] at hparse
    cases hparse
  have hopen : openRead name [] d = (.ok fd, [], d) := Prog.op_of_ok (by rw [hfd])
  have hclose : touch [] d = (.ok (), [], d) := rfl
  have hread : (readBounded name : Action (JsValue N.Num)) [] d = (.ok e, [], d) := by
    rw [readBounded, Prog.bind_of_ok hopen]
    refine Prog.finally_of_ok ?_ hclose
    rw [Prog.bind_of_ok (rfl : fstatSize fd [] d = (.ok (charBytes (d.inodes fd)), [], d)), hsize,
      Prog.bind_of_ok rfl, Prog.bind_of_ok (rfl : readAll fd [] d = (.ok (d.inodes fd), [], d)), hparse]
    rfl
  refine Prog.run_of_ok ?_
  rw [readCheckpoint, Prog.bind_of_ok hread, hcheck]
  rfl

/-! ## Sound directories -/

variable (digest)

/-- The checkpoint under a digest. -/
def StoredAs (d : Disk) (h : JsString) (e c : JsValue N.Num) : Prop :=
  ∃ text, d.text (fileName h) = some text ∧ parseFile text = .ok e ∧ Carries digest (.object []) e h c

/-- A context is the first one, or the one that it names as its predecessor is there. -/
def Linked (d : Disk) (c : JsValue N.Num) : Prop :=
  generation (some c) = some 1 ∨ ∃ p e c' n, get c "previous" = some (.string p) ∧ StoredAs digest d p e c' ∧
    generation (some c') = some n ∧ generation (some c) = some (n + 1) ∧
    ∀ key ∈ ["run_id", "task_id"], get c' key = get c key

/-- Every checkpoint is readable and linked. -/
structure Sound (N : Numbers) (d : Disk) : Prop where
  closed : d.Closed
  genuine : ∀ h text, d.text (fileName h) = some text →
    ∃ e c : JsValue N.Num, StoredAs digest d h e c ∧ Linked digest d c

/-- Where a call may have left a directory: at most one checkpoint is new, which is valid and linked. -/
structure After (d₀ : Disk) (c : JsValue N.Num) (d : Disk) : Prop where
  closed : d.Closed
  files : ∀ h, d.text (fileName h) = d₀.text (fileName h) ∨
    (d₀.text (fileName h) = none ∧ h = digest (serialize c) ∧ d.text (fileName h) = some (fileText digest c) ∧
      ValidContext c (.object []) ∧ Linked digest d₀ c)

variable {digest} {d₀ d : Disk} {c : JsValue N.Num}

/-- No stored checkpoint changes. -/
theorem After.kept (h : After digest d₀ c d) {sha256 : JsString} {text : List Char}
    (htext : d₀.text (fileName sha256) = some text) : d.text (fileName sha256) = some text := by
  rcases h.files sha256 with hsame | ⟨hnone, -⟩
  · rw [hsame, htext]
  · rw [hnone] at htext
    cases htext

theorem After.storedAs (h : After digest d₀ c d) {sha256 : JsString} {e c' : JsValue N.Num}
    (hstored : StoredAs digest d₀ sha256 e c') : StoredAs digest d sha256 e c' := by
  obtain ⟨text, htext, hrest⟩ := hstored
  exact ⟨text, h.kept htext, hrest⟩

theorem After.linked (h : After digest d₀ c d) {c' : JsValue N.Num} (hlinked : Linked digest d₀ c') :
    Linked digest d c' := by
  rcases hlinked with hfirst | ⟨p, e, prior, n, hprevious, hstored, hrest⟩
  · exact .inl hfirst
  · exact .inr ⟨p, e, prior, n, hprevious, h.storedAs hstored, hrest⟩

theorem generation_readBack (hwell : WellFormed c) : generation (some (readBack c)) = generation (some c) := by
  show safeInteger (get (readBack c) "generation") = safeInteger (get c "generation")
  rw [get_readBack hwell, safeInteger_readBack]

/-- A context that comes back names the predecessor it named. -/
theorem linked_readBack (hwell : WellFormed c) (hvalid : ValidContext c (.object [])) (h : Linked digest d c) :
    Linked digest d (readBack c) := by
  rcases h with hfirst | ⟨p, e, prior, n, hprevious, hstored, hn, hnext, hids⟩
  · exact .inl ((generation_readBack hwell).trans hfirst)
  · refine .inr ⟨p, e, prior, n, ?_, hstored, hn, (generation_readBack hwell).trans hnext, fun key hkey => ?_⟩
    · rw [get_readBack hwell, hprevious]
      rfl
    · obtain ⟨s, hs, -⟩ := hvalid.ids key hkey
      rw [hids key hkey, get_readBack hwell, hs]
      rfl

/-- The file of a valid context holds it. -/
theorem storedAs_fileText (hwell : WellFormed c) (hvalid : ValidContext c (.object []))
    (hhash : isHash (digest (serialize c)) = true)
    (htext : d.text (fileName (digest (serialize c))) = some (fileText digest c)) :
    StoredAs digest d (digest (serialize c)) (stored (envelope digest c)) (readBack c) :=
  ⟨_, htext, parseFile_fileText digest hwell hvalid hhash,
    carries_envelope digest hwell hvalid hhash fun _ _ => .inl rfl⟩

/-- **Soundness is kept** wherever a call ended. -/
theorem After.sound (h : After digest d₀ c d) (hsound : Sound digest N d₀) (hwell : WellFormed c)
    (hhash : isHash (digest (serialize c)) = true) : Sound digest N d := by
  refine ⟨h.closed, fun sha256 text htext => ?_⟩
  rcases h.files sha256 with hsame | ⟨-, rfl, hnew, hvalid, hlinked⟩
  · rw [hsame] at htext
    obtain ⟨e, c', hstored, hlinked⟩ := hsound.genuine sha256 text htext
    exact ⟨e, c', h.storedAs hstored, h.linked hlinked⟩
  · exact ⟨_, _, storedAs_fileText hwell hvalid hhash hnew, linked_readBack hwell hvalid (h.linked hlinked)⟩

/-! ## The predecessor -/

theorem truthy_of_spells {t : JsString} {v : JsValue N.Num} (h : Spells t v) (ht : isHash t = true) :
    truthy (some v) = true := by
  rw [isHash, Bool.and_eq_true, beq_iff_eq] at ht
  cases h with
  | string =>
    rw [truthy, bne_iff_ne]
    rintro rfl
    exact absurd ht.1 (by decide)
  | @number n hn =>
    have hne : ∀ word : List Char, (word.flatMap encodeChar).length ≠ 64 → N.text n ≠ word := by
      rintro word hword rfl
      rw [hn] at hword
      exact hword ht.1
    rw [truthy, Bool.and_eq_true, bne_iff_ne, bne_iff_ne]
    exact ⟨hne _ (by decide), hne _ (by decide)⟩
  | single _ => rfl

/-- What `readCheckpoint` demands of the predecessor. -/
theorem ids_of_pick {c' : JsValue N.Num} (hvalid : ValidContext c (.object []))
    (h : ValidContext c' (pick c ["run_id", "task_id"])) : ∀ key ∈ ["run_id", "task_id"], get c' key = get c key := by
  obtain ⟨run, hrun, -⟩ := hvalid.ids "run_id" (by simp)
  obtain ⟨task, htask, -⟩ := hvalid.ids "task_id" (by simp)
  have hpick : pick c ["run_id", "task_id"] =
      .object [(utf16 "run_id", .string run), (utf16 "task_id", .string task)] := by
    simp [pick, hrun, htask]
  have hkeys : (List.map (·.1) [(utf16 "run_id", (.string run : JsValue N.Num)),
      (utf16 "task_id", .string task)]).Nodup := by
    have hne : utf16 "run_id" ≠ utf16 "task_id" := by decide +kernel
    simp [hne]
  have hsame : ∀ key s, key ∈ ["run_id", "task_id", "revision"] → get (pick c ["run_id", "task_id"]) key =
      some (.string s) → get c' key = some (.string s) := by
    intro key s hkey hget
    have hexpected := h.expected key hkey
    rw [hget] at hexpected
    rcases hexpected with hnone | hequal
    · cases hnone
    · rcases hc : get c' key with _ | v
      · rw [hc] at hequal
        cases hequal
      · rw [hc] at hequal
        cases v with
        | string t =>
          rw [strictEquals, beq_iff_eq] at hequal
          rw [hequal]
        | _ => cases hequal
  intro key hkey
  rcases List.mem_cons.mp hkey with rfl | hkey
  · rw [hrun]
    exact hsame _ _ (by simp) (by rw [hpick, get_eq_some_iff hkeys]; exact List.mem_cons_self)
  · obtain rfl := List.mem_singleton.mp hkey
    rw [htask]
    exact hsame _ _ (by simp) (by
      rw [hpick, get_eq_some_iff hkeys]
      exact List.mem_cons_of_mem _ List.mem_cons_self)

theorem triple_checkPredecessor {R : Disk → Prop} (hvalid : ValidContext c (.object [])) (hR : R d₀) :
    Prog.Triple (· = d₀) (checkPredecessor digest c) (fun _ d => d = d₀ ∧ Linked digest d₀ c) R := by
  have hleft : ∀ d, d = d₀ → R d := by
    rintro _ rfl
    exact hR
  rw [checkPredecessor]
  by_cases htruthy : truthy (get c "previous") = true
  · rw [if_pos htruthy]
    refine Prog.triple_bind (M := fun t d => d = d₀ ∧ templateText (get c "previous") = .ok t)
      (Prog.triple_ofExcept (fun t ht d hd => ⟨hd, ht⟩) hleft) fun t => ?_
    refine Prog.triple_bind (triple_readCheckpoint fun d hd => hleft d hd.1) fun prior => ?_
    refine Prog.triple_bind (M := fun _ d => (d = d₀ ∧ templateText (get c "previous") = .ok t) ∧
      Reads digest d (fileName t) (pick c ["run_id", "task_id"]) prior ∧
      strictEquals (get prior "sha256") (get c "previous") = true)
      (Prog.triple_ofExcept (fun _ hrefuse d hd => ⟨hd.1, hd.2, (Bool.not_eq_false' _).mp (refuse_ok_iff.mp hrefuse)⟩)
        fun d hd => hleft d hd.1.1) fun _ => ?_
    refine Prog.triple_ofExcept ?_ fun d hd => hleft d hd.1.1
    rintro _ hrefuse d ⟨⟨rfl, ht⟩, ⟨text, htext, hparse, hcheck⟩, hequal⟩
    refine ⟨rfl, .inr ?_⟩
    obtain ⟨-, sha256, c', hcarries⟩ := (checkEnvelope_ok_iff digest).mp hcheck
    rw [hcarries.named, strictEquals_string] at hequal
    rw [hequal] at ht
    obtain rfl : sha256 = t := Except.ok.inj ht
    obtain ⟨n, hn, -⟩ := hcarries.valid.generation
    have hn' : generation (some c') = some n := hn
    rw [refuse_ok_iff, decide_eq_false_iff_not, not_not, hcarries.checkpoint, hn', Option.map_some] at hrefuse
    have hcarries' : Carries digest (.object []) prior sha256 c' :=
      ⟨hcarries.named, hcarries.hash, hcarries.checkpoint, { hcarries.valid with expected := fun _ _ => .inl rfl },
        hcarries.digested⟩
    exact ⟨sha256, prior, c', n, hequal, ⟨text, htext, hparse, hcarries'⟩, hn', hrefuse.symm,
      ids_of_pick hvalid hcarries.valid⟩
  · rw [if_neg htruthy]
    refine Prog.triple_ret fun d hd => ⟨hd, .inl ?_⟩
    -- what is not the first context has a predecessor
    by_contra hlater
    obtain ⟨v, t, hv, hspells, ht⟩ := hvalid.later hlater
    rw [hv, truthy_of_spells hspells ht] at htruthy
    exact htruthy rfl

/-! ## The new file -/

theorem after_refl (hclosed : d₀.Closed) : After digest d₀ c d₀ := ⟨hclosed, fun _ => .inl rfl⟩

theorem after_withFile {temp : JsString} {text : List Char} (hclosed : d₀.Closed) (htemp : ∀ h, fileName h ≠ temp) :
    After digest d₀ c (d₀.withFile temp text) :=
  ⟨hclosed.withFile, fun h => .inl (Disk.text_withFile_of_ne hclosed (htemp h))⟩

theorem triple_openNew {temp : JsString} {R : Disk → Prop} (hR : R d₀) : Prog.Triple (· = d₀) (openNew temp)
    (fun fd d => d = d₀.withFile temp [] ∧ fd = d₀.next) R := by
  refine Prog.triple_op ?_ (by rintro _ rfl; exact hR)
  rintro d fd d' rfl hact
  split at hact
  · cases hact
  · cases hact
    exact ⟨rfl, rfl⟩

/-- Whatever was written when the writing was left, only the new file has changed. -/
theorem triple_writeFileSync {temp : JsString} {R : Disk → Prop} (hR : ∀ text, R (d₀.withFile temp text))
    (text written : List Char) : Prog.Triple (· = d₀.withFile temp written) (writeFileSync d₀.next text)
      (fun _ d => d = d₀.withFile temp (written ++ text)) R := by
  induction text generalizing written with
  | nil =>
    refine Prog.triple_ret ?_
    rintro _ rfl
    rw [List.append_nil]
  | cons c rest ih =>
    have hchar : Prog.Triple (· = d₀.withFile temp written) (writeChar d₀.next c)
        (fun _ d => d = d₀.withFile temp (written ++ [c])) R := by
      refine Prog.triple_op ?_ (by rintro _ rfl; exact hR written)
      rintro d _ d' rfl hact
      cases hact
      simp [Disk.withFile]
    refine Prog.triple_bind hchar fun _ => ?_
    have hrest := ih (written ++ [c])
    rwa [List.append_assoc] at hrest

/-! ## Its digest's name -/

variable (digest) in
/-- What is asked behind the link: the call's checkpoint is there. -/
def Done (d₀ : Disk) (c : JsValue N.Num) (d : Disk) : Prop :=
  After digest d₀ c d ∧ ∃ e c', StoredAs digest d (digest (serialize c)) e (c' : JsValue N.Num)

/-- Names that are no digest's name do not count. -/
theorem Done.setEntry {temp : JsString} (htemp : ∀ h, fileName h ≠ temp) (h : Done digest d₀ c d) :
    Done digest d₀ c (d.setEntry temp none) := by
  have htext : ∀ sha256, (d.setEntry temp none).text (fileName sha256) = d.text (fileName sha256) := fun sha256 =>
    Disk.text_setEntry_of_ne (htemp sha256)
  obtain ⟨⟨hclosed, hfiles⟩, e, c', text, hstored, hrest⟩ := h
  refine ⟨⟨hclosed.setEntry (by rintro _ ⟨⟩), fun sha256 => ?_⟩, e, c', text, (htext _).trans hstored, hrest⟩
  rw [htext]
  exact hfiles sha256

theorem After.setEntry {temp : JsString} (htemp : ∀ h, fileName h ≠ temp) (h : After digest d₀ c d) :
    After digest d₀ c (d.setEntry temp none) := by
  refine ⟨h.closed.setEntry (by rintro _ ⟨⟩), fun sha256 => ?_⟩
  rw [Disk.text_setEntry_of_ne (htemp sha256)]
  exact h.files sha256

/-- The new file under the name of its digest. -/
theorem done_link {temp : JsString} (hclosed : d₀.Closed) (htemp : ∀ h, fileName h ≠ temp) (hwell : WellFormed c)
    (hvalid : ValidContext c (.object [])) (hlinked : Linked digest d₀ c)
    (hhash : isHash (digest (serialize c)) = true)
    (hnew : (d₀.withFile temp (fileText digest c)).names (fileName (digest (serialize c))) = none) :
    Done digest d₀ c ((d₀.withFile temp (fileText digest c)).setEntry (fileName (digest (serialize c)))
      (some d₀.next)) := by
  have hpath : ((d₀.withFile temp (fileText digest c)).setEntry (fileName (digest (serialize c)))
      (some d₀.next)).text (fileName (digest (serialize c))) = some (fileText digest c) := by
    rw [Disk.text_setEntry_self, Option.map_some]
    exact congrArg some (Function.update_self _ _ _)
  refine ⟨⟨hclosed.withFile.setEntry ?_, fun h => ?_⟩, _, _, storedAs_fileText hwell hvalid hhash hpath⟩
  · rintro i hi
    obtain rfl := Option.some.inj hi
    exact Nat.lt_succ_self _
  · by_cases hh : h = digest (serialize c)
    · subst hh
      refine .inr ⟨?_, rfl, hpath, hvalid, hlinked⟩
      rw [← @Disk.text_withFile_of_ne d₀ temp _ (fileText digest c) hclosed (htemp _), Disk.text, hnew]
      rfl
    · refine .inl ?_
      rw [Disk.text_setEntry_of_ne fun heq => hh (fileName_injective heq), Disk.text_withFile_of_ne hclosed (htemp h)]

theorem triple_linkCheckpoint {temp : JsString} (hclosed : d₀.Closed) (htemp : ∀ h, fileName h ≠ temp)
    (hwell : WellFormed c) (hvalid : ValidContext c (.object [])) (hlinked : Linked digest d₀ c)
    (hhash : isHash (digest (serialize c)) = true) :
    Prog.Triple (· = d₀.withFile temp (fileText digest c)) (linkCheckpoint digest temp c (digest (serialize c)))
      (fun _ => Done digest d₀ c) (After digest d₀ c) := by
  have hlink : Prog.Triple (· = d₀.withFile temp (fileText digest c))
      (linkSync temp (fileName (digest (serialize c)))) (fun _ => Done digest d₀ c) (After digest d₀ c) := by
    refine Prog.triple_op ?_ (by rintro _ rfl; exact after_withFile hclosed htemp)
    rintro d _ d' rfl hact
    split at hact
    · cases hact
    · cases hact
    · next fd hfd hnew =>
      cases hact
      obtain rfl : d₀.next = fd := by
        have hself : (d₀.withFile temp (fileText digest c)).names temp = some d₀.next := Function.update_self _ _ _
        rw [hself] at hfd
        exact Option.some.inj hfd
      exact done_link hclosed htemp hwell hvalid hlinked hhash hnew
  refine Prog.triple_catching hlink fun e => ?_
  split
  · refine Prog.triple_bind (triple_readCheckpoint fun _ hd => hd) fun existing =>
      Prog.triple_ofExcept ?_ fun _ hd => hd.1
    rintro _ hrefuse d ⟨hafter, text, htext, hparse, hcheck⟩
    obtain ⟨-, sha256, c', hcarries⟩ := (checkEnvelope_ok_iff digest).mp hcheck
    rw [refuse_ok_iff, Bool.not_eq_false', hcarries.named, strictEquals_string] at hrefuse
    obtain rfl : digest (serialize c) = sha256 := JsValue.string.inj (Option.some.inj hrefuse)
    exact ⟨hafter, existing, c', text, htext, hparse, hcarries.named, hcarries.hash, hcarries.checkpoint,
      { hcarries.valid with expected := fun _ _ => .inl rfl }, hcarries.digested⟩
  · exact Prog.triple_throw fun _ hd => hd

theorem triple_unlinkSync {temp : JsString} {Q R : Disk → Prop} (hQ : ∀ d, Q d → Q (d.setEntry temp none))
    (hR : ∀ d, Q d → R d) : Prog.Triple Q (unlinkSync temp) (fun _ => Q) R := by
  refine Prog.triple_op (fun d _ d' hd hact => ?_) hR
  split at hact
  · cases hact
  · cases hact
    exact hQ d hd

theorem triple_syncDirectory {P R : Disk → Prop} (h : ∀ d, P d → R d) :
    Prog.Triple P syncDirectory (fun _ => P) R :=
  Prog.triple_bind (triple_touch h) fun _ =>
    Prog.triple_finally (triple_touch h) (fun _ => triple_touch h) (triple_touch fun _ hd => hd) fun _ hd => hd

/-- **One call**, wherever it ended: nothing stored has changed and at most its own checkpoint is new; a call that
returned names a checkpoint of its context's digest. -/
theorem triple_putCheckpoint (hclosed : d₀.Closed) (hwell : WellFormed c)
    (hhash : isHash (digest (serialize c)) = true) (pid nonce : JsString) :
    Prog.Triple (· = d₀) (putCheckpoint digest c pid nonce)
      (fun r d => Done digest d₀ c d ∧ r = ⟨fileName (digest (serialize c)), digest (serialize c)⟩)
      (After digest d₀ c) := by
  have hstart : ∀ d, d = d₀ → After digest d₀ c d := by
    rintro _ rfl
    exact after_refl hclosed
  refine Prog.triple_bind (M := fun serialized d => d = d₀ ∧ ValidContext c (.object []) ∧ serialized = serialize c)
    (Prog.triple_ofExcept (fun _ hok d hd => ⟨hd, validateCheckpoint_ok_iff.mp hok⟩) hstart) fun serialized =>
    Prog.triple_of_fact ?_
  rintro ⟨hvalid, rfl⟩
  refine Prog.triple_bind (triple_touch hstart) fun _ => ?_
  refine Prog.triple_bind (triple_checkPredecessor hvalid (hstart d₀ rfl)) fun _ =>
    Prog.triple_of_fact fun hlinked => ?_
  have htemp : ∀ h, fileName h ≠ tempName (digest (serialize c)) pid nonce := fun h => fileName_ne_tempName h _ _ _
  have hfile : ∀ text, After digest d₀ c (d₀.withFile (tempName (digest (serialize c)) pid nonce) text) := fun text =>
    after_withFile hclosed htemp
  refine Prog.triple_bind (triple_openNew (hstart d₀ rfl)) fun fd => Prog.triple_of_fact ?_
  rintro rfl
  -- the whole text, or none of what follows
  have hwrite := triple_writeFileSync hfile (fileText digest c) []
  refine Prog.triple_bind (Prog.triple_finally (Prog.triple_bind hwrite fun _ => triple_touch ?_)
    (fun _ => triple_touch ?_) (triple_touch fun _ hd => hd) fun _ hd => hd) fun _ => ?_
  · rintro _ rfl
    exact hfile _
  · rintro _ rfl
    exact hfile _
  refine Prog.triple_bind (Prog.triple_finally
    (Prog.triple_bind (triple_linkCheckpoint hclosed htemp hwell hvalid hlinked hhash) fun _ =>
      triple_syncDirectory fun _ hd => hd.1)
    (fun _ => triple_unlinkSync (fun d hd => hd.setEntry htemp) fun _ hd => hd.1)
    (triple_unlinkSync (fun d hd => hd.setEntry htemp) fun _ hd => hd) fun _ hd => hd) fun _ => ?_
  exact Prog.triple_ret fun d hd => ⟨hd, rfl⟩

end Programs

/-! ## Runs -/

/-- A call: its context, what its temporary name is made of, and what becomes of its operations. -/
structure Call (N : Numbers) where
  context : JsValue N.Num
  wellFormed : WellFormed context
  pid : JsString
  nonce : JsString
  fates : List (Fate Failure)

section Runs

variable {N : Numbers} (digest : List Char → JsString)

def Call.run (call : Call N) (d : Disk) : End Failure PutResult × Disk :=
  let result := putCheckpoint digest call.context call.pid call.nonce call.fates d
  (result.1, result.2.2)

def runCalls (calls : List (Call N)) (d : Disk) : Disk := calls.foldl (fun d call => (call.run digest d).2) d

/-- What a reader of the directory finds under a digest. -/
def ReadsAs (d : Disk) (h : JsString) (c : JsValue N.Num) : Prop :=
  ∃ e, (readCheckpoint digest (fileName h) (.object [])).run d = (.ok e, d) ∧ get e "sha256" = some (.string h) ∧
    get e "checkpoint" = some c

/-- From a checkpoint of generation `n`, the ones that are named as predecessors have the generations below it down to
the first, and are of the same run and task. -/
inductive Descends (N : Numbers) (d : Disk) (run task : JsString) : Nat → JsString → Prop
  | first {h : JsString} {c : JsValue N.Num} : ReadsAs digest d h c → get c "run_id" = some (.string run) →
      get c "task_id" = some (.string task) → generation (some c) = some 1 → Descends N d run task 1 h
  | next {n : Nat} {h p : JsString} {c : JsValue N.Num} : ReadsAs digest d h c → get c "run_id" = some (.string run) →
      get c "task_id" = some (.string task) → generation (some c) = some (n + 1 : Nat) →
      get c "previous" = some (.string p) → Descends N d run task n p → Descends N d run task (n + 1) h

variable {digest} {d : Disk} (hhash : ∀ text, isHash (digest text) = true)

theorem StoredAs.readsAs {h : JsString} {e c : JsValue N.Num} (hstored : StoredAs digest d h e c) :
    ReadsAs digest d h c := by
  obtain ⟨text, htext, hparse, hcarries⟩ := hstored
  exact ⟨e, run_readCheckpoint ⟨text, htext, hparse, (checkEnvelope_ok_iff digest).mpr ⟨rfl, h, c, hcarries⟩⟩,
    hcarries.named, hcarries.checkpoint⟩

theorem ReadsAs.storedAs {h : JsString} {c : JsValue N.Num} (hreads : ReadsAs digest d h c) :
    ∃ e, StoredAs digest d h e c := by
  obtain ⟨e, hrun, hnamed, hcheckpoint⟩ := hreads
  have htriple : Prog.Triple (· = d) (readCheckpoint digest (fileName h) (.object []))
      (fun e s => s = d ∧ Reads digest s (fileName h) (.object [] : JsValue N.Num) e) fun _ => True :=
    triple_readCheckpoint fun _ _ => trivial
  obtain ⟨hsame, text, htext, hparse, hcheck⟩ := htriple.returned rfl (congrArg Prod.fst hrun)
  rw [hsame] at htext
  obtain ⟨-, sha256, c', hcarries⟩ := (checkEnvelope_ok_iff digest).mp hcheck
  obtain rfl : sha256 = h := JsValue.string.inj (Option.some.inj (hcarries.named.symm.trans hnamed))
  obtain rfl : c' = c := Option.some.inj (hcarries.checkpoint.symm.trans hcheckpoint)
  exact ⟨e, text, htext, hparse, hcarries⟩

/-- One file is one checkpoint. -/
theorem StoredAs.unique {h : JsString} {e e' c c' : JsValue N.Num} (hstored : StoredAs digest d h e c)
    (hstored' : StoredAs digest d h e' c') : e' = e ∧ c' = c := by
  obtain ⟨text, htext, hparse, hcarries⟩ := hstored
  obtain ⟨text', htext', hparse', hcarries'⟩ := hstored'
  obtain rfl : text = text' := Option.some.inj (htext.symm.trans htext')
  obtain rfl : e = e' := Except.ok.inj (hparse.symm.trans hparse')
  exact ⟨rfl, Option.some.inj (hcarries'.checkpoint.symm.trans hcarries.checkpoint)⟩

/-- **No gap**: every checkpoint of a sound directory descends to a first one. -/
theorem descends_of_storedAs (hsound : Sound digest N d) {run task : JsString} {n : Nat} {h : JsString}
    {e c : JsValue N.Num} (hstored : StoredAs digest d h e c) (hn : generation (some c) = some (n : Int))
    (hrun : get c "run_id" = some (.string run)) (htask : get c "task_id" = some (.string task)) :
    Descends digest N d run task n h := by
  induction n generalizing h e c with
  | zero =>
    obtain ⟨_, _, _, hcarries⟩ := hstored
    obtain ⟨k, hk, hpos⟩ := hcarries.valid.generation
    have hk' : generation (some c) = some k := hk
    rw [hn] at hk'
    obtain rfl := Option.some.inj hk'
    exact absurd hpos (by decide)
  | succ n ih =>
    obtain ⟨text, htext, -⟩ := id hstored
    obtain ⟨e', c', hstored', hlinked⟩ := hsound.genuine h text htext
    obtain ⟨rfl, rfl⟩ := hstored.unique hstored'
    rcases hlinked with hfirst | ⟨p, prior, c'', k, hprevious, hprior, hk, hnext, hids⟩
    · obtain rfl : n = 0 := by
        have := Option.some.inj (hn.symm.trans hfirst)
        omega
      exact .first hstored.readsAs hrun htask hn
    · have hkn : k = n := by
        have := Option.some.inj (hn.symm.trans hnext)
        omega
      subst hkn
      refine .next hstored.readsAs hrun htask hn hprevious (ih hprior hk ?_ ?_)
      · rw [hids "run_id" (by simp), hrun]
      · rw [hids "task_id" (by simp), htask]

include hhash

theorem after_run (call : Call N) (hclosed : d.Closed) : After digest d call.context (call.run digest d).2 :=
  (triple_putCheckpoint hclosed call.wellFormed (hhash _) call.pid call.nonce).left rfl fun _ _ h => h.1.1

theorem done_run (call : Call N) (hclosed : d.Closed) {r : PutResult} (h : (call.run digest d).1 = .ok r) :
    Done digest d call.context (call.run digest d).2 ∧
      r = ⟨fileName (digest (serialize call.context)), digest (serialize call.context)⟩ :=
  (triple_putCheckpoint hclosed call.wellFormed (hhash _) call.pid call.nonce).returned rfl h

theorem sound_runCalls (calls : List (Call N)) (hsound : Sound digest N d) :
    Sound digest N (runCalls digest calls d) := by
  induction calls generalizing d with
  | nil => exact hsound
  | cons call calls ih => exact ih ((after_run hhash call hsound.closed).sound hsound call.wellFormed (hhash _))

theorem kept_runCalls (calls : List (Call N)) (hsound : Sound digest N d) {h : JsString} {text : List Char}
    (htext : d.text (fileName h) = some text) : (runCalls digest calls d).text (fileName h) = some text := by
  induction calls generalizing d with
  | nil => exact htext
  | cons call calls ih =>
    have hafter := after_run hhash call hsound.closed
    exact ih (hafter.sound hsound call.wellFormed (hhash _)) (hafter.kept htext)

/-- Every checkpoint is some call's. -/
theorem written_runCalls (calls : List (Call N)) (hsound : Sound digest N d) {h : JsString} {text : List Char}
    (htext : (runCalls digest calls d).text (fileName h) = some text) : d.text (fileName h) = some text ∨
      ∃ call ∈ calls, h = digest (serialize call.context) ∧ text = fileText digest call.context := by
  induction calls generalizing d with
  | nil => exact .inl htext
  | cons call calls ih =>
    have hafter := after_run hhash call hsound.closed
    rcases ih (hafter.sound hsound call.wellFormed (hhash _)) htext with hrun | ⟨call', hmem, hcall⟩
    · rcases hafter.files h with hsame | ⟨-, hh, hnew, -⟩
      · exact .inl (hsame ▸ hrun)
      · exact .inr ⟨call, List.mem_cons_self, hh, Option.some.inj (hrun.symm.trans hnew)⟩
    · exact .inr ⟨call', List.mem_cons_of_mem _ hmem, hcall⟩

omit hhash in
theorem sound_empty : Sound digest N Disk.empty := ⟨by rintro _ _ ⟨⟩, by rintro _ _ ⟨⟩⟩

omit hhash in
/-- Contexts with one canonical text come back alike. -/
theorem readBack_of_serialize {c c' : JsValue N.Num} (hwell : WellFormed c) (hwell' : WellFormed c')
    (h : serialize c = serialize c') : readBack c = readBack c' := by
  have hparse : ∀ {v : JsValue N.Num}, WellFormed v → parse N (serialize v) = some (readBack v) := by
    intro v hv
    have hstored := @parse_stringify N (canonical v) (wellFormed_canonical hv) [] fun _ hc =>
      absurd hc List.not_mem_nil
    rwa [List.append_nil] at hstored
  exact Option.some.inj ((hparse hwell).symm.trans ((congrArg (parse N) h).trans (hparse hwell')))

omit hhash in
theorem runCalls_append (before later : List (Call N)) :
    runCalls digest (before ++ later) d = runCalls digest later (runCalls digest before d) := List.foldl_append

/-- The checkpoint of a call that returned, in every directory that later calls leave. -/
theorem readsAs_of_returned {before later : List (Call N)} {call : Call N} {r : PutResult}
    (hcollision : ∀ a ∈ before ++ call :: later, ∀ b ∈ before ++ call :: later,
      digest (serialize a.context) = digest (serialize b.context) → serialize a.context = serialize b.context)
    (h : (call.run digest (runCalls digest before .empty)).1 = .ok r) :
    r.path = fileName r.sha256 ∧
      ReadsAs digest (runCalls digest (before ++ call :: later) .empty) r.sha256 (readBack call.context) := by
  have hempty : Sound digest N .empty := sound_empty
  have hbefore := sound_runCalls hhash before hempty
  obtain ⟨⟨hafter, e, c, text, htext, hparse, hcarries⟩, rfl⟩ := done_run hhash call hbefore.closed h
  refine ⟨rfl, ?_⟩
  have hkept : (runCalls digest (before ++ call :: later) .empty).text (fileName (digest (serialize call.context))) =
      some text := by
    rw [runCalls_append]
    exact kept_runCalls hhash later (hafter.sound hbefore call.wellFormed (hhash _)) htext
  -- the file is a call's, and by its digest this one's
  rcases written_runCalls hhash _ sound_empty hkept with hempty | ⟨call', hmem, hdigest, rfl⟩
  · cases hempty
  · have hsame := hcollision call (List.mem_append_right _ List.mem_cons_self) call' hmem hdigest
    have hc : c = readBack call'.context := Option.some.inj (hcarries.checkpoint.symm.trans
      (get_checkpoint_of_parseFile digest call'.wellFormed hparse))
    rw [readBack_of_serialize call.wellFormed call'.wellFormed hsame, ← hc]
    exact StoredAs.readsAs ⟨_, hkept, hparse, hcarries⟩

/-- **Checkpoint chains are complete.** -/
theorem checkpoint_chains_complete (calls : List (Call N))
    (hcollision : ∀ a ∈ calls, ∀ b ∈ calls, digest (serialize a.context) = digest (serialize b.context) →
      serialize a.context = serialize b.context) :
    (∀ h, (runCalls digest calls .empty).names (fileName h) ≠ none →
      ∃ c, ReadsAs (N := N) digest (runCalls digest calls .empty) h c ∧ digest (serialize c) = h) ∧
    (∀ before call later r, calls = before ++ call :: later →
      (call.run digest (runCalls digest before .empty)).1 = .ok r →
      r.path = fileName r.sha256 ∧
        ReadsAs digest (runCalls digest calls .empty) r.sha256 (readBack call.context) ∧
        stringify (readBack call.context) = stringify (canonical call.context) ∧
        (Exact call.context → readBack call.context = canonical call.context)) ∧
    (∀ h c, ReadsAs (N := N) digest (runCalls digest calls .empty) h c → ∃ n : Nat, ∃ run task,
      generation (some c) = some (n : Int) ∧ get c "run_id" = some (.string run) ∧
        get c "task_id" = some (.string task) ∧ Descends digest N (runCalls digest calls .empty) run task n h) ∧
    (∀ before later, calls = before ++ later → ∀ h text,
      (runCalls digest before .empty).text (fileName h) = some text →
      (runCalls digest calls .empty).text (fileName h) = some text) := by
  have hempty : Sound digest N .empty := sound_empty
  have hsound := sound_runCalls hhash calls hempty
  refine ⟨fun h hname => ?_, ?_, fun h c hreads => ?_, ?_⟩
  · obtain ⟨fd, hfd⟩ := Option.ne_none_iff_exists'.mp hname
    have htext : (runCalls digest calls .empty).text (fileName h) =
        some ((runCalls digest calls .empty).inodes fd) := by
      rw [Disk.text, hfd]
      rfl
    obtain ⟨e, c, hstored, -⟩ := hsound.genuine h _ htext
    obtain ⟨_, _, _, hcarries⟩ := id hstored
    exact ⟨c, hstored.readsAs, hcarries.digested⟩
  · rintro before call later r rfl hreturned
    obtain ⟨hpath, hreads⟩ := readsAs_of_returned hhash hcollision hreturned
    exact ⟨hpath, hreads, stringify_stored _, fun hexact => stored_of_exact (exact_canonical call.wellFormed hexact)⟩
  · obtain ⟨e, hstored⟩ := hreads.storedAs
    obtain ⟨_, _, _, hcarries⟩ := id hstored
    obtain ⟨k, hk, hpos⟩ := hcarries.valid.generation
    obtain ⟨run, hrun, -⟩ := hcarries.valid.ids "run_id" (by simp)
    obtain ⟨task, htask, -⟩ := hcarries.valid.ids "task_id" (by simp)
    have hn : generation (some c) = some (k.toNat : Int) := by
      rw [Int.toNat_of_nonneg (by omega)]
      exact hk
    exact ⟨k.toNat, run, task, hn, hrun, htask, descends_of_storedAs hsound hstored hn hrun htask⟩
  · rintro before later rfl h text htext
    rw [runCalls_append]
    exact kept_runCalls hhash later (sound_runCalls (N := N) hhash before sound_empty) htext

end Runs

namespace CheckpointSample

/-- Numbers by their numerals. -/
def numerals : Numbers where
  Num := { t : List Char // isNumeral t = true }
  text n := n.val
  finite _ := true
  ofNumeral t := if h : isNumeral t = true then ⟨t, h⟩ else ⟨['0'], by decide⟩
  integer n :=
    if n.val.all Char.isDigit then some (n.val.foldl (fun k c => k * 10 + (c.toNat - 48 : Nat)) 0) else none
  isNumeral_text n _ := n.property
  text_ofNumeral n _ := by rw [dif_pos n.property]
  finite_ofNumeral _ _ := rfl
  integer_ofNumeral n _ := by rw [dif_pos n.property]
  text_of_not_finite _ h := by cases h
  integer_of_not_finite _ h := by cases h

/-- A digest that tells texts of even and odd length apart. -/
def parity (text : List Char) : JsString := List.replicate 64 (if text.length % 2 = 0 then 0x61 else 0x62)

theorem isHash_parity (text : List Char) : isHash (parity text) = true := by
  unfold parity
  split <;> decide

def contextKeys : List JsString :=
  [utf16 "schema", utf16 "run_id", utf16 "task_id", utf16 "generation", utf16 "revision", utf16 "goal",
    utf16 "next_action", utf16 "constraints", utf16 "evidence", utf16 "previous"]

def context (generation : { t : List Char // isNumeral t = true }) (goal : String) (previous : JsValue numerals.Num) :
    JsValue numerals.Num :=
  .object (contextKeys.zip [.string (utf16 "agent-rally.checkpoint.v1"), .string (utf16 "host:r1"),
    .string (utf16 "t1"), .number generation, .string (List.replicate 40 0x61), .string (utf16 goal),
    .string (utf16 "test"), .array [], .array [], previous])

theorem wellFormed_context {generation : { t : List Char // isNumeral t = true }} {goal : String}
    {previous : JsValue numerals.Num} (h : WellFormed previous) : WellFormed (context generation goal previous) := by
  have hnames : ∀ key ∈ contextKeys, arrayIndex key = none := by decide +kernel
  have hnodup : contextKeys.Nodup := by decide +kernel
  exact ⟨ownOrder_of_names hnames, hnodup, trivial, trivial, trivial, trivial, trivial, trivial, trivial, trivial,
    trivial, h, trivial⟩

def first : Call numerals where
  context := context ⟨['1'], by decide⟩ "port" .null
  wellFormed := wellFormed_context trivial
  pid := utf16 "7"
  nonce := utf16 "0"
  fates := []

/-- Its predecessor is the first one. -/
def second : Call numerals where
  context := context ⟨['2'], by decide⟩ "go on" (.string (parity (serialize first.context)))
  wellFormed := wellFormed_context trivial
  pid := utf16 "7"
  nonce := utf16 "1"
  fates := []

/-- Behind the two calls the second context is there. -/
theorem second_is_stored : ∃ c, ReadsAs (N := numerals) parity (runCalls parity [first, second] .empty)
    (parity (serialize second.context)) c ∧ parity (serialize c) = parity (serialize second.context) := by
  have hdiffer : parity (serialize first.context) ≠ parity (serialize second.context) := by decide +kernel
  have hcollision : ∀ a ∈ [first, second], ∀ b ∈ [first, second],
      parity (serialize a.context) = parity (serialize b.context) → serialize a.context = serialize b.context := by
    intro a ha b hb
    rw [List.mem_pair] at ha hb
    rcases ha with rfl | rfl <;> rcases hb with rfl | rfl
    · exact fun _ => rfl
    · exact fun h => absurd h hdiffer
    · exact fun h => absurd h.symm hdiffer
    · exact fun _ => rfl
  exact (checkpoint_chains_complete isHash_parity [first, second] hcollision).1 _ (by decide +kernel)

end CheckpointSample

end RallyPoint.Checkpoint
