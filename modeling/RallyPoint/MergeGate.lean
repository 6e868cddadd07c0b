/-
# RallyPoint.MergeGate — which changed files the coordination gate counts as claimed (`lib.rs`).

Claims are admitted by the typed scope parser, which knows file and directory scopes, access prefixes and canonical
paths. The merge gate reads the same scopes again as texts: what stands behind `file:` is normalized, and a changed
path is covered when its own text is that one or goes on behind it. So a directory scope covers nothing, a file
scope covers what lies below it, and a scope spelled in another way is not seen.
-/
import RallyPoint.Append
import RallyPoint.ScopePaths
import RallyPoint.ScopedSnapshot

namespace RallyPoint

open Lib

/-! ## The gate -/

section Gate

-- asks the file system where an absolute path lies below the repository's root
variable (repoRelativePath : String → Option String) (snapshot : RoomSnapshot) (tool : String)

/-- The scopes of the active claims of a tool. -/
def claimedScopes : List String :=
  (snapshot.activeClaims.filter fun claim => claim.tool == some tool).flatMap (·.scope)

/-- The texts behind `file:`, normalized. -/
def ownedTexts : List String :=
  (snapshot.activeClaims.filter fun claim => claim.tool == some tool).flatMap fun claim =>
    claim.scope.filterMap fun scope => (stripPrefix "file:" scope).map (normalizePath repoRelativePath)

def coversText (path : String) : Bool :=
  let path := normalizePath repoRelativePath path
  (ownedTexts repoRelativePath snapshot tool).any fun owned => owned == path || startsWith (owned ++ "/") path

/-- `coordination_offenders`: presence, acknowledgement, and the changed paths no claim covers. -/
def coordinationOffenders (changed : List String) : Bool × Bool × List String :=
  (snapshot.squads.any fun squad => squad.tool == tool,
    snapshot.squads.any fun squad => squad.tool == tool && squad.acknowledged,
    changed.filter fun path => !coversText repoRelativePath snapshot tool path)

end Gate

/-! ## What a scope covers, as the parser reads it -/

/-- The file scope of a path. -/
def fileScope (path : String) : ResourceScope := ⟨.file, canonicalPath path, .exclusive⟩

/-- Read as an exclusive file scope of the path. -/
def FileOf (scope path : String) : Prop := parseClaimScope scope = some (fileScope path)

/-- Read as a directory scope, exclusive or with the access a directory has by default, that holds the path. -/
def DirAbove (scope path : String) : Prop :=
  ∃ s, parseClaimScope scope = some s ∧ (s.access = .exclusive ∨ s.access = .namespace) ∧ Holds s (fileScope path)

/-- Some scope of the tool's claims covers the path. -/
def Claimed (snapshot : RoomSnapshot) (tool path : String) : Prop :=
  ∃ scope ∈ claimedScopes snapshot tool, FileOf scope path ∨ DirAbove scope path

/-- The gate reports exactly the changed paths that are not claimed. -/
def MergeGateExact (repoRelativePath : String → Option String) (snapshot : RoomSnapshot) (tool : String)
    (changed : List String) : Prop :=
  ∀ path ∈ changed, path ∈ (coordinationOffenders repoRelativePath snapshot tool changed).2.2 ↔
    ¬ Claimed snapshot tool path

/-! ## The kinds of scopes the two readings differ on -/

section Kinds

variable (repoRelativePath : String → Option String)

/-- Spelled `file:` with the normalized text of the path. -/
def SpelledAs (scope path : String) : Prop :=
  ∃ text, scope = "file:" ++ text ∧ normalizePath repoRelativePath text = normalizePath repoRelativePath path

/-- A file scope whose text is a directory prefix of the path's. -/
def FileAbove (scope path : String) : Prop :=
  ∃ text, scope = "file:" ++ text ∧
    startsWith (normalizePath repoRelativePath text ++ "/") (normalizePath repoRelativePath path) = true

/-- Spelled as the path is, and read as no scope of it: an absolute or climbing spelling, or a blank at an edge. -/
def FileElsewhere (scope path : String) : Prop := SpelledAs repoRelativePath scope path ∧ ¬ FileOf scope path

/-- Read as a file scope of the path, and spelled in another way: an access prefix, or a blank in front. -/
def Respelled (scope path : String) : Prop := FileOf scope path ∧ ¬ SpelledAs repoRelativePath scope path

/-- Spelled and read as a file scope of the path. -/
def FileAt (scope path : String) : Prop := SpelledAs repoRelativePath scope path ∧ FileOf scope path

/-- A path is covered by a scope that both readings know, or the kinds that one of them misses do not decide
alone. -/
def GateReadingsAgree (snapshot : RoomSnapshot) (tool path : String) : Prop :=
  (∃ scope ∈ claimedScopes snapshot tool, FileAt repoRelativePath scope path) ∨
    ((∃ scope ∈ claimedScopes snapshot tool,
        FileAbove repoRelativePath scope path ∨ FileElsewhere repoRelativePath scope path) ↔
      ∃ scope ∈ claimedScopes snapshot tool, DirAbove scope path ∨ Respelled repoRelativePath scope path)

end Kinds

section Spec

variable {repoRelativePath : String → Option String} {snapshot : RoomSnapshot} {tool path scope : String}

theorem mem_ownedTexts {owned : String} :
    owned ∈ ownedTexts repoRelativePath snapshot tool ↔
      ∃ text, "file:" ++ text ∈ claimedScopes snapshot tool ∧ normalizePath repoRelativePath text = owned := by
  simp only [ownedTexts, claimedScopes, List.mem_flatMap, List.mem_filterMap, Option.map_eq_some_iff,
    stripPrefix_eq_some_iff]
  constructor
  · rintro ⟨claim, hclaim, _, hscope, text, rfl, rfl⟩
    exact ⟨text, ⟨claim, hclaim, hscope⟩, rfl⟩
  · rintro ⟨text, ⟨claim, hclaim, hscope⟩, rfl⟩
    exact ⟨claim, hclaim, _, hscope, text, rfl, rfl⟩

/-- **The gate's covering**, scope by scope. -/
theorem coversText_iff :
    coversText repoRelativePath snapshot tool path = true ↔
      ∃ scope ∈ claimedScopes snapshot tool,
        SpelledAs repoRelativePath scope path ∨ FileAbove repoRelativePath scope path := by
  simp only [coversText, List.any_eq_true, mem_ownedTexts, Bool.or_eq_true, beq_iff_eq]
  constructor
  · rintro ⟨_, ⟨text, hmem, rfl⟩, hcover⟩
    refine ⟨_, hmem, ?_⟩
    rcases hcover with heq | hbelow
    · exact Or.inl ⟨text, rfl, heq⟩
    · exact Or.inr ⟨text, rfl, hbelow⟩
  · rintro ⟨_, hmem, ⟨text, rfl, heq⟩ | ⟨text, rfl, hbelow⟩⟩
    · exact ⟨_, ⟨text, hmem, rfl⟩, Or.inl heq⟩
    · exact ⟨_, ⟨text, hmem, rfl⟩, Or.inr hbelow⟩

/-- The two coverings of one path agree exactly when no kind of scope decides alone. -/
theorem covers_iff_claimed :
    (coversText repoRelativePath snapshot tool path = true ↔ Claimed snapshot tool path) ↔
      GateReadingsAgree repoRelativePath snapshot tool path := by
  rw [coversText_iff, Claimed, GateReadingsAgree]
  constructor
  · intro hsame
    by_cases hboth : ∃ scope ∈ claimedScopes snapshot tool, FileAt repoRelativePath scope path
    · exact Or.inl hboth
    · refine Or.inr ⟨?_, ?_⟩
      · rintro ⟨scope, hmem, hcover⟩
        have htext : SpelledAs repoRelativePath scope path ∨ FileAbove repoRelativePath scope path := by
          rcases hcover with habove | helsewhere
          · exact Or.inr habove
          · exact Or.inl helsewhere.1
        obtain ⟨other, hother, hread⟩ := hsame.mp ⟨scope, hmem, htext⟩
        refine ⟨other, hother, ?_⟩
        rcases hread with hfile | hdir
        · exact Or.inr ⟨hfile, fun hspelled => hboth ⟨other, hother, hspelled, hfile⟩⟩
        · exact Or.inl hdir
      · rintro ⟨scope, hmem, hread⟩
        have htyped : FileOf scope path ∨ DirAbove scope path := by
          rcases hread with hdir | hrespelled
          · exact Or.inr hdir
          · exact Or.inl hrespelled.1
        obtain ⟨other, hother, hcover⟩ := hsame.mpr ⟨scope, hmem, htyped⟩
        refine ⟨other, hother, ?_⟩
        rcases hcover with hspelled | habove
        · exact Or.inr ⟨hspelled, fun hfile => hboth ⟨other, hother, hspelled, hfile⟩⟩
        · exact Or.inl habove
  · rintro (⟨scope, hmem, hspelled, hfile⟩ | hkinds)
    · exact ⟨fun _ => ⟨scope, hmem, Or.inl hfile⟩, fun _ => ⟨scope, hmem, Or.inl hspelled⟩⟩
    · constructor
      · rintro ⟨scope, hmem, hcover⟩
        by_cases hfile : FileOf scope path
        · exact ⟨scope, hmem, Or.inl hfile⟩
        · have hkind : FileAbove repoRelativePath scope path ∨ FileElsewhere repoRelativePath scope path := by
            rcases hcover with hspelled | habove
            · exact Or.inr ⟨hspelled, hfile⟩
            · exact Or.inl habove
          obtain ⟨other, hother, hread⟩ := hkinds.mp ⟨scope, hmem, hkind⟩
          rcases hread with hdir | hrespelled
          · exact ⟨other, hother, Or.inr hdir⟩
          · exact ⟨other, hother, Or.inl hrespelled.1⟩
      · rintro ⟨scope, hmem, hread⟩
        by_cases hspelled : SpelledAs repoRelativePath scope path
        · exact ⟨scope, hmem, Or.inl hspelled⟩
        · have hkind : DirAbove scope path ∨ Respelled repoRelativePath scope path := by
            rcases hread with hfile | hdir
            · exact Or.inr ⟨hfile, hspelled⟩
            · exact Or.inl hdir
          obtain ⟨other, hother, hcover⟩ := hkinds.mpr ⟨scope, hmem, hkind⟩
          rcases hcover with habove | helsewhere
          · exact ⟨other, hother, Or.inr habove⟩
          · exact ⟨other, hother, Or.inl helsewhere.1⟩

/-! ## Paths as a diff names them -/

/-- A relative path without anything to walk around, and without a blank at an edge or a `file:` in front. -/
structure DiffPath (p : NormalPath) : Prop where
  relative : p.absolute = false
  nonempty : p.names ≠ []
  trimmed : trim p.text = p.text
  unprefixed : startsWith "file:" p.text = false

theorem foldl_push_names {names : List String} (h : ∀ c ∈ names, IsName c) (parts : List String) :
    names.foldl normalizeComponents.push parts = parts ++ names := by
  induction names generalizing parts with
  | nil => exact (List.append_nil parts).symm
  | cons c names ih =>
    obtain ⟨hempty, hdot, hdots, -⟩ := h c List.mem_cons_self
    have hpush : normalizeComponents.push parts c = parts ++ [c] := by
      simp [normalizeComponents.push, hempty, hdot, hdots]
    rw [List.foldl_cons, hpush, ih fun d hd => h d (List.mem_cons_of_mem c hd), List.append_assoc,
      List.singleton_append]

variable {p x : NormalPath}

theorem normalizePath_text (h : DiffPath p) : normalizePath repoRelativePath p.text = "file:" ++ p.text := by
  have habs : startsWith "/" p.text = false := p.isAbsolute_text.trans h.relative
  have hcomponents : normalizeComponents p.text = p.text := by
    have hpieces : p.pieces = p.names := if_neg h.nonempty
    have hsplit : split '/' p.text = p.names := by
      rw [NormalPath.split_text, h.relative, hpieces]
      rfl
    rw [normalizeComponents, hsplit, foldl_push_names p.valid, List.nil_append, NormalPath.text, h.relative]
    rfl
  unfold normalizePath
  simp only [stripPrefix_eq_none h.unprefixed, stripPrefix_eq_none p.not_startsWith_dot, Option.getD_none, habs,
    Bool.false_eq_true, if_false, hcomponents]
  split <;> rfl

theorem canonicalPath_text (h : DiffPath p) : canonicalPath p.text = p.text := by
  rw [canonicalPath_eq_text, dotless_eq_self p.not_startsWith_dot, NormalPath.of_text]

theorem text_ne_empty (h : DiffPath p) : p.text ≠ "" := by
  intro hempty
  have hempty' : p = ⟨false, [], by simp⟩ := NormalPath.text_inj hempty
  exact h.nonempty (by rw [hempty'])

theorem spelledAs_text_iff (hp : DiffPath p) (hx : DiffPath x) :
    SpelledAs repoRelativePath ("file:" ++ x.text) p.text ↔ x = p := by
  constructor
  · rintro ⟨text, htext, heq⟩
    obtain rfl : x.text = text := String.append_right_inj _ |>.mp htext
    rw [normalizePath_text hp, normalizePath_text hx] at heq
    exact NormalPath.text_inj ((String.append_right_inj _).mp heq)
  · rintro rfl
    exact ⟨x.text, rfl, rfl⟩

theorem fileOf_text (hx : DiffPath x) : FileOf ("file:" ++ x.text) x.text := by
  have hid : canonicalIdentifier .file x.text = x.text := by
    rw [canonicalIdentifier_path rfl, hx.trimmed, canonicalPath_text hx]
  have hparse := parseClaimScope_typed .file x.text
  rw [hid, if_neg (text_ne_empty hx)] at hparse
  rw [FileOf, fileScope, canonicalPath_text hx]
  exact hparse

/-- **Between such paths** the gate sees what lies below a file scope too, and misses no spelling. -/
theorem gate_kinds_of_diffPaths (hp : DiffPath p) (hx : DiffPath x) :
    (FileAt repoRelativePath ("file:" ++ x.text) p.text ↔ x = p) ∧
      (FileAbove repoRelativePath ("file:" ++ x.text) p.text ↔ x.names <+: p.names ∧ x.names ≠ p.names) ∧
      ¬ FileElsewhere repoRelativePath ("file:" ++ x.text) p.text := by
  refine ⟨?_, ?_, ?_⟩
  · constructor
    · exact fun h => (spelledAs_text_iff hp hx).mp h.1
    · rintro rfl
      exact ⟨(spelledAs_text_iff hx hx).mpr rfl, fileOf_text hx⟩
  · have hbelow : startsWith ("file:" ++ x.text ++ "/") ("file:" ++ p.text) = true ↔
        x.names <+: p.names ∧ x.names ≠ p.names := by
      have hcancel : startsWith ("file:" ++ x.text ++ "/") ("file:" ++ p.text) =
          startsWith (x.text ++ "/") p.text := by
        rw [String.append_assoc]
        simp [startsWith, List.isPrefixOf]
      rw [hcancel, NormalPath.startsWith_text_iff hx.nonempty, hx.relative, hp.relative]
      simp
    rw [← hbelow]
    constructor
    · rintro ⟨text, htext, h⟩
      obtain rfl : x.text = text := String.append_right_inj _ |>.mp htext
      rwa [normalizePath_text hp, normalizePath_text hx] at h
    · intro h
      refine ⟨x.text, rfl, ?_⟩
      rwa [normalizePath_text hp, normalizePath_text hx]
  · rintro ⟨hspelled, hfile⟩
    obtain rfl := (spelledAs_text_iff hp hx).mp hspelled
    exact hfile (fileOf_text hx)

end Spec

namespace MergeGateSample

/-- A claim of `codex` on one scope. -/
def room (scope : String) : RoomSnapshot :=
  AppendEnv.sample.snapshot
    [{ kind := .claim, seq := 1, eventId := "c1", subject := "own it", tool := some "codex", scope := [scope],
       createdAt := "2026-01-01T00:00:00Z" }]

theorem claimedScopes_room (scope : String) (h : scope = "dir:src" ∨ scope = "file:src") :
    claimedScopes (room scope) "codex" = [scope] := by
  rcases h with rfl | rfl <;> decide

end MergeGateSample

end RallyPoint
