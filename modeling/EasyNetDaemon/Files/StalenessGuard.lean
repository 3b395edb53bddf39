import EasyNetDaemon.Files.TextReads
import EasyNetDaemon.Library.StepRun
import Mathlib.Algebra.Group.Nat.Defs
import Mathlib.Data.List.Nodup

/-!
# Concurrent writers and the staleness guard

Several `fs.write` and `fs.edit` calls on one path, whose file operations are taken in any order:
the question whether the file exists, the comparison of the mtime, the read of the text, the
temporary file and the rename are separate steps, and there is no lock between them. Only a rename
changes what stands under the path. A rename by another call between what a call has looked at and
its own rename is not seen: the call then replaces a version that it has never looked at.
-/

namespace EasyNetDaemon.Files

open Library

/-! ## Calls and their steps -/

/-- What has stood under the path. -/
structure Version where
  attributes : FileAttributes
  content : List UInt8
  deriving DecidableEq

/-- A call of `fs.write` or `fs.edit`. -/
inductive Request
  | write (content : List UInt8) (mode : Option Nat) (expectedMtimeMs : Option Nat)
  | edit (oldString newString : String) (replaceAll : Bool) (expectedMtimeMs : Option Nat)

/-- The `expected_mtime_ms` of a call. -/
def Request.expected : Request → Option Nat
  | .write _ _ expected => expected
  | .edit _ _ _ expected => expected

/-- The request replaces text of the file. -/
def Request.ReplacesText : Request → Prop
  | .write _ _ _ => False
  | .edit old _ _ _ => old ≠ ""

/-- The request creates the file. -/
def Request.Creates : Request → Prop
  | .write _ _ _ => False
  | .edit old _ _ _ => old = ""

/-- What is planned for a text. -/
def textPlan (pathLabel text old new : String) (replaceAll : Bool) : EditPlan :=
  if countOccurrences text old = 0 then
    .stop (.rejected "NotFound" "old_string not found in file" pathLabel
      (.notFound (preview old 80) (RustText.byteLen old.toList)))
  else if countOccurrences text old > 1 && !replaceAll then
    .stop (.rejected "AmbiguousMatch" ("old_string matched multiple positions; pass " ++
      "replace_all=true or include more context") pathLabel
      (.ambiguous (countOccurrences text old) (preview old 80)))
  else .replace (if replaceAll then countOccurrences text old else 1)
    (utf8Bytes (replaceUpTo (if replaceAll then text.length + 1 else 1) text old new).1)

/-- How far a call is: behind its last file operation. -/
inductive Phase
  | start
  /-- `fs.edit` has asked whether the file exists. -/
  | asked (there : Bool)
  /-- `fs.edit` has compared the mtime. -/
  | compared
  /-- `fs.edit` has compared the size. -/
  | sized
  /-- `fs.edit` has the content it is to write. -/
  | planned (content : List UInt8)
  /-- The mode of the new file is known. -/
  | ready (content : List UInt8) (mode : Option Nat)
  /-- The temporary file is written. -/
  | staged (content : List UInt8) (mode : Option Nat)
  | succeeded
  | refused

/-- `fs.edit` has asked whether the file exists. -/
def Phase.hasAsked : Phase → Bool
  | .start | .succeeded | .refused => false
  | _ => true

/-- The mtime has been compared, if it was to be. -/
def Phase.isGuarded : Phase → Bool
  | .compared | .sized | .planned _ | .ready _ _ | .staged _ _ => true
  | .start | .asked _ | .succeeded | .refused => false

/-- The text has been read, if it was to be. -/
def Phase.hasRead : Phase → Bool
  | .planned _ | .ready _ _ | .staged _ _ => true
  | .start | .asked _ | .compared | .sized | .succeeded | .refused => false

/-- `fs.edit` is on its way to the text. -/
def Phase.isReading : Phase → Bool
  | .compared | .sized => true
  | .start | .asked _ | .planned _ | .ready _ _ | .staged _ _ | .succeeded | .refused => false

/-- A call, with the number of renames that there had been when it asked whether the file exists
(and what stood under the path), when it compared the mtime and when it read the text. -/
structure CallState where
  phase : Phase := .start
  askedAt : Option (Nat × Option Version) := none
  comparedAt : Option Nat := none
  readAt : Option Nat := none
  read : Option Version := none

/-- `metadata` of the path, or its content. -/
def statVersion (fails : Bool) (target : Option Version) :
    Except PosixError (FileAttributes × Option (List UInt8)) :=
  if fails then .error (.other "failed")
  else match target with
    | none => .error .notFound
    | some v => .ok (v.attributes, some v.content)

namespace CallState

variable (target : Option Version) (renames : Nat) (fails : Bool) (c : CallState)

/-- The call fails. -/
def refuse : CallState := { c with phase := .refused }

/-- `symlink_metadata`, the guard and the mode of `fs.write`. -/
def compareWrite (content : List UInt8) (mode expected : Option Nat) : CallState :=
  let existing := if fails then none else target.map Version.attributes
  match checkExpectedMtime expected existing with
  | .error _ => c.refuse
  | .ok () => { c with
      phase := .ready content
        ((mode.map fun m => m % 2 ^ 32).or (existing.map fun attributes => attributes.mode % 4096))
      comparedAt := expected.map fun _ => renames }

/-- The guard of `fs.edit`, and what it decides from the existence of the file. -/
def compareEdit (there : Bool) (old new : String) (expected : Option Nat) : CallState :=
  match staleMtime expected (statVersion fails target) "" with
  | some _ => c.refuse
  | none =>
    let c := { c with comparedAt := expected.map fun _ => renames }
    if old = "" then
      if there then c.refuse else { c with phase := .planned (utf8Bytes new) }
    else if !there then c.refuse
    else { c with phase := .compared }

/-- The size check of an edit. -/
def compareSize : CallState :=
  match statVersion fails target with
  | .ok (_, some bytes) =>
    if bytes.length > maxEditFileSize then c.refuse else { c with phase := .sized }
  | _ => c.refuse

/-- The read of `fs.edit`, and what it makes of the text. -/
def readText (old new : String) (replaceAll : Bool) : CallState :=
  match statVersion fails target with
  | .ok (_, some bytes) =>
    match fromUtf8 bytes with
    | none => c.refuse
    | some text =>
      match textPlan "" text old new replaceAll with
      | .replace _ content =>
        { c with phase := .planned content, read := target, readAt := some renames }
      | _ => c.refuse
  | _ => c.refuse

/-- The next file operation of a call, up to its temporary file. -/
def advance (request : Request) : Option CallState :=
  match c.phase, request with
  | .start, .write content mode expected =>
    some (c.compareWrite target renames fails content mode expected)
  | .start, .edit _ _ _ _ =>
    -- `exists` says no as well when it cannot look
    some { c with phase := .asked (!fails && target.isSome), askedAt := some (renames, target) }
  | .asked there, .edit old new _ expected =>
    some (c.compareEdit target renames fails there old new expected)
  | .compared, .edit _ _ _ _ => some (c.compareSize target fails)
  | .sized, .edit old new replaceAll _ => some (c.readText target renames fails old new replaceAll)
  | .planned content, .edit _ _ _ _ =>
    let mode := if fails then none else target.map fun v => v.attributes.mode % 4096
    some { c with phase := .ready content mode }
  | .ready content mode, _ =>
    some (if fails then c.refuse else { c with phase := .staged content mode })
  | _, _ => none

end CallState

/-! ## The system -/

/-- A rename onto the path, with what it has replaced and what its call had read. -/
structure Commit where
  call : Nat
  read : Option Version
  replaced : Option Version
  deriving DecidableEq

/-- The versions that have stood under the path and the renames, the latest first. -/
structure System where
  versions : List Version
  commits : List Commit
  calls : Nat → CallState

/-- A call takes its next file operation, which may fail; a rename gives the mtime. -/
structure FileEvent where
  call : Nat
  fails : Bool
  mtime : Nat

namespace System

/-- The system before the first call. -/
def initial (target : Option Version) : System := ⟨target.toList, [], fun _ => {}⟩

/-- The system with another state of a call. -/
def setCall (s : System) (i : Nat) (c : CallState) : System :=
  { s with calls := Function.update s.calls i c }

/-- The rename, with an mtime that no version has had. -/
def commit (newFile : FileAttributes) (s : System) (i mtime : Nat) (content : List UInt8)
    (mode : Option Nat) : System where
  versions := ⟨⟨mode.getD newFile.mode, some mtime⟩, content⟩ :: s.versions
  commits := ⟨i, (s.calls i).read, s.versions.head?⟩ :: s.commits
  calls := Function.update s.calls i { s.calls i with phase := .succeeded }

variable (newFile : FileAttributes) (requests : Nat → Request)

/-- One file operation of one call. -/
def step (s : System) (e : FileEvent) : Option System :=
  match (s.calls e.call).phase with
  | .staged content mode =>
    if e.fails then some (s.setCall e.call (s.calls e.call).refuse)
    else if s.versions.any fun v => v.attributes.mtimeMs = some e.mtime then none
    else some (s.commit newFile e.call e.mtime content mode)
  | _ => ((s.calls e.call).advance s.versions.head? s.commits.length e.fails
      (requests e.call)).map (s.setCall e.call)

/-- Guarded calls replace the version with their mtime, each version once, edits replace what they
have read, and the calls that create the file replace nothing. -/
structure NoLostUpdate (s : System) : Prop where
  guarded : ∀ c ∈ s.commits, ∀ m, (requests c.call).expected = some m →
    ∃ v, c.replaced = some v ∧ v.attributes.mtimeMs = some m
  once : s.commits.Pairwise fun c c' => ∀ m, (requests c.call).expected = some m →
    (requests c'.call).expected ≠ some m
  edited : ∀ c ∈ s.commits, (requests c.call).ReplacesText → ∃ v, c.read = some v ∧
    c.replaced = some v
  created : ∀ c ∈ s.commits, (requests c.call).Creates → c.replaced = none

/-- When a call renames, no rename has been made since it compared the mtime or read the text, nor,
if it creates the file, since it found that there is none. -/
def Undisturbed (s : System) (e : FileEvent) : Prop :=
  ∀ content mode, (s.calls e.call).phase = .staged content mode → e.fails = false →
    (∀ v ∈ s.versions, v.attributes.mtimeMs ≠ some e.mtime) →
    (∀ k, (s.calls e.call).comparedAt = some k → k = s.commits.length) ∧
      (∀ k, (s.calls e.call).readAt = some k → k = s.commits.length) ∧
      ((requests e.call).Creates → (s.calls e.call).askedAt = some (s.commits.length, none))

variable {newFile requests}

/-! ## What a call knows -/

/-- What a call has seen was the current version at the time. -/
structure CallOk (request : Request) (versions : List Version) (renames : Nat) (c : CallState) :
    Prop where
  compared : ∀ k, c.comparedAt = some k → k ≤ renames ∧ ∃ m v, request.expected = some m ∧
    versions[renames - k]? = some v ∧ v.attributes.mtimeMs = some m
  guarded : c.phase.isGuarded = true → ∀ m, request.expected = some m → ∃ k, c.comparedAt = some k
  read : ∀ k, c.readAt = some k → k ≤ renames ∧ request.ReplacesText ∧
    ∃ v, c.read = some v ∧ versions[renames - k]? = some v
  hasRead : c.phase.hasRead = true → request.ReplacesText → ∃ k, c.readAt = some k
  reading : c.phase.isReading = true → request.ReplacesText
  asked : c.phase.hasAsked = true → request.Creates →
    ∃ k ≤ renames, c.askedAt = some (k, versions[renames - k]?)

variable {request : Request} {versions : List Version} {renames : Nat} {c c' : CallState}

/-- A phase behind which nothing more has been compared or read. -/
theorem CallOk.setPhase {phase : Phase} (h : CallOk request versions renames c)
    (hguarded : phase.isGuarded = true → c.phase.isGuarded = true)
    (hread : phase.hasRead = true → c.phase.hasRead = true)
    (hreading : phase.isReading = true → c.phase.isReading = true)
    (hasked : phase.hasAsked = true → c.phase.hasAsked = true) :
    CallOk request versions renames { c with phase } :=
  ⟨h.compared, fun hphase => h.guarded (hguarded hphase), h.read,
    fun hphase => h.hasRead (hread hphase), fun hphase => h.reading (hreading hphase),
    fun hphase => h.asked (hasked hphase)⟩

theorem CallOk.refuse (h : CallOk request versions renames c) :
    CallOk request versions renames c.refuse :=
  h.setPhase (fun hphase => by cases hphase) (fun hphase => by cases hphase)
    (fun hphase => by cases hphase) (fun hphase => by cases hphase)

/-- A rename moves the versions by one. -/
theorem CallOk.cons (h : CallOk request versions renames c) (v : Version) :
    CallOk request (v :: versions) (renames + 1) c := by
  have hshift : ∀ k ≤ renames, (v :: versions)[renames + 1 - k]? = versions[renames - k]? := by
    intro k hk
    rw [Nat.succ_sub hk, List.getElem?_cons_succ]
  refine ⟨fun k hk => ?_, h.guarded, fun k hk =>
    ?_, h.hasRead, h.reading, fun hphase hcreates => ?_⟩
  · obtain ⟨hle, hknown⟩ := h.compared k hk
    exact ⟨Nat.le_succ_of_le hle, by rw [hshift k hle]; exact hknown⟩
  · obtain ⟨hle, htext, hknown⟩ := h.read k hk
    exact ⟨Nat.le_succ_of_le hle, htext, by rw [hshift k hle]; exact hknown⟩
  · obtain ⟨k, hle, hasked⟩ := h.asked hphase hcreates
    exact ⟨k, Nat.le_succ_of_le hle, by rw [hshift k hle]; exact hasked⟩

theorem checkExpectedMtime_ok {expected : Nat} {existing : Option FileAttributes}
    (h : checkExpectedMtime (some expected) existing = .ok ()) :
    ∃ attributes, existing = some attributes ∧ attributes.mtimeMs = some expected := by
  cases existing with
  | none => cases h
  | some attributes =>
    simp only [checkExpectedMtime, bailIf_eq_ok_iff, decide_eq_false_iff_not, not_not] at h
    exact ⟨attributes, rfl, h⟩

theorem staleMtime_none {expected : Nat} {fails : Bool} {target : Option Version} {label : String}
    (h : staleMtime (some expected) (statVersion fails target) label = none) :
    ∃ v, target = some v ∧ v.attributes.mtimeMs = some expected := by
  unfold statVersion at h
  cases fails with
  | true => cases h
  | false =>
    cases target with
    | none => cases h
    | some v =>
      simp only [staleMtime, Bool.false_eq_true, if_false, ite_eq_left_iff, reduceCtorEq, imp_false,
        not_not] at h
      exact ⟨v, rfl, h⟩

variable {fails : Bool}

/-- The comparison that `comparedAt` stands for. -/
theorem CallOk.compare {phase : Phase} (h : CallOk request versions renames c)
    (hmtime : ∀ m, request.expected = some m →
      ∃ v, versions.head? = some v ∧ v.attributes.mtimeMs = some m)
    (hread : phase.hasRead = true → ¬ request.ReplacesText)
    (hreading : phase.isReading = true → request.ReplacesText)
    (hasked : request.Creates → c.phase.hasAsked = true) :
    CallOk request versions renames
      { c with phase, comparedAt := request.expected.map fun _ => renames } := by
  refine ⟨fun k hk => ?_, fun _ m hm => ⟨renames, ?_⟩, h.read,
    fun hphase htext => absurd htext (hread hphase), hreading,
    fun _ hcreates => h.asked (hasked hcreates) hcreates⟩
  · cases hexpected : request.expected with
    | none => simp [hexpected] at hk
    | some m =>
      rw [hexpected, Option.map_some, Option.some.injEq] at hk
      obtain ⟨v, hv, hm⟩ := hmtime m hexpected
      subst hk
      rw [Nat.sub_self, ← List.head?_eq_getElem?]
      exact ⟨Nat.le_refl _, m, v, rfl, hv, hm⟩
  · rw [hm, Option.map_some]

variable {content : List UInt8} {mode : Option Nat}

theorem CallOk.compareWrite {expected : Option Nat}
    (h : CallOk (.write content mode expected) versions renames c) :
    CallOk (.write content mode expected) versions renames
      (c.compareWrite versions.head? renames fails content mode expected) := by
  unfold CallState.compareWrite
  dsimp only
  split
  · exact h.refuse
  · next hcheck =>
    refine h.compare (fun m hm => ?_) (fun _ htext => htext.elim) (fun hphase => by cases hphase)
      fun hcreates => hcreates.elim
    obtain rfl : expected = some m := hm
    obtain ⟨attributes, hexisting, hmtime⟩ := checkExpectedMtime_ok hcheck
    cases fails with
    | true => cases hexisting
    | false =>
      obtain ⟨v, hv, rfl⟩ := Option.map_eq_some_iff.1 hexisting
      exact ⟨v, hv, hmtime⟩

theorem CallOk.compareEdit {there replaceAll : Bool} {old new : String} {expected : Option Nat}
    (h : CallOk (.edit old new replaceAll expected) versions renames c)
    (hphase : c.phase = .asked there) :
    CallOk (.edit old new replaceAll expected) versions renames
      (c.compareEdit versions.head? renames fails there old new expected) := by
  unfold CallState.compareEdit
  split
  · exact h.refuse
  · next hfresh =>
    have hmtime : ∀ m, (Request.edit old new replaceAll expected).expected = some m →
        ∃ v, versions.head? = some v ∧ v.attributes.mtimeMs = some m := by
      intro m hm
      obtain rfl : expected = some m := hm
      exact staleMtime_none hfresh
    have hasked : c.phase.hasAsked = true := by rw [hphase]; rfl
    dsimp only
    split
    · next hempty =>
      split
      · exact h.compare hmtime (fun hphase => by cases hphase) (fun hphase => by cases hphase)
          fun _ => hasked
      · exact h.compare hmtime (fun _ htext => htext hempty) (fun hphase => by cases hphase)
          fun _ => hasked
    · next hne =>
      split
      · exact h.compare hmtime (fun hphase => by cases hphase) (fun hphase => by cases hphase)
          fun _ => hasked
      · exact h.compare hmtime (fun hphase => by cases hphase) (fun _ => hne) fun _ => hasked

theorem exists_of_statVersion {target : Option Version}
    {found : FileAttributes × Option (List UInt8)} (h : statVersion fails target = .ok found) :
    ∃ v, target = some v := by
  cases target with
  | none => cases fails <;> cases h
  | some v => exact ⟨v, rfl⟩

theorem CallOk.readText {replaceAll : Bool} {old new : String} {expected : Option Nat}
    (h : CallOk (.edit old new replaceAll expected) versions renames c)
    (hphase : c.phase = .sized) :
    CallOk (.edit old new replaceAll expected) versions renames
      (c.readText versions.head? renames fails old new replaceAll) := by
  unfold CallState.readText
  split
  · next bytes hstat =>
    split
    · exact h.refuse
    · split
      · refine ⟨h.compared, fun _ => h.guarded (by rw [hphase]; rfl), ?_,
          fun _ _ => ⟨renames, rfl⟩, (fun hreading => by cases hreading),
          fun _ => h.asked (by rw [hphase]; rfl)⟩
        intro k hk
        cases hk
        obtain ⟨v, hv⟩ := exists_of_statVersion hstat
        refine ⟨Nat.le_refl _, h.reading (by rw [hphase]; rfl), v, hv, ?_⟩
        rw [Nat.sub_self, ← List.head?_eq_getElem?]
        exact hv
      · exact h.refuse
  · exact h.refuse

/-- One operation of a call keeps what is known of it. -/
theorem CallOk.advance (h : CallOk request versions renames c)
    (hadvance : c.advance versions.head? renames fails request = some c') :
    CallOk request versions renames c' := by
  unfold CallState.advance at hadvance
  split at hadvance
  · cases hadvance
    exact h.compareWrite
  · cases hadvance
    refine ⟨h.compared, (fun hphase => by cases hphase), h.read, (fun hphase => by cases hphase),
      (fun hphase => by cases hphase), fun _ _ => ⟨renames, Nat.le_refl _, ?_⟩⟩
    rw [Nat.sub_self, ← List.head?_eq_getElem?]
  · next hphase =>
    cases hadvance
    exact h.compareEdit hphase
  · next hphase =>
    cases hadvance
    unfold CallState.compareSize
    split
    · split
      · exact h.refuse
      · exact h.setPhase (fun _ => by rw [hphase]; rfl) (fun hread => by cases hread)
          (fun _ => by rw [hphase]; rfl) fun _ => by rw [hphase]; rfl
    · exact h.refuse
  · next hphase =>
    cases hadvance
    exact h.readText hphase
  · next hphase =>
    cases hadvance
    exact h.setPhase (fun _ => by rw [hphase]; rfl) (fun _ => by rw [hphase]; rfl)
      (fun hreading => by cases hreading) fun _ => by rw [hphase]; rfl
  · next hphase =>
    cases hadvance
    split
    · exact h.refuse
    · exact h.setPhase (fun _ => by rw [hphase]; rfl) (fun _ => by rw [hphase]; rfl)
        (fun hreading => by cases hreading) fun _ => by rw [hphase]; rfl
  · cases hadvance

/-! ## The invariant -/

/-- The versions have different mtimes, each rename has replaced the version below its own, and the
calls know what they have seen. -/
structure Inv (requests : Nat → Request) (s : System) : Prop where
  distinct : (s.versions.map fun v => v.attributes.mtimeMs).Nodup
  replaced : ∀ j c, s.commits[j]? = some c → c.replaced = s.versions[j + 1]?
  length : s.commits.length ≤ s.versions.length
  calls : ∀ i, CallOk (requests i) s.versions s.commits.length (s.calls i)

variable {s s' : System} {e : FileEvent}

theorem index_unique {j j' : Nat} {v v' : Version}
    (h : (s.versions.map fun v => v.attributes.mtimeMs).Nodup) (hv : s.versions[j]? = some v)
    (hv' : s.versions[j']? = some v') (hsame : v.attributes.mtimeMs = v'.attributes.mtimeMs) :
    j = j' := by
  have hj : j < (s.versions.map fun v => v.attributes.mtimeMs).length := by
    rw [List.length_map]
    exact (List.getElem?_eq_some_iff.1 hv).1
  refine (List.getElem?_inj hj h).1 ?_
  rw [List.getElem?_map, List.getElem?_map, hv, hv', Option.map_some, Option.map_some, hsame]

/-- A step changes one call, or it is a rename. -/
theorem step_cases (h : step newFile requests s e = some s') :
    (∃ c, s' = s.setCall e.call c ∧ (c = (s.calls e.call).refuse ∨
      (s.calls e.call).advance s.versions.head? s.commits.length e.fails (requests e.call) =
        some c)) ∨
    ∃ content mode, (s.calls e.call).phase = .staged content mode ∧ e.fails = false ∧
      (∀ v ∈ s.versions, v.attributes.mtimeMs ≠ some e.mtime) ∧
      s' = s.commit newFile e.call e.mtime content mode := by
  unfold step at h
  split at h
  · next content mode hphase =>
    split at h
    · cases h
      exact Or.inl ⟨_, rfl, Or.inl rfl⟩
    · next hfails =>
      split at h
      · cases h
      · next hfresh =>
        cases h
        refine Or.inr ⟨content, mode, hphase, by simpa using hfails, ?_, rfl⟩
        simpa using hfresh
  · obtain ⟨c, hc, rfl⟩ := Option.map_eq_some_iff.1 h
    exact Or.inl ⟨c, rfl, Or.inr hc⟩

theorem Inv.setCall {c : CallState} {i : Nat} (h : Inv requests s)
    (hc : CallOk (requests i) s.versions s.commits.length c) : Inv requests (s.setCall i c) := by
  refine ⟨h.distinct, h.replaced, h.length, fun j => ?_⟩
  show CallOk (requests j) s.versions s.commits.length (Function.update s.calls i c j)
  by_cases hj : j = i
  · subst hj
    rw [Function.update_self]
    exact hc
  · rw [Function.update_of_ne hj]
    exact h.calls j

theorem Inv.commit {i mtime : Nat} (h : Inv requests s)
    (hfresh : ∀ v ∈ s.versions, v.attributes.mtimeMs ≠ some mtime) :
    Inv requests (s.commit newFile i mtime content mode) := by
  refine ⟨?_, fun j c hc => ?_, Nat.succ_le_succ h.length, fun j => ?_⟩
  · refine List.nodup_cons.2 ⟨fun hmem => ?_, h.distinct⟩
    obtain ⟨v, hv, hsame⟩ := List.mem_map.1 hmem
    exact hfresh v hv hsame
  · cases j with
    | zero =>
      cases hc
      exact List.head?_eq_getElem? ..
    | succ j => exact h.replaced j c hc
  · show CallOk (requests j) (_ :: s.versions) (s.commits.length + 1)
      (Function.update s.calls i { s.calls i with phase := .succeeded } j)
    by_cases hj : j = i
    · subst hj
      rw [Function.update_self]
      exact ((h.calls j).setPhase (fun hphase => by cases hphase) (fun hphase => by cases hphase)
        (fun hphase => by cases hphase) fun hphase => by cases hphase).cons _
    · rw [Function.update_of_ne hj]
      exact (h.calls j).cons _

theorem Inv.step (h : Inv requests s) (hstep : step newFile requests s e = some s') :
    Inv requests s' := by
  rcases step_cases hstep with ⟨c, rfl, rfl | hadvance⟩ | ⟨content, mode, -, -, hfresh, rfl⟩
  · exact h.setCall (h.calls e.call).refuse
  · exact h.setCall ((h.calls e.call).advance hadvance)
  · exact h.commit hfresh

theorem inv_initial (target : Option Version) : Inv requests (initial target) where
  distinct := by cases target <;> simp [initial]
  replaced := nofun
  length := Nat.zero_le _
  calls := fun _ => ⟨nofun, nofun, nofun, nofun, nofun, nofun⟩

/-! ## Lost updates -/

theorem step_of_staged (hphase : (s.calls e.call).phase = .staged content mode)
    (hfails : e.fails = false) (hfresh : ∀ v ∈ s.versions, v.attributes.mtimeMs ≠ some e.mtime) :
    step newFile requests s e = some (s.commit newFile e.call e.mtime content mode) := by
  have hany : (s.versions.any fun v => decide (v.attributes.mtimeMs = some e.mtime)) = false := by
    simpa using hfresh
  simp only [step, hphase, hfails, hany, Bool.false_eq_true, if_false]

/-- A rename that was not disturbed replaces what its call has compared and read. -/
theorem Inv.noLostUpdate_commit (h : Inv requests s) (hlost : NoLostUpdate requests s)
    (hphase : (s.calls e.call).phase = .staged content mode)
    (hcompared : ∀ k, (s.calls e.call).comparedAt = some k → k = s.commits.length)
    (hread : ∀ k, (s.calls e.call).readAt = some k → k = s.commits.length)
    (hasked : (requests e.call).Creates →
      (s.calls e.call).askedAt = some (s.commits.length, none)) :
    NoLostUpdate requests (s.commit newFile e.call e.mtime content mode) := by
  have hcall := h.calls e.call
  have hguarded : ∀ m, (requests e.call).expected = some m →
      ∃ v, s.versions.head? = some v ∧ v.attributes.mtimeMs = some m := by
    intro m hm
    obtain ⟨k, hk⟩ := hcall.guarded (by rw [hphase]; rfl) m hm
    obtain ⟨-, m', v, hm', hv, hmtime⟩ := hcall.compared k hk
    cases hm.symm.trans hm'
    rw [hcompared k hk, Nat.sub_self, ← List.head?_eq_getElem?] at hv
    exact ⟨v, hv, hmtime⟩
  refine ⟨?_, List.pairwise_cons.2 ⟨?_, hlost.once⟩, ?_, ?_⟩
  · intro c hc
    rcases List.mem_cons.1 hc with rfl | hc
    · exact hguarded
    · exact hlost.guarded c hc
  · -- a version that has been replaced is not the current one
    intro c hc m hm hm'
    obtain ⟨j, hj⟩ := List.mem_iff_getElem?.1 hc
    obtain ⟨v, hv, hmtime⟩ := hguarded m hm
    obtain ⟨v', hv', hmtime'⟩ := hlost.guarded c hc m hm'
    rw [h.replaced j c hj] at hv'
    rw [List.head?_eq_getElem?] at hv
    have hindex := index_unique h.distinct hv hv' (hmtime.trans hmtime'.symm)
    omega
  · intro c hc
    rcases List.mem_cons.1 hc with rfl | hc
    · intro htext
      obtain ⟨k, hk⟩ := hcall.hasRead (by rw [hphase]; rfl) htext
      obtain ⟨-, -, v, hv, hversion⟩ := hcall.read k hk
      rw [hread k hk, Nat.sub_self, ← List.head?_eq_getElem?] at hversion
      exact ⟨v, hv, hversion⟩
    · exact hlost.edited c hc
  · intro c hc
    rcases List.mem_cons.1 hc with rfl | hc
    · intro hcreates
      obtain ⟨k, -, hk⟩ := hcall.asked (by rw [hphase]; rfl) hcreates
      have hfound := (hasked hcreates).symm.trans hk
      rw [Option.some.injEq, Prod.mk.injEq] at hfound
      rw [← hfound.1, Nat.sub_self, ← List.head?_eq_getElem?] at hfound
      exact hfound.2.symm
    · exact hlost.created c hc

/-- A rename after which nothing is lost was not disturbed. -/
theorem Inv.undisturbed (h : Inv requests s)
    (hphase : (s.calls e.call).phase = .staged content mode)
    (hlost : NoLostUpdate requests (s.commit newFile e.call e.mtime content mode)) :
    (∀ k, (s.calls e.call).comparedAt = some k → k = s.commits.length) ∧
      (∀ k, (s.calls e.call).readAt = some k → k = s.commits.length) ∧
      ((requests e.call).Creates → (s.calls e.call).askedAt = some (s.commits.length, none)) := by
  have hcall := h.calls e.call
  refine ⟨?_, ?_, ?_⟩
  · intro k hk
    obtain ⟨hle, m, v, hm, hv, hmtime⟩ := hcall.compared k hk
    obtain ⟨v', hv', hmtime'⟩ := hlost.guarded _ List.mem_cons_self m hm
    have hindex := index_unique h.distinct hv ((List.head?_eq_getElem? ..).symm.trans hv')
      (hmtime.trans hmtime'.symm)
    omega
  · intro k hk
    obtain ⟨hle, htext, v, hv, hversion⟩ := hcall.read k hk
    obtain ⟨v', hv', hreplaced⟩ := hlost.edited _ List.mem_cons_self htext
    cases hv.symm.trans hv'
    have hindex := index_unique h.distinct hversion
      ((List.head?_eq_getElem? ..).symm.trans hreplaced) rfl
    omega
  · -- nothing stands under the path, so there has been no rename at all
    intro hcreates
    obtain ⟨k, hle, hk⟩ := hcall.asked (by rw [hphase]; rfl) hcreates
    have hnone : s.versions.head? = none := hlost.created _ List.mem_cons_self hcreates
    have hversions := List.head?_eq_none_iff.1 hnone
    have hcommits : s.commits.length = 0 := by simpa [hversions] using h.length
    have hfirst : k = s.commits.length := by omega
    rw [hk, hversions, List.getElem?_nil, hfirst]

theorem noLostUpdate_initial (target : Option Version) : NoLostUpdate requests (initial target) :=
  ⟨by simp [initial], List.Pairwise.nil, by simp [initial], by simp [initial]⟩

/-- No update is lost in any state of a run exactly if none of its renames is disturbed by another
one since its call compared the mtime, read the text or found that there is no file. -/
theorem no_lost_update_iff (newFile : FileAttributes) (requests : Nat → Request)
    (target : Option Version) (events : List FileEvent) :
    (∀ n s, runSteps (step newFile requests) (initial target) (events.take n) = some s →
      NoLostUpdate requests s) ↔
    AllSteps (step newFile requests) (Undisturbed requests) (initial target) events := by
  refine forall_states_iff_allSteps_of_none
    (I := fun s => Inv requests s ∧ NoLostUpdate requests s) ?_ (fun s h => h.2) ?_ ?_
    ⟨inv_initial target, noLostUpdate_initial target⟩
  · intro s e _ hnone content mode hphase hfails hfresh
    rw [step_of_staged hphase hfails hfresh] at hnone
    cases hnone
  · rintro s e s' ⟨hinv, hlost⟩ hstep hundisturbed
    refine ⟨hinv.step hstep, ?_⟩
    rcases step_cases hstep with ⟨c, rfl, -⟩ | ⟨content, mode, hphase, hfails, hfresh, rfl⟩
    · exact ⟨hlost.guarded, hlost.once, hlost.edited, hlost.created⟩
    · obtain ⟨hcompared, hread, hasked⟩ := hundisturbed content mode hphase hfails hfresh
      exact hinv.noLostUpdate_commit hlost hphase hcompared hread hasked
  · rintro s e s' ⟨hinv, -⟩ hstep hlost content mode hphase hfails hfresh
    rw [step_of_staged hphase hfails hfresh] at hstep
    cases hstep
    exact hinv.undisturbed hphase hlost

/-! ## Two writers -/

/-- Calls with the same expected mtime. -/
def sameExpectation (i : Nat) : Request := .write [UInt8.ofNat i] none (some 1)

/-- Both calls compare the mtime and write their temporary files, and then both rename. -/
def bothCompareFirst : List FileEvent :=
  [⟨0, false, 0⟩, ⟨1, false, 0⟩, ⟨0, false, 0⟩, ⟨1, false, 0⟩, ⟨0, false, 2⟩, ⟨1, false, 3⟩]

/-- An empty file. -/
def firstVersion : Version := ⟨⟨420, some 1⟩, []⟩

/-- Both calls succeed, and the second replaces what the first has written. -/
theorem both_writers_succeed :
    ∃ s, runSteps (step ⟨420, none⟩ sameExpectation) (initial (some firstVersion))
        bothCompareFirst = some s ∧
      s.commits = [⟨1, none, some ⟨⟨420, some 2⟩, [0]⟩⟩, ⟨0, none, some firstVersion⟩] ∧
      ¬ NoLostUpdate sameExpectation s := by
  have hcommits : (runSteps (step ⟨420, none⟩ sameExpectation) (initial (some firstVersion))
      bothCompareFirst).map System.commits =
        some [⟨1, none, some ⟨⟨420, some 2⟩, [0]⟩⟩, ⟨0, none, some firstVersion⟩] := by
    decide +kernel
  obtain ⟨s, hs, hcommits⟩ := Option.map_eq_some_iff.1 hcommits
  refine ⟨s, hs, hcommits, fun h => ?_⟩
  have honce := h.once
  rw [hcommits] at honce
  exact (List.pairwise_cons.1 honce).1 _ List.mem_cons_self 1 rfl rfl

end System

end EasyNetDaemon.Files
