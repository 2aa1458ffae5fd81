import TypedScript.Proofs.Lowering.Passes
import TypedScript.Proofs.Session.Action
import TypedScript.Session.Build

set_option autoImplicit false

/-!
What compiling a source file does to the files. Whether the target is the source
is decided by the components of the two paths; since a walk ends where the
components say, also through directories that are made on the way, no spelling of
the source's path is written to.
-/

namespace TypedScript

/-- A source is compiled exactly if its check finds no mismatch. -/
theorem compile_output (t : Text) :
    (compile t).output = if (check t).mismatches = [] then some (lower t) else none := by
  unfold compile
  by_cases sound : (check t).mismatches = [] <;> simp [Report.ok, sound]

theorem compile_mismatches (t : Text) : (compile t).mismatches = (check t).mismatches := by
  unfold compile
  by_cases sound : (check t).mismatches = [] <;> simp [Report.ok, sound]

namespace Build

open TypedScript.Action

/-- The path that is to be written: the one that is given, or that of the source with the suffix of
the settings. -/
def targetOf (source : Text) (output : Option Path) (settings : Settings) : Except Failure Path :=
  match output with
  | some path => .ok path
  | none =>
    match (Path.ofText source).withSuffix settings.suffix.toList with
    | .ok path => .ok path
    | .error e => .error (.suffix e)

theorem targetPath_apply (source : Text) (output : Option Path) (settings : Settings) (s : Session) :
    targetPath source output settings s = (targetOf source output settings, s) := by
  unfold targetPath targetOf
  cases output with
  | some path => rfl
  | none => cases (Path.ofText source).withSuffix settings.suffix.toList <;> rfl

theorem compileText_of_error {source : Text} {s : Session} {e : Failure}
    (unreadable : s.files.textAt (Path.ofText source) = .error e) :
    compileText source s = (.error e, s) := by
  simp only [compileText, bind_apply, readText_apply, unreadable]

theorem compileText_of_ok {source t : Text} {s : Session}
    (read : s.files.textAt (Path.ofText source) = .ok t) :
    ∃ events, compileText source s = (.ok (compile t), { s with events := events }) := by
  obtain ⟨events, noted⟩ := s.noteAll_eq (compile t).events
  refine ⟨events, ?_⟩
  simp only [compileText, bind_apply, readText_apply, read, noteAll, modify_apply, noted, pure_apply]

theorem compileText_silent (source : Text) : Silent (compileText source) := by
  intro s
  cases read : s.files.textAt (Path.ofText source) with
  | error e => rw [compileText_of_error read]
  | ok t =>
    obtain ⟨events, compiled⟩ := compileText_of_ok read
    rw [compiled]

/-- Nothing stands in the way of writing: the source is read and has no fault, and the target is
the path of another place. -/
structure Ready (files : FileTree) (source : Text) (output : Option Path) (settings : Settings)
    (t : Text) (target : Path) : Prop where
  read : files.textAt (Path.ofText source) = .ok t
  sound : (check t).mismatches = []
  named : targetOf source output settings = .ok target
  clean : '\x00' ∉ target.text
  apart : files.resolve target ≠ files.resolve (Path.ofText source)

theorem Ready.unique {files : FileTree} {source : Text} {output : Option Path} {settings : Settings}
    {t u : Text} {target other : Path} (first : Ready files source output settings t target)
    (second : Ready files source output settings u other) : t = u ∧ target = other :=
  ⟨Except.ok.inj (first.read.symm.trans second.read),
    Except.ok.inj (first.named.symm.trans second.named)⟩

/-- The ways in which compiling a source file can end, with what it leaves behind. -/
inductive Compilation (source : Text) (output : Option Path) (settings : Settings) (s : Session) :
    Except Failure (Except (List Mismatch) Path) → Session → Prop
  | unreadable {e : Failure} :
      s.files.textAt (Path.ofText source) = .error e →
      Compilation source output settings s (.error e) s
  | faulty {t : Text} {events : List Event} :
      s.files.textAt (Path.ofText source) = .ok t → (check t).mismatches ≠ [] →
      Compilation source output settings s (.ok (.error (check t).mismatches))
        { s with events := events }
  | nameless {t : Text} {e : Failure} {events : List Event} :
      s.files.textAt (Path.ofText source) = .ok t → (check t).mismatches = [] →
      targetOf source output settings = .error e →
      Compilation source output settings s (.error e) { s with events := events }
  | invalid {t : Text} {target : Path} {events : List Event} :
      s.files.textAt (Path.ofText source) = .ok t → (check t).mismatches = [] →
      targetOf source output settings = .ok target → '\x00' ∈ target.text →
      Compilation source output settings s (.error .nullInPath) { s with events := events }
  | refused {t : Text} {target : Path} {events : List Event} :
      s.files.textAt (Path.ofText source) = .ok t → (check t).mismatches = [] →
      targetOf source output settings = .ok target →
      s.files.resolve target = s.files.resolve (Path.ofText source) →
      Compilation source output settings s (.error (.overwritesSource source))
        { s with events := events }
  | stopped {t : Text} {target : Path} {e : Failure} {made : FileTree} {events : List Event} :
      Ready s.files source output settings t target → s.files.Grows made →
      s.files.store? target (Encoding.encode (lower t)) = none →
      Compilation source output settings s (.error e) { s with files := made, events := events }
  | written {t : Text} {target : Path} {files : FileTree} {events : List Event} :
      Ready s.files source output settings t target →
      s.files.Written files target (Encoding.encode (lower t)) →
      s.files.store? target (Encoding.encode (lower t)) = some files →
      Compilation source output settings s (.ok (.ok target))
        { s with files := files, events := events }

theorem compilation_compileFile (source : Text) (output : Option Path) (settings : Settings)
    (s : Session) :
    Compilation source output settings s (compileFile source output settings s).1
      (compileFile source output settings s).2 := by
  cases read : s.files.textAt (Path.ofText source) with
  | error e =>
    simp only [compileFile, bind_apply, compileText_of_error read]
    exact .unreadable read
  | ok t =>
    obtain ⟨events, compiled⟩ := compileText_of_ok read
    simp only [compileFile, bind_apply, compiled, compile_output, compile_mismatches]
    by_cases sound : (check t).mismatches = []
    · simp only [sound, if_true]
      cases named : targetOf source output settings with
      | error e =>
        simp only [bind_apply, targetPath_apply, named]
        exact .nameless read sound named
      | ok target =>
        simp only [bind_apply, targetPath_apply, named]
        by_cases null : '\x00' ∈ target.text
        · simp only [checkPath_of_null null]
          exact .invalid read sound named null
        · simp only [checkPath_of_clean null, get_apply]
          by_cases same : s.files.resolve target = s.files.resolve (Path.ofText source)
          · simp only [same, if_true]
            exact .refused read sound named same
          · simp only [same, if_false]
            have ready : Ready s.files source output settings t target :=
              ⟨read, sound, named, null, same⟩
            rcases writeText_cases target (lower t) { s with events := events } with
              ⟨made, e, grows, -, unstored, stopped⟩ | ⟨files, -, written, stored, done⟩
            · simp only [bind_apply, stopped]
              exact .stopped ready grows unstored
            · obtain ⟨more, noted⟩ := Session.note_eq { s with files := files, events := events }
                (.compiled source target.text)
              simp only [bind_apply, done, note, modify_apply, noted]
              exact .written ready written stored
    · simp only [sound, if_false]
      exact .faulty read sound

namespace Compilation

variable {source : Text} {output : Option Path} {settings : Settings} {s after : Session}
  {outcome : Except Failure (Except (List Mismatch) Path)}

theorem readFile_source (ended : Compilation source output settings s outcome after) :
    after.files.readFile (Path.ofText source) = s.files.readFile (Path.ofText source) := by
  cases ended with
  | unreadable | faulty | nameless | invalid | refused => rfl
  | stopped ready grows =>
    obtain ⟨content, read⟩ := FileTree.exists_readFile_of_textAt ready.read
    rw [read, grows.readFile read]
  | written ready written =>
    obtain ⟨content, read⟩ := FileTree.exists_readFile_of_textAt ready.read
    rw [read, written.readFile_of_ne (Ne.symm ready.apart) read]

theorem entry?_of_ne (ended : Compilation source output settings s outcome after)
    {location : Location} {content : Bytes}
    (found : s.files.entry? location = some (.file content))
    (differs : ∀ target, targetOf source output settings = .ok target →
      s.files.resolve target ≠ location) :
    after.files.entry? location = some (.file content) := by
  cases ended with
  | unreadable | faulty | nameless | invalid | refused => exact found
  | stopped _ grows _ => exact grows.kept location _ found
  | written ready written =>
    exact written.others location _ (Ne.symm (differs _ ready.named)) found

theorem files_eq (ended : Compilation source output settings s outcome after)
    (unwritten : (∃ mismatches, outcome = .ok (.error mismatches)) ∨
      ∀ t target, ¬ Ready s.files source output settings t target) :
    after.files = s.files := by
  cases ended with
  | unreadable | faulty | nameless | invalid | refused => rfl
  | stopped ready _ =>
    rcases unwritten with ⟨mismatches, same⟩ | unready
    · cases same
    · exact absurd ready (unready _ _)
  | written ready _ =>
    rcases unwritten with ⟨mismatches, same⟩ | unready
    · cases same
    · exact absurd ready (unready _ _)

/-- A source without faults is compiled to its target, or something else fails. -/
theorem of_sound (ended : Compilation source output settings s outcome after) {t : Text}
    (read : s.files.textAt (Path.ofText source) = .ok t) (sound : (check t).mismatches = []) :
    ∃ files events, after = { s with files := files, events := events } ∧
      ((∃ target, targetOf source output settings = .ok target ∧ outcome = .ok (.ok target) ∧
          files.readFile target = .ok (Encoding.encode (lower t))) ∨
        ∃ e, outcome = .error e) := by
  cases ended with
  | unreadable unread => exact absurd (unread.symm.trans read) (by simp)
  | faulty first faulty =>
    obtain rfl := Except.ok.inj (first.symm.trans read)
    exact absurd sound faulty
  | nameless | invalid | refused => exact ⟨_, _, rfl, .inr ⟨_, rfl⟩⟩
  | stopped => exact ⟨_, _, rfl, .inr ⟨_, rfl⟩⟩
  | written ready written =>
    obtain rfl := Except.ok.inj (ready.read.symm.trans read)
    exact ⟨_, _, rfl, .inl ⟨_, ready.named, rfl, written.readFile⟩⟩

/-- A path is returned exactly if writing is reached and succeeds, and then it holds the result. -/
theorem returned_iff (ended : Compilation source output settings s outcome after) (path : Path) :
    outcome = .ok (.ok path) ↔
      ∃ t, Ready s.files source output settings t path ∧
        s.files.store? path (Encoding.encode (lower t)) = some after.files ∧
        after.files.readFile path = .ok (Encoding.encode (lower t)) := by
  constructor
  · rintro rfl
    cases ended with
    | written ready written stored => exact ⟨_, ready, stored, written.readFile⟩
  · rintro ⟨t, reached, stores, -⟩
    cases ended with
    | unreadable unread => exact absurd (unread.symm.trans reached.read) (by simp)
    | faulty read faulty =>
      obtain rfl := Except.ok.inj (read.symm.trans reached.read)
      exact absurd reached.sound faulty
    | nameless _ _ nameless => exact absurd (nameless.symm.trans reached.named) (by simp)
    | invalid _ _ named null =>
      obtain rfl := Except.ok.inj (named.symm.trans reached.named)
      exact absurd null reached.clean
    | refused _ _ named same =>
      obtain rfl := Except.ok.inj (named.symm.trans reached.named)
      exact absurd same reached.apart
    | stopped ready _ unstored =>
      obtain ⟨rfl, rfl⟩ := ready.unique reached
      exact absurd (unstored.symm.trans stores) (by simp)
    | written ready =>
      obtain ⟨rfl, rfl⟩ := ready.unique reached
      rfl

end Compilation

/-- A source with faults is not compiled. -/
theorem compileFile_of_faulty {source t : Text} (output : Option Path) (settings : Settings)
    {s : Session} (read : s.files.textAt (Path.ofText source) = .ok t)
    (faulty : (check t).mismatches ≠ []) :
    ∃ events, compileFile source output settings s =
      (.ok (.error (check t).mismatches), { s with events := events }) := by
  obtain ⟨events, compiled⟩ := compileText_of_ok read
  refine ⟨events, ?_⟩
  simp only [compileFile, bind_apply, compiled, compile_output, compile_mismatches, faulty, if_false,
    pure_apply]

/-- Compiling never damages its source. The source keeps its content, and so does every file that
is not at the target's place. Nothing at all is changed if mismatches are found or writing is not
reached. A path is returned exactly if the result can be stored there, and then it holds the lowered
source. -/
theorem compileFile_spares_source (source : Text) (output : Option Path) (settings : Settings)
    (s : Session) :
    let outcome := (compileFile source output settings s).1
    let before := s.files
    let after := (compileFile source output settings s).2.files
    after.readFile (Path.ofText source) = before.readFile (Path.ofText source) ∧
      (∀ location content, before.entry? location = some (.file content) →
        (∀ target, targetOf source output settings = .ok target →
          before.resolve target ≠ location) →
        after.entry? location = some (.file content)) ∧
      ((∃ mismatches, outcome = .ok (.error mismatches)) ∨
        (∀ t target, ¬ Ready before source output settings t target) → after = before) ∧
      ∀ path, outcome = .ok (.ok path) ↔
        ∃ t, Ready before source output settings t path ∧
          before.store? path (Encoding.encode (lower t)) = some after ∧
          after.readFile path = .ok (Encoding.encode (lower t)) := by
  have ended := compilation_compileFile source output settings s
  exact ⟨ended.readFile_source, fun _ _ => ended.entry?_of_ne, ended.files_eq, ended.returned_iff⟩

/-- One file, an interpreter that does nothing, and nothing noted or printed so far. -/
def holding (name content : String) : Session where
  files := ⟨[([name.toList], .file (Encoding.encode content.toList))], []⟩
  clock := .whole 1000
  scratch := ⟨.relative, ["tmp".toList]⟩
  children := []
  level := .warning
  events := []
  launches := []
  out := ""
  err := ""

/-- The target may lie behind a directory that is made on the way. -/
theorem compileFile_spares_source_detour :
    (compileFile "a.ds".toList (some (Path.ofText "b/../a.js".toList)) .default
          (holding "a.ds" "mut x: number = 1")).1 = .ok (.ok (Path.ofText "b/../a.js".toList)) ∧
      (compileFile "a.ds".toList (some (Path.ofText "b/../a.js".toList)) .default
          (holding "a.ds" "mut x: number = 1")).2.files.readFile (Path.ofText "b/../a.js".toList) =
        .ok (Encoding.encode (lower "mut x: number = 1".toList)) := by
  have ready : Ready (holding "a.ds" "mut x: number = 1").files "a.ds".toList
      (some (Path.ofText "b/../a.js".toList)) .default "mut x: number = 1".toList
      (Path.ofText "b/../a.js".toList) :=
    ⟨eq_ok_of_toOption (by decide +kernel), by decide +kernel, rfl, by decide, by decide⟩
  have holds : (compileFile "a.ds".toList (some (Path.ofText "b/../a.js".toList)) .default
      (holding "a.ds" "mut x: number = 1")).2.files.readFile (Path.ofText "b/../a.js".toList) =
      .ok (Encoding.encode (lower "mut x: number = 1".toList)) :=
    eq_ok_of_toOption (by decide +kernel)
  refine ⟨?_, holds⟩
  exact ((compileFile_spares_source _ _ _ _).2.2.2 _).mpr ⟨_, ready, by decide +kernel, holds⟩

end Build
end TypedScript
