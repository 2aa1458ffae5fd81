import TypedScript.Proofs.Session.Compilation
import TypedScript.Proofs.Session.Fresh
import TypedScript.Proofs.Settings.Reachable

set_option autoImplicit false

/-!
Running a source file. The script that the interpreter meets is the lowered
source, and it is gone when the run is over, however the launch has ended and
whatever the interpreter has done to the script.
-/

namespace TypedScript

/-- The time limit as it is handed to a launch. -/
def RunOptions.limit (o : RunOptions) : Value := (o.timeout.map Value.float).getD .null

/-- What the next launch meets. -/
def Session.child (s : Session) : Child := s.children.head?.getD Child.default

/-- The session behind a launch, with these files and notes. -/
def Session.launched (s : Session) (launch : Launch) (files : FileTree) (events : List Event) :
    Session :=
  { s with
    files := files
    children := s.children.tail
    launches := s.launches ++ [launch]
    events := events }

namespace Script

open TypedScript.Action

theorem checkRequest_apply {command : List String} {timeout : Value} (filled : command ≠ [])
    (admissible : checkTimeout timeout = .ok ()) (s : Session) :
    checkRequest command timeout s = (.ok (), s) := by
  have present : command.isEmpty = false := by simpa using filled
  simp [checkRequest, present, admissible]

theorem checkTimeout_limit {o : RunOptions} (runnable : o.Runnable) :
    checkTimeout o.limit = .ok () := by
  unfold RunOptions.limit
  cases limited : o.timeout with
  | none => rfl
  | some x => exact if_neg (runnable.timeout x limited)

/-- The status that a launch gives back, or how it fails. -/
def outcome (command : List String) (timeout : Value) : Ending → Except Failure Int
  | .exited status => .ok status
  | .notFound => .error (.launch command "interpreter not found")
  | .notPermitted e => .error (.launch command (e.message (command.head?.getD "").toList))
  | .failed e => .error (.system e (command.head?.getD "").toList)
  | .timedOut => .error (timeoutFailure timeout)

/-- The launch of a command on a script with the given content. -/
def launchOf (command : List String) (timeout : Value) (script : Path) (content : Option Bytes) :
    Launch :=
  ⟨command ++ [String.ofList script.text], timeout, content⟩

theorem launch_apply (command : List String) (timeout : Value) (script : Path) (s : Session) :
    ∃ events, launch command timeout script s = (outcome command timeout s.child.ending,
      s.launched (launchOf command timeout script (s.files.readFile script).toOption)
        (leave s.files script s.child.effect) events) := by
  obtain ⟨events, noted⟩ := s.note_eq (.launching command script.text)
  refine ⟨events, ?_⟩
  simp only [launch, bind_apply, note, modify_apply, noted, get_apply, set_apply]
  unfold Session.child
  cases (s.children.head?.getD Child.default).ending <;> rfl

/-- Whatever the interpreter does to a script, it concerns the script's place alone, and no directory
is put there. -/
theorem leave_script {files : FileTree} {script : Path} {location : Location} {content : Bytes}
    (effect : ScriptEffect) (located : files.locate script = .ok location)
    (found : files.entry? location = some (.file content)) :
    (leave files script effect).locate script = .ok location ∧
      FileTree.entry? (leave files script effect) location ≠ some .directory ∧
      (leave files script effect).erase location = files.erase location := by
  have free : files.entry? location ≠ some .directory := by simp [found]
  have below := FileTree.ne_root_of_not_directory free
  cases effect with
  | keeps => exact ⟨located, free, rfl⟩
  | removes =>
    have removed : leave files script .removes = files.erase location := by
      simp [leave, FileTree.removeFile_of_file located found, Except.toOption]
    rw [removed, FileTree.entry?_erase_self files below]
    exact ⟨(FileTree.KeepsDirectories.erase free).locate located, by simp,
      FileTree.erase_erase files location⟩
  | replaces other =>
    have replaced : leave files script (.replaces other) = files.put location (.file other) := by
      simp [leave, FileTree.writeFile_eq_ok_iff.mpr ⟨location, located, free, rfl⟩, Except.toOption]
    rw [replaced, FileTree.entry?_put_self files _ below]
    exact ⟨(FileTree.KeepsDirectories.put _ free).locate located, by simp,
      FileTree.erase_put files location _⟩

/-- Deleting succeeds where no directory stands, and clears the place. -/
theorem delete_apply {script : Path} {s : Session} {location : Location} (normal : script.Normal)
    (clean : '\x00' ∉ script.text) (located : s.files.locate script = .ok location)
    (free : s.files.entry? location ≠ some .directory) :
    ∃ events, delete script.text s =
      (.ok (), { s with files := s.files.erase location, events := events }) := by
  simp only [delete, bind_apply, Path.ofText_text normal, checkPath_of_clean clean, get_apply]
  match found : s.files.entry? location with
  | some .directory => exact absurd found free
  | some (.file content) =>
    simp only [FileTree.removeFile_of_file located found]
    exact ⟨s.events, rfl⟩
  | none =>
    obtain ⟨events, noted⟩ := s.note_eq (.alreadyRemoved script.text)
    simp only [FileTree.removeFile_of_none located found, Action.note, modify_apply, noted]
    exact ⟨events, by rw [FileTree.erase_of_none found]⟩

/-- A script that has been written is launched once, as it was written, and its place is cleared
behind that. -/
theorem launch_then_delete (command : List String) (timeout : Value) {script : Path} {s : Session}
    {before : FileTree} {content : Bytes} (normal : script.Normal) (clean : '\x00' ∉ script.text)
    (written : before.Written s.files script content) :
    ∃ events, thenAlways (launch command timeout script) (delete script.text) s =
      (outcome command timeout s.child.ending,
        s.launched (launchOf command timeout script (some content))
          (s.files.erase (before.resolve script)) events) := by
  obtain ⟨noted, launched⟩ := launch_apply command timeout script s
  rw [written.readFile, Except.toOption] at launched
  -- However the launch has ended, the deletion meets the file or nothing, but no directory.
  obtain ⟨located, free, cleared⟩ := leave_script s.child.effect written.located written.found
  have deleted := delete_apply normal clean
    (s := s.launched (launchOf command timeout script (some content))
      (leave s.files script s.child.effect) noted) located free
  obtain ⟨events, deleted⟩ := deleted
  refine ⟨events, ?_⟩
  simp only [thenAlways, launched, deleted]
  rw [← cleared]
  rfl

/-- A run fails where its script cannot be written, without a launch; otherwise there is one launch,
whose outcome is that of the run, and the script's place is cleared. No file is left at the script's
path. -/
theorem run_cases (t : Text) {command : List String} {timeout : Value} {base : Option Path}
    {stem : String} {s : Session} (filled : command ≠ [])
    (admissible : checkTimeout timeout = .ok ()) (normal : (freshPath s base stem).Normal) :
    (∃ made e, s.files.Grows made ∧ ¬ made.HasFile (freshPath s base stem) ∧
        s.files.store? (freshPath s base stem) (Encoding.encode t) = none ∧
        run t command timeout base stem s = (.error e, { s with files := made })) ∨
      ∃ stored events,
        s.files.Written stored (freshPath s base stem) (Encoding.encode t) ∧
        s.files.store? (freshPath s base stem) (Encoding.encode t) = some stored ∧
        run t command timeout base stem s = (outcome command timeout s.child.ending,
          s.launched (launchOf command timeout (freshPath s base stem) (some (Encoding.encode t)))
            (stored.erase (s.files.resolve (freshPath s base stem))) events) := by
  simp only [run, bind_apply, checkRequest_apply filled admissible, get_apply]
  rcases writeText_cases (freshPath s base stem) t s with
    ⟨made, e, grows, absent, unstored, stopped⟩ | ⟨stored, clean, written, stores, done⟩
  · refine .inl ⟨made, e, grows, absent (freshPath_parts_ne_nil s base stem), unstored, ?_⟩
    simp only [stopped]
  · obtain ⟨noted, launched⟩ :=
      launch_then_delete command timeout (s := { s with files := stored }) normal clean written
    have child : Session.child { s with files := stored } = s.child := rfl
    rw [child] at launched
    right
    simp only [done, launched]
    cases ended : outcome command timeout s.child.ending with
    | error e => exact ⟨stored, noted, written, stores, rfl⟩
    | ok status =>
      obtain ⟨events, finished⟩ := Session.note_eq
        (s.launched (launchOf command timeout (freshPath s base stem) (some (Encoding.encode t)))
          (stored.erase (s.files.resolve (freshPath s base stem))) noted) (.finished status)
      refine ⟨stored, events, written, stores, ?_⟩
      simp only [note, modify_apply, pure_apply]
      exact congrArg (Prod.mk (Except.ok status)) finished

theorem checkRequest_silent (command : List String) (timeout : Value) :
    Silent (checkRequest command timeout) := by
  intro s
  unfold checkRequest
  by_cases empty : command.isEmpty = true
  · simp only [empty, if_true, bind_apply, throw_apply]
  · simp only [empty]
    cases checkTimeout timeout <;> rfl

theorem launch_silent (command : List String) (timeout : Value) (script : Path) :
    Silent (launch command timeout script) := by
  intro s
  obtain ⟨events, launched⟩ := launch_apply command timeout script s
  rw [launched]
  rfl

theorem delete_silent (name : Text) : Silent (delete name) := by
  unfold delete
  refine .bind (.checkPath _) fun _ => .bind .get fun s => ?_
  split
  · exact fun _ => rfl
  · exact .note _
  · exact .throw _

theorem thenAlways_silent {α : Type} {action : Action α} {last : Action Unit}
    (silent : Silent action) (lastSilent : Silent last) : Silent (thenAlways action last) := by
  intro s
  have ended := (lastSilent (action s).2).trans (silent s)
  cases begun : action s with
  | mk outcome between =>
    rcases closed : last between with ⟨_ | _, after⟩ <;>
      simpa [thenAlways, begun, closed] using ended

/-- A run prints nothing of its own. -/
theorem run_silent (t : Text) (command : List String) (timeout : Value) (base : Option Path)
    (stem : String) : Silent (run t command timeout base stem) := by
  unfold run
  refine .bind (checkRequest_silent command timeout) fun _ => .bind .get fun _ =>
    .bind (.writeText _ _) fun _ => .bind ?_ fun _ => .bind (.note _) fun _ => .pure _
  exact thenAlways_silent (launch_silent command timeout _) (delete_silent _)

end Script

namespace Build

open TypedScript.Action

/-- A source with faults is not run. -/
theorem runFile_of_faulty {source t : Text} (settings : Settings) {s : Session}
    (read : s.files.textAt (Path.ofText source) = .ok t) (faulty : (check t).mismatches ≠ []) :
    ∃ events, runFile source settings s =
      (.ok (.error (check t).mismatches), { s with events := events }) := by
  obtain ⟨events, compiled⟩ := compileText_of_ok read
  refine ⟨events, ?_⟩
  simp only [runFile, bind_apply, compiled, compile_output, compile_mismatches, faulty, if_false,
    pure_apply]

theorem runFile_silent (source : Text) (settings : Settings) : Silent (runFile source settings) := by
  refine .bind (compileText_silent source) fun compiled => ?_
  split
  · exact .pure _
  · refine .bind (Script.run_silent _ _ _ _ _) fun status => ?_
    split
    · exact .bind (.note _) fun _ => .pure _
    · exact .pure _

/-- A source without faults is run, or something else fails; neither prints anything. -/
theorem runFile_of_sound {source t : Text} (settings : Settings) {s : Session}
    (read : s.files.textAt (Path.ofText source) = .ok t) (sound : (check t).mismatches = []) :
    (∃ status after, runFile source settings s = (.ok (.ok status), after) ∧ after.err = s.err) ∨
      ∃ e after, runFile source settings s = (.error e, after) ∧ after.err = s.err := by
  obtain ⟨noted, compiled⟩ := compileText_of_ok read
  have silent := runFile_silent source settings s
  simp only [runFile, bind_apply, compiled, compile_output, sound, if_true] at silent ⊢
  split at silent
  next status after ran =>
    by_cases zero : status = 0
    · exact .inl ⟨status, after, by simp [zero], by simpa [zero] using silent⟩
    · exact .inl ⟨status, after.note (.exited source status), by simp [zero, bind_apply, note],
        by simpa [zero, bind_apply, note] using silent⟩
  next e after ran => exact .inr ⟨e, after, rfl, silent⟩

/-- The ways in which running a source without faults can end. -/
theorem runFile_cases {source t : Text} {settings : Settings} {s : Session}
    (runnable : settings.run.Runnable) (scratch : s.scratch.Normal)
    (read : s.files.textAt (Path.ofText source) = .ok t) (sound : (check t).mismatches = []) :
    let script := Script.freshPath s settings.run.scratch settings.run.stem
    let program := Encoding.encode (lower t)
    (∃ made e events, ¬ made.HasFile script ∧ s.files.store? script program = none ∧
        runFile source settings s = (.error e, { s with files := made, events := events })) ∨
      ∃ stored files events, s.files.store? script program = some stored ∧
        files.pathExists script = false ∧
        runFile source settings s =
          ((Script.outcome settings.run.command settings.run.limit s.child.ending).map .ok,
            s.launched (Script.launchOf settings.run.command settings.run.limit script (some program))
              files events) := by
  obtain ⟨noted, compiled⟩ := compileText_of_ok read
  have normal := Script.freshPath_normal settings.run.stem scratch runnable.scratch
  have limit : (settings.run.timeout.map Value.float).getD .null = settings.run.limit := rfl
  simp only [runFile, bind_apply, compiled, compile_output, sound, if_true, limit]
  rcases Script.run_cases (lower t) (s := { s with events := noted }) runnable.command
      (Script.checkTimeout_limit runnable) normal with
    ⟨made, e, -, absent, unstored, stopped⟩ | ⟨stored, events, written, stores, launched⟩
  · exact .inl ⟨made, e, noted, absent, unstored, by simp only [stopped]⟩
  · have gone := written.pathExists_erase
    have child : Session.child { s with events := noted } = s.child := rfl
    rw [child] at launched
    right
    simp only [launched]
    cases ended : Script.outcome settings.run.command settings.run.limit s.child.ending with
    | error e => exact ⟨stored, _, events, stores, gone, rfl⟩
    | ok status =>
      by_cases zero : status = 0
      · refine ⟨stored, _, events, stores, gone, ?_⟩
        simp only [zero, ne_eq, not_true, if_false]
        rfl
      · obtain ⟨more, exited⟩ := Session.note_eq (s.launched
          (Script.launchOf settings.run.command settings.run.limit
            (Script.freshPath s settings.run.scratch settings.run.stem)
            (some (Encoding.encode (lower t))))
          (stored.erase (s.files.resolve
            (Script.freshPath s settings.run.scratch settings.run.stem))) events)
          (.exited source status)
        refine ⟨stored, _, more, stores, gone, ?_⟩
        simp only [zero, ne_eq, not_false_eq_true, if_true]
        exact congrArg (Prod.mk (Except.ok (Except.ok status))) exited

/-- A source without faults is run as it is lowered. If the script cannot be stored there is no
launch. Otherwise there is exactly one, of the command of the settings on the script, which holds
the lowered source at that moment, and the run ends as the launch does. The script is gone in the
end. -/
theorem runFile_launches_once (source : Text) {t : Text} {settings : Settings} (s : Session)
    (reachable : settings.Reachable) (scratch : s.scratch.Normal)
    (read : s.files.textAt (Path.ofText source) = .ok t) (sound : (check t).mismatches = []) :
    let script := Script.freshPath s settings.run.scratch settings.run.stem
    let program := Encoding.encode (lower t)
    let ran := runFile source settings s
    ¬ ran.2.files.HasFile script ∧
      match s.files.store? script program with
      | none => (∃ e, ran.1 = .error e) ∧ ran.2.launches = s.launches
      | some _ =>
        ran.2.launches = s.launches ++
            [⟨settings.run.command ++ [String.ofList script.text], settings.run.limit,
              some program⟩] ∧
          ran.2.files.pathExists script = false ∧
          ran.1 =
            (Script.outcome settings.run.command settings.run.limit s.child.ending).map .ok := by
  intro script program ran
  rcases runFile_cases reachable.runnable scratch read sound with
    ⟨made, e, events, absent, unstored, stopped⟩ | ⟨stored, files, events, stores, gone, launched⟩
  · have ended : ran = (.error e, { s with files := made, events := events }) := stopped
    rw [ended, unstored]
    exact ⟨absent, ⟨e, rfl⟩, rfl⟩
  · have ended : ran = _ := launched
    rw [ended, stores]
    exact ⟨FileTree.not_hasFile_of_pathExists gone, rfl, gone, rfl⟩

/-- An interpreter that leaves the script alone. -/
theorem runFile_launches_once_default :
    (runFile "a.ds".toList .default (holding "a.ds" "mut x: number = 1")).1 = .ok (.ok 0) ∧
      (runFile "a.ds".toList .default (holding "a.ds" "mut x: number = 1")).2.launches =
        [⟨["node", "tmp/d_temp_1000000.js"], .null,
          some (Encoding.encode (lower "mut x: number = 1".toList))⟩] ∧
      (runFile "a.ds".toList .default (holding "a.ds" "mut x: number = 1")).2.files.pathExists
        (Path.ofText "tmp/d_temp_1000000.js".toList) = false := by
  have fresh : Script.freshPath (holding "a.ds" "mut x: number = 1") Settings.default.run.scratch
      Settings.default.run.stem = Path.ofText "tmp/d_temp_1000000.js".toList := by decide +kernel
  have storable : ((holding "a.ds" "mut x: number = 1").files.store?
      (Path.ofText "tmp/d_temp_1000000.js".toList)
      (Encoding.encode (lower "mut x: number = 1".toList))).isSome = true := by decide +kernel
  obtain ⟨stored, stores⟩ := Option.isSome_iff_exists.mp storable
  have reachable : Settings.default.Reachable := .read (show Settings.ofData .null = .ok _ from rfl)
  have ran := runFile_launches_once "a.ds".toList (t := "mut x: number = 1".toList)
    (holding "a.ds" "mut x: number = 1") reachable (by decide)
    (eq_ok_of_toOption (by decide +kernel)) (by decide +kernel)
  simp only [fresh, stores] at ran
  exact ⟨ran.2.2.2, ran.2.1, ran.2.2.1⟩

end Build
end TypedScript
