import TypedScript.CommandLine.Run
import TypedScript.Literal.Reading
import TypedScript.Proofs.Session.Running
import TypedScript.Yaml.Document

set_option autoImplicit false

/-!
Mismatches stop every command in the same way. A command begins by loading its
settings, which depends on the files alone and changes nothing; where that fails
there is one line of error and no effect. Then the source is checked: its
mismatches are printed before anything else, and if there are any, nothing else
happens.
-/

namespace TypedScript

open TypedScript.Action

namespace Build

/-- The entries of the settings file in a tree. -/
def entriesAt (document : ValueReader) (files : FileTree) (path : Path) : Except Failure Entries :=
  if files.pathExists path then do
    match document (← files.textAt path) with
    | .error (.malformed problem) => .error (.settingsDocument problem)
    | .error (.raised e) => .error (.raised e)
    | .ok .null => .ok []
    | .ok (.dict entries) => .ok entries
    | .ok _ => .error .settingsRoot
  else .error (.noSettingsFile path)

/-- The settings that a file and overrides give, or what is wrong with them. -/
def settingsAt (document : ValueReader) (files : FileTree) (path : Option Path) (overrides : Value) :
    Except Failure Settings := do
  let entries ← match path with
    | none => .ok []
    | some path => entriesAt document files path
  let settings ← (Settings.ofEntries entries).mapError .settings
  (settings.mergeData overrides).mapError .settings

theorem settingsEntries_reads (document : ValueReader) (path : Path) :
    Reads (settingsEntries document path) (entriesAt document · path) := by
  intro s
  unfold settingsEntries entriesAt
  by_cases present : s.files.pathExists path = true
  · simp only [bind_apply, get_apply, present, Bool.not_true, Bool.false_eq_true, if_false, if_true,
      readText_apply]
    cases s.files.textAt path with
    | error e => rfl
    | ok t =>
      cases read : document t with
      | error fault => cases fault <;> simp [bind, Except.bind, read]
      | ok value => cases value <;> simp [bind, Except.bind, read]
  · simp [bind_apply, present]

theorem liftSettings_reads (outcome : Except SettingsError Settings) :
    Reads (liftSettings outcome) fun _ => outcome.mapError .settings := by
  intro s
  cases outcome <;> rfl

theorem loadSettings_reads (document : ValueReader) (path : Option Path) (overrides : Value) :
    Reads (loadSettings document path overrides) (settingsAt document · path overrides) := by
  have merged (entries : Entries) := Reads.bind (liftSettings_reads (Settings.ofEntries entries))
    fun settings => liftSettings_reads (settings.mergeData overrides)
  cases path with
  | none => exact merged []
  | some path => exact (settingsEntries_reads document path).bind merged

/-- The mismatches of a source that can be read. -/
theorem checkFile_of_ok {source t : Text} {s : Session}
    (read : s.files.textAt (Path.ofText source) = .ok t) :
    ∃ events, checkFile source s = (.ok (check t).mismatches, { s with events := events }) := by
  obtain ⟨events, noted⟩ := s.noteAll_eq (check t).events
  refine ⟨events, ?_⟩
  simp only [checkFile, bind_apply, readText_apply, read, noteAll, modify_apply, noted, pure_apply]

end Build

namespace CommandLine

/-- The settings for a command line, or what is wrong with its settings file or its overrides. -/
def configured (installed : Installation) (files : FileTree) (invocation : Invocation) :
    Except Failure Settings :=
  match Override.read installed.literal invocation.overrides with
  | .error e => .error (.override e)
  | .ok entries => Build.settingsAt installed.document files invocation.settings (.dict entries)

/-- The messages of mismatches, each on a line of its own. -/
def messages (mismatches : List Mismatch) : String :=
  String.join (mismatches.map fun m => m.message ++ "\n")

/-- The line that reports a failure. -/
def failureLine (failure : Failure) : String := "[dscript] error: " ++ failure.message ++ "\n"

@[simp] theorem messages_nil : messages [] = "" := rfl

theorem report_apply (mismatches : List Mismatch) (s : Session) :
    report mismatches s = (.ok (), { s with err := s.err ++ messages mismatches }) := by
  induction mismatches generalizing s with
  | nil => simp [report, messages]
  | cons first rest ih =>
    have unrolled : report (first :: rest) = complain first.message >>= fun _ => report rest := rfl
    rw [unrolled, bind_apply, complain, modify_apply]
    simp only [ih, messages, List.map_cons, String.join_cons, String.append_assoc]

namespace Command

def source : Command → Path
  | .run source | .compile source _ | .check source => source

/-- What a command does once its settings are there. -/
def carryOut (settings : Settings) : Command → Action Int
  | .run source => runCommand source settings
  | .compile source output => compileCommandOn source output settings
  | .check source => checkCommand source

end Command

theorem perform_apply (installed : Installation) (invocation : Invocation) (s : Session) :
    perform installed invocation s = match configured installed s.files invocation with
      | .ok settings => invocation.command.carryOut settings s
      | .error failure => (.error failure, s) := by
  unfold perform configured
  cases Override.read installed.literal invocation.overrides with
  | error e => rfl
  | ok entries =>
    have loaded :=
      Build.loadSettings_reads installed.document invocation.settings (.dict entries) s
    simp only [bind_apply, pure_apply, loaded]
    cases Build.settingsAt installed.document s.files invocation.settings (.dict entries) <;> rfl

/-- A path that is spelled on a command line is in normal form. -/
theorem readCommand_normal {name : Text} {arguments left : List Text} {command : Command}
    (read : readCommand name arguments = .ok (command, left)) : command.source.Normal := by
  unfold readCommand at read
  split at read
  · obtain ⟨found, -, read⟩ := exists_ok_of_bind read
    cases read
    exact Path.normal_ofText _
  · split at read
    · obtain ⟨found, -, read⟩ := exists_ok_of_bind read
      cases read
      exact Path.normal_ofText _
    · split at read
      · obtain ⟨found, -, read⟩ := exists_ok_of_bind read
        cases read
        exact Path.normal_ofText _
      · contradiction

theorem source_normal {settings : Option Path} {arguments : List Text} {invocation : Invocation}
    (spelled : Invocation.read settings arguments = .ok invocation) :
    invocation.command.source.Normal := by
  obtain ⟨given, -, spelled⟩ := exists_ok_of_bind spelled
  obtain ⟨⟨command, left⟩, read, spelled⟩ := exists_ok_of_bind spelled
  simp only at spelled
  split at spelled
  · cases spelled
    exact readCommand_normal read
  · contradiction

/-- Mismatches are all that a command prints, and all that it does. -/
theorem carryOut_of_faulty {command : Command} (settings : Settings) {s : Session} {t : Text}
    (normal : command.source.Normal) (read : s.files.textAt command.source = .ok t)
    (faulty : (check t).mismatches ≠ []) :
    ∃ events, command.carryOut settings s =
      (.ok 1, { s with err := s.err ++ messages (check t).mismatches, events := events }) := by
  rw [← Path.ofText_text normal] at read
  cases command with
  | run source =>
    obtain ⟨events, ran⟩ := Build.runFile_of_faulty settings read faulty
    refine ⟨events, ?_⟩
    rw [Command.source] at ran
    simp only [Command.carryOut, runCommand, bind_apply, ran, report_apply, pure_apply]
  | compile source output =>
    obtain ⟨events, compiled⟩ := Build.compileFile_of_faulty output settings read faulty
    refine ⟨events, ?_⟩
    rw [Command.source] at compiled
    simp only [Command.carryOut, compileCommandOn, bind_apply, compiled, report_apply, pure_apply]
  | check source =>
    obtain ⟨events, checked⟩ := Build.checkFile_of_ok read
    refine ⟨events, ?_⟩
    rw [Command.source] at checked
    simp [Command.carryOut, checkCommand, bind_apply, checked, report_apply, faulty]

/-- The line that tells of a status other than zero. -/
def exitLine (status : Int) : String :=
  if status = 0 then "" else s!"Execution failed with exit code {status}" ++ "\n"

theorem checkCommand_of_sound {source : Path} {s : Session} {t : Text} (normal : source.Normal)
    (read : s.files.textAt source = .ok t) (sound : (check t).mismatches = []) :
    ∃ events, checkCommand source s = (.ok 0, { s with
      out := s.out ++ ("[dscript] " ++ String.ofList source.text ++ ": no type errors") ++ "\n"
      events := events }) := by
  rw [← Path.ofText_text normal] at read
  obtain ⟨events, checked⟩ := Build.checkFile_of_ok read
  refine ⟨events, ?_⟩
  simp only [checkCommand, bind_apply, checked, sound, report_apply, messages, List.map_nil,
    String.join_nil, String.append_empty, List.isEmpty_nil, if_true, print, modify_apply, pure_apply]

/-- Compiling prints nothing but its success; a failure is left to the caller to report. -/
theorem compileCommandOn_of_sound {source : Path} (output : Option Path) (settings : Settings)
    {s : Session} {t : Text} (normal : source.Normal) (read : s.files.textAt source = .ok t)
    (sound : (check t).mismatches = []) :
    (∃ target after, Build.targetOf source.text output settings = .ok target ∧
        compileCommandOn source output settings s = (.ok 0, after) ∧ after.err = s.err ∧
        after.files.readFile target = .ok (Encoding.encode (lower t))) ∨
      ∃ failure after, compileCommandOn source output settings s = (.error failure, after) ∧
        after.err = s.err := by
  rw [← Path.ofText_text normal] at read
  have ended := Build.compilation_compileFile source.text output settings s
  obtain ⟨files, events, after, ended⟩ := ended.of_sound read sound
  unfold compileCommandOn
  rcases ended with ⟨target, named, outcome, holds⟩ | ⟨failure, outcome⟩
  · have compiled : Build.compileFile source.text output settings s =
        (.ok (.ok target), { s with files := files, events := events }) := Prod.ext outcome after
    simp only [bind_apply, compiled, print, modify_apply, pure_apply]
    exact .inl ⟨target, _, named, rfl, rfl, holds⟩
  · have failed : Build.compileFile source.text output settings s =
        (.error failure, { s with files := files, events := events }) := Prod.ext outcome after
    simp only [bind_apply, failed]
    exact .inr ⟨failure, _, rfl, rfl⟩

/-- A run without mismatches prints no more than a line on its end. -/
theorem runCommand_of_sound {source : Path} (settings : Settings) {s : Session} {t : Text}
    (normal : source.Normal) (read : s.files.textAt source = .ok t)
    (sound : (check t).mismatches = []) :
    (∃ status after, runCommand source settings s = (.ok status, after) ∧
        after.err = s.err ++ exitLine status) ∨
      ∃ failure after, runCommand source settings s = (.error failure, after) ∧
        after.err = s.err := by
  rw [← Path.ofText_text normal] at read
  unfold runCommand exitLine
  rcases Build.runFile_of_sound settings read sound with
    ⟨status, after, ran, silent⟩ | ⟨failure, after, failed, silent⟩
  · left
    by_cases zero : status = 0
    · exact ⟨status, after, by simp [bind_apply, ran, zero], by simp [zero, silent]⟩
    · refine ⟨status, { after with
        err := after.err ++ s!"Execution failed with exit code {status}" ++ "\n" }, ?_, ?_⟩
      · simp only [bind_apply, ran, ne_eq, zero, not_false_eq_true, if_true, complain, modify_apply,
          pure_apply]
      · simp [zero, silent, String.append_assoc]
  · exact .inr ⟨failure, after, by simp only [bind_apply, failed], silent⟩

/-- A failure is a line on the error output and the status one. -/
def settle : Except Failure Int × Session → Int × Session
  | (.ok status, after) => (status, after)
  | (.error failure, after) => (1, { after with err := after.err ++ failureLine failure })

theorem run_eq_settle (installed : Installation) {arguments : List Text} {invocation : Invocation}
    (s : Session)
    (spelled : Invocation.read (installed.settingsIn s.files) arguments = .ok invocation) :
    ∃ level, run installed arguments s =
      settle (perform installed invocation { s with level := level }) := by
  unfold run settle failureLine
  -- A verbose command line notes more; nothing that is printed or written depends on the level.
  by_cases verbose : invocation.verbose = true
  · refine ⟨.info, ?_⟩
    simp only [spelled, verbose, if_true, String.append_assoc]
    rfl
  · refine ⟨s.level, ?_⟩
    simp only [spelled, verbose, String.append_assoc]
    rfl

/-- What a command comes to on a source without mismatches: its status, what it prints on the error
output, and the files that it leaves. A check succeeds; compiling leaves the lowered source at the
target, or fails with one line; and a run ends as the interpreter does, or fails with one line. -/
def Command.Concludes (settings : Settings) (t : Text) (status : Int) (told : String)
    (files : FileTree) : Command → Prop
  | .check _ => status = 0 ∧ told = ""
  | .compile source output =>
    (∃ target, Build.targetOf source.text output settings = .ok target ∧ status = 0 ∧ told = "" ∧
        files.readFile target = .ok (Encoding.encode (lower t))) ∨
      ∃ failure, status = 1 ∧ told = failureLine failure
  | .run _ => told = exitLine status ∨ ∃ failure, status = 1 ∧ told = failureLine failure

theorem concludes_of_sound {command : Command} (settings : Settings) {s : Session} {t : Text}
    (normal : command.source.Normal) (read : s.files.textAt command.source = .ok t)
    (sound : (check t).mismatches = []) :
    let ended := settle (command.carryOut settings s)
    ∃ told, ended.2.err = s.err ++ told ∧
      command.Concludes settings t ended.1 told ended.2.files := by
  cases command with
  | check source =>
    rw [Command.source] at normal read
    obtain ⟨events, done⟩ := checkCommand_of_sound normal read sound
    simp only [Command.carryOut, done, settle]
    exact ⟨"", String.append_empty.symm, rfl, rfl⟩
  | compile source output =>
    rw [Command.source] at normal read
    rcases compileCommandOn_of_sound output settings normal read sound with
      ⟨target, after, named, done, silent, holds⟩ | ⟨failure, after, failed, silent⟩
    · simp only [Command.carryOut, done, settle]
      exact ⟨"", by rw [silent, String.append_empty], .inl ⟨target, named, rfl, rfl, holds⟩⟩
    · simp only [Command.carryOut, failed, settle]
      exact ⟨failureLine failure, by rw [silent], .inr ⟨failure, rfl, rfl⟩⟩
  | run source =>
    rw [Command.source] at normal read
    rcases runCommand_of_sound settings normal read sound with
      ⟨status, after, done, told⟩ | ⟨failure, after, failed, silent⟩
    · simp only [Command.carryOut, done, settle]
      exact ⟨exitLine status, told, .inl rfl⟩
    · simp only [Command.carryOut, failed, settle]
      exact ⟨failureLine failure, by rw [silent], .inr ⟨failure, rfl, rfl⟩⟩

/-- All commands begin alike, however documents and literals are read and wherever the program's own
settings file is. If the settings cannot be loaded, a command line prints one line, ends with the
status one and does nothing. Otherwise it prints the mismatches of its source before anything else,
and if there are any, it ends with the status one and does nothing more. -/
theorem run_gated (installed : Installation) {arguments : List Text} {invocation : Invocation}
    (s : Session)
    (spelled : Invocation.read (installed.settingsIn s.files) arguments = .ok invocation) :
    let ran := run installed arguments s
    match configured installed s.files invocation with
    | .error failure =>
      ran.1 = 1 ∧ ran.2.err = s.err ++ failureLine failure ∧ ran.2.files = s.files ∧
        ran.2.launches = s.launches
    | .ok settings => ∀ t, s.files.textAt invocation.command.source = .ok t →
      ∃ told, ran.2.err = s.err ++ messages (check t).mismatches ++ told ∧
        if (check t).mismatches = [] then
          invocation.command.Concludes settings t ran.1 told ran.2.files
        else
          ran.1 = 1 ∧ told = "" ∧ ran.2.files = s.files ∧ ran.2.launches = s.launches := by
  intro ran
  obtain ⟨level, settled⟩ := run_eq_settle installed s spelled
  rw [perform_apply] at settled
  cases loaded : configured installed s.files invocation with
  | error failure =>
    have ended : ran = settle (.error failure, { s with level := level }) := by
      rw [loaded] at settled
      exact settled
    rw [ended]
    exact ⟨rfl, rfl, rfl, rfl⟩
  | ok settings =>
    have ended : ran = settle (invocation.command.carryOut settings { s with level := level }) := by
      rw [loaded] at settled
      exact settled
    rw [ended]
    intro t read
    by_cases sound : (check t).mismatches = []
    · obtain ⟨told, printed, concludes⟩ := concludes_of_sound settings
        (s := { s with level := level }) (source_normal spelled) read sound
      refine ⟨told, ?_, ?_⟩
      · rw [sound, messages_nil, String.append_empty]
        exact printed
      · rw [if_pos sound]
        exact concludes
    · obtain ⟨events, done⟩ := carryOut_of_faulty settings (s := { s with level := level })
        (source_normal spelled) read sound
      rw [done]
      refine ⟨"", String.append_empty.symm, ?_⟩
      rw [if_neg sound]
      exact ⟨rfl, rfl, rfl, rfl⟩

/-- A run that mismatches prevent, under the program's own settings file. -/
theorem run_gated_mismatch :
    let installed : Installation := ⟨Yaml.reader, Literal.reader, Path.ofText "own.yaml".toList⟩
    let s : Session := { Build.holding "a.ds" "let x: number = true" with
      files := ⟨[(["a.ds".toList], .file (Encoding.encode "let x: number = true".toList)),
        (["own.yaml".toList], .file (Encoding.encode "\x7b\x7d".toList))], []⟩ }
    (run installed ["run".toList, "a.ds".toList] s).1 = 1 ∧
      (run installed ["run".toList, "a.ds".toList] s).2.err =
        "Type Error on line 1: x is declared as 'number' but assigned a 'boolean'\n" ∧
      (run installed ["run".toList, "a.ds".toList] s).2.launches = [] := by
  intro installed s
  have spelled : Invocation.read (installed.settingsIn s.files) ["run".toList, "a.ds".toList] =
      .ok ⟨installed.settingsIn s.files, [], false, .run (Path.ofText "a.ds".toList)⟩ := by
    simp [Invocation.read, readCommand, Interface.read, Interface.marks, Interface.mark,
      Interface.walk, program, plainCommand, Given.start, Given.value?, Given.values, Given.has,
      sourceOf, bind, Except.bind, pure, Except.pure]
  have loaded : configured installed s.files
      ⟨installed.settingsIn s.files, [], false, .run (Path.ofText "a.ds".toList)⟩ =
        .ok .default := by
    have present : installed.settingsIn s.files = some (Path.ofText "own.yaml".toList) := by
      decide +kernel
    have text : s.files.textAt (Path.ofText "own.yaml".toList) = .ok "\x7b\x7d".toList :=
      eq_ok_of_toOption (by decide +kernel)
    have there : s.files.pathExists (Path.ofText "own.yaml".toList) = true := by decide +kernel
    rw [present]
    simp only [configured, Build.settingsAt, Build.entriesAt, there, text]
    rfl
  have read : s.files.textAt (Path.ofText "a.ds".toList) = .ok "let x: number = true".toList :=
    eq_ok_of_toOption (by decide +kernel)
  have faulty : (check "let x: number = true".toList).mismatches =
      [⟨1, "x".toList, "number".toList, .boolean, .assigned⟩] := by decide +kernel
  have gated := run_gated installed s spelled
  rw [loaded] at gated
  obtain ⟨told, printed, ended⟩ := gated _ read
  rw [faulty, if_neg (by simp)] at ended
  obtain ⟨status, rfl, -, launches⟩ := ended
  have text : messages [⟨1, "x".toList, "number".toList, .boolean, .assigned⟩] =
      "Type Error on line 1: x is declared as 'number' but assigned a 'boolean'\n" := by
    decide +kernel
  have before : s.err = "" := rfl
  rw [faulty, text, before, String.empty_append, String.append_empty] at printed
  exact ⟨status, printed, launches⟩

end CommandLine
end TypedScript
