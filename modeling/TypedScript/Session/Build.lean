import TypedScript.Lowering.Lower
import TypedScript.Session.Script

set_option autoImplicit false

/-!
Checking, compiling and running source files under settings. Settings come from
a file, if one is named, with overrides put over them. How the file's document is
read is left open.
-/

namespace TypedScript

namespace Build

/-- The entries of a settings file. An empty document has none. -/
def settingsEntries (document : ValueReader) (path : Path) : Action Entries := do
  if !(← get).files.pathExists path then throw (.noSettingsFile path)
  let t ← Action.readText path
  match document t with
  | .error (.malformed problem) => throw (.settingsDocument problem)
  | .error (.raised e) => throw (.raised e)
  | .ok .null => return []
  | .ok (.dict entries) => return entries
  | .ok _ => throw .settingsRoot

def liftSettings (outcome : Except SettingsError Settings) : Action Settings :=
  match outcome with
  | .ok settings => return settings
  | .error e => throw (.settings e)

def loadSettings (document : ValueReader) (path : Option Path) (overrides : Value) :
    Action Settings := do
  let entries ← match path with
    | none => pure []
    | some path => settingsEntries document path
  let settings ← liftSettings (Settings.ofEntries entries)
  liftSettings (settings.mergeData overrides)

/-- The mismatches of a source file. -/
def checkFile (source : Text) : Action (List Mismatch) := do
  let report := check (← Action.readText (Path.ofText source))
  Action.noteAll report.events
  return report.mismatches

def compileText (source : Text) : Action Compiled := do
  let compiled := compile (← Action.readText (Path.ofText source))
  Action.noteAll compiled.events
  return compiled

def targetPath (source : Text) (output : Option Path) (settings : Settings) : Action Path :=
  match output with
  | some path => return path
  | none =>
    match (Path.ofText source).withSuffix settings.suffix.toList with
    | .ok path => return path
    | .error e => throw (.suffix e)

/-- Compiles a source file to an output file: the path that was written, or the mismatches that
prevented it. A source is never written over. -/
def compileFile (source : Text) (output : Option Path) (settings : Settings) :
    Action (Except (List Mismatch) Path) := do
  let compiled ← compileText source
  match compiled.output with
  | none => return .error compiled.mismatches
  | some t =>
    let target ← targetPath source output settings
    Action.checkPath target
    let files := (← get).files
    if files.resolve target = files.resolve (Path.ofText source) then
      throw (.overwritesSource source)
    Action.writeText target t
    Action.note (.compiled source target.text)
    return .ok target

/-- Compiles a source file and runs the result: the interpreter's status, or the mismatches that
prevented the run. -/
def runFile (source : Text) (settings : Settings) : Action (Except (List Mismatch) Int) := do
  let compiled ← compileText source
  match compiled.output with
  | none => return .error compiled.mismatches
  | some t =>
    let options := settings.run
    let timeout := (options.timeout.map Value.float).getD .null
    let status ← Script.run t options.command timeout options.scratch options.stem
    if status ≠ 0 then Action.note (.exited source status)
    return .ok status

end Build
end TypedScript
