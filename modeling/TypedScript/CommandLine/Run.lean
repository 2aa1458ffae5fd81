import TypedScript.CommandLine.Invocation
import TypedScript.Session.Build

set_option autoImplicit false

/-!
Carrying out a command line on a session. Mismatches are reported one to a line
before anything else; a failure is reported in one line, with status one.
-/

namespace TypedScript.CommandLine

/-- What the program finds where it is installed: readers for documents and for literals, and the
place of its own settings file. -/
structure Installation where
  document : ValueReader
  literal : ValueReader
  settings : Path

/-- The settings file for command lines that name none, if it is there. -/
def Installation.settingsIn (installed : Installation) (files : FileTree) : Option Path :=
  if files.pathExists installed.settings then some installed.settings else none

def report (mismatches : List Mismatch) : Action Unit :=
  mismatches.forM fun m => Action.complain m.message

def checkCommand (source : Path) : Action Int := do
  let mismatches ← Build.checkFile source.text
  report mismatches
  if mismatches.isEmpty then
    Action.print ("[dscript] " ++ String.ofList source.text ++ ": no type errors")
    return 0
  else return 1

def compileCommandOn (source : Path) (output : Option Path) (settings : Settings) : Action Int := do
  match ← Build.compileFile source.text output settings with
  | .error mismatches =>
    report mismatches
    return 1
  | .ok written =>
    Action.print ("Compiled " ++ String.ofList source.text ++ " -> " ++ String.ofList written.text)
    return 0

def runCommand (source : Path) (settings : Settings) : Action Int := do
  match ← Build.runFile source.text settings with
  | .error mismatches =>
    report mismatches
    return 1
  | .ok status =>
    if status ≠ 0 then Action.complain s!"Execution failed with exit code {status}"
    return status

/-- Settings are loaded for every command, also where they are not used. -/
def perform (installed : Installation) (invocation : Invocation) : Action Int := do
  let overrides ← match Override.read installed.literal invocation.overrides with
    | .ok entries => pure entries
    | .error e => throw (.override e)
  let settings ← Build.loadSettings installed.document invocation.settings (.dict overrides)
  match invocation.command with
  | .run source => runCommand source settings
  | .compile source output => compileCommandOn source output settings
  | .check source => checkCommand source

/-- The status of a command line, and the session behind it. -/
def run (installed : Installation) (arguments : List Text) (s : Session) : Int × Session :=
  match Invocation.read (installed.settingsIn s.files) arguments with
  | .error (.help text) => (0, { s with out := s.out ++ text })
  | .error (.misuse text) => (2, { s with err := s.err ++ text })
  | .ok invocation =>
    let s := if invocation.verbose then { s with level := .info } else s
    match perform installed invocation s with
    | (.ok status, s) => (status, s)
    | (.error failure, s) =>
      (1, { s with err := s.err ++ "[dscript] error: " ++ failure.message ++ "\n" })

end TypedScript.CommandLine
