import TypedScript.CommandLine.Option
import TypedScript.Files.Path

set_option autoImplicit false

/-!
The program's own interface: options for all commands, then one of three
commands with a source file.
-/

namespace TypedScript.CommandLine

inductive Command where
  | run (source : Path)
  | compile (source : Path) (output : Option Path)
  | check (source : Path)
  deriving DecidableEq, Repr

structure Invocation where
  /-- The settings file, if there is one. -/
  settings : Option Path
  overrides : List Text
  verbose : Bool
  command : Command
  deriving DecidableEq, Repr

def helpOption : OptionSpec := ⟨[['-', 'h'], "--help".toList], .help⟩

def program : Interface where
  program := "dscript"
  usage :=
    "usage: dscript [-h] [--config CONFIG] [--set KEY=VALUE] [-v]\n" ++
    "               \x7brun,compile,check\x7d ...\n"
  details :=
    "Type check typed dscript sources and run them as JavaScript\n" ++
    "\n" ++
    "positional arguments:\n" ++
    "  \x7brun,compile,check\x7d\n" ++
    "    run                Check a source file and execute it\n" ++
    "    compile            Check a source file and write JavaScript\n" ++
    "    check              Only type check a source file\n" ++
    "\n" ++
    "options:\n" ++
    "  -h, --help           show this help message and exit\n" ++
    "  --config CONFIG      Optional path to a toolchain configuration YAML file.\n" ++
    "  --set KEY=VALUE      Override configuration values using dot notation (e.g.\n" ++
    "                       runtime.timeout=5).\n" ++
    "  -v, --verbose        Log pipeline activity to stderr.\n"
  options :=
    [helpOption, ⟨["--config".toList], .value⟩, ⟨["--set".toList], .value⟩,
     ⟨[['-', 'v'], "--verbose".toList], .switch⟩]
  positional := "command"
  takesRest := true

/-- A command with a source file and no options of its own. -/
def plainCommand (name : String) : Interface where
  program := "dscript " ++ name
  usage := "usage: dscript " ++ name ++ " [-h] source\n"
  details :=
    "positional arguments:\n" ++
    "  source      Path to the dscript source file\n" ++
    "\n" ++
    "options:\n" ++
    "  -h, --help  show this help message and exit\n"
  options := [helpOption]
  positional := "source"
  takesRest := false

def compileCommand : Interface where
  program := "dscript compile"
  usage := "usage: dscript compile [-h] [-o OUTPUT] source\n"
  details :=
    "positional arguments:\n" ++
    "  source                Path to the dscript source file\n" ++
    "\n" ++
    "options:\n" ++
    "  -h, --help            show this help message and exit\n" ++
    "  -o OUTPUT, --output OUTPUT\n" ++
    "                        Output path (defaults to the source name with .js)\n"
  options := [helpOption, ⟨[['-', 'o'], "--output".toList], .value⟩]
  positional := "source"
  takesRest := false

def sourceOf (words : List Text) : Path := Path.ofText (words.head?.getD [])

/-- The command that its name and the arguments behind it spell, and the arguments left over. -/
def readCommand (name : Text) (arguments : List Text) : Except Stop (Command × List Text) :=
  if name = "run".toList then do
    let (given, words) ← (plainCommand "run").read arguments
    return (.run (sourceOf words), given.extras)
  else if name = "compile".toList then do
    let (given, words) ← compileCommand.read arguments
    let output := (given.value? "--output".toList).map Path.ofText
    return (.compile (sourceOf words) output, given.extras)
  else if name = "check".toList then do
    let (given, words) ← (plainCommand "check").read arguments
    return (.check (sourceOf words), given.extras)
  else
    .error (program.misuse ("argument command: invalid choice: " ++ quoted name ++
      " (choose from 'run', 'compile', 'check')"))

/-- Reads a command line. Without an option for it, the settings file is the given one, if any. -/
def Invocation.read (settings : Option Path) (arguments : List Text) : Except Stop Invocation := do
  let (given, words) ← program.read arguments
  let (command, left) ← readCommand (words.head?.getD []) words.tail
  let extras := given.extras ++ left
  if extras.isEmpty then
    return ⟨((given.value? "--config".toList).map Path.ofText).or settings,
      given.values "--set".toList, given.has "--verbose".toList, command⟩
  else
    .error (program.misuse ("unrecognized arguments: " ++ String.ofList (Text.join [' '] extras)))

end TypedScript.CommandLine
