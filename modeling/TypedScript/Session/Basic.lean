import TypedScript.Journal.Event
import TypedScript.Journal.Level
import TypedScript.Session.Failure
import TypedScript.Text.Lines

set_option autoImplicit false

/-!
A session: the files, the clock, how the interpreter will behave, and what has
been noted, launched and printed. An action works on a session; what it has done
stays done if it fails.
-/

namespace TypedScript

/-- A time in seconds. -/
inductive Clock where
  | whole (seconds : Int)
  | real (seconds : Float)
  deriving Repr

/-- Whole milliseconds, toward zero. -/
def Clock.stamp : Clock → Int
  | .whole seconds => seconds * 1000
  | .real seconds => match FloatClass.of (seconds * 1000.0) with
    | .finite b => b.truncate
    | .nan | .infinite _ => 0

/-- What the interpreter does to the script it is given. -/
inductive ScriptEffect where
  | keeps
  | removes
  | replaces (content : Bytes)
  deriving DecidableEq, Repr

/-- How a launch ends. -/
inductive Ending where
  | exited (status : Int)
  | notFound
  | notPermitted (e : LaunchError)
  /-- With any other error of the system. -/
  | failed (e : LaunchError)
  | timedOut
  deriving DecidableEq, Repr

structure Child where
  effect : ScriptEffect
  ending : Ending
  deriving DecidableEq, Repr

def Child.default : Child := ⟨.keeps, .exited 0⟩

/-- A launch: the words, the time limit and the script's content at that moment. -/
structure Launch where
  words : List String
  timeout : Value
  script : Option Bytes
  deriving Repr

structure Session where
  files : FileTree
  clock : Clock
  /-- The system's directory for temporary files. -/
  scratch : Path
  /-- What the next launches will meet, in order. -/
  children : List Child
  level : Level
  events : List Event
  launches : List Launch
  out : String
  err : String
  deriving Repr

abbrev Action := ExceptT Failure (StateM Session)

namespace Session

def note (s : Session) (e : Event) : Session :=
  if s.level.inForce.rank ≤ e.severity.rank then { s with events := s.events ++ [e] } else s

def noteAll (s : Session) (events : List Event) : Session := events.foldl note s

end Session

namespace Action

def note (e : Event) : Action Unit := modify (·.note e)

def noteAll (events : List Event) : Action Unit := modify (·.noteAll events)

def print (line : String) : Action Unit := modify fun s => { s with out := s.out ++ line ++ "\n" }

def complain (line : String) : Action Unit := modify fun s => { s with err := s.err ++ line ++ "\n" }

/-- No file has a null character in its path. -/
def checkPath (path : Path) : Action Unit := do
  if path.text.contains '\x00' then throw .nullInPath

/-- Changes the files, or fails with a fault of the given path. -/
def changeFiles (path : Path) (change : FileTree → Except FileFault FileTree) : Action Unit := do
  checkPath path
  match change (← get).files with
  | .ok files => modify fun s => { s with files := files }
  | .error fault => throw (.file ⟨fault, path.text⟩)

/-- The text of a file, with unified newlines. -/
def readText (path : Path) : Action Text := do
  checkPath path
  match (← get).files.readFile path with
  | .error fault => throw (.file ⟨fault, path.text⟩)
  | .ok content =>
    match Encoding.decode content with
    | .error e => throw (.decoding e)
    | .ok t => return Text.unifyNewlines t

def ensureDirectory (path : Path) : Action Unit := do
  checkPath path
  let (files, outcome) := (← get).files.ensureDirectory path
  modify fun s => { s with files := files }
  match outcome with
  | .ok () => return ()
  | .error e => throw (.file e)

/-- Writes a text to a file, in directories that are made as needed. -/
def writeText (path : Path) (t : Text) : Action Unit := do
  ensureDirectory path.parent
  changeFiles path fun files => files.writeFile path (Encoding.encode t)

end Action
end TypedScript
