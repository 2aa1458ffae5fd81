import TypedScript.Session.Basic

set_option autoImplicit false

/-!
Running a text as a script: it is written under a fresh name, handed to the
interpreter, and removed again however the launch ends.
-/

namespace TypedScript

namespace Script

def pathAt (base : Path) (stem : String) (stamp : Int) : Path :=
  base.join (stem.toList ++ (toString stamp).toList ++ ".js".toList)

/-- The first free path from a stamp on. Only so many paths can be taken as there are entries. -/
def firstFree (files : FileTree) (base : Path) (stem : String) (stamp : Int) : (steps : Nat) → Path
  | 0 => pathAt base stem stamp
  | steps + 1 =>
    if files.pathExists (pathAt base stem stamp) then
      firstFree files base stem (stamp + 1) steps
    else pathAt base stem stamp

/-- A fresh path in a directory; none is the system's own. -/
def freshPath (s : Session) (base : Option Path) (stem : String) : Path :=
  firstFree s.files (base.getD s.scratch) stem s.clock.stamp s.files.entries.length

/-- A time limit is absent or a number above zero. -/
def checkTimeout : Value → Except Failure Unit
  | .null => .ok ()
  | .int n => if n ≤ 0 then .error (.timeoutNotPositive (.int n)) else .ok ()
  | .bool b => if b then .ok () else .error (.timeoutNotPositive (.bool b))
  | .float x => if x ≤ 0.0 then .error (.timeoutNotPositive (.float x)) else .ok ()
  | .other value => match value.isNotPositive with
    | .ok true => .error (.timeoutNotPositive (.other value))
    | .ok false => .ok ()
    | .error e => .error (.raised e)
  | value => .error (.timeoutNoNumber value.typeName)

def timeoutFailure : Value → Failure
  | .int n => match floatOfInt? n with
    | some x => .timedOut x
    | none => .timeoutTooLarge
  | .float x => .timedOut x
  | .bool b => .timedOut (if b then 1.0 else 0.0)
  | .other value => match value.seconds with
    | .ok (some x) => .timedOut x
    | .ok none => .timeoutNoNumber value.typeName
    | .error e => .raised e
  | _ => .timedOut 0.0

/-- Removes a script, which may be gone already. -/
def delete (name : Text) : Action Unit := do
  let path := Path.ofText name
  Action.checkPath path
  match (← get).files.removeFile path with
  | .ok files => modify fun s => { s with files := files }
  | .error .noEntry => Action.note (.alreadyRemoved name)
  | .error fault => throw (.file ⟨fault, path.text⟩)

/-- What the child leaves of the script. -/
def leave (files : FileTree) (script : Path) : ScriptEffect → FileTree
  | .keeps => files
  | .removes => (files.removeFile script).toOption.getD files
  | .replaces content => (files.writeFile script content).toOption.getD files

/-- Launches the interpreter on a script and gives back its status. -/
def launch (command : List String) (timeout : Value) (script : Path) : Action Int := do
  Action.note (.launching command script.text)
  let s ← get
  let child := s.children.head?.getD Child.default
  let record : Launch :=
    ⟨command ++ [String.ofList script.text], timeout, (s.files.readFile script).toOption⟩
  set { s with
    children := s.children.tail
    launches := s.launches ++ [record]
    files := leave s.files script child.effect }
  let program := (command.head?.getD "").toList
  match child.ending with
  | .exited status => return status
  | .notFound => throw (.launch command "interpreter not found")
  | .notPermitted e => throw (.launch command (e.message program))
  | .failed e => throw (.system e program)
  | .timedOut => throw (timeoutFailure timeout)

/-- Runs an action and then a second one, however the first one ends. A failure of the second
one counts most. -/
def thenAlways {α : Type} (action : Action α) (last : Action Unit) : Action α := fun s =>
  let (outcome, s) := action s
  let (ended, s) := last s
  match ended with
  | .ok () => (outcome, s)
  | .error e => (.error e, s)

/-- A run needs an interpreter and an admissible time limit. -/
def checkRequest (command : List String) (timeout : Value) : Action Unit := do
  if command.isEmpty then throw .noInterpreter
  match checkTimeout timeout with
  | .error e => throw e
  | .ok () => return ()

/-- Runs a text as a script and gives back the interpreter's status. -/
def run (t : Text) (command : List String) (timeout : Value) (base : Option Path) (stem : String) :
    Action Int := do
  checkRequest command timeout
  let script := freshPath (← get) base stem
  Action.writeText script t
  let status ← thenAlways (launch command timeout script) (delete script.text)
  Action.note (.finished status)
  return status

/-- The first item that is no text, and its place. -/
def firstNoWord? (index : Nat) : List Value → Option (Nat × Value)
  | [] => none
  | .str _ :: rest => firstNoWord? (index + 1) rest
  | value :: _ => some (index, value)

def wordOf : Value → String
  | .str s => s
  | _ => ""

/-- The directory that data name; null is the system's own. -/
def baseOf : Value → Except Failure (Option Path)
  | .null => .ok none
  | value => match RunOptions.pathOf value with
    | .ok path => .ok (some path)
    | .error e => .error (.settings e)

/-- Runs a text as a script on data for the command, the time limit, the directory and the stem.
Whether the command holds nothing but texts shows only when the script is there. -/
def runData (t : Text) (command timeout scratch stem : Value) : Action Int := do
  let items ← match command.items? with
    | some items => pure items
    | none => throw (.commandOf command.typeName)
  let words := items.map wordOf
  checkRequest words timeout
  let base ← match baseOf scratch with
    | .ok base => pure base
    | .error e => throw e
  let stem ← match stem.text with
    | .ok stem => pure stem
    | .error e => throw (.raised e)
  match firstNoWord? 0 items with
  | none => run t words timeout base stem
  | some (index, value) =>
    let script := freshPath (← get) base stem
    Action.writeText script t
    thenAlways (throw (.noWord index value.typeName)) (delete script.text)

end Script

end TypedScript
