import TypedScript.Value.Display

set_option autoImplicit false

/-!
The level that an event must reach to be kept. Level zero of the program's own
journal defers to the level of the journal above it.
-/

namespace TypedScript

/-- A level is an integer, or a truth value that stands for one. -/
inductive Level where
  | number (n : Int)
  | flag (b : Bool)
  deriving DecidableEq, Repr

inductive LevelError where
  | unknownName (name : String)
  | noLevel (value : Value)
  | noJournalName
  deriving Repr

def LevelError.message : LevelError → String
  | .unknownName name => "Unknown level: " ++ quoted name.toList
  | .noLevel value => "Level not an integer or a valid string: " ++ String.ofList value.shown
  | .noJournalName => "logger name must be a non-empty string"

namespace Level

def rank : Level → Int
  | .number n => n
  | .flag b => if b then 1 else 0

def debug : Level := .number 10

def info : Level := .number 20

def warning : Level := .number 30

def named? : String → Option Level
  | "CRITICAL" | "FATAL" => some (.number 50)
  | "ERROR" => some (.number 40)
  | "WARNING" | "WARN" => some warning
  | "INFO" => some info
  | "DEBUG" => some debug
  | "NOTSET" => some (.number 0)
  | _ => none

def ofValue : Value → Except LevelError Level
  | .int n => .ok (.number n)
  | .bool b => .ok (.flag b)
  | .str name => match named? name with
    | some level => .ok level
    | none => .error (.unknownName name)
  | value => .error (.noLevel value)

/-- The level in force, given what is set for the program's journal. -/
def inForce (level : Level) : Level := if level.rank = 0 then warning else level

/-- The journals that a name is searched below, the nearest first. After a cut at a dot the
search goes on before the character that stands at the cut. -/
def enclosing (reversed : Text) : List Text :=
  match _cut : reversed.dropWhile (· != '.') with
  | [] | [_] => []
  | _ :: c :: rest => (c :: rest).reverse :: enclosing rest
termination_by reversed.length
decreasing_by
  have := (List.dropWhile_suffix (l := reversed) (· != '.')).length_le
  rw [_cut] at this
  simp only [List.length_cons] at this
  omega

def journalName : Text := "dscript".toList

/-- The level in force for a journal: that of the program for its own journal and those below. -/
def inForceFor (level : Level) (name : Text) : Level :=
  if name = journalName ∨ (enclosing name.reverse).contains journalName then level.inForce
  else warning

/-- The journal of a name, which must be a text, with the level in force for it. -/
def journal (level : Level) : Value → Except LevelError (String × Level)
  | .str name =>
    if name.isEmpty then .error .noJournalName else .ok (name, level.inForceFor name.toList)
  | _ => .error .noJournalName

end Level
end TypedScript
