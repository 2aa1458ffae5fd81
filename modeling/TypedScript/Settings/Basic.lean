import TypedScript.Decimal.Reader
import TypedScript.Files.Path
import TypedScript.Value.Display
import TypedScript.Value.Merge

set_option autoImplicit false

/-!
Settings are read from a mapping with a `runtime` and an `output` section. What
is missing, or of no use where it stands, takes its default; a timeout that is
not positive, a directory that is no path and a suffix without its dot are
refused. Overrides are merged into the mapping of the settings in force.
-/

namespace TypedScript

structure RunOptions where
  command : List String
  timeout : Option Float
  /-- The directory for scripts; none is the system's own. -/
  scratch : Option Path
  /-- What the names of scripts begin with. -/
  stem : String
  deriving Repr

structure Settings where
  run : RunOptions
  suffix : String
  deriving Repr

inductive SettingsError where
  | raised (e : Raised)
  | timeoutNotPositive (timeout : Float)
  | timeoutTooLarge
  | pathOfBytes
  | pathOf (typeName : String)
  | suffixWithoutDot (suffix : String)
  | notIterable (typeName : String)
  | noSequence (index : Nat)
  | notPair (index length : Nat)
  | keyless (typeName : String)
  | noMapping (typeName : String)
  deriving Repr

def SettingsError.message : SettingsError → String
  | .raised e => e.message
  | .timeoutNotPositive timeout =>
    "runtime.timeout must be positive, got " ++ String.ofList (FloatLayout.standard.text timeout)
  | .timeoutTooLarge => "int too large to convert to float"
  | .pathOfBytes =>
    "argument should be a str object or an os.PathLike object returning str, not <class 'bytes'>"
  | .pathOf typeName => s!"expected str, bytes or os.PathLike object, not {typeName}"
  | .suffixWithoutDot suffix =>
    "output suffix must start with '.', got " ++ quoted suffix.toList
  | .notIterable typeName => s!"'{typeName}' object is not iterable"
  | .noSequence index =>
    s!"cannot convert dictionary update sequence element #{index} to a sequence"
  | .notPair index length =>
    s!"dictionary update sequence element #{index} has length {length}; 2 is required"
  | .keyless typeName => s!"unhashable type: '{typeName}'"
  | .noMapping typeName => s!"'{typeName}' object has no attribute 'items'"

/-- What a value answers. -/
def asked {α : Type} (answer : Except Raised α) : Except SettingsError α := answer.mapError .raised

/-- The text of a value; what counts as false gives way to a default. -/
def textOr (fallback : String) (value : Value) : Except SettingsError String := do
  if ← asked value.truth then asked value.text else return fallback

namespace RunOptions

def defaultCommand : List String := ["node"]

def defaultStem : String := "d_temp_"

def default : RunOptions := ⟨defaultCommand, none, none, defaultStem⟩

/-- A text is cut at blanks; of a sequence each item is one word. -/
def commandOf : Value → Except SettingsError (List String)
  | .str s => .ok (orDefault ((Text.words s.toList).map String.ofList))
  | .list items | .tuple items => (items.mapM fun item => asked item.text).map orDefault
  | .bytes b => .ok (orDefault (b.map fun byte => toString byte.toNat))
  | .other value => (asked value.words).map fun words => orDefault (words.getD [])
  | _ => .ok defaultCommand
where
  orDefault (words : List String) : List String := if words.isEmpty then defaultCommand else words

/-- The double that a value stands for; what stands for none is no timeout. -/
def secondsOf : Value → Except SettingsError (Option Float)
  | .float x => .ok (some x)
  | .int n => match floatOfInt? n with
    | some x => .ok (some x)
    | none => .error .timeoutTooLarge
  | .bool b => .ok (some (if b then 1.0 else 0.0))
  | .str s => .ok (Decimal.ofText? s.toList)
  | .bytes b => .ok (Decimal.ofAsciiField? (b.map fun byte => Char.ofNat byte.toNat))
  | .other value => asked value.seconds
  | _ => .ok none

def timeoutOf (value : Value) : Except SettingsError (Option Float) := do
  match ← secondsOf value with
  | some x => if x ≤ 0.0 then .error (.timeoutNotPositive x) else .ok (some x)
  | none => .ok none

def pathOf : Value → Except SettingsError Path
  | .str s => .ok (Path.ofText s.toList)
  | .path name => .ok (Path.ofText name)
  | .bytes _ => .error .pathOfBytes
  | .other value => (asked value.path).map Path.ofText
  | value => .error (.pathOf value.typeName)

/-- Nothing and the empty text name no directory. -/
def isUnnamed : Value → Except SettingsError Bool
  | .null | .str "" => .ok true
  | .other value => asked value.isBlank
  | _ => .ok false

def scratchOf (value : Value) : Except SettingsError (Option Path) := do
  if ← isUnnamed value then return none else (pathOf value).map some

def stemOf (value : Value) : Except SettingsError String := textOr defaultStem value

def ofValue : Value → Except SettingsError RunOptions
  | .dict entries => do
    let command ← commandOf (Entries.get "command" entries)
    let timeout ← timeoutOf (Entries.get "timeout" entries)
    let scratch ← scratchOf (Entries.get "temp_root" entries)
    let stem ← stemOf (Entries.get "temp_prefix" entries)
    return ⟨command, timeout, scratch, stem⟩
  | _ => .ok default

def toValue (o : RunOptions) : Value :=
  .dict
    [(.str "command", .list (o.command.map .str)),
     (.str "timeout", (o.timeout.map .float).getD .null),
     (.str "temp_root", (o.scratch.map fun p => .str (String.ofList p.text)).getD .null),
     (.str "temp_prefix", .str o.stem)]

end RunOptions

namespace Settings

def defaultSuffix : String := ".js"

def default : Settings := ⟨RunOptions.default, defaultSuffix⟩

def suffixOf (value : Value) : Except SettingsError String := do
  let suffix ← textOr defaultSuffix value
  if suffix.toList.head? = some '.' then .ok suffix else .error (.suffixWithoutDot suffix)

def suffixOfSection : Value → Except SettingsError String
  | .dict entries => suffixOf (Entries.get "suffix" entries)
  | _ => .ok defaultSuffix

def ofEntries (entries : Entries) : Except SettingsError Settings := do
  let run ← RunOptions.ofValue (Entries.get "runtime" entries)
  let suffix ← suffixOfSection (Entries.get "output" entries)
  return ⟨run, suffix⟩

def toEntries (s : Settings) : Entries :=
  [(.str "runtime", s.run.toValue),
   (.str "output", .dict [(.str "suffix", .str s.suffix)])]

/-- Settings with overrides put over them; without any they stay as they are. -/
def merge (s : Settings) (overrides : Entries) : Except SettingsError Settings :=
  if overrides.isEmpty then .ok s else ofEntries (Entries.merge s.toEntries overrides)

/-- The entries that pairs build one by one; the number is that of the first pair. -/
def entriesOfPairs (found : Entries) (index : Nat) : List Value → Except SettingsError Entries
  | [] => .ok found
  | pair :: rest =>
    match pair.items? with
    | none => .error (.noSequence index)
    | some [key, value] =>
      match key.keyless? with
      | some typeName => .error (.keyless typeName)
      | none => entriesOfPairs (Entries.insert key value found) (index + 1) rest
    | some items => .error (.notPair index items.length)

/-- The entries of data: those of a mapping, or those that a sequence of pairs builds. What counts
as false has none. -/
def entriesOfData (data : Value) : Except SettingsError Entries := do
  if ← asked data.truth then
    match data with
    | .dict entries => .ok entries
    | data => match data.items? with
      | some pairs => entriesOfPairs [] 0 pairs
      | none => .error (.notIterable data.typeName)
  else return []

def ofData (data : Value) : Except SettingsError Settings := do
  ofEntries (← entriesOfData data)

/-- Settings with overrides of any kind put over them; only a mapping can be, unless it counts as
false. -/
def mergeData (s : Settings) (overrides : Value) : Except SettingsError Settings := do
  if ← asked overrides.truth then
    match overrides with
    | .dict entries => s.merge entries
    | overrides => .error (.noMapping overrides.typeName)
  else return s

end Settings
end TypedScript
