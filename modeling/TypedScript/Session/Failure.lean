import TypedScript.Files.Tree
import TypedScript.Settings.Basic
import TypedScript.Settings.Override
import TypedScript.Text.Encoding

set_option autoImplicit false

/-!
Everything that can stop the program, by cause.
-/

namespace TypedScript

/-- An error of the system at a launch. -/
structure LaunchError where
  number : Int
  text : String
  /-- Whether it names the program that was to be started. -/
  namesProgram : Bool
  deriving DecidableEq, Repr

def LaunchError.message (e : LaunchError) (program : Text) : String :=
  s!"[Errno {e.number}] {e.text}" ++ if e.namesProgram then ": " ++ quoted program else ""

inductive Failure where
  | raised (e : Raised)
  | file (e : FileError)
  | nullInPath
  | decoding (e : Encoding.DecodeError)
  | noSettingsFile (path : Path)
  | settingsDocument (problem : String)
  | settingsRoot
  | settings (e : SettingsError)
  | override (e : OverrideError)
  | suffix (e : Path.SuffixError)
  | overwritesSource (source : Text)
  | noInterpreter
  | commandOf (typeName : String)
  | noWord (index : Nat) (typeName : String)
  | timeoutNotPositive (timeout : Value)
  | timeoutNoNumber (typeName : String)
  | timeoutTooLarge
  | launch (command : List String) (reason : String)
  | system (e : LaunchError) (program : Text)
  | timedOut (seconds : Float)
  deriving Repr

def Failure.message : Failure → String
  | .raised e => e.message
  | .file e => e.message
  | .nullInPath => "embedded null byte"
  | .decoding e => e.message
  | .noSettingsFile path => "configuration file not found: " ++ String.ofList path.text
  | .settingsDocument problem => "failed to parse configuration: " ++ problem
  | .settingsRoot => "configuration root must be a mapping"
  | .settings e => e.message
  | .override e => e.message
  | .suffix e => e.message
  | .overwritesSource source => "refusing to overwrite source file " ++ String.ofList source
  | .noInterpreter => "command must name an interpreter"
  | .commandOf typeName => s!"'{typeName}' object is not iterable"
  | .noWord index typeName => s!"sequence item {index}: expected str instance, {typeName} found"
  | .timeoutNotPositive timeout => "timeout must be positive, got " ++ String.ofList timeout.shown
  | .timeoutNoNumber typeName =>
    s!"'<=' not supported between instances of '{typeName}' and 'int'"
  | .timeoutTooLarge => "int too large to convert to float"
  | .launch command reason =>
    "failed to launch " ++ quoted (" ".intercalate command).toList ++ ": " ++ reason
  | .system e program => e.message program
  | .timedOut seconds => "execution timed out after " ++ String.ofList (fixedText 3 seconds) ++ "s"

end TypedScript
