import TypedScript.Line.Record

set_option autoImplicit false

/-!
What happens on the way is noted as events. An event has a severity, the name of
the part of the program that notes it, and a message.
-/

namespace TypedScript

inductive Severity where
  | debug
  | info
  deriving DecidableEq, Repr

def Severity.rank : Severity → Int
  | .debug => 10
  | .info => 20

def Severity.name : Severity → String
  | .debug => "DEBUG"
  | .info => "INFO"

inductive Event where
  /-- A function header was met while another function was still open. -/
  | replaced (outgoing incoming : Header)
  | scanned (lines errors : Nat)
  | skipped (errors : Nat)
  | compiled (source written : Text)
  | exited (source : Text) (status : Int)
  | launching (command : List String) (script : Text)
  | finished (status : Int)
  | alreadyRemoved (script : Text)
  deriving DecidableEq, Repr

namespace Event

def severity : Event → Severity
  | .replaced .. | .scanned .. | .alreadyRemoved .. => .debug
  | .skipped .. | .compiled .. | .exited .. | .launching .. | .finished .. => .info

def origin : Event → String
  | .replaced .. | .scanned .. => "dscript.dsl.checker"
  | .skipped .. => "dscript.dsl.transpiler"
  | .compiled .. | .exited .. => "dscript.orchestrator.pipeline"
  | .launching .. | .finished .. | .alreadyRemoved .. => "dscript.utils.runtime"

def message : Event → String
  | .replaced outgoing incoming =>
    let old := String.ofList outgoing.name
    let new := String.ofList incoming.name
    s!"function {old} (line {outgoing.line}) replaced by {new} (line {incoming.line}) before closing"
  | .scanned lines errors =>
    let failed := if errors = 0 then "False" else "True"
    s!"scanned {lines} lines failed={failed} errors={errors}"
  | .skipped errors => s!"rewrite skipped: {errors} type error(s)"
  | .compiled source written =>
    "compiled " ++ String.ofList source ++ " -> " ++ String.ofList written
  | .exited source status => String.ofList source ++ s!" exited with status {status}"
  | .launching command script =>
    "launch | cmd=" ++ " ".intercalate command ++ " script=" ++ String.ofList script
  | .finished status => s!"exit | status={status} duration=0.000s"
  | .alreadyRemoved script => "temp file already removed: " ++ String.ofList script

end Event
end TypedScript
