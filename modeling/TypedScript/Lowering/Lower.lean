import TypedScript.Check.Scan
import TypedScript.Lowering.Rule

set_option autoImplicit false

/-!
Lowering a source to JavaScript: four rules, one after the other, over the whole
text. A source is compiled only if its check finds no mismatch.
-/

namespace TypedScript

namespace Lowering

def mutableRule : Rule := ⟨wholeWord? ['m', 'u', 't'], ['l', 'e', 't']⟩

def typingRule : Rule := ⟨fun _ => typing?, []⟩

def functionRule : Rule := ⟨wholeWord? ['f', 'n'], ['f', 'u', 'n', 'c', 't', 'i', 'o', 'n']⟩

def printRule : Rule := ⟨printCall?, ['c', 'o', 'n', 's', 'o', 'l', 'e', '.', 'l', 'o', 'g']⟩

def rules : List Rule := [mutableRule, typingRule, functionRule, printRule]

end Lowering

def lower (source : Text) : Text :=
  Lowering.rules.foldl (fun t rule => rule.apply t) source

/-- The outcome of compiling a source: a text only if there are no mismatches. -/
structure Compiled where
  output : Option Text
  mismatches : List Mismatch
  events : List Event
  deriving DecidableEq, Repr

def compile (source : Text) : Compiled :=
  let report := check source
  if report.ok then ⟨some (lower source), [], report.events⟩
  else ⟨none, report.mismatches, report.events ++ [.skipped report.mismatches.length]⟩

end TypedScript
