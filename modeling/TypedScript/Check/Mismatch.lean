import TypedScript.Line.Record

set_option autoImplicit false

/-!
A mismatch: the surface type of an expression is not in the declared union, in a
declaration or in a return of the function that is being checked.
-/

namespace TypedScript

inductive MismatchKind where
  | assigned
  | returned
  deriving DecidableEq, Repr

structure Mismatch where
  line : Int
  subject : Text
  declared : Text
  inferred : TypeName
  kind : MismatchKind
  deriving DecidableEq, Repr

def MismatchKind.verb : MismatchKind → String
  | .assigned => "assigned"
  | .returned => "returns"

def Mismatch.message (m : Mismatch) : String :=
  let subject := String.ofList m.subject
  let declared := String.ofList m.declared
  let inferred := String.ofList m.inferred.text
  s!"Type Error on line {m.line}: {subject} is declared as '{declared}' but {m.kind.verb} a '{inferred}'"

/-- A declaration is at fault unless its union admits the type of its value. -/
def Declaration.mismatch? (d : Declaration) : Option Mismatch :=
  let inferred := literalType d.value
  if d.declared.admits inferred then none
  else some ⟨d.line, d.name, d.declared.text, inferred, .assigned⟩

/-- A returned value is compared with the result type of the active function. A bare return, or
one in a function without a result type, is never at fault. -/
def Header.mismatch? (h : Header) (value : Text) (line : Int) : Option Mismatch :=
  match h.result with
  | none => none
  | some declared =>
    let inferred := literalType value
    if value.isEmpty || declared.admits inferred then none
    else some ⟨line, h.name, declared.text, inferred, .returned⟩

end TypedScript
