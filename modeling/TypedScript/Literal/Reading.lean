import TypedScript.Literal.Grammar
import TypedScript.Text.Lines
import TypedScript.Value.Reader

set_option autoImplicit false

/-!
The value of a literal. A text that is no literal is malformed; a literal can
still fail if it uses a value as a key that cannot be one, or adds an integer
that no double holds to an imaginary number.
-/

namespace TypedScript.Literal

inductive Fault where
  | malformed
  | keyless (typeName : String)
  | tooLarge
  deriving DecidableEq, Repr

def numberOf : Term → Except Fault Value
  | .constant (.int n) => .ok (.int n)
  | .constant (.float x) => .ok (.float x)
  | .constant (.complex re im) => .ok (.complex re im)
  | _ => .error .malformed

def negate : Value → Value
  | .int n => .int (-n)
  | .float x => .float (-x)
  | .complex re im => .complex (-re) (-im)
  | v => v

/-- A number with at most one sign before it. -/
def signedNumber : Term → Except Fault Value
  | .signed negative operand => do
    let value ← numberOf operand
    return if negative then negate value else value
  | term => numberOf term

/-- A real and an imaginary number. -/
def complexSum (negative : Bool) (left : Float) (re im : Float) : Value :=
  if negative then .complex (left - re) (0.0 - im) else .complex (left + re) (0.0 + im)

def sumOf (negative : Bool) (left right : Term) : Except Fault Value := do
  match ← signedNumber left, ← numberOf right with
  | .int n, .complex re im =>
    match floatOfInt? n with
    | some x => .ok (complexSum negative x re im)
    | none => .error .tooLarge
  | .float x, .complex re im => .ok (complexSum negative x re im)
  | _, _ => .error .malformed

def checkKey (key : Value) : Except Fault Unit :=
  match key.keyless? with
  | some typeName => .error (.keyless typeName)
  | none => .ok ()

mutual

def evaluate : Term → Except Fault Value
  | .constant value => .ok value
  | .name _ | .other => .error .malformed
  | .signed negative operand => signedNumber (.signed negative operand)
  | .sum negative left right => sumOf negative left right
  | .tuple items => (evaluateItems items).map .tuple
  | .list items => (evaluateItems items).map .list
  | .set items => (evaluateSet [] items).map .set
  | .dict entries => (evaluateEntries [] entries).map .dict

def evaluateItems : List Term → Except Fault (List Value)
  | [] => .ok []
  | item :: rest => do
    let value ← evaluate item
    let more ← evaluateItems rest
    return value :: more

/-- Items are put into a set one by one; of equal ones the first stays. -/
def evaluateSet (found : List Value) : List Term → Except Fault (List Value)
  | [] => .ok found
  | item :: rest => do
    let value ← evaluate item
    checkKey value
    evaluateSet (Value.adjoin found value) rest

/-- Of equal keys the first stays, with the last value. -/
def evaluateEntries (found : Entries) : List (Term × Term) → Except Fault Entries
  | [] => .ok found
  | (key, value) :: rest => do
    let k ← evaluate key
    let v ← evaluate value
    checkKey k
    evaluateEntries (Entries.insert k v found) rest

end

/-- The term that a text spells. The fields of formatted texts must be expressions too, each as if
it stood in brackets; they are shorter than the text, which bounds the depth. -/
def parse? : (depth : Nat) → Text → Option Term
  | 0, _ => none
  | depth + 1, t => do
    let tokens ← tokens? ⟨true, 0⟩ (t.length + 1) t
    let term ← term? tokens
    let fields := tokens.flatMap fun token => match token with
      | .formatted fields => fields
      | _ => []
    if fields.all fun field => (parse? depth ('(' :: field ++ [')'])).isSome then some term else none

/-- Reads a literal. Spaces and tabs before it are dropped. -/
def read (t : Text) : Except Fault Value :=
  let content := Text.unifyNewlines (t.dropWhile fun c => c == ' ' || c == '\t')
  if content.contains '\x00' then .error .malformed
  else match parse? (content.length + 1) content with
    | some term => evaluate term
    | none => .error .malformed

def Fault.reported : Fault → ReadFault
  | .malformed => .malformed "malformed literal"
  | .keyless typeName => .raised ⟨"TypeError", s!"unhashable type: '{typeName}'"⟩
  | .tooLarge => .raised ⟨"OverflowError", "int too large to convert to float"⟩

/-- The reader for literals. It knows no character by its name, takes half of a surrogate pair for
the replacement character, bounds the depth of brackets alone, and keeps the items of a set in the
order in which they are written. -/
def reader : ValueReader := fun t => (read t).mapError Fault.reported

end TypedScript.Literal
