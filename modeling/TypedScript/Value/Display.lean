import TypedScript.Decimal.Display
import TypedScript.Value.Basic

set_option autoImplicit false

/-!
The text of a value. Inside a collection texts are quoted; on its own a text
stands for itself.
-/

namespace TypedScript.Value

/-- A positive real zero is left out, every other real part stands before the imaginary one. -/
def complexText (re im : Float) : Text :=
  let imaginary := FloatLayout.part.text im
  if re.toBits = 0 then imaginary ++ ['j']
  else
    let signed := if imaginary.head? = some '-' then imaginary else '+' :: imaginary
    ['('] ++ FloatLayout.part.text re ++ signed ++ ['j', ')']

mutual

def shown : Value → Text
  | .null => "None".toList
  | .bool b => if b then "True".toList else "False".toList
  | .int n => (toString n).toList
  | .float x => FloatLayout.standard.text x
  | .complex re im => complexText re im
  | .str s => Quoted.text s.toList
  | .bytes b => Quoted.bytes b
  | .ellipsis => "Ellipsis".toList
  | .list items => ['['] ++ Text.join [',', ' '] (shownItems items) ++ [']']
  | .tuple items =>
    ['('] ++ Text.join [',', ' '] (shownItems items) ++
      (if items.length = 1 then [','] else []) ++ [')']
  | .set items =>
    if items.isEmpty then "set()".toList
    else ['\x7b'] ++ Text.join [',', ' '] (shownItems items) ++ ['\x7d']
  | .dict entries => ['\x7b'] ++ Text.join [',', ' '] (shownEntries entries) ++ ['\x7d']
  | .path name => "PosixPath(".toList ++ Quoted.text (Path.ofText name).text ++ [')']
  | .other value => match value.shown with
    | .ok s => s.toList
    | .error _ => []

def shownItems : List Value → List Text
  | [] => []
  | item :: rest => shown item :: shownItems rest

def shownEntries : List (Value × Value) → List Text
  | [] => []
  | (key, value) :: rest => (shown key ++ [':', ' '] ++ shown value) :: shownEntries rest

end

/-- Integers in decimal notation are written with at most this many digits. -/
def writtenDigits : Nat := 4300

def longInteger : Raised where
  kind := "ValueError"
  message := s!"Exceeds the limit ({writtenDigits} digits) for integer string conversion; use sys.set_int_max_str_digits() to increase the limit"

mutual

/-- Why a value cannot be written: the first integer in it that is too long, or the first value of
another class that gives no text. -/
def unwritten? : Value → Option Raised
  | .int n => if n.natAbs < tenTo writtenDigits then none else some longInteger
  | .list items | .tuple items | .set items => unwrittenItems? items
  | .dict entries => unwrittenEntries? entries
  | .other value => match value.shown with
    | .ok _ => none
    | .error e => some e
  | .null | .bool _ | .float _ | .complex .. | .str _ | .bytes _ | .ellipsis | .path _ => none

def unwrittenItems? : List Value → Option Raised
  | [] => none
  | item :: rest => (unwritten? item).or (unwrittenItems? rest)

def unwrittenEntries? : List (Value × Value) → Option Raised
  | [] => none
  | (key, value) :: rest => ((unwritten? key).or (unwritten? value)).or (unwrittenEntries? rest)

end

/-- The text of a value on its own, if it can be written. -/
def text : Value → Except Raised String
  | .str s => .ok s
  | .path name => .ok (String.ofList (Path.ofText name).text)
  | .other value => value.text
  | v => match unwritten? v with
    | none => .ok (String.ofList (shown v))
    | some e => .error e

end TypedScript.Value
