import TypedScript.Text.Blank
import TypedScript.Token

set_option autoImplicit false

/-!
The primitive types, unions of type names as they are declared, and the type
that an expression shows on its surface. Nothing is computed: an expression that
is no plain literal has type `any`.
-/

namespace TypedScript

inductive TypeName where
  | string
  | number
  | boolean
  | any
  deriving DecidableEq, Repr

namespace TypeName

def all : List TypeName := [.string, .number, .boolean, .any]

def text : TypeName → Text
  | .string => ['s', 't', 'r', 'i', 'n', 'g']
  | .number => ['n', 'u', 'm', 'b', 'e', 'r']
  | .boolean => ['b', 'o', 'o', 'l', 'e', 'a', 'n']
  | .any => ['a', 'n', 'y']

def ofText? (t : Text) : Option TypeName := all.find? fun name => name.text == t

end TypeName

/-- A declared union keeps its names as they are written, known or not, in their order. -/
structure TypeUnion where
  names : List Text
  deriving DecidableEq, Repr

namespace TypeUnion

/-- The union that allows everything has `any` as its only name. -/
def isWildcard (u : TypeUnion) : Bool := u.names == [TypeName.any.text]

def admits (u : TypeUnion) (inferred : TypeName) : Bool :=
  u.isWildcard || u.names.contains inferred.text

def text (u : TypeUnion) : Text := Text.join ['|'] u.names

end TypeUnion

/-- Digits, and after them at most one point with digits behind it. -/
def spellsNumber (t : Text) : Bool :=
  !(t.takeWhile isAsciiDigit).isEmpty &&
    match t.dropWhile isAsciiDigit with
    | [] => true
    | c :: digits => c == '.' && !digits.isEmpty && digits.all isAsciiDigit

def literalType (expression : Text) : TypeName :=
  let t := Text.trim expression
  if (t.head?.map Token.isQuote).getD false then .string
  else if spellsNumber t then .number
  else if t = ['t', 'r', 'u', 'e'] ∨ t = ['f', 'a', 'l', 's', 'e'] then .boolean
  else .any

end TypedScript
