import TypedScript.Literal.Token

set_option autoImplicit false

/-!
Terms of a literal: constants, names, signed numbers, sums, and collections. An
expression of any other kind is a term too, but has no value.
-/

namespace TypedScript.Literal

inductive Term where
  | constant (value : Value)
  | name (word : Text)
  | signed (negative : Bool) (operand : Term)
  | sum (negative : Bool) (left right : Term)
  | tuple (items : List Term)
  | list (items : List Term)
  | set (items : List Term)
  | dict (entries : List (Term × Term))
  | other
  deriving Repr

namespace Term

/-- What two operands are with a mark between them. In a longer chain at least one of them is no
number, so how a chain is grouped makes no difference to its value. -/
def combine (left : Term) (m : Mark) (right : Term) : Term :=
  match m with
  | .plus => .sum false left right
  | .minus => .sum true left right
  | _ => .other

/-- The letters of the one function that makes a value without arguments, each with the styled
forms of it that count as the same letter in names. -/
def setLetters : List (Char × List Nat) :=
  [('s', [0x17F, 0x2E2, 0x209B, 0xFF53, 0x1D42C, 0x1D460, 0x1D494, 0x1D4C8, 0x1D4FC, 0x1D530,
      0x1D564, 0x1D598, 0x1D5CC, 0x1D600, 0x1D634, 0x1D668, 0x1D69C]),
   ('e', [0x1D49, 0x2091, 0x212F, 0x2147, 0xFF45, 0x1D41E, 0x1D452, 0x1D486, 0x1D4EE, 0x1D522,
      0x1D556, 0x1D58A, 0x1D5BE, 0x1D5F2, 0x1D626, 0x1D65A, 0x1D68E]),
   ('t', [0x1D57, 0x209C, 0xFF54, 0x1D42D, 0x1D461, 0x1D495, 0x1D4C9, 0x1D4FD, 0x1D531, 0x1D565,
      0x1D599, 0x1D5CD, 0x1D601, 0x1D635, 0x1D669, 0x1D69D])]

def namesSet (word : Text) : Bool :=
  word.length == setLetters.length &&
    (word.zip setLetters).all fun (c, letter, styled) => c == letter || styled.contains c.toNat

/-- What a call without arguments is. -/
def call : Term → Term
  | .name word => if namesSet word then .set [] else .other
  | _ => .other

end Term

end TypedScript.Literal
