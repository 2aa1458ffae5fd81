import TypedScript.Decimal.Binary
import TypedScript.Text.Blank
import TypedScript.Text.Digit

set_option autoImplicit false

/-!
Reading a double from a text: decimal digits of any script, single underscores
between digits, a point, an exponent, or a spelled infinity or NaN.
-/

namespace TypedScript.Decimal

/-- The parts of a number in decimal notation. -/
structure Numeral where
  whole : List Char
  fraction : List Char
  exponent : Int
  deriving DecidableEq, Repr

def Numeral.toFloat (n : Numeral) (negative : Bool) : Float :=
  floatOfDecimal negative (decimalValue (n.whole ++ n.fraction)) (n.exponent - n.fraction.length)

/-- An optional sign and what is behind it. -/
def sign : List Char → Bool × List Char
  | '-' :: rest => (true, rest)
  | '+' :: rest => (false, rest)
  | rest => (false, rest)

/-- The exponent behind its mark, which must have digits and nothing else. -/
def exponent? : List Char → Option Int
  | [] => some 0
  | mark :: rest =>
    if mark = 'e' ∨ mark = 'E' then
      let (negative, digits) := sign rest
      if !digits.isEmpty && digits.all isAsciiDigit then
        let value : Int := decimalValue digits
        some (if negative then -value else value)
      else none
    else none

/-- Digits with at most one point among or beside them, then an optional exponent. -/
def numeral? (t : List Char) : Option Numeral :=
  let whole := t.takeWhile isAsciiDigit
  match t.dropWhile isAsciiDigit with
  | '.' :: rest =>
    let fraction := rest.takeWhile isAsciiDigit
    if whole.isEmpty && fraction.isEmpty then none
    else (exponent? (rest.dropWhile isAsciiDigit)).map fun e => ⟨whole, fraction, e⟩
  | rest => if whole.isEmpty then none else (exponent? rest).map fun e => ⟨whole, [], e⟩

/-- Removes underscores, each of which must stand between two digits. -/
def dropUnderscores? (before : Option Char) : List Char → Option (List Char)
  | [] => some []
  | '_' :: c :: rest =>
    if (before.map isAsciiDigit).getD false && isAsciiDigit c then
      (dropUnderscores? (some c) rest).map (c :: ·)
    else none
  | c :: rest => if c = '_' then none else (dropUnderscores? (some c) rest).map (c :: ·)

def lowerAscii (c : Char) : Char :=
  if 65 ≤ c.toNat && c.toNat ≤ 90 then Char.ofNat (c.toNat + 32) else c

/-- A number in plain ASCII, with a sign before it or not. -/
def ofAscii? (t : List Char) : Option Float :=
  let (negative, rest) := sign t
  let word := rest.map lowerAscii
  if word = ['n', 'a', 'n'] then some (0.0 / 0.0)
  else if word = ['i', 'n', 'f'] ∨ word = ['i', 'n', 'f', 'i', 'n', 'i', 't', 'y'] then
    some (if negative then -1.0 / 0.0 else 1.0 / 0.0)
  else (numeral? rest).map (·.toFloat negative)

/-- Digits of other scripts and blanks beyond ASCII, in plain ASCII. -/
def toAscii (c : Char) : Char :=
  if c.toNat < 127 then c
  else if isBlank c then ' '
  else match digitValue? c with
    | some d => Char.ofNat (48 + d)
    | none => '?'

/-- The blanks that may stand around a number. -/
def isMargin (c : Char) : Bool := c == ' ' || (9 ≤ c.toNat && c.toNat ≤ 13)

def ofAsciiField? (t : List Char) : Option Float :=
  let field := ((t.dropWhile isMargin).reverse.dropWhile isMargin).reverse
  (dropUnderscores? none field).bind ofAscii?

def ofText? (t : List Char) : Option Float := ofAsciiField? (t.map toAscii)

end TypedScript.Decimal
