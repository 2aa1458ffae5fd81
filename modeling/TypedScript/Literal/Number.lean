import TypedScript.Decimal.Reader
import TypedScript.Value.Basic

set_option autoImplicit false

/-!
Numbers of a literal: integers in four bases, decimal fractions, and imaginary
numbers, with single underscores between their digits.
-/

namespace TypedScript.Literal

/-- Integers in decimal notation have at most this many digits. -/
def digitLimit : Nat := 4300

/-- Digits with single underscores between them, and what follows. An underscore may come first
if something stands before it. -/
def digitRun (isDigit : Char → Bool) (attached : Bool) : Text → Text × Text
  | [] => ([], [])
  | '_' :: c :: rest =>
    if attached && isDigit c then
      let (digits, behind) := digitRun isDigit true rest
      (c :: digits, behind)
    else ([], '_' :: c :: rest)
  | c :: rest =>
    if isDigit c then
      let (digits, behind) := digitRun isDigit true rest
      (c :: digits, behind)
    else ([], c :: rest)

def isDigitOf (base : Nat) (c : Char) : Bool :=
  ((hexValue? c).map fun d => decide (d < base)).getD false

/-- An integer in another base, given what follows its mark. -/
def basedNumber? (base : Nat) (t : Text) : Option (Value × Text) :=
  let (digits, rest) := digitRun (isDigitOf base) true t
  if digits.isEmpty then none
  else (baseValue? base digits).map fun n => (.int n, rest)

/-- The exponent of a decimal number: a mark, perhaps a sign, and digits. -/
def exponent? : Text → Option (Int × Text)
  | mark :: rest =>
    if mark = 'e' ∨ mark = 'E' then
      let (negative, t) := Decimal.sign rest
      let (digits, behind) := digitRun isAsciiDigit false t
      if digits.isEmpty then none
      else
        let value : Int := decimalValue digits
        some (if negative then -value else value, behind)
    else none
  | [] => none

/-- Leading zeros are allowed only where all digits are zeros. -/
def wholeNumber? (digits : Text) : Option Value :=
  if digits.length > digitLimit then none
  else if digits.head? = some '0' ∧ digits.any (· != '0') then none
  else some (.int (decimalValue digits))

def decimalNumber? (t : Text) : Option (Value × Text) :=
  let (whole, rest) := digitRun isAsciiDigit false t
  let (fraction?, rest) := match rest with
    | '.' :: behind =>
      let (digits, behind) := digitRun isAsciiDigit false behind
      (some digits, behind)
    | _ => (none, rest)
  let (exponent?, rest) := match exponent? rest with
    | some (e, behind) => (some e, behind)
    | none => (none, rest)
  let numeral : Decimal.Numeral := ⟨whole, fraction?.getD [], exponent?.getD 0⟩
  match rest with
  | 'j' :: behind | 'J' :: behind => some (.complex 0.0 (numeral.toFloat false), behind)
  | _ =>
    if fraction?.isSome || exponent?.isSome then some (.float (numeral.toFloat false), rest)
    else (wholeNumber? whole).map fun value => (value, rest)

/-- A character that can stand in a word, whatever else is known about it. -/
def isWordPart (c : Char) : Bool := c.isAlphanum || c == '_' || c.toNat ≥ 128

def endsWord (t : Text) : Bool := !(t.head?.map isWordPart).getD false

/-- A number may touch a word only if the word is one that can follow a number. -/
def endsNumber (t : Text) : Bool :=
  endsWord t ||
    (["and", "else", "for", "or", "not"].any fun word =>
      word.toList.isPrefixOf t && endsWord (t.drop word.length)) ||
    ["if", "in", "is"].any fun word => word.toList.isPrefixOf t

def number? (t : Text) : Option (Value × Text) := do
  let (value, rest) ← match t with
    | '0' :: mark :: rest =>
      if mark = 'x' ∨ mark = 'X' then basedNumber? 16 rest
      else if mark = 'o' ∨ mark = 'O' then basedNumber? 8 rest
      else if mark = 'b' ∨ mark = 'B' then basedNumber? 2 rest
      else decimalNumber? t
    | _ => decimalNumber? t
  if endsNumber rest then some (value, rest) else none

end TypedScript.Literal
