import TypedScript.Decimal.Reader
import TypedScript.Text.Base64
import TypedScript.Value.Basic
import TypedScript.Yaml.Fault
import TypedScript.Yaml.Tag

set_option autoImplicit false

/-!
What scalars stand for. A plain scalar has the tag of null, of a truth value, of
an integer in one of five notations, of a float, or else of a text; two have a
meaning as keys only: `<<` merges mappings, and `=` is a text. The tag, be it
found so or given, says how the value is built.
-/

namespace TypedScript.Yaml

def nullWords : List String := ["", "~", "null", "Null", "NULL"]

def trueWords : List String :=
  ["yes", "Yes", "YES", "true", "True", "TRUE", "on", "On", "ON"]

def falseWords : List String :=
  ["no", "No", "NO", "false", "False", "FALSE", "off", "Off", "OFF"]

def infinityWords : List String := [".inf", ".Inf", ".INF"]

def nanWords : List String := [".nan", ".NaN", ".NAN"]

/-! ### The forms of numbers -/

def isDigitOrUnderscore (base : Nat) (c : Char) : Bool :=
  c == '_' || ((hexValue? c).map fun d => decide (d < base)).getD false

/-- Some digits and underscores of a base. -/
def areDigits (base : Nat) (t : Text) : Bool := !t.isEmpty && t.all (isDigitOrUnderscore base)

/-- A digit, and then digits and underscores. -/
def isDecimal (t : Text) : Bool :=
  (t.head?.map isAsciiDigit).getD false && t.all (isDigitOrUnderscore 10)

/-- One of sixty: a digit, or two with the first below six. -/
def isSixtieth : Text → Bool
  | [a] => isAsciiDigit a
  | [a, b] => isAsciiDigit a && a.toNat < 54 && isAsciiDigit b
  | _ => false

/-- The form of an integer without its sign. -/
def isMagnitude : Text → Bool
  | ['0'] => true
  | '0' :: 'b' :: digits => areDigits 2 digits
  | '0' :: 'x' :: digits => areDigits 16 digits
  | '0' :: digits => areDigits 8 digits
  | t =>
    match Text.pieces ':' t with
    | first :: more => isDecimal first && more.all isSixtieth
    | [] => false

def isInteger (t : Text) : Bool := isMagnitude (Decimal.sign t).2

/-- Digits behind a point, and perhaps an exponent, which needs its sign. -/
def isFloatTail (t : Text) : Bool :=
  match t.dropWhile (isDigitOrUnderscore 10) with
  | [] => true
  | mark :: sign :: digits =>
    (mark == 'e' || mark == 'E') && (sign == '-' || sign == '+') && !digits.isEmpty &&
      digits.all isAsciiDigit
  | _ => false

/-- The form of a float without its sign; a bare point before digits, or before the word for what
is no number, takes none. -/
def isFloatMagnitude (hasSign : Bool) (t : Text) : Bool :=
  let whole := t.takeWhile (· != '.')
  match t.dropWhile (· != '.') with
  | [] => false
  | _ :: tail =>
    if infinityWords.contains (String.ofList t) then true
    else if nanWords.contains (String.ofList t) then !hasSign
    else if whole.isEmpty then
      (tail.head?.map isAsciiDigit).getD false && isFloatTail tail && !hasSign
    else match Text.pieces ':' whole with
      | [digits] => isDecimal digits && isFloatTail tail
      | first :: more =>
        isDecimal first && more.all isSixtieth && tail.all (isDigitOrUnderscore 10)
      | [] => false

def isFloat (t : Text) : Bool :=
  let rest := (Decimal.sign t).2
  isFloatMagnitude (rest.length < t.length) rest

/-- A line feed at the end of a scalar does not change its form. -/
def withoutLastBreak (t : Text) : Text :=
  if t.length > 1 ∧ t.getLast? = some '\n' then t.dropLast else t

/-- The tag of a plain scalar. -/
def Tag.ofPlain (t : Text) : Tag :=
  let form := withoutLastBreak t
  let word := String.ofList form
  if nullWords.contains word then .null
  else if trueWords.contains word || falseWords.contains word then .bool
  else if word = "<<" then .merge
  else if word = "=" then .value
  else if isFloat form then .float
  else if isInteger form then .int
  else .str

/-! ### Values -/

def withoutUnderscores (t : Text) : Text := t.filter (· != '_')

/-- What follows the mark of a base, if it is there. -/
def dropBaseMark (base : Nat) (t : Text) : Text :=
  match t with
  | '0' :: mark :: rest =>
    let mark := Decimal.lowerAscii mark
    if (base = 2 ∧ mark = 'b') ∨ (base = 8 ∧ mark = 'o') ∨ (base = 16 ∧ mark = 'x') then rest else t
  | t => t

/-- The integer that digits of a base spell, with blanks around it and a sign before it or not. Of
decimal digits there may be so many. -/
def wholeNumber (base : Nat) (t : Text) : Except Fault Int :=
  let field := (t.map Decimal.toAscii).dropWhile Decimal.isMargin
  let (negative, rest) := Decimal.sign (field.reverse.dropWhile Decimal.isMargin).reverse
  let digits := dropBaseMark base rest
  match baseValue? base digits with
  | some n =>
    if digits.isEmpty then .error (.badInteger base t)
    else if base = 10 ∧ digits.length > 4300 then .error (.longInteger digits.length)
    else .ok (if negative then -n else n)
  | none => .error (.badInteger base t)

/-- Places of sixty, the most significant first. -/
def sexagesimal (pieces : List Int) : Int := pieces.foldl (fun n piece => 60 * n + piece) 0

/-- An integer without its sign. -/
def magnitude : Text → Except Fault Int
  | [] => .error .emptyNumber
  | ['0'] => .ok 0
  | '0' :: 'b' :: digits => wholeNumber 2 digits
  | '0' :: 'x' :: digits => wholeNumber 16 digits
  | '0' :: digits => wholeNumber 8 ('0' :: digits)
  | t =>
    if t.contains ':' then ((Text.pieces ':' t).mapM (wholeNumber 10)).map sexagesimal
    else wholeNumber 10 t

def integer (t : Text) : Except Fault Value :=
  let (negative, rest) := Decimal.sign (withoutUnderscores t)
  (magnitude rest).map fun n => .int (if negative then -n else n)

/-- Places of sixty of which the last may have a fraction, added from the least one up. -/
def sexagesimalFloat (pieces : List Float) : Float :=
  (pieces.reverse.foldl
    (fun (total, base) piece => (total + piece * nearest false base 1, base * 60))
    ((0.0 : Float), (1 : Nat))).1

def floatPiece (t : Text) : Except Fault Float :=
  match Decimal.ofText? t with
  | some x => .ok x
  | none => .error (.badFloat t)

def floatMagnitude (t : Text) : Except Fault Float :=
  if t = ".inf".toList then .ok (1.0 / 0.0)
  else if t = ".nan".toList then .ok (0.0 / 0.0)
  else if t.contains ':' then ((Text.pieces ':' t).mapM floatPiece).map sexagesimalFloat
  else floatPiece t

def float (t : Text) : Except Fault Value :=
  let digits := (withoutUnderscores t).map Decimal.lowerAscii
  if digits.isEmpty then .error .emptyNumber
  else
    let (negative, rest) := Decimal.sign digits
    (floatMagnitude rest).map fun x => .float (if negative then -x else x)

def boolean (t : Text) : Except Fault Value :=
  let word := t.map Decimal.lowerAscii
  if trueWords.contains (String.ofList word) then .ok (.bool true)
  else if falseWords.contains (String.ofList word) then .ok (.bool false)
  else .error (.badBoolean word)

/-- The value of a scalar under a tag. A time is kept as its text. -/
def scalarValue (t : Text) : Tag → Except Fault Value
  | .null => .ok .null
  | .bool => boolean t
  | .int => integer t
  | .float => float t
  | .binary =>
    match if t.all (·.toNat < 128) then Base64.decode t else none with
    | some bytes => .ok (.bytes bytes)
    | none => .error .badBinary
  | .str | .timestamp => .ok (.str (String.ofList t))
  | .seq | .orderedMap | .pairs => .error .expectedSequence
  | .map | .set => .error .expectedMapping
  | .merge | .value | .unknown => .error .unknownTag

end TypedScript.Yaml
