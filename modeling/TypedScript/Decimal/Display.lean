import TypedScript.Decimal.Binary

set_option autoImplicit false

/-!
The text of a double: the fewest decimal digits that read back to it, the
nearest of those, laid out positionally or with an exponent. With a fixed number
of places the exact value is rounded, a half to the even digit.
-/

namespace TypedScript

/-- The number `digits * 10 ^ exponent`. -/
structure Decimal where
  digits : Nat
  exponent : Int
  deriving DecidableEq, Repr

namespace Decimal

/-- The exponent of the leading decimal digit of a positive ratio. -/
def leadingPlace (numerator denominator : Nat) : Int :=
  (Nat.toDigits 10 (numerator * tenTo 400 / denominator)).length - 401

/-- The point of the grid of multiples of `10 ^ place` that reads back to a positive double, the
nearer one if both neighbours do. The reals that read back to it lie between the midpoints to
the doubles beside it, and include them if the significand is even. -/
def onGrid? (b : Binary) (place : Int) : Option Nat :=
  -- In units of a quarter of the last place the value is `4 m`.
  let middle := 4 * b.significand
  let low := middle - if b.significand = twoTo 52 ∧ -1074 < b.exponent then 1 else 2
  let high := middle + 2
  let quarter := b.exponent - 2
  let (valueScale, gridScale) :=
    if 0 ≤ quarter then (twoTo quarter.toNat, 1) else (1, twoTo (-quarter).toNat)
  let (valueScale, gridScale) :=
    if 0 ≤ place then (valueScale, gridScale * tenTo place.toNat)
    else (valueScale * tenTo (-place).toNat, gridScale)
  let inside (n : Nat) : Bool :=
    if b.significand % 2 = 0 then low * valueScale ≤ n * gridScale && n * gridScale ≤ high * valueScale
    else low * valueScale < n * gridScale && n * gridScale < high * valueScale
  let below := middle * valueScale / gridScale
  match inside below, inside (below + 1) with
  | false, false => none
  | true, false => some below
  | false, true => some (below + 1)
  | true, true =>
    let twice := 2 * (middle * valueScale)
    let half := (2 * below + 1) * gridScale
    if twice < half then some below
    else if half < twice then some (below + 1)
    else some (below + below % 2)

/-- The first grid, from coarse to fine, with a point that reads back. -/
def shortestFrom (b : Binary) (place : Int) : (grids : Nat) → Decimal
  | 0 => ⟨b.significand, place⟩
  | grids + 1 =>
    match onGrid? b place with
    | some digits => ⟨digits, place⟩
    | none => shortestFrom b (place - 1) grids

def shortest (b : Binary) : Decimal :=
  if b.significand = 0 then ⟨0, 0⟩
  else shortestFrom b (leadingPlace b.ratio.1 b.ratio.2) 18

end Decimal

/-- How the digits of a double are laid out. -/
structure FloatLayout where
  /-- Exponents of the leading digit that are written positionally. -/
  positionalFrom : Int
  positionalTo : Int
  /-- Whether whole numbers end in a point and a zero. -/
  keepsPoint : Bool
  exponentWidth : Nat
  deriving DecidableEq, Repr

namespace FloatLayout

/-- Positional from a ten-thousandth up to sixteen digits. -/
def standard : FloatLayout := ⟨-4, 15, true, 2⟩

/-- As a part of a complex number: whole numbers have no point. -/
def part : FloatLayout := { standard with keepsPoint := false }

def padded (width n : Nat) : List Char :=
  let digits := Nat.toDigits 10 n
  List.replicate (width - digits.length) '0' ++ digits

def magnitude (layout : FloatLayout) (b : Binary) : List Char :=
  let d := Decimal.shortest b
  let all := Nat.toDigits 10 d.digits
  let digits := if d.digits = 0 then ['0'] else (all.reverse.dropWhile (· == '0')).reverse
  let place : Int := d.exponent + all.length - 1
  if layout.positionalFrom ≤ place ∧ place ≤ layout.positionalTo then
    if place < 0 then
      ['0', '.'] ++ List.replicate (-place - 1).toNat '0' ++ digits
    else
      let whole := place.toNat + 1
      let body := digits.take whole ++ List.replicate (whole - digits.length) '0'
      let fraction := digits.drop whole
      if fraction.isEmpty then body ++ if layout.keepsPoint then ['.', '0'] else []
      else body ++ ['.'] ++ fraction
  else
    let sign := if place < 0 then '-' else '+'
    let fraction := digits.drop 1
    digits.take 1 ++ (if fraction.isEmpty then [] else '.' :: fraction) ++
      ['e', sign] ++ padded layout.exponentWidth place.natAbs

def text (layout : FloatLayout) (x : Float) : List Char :=
  match FloatClass.of x with
  | .nan => ['n', 'a', 'n']
  | .infinite negative => (if negative then ['-'] else []) ++ ['i', 'n', 'f']
  | .finite b => (if b.negative then ['-'] else []) ++ layout.magnitude b

end FloatLayout

/-- A double with the given number of places behind the point. -/
def fixedText (places : Nat) (x : Float) : List Char :=
  match FloatClass.of x with
  | .nan => ['n', 'a', 'n']
  | .infinite negative => (if negative then ['-'] else []) ++ ['i', 'n', 'f']
  | .finite b =>
    let scaled := roundDiv (b.ratio.1 * tenTo places) b.ratio.2
    let fraction := FloatLayout.padded places (scaled % tenTo places)
    (if b.negative then ['-'] else []) ++ Nat.toDigits 10 (scaled / tenTo places) ++
      if places = 0 then [] else '.' :: fraction

end TypedScript
