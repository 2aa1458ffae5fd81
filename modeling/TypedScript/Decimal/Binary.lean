set_option autoImplicit false

/-!
Doubles taken apart and put together in exact arithmetic: a finite double is a
significand times a power of two, and a ratio of natural numbers has a nearest
double, a half going to the even neighbour.
-/

namespace TypedScript

def twoTo (n : Nat) : Nat := Nat.pow 2 n

def tenTo (n : Nat) : Nat := Nat.pow 10 n

/-- The number `significand * 2 ^ exponent`, with a sign that zero has too. -/
structure Binary where
  negative : Bool
  significand : Nat
  exponent : Int
  deriving DecidableEq, Repr

inductive FloatClass where
  | nan
  | infinite (negative : Bool)
  | finite (b : Binary)
  deriving DecidableEq, Repr

def FloatClass.ofBits (bits : Nat) : FloatClass :=
  let negative := bits / twoTo 63 % 2 == 1
  let exponent : Nat := bits / twoTo 52 % twoTo 11
  let fraction := bits % twoTo 52
  if exponent = 2047 then if fraction = 0 then .infinite negative else .nan
  else if exponent = 0 then .finite ⟨negative, fraction, -1074⟩
  else .finite ⟨negative, fraction + twoTo 52, (exponent : Int) - 1075⟩

def FloatClass.of (x : Float) : FloatClass := .ofBits x.toBits.toNat

/-- The magnitude as a ratio. -/
def Binary.ratio (b : Binary) : Nat × Nat :=
  if 0 ≤ b.exponent then (b.significand * twoTo b.exponent.toNat, 1)
  else (b.significand, twoTo (-b.exponent).toNat)

/-- The whole part, toward zero. -/
def Binary.truncate (b : Binary) : Int :=
  let whole : Nat := b.ratio.1 / b.ratio.2
  if b.negative then -whole else whole

/-- A quotient rounded to the nearest natural number, a half to the even one. -/
def roundDiv (numerator denominator : Nat) : Nat :=
  let whole := numerator / denominator
  let twice := 2 * (numerator % denominator)
  if twice < denominator then whole
  else if denominator < twice then whole + 1
  else whole + whole % 2

/-- The bits of the double nearest to a positive ratio; beyond the largest double, of infinity. -/
def nearestBits (numerator denominator : Nat) : Nat :=
  let scaled (e : Int) : Nat × Nat :=
    if 0 ≤ e then (numerator, denominator * twoTo e.toNat)
    else (numerator * twoTo (-e).toNat, denominator)
  let low := max ((numerator.log2 : Int) - denominator.log2 - 53) (-1074)
  let e := if (scaled low).1 / (scaled low).2 < twoTo 53 then low else low + 1
  let m := roundDiv (scaled e).1 (scaled e).2
  let bits := if m < twoTo 52 then m else (e + 1075).toNat * twoTo 52 + (m - twoTo 52)
  min bits (2047 * twoTo 52)

def nearest (negative : Bool) (numerator denominator : Nat) : Float :=
  let bits := if numerator = 0 then 0 else nearestBits numerator denominator
  Float.ofBits (bits + if negative then twoTo 63 else 0).toUInt64

/-- A number in decimal notation, `digits * 10 ^ exponent`. Exponents far out of range are decided
by the place of the leading digit alone. -/
def floatOfDecimal (negative : Bool) (digits : Nat) (exponent : Int) : Float :=
  let place := (Nat.toDigits 10 digits).length + exponent
  if digits = 0 ∨ place < -400 then nearest negative 0 1
  else if 400 < place then Float.ofBits (2047 * twoTo 52 + if negative then twoTo 63 else 0 : Nat).toUInt64
  else if 0 ≤ exponent then nearest negative (digits * tenTo exponent.toNat) 1
  else nearest negative digits (tenTo (-exponent).toNat)

/-- The nearest double of an integer; none if it is out of range. -/
def floatOfInt? (n : Int) : Option Float :=
  let x := nearest (n < 0) n.natAbs 1
  if x.isInf then none else some x

end TypedScript
