import TypedScript.Text.Basic
import TypedScript.Text.Printable

set_option autoImplicit false

/-!
Texts and byte strings shown between quotes. Single quotes are used unless the
content has single quotes only; characters that cannot be shown are written as
hexadecimal escapes of the least sufficient width.
-/

namespace TypedScript

abbrev Bytes := List UInt8

namespace Quoted

def hexDigit (n : Nat) : Char :=
  if n < 10 then Char.ofNat (48 + n) else Char.ofNat (87 + n)

/-- The lowest `width` hexadecimal digits of a number. -/
def hex : (width : Nat) → Nat → Text
  | 0, _ => []
  | width + 1, n => hex width (n / 16) ++ [hexDigit (n % 16)]

def quoteFor (hasSingle hasDouble : Bool) : Char :=
  if hasSingle && !hasDouble then '"' else '\''

def escapeChar (quote c : Char) : Text :=
  if c = '\\' || c = quote then ['\\', c]
  else if c = '\n' then ['\\', 'n']
  else if c = '\r' then ['\\', 'r']
  else if c = '\t' then ['\\', 't']
  else if isPrintable c then [c]
  else if c.toNat < 0x100 then '\\' :: 'x' :: hex 2 c.toNat
  else if c.toNat < 0x10000 then '\\' :: 'u' :: hex 4 c.toNat
  else '\\' :: 'U' :: hex 8 c.toNat

def text (t : Text) : Text :=
  let quote := quoteFor (t.contains '\'') (t.contains '"')
  quote :: t.flatMap (escapeChar quote) ++ [quote]

def escapeByte (quote : Char) (b : UInt8) : Text :=
  let c := Char.ofNat b.toNat
  if c = '\\' || c = quote then ['\\', c]
  else if c = '\n' then ['\\', 'n']
  else if c = '\r' then ['\\', 'r']
  else if c = '\t' then ['\\', 't']
  else if 0x20 ≤ b && b < 0x7F then [c]
  else '\\' :: 'x' :: hex 2 b.toNat

/-- Byte strings carry a `b` before the opening quote. -/
def bytes (b : Bytes) : Text :=
  let quote := quoteFor (b.contains 39) (b.contains 34)
  'b' :: quote :: b.flatMap (escapeByte quote) ++ [quote]

end Quoted

/-- A text between quotes, as messages show it. -/
def quoted (t : Text) : String := String.ofList (Quoted.text t)

end TypedScript
