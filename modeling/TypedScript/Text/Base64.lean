import TypedScript.Text.Encoding

set_option autoImplicit false

/-!
Bytes written in base 64: four characters for three bytes, with padding at the
end. Characters outside the alphabet are skipped.
-/

namespace TypedScript.Base64

def sextet? (c : Char) : Option Nat :=
  let n := c.toNat
  if 65 ≤ n ∧ n ≤ 90 then some (n - 65)
  else if 97 ≤ n ∧ n ≤ 122 then some (n - 97 + 26)
  else if 48 ≤ n ∧ n ≤ 57 then some (n - 48 + 52)
  else if c = '+' then some 62
  else if c = '/' then some 63
  else none

/-- Reads on after `place` characters of a group of four, of which `left` is still to be used;
`pads` padding characters have come in a row. A group of two or three characters must be padded
to four, and then ends the text. -/
def decodeFrom (place left pads : Nat) : Text → Option Bytes
  | [] => if place = 0 then some [] else none
  | c :: rest =>
    if c = '=' then
      if place ≥ 2 ∧ place + pads + 1 ≥ 4 then some []
      else decodeFrom place left (if place ≥ 2 then pads + 1 else pads) rest
    else match sextet? c with
      | none => decodeFrom place left pads rest
      | some n =>
        match place with
        | 0 => decodeFrom 1 n 0 rest
        | 1 => (decodeFrom 2 (n % 16) 0 rest).map ((left * 4 + n / 16).toUInt8 :: ·)
        | 2 => (decodeFrom 3 (n % 4) 0 rest).map ((left * 16 + n / 4).toUInt8 :: ·)
        | _ => (decodeFrom 0 0 0 rest).map ((left * 64 + n).toUInt8 :: ·)

def decode (t : Text) : Option Bytes := decodeFrom 0 0 0 t

end TypedScript.Base64
