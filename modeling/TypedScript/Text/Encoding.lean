import TypedScript.Text.Quoted

set_option autoImplicit false

/-!
Files hold texts in UTF-8. Decoding is strict: the first byte that cannot start
or continue a well-formed sequence is reported with its position and with the
length of what had been read of its sequence.
-/

namespace TypedScript.Encoding

def encodeChar (c : Char) : Bytes :=
  let n := c.toNat
  if n < 0x80 then [n.toUInt8]
  else if n < 0x800 then [(0xC0 + n / 64).toUInt8, (0x80 + n % 64).toUInt8]
  else if n < 0x10000 then
    [(0xE0 + n / 4096).toUInt8, (0x80 + n / 64 % 64).toUInt8, (0x80 + n % 64).toUInt8]
  else
    [(0xF0 + n / 262144).toUInt8, (0x80 + n / 4096 % 64).toUInt8, (0x80 + n / 64 % 64).toUInt8,
      (0x80 + n % 64).toUInt8]

def encode (t : Text) : Bytes := t.flatMap encodeChar

inductive Reason where
  | invalidStart
  | invalidContinuation
  | unexpectedEnd
  deriving DecidableEq, Repr

structure DecodeError where
  reason : Reason
  first : UInt8
  position : Nat
  length : Nat
  deriving DecidableEq, Repr

def Reason.message : Reason → String
  | .invalidStart => "invalid start byte"
  | .invalidContinuation => "invalid continuation byte"
  | .unexpectedEnd => "unexpected end of data"

def DecodeError.message (e : DecodeError) : String :=
  let spot :=
    if e.length ≤ 1 then
      "byte 0x" ++ String.ofList (Quoted.hex 2 e.first.toNat) ++ s!" in position {e.position}"
    else s!"bytes in position {e.position}-{e.position + e.length - 1}"
  s!"'utf-8' codec can't decode {spot}: {e.reason.message}"

/-- The ranges of the bytes that must follow a lead byte; none if it leads nothing. Overlong
forms, surrogates and numbers beyond the last code point are excluded by the first follower. -/
def followers? (lead : Nat) : Option (List (Nat × Nat)) :=
  let any := (0x80, 0xBF)
  if lead < 0x80 then some []
  else if lead < 0xC2 then none
  else if lead < 0xE0 then some [any]
  else if lead = 0xE0 then some [(0xA0, 0xBF), any]
  else if lead = 0xED then some [(0x80, 0x9F), any]
  else if lead < 0xF0 then some [any, any]
  else if lead = 0xF0 then some [(0x90, 0xBF), any, any]
  else if lead < 0xF4 then some [any, any, any]
  else if lead = 0xF4 then some [(0x80, 0x8F), any, any]
  else none

/-- The bits of the code point that the lead byte itself carries. -/
def leadBits (lead : Nat) : Nat :=
  if lead < 0x80 then lead
  else if lead < 0xE0 then lead - 0xC0
  else if lead < 0xF0 then lead - 0xE0
  else lead - 0xF0

/-- Reads the followers of a sequence of which `read` bytes are known: the code point and the
number of bytes of the sequence. -/
def follow (value read : Nat) : List (Nat × Nat) → Bytes → Except (Reason × Nat) (Nat × Nat)
  | [], _ => .ok (value, read)
  | _ :: _, [] => .error (.unexpectedEnd, read)
  | (low, high) :: ranges, b :: rest =>
    if low ≤ b.toNat ∧ b.toNat ≤ high then
      follow (64 * value + (b.toNat - 0x80)) (read + 1) ranges rest
    else .error (.invalidContinuation, read)

def decodeFrom (position : Nat) : Bytes → Except DecodeError Text
  | [] => .ok []
  | lead :: rest =>
    match followers? lead.toNat with
    | none => .error ⟨.invalidStart, lead, position, 1⟩
    | some ranges =>
      match follow (leadBits lead.toNat) 1 ranges rest with
      | .error (reason, length) => .error ⟨reason, lead, position, length⟩
      | .ok (value, length) =>
        match decodeFrom (position + length) (rest.drop (length - 1)) with
        | .error e => .error e
        | .ok more => .ok (Char.ofNat value :: more)
termination_by bytes => bytes.length
decreasing_by simp only [List.length_drop, List.length_cons]; omega

def decode (bytes : Bytes) : Except DecodeError Text := decodeFrom 0 bytes

end TypedScript.Encoding
