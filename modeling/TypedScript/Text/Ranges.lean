set_option autoImplicit false

/-!
Character classes are given as tables of inclusive code point ranges in
increasing order. A search stops at the first range that begins after the
character.
-/

namespace TypedScript

abbrev Ranges := List (Nat × Nat)

namespace Ranges

def contains : Ranges → Nat → Bool
  | [], _ => false
  | (low, high) :: rest, n =>
    if n < low then false
    else if n ≤ high then true
    else contains rest n

end Ranges
end TypedScript
