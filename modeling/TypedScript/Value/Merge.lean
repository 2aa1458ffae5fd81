import TypedScript.Value.Basic

set_option autoImplicit false

/-!
Merging mappings: where both sides hold a mapping under a key the two are merged,
otherwise the update wins.
-/

namespace TypedScript.Entries

mutual

/-- What a key holds after an update, given what it held before. -/
def mergeValue (old : Option Value) : Value → Value
  | .dict updates =>
    match old with
    | some (.dict base) => .dict (merge base updates)
    | _ => .dict updates
  | value => value

def merge (base : Entries) : Entries → Entries
  | [] => base
  | (key, value) :: rest =>
    merge (insert key (mergeValue (find? key base) value) base) rest

end

end TypedScript.Entries
