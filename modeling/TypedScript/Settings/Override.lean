import TypedScript.Value.Reader

set_option autoImplicit false

/-!
Overrides are given as `KEY=VALUE` texts. The key is a path of names between
dots; the value is that of a literal, by the reader for them, or the text itself
if it is none.
-/

namespace TypedScript

inductive OverrideError where
  | missingEquals (item : Text)
  | emptyKey
  | conflict (key : Text)
  | raised (e : Raised)
  deriving DecidableEq, Repr

def OverrideError.message : OverrideError → String
  | .missingEquals item => "override '" ++ String.ofList item ++ "' is missing '='"
  | .emptyKey => "override key must not be empty"
  | .conflict key => "override '" ++ String.ofList key ++ "' conflicts with an existing value"
  | .raised e => e.message

namespace Override

/-- The names of a path; empty ones between dots do not count. -/
def path (key : Text) : List String :=
  ((Text.pieces '.' key).filter fun piece => !piece.isEmpty).map String.ofList

/-- Puts a value at a path, with mappings on the way. Fails where something else is in the way. -/
def assign (value : Value) : List String → Entries → Option Entries
  | [], entries => some entries
  | [name], entries => some (Entries.insert (.str name) value entries)
  | name :: next :: rest, entries =>
    match Entries.find? (.str name) entries with
    | none => (assign value (next :: rest) []).map fun inner =>
        Entries.insert (.str name) (.dict inner) entries
    | some (.dict inner) => (assign value (next :: rest) inner).map fun inner =>
        Entries.insert (.str name) (.dict inner) entries
    | some _ => none

def coerce (literal : ValueReader) (t : Text) : Except OverrideError Value :=
  match literal t with
  | .ok value => .ok value
  | .error (.malformed _) => .ok (.str (String.ofList t))
  | .error (.raised e) => .error (.raised e)

def apply (literal : ValueReader) (entries : Entries) (item : Text) : Except OverrideError Entries :=
  match Text.cut? '=' item with
  | none => .error (.missingEquals item)
  | some (key, text) =>
    if (path key).isEmpty then .error .emptyKey
    else do
      let value ← coerce literal text
      match assign value (path key) entries with
      | some entries => .ok entries
      | none => .error (.conflict key)

/-- The mapping that the items build together, in their order. -/
def read (literal : ValueReader) (items : List Text) : Except OverrideError Entries :=
  items.foldlM (apply literal) []

end Override
end TypedScript
