import TypedScript.Proofs.Settings.Reachable

set_option autoImplicit false

/-!
Merging into settings. The mapping of settings is read back to them, so what
overrides do not name stays as it is; what they name is read from the value they
give, and a section of another kind brings the defaults back. The one exception
is an empty stem, which does not survive its own mapping.
-/

namespace TypedScript.Settings

open Entries

namespace Leaf

/-- Overrides give a leaf a value. -/
def Given (leaf : Leaf) (overrides : Entries) (value : Value) : Prop :=
  ∃ inner, find? (.str leaf.group) overrides = some (.dict inner) ∧
    find? (.str leaf.key) inner = some value

/-- A mapping that gives one leaf a value and nothing else. -/
def alone (leaf : Leaf) (value : Value) : Entries :=
  [(.str leaf.group, .dict [(.str leaf.key, value)])]

section

variable {leaf : Leaf} {s : Settings} {overrides : Entries} (mapping : formMapping overrides = true)
include mapping

end

end Leaf

/-- Settings as their own mapping has them: with the default stem in the place of an empty one. -/
def settled (s : Settings) : Settings :=
  { s with run := { s.run with stem := Leaf.stem.settled s.run.stem } }

namespace Reachable

variable {s : Settings} (reachable : s.Reachable)
include reachable

end Reachable

/-- An error without a message, as a value: it counts as true, and its text is empty. -/
def bareError : Foreign where
  typeName := "Exception"
  identity := 0
  truth := .ok true
  text := .ok ""
  shown := .ok "Exception()"
  words := .ok none
  seconds := .ok none
  isNotPositive :=
    .error ⟨"TypeError", "'<=' not supported between instances of 'Exception' and 'int'"⟩
  isBlank := .ok false
  path := .error ⟨"TypeError", "expected str, bytes or os.PathLike object, not Exception"⟩

/-- Data that give the stem by an error without a message. -/
def stemless : Value :=
  .dict [(.str "runtime", .dict [(.str "temp_prefix", .other bareError)])]

end TypedScript.Settings
