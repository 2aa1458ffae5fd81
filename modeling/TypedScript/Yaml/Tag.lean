import TypedScript.Text.Basic

set_option autoImplicit false

/-!
Tags say what a node stands for. The standard ones have a common beginning; every
other tag is unknown.
-/

namespace TypedScript.Yaml

inductive Tag where
  | null | bool | int | float | binary | timestamp | str
  | seq | orderedMap | pairs | map | set
  | merge | value
  | unknown
  deriving DecidableEq, Repr

namespace Tag

def standard : String := "tag:yaml.org,2002:"

def names : List (String × Tag) :=
  [("null", .null), ("bool", .bool), ("int", .int), ("float", .float), ("binary", .binary),
   ("timestamp", .timestamp), ("str", .str), ("seq", .seq), ("omap", .orderedMap),
   ("pairs", .pairs), ("map", .map), ("set", .set), ("merge", .merge), ("value", .value)]

def ofText (t : Text) : Tag :=
  ((names.find? fun (name, _) => (standard ++ name).toList = t).map (·.2)).getD .unknown

end Tag

/-- What the handles of tags stand for, unless a directive says otherwise. -/
def standardHandles : List (Text × Text) :=
  [("!".toList, "!".toList), ("!!".toList, Tag.standard.toList)]

end TypedScript.Yaml
