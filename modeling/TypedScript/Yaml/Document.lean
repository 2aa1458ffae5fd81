import TypedScript.Value.Reader
import TypedScript.Yaml.Node

set_option autoImplicit false

/-!
The value of a YAML document. Of equal keys the last value counts, at the place
of the first; `<<` puts the entries of other mappings before a mapping's own.
Values are built level by level, the scalars of a collection before the insides
of the collections in it, and the first fault met in that order is the one that
counts.
-/

namespace TypedScript.Yaml

/-! ### Merging -/

/-- The key of an entry that stands for itself. -/
def Node.asKey : Node → Node
  | .scalar .value t => .scalar .str t
  | node => node

mutual

/-- The entries that merge keys bring in, and a mapping's own. -/
def splitEntries : List (Node × Node) → Except Fault (List (Node × Node) × List (Node × Node))
  | [] => .ok ([], [])
  | (key, value) :: rest => do
    if key.tag = .merge then
      let entries ← broughtBy value
      let (brought, own) ← splitEntries rest
      return (entries ++ brought, own)
    else
      let (brought, own) ← splitEntries rest
      return (brought, (key.asKey, value) :: own)

/-- The entries of one mapping, or of several. -/
def broughtBy : Node → Except Fault (List (Node × Node))
  | .mapping _ entries => do
    let (brought, own) ← splitEntries entries
    return brought ++ own
  | .sequence _ items => broughtByAll items
  | .scalar .. => .error .mergeOfScalar

/-- Of several mappings the first one counts most, so it comes last. -/
def broughtByAll : List Node → Except Fault (List (Node × Node))
  | [] => .ok []
  | .mapping _ entries :: rest => do
    let (brought, own) ← splitEntries entries
    let more ← broughtByAll rest
    return more ++ (brought ++ own)
  | _ :: _ => .error .mergeOfScalar

end

/-- All entries of a mapping, those that are brought in first. -/
def allEntries (entries : List (Node × Node)) : Except Fault (List (Node × Node)) := do
  let (brought, own) ← splitEntries entries
  return brought ++ own

/-! ### Scalars -/

mutual

/-- The text of a node that is to be a scalar. A mapping has the text of its value for `=`. -/
def scalarText : Node → Except Fault Text
  | .scalar _ t => .ok t
  | .sequence .. => .error .expectedScalar
  | .mapping _ entries => scalarTextIn entries

def scalarTextIn : List (Node × Node) → Except Fault Text
  | [] => .error .expectedScalar
  | (key, value) :: rest => if key.tag = .value then scalarText value else scalarTextIn rest

end

def scalarOf (node : Node) : Except Fault Value := do
  scalarValue (← scalarText node) node.tag

/-! ### Levels -/

def Tag.isCollection : Tag → Bool
  | .seq | .orderedMap | .pairs | .map | .set => true
  | _ => false

/-- Builds a scalar, or leaves a collection for the next level. -/
def visit (node : Node) : Except Fault (List Node) :=
  if node.tag.isCollection then .ok [node]
  else (scalarOf node).map fun _ => []

/-- A collection cannot be a key. -/
def visitKey (node : Node) : Except Fault (List Node) :=
  if node.tag.isCollection then .error .keylessKey else visit node

def visitEntry (entry : Node × Node) : Except Fault (List Node) := do
  let _ ← visitKey entry.1
  visit entry.2

/-- The one entry of a mapping in an ordered mapping. -/
def soleEntry : Node → Except Fault (Node × Node)
  | .mapping _ [entry] => .ok entry
  | _ => .error .expectedMapping

def visitSole (node : Node) : Except Fault (List Node) := do
  let (key, value) ← soleEntry node
  return (← visit key) ++ (← visit value)

/-- Builds what is in a collection, and leaves the collections in it. -/
def unfold (node : Node) : Except Fault (List Node) :=
  match node.tag, node with
  | .seq, .sequence _ items => (items.mapM visit).map List.flatten
  | .map, .mapping _ entries | .set, .mapping _ entries => do
    let entries ← allEntries entries
    (entries.mapM visitEntry).map List.flatten
  | .orderedMap, .sequence _ items | .pairs, .sequence _ items =>
    (items.mapM visitSole).map List.flatten
  | .map, _ | .set, _ => .error .expectedMapping
  | _, _ => .error .expectedSequence

/-- The first fault of all levels from these nodes on. -/
def checkLevels : (depth : Nat) → List Node → Except Fault Unit
  | 0, _ => .ok ()
  | depth + 1, nodes => do
    let inner ← nodes.mapM unfold
    checkLevels depth inner.flatten

/-! ### Values -/

/-- Puts an entry into a mapping, if its key can be one. -/
def enter (found : Entries) (key value : Value) : Except Fault Entries :=
  if key.keyless?.isSome then .error .keylessKey else .ok (Entries.insert key value found)

/-- The value of a node that is nested no deeper than the given depth. -/
def valueOf : (depth : Nat) → Node → Except Fault Value
  | 0, _ => .error .expectedNode
  | depth + 1, node =>
    let entriesOf (entries : List (Node × Node)) : Except Fault Entries := do
      let entries ← allEntries entries
      entries.foldlM (fun found (key, value) => do
        enter found (← valueOf depth key) (← valueOf depth value)) []
    match node.tag, node with
    | .seq, .sequence _ items => (items.mapM (valueOf depth)).map .list
    | .map, .mapping _ entries => (entriesOf entries).map .dict
    | .set, .mapping _ entries => (entriesOf entries).map fun found => .set (found.map (·.1))
    | .orderedMap, .sequence _ items | .pairs, .sequence _ items => do
      let pairs ← items.mapM fun item => do
        let (key, value) ← soleEntry item
        return .tuple [← valueOf depth key, ← valueOf depth value]
      return .list pairs
    | _, _ => scalarOf node

/-- Reads a document; a stream without one is null. Every level takes a token, so their number
bounds the depth. -/
def read (t : Text) : Except Fault Value := do
  let found := tokens t
  let root ← Node.ofTokens found
  let first ← visit root
  checkLevels (found.length + 1) first
  valueOf (found.length + 1) root

/-- The reader for documents. It keeps dates and times as texts, and takes an alias inside its own
anchor for an empty node. -/
def reader : ValueReader := fun t => (read t).mapError fun fault =>
  if fault.isMalformed then .malformed fault.message else .raised ⟨fault.kind, fault.message⟩

end TypedScript.Yaml
