import TypedScript.Decimal.Binary
import TypedScript.Files.Path

set_option autoImplicit false

/-!
Settings data are dynamic values, of kinds that are known here or of any other
class. A mapping keeps the order of insertion; two keys are the same if they are
equal as numbers, texts or tuples of such, so that `1`, `1.0` and `True` are one
key.
-/

namespace TypedScript

/-- An error that comes from outside, by its class and its message. -/
structure Raised where
  kind : String
  message : String
  deriving DecidableEq, Repr

/-- A value of another class, known by what it answers. Any answer can be an error instead. -/
structure Foreign where
  typeName : String
  /-- Values with the same number are one key. -/
  identity : Nat
  /-- Whether it counts as true. -/
  truth : Except Raised Bool
  text : Except Raised String
  /-- Its text inside a collection. -/
  shown : Except Raised String
  /-- Its words as a command, if it is a text or a sequence. -/
  words : Except Raised (Option (List String))
  /-- The double that it stands for, if any. -/
  seconds : Except Raised (Option Float)
  /-- Whether it is zero or below. -/
  isNotPositive : Except Raised Bool
  /-- Whether it is equal to the empty text. -/
  isBlank : Except Raised Bool
  /-- A text that names the path it stands for. -/
  path : Except Raised Text
  deriving Repr

inductive Value where
  | null
  | bool (b : Bool)
  | int (n : Int)
  | float (x : Float)
  | complex (re im : Float)
  | str (s : String)
  | bytes (b : Bytes)
  | ellipsis
  | list (items : List Value)
  | tuple (items : List Value)
  | set (items : List Value)
  | dict (entries : List (Value × Value))
  /-- The path that a text names. -/
  | path (name : Text)
  /-- A mapping of another class is a `dict` where its entries are looked at, and is this where it
  stands for a single setting. -/
  | other (value : Foreign)
  deriving Inhabited, Repr

/-- The entries of a mapping in the order of insertion. -/
abbrev Entries := List (Value × Value)

namespace Value

def typeName : Value → String
  | .null => "NoneType"
  | .bool _ => "bool"
  | .int _ => "int"
  | .float _ => "float"
  | .complex .. => "complex"
  | .str _ => "str"
  | .bytes _ => "bytes"
  | .ellipsis => "ellipsis"
  | .list _ => "list"
  | .tuple _ => "tuple"
  | .set _ => "set"
  | .dict _ => "dict"
  | .path _ => "PosixPath"
  | .other value => value.typeName

/-- Nothing, zero and what is empty count as false. -/
def truth : Value → Except Raised Bool
  | .null => .ok false
  | .bool b => .ok b
  | .int n => .ok (n != 0)
  | .float x => .ok (x != 0.0)
  | .complex re im => .ok (re != 0.0 || im != 0.0)
  | .str s => .ok !s.isEmpty
  | .bytes b => .ok !b.isEmpty
  | .ellipsis | .path _ => .ok true
  | .list items | .tuple items | .set items => .ok !items.isEmpty
  | .dict entries => .ok !entries.isEmpty
  | .other value => value.truth

/-- The integer that a double is equal to, if there is one. -/
def integral? (x : Float) : Option Int :=
  match FloatClass.of x with
  | .finite b => if b.ratio.1 % b.ratio.2 = 0 then some b.truncate else none
  | .nan | .infinite _ => none

/-- Numbers in the smallest type that holds them exactly. -/
def canonical : Value → Value
  | .bool b => .int (if b then 1 else 0)
  | .float x => match integral? x with
    | some n => .int n
    | none => .float x
  | .complex re im =>
    if im == 0.0 then match integral? re with
      | some n => .int n
      | none => .float re
    else .complex re im
  | v => v

/-- A NaN is the same key as itself. -/
def sameFloat (x y : Float) : Bool := x == y || (x.isNaN && y.isNaN)

/-- Equality of two values that hold no others. -/
def sameScalar (a b : Value) : Bool :=
  match canonical a, canonical b with
  | .null, .null | .ellipsis, .ellipsis => true
  | .int m, .int n => m == n
  | .float x, .float y => sameFloat x y
  | .complex re im, .complex re' im' => sameFloat re re' && sameFloat im im'
  | .str s, .str t => s == t
  | .bytes b, .bytes c => b == c
  | .path p, .path q => Path.ofText p == Path.ofText q
  | .other v, .other w => v.identity == w.identity
  | _, _ => false

mutual

/-- Equality of keys. Lists, sets and mappings are no keys. -/
def same : Value → Value → Bool
  | .tuple xs, .tuple ys => sameItems xs ys
  | .tuple _, _ | _, .tuple _ => false
  | x, y => sameScalar x y

def sameItems : List Value → List Value → Bool
  | [], [] => true
  | x :: xs, y :: ys => same x y && sameItems xs ys
  | _, _ => false

end

mutual

/-- The type of the first part of a value that keeps it from being a key. -/
def keyless? : Value → Option String
  | .tuple items => keylessItem? items
  | .list _ => some "list"
  | .set _ => some "set"
  | .dict _ => some "dict"
  | .null | .bool _ | .int _ | .float _ | .complex .. | .str _ | .bytes _ | .ellipsis | .path _
  | .other _ => none

def keylessItem? : List Value → Option String
  | [] => none
  | item :: rest => (keyless? item).or (keylessItem? rest)

end

/-- The values that a value gives one by one, if it gives any: of a text its characters, of bytes
their numbers, of a mapping its keys. -/
def items? : Value → Option (List Value)
  | .list items | .tuple items | .set items => some items
  | .str s => some (s.toList.map fun c => .str (String.ofList [c]))
  | .bytes b => some (b.map fun byte => .int byte.toNat)
  | .dict entries => some (entries.map (·.1))
  | .null | .bool _ | .int _ | .float _ | .complex .. | .ellipsis | .path _ | .other _ => none

end Value

namespace Entries

def find? (key : Value) : Entries → Option Value
  | [] => none
  | (k, v) :: rest => if k.same key then some v else find? key rest

/-- Gives a key a value. A key that is there keeps its place. -/
def insert (key value : Value) : Entries → Entries
  | [] => [(key, value)]
  | (k, v) :: rest =>
    if k.same key then (k, value) :: rest else (k, v) :: insert key value rest

/-- The value of a text key, or null. -/
def get (name : String) (entries : Entries) : Value := (find? (.str name) entries).getD .null

end Entries

/-- Adds an item to a set, unless it is there. -/
def Value.adjoin (items : List Value) (item : Value) : List Value :=
  if items.any (·.same item) then items else items ++ [item]

end TypedScript
