import TypedScript.Text.Digit
import TypedScript.Text.Encoding
import TypedScript.Yaml.Content

set_option autoImplicit false

/-!
What may stand before a node or a document: the names of anchors and aliases,
tags, and directives. Each reader gives what it has read and its length.
-/

namespace TypedScript.Yaml

def isNameChar (c : Char) : Bool := c.isAlphanum || c == '-' || c == '_'

/-- The next character, if any, is a space or a line break. -/
def endsProperty : Option Char → Bool
  | none => true
  | some c => c == ' ' || isBreak c

/-- The name of an anchor or an alias, given what follows its mark. -/
def anchorName (t : Text) : Except Fault Text :=
  let name := t.takeWhile isNameChar
  let next := (t.drop name.length).head?
  if name.isEmpty then .error .badName
  else if isGap next || (next.map fun c => "?:,]\x7d%@\x60".toList.contains c).getD false then
    .ok name
  else .error .badName

/-! ### Tags -/

def isTagChar (c : Char) : Bool := c.isAlphanum || "-;/?:@&=+$,_.!~*'()[]%".toList.contains c

/-- Bytes in hexadecimal behind percent signs. -/
def percentBytes : Text → Except Fault Bytes
  | '%' :: a :: b :: rest =>
    match baseValue? 16 [a, b] with
    | some n => (percentBytes rest).map (n.toUInt8 :: ·)
    | none => .error .badTag
  | '%' :: _ => .error .badTag
  | _ => .ok []

/-- The characters of a tag as far as they go. Bytes behind percent signs spell characters. -/
def tagChars (t : Text) : Except Fault (Text × Nat) :=
  match t with
  | [] => .ok ([], 0)
  | c :: rest =>
    if c = '%' then do
      let bytes ← percentBytes (c :: rest)
      match Encoding.decode bytes with
      | .error _ => .error .badTag
      | .ok chars =>
        let length := 3 * bytes.length
        let (more, n) ← tagChars (rest.drop (length - 1))
        return (chars ++ more, length + n)
    else if isTagChar c then do
      let (more, n) ← tagChars rest
      return (c :: more, n + 1)
    else .ok ([], 0)
termination_by t.length
decreasing_by all_goals simp only [List.length_drop, List.length_cons]; omega

/-- The characters of a tag, of which there must be some. -/
def tagText (t : Text) : Except Fault (Text × Nat) := do
  let (chars, n) ← tagChars t
  if n = 0 then .error .badTag else return (chars, n)

/-- A handle: one exclamation mark before a blank, or a name between two. -/
def tagHandle : Text → Except Fault Text
  | '!' :: rest =>
    if rest.head? = some ' ' then .ok ['!']
    else
      let name := rest.takeWhile isNameChar
      if (rest.drop name.length).head? = some '!' then .ok ('!' :: name ++ ['!']) else .error .badTag
  | _ => .error .badTag

/-- A tag without its end, from its exclamation mark on: its handle, if it is not given in full,
and the rest of it. -/
def tagParts (t : Text) : Except Fault ((Option Text × Text) × Nat) :=
  match t.drop 1 with
  | '<' :: rest => do
    let (chars, n) ← tagText rest
    if (rest.drop n).head? = some '>' then return ((none, chars), n + 3) else .error .badTag
  | rest =>
    if isGap rest.head? then .ok ((none, ['!']), 1)
    else do
      let run := rest.takeWhile fun c => !endsProperty (some c)
      let handle ← if run.contains '!' then tagHandle t else .ok ['!']
      let (chars, n) ← tagText (t.drop handle.length)
      return ((some handle, chars), handle.length + n)

def tagProperty (t : Text) : Except Fault ((Option Text × Text) × Nat) := do
  let (parts, n) ← tagParts t
  if endsProperty (t.drop n).head? then return (parts, n) else .error .badTag

/-! ### Directives -/

def spaces (t : Text) : Nat := (t.takeWhile (· == ' ')).length

def digitsOf (t : Text) : Except Fault Text :=
  let digits := t.takeWhile isAsciiDigit
  if digits.isEmpty then .error .badDirective else .ok digits

/-- The version behind the name of its directive. -/
def versionDirective (t : Text) : Except Fault (Directive × Nat) := do
  let major ← digitsOf (t.drop (spaces t))
  let n := spaces t + major.length
  if (t.drop n).head? ≠ some '.' then .error .badDirective
  else
    let minor ← digitsOf (t.drop (n + 1))
    let n := n + 1 + minor.length
    if endsProperty (t.drop n).head? then return (.version (decimalValue major), n)
    else .error .badDirective

/-- The handle and what it stands for, behind the name of their directive. -/
def handleDirective (t : Text) : Except Fault (Directive × Nat) := do
  let handle ← tagHandle (t.drop (spaces t))
  let n := spaces t + handle.length
  let gap := spaces (t.drop n)
  if gap = 0 then .error .badDirective
  else
    let (start, length) ← tagText (t.drop (n + gap))
    let n := n + gap + length
    if endsProperty (t.drop n).head? then return (.handle handle start, n) else .error .badDirective

/-- A directive, given what follows its percent sign, and its length with the end of the line. -/
def directive (t : Text) : Except Fault (Directive × Nat) := do
  let name := t.takeWhile isNameChar
  let behind := t.drop name.length
  if name.isEmpty || !endsProperty behind.head? then .error .badDirective
  else
    let (found, n) ←
      if name = "YAML".toList then versionDirective behind
      else if name = "TAG".toList then handleDirective behind
      else .ok (.unknown, (behind.takeWhile fun c => !isBreak c).length)
    match restOfLine? (behind.drop n) with
    | some length => return (found, name.length + n + length)
    | none => .error .badDirective

end TypedScript.Yaml
