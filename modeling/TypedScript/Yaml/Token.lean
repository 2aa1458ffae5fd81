import TypedScript.Text.Ranges
import TypedScript.Yaml.Fault

set_option autoImplicit false

/-!
Tokens of a YAML document, and the characters that part them. If reading fails,
the fault is the last token, so that whoever reads the tokens meets it only when
everything before it has been used.
-/

namespace TypedScript.Yaml

inductive Directive where
  | version (major : Nat)
  | handle (handle start : Text)
  | unknown
  deriving DecidableEq, Repr

inductive Token where
  | directive (d : Directive)
  | documentStart
  | documentEnd
  | blockSequence
  | blockMapping
  | blockEnd
  | sequenceOpen
  | sequenceClose
  | mappingOpen
  | mappingClose
  | entry
  | comma
  | key
  | value
  | alias (name : Text)
  | anchor (name : Text)
  | tag (handle : Option Text) (suffix : Text)
  | scalar (t : Text) (isPlain : Bool)
  | streamEnd
  | fault (f : Fault)
  deriving DecidableEq, Repr

def printableInYaml : Ranges :=
  [(9, 10), (13, 13), (32, 126), (133, 133), (160, 0xD7FF), (0xE000, 0xFFFD), (0x10000, 0x10FFFF)]

def byteOrderMark : Char := Char.ofNat 0xFEFF

def breakChars : List Char := ['\n', Char.ofNat 0x85, Char.ofNat 0x2028, Char.ofNat 0x2029]

def isBreak (c : Char) : Bool := breakChars.contains c

/-- The next character, if any, is a space, a tab or a line break. -/
def isGap : Option Char → Bool
  | none => true
  | some c => c == ' ' || c == '\t' || isBreak c

/-- A line that begins with three dashes or dots ends or begins a document. -/
def isMarker (mark : Char) (ahead : Text) : Bool :=
  ahead.take 3 == [mark, mark, mark] && isGap (ahead.drop 3).head?

def isAnyMarker (ahead : Text) : Bool := isMarker '-' ahead || isMarker '.' ahead

end TypedScript.Yaml
