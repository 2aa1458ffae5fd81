import TypedScript.Text.Letter
import TypedScript.Text.Blank
import TypedScript.Types

set_option autoImplicit false

/-!
Whole-text substitution rules. A rule looks at the character before a place and
at the text ahead, and answers how many characters it replaces there. A text is
walked once from left to right, and what a rule writes is not looked at again.
-/

namespace TypedScript.Lowering

structure Rule where
  /-- The length of the match at a place, which is positive. -/
  matched? : Option Char → Text → Option Nat
  replacement : Text

def Rule.applyFrom (r : Rule) (before : Option Char) : Text → Text
  | [] => []
  | c :: rest =>
    match r.matched? before (c :: rest) with
    | none => c :: r.applyFrom (some c) rest
    | some n =>
      r.replacement ++ r.applyFrom (((c :: rest).take n).getLast?) (rest.drop (n - 1))
termination_by t => t.length
decreasing_by all_goals simp only [List.length_drop, List.length_cons]; omega

def Rule.apply (r : Rule) (t : Text) : Text := r.applyFrom none t

/-- No word goes on at the beginning of the text ahead. -/
def wordEnds (ahead : Text) : Bool := !(ahead.head?.map isWordChar).getD false

/-- A word stands at a place if no word character touches it on either side. -/
def wholeWord? (word : Text) (before : Option Char) (ahead : Text) : Option Nat :=
  if !(before.map isWordChar).getD false && word.isPrefixOf ahead && wordEnds (ahead.drop word.length)
  then some word.length else none

def isSpaceOrTab (c : Char) : Bool := c == ' ' || c == '\t'

def spaces (ahead : Text) : Nat := (ahead.takeWhile isSpaceOrTab).length

/-- The length of a primitive type's name at a place. -/
def primitive? (ahead : Text) : Option Nat :=
  (TypeName.all.find? fun name =>
    name.text.isPrefixOf ahead && wordEnds (ahead.drop name.text.length)).map (·.text.length)

/-- The length of a mark with a primitive type's name behind it, spaces and tabs between. -/
def marked? (mark : Char) (ahead : Text) : Option Nat :=
  let lead := spaces ahead
  match ahead.drop lead with
  | [] => none
  | c :: rest =>
    if c = mark then
      (primitive? (rest.drop (spaces rest))).map fun n => lead + 1 + spaces rest + n
    else none

/-- The length of the further names behind bars. -/
def alternatives : Text → Nat
  | [] => 0
  | c :: rest =>
    match marked? '|' (c :: rest) with
    | none => 0
    | some n => n + alternatives (rest.drop (n - 1))
termination_by t => t.length
decreasing_by simp only [List.length_drop, List.length_cons]; omega

/-- The length of a type union behind a colon, with the spaces and tabs before the colon. -/
def typing? (ahead : Text) : Option Nat :=
  (marked? ':' ahead).map fun n => n + alternatives (ahead.drop n)

/-- A call of `print`: the name, not a part of a longer name or of a member, before an opening
parenthesis. -/
def printCall? (before : Option Char) (ahead : Text) : Option Nat :=
  let name := ['p', 'r', 'i', 'n', 't']
  let free := !(before.map fun c => isWordChar c || c == '.' || c == '$').getD false
  if free && name.isPrefixOf ahead && (Text.trimStart (ahead.drop name.length)).head? == some '('
  then some name.length else none

end TypedScript.Lowering
