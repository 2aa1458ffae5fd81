import TypedScript.Text.Basic
import TypedScript.Text.Ranges

set_option autoImplicit false

/-!
Blank characters separate words and tokens. Trimming removes them at the ends of
a text; `words` are the maximal runs of characters that are not blank.
-/

namespace TypedScript

def blankRanges : Ranges :=
  [(9, 13), (28, 32), (133, 133), (160, 160), (5760, 5760), (8192, 8202), (8232, 8233),
   (8239, 8239), (8287, 8287), (12288, 12288)]

def isBlank (c : Char) : Bool := blankRanges.contains c.toNat

namespace Text

def trimStart (t : Text) : Text := t.dropWhile isBlank

def trimEnd (t : Text) : Text := (t.reverse.dropWhile isBlank).reverse

def trim (t : Text) : Text := trimEnd (trimStart t)

def words : Text → List Text
  | [] => []
  | c :: rest =>
    if isBlank c then words rest
    else if (rest.head?.map isBlank).getD true then [c] :: words rest
    else match words rest with
      | [] => [[c]]
      | word :: more => (c :: word) :: more

end Text
end TypedScript
