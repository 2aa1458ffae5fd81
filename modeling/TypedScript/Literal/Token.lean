import TypedScript.Literal.Quoted
import TypedScript.Text.Encoding
import TypedScript.Text.Name

set_option autoImplicit false

/-!
Tokens of a literal: constants, quoted texts, names, keywords and marks. Outside
brackets a line must begin at the margin, and the end of a line with something on
it is a token; inside brackets lines and comments are of no account.
-/

namespace TypedScript.Literal

/-- The words that join expressions. -/
inductive Keyword where
  | andWord | orWord | notWord | inWord | isWord | ifWord | elseWord | forWord
  | asyncWord | awaitWord | lambdaWord | yieldWord | fromWord
  deriving DecidableEq, Repr

inductive Mark where
  | roundOpen | roundClose | squareOpen | squareClose | curlyOpen | curlyClose
  | comma | colon | dot | equals | colonEquals
  | plus | minus | tilde | star | doubleStar | slash | doubleSlash | percent | atSign
  | bar | caret | ampersand | shiftLeft | shiftRight
  | equal | unequal | less | atMost | greater | atLeast
  deriving DecidableEq, Repr

inductive Token where
  | constant (value : Value)
  | text (t : Text)
  | bytes (b : Bytes)
  | formatted (fields : List Text)
  | name (word : Text)
  | keyword (k : Keyword)
  | mark (m : Mark)
  | lineEnd
  deriving Repr

/-- Whether two tokens are the same keyword or mark. -/
def Token.isSame : Token → Token → Bool
  | .keyword k, .keyword l => k == l
  | .mark m, .mark n => m == n
  | _, _ => false

/-- Brackets nest at most so deep. -/
def nestingLimit : Nat := 200

/-! ### Quoted texts -/

/-- What a quoted text is read as. -/
inductive Style where
  | text | bytes | formatted
  deriving DecidableEq, Repr

/-- The letters before a quote: whether the content is raw, and what it is read as. -/
def style? (letters : Text) : Option (Bool × Style) :=
  match letters.map Decimal.lowerAscii with
  | [] | ['u'] => some (false, .text)
  | ['r'] => some (true, .text)
  | ['b'] => some (false, .bytes)
  | ['b', 'r'] | ['r', 'b'] => some (true, .bytes)
  | ['f'] => some (false, .formatted)
  | ['f', 'r'] | ['r', 'f'] => some (true, .formatted)
  | _ => none

def contentToken? (raw : Bool) (body : Text) : Style → Option Token
  | .text => do
    let codes ← codes? raw true body
    let t ← codes.mapM charOfCode?
    return .text t
  | .bytes =>
    if body.all (·.toNat < 128) then
      (codes? raw false body).map fun codes => .bytes (codes.map Nat.toUInt8)
    else none
  | .formatted => (fields? raw 0 (body.length + 1) body).map fun (fields, _) => .formatted fields

/-- A quoted text, given its style and what follows its first quote. -/
def quotedToken? (raw : Bool) (style : Style) (quote : Char) (rest : Text) :
    Option (Token × Text) := do
  let triple := rest.take 2 == [quote, quote]
  let (body, behind) ← content? quote triple (if triple then rest.drop 2 else rest)
  let token ← contentToken? raw body style
  return (token, behind)

/-! ### Words and marks -/

/-- The words that are no names; those without a token have no place in an expression. -/
def reservedWords : List (String × Option Token) :=
  [("None", some (.constant .null)), ("True", some (.constant (.bool true))),
   ("False", some (.constant (.bool false))),
   ("and", some (.keyword .andWord)), ("or", some (.keyword .orWord)),
   ("not", some (.keyword .notWord)), ("in", some (.keyword .inWord)),
   ("is", some (.keyword .isWord)), ("if", some (.keyword .ifWord)),
   ("else", some (.keyword .elseWord)), ("for", some (.keyword .forWord)),
   ("async", some (.keyword .asyncWord)), ("await", some (.keyword .awaitWord)),
   ("lambda", some (.keyword .lambdaWord)), ("yield", some (.keyword .yieldWord)),
   ("from", some (.keyword .fromWord)),
   ("as", none), ("assert", none), ("break", none), ("class", none), ("continue", none),
   ("def", none), ("del", none), ("elif", none), ("except", none), ("finally", none),
   ("global", none), ("import", none), ("nonlocal", none), ("pass", none), ("raise", none),
   ("return", none), ("try", none), ("while", none), ("with", none)]

def wordToken? (word : Text) : Option Token :=
  match reservedWords.find? fun (spelling, _) => spelling.toList = word with
  | some (_, token?) => token?
  | none => if isName word then some (.name word) else none

/-- The spellings of marks, longer ones first; those without a mark have no place in an
expression. -/
def markSpellings : List (String × Option Mark) :=
  [("**=", none), ("//=", none), ("<<=", none), (">>=", none),
   ("!=", some .unequal), ("%=", none), ("&=", none), ("**", some .doubleStar), ("*=", none),
   ("+=", none), ("-=", none), ("->", none), ("//", some .doubleSlash), ("/=", none),
   (":=", some .colonEquals), ("<<", some .shiftLeft), ("<=", some .atMost), ("<>", none),
   ("==", some .equal), (">=", some .atLeast), (">>", some .shiftRight), ("@=", none),
   ("^=", none), ("|=", none),
   ("(", some .roundOpen), (")", some .roundClose), ("[", some .squareOpen),
   ("]", some .squareClose), ("\x7b", some .curlyOpen), ("\x7d", some .curlyClose),
   (",", some .comma), (":", some .colon), (".", some .dot), ("=", some .equals),
   ("+", some .plus), ("-", some .minus), ("~", some .tilde), ("*", some .star),
   ("/", some .slash), ("%", some .percent), ("@", some .atSign), ("|", some .bar),
   ("^", some .caret), ("&", some .ampersand), ("<", some .less), (">", some .greater)]

def markToken? (t : Text) : Option (Token × Text) := do
  let (spelling, mark?) ← markSpellings.find? fun (spelling, _) => spelling.toList.isPrefixOf t
  let mark ← mark?
  return (.mark mark, t.drop spelling.length)

/-- The token that begins with `c`, a character that is not blank. -/
def token? (c : Char) (rest : Text) : Option (Token × Text) :=
  if isAsciiDigit c || (c == '.' && (rest.head?.map isAsciiDigit).getD false) then
    (number? (c :: rest)).map fun (value, behind) => (.constant value, behind)
  else if c = '.' ∧ rest.take 2 = ['.', '.'] then some (.constant .ellipsis, rest.drop 2)
  else
    let word := (c :: rest).takeWhile isWordPart
    match style? word, (c :: rest).drop word.length with
    | some (raw, style), quote :: behind =>
      if quote = '\'' ∨ quote = '"' then quotedToken? raw style quote behind
      else if word.isEmpty then markToken? (c :: rest)
      else (wordToken? word).map fun token => (token, quote :: behind)
    | _, behind => (wordToken? word).map fun token => (token, behind)

/-! ### Lines -/

/-- What a line begins with: whether it stands off the margin, and the rest of it. A form feed
goes back to the margin. A line may be continued before anything is on it, and then stands where
it stood at the continuation, unless that was at the margin. -/
def margin (held indented : Bool) : Text → Option (Bool × Text)
  | [] => some (held || indented, [])
  | ' ' :: rest | '\t' :: rest => margin held true rest
  | '\x0c' :: rest => margin held false rest
  | '\\' :: '\n' :: rest => if rest.isEmpty then none else margin (held || indented) indented rest
  | rest => some (held || indented, rest)

/-- Where a reader of tokens stands: at the margin of a line or further in, and how deep in
brackets. -/
structure Position where
  atMargin : Bool
  depth : Nat

/-- How a token changes the depth, unless it closes what is not open or opens too much. -/
def depthAfter? (depth : Nat) : Token → Option Nat
  | .mark .roundOpen | .mark .squareOpen | .mark .curlyOpen =>
    if depth ≥ nestingLimit then none else some (depth + 1)
  | .mark .roundClose | .mark .squareClose | .mark .curlyClose =>
    if depth = 0 then none else some (depth - 1)
  | _ => some depth

/-- The tokens of a text. Each step takes at least one character, so as many steps as there are
characters are enough. The last line may hold nothing but blanks only if a line end follows. -/
def tokens? (place : Position) : (steps : Nat) → Text → Option (List Token)
  | 0, _ => none
  | steps + 1, t => do
    let (indented, t) ← if place.atMargin then margin false false t else some (false, t)
    let indented := indented && place.depth == 0
    match t with
    | [] =>
      if place.depth ≠ 0 || indented then none
      else some (if place.atMargin then [] else [.lineEnd])
    | '\n' :: rest =>
      let more ← tokens? ⟨true, place.depth⟩ steps rest
      return if place.atMargin || place.depth != 0 then more else .lineEnd :: more
    | '#' :: rest => tokens? place steps (rest.dropWhile (· != '\n'))
    | '\\' :: '\n' :: rest =>
      if rest.isEmpty then none else tokens? ⟨false, place.depth⟩ steps rest
    | c :: rest =>
      if indented then none
      else if c = ' ' ∨ c = '\t' ∨ c = '\x0c' then tokens? ⟨false, place.depth⟩ steps rest
      else
        let (token, rest) ← token? c rest
        let depth ← depthAfter? place.depth token
        let more ← tokens? ⟨false, depth⟩ steps rest
        return token :: more

end TypedScript.Literal
