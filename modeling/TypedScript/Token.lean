import TypedScript.Text.Blank
import TypedScript.Text.Digit
import TypedScript.Text.Letter

set_option autoImplicit false

/-!
Tokens of a single line. Every character belongs to a token or is blank:
characters without a meaning of their own become `other` tokens, and a string
without its closing quote runs to the end of the line.
-/

namespace TypedScript

/-- The words that open a declaration. -/
inductive Binding where
  | plain
  | constant
  | mutable
  deriving DecidableEq, Repr

def Binding.word : Binding → Text
  | .plain => ['l', 'e', 't']
  | .constant => ['c', 'o', 'n', 's', 't']
  | .mutable => ['m', 'u', 't']

inductive TokenKind where
  | binding (b : Binding)
  | fn
  | ret
  | ident
  | number
  | string
  | lparen
  | rparen
  | lbrace
  | rbrace
  | colon
  | comma
  | pipe
  | semicolon
  | assign
  | operator
  | other
  | eof
  deriving DecidableEq, Repr

/-- `start` is the offset of the first character in the line. -/
structure Token where
  kind : TokenKind
  text : Text
  line : Int
  start : Nat
  deriving DecidableEq, Repr

namespace Token

def stop (t : Token) : Nat := t.start + t.text.length

/-- Columns count from one. -/
def column (t : Token) : Nat := t.start + 1

def isIdentStart (c : Char) : Bool := isLetter c || c == '_' || c == '$'

def isIdentPart (c : Char) : Bool := isLetterOrNumeral c || c == '_' || c == '$'

def isQuote (c : Char) : Bool := c == '"' || c == '\'' || c == '\x60'

def isOperatorChar (c : Char) : Bool := "=<>!+-*/%&^~?.".toList.contains c

/-- A keyword is its own kind; every other word is an identifier. -/
def wordKind : Text → TokenKind
  | ['l', 'e', 't'] => .binding .plain
  | ['c', 'o', 'n', 's', 't'] => .binding .constant
  | ['m', 'u', 't'] => .binding .mutable
  | ['f', 'n'] => .fn
  | ['r', 'e', 't', 'u', 'r', 'n'] => .ret
  | _ => .ident

def punctuation? : Char → Option TokenKind
  | '(' => some .lparen
  | ')' => some .rparen
  | '\x7b' => some .lbrace
  | '\x7d' => some .rbrace
  | ':' => some .colon
  | ',' => some .comma
  | '|' => some .pipe
  | ';' => some .semicolon
  | _ => none

/-- The length of a number after its first digit: digits, then a point with digits after it. -/
def numberTail (rest : Text) : Nat :=
  let whole := (rest.takeWhile isAsciiDigit).length
  match rest.dropWhile isAsciiDigit with
  | '.' :: d :: more =>
    if isAsciiDigit d then whole + 2 + (more.takeWhile isAsciiDigit).length else whole
  | _ => whole

/-- The length of a string after its opening quote, up to the quote that closes it. A backslash
takes the next character with it. -/
def stringTail (quote : Char) : Text → Nat
  | [] => 0
  | ['\\'] => 1
  | '\\' :: _ :: rest => stringTail quote rest + 2
  | c :: rest => if c = quote then 1 else stringTail quote rest + 1

/-- An assignment is a single equals sign that opens neither a comparison nor an arrow. -/
def opensAssign (c : Char) (rest : Text) : Bool :=
  c == '=' && rest.head? != some '=' && rest.head? != some '>'

/-- The kind of the token that begins with `c`, and its length after `c`. -/
def lexeme (c : Char) (rest : Text) : TokenKind × Nat :=
  if isIdentStart c then
    let more := rest.takeWhile isIdentPart
    (wordKind (c :: more), more.length)
  else if isAsciiDigit c then (.number, numberTail rest)
  else if isQuote c then (.string, stringTail c rest)
  else match punctuation? c with
    | some kind => (kind, 0)
    | none =>
      if opensAssign c rest then (.assign, 0)
      else if isOperatorChar c then (.operator, (rest.takeWhile isOperatorChar).length)
      else (.other, 0)

def tokensFrom (line : Int) (start : Nat) : Text → List Token
  | [] => [⟨.eof, [], line, start⟩]
  | c :: rest =>
    if isBlank c then tokensFrom line (start + 1) rest
    else
      ⟨(lexeme c rest).1, c :: rest.take (lexeme c rest).2, line, start⟩ ::
        tokensFrom line (start + 1 + (lexeme c rest).2) (rest.drop (lexeme c rest).2)
termination_by t => t.length
decreasing_by all_goals simp only [List.length_drop, List.length_cons]; omega

end Token

/-- The tokens of a line; the last one, and only that one, is the end mark. -/
def tokenize (line : Int) (t : Text) : List Token := Token.tokensFrom line 0 t

end TypedScript
