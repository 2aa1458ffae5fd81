import TypedScript.Literal.Number

set_option autoImplicit false

/-!
Quoted texts of a literal: what stands between the quotes, the escapes in it, and
the texts, bytes and formatted texts that the letters before the quotes ask for.
A formatted text has fields in braces, each with an expression of its own.
-/

namespace TypedScript.Literal

/-- The content up to the closing quotes, and what follows. A backslash takes the next character
with it; only between triple quotes may a line end. -/
def content? (quote : Char) (triple : Bool) : Text → Option (Text × Text)
  | [] => none
  | '\\' :: c :: rest =>
    (content? quote triple rest).map fun (body, behind) => ('\\' :: c :: body, behind)
  | c :: rest =>
    if c = quote && !triple then some ([], rest)
    else if c = quote && rest.take 2 == [quote, quote] then some ([], rest.drop 2)
    else if (c = '\n' && !triple) || c = '\\' then none
    else (content? quote triple rest).map fun (body, behind) => (c :: body, behind)

/-- The code that the first `count` digits of a base spell; all of them must be there. -/
def code? (base count : Nat) (t : Text) : Option Nat :=
  if (t.take count).length < count then none else baseValue? base (t.take count)

def isOctal (c : Char) : Bool := isDigitOf 8 c

def simpleEscape? : Char → Option Char
  | '\\' => some '\\'
  | '\'' => some '\''
  | '"' => some '"'
  | 'a' => some '\x07'
  | 'b' => some '\x08'
  | 'f' => some '\x0c'
  | 'n' => some '\n'
  | 'r' => some '\r'
  | 't' => some '\t'
  | 'v' => some '\x0b'
  | _ => none

/-- One escape, given what follows the backslash: the codes it stands for and the characters it
takes after the first. Escapes by code point are for texts only, and an unknown escape keeps its
backslash. -/
def escape? (forText : Bool) (c : Char) (rest : Text) : Option (List Nat × Nat) :=
  if c = '\n' then some ([], 0)
  else match simpleEscape? c with
    | some d => some ([d.toNat], 0)
    | none =>
      if isOctal c then
        let digits := c :: (rest.take 2).takeWhile isOctal
        (baseValue? 8 digits).map fun n => ([n], digits.length - 1)
      else if c = 'x' then (code? 16 2 rest).map fun n => ([n], 2)
      else if forText && c = 'u' then (code? 16 4 rest).map fun n => ([n], 4)
      else if forText && c = 'U' then (code? 16 8 rest).map fun n => ([n], 8)
      else if forText && c = 'N' then none
      else some (['\\'.toNat, c.toNat], 0)

/-- The codes of a content with its escapes resolved. -/
def unescape? (forText : Bool) : Text → Option (List Nat)
  | [] => some []
  | '\\' :: c :: rest => do
    let (codes, taken) ← escape? forText c rest
    let more ← unescape? forText (rest.drop taken)
    return codes ++ more
  | c :: rest => (unescape? forText rest).map (c.toNat :: ·)
termination_by t => t.length
decreasing_by all_goals simp only [List.length_drop, List.length_cons]; omega

def codes? (raw forText : Bool) (body : Text) : Option (List Nat) :=
  if raw then some (body.map Char.toNat) else unescape? forText body

/-! ### Fields of formatted texts -/

def isBracketOpen (c : Char) : Bool := c == '(' || c == '[' || c == '\x7b'

def isBracketClose (c : Char) : Bool := c == ')' || c == ']' || c == '\x7d'

def closing? : Char → Option Char
  | '(' => some ')'
  | '[' => some ']'
  | '\x7b' => some '\x7d'
  | _ => none

/-- The expression of a field and what follows it, from the mark that ends it on. The mark stands
outside quotes and brackets, and a comparison ends nothing. -/
def fieldText? (quote? : Option (Char × Bool)) (brackets : List Char) (t : Text) :
    Option (Text × Text) :=
  match t with
  | [] => none
  | c :: rest =>
    let taking (count : Nat) (found : Option (Text × Text)) : Option (Text × Text) :=
      found.map fun (field, behind) => (c :: rest.take count ++ field, behind)
    if c = '\\' then none
    else match quote? with
      | some (quote, triple) =>
        if c = quote && !triple then taking 0 (fieldText? none brackets rest)
        else if c = quote && rest.take 2 == [quote, quote] then
          taking 2 (fieldText? none brackets (rest.drop 2))
        else taking 0 (fieldText? quote? brackets rest)
      | none =>
        if c = '\'' ∨ c = '"' then
          if rest.take 2 == [c, c] then taking 2 (fieldText? (some (c, true)) brackets (rest.drop 2))
          else taking 0 (fieldText? (some (c, false)) brackets rest)
        else if isBracketOpen c then taking 0 (fieldText? none (c :: brackets) rest)
        else if c = '#' then none
        else if brackets.isEmpty && ['!', '=', '<', '>'].contains c && rest.head? == some '=' then
          taking 1 (fieldText? none brackets (rest.drop 1))
        else if brackets.isEmpty && ['!', ':', '\x7d', '='].contains c then some ([], c :: rest)
        else if isBracketClose c then
          match brackets with
          | [] => none
          | last :: others =>
            if closing? last = some c then taking 0 (fieldText? none others rest) else none
        else taking 0 (fieldText? none brackets rest)
termination_by t.length
decreasing_by all_goals simp only [List.length_drop, List.length_cons]; omega

/-- The text before the next field, and what follows it. Outside formats a doubled brace is text
and a closing brace must be doubled; inside, a closing brace ends the format. -/
def plainText? (raw inFormat : Bool) : Text → Option (Text × Text)
  | [] => some ([], [])
  | c :: rest =>
    if c = '\\' ∧ !raw ∧ !(rest.head?.map fun d => d == '\x7b' || d == '\x7d').getD true then
      (plainText? raw inFormat (rest.drop 1)).map fun (text, behind) =>
        (c :: rest.take 1 ++ text, behind)
    else if c = '\x7b' ∨ c = '\x7d' then
      if inFormat then some ([], c :: rest)
      else if rest.head? = some c then
        (plainText? raw inFormat (rest.drop 1)).map fun (text, behind) => (c :: text, behind)
      else if c = '\x7d' then none
      else some ([], c :: rest)
    else (plainText? raw inFormat rest).map fun (text, behind) => (c :: text, behind)
termination_by t => t.length
decreasing_by all_goals simp only [List.length_drop, List.length_cons]; omega

def isFieldBlank (c : Char) : Bool := c == ' ' || c == '\t' || c == '\n' || c == '\x0c'

/-- What follows the expression of a field up to its format: perhaps an equals sign, perhaps a
conversion. -/
def afterField? (t : Text) : Option Text :=
  let t := match t with
    | '=' :: rest => rest.dropWhile fun c => isFieldBlank c || c == '\r' || c == '\x0b'
    | t => t
  match t with
  | '!' :: c :: rest => if c = 's' ∨ c = 'r' ∨ c = 'a' then some rest else none
  | t => some t

/-- The expressions of all fields, and what follows them. Fields may stand in the format of a
field, and formats nest no deeper than that. -/
def fields? (raw : Bool) (level : Nat) : (steps : Nat) → Text → Option (List Text × Text)
  | 0, _ => none
  | steps + 1, t => do
    let (text, rest) ← plainText? raw (level != 0) t
    if !raw && (unescape? true text).isNone then none
    else match rest with
      | '\x7b' :: rest => do
        let (field, rest) ← fieldText? none [] rest
        if level ≥ 2 || field.all isFieldBlank then none
        else
          let rest ← afterField? rest
          let (inner, rest) ← match rest with
            | ':' :: rest => fields? raw (level + 1) steps rest
            | rest => some ([], rest)
          match rest with
          | '\x7d' :: rest =>
            let (more, rest) ← fields? raw level steps rest
            return (field :: inner ++ more, rest)
          | _ => none
      | rest => some ([], rest)

end TypedScript.Literal
