import TypedScript.Literal.Term

set_option autoImplicit false

/-!
The grammar of expressions. A reader takes tokens from the front and gives what
they spell and the tokens behind. Whatever the expression, its form is checked to
the end; only the parts that can have a value are kept.
-/

namespace TypedScript.Literal

abbrev Reader (α : Type) := List Token → Option (α × List Token)

/-- A mark and nothing of interest: the tokens behind it. -/
def expect (m : Mark) : List Token → Option (List Token)
  | .mark n :: rest => if m = n then some rest else none
  | _ => none

/-! ### Words and marks between operands -/

def isOperator : Mark → Bool
  | .bar | .caret | .ampersand | .shiftLeft | .shiftRight | .plus | .minus | .star | .slash
  | .doubleSlash | .percent | .atSign => true
  | _ => false

def isComparison : Mark → Bool
  | .equal | .unequal | .less | .atMost | .greater | .atLeast => true
  | _ => false

/-- The tokens behind a comparison, if one comes first. -/
def comparison? : List Token → Option (List Token)
  | .mark m :: rest => if isComparison m then some rest else none
  | .keyword .inWord :: rest => some rest
  | .keyword .notWord :: .keyword .inWord :: rest => some rest
  | .keyword .isWord :: .keyword .notWord :: rest => some rest
  | .keyword .isWord :: rest => some rest
  | _ => none

/-- Does a comprehension begin here? -/
def startsClause : List Token → Bool
  | .keyword .forWord :: _ | .keyword .asyncWord :: .keyword .forWord :: _ => true
  | _ => false

/-! ### Quoted texts -/

def isQuoted : Token → Bool
  | .text _ | .bytes _ | .formatted _ => true
  | _ => false

def isText : Token → Bool
  | .text _ => true
  | _ => false

def isBytes : Token → Bool
  | .bytes _ => true
  | _ => false

/-- Adjacent quoted texts are one; texts and bytes do not mix. -/
def quoted (tokens : List Token) : Option (Term × List Token) :=
  let all := tokens.takeWhile isQuoted
  let rest := tokens.drop all.length
  if all.isEmpty then none
  else if all.all isText then
    let content := all.flatMap fun token => match token with
      | .text t => t
      | _ => []
    some (.constant (.str (String.ofList content)), rest)
  else if all.all isBytes then
    let content := all.flatMap fun token => match token with
      | .bytes b => b
      | _ => []
    some (.constant (.bytes content), rest)
  else if all.any isBytes then none
  else some (.other, rest)

/-! ### Parts of the grammar that have states -/

/-- How an item of a collection is written. -/
inductive Form where
  | plain | assigned | starred
  deriving DecidableEq, Repr

/-- Which arguments of a call may still follow: after a named one no positional one, and after an
unpacked mapping no unpacked sequence. The first may be a lone comprehension. -/
inductive Stage where
  | first | positional | named | unpacked
  deriving DecidableEq, Repr

/-- What has been seen of a list of parameters. -/
structure Parameters where
  anyName : Bool := false
  anyDefault : Bool := false
  slash : Bool := false
  star : Bool := false

mutual

/-- One expression. The number bounds the depth of the recursion, here and below. -/
def expression : Nat → Reader Term
  | 0, _ => none
  | depth + 1, .keyword .lambdaWord :: rest => do
    let rest ← parameters depth {} rest
    let (_, rest) ← expression depth rest
    return (.other, rest)
  | depth + 1, tokens => do
    let (first, rest) ← disjunction depth tokens
    match rest with
    | .keyword .ifWord :: rest =>
      let (_, rest) ← disjunction depth rest
      match rest with
      | .keyword .elseWord :: rest =>
        let (_, rest) ← expression depth rest
        return (.other, rest)
      | _ => none
    | _ => return (first, rest)

def disjunction : Nat → Reader Term
  | 0, _ => none
  | depth + 1, tokens => do
    let (first, rest) ← inversion depth tokens
    match rest with
    | .keyword .orWord :: rest | .keyword .andWord :: rest =>
      let (_, rest) ← disjunction depth rest
      return (.other, rest)
    | _ => return (first, rest)

def inversion : Nat → Reader Term
  | 0, _ => none
  | depth + 1, .keyword .notWord :: rest =>
    (inversion depth rest).map fun (_, rest) => (.other, rest)
  | depth + 1, tokens => comparison depth tokens

def comparison : Nat → Reader Term
  | 0, _ => none
  | depth + 1, tokens => do
    let (first, rest) ← arithmetic depth tokens
    match comparison? rest with
    | some rest =>
      let (_, rest) ← comparison depth rest
      return (.other, rest)
    | none => return (first, rest)

def arithmetic : Nat → Reader Term
  | 0, _ => none
  | depth + 1, tokens => do
    let (first, rest) ← factor depth tokens
    match rest with
    | .mark m :: behind =>
      if isOperator m then
        let (second, rest) ← arithmetic depth behind
        return (first.combine m second, rest)
      else return (first, rest)
    | _ => return (first, rest)

def factor : Nat → Reader Term
  | 0, _ => none
  | depth + 1, .mark .plus :: rest =>
    (factor depth rest).map fun (term, rest) => (.signed false term, rest)
  | depth + 1, .mark .minus :: rest =>
    (factor depth rest).map fun (term, rest) => (.signed true term, rest)
  | depth + 1, .mark .tilde :: rest => (factor depth rest).map fun (_, rest) => (.other, rest)
  | depth + 1, tokens => power depth tokens

def power : Nat → Reader Term
  | 0, _ => none
  | depth + 1, tokens => do
    let ((base, _), rest) ← match tokens with
      | .keyword .awaitWord :: rest =>
        (primary depth rest).map fun (_, rest) => ((.other, false), rest)
      | tokens => primary depth tokens
    match rest with
    | .mark .doubleStar :: rest =>
      let (_, rest) ← factor depth rest
      return (.other, rest)
    | _ => return (base, rest)

/-- An atom with what is attached to it, and whether the last of that is an attribute or a
subscript. -/
def primary : Nat → Reader (Term × Bool)
  | 0, _ => none
  | depth + 1, tokens => do
    let (base, rest) ← atom depth tokens
    attachments depth base false rest

def attachments : Nat → Term → Bool → Reader (Term × Bool)
  | 0, _, _, _ => none
  | depth + 1, _, _, .mark .dot :: .name _ :: rest => attachments depth .other true rest
  | depth + 1, base, _, .mark .roundOpen :: .mark .roundClose :: rest =>
    attachments depth base.call false rest
  | depth + 1, _, _, .mark .roundOpen :: rest => do
    let rest ← arguments depth .first rest
    attachments depth .other false rest
  | depth + 1, _, _, .mark .squareOpen :: rest => do
    let rest ← slices depth true rest
    attachments depth .other true rest
  | _ + 1, base, place, tokens => some ((base, place), tokens)

def atom : Nat → Reader Term
  | 0, _ => none
  | depth + 1, tokens =>
    match tokens with
    | .constant value :: rest => some (.constant value, rest)
    | .name word :: rest => some (.name word, rest)
    | .mark .roundOpen :: rest => inRound depth rest
    | .mark .squareOpen :: rest => inSquare depth rest
    | .mark .curlyOpen :: rest => inCurly depth rest
    | tokens => quoted tokens

/-- An item of a collection, and how it is written. -/
def item : Nat → Reader (Term × Form)
  | 0, _ => none
  | depth + 1, .mark .star :: rest =>
    (arithmetic depth rest).map fun (_, rest) => ((.other, .starred), rest)
  | depth + 1, .name _ :: .mark .colonEquals :: rest =>
    (expression depth rest).map fun (_, rest) => ((.other, .assigned), rest)
  | depth + 1, tokens => (expression depth tokens).map fun (term, rest) => ((term, .plain), rest)

/-- Items behind commas up to a closing bracket, whether there was a comma at all, and what
follows the bracket. The last comma needs no item behind it. -/
def moreItems (close : Mark) : Nat → List Token → Option (List Term × Bool × List Token)
  | 0, _ => none
  | depth + 1, .mark .comma :: rest =>
    match expect close rest with
    | some rest => some ([], true, rest)
    | none => do
      let ((first, _), rest) ← item depth rest
      let (more, _, rest) ← moreItems close depth rest
      return (first :: more, true, rest)
  | _ + 1, tokens => (expect close tokens).map fun rest => ([], false, rest)

/-- What follows an opening round bracket: a tuple, a term in brackets, a comprehension, or what a
generator yields. -/
def inRound : Nat → Reader Term
  | 0, _ => none
  | _ + 1, .mark .roundClose :: rest => some (.tuple [], rest)
  | depth + 1, .keyword .yieldWord :: rest => (yielded depth rest).map fun rest => (.other, rest)
  | depth + 1, tokens => do
    let ((first, form), rest) ← item depth tokens
    if startsClause rest then
      if form = .starred then none
      else
        let rest ← clauses depth rest
        (expect .roundClose rest).map fun rest => (.other, rest)
    else
      let (more, comma, rest) ← moreItems .roundClose depth rest
      if comma then return (.tuple (first :: more), rest)
      else if form = .starred then none
      else return (first, rest)

def inSquare : Nat → Reader Term
  | 0, _ => none
  | _ + 1, .mark .squareClose :: rest => some (.list [], rest)
  | depth + 1, tokens => do
    let ((first, form), rest) ← item depth tokens
    if startsClause rest then
      if form = .starred then none
      else
        let rest ← clauses depth rest
        (expect .squareClose rest).map fun rest => (.other, rest)
    else
      let (more, _, rest) ← moreItems .squareClose depth rest
      return (.list (first :: more), rest)

/-- What follows an opening curly bracket: a mapping if the first item is unpacked twice or has a
colon behind it, and else a set. -/
def inCurly : Nat → Reader Term
  | 0, _ => none
  | _ + 1, .mark .curlyClose :: rest => some (.dict [], rest)
  | depth + 1, .mark .doubleStar :: rest => do
    let (_, rest) ← arithmetic depth rest
    let (more, rest) ← moreEntries depth rest
    return (.dict ((.other, .other) :: more), rest)
  | depth + 1, tokens => do
    let ((first, form), rest) ← item depth tokens
    match rest with
    | .mark .colon :: rest =>
      if form ≠ .plain then none
      else
        let (value, rest) ← expression depth rest
        if startsClause rest then
          let rest ← clauses depth rest
          (expect .curlyClose rest).map fun rest => (.other, rest)
        else
          let (more, rest) ← moreEntries depth rest
          return (.dict ((first, value) :: more), rest)
    | rest =>
      if startsClause rest then
        if form = .starred then none
        else
          let rest ← clauses depth rest
          (expect .curlyClose rest).map fun rest => (.other, rest)
      else
        let (more, _, rest) ← moreItems .curlyClose depth rest
        return (.set (first :: more), rest)

/-- Entries behind commas up to the closing bracket. -/
def moreEntries : Nat → Reader (List (Term × Term))
  | 0, _ => none
  | _ + 1, .mark .curlyClose :: rest | _ + 1, .mark .comma :: .mark .curlyClose :: rest =>
    some ([], rest)
  | depth + 1, .mark .comma :: .mark .doubleStar :: rest => do
    let (_, rest) ← arithmetic depth rest
    let (more, rest) ← moreEntries depth rest
    return ((.other, .other) :: more, rest)
  | depth + 1, .mark .comma :: rest => do
    let (key, rest) ← expression depth rest
    let rest ← expect .colon rest
    let (value, rest) ← expression depth rest
    let (more, rest) ← moreEntries depth rest
    return ((key, value) :: more, rest)
  | _ + 1, _ => none

/-- What a generator yields, up to the closing round bracket. -/
def yielded : Nat → List Token → Option (List Token)
  | 0, _ => none
  | _ + 1, .mark .roundClose :: rest => some rest
  | depth + 1, .keyword .fromWord :: rest => do
    let (_, rest) ← expression depth rest
    expect .roundClose rest
  | depth + 1, tokens => do
    let (_, rest) ← match tokens with
      | .mark .star :: rest => arithmetic depth rest
      | tokens => expression depth tokens
    match rest with
    | .mark .comma :: .keyword .fromWord :: _ => none
    | .mark .comma :: rest => yielded depth rest
    | rest => expect .roundClose rest

def clauses : Nat → List Token → Option (List Token)
  | 0, _ => none
  | depth + 1, .keyword .asyncWord :: .keyword .forWord :: rest
  | depth + 1, .keyword .forWord :: rest => do
    let (_, rest) ← targets (.keyword .inWord) depth rest
    let (_, rest) ← disjunction depth rest
    let rest ← conditions depth rest
    if startsClause rest then clauses depth rest else some rest
  | _ + 1, _ => none

def conditions : Nat → List Token → Option (List Token)
  | 0, _ => none
  | depth + 1, .keyword .ifWord :: rest => do
    let (_, rest) ← disjunction depth rest
    conditions depth rest
  | _ + 1, tokens => some tokens

/-- Targets with commas between them up to a final keyword or mark: whether they are one starred
target without a comma, and what follows. -/
def targets (final : Token) : Nat → Reader Bool
  | 0, _ => none
  | depth + 1, tokens => do
    let (starred, rest) ← match tokens with
      | .mark .star :: rest => (target depth rest).map fun rest => (true, rest)
      | tokens => (target depth tokens).map fun rest => (false, rest)
    match rest with
    | .mark .comma :: next :: rest =>
      if next.isSame final then return (false, rest)
      else
        let (_, rest) ← targets final depth (next :: rest)
        return (false, rest)
    | next :: rest => if next.isSame final then return (starred, rest) else none
    | [] => none

/-- One target: an attribute, a subscript, a name, or targets in brackets. -/
def target : Nat → List Token → Option (List Token)
  | 0, _ => none
  | depth + 1, tokens =>
    match primary depth tokens with
    | some ((_, true), rest) => some rest
    | _ =>
      match tokens with
      | .name _ :: rest => some rest
      | .mark .roundOpen :: .mark .roundClose :: rest => some rest
      | .mark .roundOpen :: rest => do
        let (starred, rest) ← targets (.mark .roundClose) depth rest
        if starred then none else some rest
      | .mark .squareOpen :: .mark .squareClose :: rest => some rest
      | .mark .squareOpen :: rest =>
        (targets (.mark .squareClose) depth rest).map fun (_, rest) => rest
      | _ => none

/-- The arguments of a call up to its closing bracket. -/
def arguments : Nat → Stage → List Token → Option (List Token)
  | 0, _, _ => none
  | _ + 1, _, .mark .roundClose :: rest => some rest
  | depth + 1, stage, .mark .star :: rest => do
    let (_, rest) ← expression depth rest
    if stage = .unpacked then none
    else moreArguments depth (if stage = .first then .positional else stage) rest
  | depth + 1, _, .mark .doubleStar :: rest => do
    let (_, rest) ← expression depth rest
    moreArguments depth .unpacked rest
  | depth + 1, stage, .name _ :: .mark .equals :: rest => do
    let (_, rest) ← expression depth rest
    moreArguments depth (if stage = .unpacked then .unpacked else .named) rest
  | depth + 1, stage, tokens => do
    let (_, rest) ← item depth tokens
    if stage = .named ∨ stage = .unpacked then none
    else if stage = .first ∧ startsClause rest then
      let rest ← clauses depth rest
      expect .roundClose rest
    else moreArguments depth .positional rest

def moreArguments : Nat → Stage → List Token → Option (List Token)
  | 0, _, _ => none
  | depth + 1, stage, .mark .comma :: rest => arguments depth stage rest
  | _ + 1, _, tokens => expect .roundClose tokens

/-- Subscripts up to the closing bracket; at least one must be there. -/
def slices : Nat → Bool → List Token → Option (List Token)
  | 0, _, _ => none
  | _ + 1, first, .mark .squareClose :: rest => if first then none else some rest
  | depth + 1, _, tokens => do
    let rest ← match tokens with
      | .mark .star :: rest => (expression depth rest).map fun (_, rest) => rest
      | .mark .colon :: _ => bounds depth tokens
      | tokens => do
        let ((_, form), rest) ← item depth tokens
        if form = .plain then bounds depth rest else some rest
    match rest with
    | .mark .comma :: rest => slices depth false rest
    | rest => expect .squareClose rest

/-- What may follow the first bound of a slice: one or two colons, each perhaps with a bound. -/
def bounds : Nat → List Token → Option (List Token)
  | 0, _ => none
  | depth + 1, .mark .colon :: rest => do
    let rest ← bound depth rest
    match rest with
    | .mark .colon :: rest => bound depth rest
    | rest => some rest
  | _ + 1, tokens => some tokens

def bound : Nat → List Token → Option (List Token)
  | 0, _ => none
  | depth + 1, tokens =>
    match tokens with
    | .mark .colon :: _ | .mark .comma :: _ | .mark .squareClose :: _ => some tokens
    | _ => (expression depth tokens).map fun (_, rest) => rest

/-- The parameters of a function up to the colon. After a default all must have one up to a star;
a lone star needs a name behind it. -/
def parameters : Nat → Parameters → List Token → Option (List Token)
  | 0, _, _ => none
  | _ + 1, _, .mark .colon :: rest => some rest
  | depth + 1, seen, .mark .slash :: rest =>
    if seen.anyName && !seen.slash && !seen.star then
      moreParameters depth { seen with slash := true } rest
    else none
  | depth + 1, seen, .mark .star :: .mark .comma :: .name word :: rest =>
    if seen.star then none else parameters depth { seen with star := true } (.name word :: rest)
  | depth + 1, seen, .mark .star :: .name _ :: rest =>
    if seen.star then none else moreParameters depth { seen with star := true } rest
  | _ + 1, _, .mark .doubleStar :: .name _ :: .mark .colon :: rest
  | _ + 1, _, .mark .doubleStar :: .name _ :: .mark .comma :: .mark .colon :: rest => some rest
  | depth + 1, seen, .name _ :: .mark .equals :: rest => do
    let (_, rest) ← expression depth rest
    moreParameters depth { seen with anyName := true, anyDefault := true } rest
  | depth + 1, seen, .name _ :: rest =>
    if seen.anyDefault && !seen.star then none
    else moreParameters depth { seen with anyName := true } rest
  | _ + 1, _, _ => none

def moreParameters : Nat → Parameters → List Token → Option (List Token)
  | 0, _, _ => none
  | depth + 1, seen, .mark .comma :: rest => parameters depth seen rest
  | _ + 1, _, tokens => expect .colon tokens

end

/-- Expressions behind commas up to the end of the line, and whether there was a comma. -/
def moreExpressions (depth : Nat) : Nat → List Token → Option (List Term × Bool)
  | _, [.lineEnd] => some ([], false)
  | _, [.mark .comma, .lineEnd] => some ([], true)
  | 0, _ => none
  | steps + 1, .mark .comma :: rest => do
    let (first, rest) ← expression depth rest
    let (more, _) ← moreExpressions depth steps rest
    return (first :: more, true)
  | _ + 1, _ => none

/-- The term that all tokens together spell: one, or several with commas between them, which are a
tuple. No token is read more than a few calls deep, so the bound is never met. -/
def term? (tokens : List Token) : Option Term := do
  let depth := 16 * (tokens.length + 1)
  let (first, rest) ← expression depth tokens
  let (more, comma) ← moreExpressions depth tokens.length rest
  return if comma then .tuple (first :: more) else first

end TypedScript.Literal
