import TypedScript.Yaml.Property

set_option autoImplicit false

/-!
The scanner finds the tokens of a document. Indentation becomes tokens that open
and close blocks. Where a key may begin, its place is remembered until a colon on
the same line shows that it was one.
-/

namespace TypedScript.Yaml

/-- A place where a key may have begun. -/
structure KeyCandidate where
  /-- Where the token of the key goes. -/
  place : Nat
  /-- The block can only go on with a key here. -/
  required : Bool
  index : Nat
  line : Nat
  column : Nat

structure Scanner where
  ahead : Text
  index : Nat
  line : Nat
  column : Nat
  tokens : List Token
  /-- How many brackets are open. -/
  depth : Nat
  /-- The indentation of the innermost block, and of those around it. -/
  indent : Int
  outer : List Int
  keyAllowed : Bool
  /-- At most one candidate for each depth. -/
  candidates : List (Nat × KeyCandidate)

namespace Scanner

def start (t : Text) : Scanner := ⟨t, 0, 0, 0, [], 0, -1, [], true, []⟩

def advanceOne (s : Scanner) : Scanner :=
  match s.ahead with
  | [] => s
  | c :: rest =>
    let s := { s with ahead := rest, index := s.index + 1 }
    if isBreak c then { s with line := s.line + 1, column := 0 }
    else if c = byteOrderMark then s
    else { s with column := s.column + 1 }

def advance (s : Scanner) : Nat → Scanner
  | 0 => s
  | n + 1 => s.advanceOne.advance n

def emit (s : Scanner) (token : Token) : Scanner := { s with tokens := s.tokens ++ [token] }

/-- The length of spaces, comments and line breaks, and whether a line ends among them. -/
def gapLength (inComment : Bool) : Text → Nat × Bool
  | [] => (0, false)
  | c :: rest =>
    if isBreak c then ((gapLength false rest).1 + 1, true)
    else if inComment || c == ' ' || c == '#' then
      let (n, crosses) := gapLength (inComment || c == '#') rest
      (n + 1, crosses)
    else (0, false)

def skipGap (s : Scanner) : Scanner :=
  let s := if s.index = 0 ∧ s.ahead.head? = some byteOrderMark then s.advanceOne else s
  let (n, crosses) := gapLength false s.ahead
  let s := s.advance n
  if crosses && s.depth == 0 then { s with keyAllowed := true } else s

def candidate? (s : Scanner) : Option KeyCandidate := s.candidates.lookup s.depth

/-- Gives up the candidate of this depth; a required one must not be given up. -/
def dropCandidate (s : Scanner) : Except Fault Scanner :=
  match s.candidate? with
  | none => .ok s
  | some candidate =>
    if candidate.required then .error .missingColon
    else .ok { s with candidates := s.candidates.filter (·.1 != s.depth) }

/-- Candidates must be on this line and close by. -/
def dropStale (s : Scanner) : Except Fault Scanner :=
  let isStale (candidate : KeyCandidate) : Bool :=
    candidate.line != s.line || s.index - candidate.index > 1024
  if s.candidates.any fun (_, candidate) => isStale candidate && candidate.required then
    .error .missingColon
  else .ok { s with candidates := s.candidates.filter fun (_, candidate) => !isStale candidate }

def saveCandidate (s : Scanner) : Except Fault Scanner :=
  if s.keyAllowed then do
    let required := s.depth == 0 && s.indent == s.column
    let s ← s.dropCandidate
    let candidate : KeyCandidate := ⟨s.tokens.length, required, s.index, s.line, s.column⟩
    return { s with candidates := (s.depth, candidate) :: s.candidates }
  else .ok s

/-- Closes the blocks that are indented more than the given column. -/
def closeBlocks (s : Scanner) (column : Int) : Scanner :=
  if s.depth ≠ 0 then s
  else
    let rec go (indent : Int) (tokens : List Token) : List Int → Scanner
      | [] => { s with indent := indent, outer := [], tokens := tokens }
      | next :: more =>
        if indent > column then go next (tokens ++ [.blockEnd]) more
        else { s with indent := indent, outer := next :: more, tokens := tokens }
    go s.indent s.tokens s.outer

/-- Opens a block at a column, unless one is open there. -/
def openBlock (s : Scanner) (column : Int) (token : Token) (place : Nat) : Scanner :=
  if s.depth = 0 ∧ s.indent < column then
    { s with indent := column, outer := s.indent :: s.outer,
             tokens := s.tokens.insertIdx place token }
  else s

def marker (s : Scanner) (token : Token) : Except Fault Scanner := do
  let s ← (s.closeBlocks (-1)).dropCandidate
  return (({ s with keyAllowed := false }).advance 3).emit token

def bracketOpen (s : Scanner) (token : Token) : Except Fault Scanner := do
  let s ← s.saveCandidate
  return (({ s with depth := s.depth + 1, keyAllowed := true }).advance 1).emit token

def bracketClose (s : Scanner) (token : Token) : Except Fault Scanner := do
  let s ← s.dropCandidate
  return (({ s with depth := s.depth - 1, keyAllowed := false }).advance 1).emit token

def comma (s : Scanner) : Except Fault Scanner := do
  let s ← ({ s with keyAllowed := true }).dropCandidate
  return (s.advance 1).emit .comma

def entry (s : Scanner) : Except Fault Scanner := do
  if s.depth = 0 ∧ !s.keyAllowed then .error .entryHere
  else
    let s := s.openBlock s.column .blockSequence s.tokens.length
    let s ← ({ s with keyAllowed := true }).dropCandidate
    return (s.advance 1).emit .entry

def explicitKey (s : Scanner) : Except Fault Scanner := do
  if s.depth = 0 ∧ !s.keyAllowed then .error .keyHere
  else
    let s := s.openBlock s.column .blockMapping s.tokens.length
    let s ← ({ s with keyAllowed := s.depth == 0 }).dropCandidate
    return (s.advance 1).emit .key

/-- A colon turns the candidate of this depth, if there is one, into a key. -/
def colon (s : Scanner) : Except Fault Scanner := do
  match s.candidate? with
  | some candidate =>
    let s := { s with
      candidates := s.candidates.filter (·.1 != s.depth)
      tokens := s.tokens.insertIdx candidate.place .key }
    let s := s.openBlock candidate.column .blockMapping candidate.place
    return (({ s with keyAllowed := false }).advance 1).emit .value
  | none =>
    if s.depth = 0 ∧ !s.keyAllowed then .error .valueHere
    else
      let s := s.openBlock s.column .blockMapping s.tokens.length
      let s ← ({ s with keyAllowed := s.depth == 0 }).dropCandidate
      return (s.advance 1).emit .value

def quoted (s : Scanner) (double : Bool) : Except Fault Scanner := do
  let s ← s.saveCandidate
  let (content, length) ← quotedScalar double (s.ahead.drop 1)
  return (({ s with keyAllowed := false }).advance (length + 1)).emit (.scalar content false)

/-- Runs and what lies between them, as long as the scalar goes on. -/
def plainLoop (indent : Int) : (steps : Nat) → (content between : Text) → Scanner → Text × Scanner
  | 0, content, _, s => (content, s)
  | steps + 1, content, between, s =>
    let run := plainRun (s.depth != 0) s.ahead
    if s.ahead.head? = some '#' ∨ run = 0 then (content, s)
    else
      let content := content ++ between ++ s.ahead.take run
      let s := ({ s with keyAllowed := false }).advance run
      let next := plainBetween s.ahead
      let s := s.advance next.length
      let s := if next.crossesLine then { s with keyAllowed := true } else s
      if next.atMarker || next.text.isEmpty || s.ahead.head? == some '#' ||
          (s.depth == 0 && decide ((s.column : Int) < indent)) then (content, s)
      else plainLoop indent steps content next.text s

def plain (s : Scanner) : Except Fault Scanner := do
  let s ← s.saveCandidate
  let (content, s) := plainLoop (s.indent + 1) s.ahead.length [] [] { s with keyAllowed := false }
  return s.emit (.scalar content true)

/-- Whether a plain scalar can begin with `c`. -/
def startsPlain (s : Scanner) (c : Char) (next : Option Char) : Bool :=
  !(isGap (some c) || "-?:,[]\x7b\x7d#&*!|>'\"%@\x60".toList.contains c) ||
    (!isGap next && (c == '-' || (s.depth == 0 && (c == '?' || c == ':'))))

/-- A block of lines, which leaves no room for a key before it. -/
def block (s : Scanner) (folds : Bool) : Except Fault Scanner := do
  let s ← ({ s with keyAllowed := true }).dropCandidate
  let (content, behind) ← blockScalar folds (Int.toNat (max (s.indent + 1) 1)) (s.ahead.drop 1)
  return (s.advance (s.ahead.length - behind.length)).emit (.scalar content false)

def anchor (s : Scanner) (token : Text → Token) : Except Fault Scanner := do
  let s ← s.saveCandidate
  let name ← anchorName (s.ahead.drop 1)
  return (({ s with keyAllowed := false }).advance (name.length + 1)).emit (token name)

def tag (s : Scanner) : Except Fault Scanner := do
  let s ← s.saveCandidate
  let ((handle, suffix), length) ← tagProperty s.ahead
  return (({ s with keyAllowed := false }).advance length).emit (.tag handle suffix)

def directive (s : Scanner) : Except Fault Scanner := do
  let s ← (s.closeBlocks (-1)).dropCandidate
  let (found, length) ← Yaml.directive (s.ahead.drop 1)
  return (({ s with keyAllowed := false }).advance (length + 1)).emit (.directive found)

/-- The next token, or the end of the stream. -/
def fetch (s : Scanner) : Except Fault Scanner := do
  let s ← s.skipGap.dropStale
  let s := s.closeBlocks s.column
  match s.ahead with
  | [] =>
    let s ← (s.closeBlocks (-1)).dropCandidate
    return s.emit .streamEnd
  | c :: rest =>
    let next := rest.head?
    if c == '%' && s.column == 0 then s.directive
    else if s.column == 0 && isMarker '-' s.ahead then s.marker .documentStart
    else if s.column == 0 && isMarker '.' s.ahead then s.marker .documentEnd
    else if c == '[' then s.bracketOpen .sequenceOpen
    else if c == '\x7b' then s.bracketOpen .mappingOpen
    else if c == ']' then s.bracketClose .sequenceClose
    else if c == '\x7d' then s.bracketClose .mappingClose
    else if c == ',' then s.comma
    else if c == '-' && isGap next then s.entry
    else if c == '?' && (s.depth != 0 || isGap next) then s.explicitKey
    else if c == ':' && (s.depth != 0 || isGap next) then s.colon
    else if c == '*' then s.anchor .alias
    else if c == '&' then s.anchor .anchor
    else if c == '!' then s.tag
    else if c == '|' && s.depth == 0 then s.block false
    else if c == '>' && s.depth == 0 then s.block true
    else if c == '\'' then s.quoted false
    else if c == '"' then s.quoted true
    else if s.startsPlain c next then s.plain
    else .error (.cannotStart c)

/-- The tokens that can be given away: those before the first one that may still turn out to be a
key. -/
def settled (s : Scanner) : List Token :=
  match s.dropStale with
  | .error _ => s.tokens
  | .ok s => s.tokens.take ((s.candidates.map (·.2.place)).foldl Nat.min s.tokens.length)

/-- Fetches until the end of the stream or a fault. Every token but the last takes at least one
character. -/
def run (s : Scanner) : (steps : Nat) → List Token
  | 0 => s.tokens
  | steps + 1 =>
    match s.fetch with
    | .error f => s.settled ++ [.fault f]
    | .ok s => if s.tokens.getLast? = some .streamEnd then s.tokens else s.run steps

end Scanner

def tokens (t : Text) : List Token :=
  if t.all fun c => printableInYaml.contains c.toNat then (Scanner.start t).run (t.length + 1)
  else [.fault .unprintable]

end TypedScript.Yaml
