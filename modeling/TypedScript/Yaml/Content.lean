import TypedScript.Text.Digit
import TypedScript.Yaml.Token

set_option autoImplicit false

/-!
The texts of scalars: plain ones, quoted ones and blocks of lines. Line breaks
inside them are folded: one alone becomes a space, further ones stay.
-/

namespace TypedScript.Yaml

/-- What a line break leaves in a scalar. -/
def breakText (c : Char) : Char := if c = Char.ofNat 0x85 then '\n' else c

/-- A first line break and the further ones: a single line feed becomes a space. -/
def folded (first : Char) (more : Text) : Text :=
  if breakText first ≠ '\n' then breakText first :: more
  else if more.isEmpty then [' ']
  else more

/-! ### Plain scalars -/

def isBracketOrComma (c : Char) : Bool := ",[]\x7b\x7d".toList.contains c

/-- A colon ends a plain scalar before a gap, and inside brackets also before a bracket or comma. -/
def endsKey (inFlow : Bool) (next : Option Char) : Bool :=
  isGap next || (inFlow && (next.map isBracketOrComma).getD false)

/-- The length of the run up to a gap or to a mark that ends a plain scalar. -/
def plainRun (inFlow : Bool) : Text → Nat
  | [] => 0
  | c :: rest =>
    if isGap (some c) then 0
    else if c == ':' && endsKey inFlow rest.head? then 0
    else if inFlow && (c == '?' || isBracketOrComma c) then 0
    else plainRun inFlow rest + 1

/-- What lies between two runs of a scalar. -/
structure Between where
  /-- What it leaves in the scalar. -/
  text : Text
  length : Nat
  crossesLine : Bool
  /-- A document marker follows. -/
  atMarker : Bool

/-- Empty lines and the spaces at the beginning of the next one. -/
def plainBreaks : Text → Between
  | [] => ⟨[], 0, true, false⟩
  | c :: rest =>
    if c = ' ' then
      let more := plainBreaks rest
      { more with length := more.length + 1 }
    else if isBreak c then
      if isAnyMarker rest then ⟨[breakText c], 1, true, true⟩
      else
        let more := plainBreaks rest
        { more with text := breakText c :: more.text, length := more.length + 1 }
    else ⟨[], 0, true, false⟩

def plainBetween (ahead : Text) : Between :=
  let spaces := ahead.takeWhile (· == ' ')
  match ahead.dropWhile (· == ' ') with
  | [] => ⟨spaces, spaces.length, false, false⟩
  | c :: rest =>
    if isBreak c then
      if isAnyMarker rest then ⟨[], spaces.length + 1, true, true⟩
      else
        let more := plainBreaks rest
        { more with text := folded c more.text, length := spaces.length + 1 + more.length }
    else ⟨spaces, spaces.length, false, false⟩

/-! ### Quoted scalars -/

/-- Empty lines inside quotes and the margin of the next one. -/
def quotedBreaks (atStart : Bool) : Text → Except Fault (Text × Nat)
  | [] => .ok ([], 0)
  | c :: rest =>
    if atStart && isAnyMarker (c :: rest) then .error .markerInQuote
    else if c = ' ' ∨ c = '\t' then
      (quotedBreaks false rest).map fun (breaks, n) => (breaks, n + 1)
    else if isBreak c then
      (quotedBreaks true rest).map fun (breaks, n) => (breakText c :: breaks, n + 1)
    else .ok ([], 0)

/-- What a gap inside quotes leaves, and its length. -/
def quotedBetween (ahead : Text) : Except Fault (Text × Nat) :=
  let isSpace (c : Char) : Bool := c == ' ' || c == '\t'
  let spaces := ahead.takeWhile isSpace
  match ahead.dropWhile isSpace with
  | [] => .error .unclosedQuote
  | c :: rest =>
    if isBreak c then
      (quotedBreaks true rest).map fun (breaks, n) => (folded c breaks, spaces.length + 1 + n)
    else .ok (spaces, spaces.length)

def simpleEscape? : Char → Option Nat
  | '0' => some 0
  | 'a' => some 7
  | 'b' => some 8
  | 't' | '\t' => some 9
  | 'n' => some 10
  | 'v' => some 11
  | 'f' => some 12
  | 'r' => some 13
  | 'e' => some 27
  | ' ' => some 32
  | '"' => some 34
  | '\\' => some 92
  | '/' => some 47
  | 'N' => some 0x85
  | '_' => some 0xA0
  | 'L' => some 0x2028
  | 'P' => some 0x2029
  | _ => none

def codeLength? : Char → Option Nat
  | 'x' => some 2
  | 'u' => some 4
  | 'U' => some 8
  | _ => none

/-- What the text behind a backslash stands for, and its length. -/
def escaped : Text → Except Fault (Text × Nat)
  | [] => .error .unknownEscape
  | c :: rest =>
    match simpleEscape? c with
    | some n => .ok ([Char.ofNat n], 1)
    | none =>
      match codeLength? c with
      | some count =>
        let digits := rest.take count
        if digits.length < count then .error .shortEscape
        else match baseValue? 16 digits with
          | none => .error .shortEscape
          | some n =>
            match charOfCode? n with
            | some d => .ok ([d], count + 1)
            | none => .error (if n < 0x80000000 then .noCharacter else .hugeCode)
      | none =>
        if isBreak c then (quotedBreaks true rest).map fun (breaks, n) => (breaks, n + 1)
        else .error .unknownEscape

/-- The content of a quoted scalar, given what follows its opening quote, and its length with the
closing quote. -/
def quotedScalar (double : Bool) : Text → Except Fault (Text × Nat)
  | [] => .error .unclosedQuote
  | c :: rest =>
    if c == '\'' && !double && rest.head? == some '\'' then do
      let (more, n) ← quotedScalar double (rest.drop 1)
      return ('\'' :: more, n + 2)
    else if c == (if double then '"' else '\'') then .ok ([], 1)
    else if isGap (some c) then do
      let (gap, length) ← quotedBetween (c :: rest)
      let (more, n) ← quotedScalar double (rest.drop (length - 1))
      return (gap ++ more, length + n)
    else if double && c == '\\' then do
      let (text, length) ← escaped rest
      let (more, n) ← quotedScalar double (rest.drop length)
      return (text ++ more, 1 + length + n)
    else do
      let (more, n) ← quotedScalar double rest
      return (c :: more, n + 1)
termination_by t => t.length
decreasing_by all_goals simp only [List.length_drop, List.length_cons]; omega

/-! ### Blocks of lines -/

/-- What becomes of the line breaks at the end of a block. -/
inductive Chomping where
  | clip | strip | keep
  deriving DecidableEq, Repr

structure BlockHeader where
  chomping : Chomping
  /-- The indentation of the lines, if it is given. -/
  indentation : Option Nat
  length : Nat

def chomping? : Char → Option Chomping
  | '+' => some .keep
  | '-' => some .strip
  | _ => none

/-- A digit from one to nine; zero is refused. -/
def indentation? (c : Char) : Except Fault (Option Nat) :=
  if c = '0' then .error .badBlockHeader
  else if isAsciiDigit c then .ok (some (c.toNat - 48))
  else .ok none

/-- The marks behind the one that begins a block, in either order. -/
def blockMarks : Text → Except Fault BlockHeader
  | [] => .ok ⟨.clip, none, 0⟩
  | c :: rest =>
    match chomping? c with
    | some chomping =>
      match rest with
      | [] => .ok ⟨chomping, none, 1⟩
      | d :: _ => (indentation? d).map fun found => ⟨chomping, found, if found.isSome then 2 else 1⟩
    | none => do
      match ← indentation? c with
      | none => return ⟨.clip, none, 0⟩
      | some n =>
        match rest.head?.bind chomping? with
        | some chomping => return ⟨chomping, some n, 2⟩
        | none => return ⟨.clip, some n, 1⟩

/-- The length of blanks and a comment up to the end of a line, if there is nothing else. -/
def restOfLine? (t : Text) : Option Nat :=
  let spaces := t.takeWhile (· == ' ')
  let behind := t.drop spaces.length
  let comment := if behind.head? = some '#' then behind.takeWhile fun c => !isBreak c else []
  match behind.drop comment.length with
  | [] => some (spaces.length + comment.length)
  | c :: _ => if isBreak c then some (spaces.length + comment.length + 1) else none

/-- The first line of a block. -/
def blockHeader (t : Text) : Except Fault BlockHeader := do
  let header ← blockMarks t
  let behind := t.drop header.length
  if !(behind.head?.map fun c => c == ' ' || isBreak c).getD true then .error .badBlockHeader
  else match restOfLine? behind with
    | some n => return { header with length := header.length + n }
    | none => .error .badBlockHeader

/-- Where a block stands: the line breaks before its next line, the column, and what is ahead. -/
structure BlockPlace where
  breaks : Text
  column : Nat
  ahead : Text

/-- Empty lines and the margin of the next line, up to an indentation. -/
def blockBreaks (indent column : Nat) : Text → BlockPlace
  | [] => ⟨[], column, []⟩
  | c :: rest =>
    if c = ' ' ∧ column < indent then blockBreaks indent (column + 1) rest
    else if isBreak c then
      let next := blockBreaks indent 0 rest
      { next with breaks := breakText c :: next.breaks }
    else ⟨[], column, c :: rest⟩

/-- Empty lines and the margin of the next line, and the widest margin among them. -/
def widestMargin (column : Nat) : Text → Nat × BlockPlace
  | [] => (0, ⟨[], column, []⟩)
  | c :: rest =>
    if c = ' ' then
      let (widest, next) := widestMargin (column + 1) rest
      (Nat.max (column + 1) widest, next)
    else if isBreak c then
      let (widest, next) := widestMargin 0 rest
      (widest, { next with breaks := breakText c :: next.breaks })
    else (0, ⟨[], column, c :: rest⟩)

def isSpaceOrTab (c : Option Char) : Bool := c == some ' ' || c == some '\t'

/-- The lines of a block: their text, the break of the last one, and where they end. -/
def blockLines (folds : Bool) (indent : Nat) : (steps : Nat) → BlockPlace → Text × Text × BlockPlace
  | 0, place => ([], [], place)
  | steps + 1, place =>
    if place.column ≠ indent ∨ place.ahead.isEmpty then ([], [], place)
    else
      let line := place.ahead.takeWhile fun c => !isBreak c
      let behind := place.ahead.drop line.length
      let lineBreak := (behind.take 1).map breakText
      let next := if behind.isEmpty then ⟨[], 0, []⟩ else blockBreaks indent 0 (behind.drop 1)
      let here := place.breaks ++ line
      if next.column ≠ indent ∨ next.ahead.isEmpty then (here, lineBreak, next)
      else
        let joint :=
          if folds && lineBreak == ['\n'] && !isSpaceOrTab place.ahead.head? &&
              !isSpaceOrTab next.ahead.head? then
            if next.breaks.isEmpty then [' '] else []
          else lineBreak
        let (more, last, stop) := blockLines folds indent steps next
        (here ++ joint ++ more, last, stop)

/-- The content of a block, given what follows its mark and the least indentation of its lines,
and what follows the block. -/
def blockScalar (folds : Bool) (least : Nat) (t : Text) : Except Fault (Text × Text) := do
  let header ← blockHeader t
  let body := t.drop header.length
  let (indent, place) := match header.indentation with
    | some n => (least + n - 1, blockBreaks (least + n - 1) 0 body)
    | none =>
      let (widest, place) := widestMargin 0 body
      (Nat.max least widest, place)
  let (content, last, stop) := blockLines folds indent t.length place
  let tail := match header.chomping with
    | .strip => []
    | .clip => last
    | .keep => last ++ stop.breaks
  return (content ++ tail, stop.ahead)

end TypedScript.Yaml
