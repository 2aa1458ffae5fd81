import TypedScript.Line.Record

set_option autoImplicit false

/-!
Recognising the shape of a line. A reader takes tokens from the front and hands
back the rest, or fails; whatever follows a function header on its line is not
looked at.
-/

namespace TypedScript.Line

/-- What a reader of tokens gives back: a result and the tokens behind it. -/
abbrev Reader (α : Type) := List Token → Option (α × List Token)

/-- Takes one token of the given kind. -/
def take (kind : TokenKind) : Reader Token
  | [] => none
  | token :: rest => if token.kind = kind then some (token, rest) else none

/-- The further names of a union, each behind a bar. -/
def moreNames : Reader (List Text)
  | bar :: name :: rest =>
    if bar.kind = .pipe then
      if name.kind = .ident then
        (moreNames rest).map fun (names, rest) => (name.text :: names, rest)
      else none
    else some ([], bar :: name :: rest)
  | [bar] => if bar.kind = .pipe then none else some ([], [bar])
  | [] => some ([], [])

def typeUnion : Reader TypeUnion := fun tokens => do
  let (first, tokens) ← take .ident tokens
  let (more, tokens) ← moreNames tokens
  return (⟨first.text :: more⟩, tokens)

/-- A union behind a colon, or nothing if no colon follows. -/
def typing : Reader (Option TypeUnion) := fun tokens =>
  match take .colon tokens with
  | none => some (none, tokens)
  | some (_, tokens) => do
    let (union, tokens) ← typeUnion tokens
    return (some union, tokens)

def parameter : Reader Parameter := fun tokens => do
  let (name, tokens) ← take .ident tokens
  let (declared, tokens) ← typing tokens
  return (⟨name.text, declared⟩, tokens)

theorem take_eq_some {kind : TokenKind} {tokens rest : List Token} {token : Token}
    (h : take kind tokens = some (token, rest)) : tokens = token :: rest ∧ token.kind = kind := by
  cases tokens with
  | nil => simp [take] at h
  | cons head tail => simp only [take] at h; split at h <;> simp_all

theorem moreNames_length {tokens rest : List Token} {names : List Text}
    (h : moreNames tokens = some (names, rest)) : rest.length ≤ tokens.length := by
  fun_induction moreNames tokens generalizing names rest with
  | case1 bar name tail _ _ ih =>
    obtain ⟨⟨found, behind⟩, read, same⟩ := Option.map_eq_some_iff.1 h
    cases same
    have := ih read
    simp only [List.length_cons]
    omega
  | case2 => simp at h
  | case3 => simp_all
  | case4 => simp at h
  | case5 => simp_all
  | case6 => simp_all

theorem typeUnion_length {tokens rest : List Token} {union : TypeUnion}
    (h : typeUnion tokens = some (union, rest)) : rest.length < tokens.length := by
  simp only [typeUnion, Option.bind_eq_bind, Option.bind_eq_some_iff, Prod.exists] at h
  obtain ⟨first, behind, taken, more, last, read, same⟩ := h
  cases same
  have := moreNames_length read
  rw [(take_eq_some taken).1, List.length_cons]
  omega

theorem typing_length {tokens rest : List Token} {union : Option TypeUnion}
    (h : typing tokens = some (union, rest)) : rest.length ≤ tokens.length := by
  simp only [typing] at h
  split at h
  · cases h; exact Nat.le_refl _
  · rename_i token behind taken
    simp only [Option.bind_eq_bind, Option.bind_eq_some_iff, Prod.exists] at h
    obtain ⟨found, last, read, same⟩ := h
    cases same
    have := typeUnion_length read
    rw [(take_eq_some taken).1, List.length_cons]
    omega

theorem parameter_length {tokens rest : List Token} {p : Parameter}
    (h : parameter tokens = some (p, rest)) : rest.length < tokens.length := by
  simp only [parameter, Option.bind_eq_bind, Option.bind_eq_some_iff, Prod.exists] at h
  obtain ⟨name, behind, taken, declared, last, read, same⟩ := h
  cases same
  have := typing_length read
  rw [(take_eq_some taken).1, List.length_cons]
  omega

/-- The further parameters, each behind a comma. -/
def moreParameters (tokens : List Token) : Option (List Parameter × List Token) :=
  match _taken : take .comma tokens with
  | none => some ([], tokens)
  | some (_, tokens) =>
    match _read : parameter tokens with
    | none => none
    | some (first, tokens) =>
      (moreParameters tokens).map fun (more, tokens) => (first :: more, tokens)
termination_by tokens.length
decreasing_by
  have := parameter_length _read
  rw [(take_eq_some _taken).1, List.length_cons]
  omega

/-- Parameters up to a closing parenthesis, which is left in place. -/
def parameters : Reader (List Parameter) := fun tokens =>
  if (take .rparen tokens).isSome then some ([], tokens)
  else do
    let (first, tokens) ← parameter tokens
    let (more, tokens) ← moreParameters tokens
    return (first :: more, tokens)

/-- The text of an expression: trimmed, without one semicolon at its end. -/
def withoutTerminator (t : Text) : Text :=
  let trimmed := Text.trim t
  if trimmed.getLast? = some ';' then Text.trimEnd trimmed.dropLast else trimmed

/-- The expression that stands behind a token. -/
def valueAfter (token : Token) (t : Text) : Text := withoutTerminator (t.drop token.stop)

/-- A declaration, given the tokens behind the word that opens it. -/
def declaration (binding : Binding) (line : Int) (t : Text) (tokens : List Token) :
    Option Declaration := do
  let (name, tokens) ← take .ident tokens
  let (_, tokens) ← take .colon tokens
  let (declared, tokens) ← typeUnion tokens
  let (assign, _) ← take .assign tokens
  let value := valueAfter assign t
  if value.isEmpty then none else some ⟨binding, name.text, declared, value, line⟩

/-- A function header, given the tokens behind the word that opens it. -/
def header (line : Int) (tokens : List Token) : Option Header := do
  let (name, tokens) ← take .ident tokens
  let (_, tokens) ← take .lparen tokens
  let (parameters, tokens) ← parameters tokens
  let (_, tokens) ← take .rparen tokens
  let (result, _) ← typing tokens
  return ⟨name.text, parameters, result, line⟩

/-- The record of a line, or nothing if the line has none of the four shapes. -/
def classify (line : Int) (t : Text) : Option LineRecord :=
  let trimmed := Text.trim t
  if trimmed = ['\x7d'] then some (.close line)
  else match tokenize line trimmed with
    | [] => none
    | head :: rest =>
      match head.kind with
      | .binding b => (declaration b line trimmed rest).map .declaration
      | .fn => (header line rest).map .header
      | .ret => some (.returns (valueAfter head trimmed) line)
      | _ => none

end TypedScript.Line
