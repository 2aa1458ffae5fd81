import TypedScript.Proofs.Line.Cursor
import TypedScript.Proofs.Line.Grammar
import TypedScript.Proofs.Token.Layout

set_option autoImplicit false

/-!
Walking over a line is safe. Every walk does what the reader of the same part does
(`Follows`): it comes to its end, on a token, with the result of the reader or with
a mismatch where the reader fails. The walk over a whole line therefore gives the
record of the line, and the cursor is never behind the end mark.
-/

namespace TypedScript.Line

/-- Tokens with the end mark as the last one. -/
def Ended (tokens : List Token) : Prop := ∃ front mark, tokens = front ++ [mark] ∧ mark.kind = .eof

theorem ended_tokenize (line : Int) (t : Text) : Ended (tokenize line t) := by
  obtain ⟨front, split, -⟩ := Token.exists_tokensFrom_eq_concat line 0 t
  exact ⟨front, _, split, rfl⟩

/-- All places the cursor has been at are places of tokens. -/
def Cursor.OnTokens (tokens : List Token) (c : Cursor) : Prop :=
  ∀ place ∈ c.places, place < tokens.length

section

variable {tokens : List Token} {c : Cursor} {token : Token}

theorem Ended.exists_cons (ended : Ended tokens) : ∃ head rest, tokens = head :: rest := by
  obtain ⟨front, mark, rfl, -⟩ := ended
  cases front with
  | nil => exact ⟨mark, [], rfl⟩
  | cons head rest => exact ⟨head, rest ++ [mark], rfl⟩

theorem onTokens_start (ended : Ended tokens) : Cursor.start.OnTokens tokens := by
  obtain ⟨head, rest, rfl⟩ := ended.exists_cons
  simp [Cursor.OnTokens, Cursor.places, Cursor.start]

theorem Cursor.OnTokens.exists_ahead (on : c.OnTokens tokens) :
    ∃ token, tokens[c.place]? = some token ∧
      tokens.drop c.place = token :: tokens.drop (c.place + 1) := by
  have within : c.place < tokens.length := on c.place (List.mem_cons_self ..)
  exact ⟨tokens[c.place], List.getElem?_eq_getElem within, List.drop_eq_getElem_cons within⟩

/-- Behind every token but the end mark there is another one. -/
theorem Cursor.OnTokens.step (ended : Ended tokens) (on : c.OnTokens tokens)
    (next : tokens[c.place]? = some token) (real : token.kind ≠ .eof) : c.step.OnTokens tokens := by
  obtain ⟨front, mark, rfl, isEnd⟩ := ended
  have within : c.place < (front ++ [mark]).length := on c.place (List.mem_cons_self ..)
  have inner : c.place ≠ front.length := by
    intro last
    rw [last, List.getElem?_concat_length] at next
    cases next
    exact real isEnd
  rw [List.length_append, List.length_singleton] at within
  intro place visited
  rcases List.mem_cons.mp visited with rfl | before
  · simp only [Cursor.step, List.length_append, List.length_singleton]
    omega
  · exact on place before

end

/-- Takes a token of the given kind if one comes next. -/
def takeOptional (kind : TokenKind) : Reader (Option Token) := fun tokens =>
  match take kind tokens with
  | none => some (none, tokens)
  | some (token, tokens) => some (some token, tokens)

theorem takeOptional_length {kind : TokenKind} {ahead rest : List Token} {token : Option Token}
    (read : takeOptional kind ahead = some (token, rest)) : rest.length ≤ ahead.length := by
  unfold takeOptional at read
  split at read
  next =>
    cases read
    exact Nat.le_refl _
  next first behind taken =>
    cases read
    rw [(take_eq_some taken).1, List.length_cons]
    omega

namespace Walk

section

variable {α β : Type} {tokens : List Token} {c : Cursor} {token : Token}

/-- The outcome of a walk beside that of a reader: both have the same result and the same tokens
ahead, or the walk has met a token it did not want and the reader fails. -/
inductive Agrees (tokens : List Token) :
    Part (Except Signal α × Cursor) → Option (α × List Token) → Prop
  | reads {a : α} {c : Cursor} :
      c.OnTokens tokens → Agrees tokens (Part.some (.ok a, c)) (some (a, tokens.drop c.place))
  | refuses {wanted : TokenKind} {c : Cursor} :
      c.OnTokens tokens → Agrees tokens (Part.some (.error (.mismatch wanted), c)) none

/-- Wherever the cursor is on a token, the walk does what the reader does with the tokens ahead. -/
def Follows (tokens : List Token) (walk : Walk α) (reader : Reader α) : Prop :=
  ∀ c : Cursor, c.OnTokens tokens →
    Agrees tokens (walk.run tokens c) (reader (tokens.drop c.place))

/-- What the reader has read is known to the walk that comes next: this is how the loops learn that
they have taken a token. -/
theorem Agrees.bind {walk : Walk α} {read : Option (α × List Token)} {next : α → Walk β}
    {behind : α × List Token → Option (β × List Token)}
    (first : Agrees tokens (walk.run tokens c) read)
    (others : ∀ a c, c.OnTokens tokens → read = some (a, tokens.drop c.place) →
      Agrees tokens ((next a).run tokens c) (behind (a, tokens.drop c.place))) :
    Agrees tokens ((walk >>= next).run tokens c) (read.bind behind) := by
  rw [run_bind]
  generalize walk.run tokens c = outcome at first
  cases first with
  | reads on =>
    rw [Part.bind_some]
    exact others _ _ on rfl
  | refuses on =>
    rw [Part.bind_some]
    exact .refuses on

theorem follows_expect (ended : Ended tokens) {kind : TokenKind} (real : kind ≠ .eof) :
    Follows tokens (expect kind) (take kind) := by
  intro c on
  obtain ⟨token, next, ahead⟩ := on.exists_ahead
  rw [ahead, expect, run_bind, run_peek next, Part.bind_some]
  by_cases found : token.kind = kind
  · have stillReal : token.kind ≠ .eof := found ▸ real
    simp only [if_pos found, run_advance next stillReal, take]
    exact .reads (on.step ended next stillReal)
  · simp only [if_neg found, take]
    exact .refuses on

theorem follows_accept (ended : Ended tokens) {kind : TokenKind} (real : kind ≠ .eof) :
    Follows tokens (accept kind) (takeOptional kind) := by
  intro c on
  obtain ⟨token, next, ahead⟩ := on.exists_ahead
  rw [accept, run_bind, run_peek next, Part.bind_some]
  by_cases found : token.kind = kind
  · have stillReal : token.kind ≠ .eof := found ▸ real
    simp only [if_pos found, run_bind, run_advance next stillReal, Part.bind_some, ahead,
      takeOptional, take_cons_of_kind _ found]
    exact .reads (on.step ended next stillReal)
  · have stops : Stops kind (tokens.drop c.place) := by
      rw [ahead]
      exact stops_cons.mpr found
    simp only [if_neg found, takeOptional, take_eq_none_iff.mpr stops]
    exact .reads on

/-- The names behind some that are found already, read as the loop reads them. -/
theorem bind_moreNames (found : List Text) (ahead : List Token) :
    ((moreNames ahead).bind fun (more, ahead) => some (found ++ more, ahead)) =
      (takeOptional .pipe ahead).bind fun (bar, ahead) =>
        match bar with
        | none => some (found, ahead)
        | some _ => (take .ident ahead).bind fun (name, ahead) =>
            (moreNames ahead).bind fun (more, ahead) =>
              some (found ++ [name.text] ++ more, ahead) := by
  match ahead with
  | [] => simp [moreNames, takeOptional, take]
  | [bar] => by_cases isBar : bar.kind = .pipe <;> simp [moreNames, takeOptional, take, isBar]
  | bar :: name :: rest =>
    by_cases isBar : bar.kind = .pipe
    · by_cases isName : name.kind = .ident
      · simp [moreNames, takeOptional, take, isBar, isName, Option.bind_map]
      · simp [moreNames, takeOptional, take, isBar, isName]
    · simp [moreNames, takeOptional, take, isBar]

theorem agrees_names (ended : Ended tokens) (found : List Text) (on : c.OnTokens tokens) :
    Agrees tokens ((names found).run tokens c)
      ((moreNames (tokens.drop c.place)).bind fun (more, ahead) =>
        some (found ++ more, ahead)) := by
  -- By the number of tokens ahead: a round that goes on has taken a bar and a name.
  induction size : (tokens.drop c.place).length using Nat.strongRecOn generalizing c found with
  | ind n ih =>
    rw [run_names, bind_moreNames]
    refine (follows_accept ended (by decide) c on).bind fun bar c on accepted => ?_
    cases bar with
    | none => exact .reads on
    | some bar =>
      refine (follows_expect ended (by decide) c on).bind fun name c on taken => ?_
      have afterBar := takeOptional_length accepted
      rw [(take_eq_some taken).1, List.length_cons] at afterBar
      exact ih _ (by omega) _ on rfl

theorem typeUnion_eq (ahead : List Token) :
    Line.typeUnion ahead = (take .ident ahead).bind fun (first, ahead) =>
      ((moreNames ahead).bind fun (more, ahead) => some ([first.text] ++ more, ahead)).bind
        fun (all, ahead) => some (⟨all⟩, ahead) := by
  simp only [Option.bind_assoc]
  rfl

theorem follows_typeUnion (ended : Ended tokens) : Follows tokens typeUnion Line.typeUnion := by
  intro c on
  rw [typeUnion_eq]
  refine (follows_expect ended (by decide) c on).bind fun first c on _ => ?_
  exact (agrees_names ended _ on).bind fun all c on _ => .reads on

theorem typing_eq (ahead : List Token) :
    Line.typing ahead = (takeOptional .colon ahead).bind fun (colon, ahead) =>
      match colon with
      | none => some (none, ahead)
      | some _ => (Line.typeUnion ahead).bind fun (union, ahead) => some (some union, ahead) := by
  unfold Line.typing takeOptional
  cases take .colon ahead <;> rfl

theorem follows_typing (ended : Ended tokens) : Follows tokens typing Line.typing := by
  intro c on
  rw [typing_eq]
  refine (follows_accept ended (by decide) c on).bind fun colon c on _ => ?_
  cases colon with
  | none => exact .reads on
  | some colon => exact (follows_typeUnion ended c on).bind fun union c on _ => .reads on

theorem follows_parameter (ended : Ended tokens) : Follows tokens parameter Line.parameter := by
  intro c on
  refine (follows_expect ended (by decide) c on).bind fun name c on _ => ?_
  exact (follows_typing ended c on).bind fun declared c on _ => .reads on

/-- The parameters behind some that are found already, read as the loop reads them. -/
theorem bind_moreParameters (found : List Parameter) (next : Parameter) (ahead : List Token) :
    ((moreParameters ahead).bind fun (more, ahead) => some (found ++ next :: more, ahead)) =
      (takeOptional .comma ahead).bind fun (comma, ahead) =>
        match comma with
        | none => some (found ++ [next], ahead)
        | some _ => (Line.parameter ahead).bind fun (first, ahead) =>
            (moreParameters ahead).bind fun (more, ahead) =>
              some (found ++ [next] ++ first :: more, ahead) := by
  rw [moreParameters, takeOptional]
  split
  next nothing =>
    rw [nothing]
    rfl
  next comma behind taken =>
    rw [taken]
    split
    next failed => simp [failed]
    next first others read => simp [read, Option.bind_map]

theorem agrees_parametersFrom (ended : Ended tokens) (found : List Parameter)
    (on : c.OnTokens tokens) :
    Agrees tokens ((parametersFrom found).run tokens c)
      ((Line.parameter (tokens.drop c.place)).bind fun (first, ahead) =>
        (moreParameters ahead).bind fun (more, ahead) => some (found ++ first :: more, ahead)) := by
  -- By the number of tokens ahead: every parameter takes one.
  induction size : (tokens.drop c.place).length using Nat.strongRecOn generalizing c found with
  | ind n ih =>
    rw [run_parametersFrom]
    refine (follows_parameter ended c on).bind fun next c on read => ?_
    dsimp only
    rw [bind_moreParameters]
    refine (follows_accept ended (by decide) c on).bind fun comma c on accepted => ?_
    cases comma with
    | none => exact .reads on
    | some comma =>
      have afterParameter := parameter_length read
      have afterComma := takeOptional_length accepted
      exact ih _ (by omega) _ on rfl

theorem follows_parameters (ended : Ended tokens) : Follows tokens parameters Line.parameters := by
  intro c on
  obtain ⟨token, next, ahead⟩ := on.exists_ahead
  rw [parameters, run_bind, run_peek next, Part.bind_some, Line.parameters]
  by_cases closes : token.kind = .rparen
  · have taken := take_cons_of_kind (tokens.drop (c.place + 1)) closes
    rw [← ahead] at taken
    simp only [if_pos closes, taken, Option.isSome_some, if_true]
    exact .reads on
  · have stops : Stops .rparen (tokens.drop c.place) := by
      rw [ahead]
      exact stops_cons.mpr closes
    simp only [if_neg closes, take_eq_none_iff.mpr stops, Option.isSome_none, Bool.false_eq_true,
      if_false]
    exact agrees_parametersFrom ended [] on

/-- No mismatch leaves an attempt. -/
theorem Agrees.attempt {walk : Walk α} {read : Option (α × List Token)}
    (agrees : Agrees tokens (walk.run tokens c) read) :
    ∃ last, last.OnTokens tokens ∧
      (attempt walk).run tokens c = Part.some (.ok (read.map Prod.fst), last) := by
  rw [run_attempt]
  generalize walk.run tokens c = outcome at agrees
  cases agrees with
  | reads on => exact ⟨_, on, Part.map_some _ _⟩
  | refuses on => exact ⟨_, on, Part.map_some _ _⟩

theorem Follows.attempt_behind {walk : Walk α} {reader : Reader α}
    (follows : Follows tokens walk reader) (ended : Ended tokens) (on : c.OnTokens tokens)
    (next : tokens[c.place]? = some token) (real : token.kind ≠ .eof) :
    ∃ last, last.OnTokens tokens ∧ (Walk.attempt (advance >>= fun _ => walk)).run tokens c =
      Part.some (.ok ((reader (tokens.drop (c.place + 1))).map Prod.fst), last) := by
  apply Agrees.attempt
  rw [run_bind, run_advance next real, Part.bind_some]
  exact follows c.step (on.step ended next real)

/-- Reads the parts of a declaration and keeps the tokens behind them. -/
def readDeclaration : Reader (Token × TypeUnion × Token) := fun tokens => do
  let (name, tokens) ← take .ident tokens
  let (_, tokens) ← take .colon tokens
  let (declared, tokens) ← Line.typeUnion tokens
  let (assign, tokens) ← take .assign tokens
  return ((name, declared, assign), tokens)

theorem declaration_eq (b : Binding) (line : Int) (t : Text) (ahead : List Token) :
    Line.declaration b line t ahead =
      ((readDeclaration ahead).map Prod.fst).bind fun (name, declared, assign) =>
        if (valueAfter assign t).isEmpty then none
        else some ⟨b, name.text, declared, valueAfter assign t, line⟩ := by
  simp [Line.declaration, readDeclaration, Option.map_bind, Option.bind_assoc]

theorem follows_declarationParts (ended : Ended tokens) :
    Follows tokens declarationParts readDeclaration := by
  intro c on
  refine (follows_expect ended (by decide) c on).bind fun name c on _ => ?_
  refine (follows_expect ended (by decide) c on).bind fun colon c on _ => ?_
  refine (follows_typeUnion ended c on).bind fun declared c on _ => ?_
  exact (follows_expect ended (by decide) c on).bind fun assign c on _ => .reads on

theorem run_declaration (ended : Ended tokens) (on : c.OnTokens tokens)
    (next : tokens[c.place]? = some token) (real : token.kind ≠ .eof) (b : Binding) (line : Int)
    (t : Text) :
    ∃ last, last.OnTokens tokens ∧ (declaration b line t).run tokens c =
      Part.some (.ok (Line.declaration b line t (tokens.drop (c.place + 1))), last) := by
  obtain ⟨last, lastOn, ends⟩ :=
    (follows_declarationParts ended).attempt_behind ended on next real
  refine ⟨last, lastOn, ?_⟩
  rw [declaration, run_bind, ends, Part.bind_some, declaration_eq]
  cases (readDeclaration (tokens.drop (c.place + 1))).map Prod.fst with
  | none => rfl
  | some parts =>
    obtain ⟨name, declared, assign⟩ := parts
    by_cases empty : (valueAfter assign t).isEmpty = true
    · simp only [Option.bind_some, if_pos empty]
      rfl
    · simp only [Option.bind_some, if_neg empty]
      rfl

/-- Reads a header and keeps the tokens behind it. -/
def readHeader (line : Int) : Reader Header := fun tokens => do
  let (name, tokens) ← take .ident tokens
  let (_, tokens) ← take .lparen tokens
  let (parameters, tokens) ← Line.parameters tokens
  let (_, tokens) ← take .rparen tokens
  let (result, tokens) ← Line.typing tokens
  return (⟨name.text, parameters, result, line⟩, tokens)

theorem header_eq (line : Int) (ahead : List Token) :
    Line.header line ahead = (readHeader line ahead).map Prod.fst := by
  simp [Line.header, readHeader, Option.map_bind]

theorem follows_headerParts (ended : Ended tokens) (line : Int) :
    Follows tokens (headerParts line) (readHeader line) := by
  intro c on
  refine (follows_expect ended (by decide) c on).bind fun name c on _ => ?_
  refine (follows_expect ended (by decide) c on).bind fun lparen c on _ => ?_
  refine (follows_parameters ended c on).bind fun parameters c on _ => ?_
  refine (follows_expect ended (by decide) c on).bind fun rparen c on _ => ?_
  exact (follows_typing ended c on).bind fun result c on _ => .reads on

theorem run_header (ended : Ended tokens) (on : c.OnTokens tokens)
    (next : tokens[c.place]? = some token) (real : token.kind ≠ .eof) (line : Int) :
    ∃ last, last.OnTokens tokens ∧ (header line).run tokens c =
      Part.some (.ok (Line.header line (tokens.drop (c.place + 1))), last) := by
  rw [header_eq]
  exact (follows_headerParts ended line).attempt_behind ended on next real

end

end Walk

theorem exists_walkLine_eq (line : Int) (text : Text) :
    ∃ last, last.OnTokens (tokenize line (Text.trim text)) ∧
      walkLine line text = Part.some (.ok (classify line text), last) := by
  have ended := ended_tokenize line (Text.trim text)
  have on := onTokens_start ended
  unfold walkLine Walk.record classify
  by_cases blank : Text.trim text = []
  · refine ⟨.start, on, ?_⟩
    simp [blank, tokenize, Token.tokensFrom_nil, Walk.run_pure]
  · by_cases brace : Text.trim text = ['\x7d']
    · refine ⟨.start, on, ?_⟩
      simp [brace, Walk.run_pure]
    · simp only [blank, brace, List.isEmpty_iff, if_false]
      obtain ⟨head, rest, read⟩ := ended.exists_cons
      rw [read] at ended on ⊢
      have next : (head :: rest)[Cursor.start.place]? = some head := rfl
      simp only [Walk.run_bind, Walk.run_peek next, Part.bind_some]
      cases kind : head.kind with
      | binding b =>
        obtain ⟨last, lastOn, ends⟩ :=
          Walk.run_declaration ended on next (by simp [kind]) b line (Text.trim text)
        refine ⟨last, lastOn, ?_⟩
        simp only [Walk.run_map, ends, Part.map_some]
        rfl
      | fn =>
        obtain ⟨last, lastOn, ends⟩ := Walk.run_header ended on next (by simp [kind]) line
        refine ⟨last, lastOn, ?_⟩
        simp only [Walk.run_map, ends, Part.map_some]
        rfl
      | ret =>
        have real : head.kind ≠ .eof := by simp [kind]
        refine ⟨_, on.step ended next real, ?_⟩
        simp only [Walk.run_map, Walk.run_returns line _ next real, Part.map_some]
        rfl
      | _ => exact ⟨.start, on, rfl⟩

/-- The walk over a line comes to its end with the record of the line, or none, and no signal, and
the cursor is at no time behind the end mark, which is the last token and the only one of its
kind. -/
theorem walkLine_returns_classify (line : Int) (text : Text) :
    ∃ cursor front mark,
      walkLine line text = Part.some (.ok (classify line text), cursor) ∧
      tokenize line (Text.trim text) = front ++ [mark] ∧ mark.kind = .eof ∧
      (∀ token ∈ front, token.kind ≠ .eof) ∧
      ∀ place ∈ cursor.places, place ≤ front.length := by
  obtain ⟨cursor, on, ends⟩ := exists_walkLine_eq line text
  obtain ⟨front, split, noEnd⟩ := Token.exists_tokensFrom_eq_concat line 0 (Text.trim text)
  refine ⟨cursor, front, _, ends, split, rfl, noEnd, ?_⟩
  intro place visited
  have within := on place visited
  rw [tokenize, split, List.length_append, List.length_singleton] at within
  omega

end TypedScript.Line
