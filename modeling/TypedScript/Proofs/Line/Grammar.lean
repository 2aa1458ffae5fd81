import TypedScript.Line.Classify

set_option autoImplicit false

/-!
The grammar of unions, parameters and typings as relations between tokens and
what they spell. Every reader takes exactly the tokens of its relation, as far
as the token behind them does not go on with it.
-/

namespace TypedScript.Line

/-- Further names, each behind a bar. -/
inductive SpellsMoreNames : List Token → List Text → Prop
  | nil : SpellsMoreNames [] []
  | cons {bar name : Token} {tokens : List Token} {names : List Text} :
      bar.kind = .pipe → name.kind = .ident → SpellsMoreNames tokens names →
      SpellsMoreNames (bar :: name :: tokens) (name.text :: names)

/-- A name, and further names behind bars. -/
inductive SpellsUnion : List Token → TypeUnion → Prop
  | intro {name : Token} {tokens : List Token} {names : List Text} :
      name.kind = .ident → SpellsMoreNames tokens names →
      SpellsUnion (name :: tokens) ⟨name.text :: names⟩

/-- Nothing, or a colon and a union. -/
inductive SpellsTyping : List Token → Option TypeUnion → Prop
  | absent : SpellsTyping [] none
  | present {colon : Token} {tokens : List Token} {union : TypeUnion} :
      colon.kind = .colon → SpellsUnion tokens union → SpellsTyping (colon :: tokens) (some union)

/-- A name with or without a typing. -/
inductive SpellsParameter : List Token → Parameter → Prop
  | intro {name : Token} {tokens : List Token} {declared : Option TypeUnion} :
      name.kind = .ident → SpellsTyping tokens declared →
      SpellsParameter (name :: tokens) ⟨name.text, declared⟩

/-- Further parameters, each behind a comma. -/
inductive SpellsMoreParameters : List Token → List Parameter → Prop
  | nil : SpellsMoreParameters [] []
  | cons {comma : Token} {first rest : List Token} {p : Parameter} {more : List Parameter} :
      comma.kind = .comma → SpellsParameter first p → SpellsMoreParameters rest more →
      SpellsMoreParameters (comma :: (first ++ rest)) (p :: more)

/-- No parameter, or one and further ones behind commas. -/
inductive SpellsParameters : List Token → List Parameter → Prop
  | none : SpellsParameters [] []
  | some {first rest : List Token} {p : Parameter} {more : List Parameter} :
      SpellsParameter first p → SpellsMoreParameters rest more →
      SpellsParameters (first ++ rest) (p :: more)

/-- The next token, if there is one, is not of the given kind. -/
def Stops (kind : TokenKind) (tokens : List Token) : Prop :=
  ∀ next ∈ tokens.head?, next.kind ≠ kind

theorem stops_cons {kind : TokenKind} {next : Token} {rest : List Token} :
    Stops kind (next :: rest) ↔ next.kind ≠ kind := by simp [Stops]

theorem stops_of_kind {kind present : TokenKind} {next : Token} {rest : List Token}
    (found : next.kind = present) (differ : present ≠ kind) : Stops kind (next :: rest) := by
  rw [stops_cons, found]
  exact differ

theorem take_cons_of_kind {kind : TokenKind} {token : Token} (rest : List Token)
    (found : token.kind = kind) : take kind (token :: rest) = some (token, rest) := by
  simp [take, found]

theorem take_eq_none_iff {kind : TokenKind} {tokens : List Token} :
    take kind tokens = none ↔ Stops kind tokens := by
  cases tokens with
  | nil => simp [take, Stops]
  | cons token rest => simp [take, Stops]

theorem moreNames_sound {tokens rest : List Token} {names : List Text}
    (read : moreNames tokens = some (names, rest)) :
    ∃ front, tokens = front ++ rest ∧ SpellsMoreNames front names ∧ Stops .pipe rest := by
  fun_induction moreNames tokens generalizing names rest with
  | case1 bar name tail isBar isName ih =>
    obtain ⟨⟨found, behind⟩, inner, same⟩ := Option.map_eq_some_iff.mp read
    cases same
    obtain ⟨front, rfl, spelled, stops⟩ := ih inner
    exact ⟨bar :: name :: front, rfl, .cons isBar isName spelled, stops⟩
  | case2 => simp at read
  | case3 bar name tail noBar =>
    cases read
    exact ⟨[], rfl, .nil, stops_cons.mpr noBar⟩
  | case4 => simp at read
  | case5 bar noBar =>
    cases read
    exact ⟨[], rfl, .nil, stops_cons.mpr noBar⟩
  | case6 =>
    cases read
    exact ⟨[], rfl, .nil, by simp [Stops]⟩

theorem moreNames_of_stops {rest : List Token} (stops : Stops .pipe rest) :
    moreNames rest = some ([], rest) := by
  match rest with
  | [] => rfl
  | [_] => simp [moreNames, stops_cons.mp stops]
  | _ :: _ :: _ => simp [moreNames, stops_cons.mp stops]

theorem moreNames_complete {front rest : List Token} {names : List Text}
    (spelled : SpellsMoreNames front names) (stops : Stops .pipe rest) :
    moreNames (front ++ rest) = some (names, rest) := by
  induction spelled with
  | nil => exact moreNames_of_stops stops
  | cons isBar isName _ ih => simp [moreNames, isBar, isName, ih]

theorem typeUnion_sound {tokens rest : List Token} {union : TypeUnion}
    (read : typeUnion tokens = some (union, rest)) :
    ∃ front, tokens = front ++ rest ∧ SpellsUnion front union ∧ Stops .pipe rest := by
  simp only [typeUnion, Option.bind_eq_bind, Option.bind_eq_some_iff, Prod.exists] at read
  obtain ⟨first, behind, taken, more, last, further, same⟩ := read
  cases same
  obtain ⟨rfl, isName⟩ := take_eq_some taken
  obtain ⟨front, rfl, spelled, stops⟩ := moreNames_sound further
  exact ⟨first :: front, rfl, .intro isName spelled, stops⟩

theorem typeUnion_complete {front rest : List Token} {union : TypeUnion}
    (spelled : SpellsUnion front union) (stops : Stops .pipe rest) :
    typeUnion (front ++ rest) = some (union, rest) := by
  obtain ⟨isName, more⟩ := spelled
  simp [typeUnion, take_cons_of_kind _ isName, moreNames_complete more stops]

/-- A typing ends where no bar goes on with it; where there is none, no colon follows. -/
def TypingStops (declared : Option TypeUnion) (rest : List Token) : Prop :=
  match declared with
  | none => Stops .colon rest
  | some _ => Stops .pipe rest

theorem typing_sound {tokens rest : List Token} {declared : Option TypeUnion}
    (read : typing tokens = some (declared, rest)) :
    ∃ front, tokens = front ++ rest ∧ SpellsTyping front declared ∧ TypingStops declared rest := by
  unfold typing at read
  split at read
  next nothing =>
    cases read
    exact ⟨[], rfl, .absent, take_eq_none_iff.mp nothing⟩
  next colon behind taken =>
    simp only [Option.bind_eq_bind, Option.bind_eq_some_iff, Prod.exists] at read
    obtain ⟨union, last, inner, same⟩ := read
    cases same
    obtain ⟨rfl, isColon⟩ := take_eq_some taken
    obtain ⟨front, rfl, spelled, stops⟩ := typeUnion_sound inner
    exact ⟨colon :: front, rfl, .present isColon spelled, stops⟩

theorem typing_complete {front rest : List Token} {declared : Option TypeUnion}
    (spelled : SpellsTyping front declared) (stops : TypingStops declared rest) :
    typing (front ++ rest) = some (declared, rest) := by
  cases spelled with
  | absent => simp [typing, take_eq_none_iff.mpr stops]
  | present isColon union =>
    simp [typing, take_cons_of_kind _ isColon, typeUnion_complete union stops]

theorem parameter_sound {tokens rest : List Token} {p : Parameter}
    (read : parameter tokens = some (p, rest)) :
    ∃ front, tokens = front ++ rest ∧ SpellsParameter front p := by
  simp only [parameter, Option.bind_eq_bind, Option.bind_eq_some_iff, Prod.exists] at read
  obtain ⟨name, behind, taken, declared, last, inner, same⟩ := read
  cases same
  obtain ⟨rfl, isName⟩ := take_eq_some taken
  obtain ⟨front, rfl, spelled, -⟩ := typing_sound inner
  exact ⟨name :: front, rfl, .intro isName spelled⟩

/-- A parameter is read to its end if neither a colon nor a bar follows. -/
theorem parameter_complete {front rest : List Token} {p : Parameter}
    (spelled : SpellsParameter front p) (noColon : Stops .colon rest) (noBar : Stops .pipe rest) :
    parameter (front ++ rest) = some (p, rest) := by
  obtain ⟨isName, typed⟩ := spelled
  rename_i declared
  have stops : TypingStops declared rest := by cases declared <;> assumption
  simp [parameter, take_cons_of_kind _ isName, typing_complete typed stops]

theorem moreParameters_sound {tokens rest : List Token} {more : List Parameter}
    (read : moreParameters tokens = some (more, rest)) :
    ∃ front, tokens = front ++ rest ∧ SpellsMoreParameters front more := by
  fun_induction moreParameters tokens generalizing more rest with
  | case1 tokens nothing =>
    cases read
    exact ⟨[], rfl, .nil⟩
  | case2 => simp at read
  | case3 tokens comma behind taken first others inner ih =>
    obtain ⟨⟨found, last⟩, further, same⟩ := Option.map_eq_some_iff.mp read
    cases same
    obtain ⟨rfl, isComma⟩ := take_eq_some taken
    obtain ⟨head, rfl, spelled⟩ := parameter_sound inner
    obtain ⟨front, rfl, others⟩ := ih further
    exact ⟨comma :: (head ++ front), by simp, .cons isComma spelled others⟩

/-- What follows a parameter inside a list is a comma or the closing parenthesis. -/
theorem moreParameters_complete {front rest : List Token} {more : List Parameter} {closing : Token}
    (spelled : SpellsMoreParameters front more) (closes : closing.kind = .rparen) :
    moreParameters (front ++ closing :: rest) = some (more, closing :: rest) ∧
      Stops .colon (front ++ closing :: rest) ∧ Stops .pipe (front ++ closing :: rest) := by
  induction spelled with
  | nil =>
    have noComma : take .comma (closing :: rest) = none :=
      take_eq_none_iff.mpr (stops_of_kind closes (by decide))
    refine ⟨?_, stops_of_kind closes (by decide), stops_of_kind closes (by decide)⟩
    rw [List.nil_append, moreParameters]
    split
    next => rfl
    next taken => simp [noComma] at taken
  | @cons comma first tail p more isComma parameterSpelled _ ih =>
    obtain ⟨others, noColon, noBar⟩ := ih
    have inner := parameter_complete parameterSpelled noColon noBar
    refine ⟨?_, stops_of_kind isComma (by decide), stops_of_kind isComma (by decide)⟩
    rw [List.cons_append, moreParameters]
    split
    next nothing => simp [take_cons_of_kind _ isComma] at nothing
    next token behind taken =>
      rw [take_cons_of_kind _ isComma, List.append_assoc] at taken
      cases taken
      split
      next failed => simp [inner] at failed
      next found last read =>
        rw [inner] at read
        cases read
        simp [others]

theorem parameters_sound {tokens rest : List Token} {ps : List Parameter}
    (read : parameters tokens = some (ps, rest)) :
    ∃ front, tokens = front ++ rest ∧ SpellsParameters front ps := by
  unfold parameters at read
  split at read
  next =>
    cases read
    exact ⟨[], rfl, .none⟩
  next =>
    simp only [Option.bind_eq_bind, Option.bind_eq_some_iff, Prod.exists] at read
    obtain ⟨first, behind, inner, more, last, further, same⟩ := read
    cases same
    obtain ⟨head, rfl, spelled⟩ := parameter_sound inner
    obtain ⟨front, rfl, others⟩ := moreParameters_sound further
    exact ⟨head ++ front, by simp, .some spelled others⟩

theorem parameters_complete {front rest : List Token} {ps : List Parameter} {closing : Token}
    (spelled : SpellsParameters front ps) (closes : closing.kind = .rparen) :
    parameters (front ++ closing :: rest) = some (ps, closing :: rest) := by
  cases spelled with
  | none => simp [parameters, take_cons_of_kind _ closes]
  | @some first tail p more parameterSpelled others =>
    obtain ⟨further, noColon, noBar⟩ :
        moreParameters (tail ++ closing :: rest) = some (more, closing :: rest) ∧ _ :=
      moreParameters_complete others closes
    have inner := parameter_complete parameterSpelled noColon noBar
    have opens : Stops .rparen (first ++ tail ++ closing :: rest) := by
      obtain ⟨isName, -⟩ := parameterSpelled
      exact stops_of_kind isName (by decide)
    simp only [parameters, take_eq_none_iff.mpr opens]
    simp [inner, further]

end TypedScript.Line
