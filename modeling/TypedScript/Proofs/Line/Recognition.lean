import TypedScript.Proofs.Line.Grammar
import TypedScript.Proofs.Token.Layout

set_option autoImplicit false

/-!
Which lines have a record, and which one. `Describes` gives the four shapes of a
line by its tokens alone; `classify` finds the record that describes the line,
and nothing if there is none.
-/

namespace TypedScript.Line

/-- The expression in a text: trimmed, and without one semicolon at its end. -/
inductive SpellsValue (behind : Text) : Text → Prop
  | plain : (Text.trim behind).getLast? ≠ some ';' → SpellsValue behind (Text.trim behind)
  | terminated {body : Text} :
      Text.trim behind = body ++ [';'] → SpellsValue behind (Text.trimEnd body)

/-- What follows the parameters of a header: some token that is no colon, or a colon and a union
with some token behind it that is no bar. -/
inductive SpellsResult : List Token → Option TypeUnion → Prop
  | absent {next : Token} {rest : List Token} :
      next.kind ≠ .colon → SpellsResult (next :: rest) none
  | present {colon next : Token} {tokens rest : List Token} {union : TypeUnion} :
      colon.kind = .colon → SpellsUnion tokens union → next.kind ≠ .pipe →
      SpellsResult (colon :: (tokens ++ next :: rest)) (some union)

/-- The record of a trimmed line. -/
inductive Describes (line : Int) (t : Text) : LineRecord → Prop
  | close : t = ['\x7d'] → Describes line t (.close line)
  | returns {opening : Token} {rest : List Token} {behind value : Text} :
      tokenize line t = opening :: rest → opening.kind = .ret →
      Token.Behind t opening behind → SpellsValue behind value →
      Describes line t (.returns value line)
  | declaration {opening name colon assign : Token} {tokens rest : List Token} {b : Binding}
      {union : TypeUnion} {behind value : Text} :
      tokenize line t = opening :: name :: colon :: (tokens ++ assign :: rest) →
      opening.kind = .binding b → name.kind = .ident → colon.kind = .colon →
      SpellsUnion tokens union → assign.kind = .assign →
      Token.Behind t assign behind → SpellsValue behind value → value ≠ [] →
      Describes line t (.declaration ⟨b, name.text, union, value, line⟩)
  | header {opening name lparen rparen : Token} {tokens rest : List Token}
      {ps : List Parameter} {result : Option TypeUnion} :
      tokenize line t = opening :: name :: lparen :: (tokens ++ rparen :: rest) →
      opening.kind = .fn → name.kind = .ident → lparen.kind = .lparen →
      SpellsParameters tokens ps → rparen.kind = .rparen → SpellsResult rest result →
      Describes line t (.header ⟨name.text, ps, result, line⟩)

theorem withoutTerminator_eq_iff {behind value : Text} :
    withoutTerminator behind = value ↔ SpellsValue behind value := by
  simp only [withoutTerminator]
  constructor
  · intro same
    split at same
    next ends =>
      obtain ⟨body, split⟩ := List.getLast?_eq_some_iff.mp ends
      rw [split, List.dropLast_concat] at same
      exact same ▸ .terminated split
    next unended => exact same ▸ .plain unended
  · rintro (unended | split)
    · rw [if_neg unended]
    · rw [split, if_pos List.getLast?_concat, List.dropLast_concat]

/-- The expression behind a token of a line. -/
theorem valueAfter_eq_iff {line : Int} {t value : Text} {token : Token}
    (membership : token ∈ tokenize line t) :
    valueAfter token t = value ↔
      ∃ behind, Token.Behind t token behind ∧ SpellsValue behind value := by
  simp only [valueAfter, withoutTerminator_eq_iff, Token.behind_iff_of_mem membership,
    exists_eq_left]

/-- Since the end mark stands last, some token follows every other token. -/
theorem exists_next_token {line : Int} {t : Text} {front tail : List Token} {last : Token}
    (read : tokenize line t = front ++ last :: tail) (real : last.kind ≠ .eof) :
    ∃ next rest, tail = next :: rest := by
  cases tail with
  | cons next rest => exact ⟨next, rest, rfl⟩
  | nil =>
    obtain ⟨others, ends, -⟩ := Token.exists_tokensFrom_eq_concat line 0 t
    have same : last = ⟨.eof, [], line, 0 + t.length⟩ := by
      have whole := read.symm.trans ends
      exact List.singleton_inj.mp (List.append_inj_right' whole rfl)
    exact absurd (by rw [same]) real

theorem spellsMoreNames_last {name : Token} {tokens : List Token} {names : List Text}
    (isName : name.kind = .ident) (spelled : SpellsMoreNames tokens names) :
    ∃ init last, name :: tokens = init ++ [last] ∧ last.kind = .ident := by
  induction spelled generalizing name with
  | nil => exact ⟨[], name, rfl, isName⟩
  | @cons bar next tokens names _ isNext _ ih =>
    obtain ⟨init, last, split, isLast⟩ := ih isNext
    exact ⟨name :: bar :: init, last, by rw [split]; rfl, isLast⟩

/-- A result type is read behind the parameters exactly if it is spelled there. -/
theorem typing_iff_spellsResult {line : Int} {t : Text} {front tail : List Token} {closing : Token}
    {result : Option TypeUnion} (read : tokenize line t = front ++ closing :: tail)
    (closes : closing.kind = .rparen) :
    (∃ rest, typing tail = some (result, rest)) ↔ SpellsResult tail result := by
  constructor
  · rintro ⟨rest, typed⟩
    obtain ⟨spelling, rfl, spelled, stops⟩ := typing_sound typed
    cases spelled with
    | absent =>
      obtain ⟨next, others, rfl⟩ := exists_next_token read (by simp [closes])
      exact .absent (stops_cons.mp stops)
    | @present colon tokens union isColon spelledUnion =>
      obtain ⟨isName, more⟩ := id spelledUnion
      obtain ⟨init, last, split, isLast⟩ := spellsMoreNames_last isName more
      have ends : tokenize line t = (front ++ closing :: colon :: init) ++ last :: rest := by
        rw [read, split]
        simp
      obtain ⟨next, others, rfl⟩ := exists_next_token ends (by simp [isLast])
      exact .present isColon spelledUnion (stops_cons.mp stops)
  · intro spelled
    cases spelled with
    | @absent next rest noColon =>
      exact ⟨next :: rest, typing_complete .absent (stops_cons.mpr noColon)⟩
    | @present colon next tokens rest union isColon spelledUnion noBar =>
      have stops : TypingStops (some union) (next :: rest) := stops_cons.mpr noBar
      exact ⟨next :: rest, typing_complete (.present isColon spelledUnion) stops⟩

theorem declaration_eq_some_iff {b : Binding} {line : Int} {t : Text} {tokens : List Token}
    {d : Declaration} :
    declaration b line t tokens = some d ↔
      ∃ name colon assign spelling rest union, tokens = name :: colon :: (spelling ++ assign :: rest) ∧
        name.kind = .ident ∧ colon.kind = .colon ∧ SpellsUnion spelling union ∧
        assign.kind = .assign ∧ valueAfter assign t ≠ [] ∧
        d = ⟨b, name.text, union, valueAfter assign t, line⟩ := by
  simp only [declaration, Option.bind_eq_bind, Option.bind_eq_some_iff, Prod.exists]
  constructor
  · rintro ⟨name, afterName, named, colon, afterColon, coloned, union, afterUnion, read, assign,
      rest, assigned, kept⟩
    obtain ⟨rfl, isName⟩ := take_eq_some named
    obtain ⟨rfl, isColon⟩ := take_eq_some coloned
    obtain ⟨spelling, rfl, spelled, -⟩ := typeUnion_sound read
    obtain ⟨rfl, isAssign⟩ := take_eq_some assigned
    split at kept
    next => contradiction
    next filled =>
      cases kept
      exact ⟨name, colon, assign, spelling, rest, union, rfl, isName, isColon, spelled, isAssign,
        by simpa using filled, rfl⟩
  · rintro ⟨name, colon, assign, spelling, rest, union, rfl, isName, isColon, spelled, isAssign,
      filled, rfl⟩
    refine ⟨name, _, take_cons_of_kind _ isName, colon, _, take_cons_of_kind _ isColon, union, _,
      typeUnion_complete spelled (stops_of_kind isAssign (by decide)), assign, rest,
      take_cons_of_kind _ isAssign, ?_⟩
    simp [filled]

theorem header_eq_some_iff {line : Int} {tokens : List Token} {h : Header} :
    header line tokens = some h ↔
      ∃ name lparen rparen spelling tail ps result,
        tokens = name :: lparen :: (spelling ++ rparen :: tail) ∧
        name.kind = .ident ∧ lparen.kind = .lparen ∧ SpellsParameters spelling ps ∧
        rparen.kind = .rparen ∧ (∃ rest, typing tail = some (result, rest)) ∧
        h = ⟨name.text, ps, result, line⟩ := by
  simp only [header, Option.bind_eq_bind, Option.bind_eq_some_iff, Prod.exists]
  constructor
  · rintro ⟨name, afterName, named, lparen, inside, opened, ps, afterParameters, read, rparen, tail,
      closed, result, rest, typed, same⟩
    cases same
    obtain ⟨rfl, isName⟩ := take_eq_some named
    obtain ⟨rfl, isOpening⟩ := take_eq_some opened
    obtain ⟨spelling, rfl, spelled⟩ := parameters_sound read
    obtain ⟨rfl, isClosing⟩ := take_eq_some closed
    exact ⟨name, lparen, rparen, spelling, tail, ps, result, rfl, isName, isOpening, spelled,
      isClosing, ⟨rest, typed⟩, rfl⟩
  · rintro ⟨name, lparen, rparen, spelling, tail, ps, result, rfl, isName, isOpening, spelled,
      isClosing, ⟨rest, typed⟩, rfl⟩
    exact ⟨name, _, take_cons_of_kind _ isName, lparen, _, take_cons_of_kind _ isOpening, ps, _,
      parameters_complete spelled isClosing, rparen, tail, take_cons_of_kind _ isClosing,
      result, rest, typed, rfl⟩

theorem ne_brace_of_tokenize {line : Int} {t : Text} {opening : Token} {rest : List Token}
    (read : tokenize line t = opening :: rest) (differs : opening.kind ≠ .rbrace) :
    t ≠ ['\x7d'] := by
  rintro rfl
  have leads : Token.Leads .rbrace ['\x7d'] [] := ⟨'\x7d', [], rfl, by decide, by decide⟩
  have first := Token.tokensFrom_leads line 0 leads
  rw [List.append_nil] at first
  obtain ⟨rfl, -⟩ := List.cons.inj (read.symm.trans first)
  exact differs rfl

theorem describes_of_classify {line : Int} {text : Text} {record : LineRecord}
    (found : classify line text = some record) : Describes line (Text.trim text) record := by
  simp only [classify] at found
  split at found
  next brace =>
    cases found
    exact .close brace
  next =>
    split at found
    next => contradiction
    next opening rest read =>
      split at found
      next b isBinding =>
        obtain ⟨d, declared, rfl⟩ := Option.map_eq_some_iff.mp found
        obtain ⟨name, colon, assign, spelling, behind, union, rfl, isName, isColon, spelled,
          isAssign, filled, rfl⟩ := declaration_eq_some_iff.mp declared
        obtain ⟨after, lies, value⟩ :=
          (valueAfter_eq_iff (by rw [read]; simp)).mp (rfl : valueAfter assign _ = _)
        exact .declaration read isBinding isName isColon spelled isAssign lies value filled
      next isFunction =>
        obtain ⟨h, headed, rfl⟩ := Option.map_eq_some_iff.mp found
        obtain ⟨name, lparen, rparen, spelling, tail, ps, result, rfl, isName, isOpening, spelled,
          isClosing, typed, rfl⟩ := header_eq_some_iff.mp headed
        have closes : tokenize line (Text.trim text) =
            (opening :: name :: lparen :: spelling) ++ rparen :: tail := read
        exact .header read isFunction isName isOpening spelled isClosing
          ((typing_iff_spellsResult closes isClosing).mp typed)
      next isReturn =>
        cases found
        obtain ⟨after, lies, value⟩ :=
          (valueAfter_eq_iff (by rw [read]; simp)).mp (rfl : valueAfter opening _ = _)
        exact .returns read isReturn lies value
      next => contradiction

theorem classify_of_describes {line : Int} {text : Text} {record : LineRecord}
    (described : Describes line (Text.trim text) record) : classify line text = some record := by
  cases described with
  | close brace => simp [classify, brace]
  | @returns opening rest behind value read isReturn lies spelled =>
    have solid := ne_brace_of_tokenize read (by simp [isReturn])
    have expression : valueAfter opening (Text.trim text) = value :=
      (valueAfter_eq_iff (by rw [read]; simp)).mpr ⟨behind, lies, spelled⟩
    simp [classify, solid, read, isReturn, expression]
  | @declaration opening name colon assign tokens rest b union behind value read isBinding isName
      isColon spelled isAssign lies valued filled =>
    have solid := ne_brace_of_tokenize read (by simp [isBinding])
    have expression : valueAfter assign (Text.trim text) = value :=
      (valueAfter_eq_iff (by rw [read]; simp)).mpr ⟨behind, lies, valued⟩
    have declared : declaration b line (Text.trim text)
        (name :: colon :: (tokens ++ assign :: rest)) = some ⟨b, name.text, union, value, line⟩ := by
      apply declaration_eq_some_iff.mpr
      refine ⟨name, colon, assign, tokens, rest, union, rfl, isName, isColon, spelled, isAssign, ?_⟩
      rw [expression]
      exact ⟨filled, rfl⟩
    simp only [classify, solid, read, isBinding]
    simp [declared]
  | @header opening name lparen rparen tokens rest ps result read isFunction isName isOpening spelled
      isClosing resulted =>
    have solid := ne_brace_of_tokenize read (by simp [isFunction])
    have closes : tokenize line (Text.trim text) =
        (opening :: name :: lparen :: tokens) ++ rparen :: rest := read
    have headed : header line (name :: lparen :: (tokens ++ rparen :: rest)) =
        some ⟨name.text, ps, result, line⟩ := by
      apply header_eq_some_iff.mpr
      refine ⟨name, lparen, rparen, tokens, rest, ps, result, rfl, isName, isOpening, spelled,
        isClosing, ?_, rfl⟩
      exact (typing_iff_spellsResult closes isClosing).mpr resulted
    simp only [classify, solid, read, isFunction]
    simp [headed]

/-- A line has the record that describes it, and none if no record does. -/
theorem classify_recognises (line : Int) (text : Text) :
    (∀ record, classify line text = some record ↔ Describes line (Text.trim text) record) ∧
      (classify line text = none ↔ ∀ record, ¬ Describes line (Text.trim text) record) := by
  refine ⟨fun record => ⟨describes_of_classify, classify_of_describes⟩, ?_⟩
  constructor
  · intro nothing record described
    rw [classify_of_describes described] at nothing
    contradiction
  · intro undescribed
    cases found : classify line text with
    | none => rfl
    | some record => exact absurd (describes_of_classify found) (undescribed record)

end TypedScript.Line
