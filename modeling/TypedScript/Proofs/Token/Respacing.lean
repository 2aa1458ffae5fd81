import Mathlib.Data.List.TakeWhile
import TypedScript.Proofs.Token.Literal
import TypedScript.Proofs.Token.Separator

set_option autoImplicit false

/-!
Tokens do not depend on their surroundings, though the lexer looks ahead. A token
cut out of its line is read as it was there, and so it is in front of a space,
unless it is a string that is not closed; but such a string is the last token. So
a line may be written anew with single spaces between its tokens.
-/

namespace TypedScript.Token

theorem numberTail_take (t : Text) : numberTail (t.take (numberTail t)) = numberTail t := by
  have length : (t.take (numberTail t)).length = numberTail t := by
    rw [List.length_take, Nat.min_eq_left (numberTail_le t)]
  have digits (x : Text) : ∀ d ∈ x.takeWhile isAsciiDigit, isAsciiDigit d = true :=
    fun _ membership => List.mem_takeWhile_imp membership
  have noTrail : ∀ c ∈ ([] : Text), isBlank c = true := by simp
  rcases take_numberTail_cases t with taken | ⟨d, more, first, taken⟩
  · have whole := numberTail_digits (digits t) noTrail
    rw [List.append_nil, ← taken] at whole
    rw [whole, length]
  · have fraction := numberTail_fraction (digits t) first (digits more) noTrail
    rw [List.append_nil, ← taken] at fraction
    rw [fraction, ← length, taken]
    simp only [List.length_append, List.length_cons]
    omega

theorem stringTail_cons (quote : Char) {c : Char} (noBackslash : c ≠ '\\') (rest : Text) :
    stringTail quote (c :: rest) = if c = quote then 1 else stringTail quote rest + 1 := by
  rw [stringTail]
  · exact fun same _ => noBackslash same
  · exact fun _ _ same _ => noBackslash same

theorem stringTail_take (quote : Char) (t : Text) :
    stringTail quote (t.take (stringTail quote t)) = stringTail quote t := by
  have noBackslash {c : Char} {rest : Text} (noLast : c = '\\' → rest = [] → False)
      (noEscape : ∀ d more, c = '\\' → rest = d :: more → False) : c ≠ '\\' := by
    intro same
    cases rest with
    | nil => exact noLast same rfl
    | cons d more => exact noEscape d more same rfl
  fun_induction stringTail quote t with
  | case1 => rfl
  | case2 => rfl
  | case3 c rest ih => rw [List.take_succ_cons, List.take_succ_cons, stringTail, ih]
  | case4 rest noLast noEscape =>
    rw [List.take_succ_cons, stringTail_cons _ (noBackslash noLast noEscape), if_pos rfl]
  | case5 c rest noLast noEscape other ih =>
    rw [List.take_succ_cons, stringTail_cons _ (noBackslash noLast noEscape), if_neg other, ih]

theorem eq_of_opensAssign {c : Char} {rest : Text} (opens : opensAssign c rest = true) : c = '=' := by
  simp only [opensAssign, Bool.and_eq_true, beq_iff_eq] at opens
  exact opens.1.1

/-- What an equals sign must not be joined with is an operator character, so it is not cut off. -/
theorem opensAssign_takeWhile (c : Char) (rest : Text) :
    opensAssign c (rest.takeWhile isOperatorChar) = opensAssign c rest := by
  cases rest with
  | nil => rfl
  | cons d rest =>
    rw [List.takeWhile_cons]
    split
    · rfl
    next other =>
      have noEquals : d ≠ '=' := by
        rintro rfl
        exact other (by decide)
      have noGreater : d ≠ '>' := by
        rintro rfl
        exact other (by decide)
      rw [Bool.eq_iff_iff]
      simp [opensAssign, noEquals, noGreater]

/-- What is read of a text is read again from that part of it alone. -/
theorem lexeme_take (c : Char) (rest : Text) :
    lexeme c (rest.take (lexeme c rest).2) = lexeme c rest := by
  by_cases start : isIdentStart c = true
  · have read (t : Text) : lexeme c t =
        (wordKind (c :: t.takeWhile isIdentPart), (t.takeWhile isIdentPart).length) := by
      simp [lexeme, start]
    simp only [read, take_length_takeWhile, List.takeWhile_idem]
  by_cases digit : isAsciiDigit c = true
  · have read (t : Text) : lexeme c t = (.number, numberTail t) := by simp [lexeme, start, digit]
    simp only [read, numberTail_take]
  by_cases quoted : isQuote c = true
  · simp only [lexeme_of_isQuote quoted, stringTail_take]
  cases mark : punctuation? c with
  | some kind => simp [lexeme, start, digit, quoted, mark]
  | none =>
    by_cases operator : isOperatorChar c = true
    · have read (t : Text) : lexeme c t = if opensAssign c t then (.assign, 0)
          else (.operator, (t.takeWhile isOperatorChar).length) := by
        simp [lexeme, start, digit, quoted, mark, operator]
      by_cases opens : opensAssign c rest = true
      · obtain rfl := eq_of_opensAssign opens
        have itself : opensAssign '=' [] = true := rfl
        rw [read rest, if_pos opens, List.take_zero, read, if_pos itself]
      · rw [read rest, if_neg opens, take_length_takeWhile, read, opensAssign_takeWhile,
          if_neg opens, List.takeWhile_idem]
    · have read (t : Text) : lexeme c t = (.other, 0) := by
        have noAssign : ¬ opensAssign c t = true := by
          intro opens
          obtain rfl := eq_of_opensAssign opens
          exact operator (by decide)
        simp [lexeme, start, digit, quoted, mark, operator, noAssign]
      simp only [read]

/-- A token is read on its own as it is read in its line. -/
theorem Leads.alone {kind : TokenKind} {w behind : Text} (leads : Leads kind w behind) :
    Leads kind w [] := by
  obtain ⟨c, more, rfl, solid, read⟩ := leads
  have again := lexeme_take c (more ++ behind)
  rw [read, List.take_left] at again
  exact ⟨c, more, rfl, solid, by rw [List.append_nil, again]⟩

/-- A token with something behind it is the same token in front of any separator. -/
theorem Leads.separated {kind : TokenKind} {w behind tail : Text} (leads : Leads kind w behind)
    (filled : behind ≠ []) (separates : Separates tail) : Leads kind w tail := by
  by_cases string : kind = .string
  · subst string
    obtain ⟨quote, quoted, ⟨inner, rfl, content⟩ | ⟨-, -, -, empty⟩⟩ := leads.string_cases
    · exact content.leads quoted tail
    · exact absurd empty filled
  · exact (leads.alone.append separates).resolve_right fun unclosed => string unclosed.1

/-- What a token is, wherever it stands. -/
def reading (token : Token) : TokenKind × Text := (token.kind, token.text)

/-- The texts of tokens, without the end mark, with single spaces between them. -/
def respaced (tokens : List Token) : Text :=
  Text.join [' '] ((tokens.filter (·.kind ≠ .eof)).map Token.text)

theorem respaced_of_ended {tokens : List Token} (ended : ∀ token ∈ tokens, token.kind = .eof) :
    respaced tokens = [] := by
  have none : tokens.filter (·.kind ≠ .eof) = [] := by simpa using ended
  rw [respaced, none, List.map_nil, Text.join_nil]

theorem respaced_cons {token : Token} (real : token.kind ≠ .eof) (others : List Token) :
    respaced (token :: others) = if ∀ other ∈ others, other.kind = .eof then token.text
      else token.text ++ ' ' :: respaced others := by
  have kept : (token :: others).filter (·.kind ≠ .eof) = token :: others.filter (·.kind ≠ .eof) :=
    List.filter_cons_of_pos (by simpa using real)
  rw [respaced, kept, List.map_cons]
  split
  next ended =>
    have none : others.filter (·.kind ≠ .eof) = [] := by simpa using ended
    rw [none, List.map_nil, Text.join_singleton]
  next going =>
    have some : (others.filter (·.kind ≠ .eof)).map Token.text ≠ [] := by simpa using going
    rw [Text.join_cons _ _ some, List.append_assoc, List.singleton_append, ← respaced]

theorem Tiles.ended {line : Int} {start : Nat} {tokens : List Token}
    (tiles : Tiles line start [] tokens) : ∀ token ∈ tokens, token.kind = .eof := by
  generalize empty : ([] : Text) = t at tiles
  cases tiles with
  | ends => simp
  | token _ _ leads =>
    simp only [List.nil_eq, List.append_eq_nil_iff] at empty
    exact absurd empty.2.1 leads.ne_nil

/-- Tokens that are written anew, with single spaces between them, are read as before. -/
theorem Tiles.reading_respaced {line : Int} {start : Nat} {t : Text} {tokens : List Token}
    (tiles : Tiles line start t tokens) (newLine : Int) (newStart : Nat) :
    (tokensFrom newLine newStart (respaced tokens)).map reading = tokens.map reading := by
  induction tiles generalizing newStart with
  | ends =>
    rw [respaced_of_ended (by simp), tokensFrom_nil]
    rfl
  | @token start kind gap w behind others blank real leads tiles ih =>
    rw [respaced_cons real, List.map_cons]
    split
    next ended =>
      have last := tokensFrom_leads newLine newStart leads.alone
      have rest := ih (newStart + w.length)
      rw [respaced_of_ended ended] at rest
      rw [List.append_nil] at last
      rw [last, List.map_cons, rest]
      rfl
    next going =>
      -- a string that is not closed would be the last token
      have filled : behind ≠ [] := by
        rintro rfl
        exact going tiles.ended
      have space : isBlank ' ' = true := rfl
      have separated := leads.separated filled (separates_blank (respaced others) space)
      have passed := tokensFrom_blanks newLine (newStart + w.length) (respaced others)
        (List.forall_mem_singleton.mpr space)
      rw [List.singleton_append] at passed
      rw [tokensFrom_leads newLine newStart separated, passed, List.map_cons, ih]
      rfl

/-- The tokens of a line, written anew with single spaces between them, are read as the same kinds
and texts. -/
theorem tokenize_respaced (line newLine : Int) (t : Text) :
    (tokenize newLine (respaced (tokenize line t))).map reading =
      (tokenize line t).map reading :=
  (tokensFrom_tiles line 0 t).reading_respaced newLine 0

end TypedScript.Token
