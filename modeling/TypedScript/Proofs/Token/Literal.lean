import TypedScript.Proofs.Text.Margin
import TypedScript.Proofs.Token.Strings
import TypedScript.Types

set_option autoImplicit false

/-!
The type of an expression and the tokens of an expression are read independently:
one looks at the trimmed text as a whole, the other scans it from the left. Both
know the same numerals, and a number or a word is alone between blanks exactly if
it is what trimming leaves, so the type can be read off the tokens.
-/

namespace TypedScript.Token

/-- ASCII digits, and at most one point with digits on both sides. -/
inductive Numeral : Text → Prop
  | whole {digits : Text} :
      digits ≠ [] → (∀ c ∈ digits, isAsciiDigit c = true) → Numeral digits
  | decimal {digits fraction : Text} :
      digits ≠ [] → (∀ c ∈ digits, isAsciiDigit c = true) →
      fraction ≠ [] → (∀ c ∈ fraction, isAsciiDigit c = true) →
      Numeral (digits ++ '.' :: fraction)

theorem Numeral.mem {w : Text} (numeral : Numeral w) {c : Char} (membership : c ∈ w) :
    isAsciiDigit c = true ∨ c = '.' := by
  cases numeral with
  | whole _ digits => exact .inl (digits c membership)
  | decimal _ digits _ fraction =>
    rcases List.mem_append.mp membership with before | behind
    · exact .inl (digits c before)
    · rcases List.mem_cons.mp behind with point | behind
      · exact .inr point
      · exact .inl (fraction c behind)

theorem Numeral.flush {w : Text} (numeral : Numeral w) : Text.Flush w := by
  refine Text.flush_of_solid ?_
  intro c membership
  rcases numeral.mem membership with digit | rfl
  · exact (apart_of_isAsciiDigit digit).2
  · decide

/-- A numeral begins with a digit. -/
theorem Numeral.exists_cons {w : Text} (numeral : Numeral w) :
    ∃ c more, w = c :: more ∧ isAsciiDigit c = true := by
  cases numeral with
  | whole filled digits =>
    obtain ⟨c, more, rfl⟩ := List.exists_cons_of_ne_nil filled
    exact ⟨c, more, rfl, digits c (by simp)⟩
  | decimal filled digits _ _ =>
    obtain ⟨c, more, rfl⟩ := List.exists_cons_of_ne_nil filled
    exact ⟨c, _, rfl, digits c (by simp)⟩

theorem dropWhile_append_point {digits : Text} (all : ∀ c ∈ digits, isAsciiDigit c = true)
    (rest : Text) : (digits ++ '.' :: rest).dropWhile isAsciiDigit = '.' :: rest := by
  rw [List.dropWhile_append_of_pos all, List.dropWhile_cons_of_neg (by decide)]

theorem takeWhile_append_point {digits : Text} (all : ∀ c ∈ digits, isAsciiDigit c = true)
    (rest : Text) : (digits ++ '.' :: rest).takeWhile isAsciiDigit = digits := by
  rw [List.takeWhile_append_of_pos all, List.takeWhile_cons_of_neg (by decide), List.append_nil]

theorem spellsNumber_iff {t : Text} : spellsNumber t = true ↔ Numeral t := by
  constructor
  · intro spelled
    have digits : ∀ c ∈ t.takeWhile isAsciiDigit, isAsciiDigit c = true := fun c membership =>
      List.all_eq_true.mp List.all_takeWhile c membership
    have split := List.takeWhile_append_dropWhile (p := isAsciiDigit) (l := t)
    simp only [spellsNumber, Bool.and_eq_true, Bool.not_eq_true', List.isEmpty_eq_false_iff] at spelled
    obtain ⟨filled, behind⟩ := spelled
    rw [← split]
    match rest : t.dropWhile isAsciiDigit with
    | [] =>
      rw [List.append_nil]
      exact .whole filled digits
    | c :: fraction =>
      simp only [rest, Bool.and_eq_true, beq_iff_eq, Bool.not_eq_true', List.isEmpty_eq_false_iff,
        List.all_eq_true] at behind
      obtain ⟨⟨rfl, some⟩, all⟩ := behind
      exact .decimal filled digits some all
  · intro numeral
    cases numeral with
    | whole filled digits =>
      have taken : (t ++ []).takeWhile isAsciiDigit = t := by
        rw [List.takeWhile_append_of_pos digits, List.takeWhile_nil, List.append_nil]
      have dropped : (t ++ []).dropWhile isAsciiDigit = [] := List.dropWhile_append_of_pos digits
      rw [List.append_nil] at taken dropped
      simp [spellsNumber, taken, dropped, filled]
    | decimal filled digits some fraction =>
      simp only [spellsNumber, takeWhile_append_point digits, dropWhile_append_point digits]
      simpa [filled, some] using fraction

theorem isAsciiDigit_of_lexeme {c : Char} {rest : Text} (number : (lexeme c rest).1 = .number) :
    isAsciiDigit c = true := by
  unfold lexeme at number
  split at number
  next =>
    rcases wordKind_cases (c :: rest.takeWhile isIdentPart) with
      ⟨b, word, -⟩ | word | word | word <;> simp [word] at number
  next =>
    split at number
    next digit => exact digit
    next =>
      split at number
      next => cases number
      next =>
        split at number
        next kind marked =>
          have member := punctuation?_mem marked
          simp [show kind = .number from number, punctuationKinds] at member
        next =>
          split at number
          · cases number
          · split at number <;> cases number

theorem Leads.numeral {w behind : Text} (leads : Leads .number w behind) : Numeral w := by
  obtain ⟨c, more, rfl, -, read⟩ := leads
  have digit := isAsciiDigit_of_lexeme (congrArg Prod.fst read)
  have length : numberTail (more ++ behind) = more.length := by
    have kind : lexeme c (more ++ behind) = (.number, numberTail (more ++ behind)) := by
      simp [lexeme, (apart_of_isAsciiDigit digit).1, digit]
    exact (Prod.mk.inj (kind.symm.trans read)).2
  have digits : ∀ (t : Text), ∀ d ∈ t.takeWhile isAsciiDigit, isAsciiDigit d = true :=
    fun t d membership => List.all_eq_true.mp List.all_takeWhile d membership
  rcases take_numberTail_cases (more ++ behind) with taken | ⟨d, rest, first, taken⟩
  · rw [length, List.take_left] at taken
    rw [taken]
    exact .whole (List.cons_ne_nil _ _) (List.forall_mem_cons.mpr ⟨digit, digits _⟩)
  · rw [length, List.take_left] at taken
    rw [taken, ← List.cons_append]
    exact .decimal (List.cons_ne_nil _ _) (List.forall_mem_cons.mpr ⟨digit, digits _⟩)
      (List.cons_ne_nil _ _) (List.forall_mem_cons.mpr ⟨first, digits _⟩)

theorem takeWhile_blank {gap : Text} (blank : ∀ c ∈ gap, isBlank c = true) :
    gap.takeWhile isAsciiDigit = [] := by
  cases gap with
  | nil => rfl
  | cons c gap =>
    have noDigit : ¬ isAsciiDigit c = true := by
      intro digit
      simp [(apart_of_isAsciiDigit digit).2] at blank
    exact List.takeWhile_cons_of_neg noDigit

theorem numberTail_digits {digits trail : Text} (all : ∀ c ∈ digits, isAsciiDigit c = true)
    (blank : ∀ c ∈ trail, isBlank c = true) : numberTail (digits ++ trail) = digits.length := by
  have taken : (digits ++ trail).takeWhile isAsciiDigit = digits := by
    rw [List.takeWhile_append_of_pos all, takeWhile_blank blank, List.append_nil]
  simp only [numberTail, taken, List.dropWhile_append_of_pos all]
  split
  next d more found =>
    -- a point is not blank
    have point : '.' ∈ trail := (List.dropWhile_sublist isAsciiDigit).mem (by simp [found])
    exact absurd (blank '.' point) (by decide)
  next => rfl

theorem numberTail_fraction {digits fraction trail : Text} {d : Char}
    (all : ∀ c ∈ digits, isAsciiDigit c = true) (first : isAsciiDigit d = true)
    (others : ∀ c ∈ fraction, isAsciiDigit c = true) (blank : ∀ c ∈ trail, isBlank c = true) :
    numberTail (digits ++ '.' :: d :: (fraction ++ trail)) = digits.length + 2 + fraction.length := by
  have taken : (fraction ++ trail).takeWhile isAsciiDigit = fraction := by
    rw [List.takeWhile_append_of_pos others, takeWhile_blank blank, List.append_nil]
  simp [numberTail, takeWhile_append_point all, dropWhile_append_point all, first, taken]

/-- A numeral with blanks behind it is read as one number. -/
theorem Numeral.leads {w trail : Text} (numeral : Numeral w)
    (blank : ∀ c ∈ trail, isBlank c = true) : Leads .number w trail := by
  have leads : ∀ c more, isAsciiDigit c = true → numberTail (more ++ trail) = more.length →
      Leads .number (c :: more) trail := by
    intro c more digit length
    obtain ⟨noName, solid⟩ := apart_of_isAsciiDigit digit
    exact ⟨c, more, rfl, solid, by simp [lexeme, noName, digit, length]⟩
  cases numeral with
  | whole filled digits =>
    obtain ⟨c, more, rfl⟩ := List.exists_cons_of_ne_nil filled
    obtain ⟨digit, others⟩ := List.forall_mem_cons.mp digits
    exact leads c more digit (numberTail_digits others blank)
  | decimal filled digits some fraction =>
    obtain ⟨c, more, rfl⟩ := List.exists_cons_of_ne_nil filled
    obtain ⟨d, rest, rfl⟩ := List.exists_cons_of_ne_nil some
    obtain ⟨digit, others⟩ := List.forall_mem_cons.mp digits
    obtain ⟨first, later⟩ := List.forall_mem_cons.mp fraction
    have length := numberTail_fraction others first later blank
    refine leads c (more ++ '.' :: d :: rest) digit ?_
    simp only [List.append_assoc, List.cons_append, length, List.length_append, List.length_cons]
    omega

/-- A line holds one token of the given kind and text between blanks, and nothing else. -/
def Alone (kind : TokenKind) (w : Text) (tokens : List Token) : Prop :=
  ∃ token last, tokens = [token, last] ∧ token.kind = kind ∧ token.text = w ∧ last.kind = .eof

theorem alone_tokenize_iff {line : Int} {e w : Text} {kind : TokenKind} (real : kind ≠ .eof) :
    Alone kind w (tokenize line e) ↔
      ∃ gap trail, e = gap ++ (w ++ trail) ∧ (∀ c ∈ gap, isBlank c = true) ∧
        (∀ c ∈ trail, isBlank c = true) ∧ Leads kind w trail := by
  constructor
  · rintro ⟨token, last, read, rfl, rfl, ended⟩
    obtain ⟨gap, trail, blank, rfl, leads, -, -, others⟩ := (tokensFrom_eq_cons_iff real).mp read
    refine ⟨gap, trail, rfl, blank, ?_, leads⟩
    -- a token behind the first one would be no end mark
    rcases all_blank_or_leads trail with
      trailBlank | ⟨between, nextKind, next, behind, betweenBlank, noEnd, second, rfl⟩
    · exact trailBlank
    · rw [tokensFrom_blanks line _ _ betweenBlank, tokensFrom_leads line _ second] at others
      obtain ⟨rfl, -⟩ := List.cons.inj others
      exact absurd ended noEnd
  · rintro ⟨gap, trail, rfl, blank, trailBlank, leads⟩
    refine ⟨⟨kind, w, line, gap.length⟩, ⟨.eof, [], line, gap.length + w.length + trail.length⟩,
      ?_, rfl, rfl, rfl⟩
    rw [tokenize, tokensFrom_blanks line 0 _ blank, tokensFrom_leads line _ leads,
      tokensFrom_all_blank line _ trailBlank, Nat.zero_add]

/-- If blanks do not change how a flush text is read, it stands alone exactly if it is what trimming
leaves. -/
theorem alone_tokenize_iff_trim {line : Int} {e w : Text} {kind : TokenKind} (real : kind ≠ .eof)
    (flush : Text.Flush w)
    (leads : ∀ trail, (∀ c ∈ trail, isBlank c = true) → Leads kind w trail) :
    Alone kind w (tokenize line e) ↔ Text.trim e = w := by
  rw [alone_tokenize_iff real, Text.trim_eq_iff flush]
  constructor
  · rintro ⟨gap, trail, split, blank, trailBlank, -⟩
    exact ⟨gap, trail, split, blank, trailBlank⟩
  · rintro ⟨gap, trail, split, blank, trailBlank⟩
    exact ⟨gap, trail, split, blank, trailBlank, leads trail trailBlank⟩

theorem kinds_eq_iff {tokens : List Token} {kind : TokenKind} :
    tokens.map Token.kind = [kind, .eof] ↔ ∃ w, Alone kind w tokens := by
  constructor
  · intro kinds
    obtain ⟨token, others, rfl, isKind, kinds⟩ := List.map_eq_cons_iff.mp kinds
    obtain ⟨last, others, rfl, isEnd, kinds⟩ := List.map_eq_cons_iff.mp kinds
    obtain rfl := List.map_eq_nil_iff.mp kinds
    exact ⟨token.text, token, last, rfl, isKind, rfl, isEnd⟩
  · rintro ⟨w, token, last, rfl, isKind, -, isEnd⟩
    simp [isKind, isEnd]

theorem kinds_eq_number_iff {line : Int} {e : Text} :
    (tokenize line e).map Token.kind = [.number, .eof] ↔ Numeral (Text.trim e) := by
  rw [kinds_eq_iff]
  constructor
  · rintro ⟨w, alone⟩
    obtain ⟨_, _, -, -, -, leads⟩ := (alone_tokenize_iff (by simp)).mp alone
    have trimmed := (alone_tokenize_iff_trim (by simp) leads.numeral.flush
      fun _ blank => leads.numeral.leads blank).mp alone
    rw [trimmed]
    exact leads.numeral
  · intro numeral
    exact ⟨Text.trim e, (alone_tokenize_iff_trim (by simp) numeral.flush
      fun _ blank => numeral.leads blank).mpr rfl⟩

theorem IsIdent.alone_iff {line : Int} {e w : Text} (ident : IsIdent w) :
    Alone .ident w (tokenize line e) ↔ Text.trim e = w := by
  have solid : ∀ c ∈ w, isBlank c = false := fun c membership =>
    isBlank_eq_false_of_isIdentPart (ident.1.isIdentPart membership)
  refine alone_tokenize_iff_trim (by simp) (Text.flush_of_solid solid) ?_
  intro trail blank
  refine ident.leads ?_
  intro c first
  exact isIdentPart_eq_false_of_isBlank (blank c (List.mem_of_head? first))

/-- A text begins with a quote. -/
def OpensQuoted (t : Text) : Prop := ∃ c ∈ t.head?, isQuote c = true

/-- The first token of a line is a string exactly if the first character is a quote. -/
theorem head?_tokenize_eq_string_iff {line : Int} {e : Text} :
    (tokenize line e).head?.map Token.kind = some .string ↔
      OpensQuoted (Text.trim e) := by
  rcases all_blank_or_leads e with blank | ⟨gap, kind, w, behind, blank, -, leads, rfl⟩
  · have trimmed : Text.trim e = [] :=
      (Text.trim_eq_iff (Text.flush_of_solid (by simp))).mpr ⟨e, [], by simp, blank, by simp⟩
    simp [tokenize, tokensFrom_all_blank line 0 blank, trimmed, OpensQuoted]
  · have ⟨c, more, spelled, solid, read⟩ := leads
    subst spelled
    have first : (Text.trim (gap ++ (c :: more ++ behind))).head? = some c :=
      Text.head?_trim_append (more ++ behind) blank solid
    rw [tokenize, tokensFrom_blanks line 0 _ blank, tokensFrom_leads line _ leads]
    simp only [List.head?_cons, Option.map_some, Option.some.injEq, OpensQuoted, first,
      Option.mem_some_iff, exists_eq_left']
    constructor
    · rintro rfl
      obtain ⟨quote, quoted, ⟨inner, same, -⟩ | ⟨rest, same, -⟩⟩ := leads.string_cases
      all_goals
        obtain ⟨rfl, -⟩ := List.cons.inj same
        exact quoted
    · intro quoted
      rw [lexeme_of_isQuote quoted] at read
      exact (Prod.mk.inj read).1.symm

/-- A word for a truth value. -/
def IsTruthWord (w : Text) : Prop := w = ['t', 'r', 'u', 'e'] ∨ w = ['f', 'a', 'l', 's', 'e']

theorem IsTruthWord.isIdent {w : Text} (truth : IsTruthWord w) : IsIdent w := by
  rcases truth with rfl | rfl
  · exact ⟨⟨'t', ['r', 'u', 'e'], rfl, by decide +kernel, forall_mem_of_all (by decide +kernel)⟩, rfl⟩
  · exact ⟨⟨'f', ['a', 'l', 's', 'e'], rfl, by decide +kernel,
      forall_mem_of_all (by decide +kernel)⟩, rfl⟩

theorem opensQuoted_iff {t : Text} : OpensQuoted t ↔ (t.head?.map isQuote).getD false = true := by
  cases t <;> simp [OpensQuoted]

theorem Numeral.not_opensQuoted {w : Text} (numeral : Numeral w) : ¬ OpensQuoted w := by
  obtain ⟨c, more, rfl, digit⟩ := numeral.exists_cons
  simp only [OpensQuoted, List.head?_cons, Option.mem_some_iff, exists_eq_left']
  intro quoted
  simp [(apart_of_isQuote quoted).2.2.1] at digit

theorem IsTruthWord.not_opensQuoted {w : Text} (truth : IsTruthWord w) : ¬ OpensQuoted w := by
  rcases truth with rfl | rfl <;> simp [OpensQuoted, isQuote]

theorem IsTruthWord.not_numeral {w : Text} (truth : IsTruthWord w) : ¬ Numeral w := by
  rw [← spellsNumber_iff]
  rcases truth with rfl | rfl <;> decide

/-- The type of an expression, by what trimming leaves of it. -/
theorem literalType_cases (e : Text) :
    (OpensQuoted (Text.trim e) ∧ literalType e = .string) ∨
      (Numeral (Text.trim e) ∧ literalType e = .number) ∨
      (IsTruthWord (Text.trim e) ∧ literalType e = .boolean) ∨
      (¬ OpensQuoted (Text.trim e) ∧ ¬ Numeral (Text.trim e) ∧ ¬ IsTruthWord (Text.trim e) ∧
        literalType e = .any) := by
  simp only [opensQuoted_iff, ← spellsNumber_iff, literalType]
  split
  next quoted => exact .inl ⟨quoted, rfl⟩
  next unquoted =>
    split
    next spelled => exact .inr (.inl ⟨spelled, rfl⟩)
    next unspelled =>
      split
      next truth => exact .inr (.inr (.inl ⟨truth, rfl⟩))
      next noTruth => exact .inr (.inr (.inr ⟨unquoted, unspelled, noTruth, rfl⟩))

/-- The type of an expression can be read off its tokens: it is a string if the first token is one,
a number or a truth value if that is the only token, and `any` in every other case. -/
theorem literalType_of_tokens (line : Int) (e : Text) :
    let tokens := tokenize line e
    let opensString := tokens.head?.map Token.kind = some .string
    let isNumber := tokens.map Token.kind = [.number, .eof]
    let isTruth := ∃ w, IsTruthWord w ∧ Alone .ident w tokens
    (literalType e = .string ↔ opensString) ∧
      (literalType e = .number ↔ isNumber) ∧
      (literalType e = .boolean ↔ isTruth) ∧
      (literalType e = .any ↔ ¬ opensString ∧ ¬ isNumber ∧ ¬ isTruth) := by
  intro tokens opensString isNumber isTruth
  have string : opensString ↔ OpensQuoted (Text.trim e) := head?_tokenize_eq_string_iff
  have number : isNumber ↔ Numeral (Text.trim e) := kinds_eq_number_iff
  have truth : isTruth ↔ IsTruthWord (Text.trim e) := by
    constructor
    · rintro ⟨w, truth, alone⟩
      rwa [truth.isIdent.alone_iff.mp alone]
    · intro truth
      exact ⟨_, truth, truth.isIdent.alone_iff.mpr rfl⟩
  rw [string, number, truth]
  rcases literalType_cases e with
    ⟨quoted, type⟩ | ⟨numeral, type⟩ | ⟨word, type⟩ | ⟨unquoted, noNumeral, noWord, type⟩
  · have noNumeral := mt Numeral.not_opensQuoted (not_not_intro quoted)
    have noWord := mt IsTruthWord.not_opensQuoted (not_not_intro quoted)
    simp [type, quoted, noNumeral, noWord]
  · have noWord := mt IsTruthWord.not_numeral (not_not_intro numeral)
    simp [type, numeral, numeral.not_opensQuoted, noWord]
  · simp [type, word, word.not_opensQuoted, word.not_numeral]
  · simp [type, unquoted, noNumeral, noWord]

end TypedScript.Token
