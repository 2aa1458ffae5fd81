import TypedScript.Proofs.Token.Spelling

set_option autoImplicit false

/-!
The strings of a line. A string goes from a quote to the next one of its kind that
no backslash escapes, or to the end of the line. Every quote of a line stands in a
string, so the strings can be read off without the tokens between them (`Quotes`).
-/

namespace TypedScript.Token

/-- The texts of the strings among tokens, with their quotes. -/
def strings (tokens : List Token) : List Text :=
  (tokens.filter (·.kind = .string)).map Token.text

/-- What may stand between two quotes: a backslash takes the next character with it. -/
inductive Content (quote : Char) : Text → Prop
  | nil : Content quote []
  | escape (c : Char) {t : Text} : Content quote t → Content quote ('\\' :: c :: t)
  | plain {c : Char} {t : Text} :
      c ≠ '\\' → c ≠ quote → Content quote t → Content quote (c :: t)

/-- The string that is open in front of the text is closed in it. -/
def Closed (quote : Char) (t : Text) : Prop :=
  ∃ inner behind, t = inner ++ quote :: behind ∧ Content quote inner

theorem isQuote_iff {c : Char} : isQuote c = true ↔ c ∈ ['"', '\'', '\x60'] := by
  simp [isQuote, or_assoc]

/-- Quotes belong to no other class. -/
theorem apart_of_isQuote {c : Char} (quoted : isQuote c = true) :
    isBlank c = false ∧ isIdentPart c = false ∧ isAsciiDigit c = false ∧ isOperatorChar c = false := by
  have all : ∀ c ∈ ['"', '\'', '\x60'], isBlank c = false ∧ isIdentPart c = false ∧
      isAsciiDigit c = false ∧ isOperatorChar c = false := forall_mem_of_all (by decide)
  exact all c (isQuote_iff.mp quoted)

theorem ne_backslash_of_isQuote {c : Char} (quoted : isQuote c = true) : c ≠ '\\' := by
  rintro rfl
  exact absurd quoted (by decide)

theorem stringTail_of_content {quote : Char} (quoted : isQuote quote = true) {inner : Text}
    (content : Content quote inner) (behind : Text) :
    stringTail quote (inner ++ quote :: behind) = inner.length + 1 := by
  induction content with
  | nil => simp [stringTail, ne_backslash_of_isQuote quoted]
  | escape c _ ih => simp [stringTail, ih]
  | plain noBackslash noQuote _ ih => simp [stringTail, noBackslash, noQuote, ih]

theorem stringTail_of_not_closed {quote : Char} {t : Text} (unclosed : ¬ Closed quote t) :
    stringTail quote t = t.length := by
  fun_induction stringTail quote t with
  | case1 => rfl
  | case2 => rfl
  | case3 c rest ih =>
    rw [ih, List.length_cons, List.length_cons]
    rintro ⟨inner, behind, rfl, content⟩
    exact unclosed ⟨'\\' :: c :: inner, behind, rfl, .escape c content⟩
  | case4 rest => exact absurd ⟨[], rest, rfl, .nil⟩ unclosed
  | case5 c rest noLast noEscape other ih =>
    rw [ih, List.length_cons]
    rintro ⟨inner, behind, rfl, content⟩
    have noBackslash : c ≠ '\\' := by
      intro same
      cases inner with
      | nil => exact noEscape quote behind same rfl
      | cons d inner => exact noEscape d (inner ++ quote :: behind) same rfl
    exact unclosed ⟨c :: inner, behind, rfl, .plain noBackslash other content⟩

/-- No quote stands in the text. -/
def Unquoted (t : Text) : Prop := ∀ c ∈ t, isQuote c = false

theorem Unquoted.append {x y : Text} (first : Unquoted x) (second : Unquoted y) : Unquoted (x ++ y) := by
  intro c membership
  rcases List.mem_append.mp membership with inFirst | inSecond
  · exact first c inFirst
  · exact second c inSecond

/-- A class without quotes has none in a text of its characters. -/
theorem unquoted_of_class {P : Char → Bool} (apart : ∀ c, isQuote c = true → P c = false) {t : Text}
    (all : ∀ c ∈ t, P c = true) : Unquoted t := by
  intro c membership
  by_contra quoted
  have outside := apart c (by simpa using quoted)
  simp [all c membership] at outside

theorem unquoted_of_blank {gap : Text} (blank : ∀ c ∈ gap, isBlank c = true) : Unquoted gap :=
  unquoted_of_class (fun _ quoted => (apart_of_isQuote quoted).1) blank

theorem take_length_takeWhile (P : Char → Bool) (t : Text) :
    t.take (t.takeWhile P).length = t.takeWhile P :=
  (List.prefix_iff_eq_take.mp (List.takeWhile_prefix P)).symm

theorem unquoted_takeWhile {P : Char → Bool} (apart : ∀ c, isQuote c = true → P c = false) (t : Text) :
    Unquoted (t.take (t.takeWhile P).length) := by
  rw [take_length_takeWhile]
  exact unquoted_of_class apart fun c membership => List.all_eq_true.mp List.all_takeWhile c membership

theorem take_append_point (whole : Text) (d : Char) (more : Text) (n : Nat) :
    (whole ++ '.' :: d :: more).take (whole.length + 2 + n) = whole ++ '.' :: d :: more.take n := by
  rw [Nat.add_assoc, List.take_length_add_append, Nat.add_comm 2]
  rfl

/-- The length of a number is that of its digits, or goes on behind a point. -/
theorem take_numberTail_cases (t : Text) :
    t.take (numberTail t) = t.takeWhile isAsciiDigit ∨
      ∃ (d : Char) (more : Text), isAsciiDigit d = true ∧ t.take (numberTail t) =
        t.takeWhile isAsciiDigit ++ '.' :: d :: more.takeWhile isAsciiDigit := by
  simp only [numberTail]
  split
  next d more found =>
    split
    next digit =>
      have taken := take_append_point (t.takeWhile isAsciiDigit) d more
        (more.takeWhile isAsciiDigit).length
      rw [← found, List.takeWhile_append_dropWhile, take_length_takeWhile] at taken
      exact .inr ⟨d, more, digit, taken⟩
    next => exact .inl (take_length_takeWhile _ _)
  next => exact .inl (take_length_takeWhile _ _)

theorem unquoted_number (t : Text) : Unquoted (t.take (numberTail t)) := by
  have apart : ∀ c, isQuote c = true → isAsciiDigit c = false := fun c quoted =>
    (apart_of_isQuote quoted).2.2.1
  have digits : ∀ x : Text, Unquoted (x.takeWhile isAsciiDigit) := fun x =>
    unquoted_of_class apart fun c membership => List.all_eq_true.mp List.all_takeWhile c membership
  rcases take_numberTail_cases t with taken | ⟨d, more, digit, taken⟩ <;> rw [taken]
  · exact digits t
  · have point : Unquoted ['.'] := List.forall_mem_singleton.mpr (by decide)
    have first : Unquoted [d] := unquoted_of_class apart (by simpa using digit)
    exact (digits t).append (point.append (first.append (digits more)))

theorem lexeme_of_isQuote {c : Char} (quoted : isQuote c = true) (rest : Text) :
    lexeme c rest = (.string, stringTail c rest) := by
  obtain ⟨-, noPart, noDigit, -⟩ := apart_of_isQuote quoted
  have noStart : isIdentStart c = false := by
    by_contra start
    simp [isIdentPart_of_isIdentStart (by simpa using start)] at noPart
  simp [lexeme, noStart, noDigit, quoted]

/-- A token is a string or has no quote in it. -/
theorem Leads.unquoted {kind : TokenKind} {w behind : Text} (leads : Leads kind w behind)
    (noString : kind ≠ .string) : Unquoted w := by
  obtain ⟨c, more, rfl, -, read⟩ := leads
  have first : Unquoted [c] := by
    simp only [Unquoted, List.mem_singleton, forall_eq]
    by_contra quoted
    rw [lexeme_of_isQuote (by simpa using quoted)] at read
    exact noString (Prod.mk.inj read).1.symm
  have tail : more = (more ++ behind).take (lexeme c (more ++ behind)).2 := by simp [read]
  suffices others : Unquoted more from first.append others
  rw [tail]
  rcases lexeme_cases c (more ++ behind) with
    ⟨-, found⟩ | found | ⟨-, found⟩ | ⟨mark, -, found⟩ | ⟨-, found⟩ | found | found <;> rw [found]
  · exact unquoted_takeWhile (fun _ quoted => (apart_of_isQuote quoted).2.1) _
  · exact unquoted_number _
  · exact absurd (Prod.mk.inj (found.symm.trans read)).1.symm noString
  · simp [Unquoted]
  · simp [Unquoted]
  · exact unquoted_takeWhile (fun _ quoted => (apart_of_isQuote quoted).2.2.2) _
  · simp [Unquoted]

/-- A string is closed by the first quote that may close it, or goes to the end of the text. -/
theorem Leads.string_cases {w behind : Text} (leads : Leads .string w behind) :
    ∃ quote, isQuote quote = true ∧
      ((∃ inner, w = quote :: (inner ++ [quote]) ∧ Content quote inner) ∨
        ∃ rest, w = quote :: rest ∧ ¬ Closed quote rest ∧ behind = []) := by
  obtain ⟨c, more, rfl, -, read⟩ := leads
  have quoted : isQuote c = true := by
    rcases lexeme_cases c (more ++ behind) with
      ⟨-, found⟩ | found | ⟨quoted, -⟩ | ⟨kind, marked, found⟩ | ⟨-, found⟩ | found | found
    case inr.inr.inl => exact quoted
    all_goals have kinds := (Prod.mk.inj (found.symm.trans read)).1
    case inl =>
      rcases wordKind_cases (c :: (more ++ behind).takeWhile isIdentPart) with
        ⟨b, word, -⟩ | word | word | word <;> simp [word] at kinds
    case inr.inr.inr.inl =>
      have member := punctuation?_mem marked
      simp [kinds, punctuationKinds] at member
    all_goals cases kinds
  rw [lexeme_of_isQuote quoted] at read
  have length := (Prod.mk.inj read).2
  refine ⟨c, quoted, ?_⟩
  by_cases closed : Closed c (more ++ behind)
  · obtain ⟨inner, rest, split, content⟩ := closed
    rw [split, stringTail_of_content quoted content] at length
    have whole : more ++ behind = (inner ++ [c]) ++ rest := by simp [split]
    obtain ⟨rfl, -⟩ := List.append_inj whole (by simp [length])
    exact .inl ⟨inner, rfl, content⟩
  · rw [stringTail_of_not_closed closed] at length
    have empty : behind = [] := by simpa using length
    subst empty
    exact .inr ⟨more, rfl, by simpa using closed, rfl⟩

/-- The strings of a text, in their order. -/
inductive Quotes : Text → List Text → Prop
  | none {x : Text} : Unquoted x → Quotes x []
  | closed {x inner behind : Text} {quote : Char} {others : List Text} :
      Unquoted x → isQuote quote = true → Content quote inner → Quotes behind others →
      Quotes (x ++ quote :: (inner ++ quote :: behind)) ((quote :: (inner ++ [quote])) :: others)
  | unclosed {x rest : Text} {quote : Char} :
      Unquoted x → isQuote quote = true → ¬ Closed quote rest →
      Quotes (x ++ quote :: rest) [quote :: rest]

theorem Quotes.append {x t : Text} {found : List Text} (unquoted : Unquoted x)
    (quotes : Quotes t found) : Quotes (x ++ t) found := by
  cases quotes with
  | none free => exact .none (unquoted.append free)
  | closed free quoted content others =>
    rw [← List.append_assoc]
    exact .closed (unquoted.append free) quoted content others
  | unclosed free quoted unclosed =>
    rw [← List.append_assoc]
    exact .unclosed (unquoted.append free) quoted unclosed

theorem Quotes.eq_nil {t : Text} {found : List Text} (quotes : Quotes t found)
    (unquoted : Unquoted t) : found = [] := by
  cases quotes with
  | none => rfl
  | @closed _ _ _ quote _ _ quoted => simp [unquoted quote (by simp)] at quoted
  | @unclosed _ _ quote _ quoted => simp [unquoted quote (by simp)] at quoted

/-- Texts without quotes in front of a quote are cut off in one way. -/
theorem Unquoted.append_cons_inj {x y rest tail : Text} {quote other : Char} (first : Unquoted x)
    (second : Unquoted y) (quoted : isQuote quote = true) (otherQuoted : isQuote other = true)
    (same : x ++ quote :: rest = y ++ other :: tail) : x = y ∧ quote = other ∧ rest = tail := by
  have missing : ∀ {z : Text} {q : Char}, Unquoted z → isQuote q = true → q ∉ z := by
    intro z q free isQuoted membership
    simp [free q membership] at isQuoted
  obtain ⟨between, rfl, split⟩ := exists_split_of_not_mem (missing second quoted) same
  cases between with
  | nil =>
    obtain ⟨rfl, rfl⟩ := List.cons.inj split
    exact ⟨List.append_nil y, rfl, rfl⟩
  | cons d between =>
    obtain ⟨rfl, -⟩ := List.cons.inj split
    exact absurd (by simp) (missing first otherQuoted)

/-- The first string of a text begins with its first quote. -/
theorem Quotes.first {x rest : Text} {quote : Char} {found : List Text}
    (quotes : Quotes (x ++ quote :: rest) found) (unquoted : Unquoted x)
    (quoted : isQuote quote = true) :
    (∃ inner behind others, rest = inner ++ quote :: behind ∧ Content quote inner ∧
        Quotes behind others ∧ found = (quote :: (inner ++ [quote])) :: others) ∨
      ¬ Closed quote rest ∧ found = [quote :: rest] := by
  generalize whole : x ++ quote :: rest = t at quotes
  cases quotes with
  | none free => simp [free quote (by simp [← whole])] at quoted
  | closed free otherQuoted content others =>
    obtain ⟨-, rfl, rfl⟩ := unquoted.append_cons_inj free quoted otherQuoted whole
    exact .inl ⟨_, _, _, rfl, content, others, rfl⟩
  | unclosed free otherQuoted unclosed =>
    obtain ⟨-, rfl, rfl⟩ := unquoted.append_cons_inj free quoted otherQuoted whole
    exact .inr ⟨unclosed, rfl⟩

/-- The quote that closes a string is determined by the text behind the opening one. -/
theorem Content.append_cons_inj {quote : Char} (quoted : isQuote quote = true)
    {inner other behind tail : Text} (first : Content quote inner) (second : Content quote other)
    (same : inner ++ quote :: behind = other ++ quote :: tail) : inner = other ∧ behind = tail := by
  have lengths := stringTail_of_content quoted first behind
  rw [same, stringTail_of_content quoted second] at lengths
  obtain ⟨inners, tails⟩ := List.append_inj same (by omega)
  exact ⟨inners, (List.cons.inj tails).2⟩

section

variable {x rest inner : Text} {quote : Char} {others : List Text}

/-- A closed string is the first one if it stands there. -/
theorem quotes_closed_iff (unquoted : Unquoted x) (quoted : isQuote quote = true)
    (content : Content quote inner) :
    Quotes (x ++ quote :: rest) ((quote :: (inner ++ [quote])) :: others) ↔
      ∃ behind, rest = inner ++ quote :: behind ∧ Quotes behind others := by
  constructor
  · intro quotes
    rcases quotes.first unquoted quoted with
      ⟨found, behind, later, rfl, -, laterQuotes, same⟩ | ⟨unclosed, same⟩
    · obtain ⟨first, rfl⟩ := List.cons.inj same
      obtain rfl : inner = found := by simpa using first
      exact ⟨behind, rfl, laterQuotes⟩
    · obtain ⟨first, -⟩ := List.cons.inj same
      have closed : inner ++ [quote] = rest := by simpa using first
      exact absurd ⟨inner, [], closed.symm, content⟩ unclosed
  · rintro ⟨behind, rfl, laterQuotes⟩
    exact .closed unquoted quoted content laterQuotes

/-- A string that is not closed takes all that is left. -/
theorem quotes_unclosed_iff {t : Text} (unquoted : Unquoted x) (quoted : isQuote quote = true)
    (unclosed : ¬ Closed quote t) : Quotes (x ++ quote :: rest) [quote :: t] ↔ rest = t := by
  constructor
  · intro quotes
    rcases quotes.first unquoted quoted with ⟨found, _, _, -, content, -, same⟩ | ⟨-, same⟩
    · have closed : t = found ++ [quote] := by simpa using (List.cons.inj same).1
      exact absurd ⟨found, [], closed, content⟩ unclosed
    · simpa using same.symm
  · rintro rfl
    exact .unclosed unquoted quoted unclosed

end

theorem Quotes.unique {t : Text} {found others : List Text} (quotes : Quotes t found)
    (again : Quotes t others) : others = found := by
  induction quotes generalizing others with
  | none unquoted => exact again.eq_nil unquoted
  | closed unquoted quoted content _ ih =>
    rcases again.first unquoted quoted with
      ⟨inner, behind, later, split, other, laterQuotes, rfl⟩ | ⟨unclosed, -⟩
    · obtain ⟨rfl, rfl⟩ := content.append_cons_inj quoted other split
      rw [ih laterQuotes]
    · exact absurd ⟨_, _, rfl, content⟩ unclosed
  | unclosed unquoted quoted unclosed =>
    rcases again.first unquoted quoted with ⟨inner, behind, -, split, other, -⟩ | ⟨-, same⟩
    · exact absurd ⟨inner, behind, split, other⟩ unclosed
    · exact same

/-- The tokens of a text that are strings are its strings. -/
theorem Tiles.quotes {line : Int} {start : Nat} {t : Text} {tokens : List Token}
    (tiles : Tiles line start t tokens) : Quotes t (strings tokens) := by
  induction tiles with
  | ends blank => exact .none (unquoted_of_blank blank)
  | @token start kind gap w behind others blank _ leads tiles ih =>
    have free := unquoted_of_blank blank
    by_cases isString : kind = .string
    · subst isString
      obtain ⟨quote, quoted, ⟨inner, rfl, content⟩ | ⟨rest, rfl, unclosed, rfl⟩⟩ := leads.string_cases
      · have split : quote :: (inner ++ [quote]) ++ behind = quote :: (inner ++ quote :: behind) := by
          simp
        rw [split]
        exact .closed free quoted content ih
      · have noMore : strings others = [] := ih.eq_nil (by simp [Unquoted])
        have one : strings (⟨.string, quote :: rest, line, start + gap.length⟩ :: others) =
            [quote :: rest] := by simpa [strings] using noMore
        rw [one, List.append_nil]
        exact .unclosed free quoted unclosed
    · have same : strings (⟨kind, w, line, start + gap.length⟩ :: others) = strings others := by
        simp [strings, isString]
      rw [same]
      exact (ih.append (leads.unquoted isString)).append free

/-- The strings among the tokens of a line are read off its text. -/
theorem strings_tokenize_eq_iff {line : Int} {t : Text} {found : List Text} :
    strings (tokenize line t) = found ↔ Quotes t found := by
  have tiles : Tiles line 0 t (tokenize line t) := tokensFrom_tiles line 0 t
  constructor
  · rintro rfl
    exact tiles.quotes
  · intro quotes
    exact quotes.unique tiles.quotes

end TypedScript.Token
