import TypedScript.Proofs.Token.Layout

set_option autoImplicit false

/-!
What tokens of a kind look like. Names and words are maximal runs of identifier
characters, marks are single characters, and an equals sign assigns unless a
comparison or an arrow begins with it.
-/

namespace TypedScript.Token

/-- A text of identifier characters that a name or a word may begin with. -/
def IsName (w : Text) : Prop :=
  ∃ c more, w = c :: more ∧ isIdentStart c = true ∧ ∀ d ∈ more, isIdentPart d = true

/-- No name goes on at the beginning of a text. -/
def NameEnds (behind : Text) : Prop := ∀ c ∈ behind.head?, isIdentPart c = false

theorem IsName.ne_nil {w : Text} (name : IsName w) : w ≠ [] := by
  obtain ⟨c, more, rfl, -⟩ := name
  exact List.cons_ne_nil c more

theorem IsName.isIdentPart {w : Text} (name : IsName w) {c : Char} (membership : c ∈ w) :
    isIdentPart c = true := by
  obtain ⟨first, more, rfl, start, others⟩ := name
  rcases List.mem_cons.mp membership with rfl | later
  · exact isIdentPart_of_isIdentStart start
  · exact others c later

theorem nameEnds_cons {c : Char} {rest : Text} :
    NameEnds (c :: rest) ↔ isIdentPart c = false := by simp [NameEnds]

theorem nameEnds_iff {behind : Text} : NameEnds behind ↔ behind.takeWhile isIdentPart = [] := by
  cases behind with
  | nil => simp [NameEnds]
  | cons c rest => simp [NameEnds, List.takeWhile_cons]

/-- A name that is no keyword. -/
def IsIdent (w : Text) : Prop := IsName w ∧ wordKind w = .ident

/-- The kinds that words have. -/
theorem wordKind_cases (w : Text) :
    (∃ b, wordKind w = .binding b ∧ w = b.word) ∨ wordKind w = .fn ∨ wordKind w = .ret ∨
      wordKind w = .ident := by
  unfold wordKind
  split
  · exact .inl ⟨.plain, rfl, rfl⟩
  · exact .inl ⟨.constant, rfl, rfl⟩
  · exact .inl ⟨.mutable, rfl, rfl⟩
  · exact .inr (.inl rfl)
  · exact .inr (.inr (.inl rfl))
  · exact .inr (.inr (.inr rfl))

theorem wordKind_eq_binding_iff {w : Text} {b : Binding} :
    wordKind w = .binding b ↔ w = b.word := by
  constructor
  · intro kind
    rcases wordKind_cases w with ⟨other, found, same⟩ | found | found | found
    · obtain rfl := TokenKind.binding.inj (kind.symm.trans found)
      exact same
    all_goals exact absurd (kind.symm.trans found) (by simp)
  · rintro rfl
    cases b <;> rfl

theorem eq_of_wordKind_fn {w : Text} (kind : wordKind w = .fn) : w = ['f', 'n'] := by
  unfold wordKind at kind
  split at kind
  case h_4 => rfl
  all_goals cases kind

/-- The kinds of names and keywords. -/
def isWordKind : TokenKind → Bool
  | .binding _ | .fn | .ret | .ident => true
  | _ => false

/-- The mark of a kind of punctuation is determined by the kind. -/
theorem punctuation?_inj {c d : Char} {kind : TokenKind} (first : punctuation? c = some kind)
    (second : punctuation? d = some kind) : c = d := by
  unfold punctuation? at first
  split at first <;> cases first <;> unfold punctuation? at second <;> split at second <;>
    first | rfl | cases second

def punctuationKinds : List TokenKind :=
  [.lparen, .rparen, .lbrace, .rbrace, .colon, .comma, .pipe, .semicolon]

theorem punctuation?_mem {c : Char} {kind : TokenKind} (marked : punctuation? c = some kind) :
    kind ∈ punctuationKinds := by
  unfold punctuation? at marked
  split at marked <;> cases marked <;> decide

theorem lexeme_of_name {c : Char} {more : Text} (behind : Text) (start : isIdentStart c = true)
    (parts : ∀ d ∈ more, isIdentPart d = true) (ends : NameEnds behind) :
    lexeme c (more ++ behind) = (wordKind (c :: more), more.length) := by
  have taken : (more ++ behind).takeWhile isIdentPart = more := by
    rw [List.takeWhile_append_of_pos parts, nameEnds_iff.mp ends, List.append_nil]
  simp [lexeme, start, taken]

/-- A name with no further identifier character behind it is read as one word. -/
theorem IsName.leads {w behind : Text} (name : IsName w) (ends : NameEnds behind) :
    Leads (wordKind w) w behind := by
  obtain ⟨c, more, rfl, start, parts⟩ := name
  have solid := isBlank_eq_false_of_isIdentPart (isIdentPart_of_isIdentStart start)
  exact ⟨c, more, rfl, solid, lexeme_of_name behind start parts ends⟩

theorem IsName.append {w x : Text} (name : IsName w) (parts : ∀ c ∈ x, Token.isIdentPart c = true) :
    IsName (w ++ x) := by
  obtain ⟨c, more, rfl, start, others⟩ := name
  refine ⟨c, more ++ x, rfl, start, ?_⟩
  intro d membership
  rcases List.mem_append.mp membership with inName | later
  · exact others d inName
  · exact parts d later

/-- A name is read together with the identifier characters behind it. -/
theorem tokensFrom_name (line : Int) (start : Nat) {w : Text} (name : IsName w) (t : Text) :
    tokensFrom line start (w ++ t) =
      ⟨wordKind (w ++ t.takeWhile isIdentPart), w ++ t.takeWhile isIdentPart, line, start⟩ ::
        tokensFrom line (start + (w ++ t.takeWhile isIdentPart).length) (t.dropWhile isIdentPart) := by
  have whole : IsName (w ++ t.takeWhile isIdentPart) := name.append fun c membership =>
    List.all_eq_true.mp List.all_takeWhile c membership
  have ends : NameEnds (t.dropWhile isIdentPart) := by
    intro c first
    have dropped := List.head?_dropWhile_not isIdentPart t
    rw [Option.mem_def.mp first] at dropped
    simpa using dropped
  have read := tokensFrom_leads line start (whole.leads ends)
  rwa [List.append_assoc, List.takeWhile_append_dropWhile] at read

/-- Words are read as names as long as they can be. -/
theorem Leads.isName {kind : TokenKind} {w behind : Text} (leads : Leads kind w behind)
    (isWord : isWordKind kind = true) :
    IsName w ∧ NameEnds behind ∧ wordKind w = kind := by
  obtain ⟨c, more, rfl, -, read⟩ := leads
  rcases lexeme_cases c (more ++ behind) with
    ⟨start, found⟩ | found | ⟨-, found⟩ | ⟨mark, marked, found⟩ | ⟨-, found⟩ | found | found <;>
    obtain ⟨kinds, lengths⟩ := Prod.mk.inj (found.symm.trans read)
  case inl =>
    have taken : (more ++ behind).takeWhile isIdentPart = more := by
      obtain ⟨rest, split⟩ := List.takeWhile_prefix (p := isIdentPart) (l := more ++ behind)
      exact (List.append_inj split lengths).1
    have parts : ∀ d ∈ more, isIdentPart d = true := by
      intro d membership
      rw [← taken] at membership
      exact List.all_eq_true.mp List.all_takeWhile d membership
    refine ⟨⟨c, more, rfl, start, parts⟩, ?_, taken ▸ kinds⟩
    rw [List.takeWhile_append_of_pos parts] at taken
    exact nameEnds_iff.mpr (by simpa using taken)
  case inr.inr.inr.inl =>
    have noWord : ∀ mark ∈ punctuationKinds, isWordKind mark = false := by decide
    have member := punctuation?_mem marked
    rw [kinds] at member
    simp [noWord kind member] at isWord
  all_goals
    subst kinds
    simp [isWordKind] at isWord

theorem IsIdent.leads {w behind : Text} (ident : IsIdent w) (ends : NameEnds behind) :
    Leads .ident w behind := ident.2 ▸ ident.1.leads ends

theorem isIdent_of_mem {line : Int} {start : Nat} {t : Text} {token : Token}
    (membership : token ∈ tokensFrom line start t) (kind : token.kind = .ident) :
    IsIdent token.text := by
  obtain ⟨before, behind, -, -, -, read⟩ := exists_behind_of_mem membership
  obtain ⟨name, -, word⟩ := (read (by simp [kind])).isName (by rw [kind]; rfl)
  exact ⟨name, word.trans kind⟩

/-- A mark is read on its own. -/
theorem Leads.eq_mark {kind : TokenKind} {d : Char} {w behind : Text} (leads : Leads kind w behind)
    (mark : punctuation? d = some kind) : w = [d] := by
  obtain ⟨c, more, rfl, -, read⟩ := leads
  have member := punctuation?_mem mark
  rcases lexeme_cases c (more ++ behind) with
    ⟨-, found⟩ | found | ⟨-, found⟩ | ⟨present, marked, found⟩ | ⟨-, found⟩ | found | found <;>
    obtain ⟨rfl, lengths⟩ := Prod.mk.inj (found.symm.trans read)
  case inl =>
    rcases wordKind_cases (c :: (more ++ behind).takeWhile isIdentPart) with
      ⟨b, word, -⟩ | word | word | word <;> rw [word] at member <;>
      simp [punctuationKinds] at member
  case inr.inr.inr.inl =>
    obtain rfl := punctuation?_inj marked mark
    rw [List.length_eq_zero_iff.mp lengths.symm]
  all_goals simp [punctuationKinds] at member

def marks : List Char := ['(', ')', '\x7b', '\x7d', ':', ',', '|', ';']

theorem mem_marks {kind : TokenKind} {d : Char} (mark : punctuation? d = some kind) : d ∈ marks := by
  unfold punctuation? at mark
  split at mark <;> simp [marks] at mark ⊢

theorem leads_mark {kind : TokenKind} {d : Char} (mark : punctuation? d = some kind)
    (behind : Text) : Leads kind [d] behind := by
  have plain : ∀ d ∈ marks, isBlank d = false ∧ isIdentStart d = false ∧ isAsciiDigit d = false ∧
      isQuote d = false := forall_mem_of_all (by decide)
  obtain ⟨solid, others⟩ := plain d (mem_marks mark)
  exact ⟨d, [], rfl, solid, by simp [lexeme, others, mark]⟩

theorem leads_assign_iff {w behind : Text} :
    Leads .assign w behind ↔
      w = ['='] ∧ behind.head? ≠ some '=' ∧ behind.head? ≠ some '>' := by
  constructor
  · rintro ⟨c, more, rfl, -, read⟩
    rcases lexeme_cases c (more ++ behind) with
      ⟨-, found⟩ | found | ⟨-, found⟩ | ⟨present, marked, found⟩ | ⟨opens, found⟩ | found | found <;>
      obtain ⟨kinds, lengths⟩ := Prod.mk.inj (found.symm.trans read)
    case inl =>
      rcases wordKind_cases (c :: (more ++ behind).takeWhile isIdentPart) with
        ⟨b, word, -⟩ | word | word | word <;> simp [word] at kinds
    case inr.inr.inr.inl =>
      have member := punctuation?_mem marked
      simp [kinds, punctuationKinds] at member
    case inr.inr.inr.inr.inl =>
      obtain rfl := List.length_eq_zero_iff.mp lengths.symm
      simpa [opensAssign, and_assoc] using opens
    all_goals simp at kinds
  · rintro ⟨rfl, noComparison, noArrow⟩
    have opens : opensAssign '=' behind = true := by simp [opensAssign, noComparison, noArrow]
    have others : isIdentStart '=' = false ∧ isAsciiDigit '=' = false ∧ isQuote '=' = false := by
      decide
    refine ⟨'=', [], rfl, by decide, ?_⟩
    simp [lexeme, others, punctuation?, opens]

end TypedScript.Token
