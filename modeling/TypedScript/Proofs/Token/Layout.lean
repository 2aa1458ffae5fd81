import TypedScript.Proofs.Text.Classes

set_option autoImplicit false

/-!
How tokens lie in their line. A token in front of the text behind it is one
reading step (`Leads`), and the tokens of a line are such steps with blanks
between them (`Tiles`).
-/

namespace TypedScript.Token

theorem numberTail_le (t : Text) : numberTail t ≤ t.length := by
  have parts := congrArg List.length (List.takeWhile_append_dropWhile (p := isAsciiDigit) (l := t))
  rw [List.length_append] at parts
  simp only [numberTail]
  split
  next d more found =>
    rw [found] at parts
    simp only [List.length_cons] at parts
    have digits := (List.takeWhile_sublist (p := isAsciiDigit) (l := more)).length_le
    split <;> omega
  next => omega

theorem stringTail_le (quote : Char) (t : Text) : stringTail quote t ≤ t.length := by
  fun_induction stringTail quote t with
  | case1 => simp
  | case2 => simp
  | case3 => simp only [List.length_cons]; omega
  | case4 => simp
  | case5 => simp only [List.length_cons]; omega

/-- What a token can be, by its first character. -/
theorem lexeme_cases (c : Char) (rest : Text) :
    isIdentStart c = true ∧ lexeme c rest =
        (wordKind (c :: rest.takeWhile isIdentPart), (rest.takeWhile isIdentPart).length) ∨
      lexeme c rest = (.number, numberTail rest) ∨
      isQuote c = true ∧ lexeme c rest = (.string, stringTail c rest) ∨
      (∃ kind, punctuation? c = some kind ∧ lexeme c rest = (kind, 0)) ∨
      opensAssign c rest = true ∧ lexeme c rest = (.assign, 0) ∨
      lexeme c rest = (.operator, (rest.takeWhile isOperatorChar).length) ∨
      lexeme c rest = (.other, 0) := by
  unfold lexeme
  split
  next start => exact .inl ⟨start, rfl⟩
  next =>
    split
    next => exact .inr (.inl rfl)
    next =>
      split
      next quoted => exact .inr (.inr (.inl ⟨quoted, rfl⟩))
      next =>
        split
        next kind found => exact .inr (.inr (.inr (.inl ⟨kind, found, rfl⟩)))
        next =>
          split
          next opens => exact .inr (.inr (.inr (.inr (.inl ⟨opens, rfl⟩))))
          next =>
            split
            next => exact .inr (.inr (.inr (.inr (.inr (.inl rfl)))))
            next => exact .inr (.inr (.inr (.inr (.inr (.inr rfl)))))

theorem lexeme_length_le (c : Char) (rest : Text) : (lexeme c rest).2 ≤ rest.length := by
  rcases lexeme_cases c rest with
    ⟨-, read⟩ | read | ⟨-, read⟩ | ⟨kind, -, read⟩ | ⟨-, read⟩ | read | read <;> rw [read]
  · exact (List.takeWhile_sublist _).length_le
  · exact numberTail_le rest
  · exact stringTail_le c rest
  · exact Nat.zero_le _
  · exact Nat.zero_le _
  · exact (List.takeWhile_sublist _).length_le
  · exact Nat.zero_le _

/-- The token `w` of the given kind is what the front of `w ++ behind` reads as. -/
def Leads (kind : TokenKind) (w behind : Text) : Prop :=
  ∃ c more, w = c :: more ∧ isBlank c = false ∧ lexeme c (more ++ behind) = (kind, more.length)

theorem Leads.ne_nil {kind : TokenKind} {w behind : Text} (leads : Leads kind w behind) : w ≠ [] := by
  obtain ⟨c, more, rfl, -⟩ := leads
  exact List.cons_ne_nil c more

theorem wordKind_ne_eof (w : Text) : wordKind w ≠ .eof := by
  unfold wordKind
  split <;> simp

theorem punctuation?_ne_eof (c : Char) : punctuation? c ≠ some .eof := by
  unfold punctuation?
  split <;> simp

theorem lexeme_kind_ne_eof (c : Char) (rest : Text) : (lexeme c rest).1 ≠ .eof := by
  rcases lexeme_cases c rest with
    ⟨-, read⟩ | read | ⟨-, read⟩ | ⟨kind, found, read⟩ | ⟨-, read⟩ | read | read <;> rw [read]
  · exact wordKind_ne_eof _
  · simp
  · simp
  · rintro rfl
    exact punctuation?_ne_eof c found
  · simp
  · simp
  · simp

theorem tokensFrom_nil (line : Int) (start : Nat) :
    tokensFrom line start [] = [⟨.eof, [], line, start⟩] := by rw [tokensFrom]

theorem tokensFrom_blanks (line : Int) (start : Nat) {gap : Text} (t : Text)
    (blank : ∀ c ∈ gap, isBlank c = true) :
    tokensFrom line start (gap ++ t) = tokensFrom line (start + gap.length) t := by
  induction gap generalizing start with
  | nil => rfl
  | cons c gap ih =>
    have first : isBlank c = true := blank c (by simp)
    have others : ∀ d ∈ gap, isBlank d = true := fun d membership => blank d (by simp [membership])
    rw [List.cons_append, tokensFrom, if_pos first, ih _ others, List.length_cons]
    congr 1
    omega

theorem tokensFrom_leads (line : Int) (start : Nat) {kind : TokenKind} {w behind : Text}
    (leads : Leads kind w behind) :
    tokensFrom line start (w ++ behind) =
      ⟨kind, w, line, start⟩ :: tokensFrom line (start + w.length) behind := by
  obtain ⟨c, more, rfl, solid, read⟩ := leads
  rw [List.cons_append, tokensFrom, if_neg (by simp [solid]), read]
  simp only [List.take_left, List.drop_left, List.length_cons]
  congr 2
  omega

/-- A text of blanks has no token but the end mark. -/
theorem tokensFrom_all_blank (line : Int) (start : Nat) {gap : Text}
    (blank : ∀ c ∈ gap, isBlank c = true) :
    tokensFrom line start gap = [⟨.eof, [], line, start + gap.length⟩] := by
  have passed := tokensFrom_blanks line start [] blank
  rwa [List.append_nil, tokensFrom_nil] at passed

/-- Every text is blanks alone, or blanks and a token with some text behind it. -/
theorem all_blank_or_leads (t : Text) :
    (∀ c ∈ t, isBlank c = true) ∨
      ∃ gap kind w behind, (∀ c ∈ gap, isBlank c = true) ∧ kind ≠ .eof ∧ Leads kind w behind ∧
        t = gap ++ (w ++ behind) := by
  induction t with
  | nil => exact .inl (by simp)
  | cons c rest ih =>
    by_cases blank : isBlank c = true
    · rcases ih with others | ⟨gap, kind, w, behind, others, real, leads, rfl⟩
      · exact .inl (by simpa [blank] using others)
      · exact .inr ⟨c :: gap, kind, w, behind, by simpa [blank] using others, real, leads, rfl⟩
    · right
      have short := lexeme_length_le c rest
      refine ⟨[], (lexeme c rest).1, c :: rest.take (lexeme c rest).2,
        rest.drop (lexeme c rest).2, by simp, lexeme_kind_ne_eof c rest, ?_, by simp⟩
      refine ⟨c, rest.take (lexeme c rest).2, rfl, by simpa using blank, ?_⟩
      rw [List.take_append_drop, List.length_take, Nat.min_eq_left short]

/-- The first token of a line, where it lies, and what is read behind it. -/
theorem tokensFrom_eq_cons_iff {line : Int} {start : Nat} {t : Text} {token : Token}
    {others : List Token} (real : token.kind ≠ .eof) :
    tokensFrom line start t = token :: others ↔
      ∃ gap behind, (∀ c ∈ gap, isBlank c = true) ∧ t = gap ++ (token.text ++ behind) ∧
        Leads token.kind token.text behind ∧ token.line = line ∧
        token.start = start + gap.length ∧ others = tokensFrom line token.stop behind := by
  constructor
  · intro read
    rcases all_blank_or_leads t with blank | ⟨gap, kind, w, behind, blank, -, leads, rfl⟩
    · rw [tokensFrom_all_blank line start blank] at read
      obtain ⟨rfl, -⟩ := List.cons.inj read
      exact absurd rfl real
    · rw [tokensFrom_blanks line start _ blank, tokensFrom_leads line _ leads] at read
      obtain ⟨rfl, rfl⟩ := List.cons.inj read
      exact ⟨gap, behind, blank, rfl, leads, rfl, rfl, rfl⟩
  · rintro ⟨gap, behind, blank, rfl, leads, sameLine, place, rfl⟩
    rw [tokensFrom_blanks line start _ blank, tokensFrom_leads line _ leads, stop, place]
    obtain ⟨kind, w, tokenLine, tokenStart⟩ := token
    cases sameLine
    cases place
    rfl

/-- The tokens of a text that stands at an offset: blanks and tokens by turns, and the end mark. -/
inductive Tiles (line : Int) : Nat → Text → List Token → Prop
  | ends {start : Nat} {gap : Text} :
      (∀ c ∈ gap, isBlank c = true) → Tiles line start gap [⟨.eof, [], line, start + gap.length⟩]
  | token {start : Nat} {kind : TokenKind} {gap w behind : Text} {others : List Token} :
      (∀ c ∈ gap, isBlank c = true) → kind ≠ .eof → Leads kind w behind →
      Tiles line (start + gap.length + w.length) behind others →
      Tiles line start (gap ++ (w ++ behind)) (⟨kind, w, line, start + gap.length⟩ :: others)

theorem tokensFrom_tiles (line : Int) (start : Nat) (t : Text) :
    Tiles line start t (tokensFrom line start t) := by
  induction size : t.length using Nat.strongRecOn generalizing start t with
  | ind bound ih =>
    rcases all_blank_or_leads t with blank | ⟨gap, kind, w, behind, blank, real, leads, rfl⟩
    · rw [tokensFrom_all_blank line start blank]
      exact .ends blank
    · rw [tokensFrom_blanks line start _ blank, tokensFrom_leads line _ leads]
      refine .token blank real leads (ih behind.length ?_ _ behind rfl)
      have filled := List.length_pos_iff.mpr leads.ne_nil
      simp only [List.length_append] at size
      omega

/-- The end mark stands last, and nowhere else. -/
theorem exists_tokensFrom_eq_concat (line : Int) (start : Nat) (t : Text) :
    ∃ front, tokensFrom line start t = front ++ [⟨.eof, [], line, start + t.length⟩] ∧
      ∀ token ∈ front, token.kind ≠ .eof := by
  have tiles := tokensFrom_tiles line start t
  generalize tokensFrom line start t = tokens at tiles
  induction tiles with
  | ends => exact ⟨[], rfl, by simp⟩
  | @token start kind gap w behind others _ real _ _ ih =>
    obtain ⟨front, rfl, noEnd⟩ := ih
    refine ⟨⟨kind, w, line, start + gap.length⟩ :: front, ?_, by simpa [real] using noEnd⟩
    simp only [List.cons_append, List.length_append]
    congr 4
    omega

/-- The text behind a token in its line. -/
def Behind (t : Text) (token : Token) (behind : Text) : Prop :=
  ∃ before, t = before ++ (token.text ++ behind) ∧ before.length = token.start

/-- Every token lies in its line where its offset says, and is what is read there. -/
theorem exists_behind_of_mem {line : Int} {start : Nat} {t : Text} {token : Token}
    (membership : token ∈ tokensFrom line start t) :
    ∃ before behind, t = before ++ (token.text ++ behind) ∧ token.start = start + before.length ∧
      token.line = line ∧ (token.kind ≠ .eof → Leads token.kind token.text behind) := by
  have tiles := tokensFrom_tiles line start t
  generalize tokensFrom line start t = tokens at membership tiles
  induction tiles with
  | @ends start gap =>
    obtain rfl := List.mem_singleton.mp membership
    exact ⟨gap, [], by simp, rfl, rfl, fun real => absurd rfl real⟩
  | @token start kind gap w behind others _ _ leads _ ih =>
    rcases List.mem_cons.mp membership with rfl | later
    · exact ⟨gap, behind, rfl, rfl, rfl, fun _ => leads⟩
    · obtain ⟨before, last, rfl, place, found⟩ := ih later
      refine ⟨gap ++ (w ++ before), last, by simp, ?_, found⟩
      simp only [place, List.length_append]
      omega

theorem behind_iff_of_mem {line : Int} {t behind : Text} {token : Token}
    (membership : token ∈ tokenize line t) :
    Behind t token behind ↔ behind = t.drop token.stop := by
  obtain ⟨before, found, same, place, -⟩ := exists_behind_of_mem membership
  rw [Nat.zero_add] at place
  have dropped : t.drop token.stop = found := by
    rw [same, stop, place, ← List.append_assoc, ← List.length_append, List.drop_left]
  rw [dropped]
  constructor
  · rintro ⟨other, split, length⟩
    rw [same, ← List.append_assoc, ← List.append_assoc] at split
    have sizes : (before ++ token.text).length = (other ++ token.text).length := by
      simp only [List.length_append]
      omega
    exact (List.append_inj_right split sizes).symm
  · rintro rfl
    exact ⟨before, same, place.symm⟩

end TypedScript.Token
