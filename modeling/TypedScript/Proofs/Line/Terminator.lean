import TypedScript.Proofs.Line.Layout
import TypedScript.Proofs.Token.Separator

set_option autoImplicit false

/-!
A semicolon at the end of a line. It becomes a token of its own, or part of a
string that is not closed; the shapes of a line hold neither, and the expression
of a line is taken without it. So a line has the same record with it and without.
-/

namespace TypedScript

namespace Line

open Token

/-- The kinds of tokens that no shape of a line holds. -/
def isIdle : TokenKind → Bool
  | .eof | .string | .semicolon => true
  | _ => false

/-- Tokens that are the same up to an idle one on either side. -/
inductive Agree : List Token → List Token → Prop
  | idle {x y : Token} (xs ys : List Token) :
      isIdle x.kind = true → isIdle y.kind = true → Agree (x :: xs) (y :: ys)
  | cons (token : Token) {xs ys : List Token} : Agree xs ys → Agree (token :: xs) (token :: ys)

namespace Agree

theorem symm {xs ys : List Token} (agree : Agree xs ys) : Agree ys xs := by
  induction agree with
  | idle xs ys first second => exact .idle ys xs second first
  | cons token _ ih => exact .cons token ih

theorem split {front rest others : List Token} (agree : Agree (front ++ rest) others)
    (busy : ∀ token ∈ front, isIdle token.kind = false) :
    ∃ tail, others = front ++ tail ∧ Agree rest tail := by
  induction front generalizing others with
  | nil => exact ⟨others, rfl, agree⟩
  | cons token front ih =>
    cases agree with
    | idle _ _ first => simp [busy token (by simp)] at first
    | cons _ inner =>
      obtain ⟨tail, rfl, behind⟩ := ih inner fun other later => busy other (by simp [later])
      exact ⟨tail, rfl, behind⟩

/-- The next token on the other side is of no kind that a shape asks for in vain. -/
theorem head {x : Token} {xs others : List Token} (agree : Agree (x :: xs) others) :
    ∃ y ys, others = y :: ys ∧ ∀ kind, isIdle kind = false → x.kind ≠ kind → y.kind ≠ kind := by
  cases agree with
  | @idle _ y _ ys _ idle =>
    refine ⟨y, ys, rfl, ?_⟩
    rintro _ busy - rfl
    simp [idle] at busy
  | @cons _ _ ys _ => exact ⟨x, ys, rfl, fun _ _ differs => differs⟩

end Agree

theorem separates_terminator {gap : Text} (blank : ∀ c ∈ gap, isBlank c = true) :
    Separates (gap ++ [';']) := by
  cases gap with
  | nil => exact separates_cons.mpr (by decide)
  | cons c gap => exact separates_blank _ (blank c (by simp))

theorem exists_tokensFrom_quote (line : Int) (start : Nat) {quote : Char}
    (quoted : isQuote quote = true) (rest : Text) :
    ∃ token others, tokensFrom line start (quote :: rest) = token :: others ∧
      token.kind = .string := by
  have solid := (apart_of_isQuote quoted).1
  rw [tokensFrom, if_neg (by simp [solid])]
  exact ⟨_, _, rfl, by rw [lexeme_of_isQuote quoted]⟩

/-- The tokens of a text with a semicolon behind it. The induction goes along the tokens of the
text; the last one may be a string that takes the semicolon in. -/
theorem agree_terminated (line : Int) (start : Nat) (t : Text) {gap : Text}
    (blank : ∀ c ∈ gap, isBlank c = true) :
    Agree (tokensFrom line start t) (tokensFrom line start (t ++ (gap ++ [';']))) := by
  have tiles := tokensFrom_tiles line start t
  generalize tokensFrom line start t = tokens at tiles
  induction tiles with
  | @ends start first firstBlank =>
    have mark : tokensFrom line (start + first.length + gap.length) [';'] = _ :=
      tokensFrom_leads line _ (leads_mark rfl [])
    rw [tokensFrom_blanks line start _ firstBlank, tokensFrom_blanks line _ _ blank, mark]
    exact .idle _ _ rfl rfl
  | @token start kind first w behind others firstBlank _ leads _ ih =>
    rw [List.append_assoc, List.append_assoc, tokensFrom_blanks line start _ firstBlank]
    rcases leads.append (separates_terminator blank) with stays | ⟨rfl, rfl, quote, rest, rfl, quoted⟩
    · rw [tokensFrom_leads line _ stays]
      exact .cons _ ih
    · obtain ⟨token, more, read, isString⟩ := exists_tokensFrom_quote line (start + first.length)
        quoted (rest ++ ([] ++ (gap ++ [';'])))
      rw [List.cons_append, read]
      exact .idle _ _ rfl (by rw [isString]; rfl)

section

variable {tokens : List Token}

theorem SpellsUnion.busy {union : TypeUnion} (spelled : SpellsUnion tokens union) :
    ∀ token ∈ tokens, isIdle token.kind = false := by
  intro token membership
  rcases kind_of_mem_spellsUnion spelled token membership with kind | kind <;> rw [kind] <;> rfl

theorem SpellsParameter.busy {p : Parameter} (spelled : SpellsParameter tokens p) :
    ∀ token ∈ tokens, isIdle token.kind = false := by
  obtain ⟨isName, typed⟩ := spelled
  cases typed with
  | absent => simp [isName, isIdle]
  | present isColon union => simpa [isName, isColon, isIdle] using union.busy

theorem SpellsMoreParameters.busy {more : List Parameter}
    (spelled : SpellsMoreParameters tokens more) : ∀ token ∈ tokens, isIdle token.kind = false := by
  induction spelled with
  | nil => simp
  | cons isComma first _ ih =>
    intro token membership
    rcases List.mem_cons.mp membership with rfl | later
    · rw [isComma]
      rfl
    · exact (List.mem_append.mp later).elim (first.busy token) (ih token)

theorem SpellsParameters.busy {ps : List Parameter} (spelled : SpellsParameters tokens ps) :
    ∀ token ∈ tokens, isIdle token.kind = false := by
  cases spelled with
  | none => simp
  | some first more =>
    intro token membership
    exact (List.mem_append.mp membership).elim (first.busy token) (more.busy token)

end

/-- The tokens up to the last one that a declaration or a header asks for. -/
theorem busy_shape {first second third last : Token} {tokens : List Token}
    (firstBusy : isIdle first.kind = false) (secondBusy : isIdle second.kind = false)
    (thirdBusy : isIdle third.kind = false) (inside : ∀ token ∈ tokens, isIdle token.kind = false)
    (lastBusy : isIdle last.kind = false) :
    ∀ token ∈ first :: second :: third :: (tokens ++ [last]), isIdle token.kind = false := by
  simp only [List.mem_cons, List.mem_append, List.not_mem_nil, or_false]
  rintro token (rfl | rfl | rfl | membership | rfl)
  · exact firstBusy
  · exact secondBusy
  · exact thirdBusy
  · exact inside token membership
  · exact lastBusy

theorem SpellsResult.of_agree {tokens others : List Token} {result : Option TypeUnion}
    (agree : Agree tokens others) (spelled : SpellsResult tokens result) :
    SpellsResult others result := by
  cases spelled with
  | absent noColon =>
    obtain ⟨next, rest, rfl, differs⟩ := agree.head
    exact .absent (differs _ rfl noColon)
  | @present colon next spelling rest union isColon spelledUnion noBar =>
    have busy : ∀ token ∈ colon :: spelling, isIdle token.kind = false := by
      simpa [isColon, isIdle] using spelledUnion.busy
    rw [← List.cons_append] at agree
    obtain ⟨tail, rfl, behind⟩ := agree.split busy
    obtain ⟨other, more, rfl, differs⟩ := behind.head
    exact .present isColon spelledUnion (differs _ rfl noBar)

section

variable {line : Int} {s u : Text}

/-- The tokens of two lines agree, and the same expression stands behind each token of both. -/
structure Matches (line : Int) (s u : Text) : Prop where
  agree : Agree (tokenize line s) (tokenize line u)
  value : ∀ token, token ∈ tokenize line s → token ∈ tokenize line u →
    valueAfter token s = valueAfter token u

theorem Matches.symm (same : Matches line s u) : Matches line u s :=
  ⟨same.agree.symm, fun token first second => (same.value token second first).symm⟩

theorem Matches.exists_value (same : Matches line s u) {token : Token} {behind value : Text}
    (first : token ∈ tokenize line s) (second : token ∈ tokenize line u)
    (lies : Behind s token behind) (spelled : SpellsValue behind value) :
    ∃ other, Behind u token other ∧ SpellsValue other value := by
  rw [← valueAfter_eq_iff second, ← same.value token first second, valueAfter_eq_iff first]
  exact ⟨behind, lies, spelled⟩

theorem Describes.of_matches {record : LineRecord} (same : Matches line s u) (notBrace : s ≠ ['\x7d'])
    (described : Describes line s record) : Describes line u record := by
  have agree := same.agree
  cases described with
  | close brace => exact absurd brace notBrace
  | @returns opening rest behind value read isReturn lies spelled =>
    have front : tokenize line s = [opening] ++ rest := read
    rw [front] at agree
    obtain ⟨tail, readOther, -⟩ := agree.split (by simp [isReturn, isIdle])
    obtain ⟨other, liesOther, spelledOther⟩ :=
      same.exists_value (by simp [read]) (by simp [readOther]) lies spelled
    exact .returns readOther isReturn liesOther spelledOther
  | @declaration opening name colon assign tokens rest b union behind value read isBinding isName
      isColon spelledUnion isAssign lies spelled filled =>
    have front : tokenize line s =
        (opening :: name :: colon :: (tokens ++ [assign])) ++ rest := by simp [read]
    have busy := busy_shape (by rw [isBinding]; rfl) (by rw [isName]; rfl) (by rw [isColon]; rfl)
      spelledUnion.busy (by rw [isAssign]; rfl)
    rw [front] at agree
    obtain ⟨tail, split, -⟩ := agree.split busy
    have readOther : tokenize line u = opening :: name :: colon :: (tokens ++ assign :: tail) := by
      simp [split]
    obtain ⟨other, liesOther, spelledOther⟩ :=
      same.exists_value (by simp [read]) (by simp [readOther]) lies spelled
    exact .declaration readOther isBinding isName isColon spelledUnion isAssign liesOther
      spelledOther filled
  | @header opening name lparen rparen tokens rest ps result read isFunction isName isOpening spelled
      isClosing resulted =>
    have front : tokenize line s =
        (opening :: name :: lparen :: (tokens ++ [rparen])) ++ rest := by simp [read]
    have busy := busy_shape (by rw [isFunction]; rfl) (by rw [isName]; rfl) (by rw [isOpening]; rfl)
      spelled.busy (by rw [isClosing]; rfl)
    rw [front] at agree
    obtain ⟨tail, split, behind⟩ := agree.split busy
    have readOther : tokenize line u = opening :: name :: lparen :: (tokens ++ rparen :: tail) := by
      simp [split]
    exact .header readOther isFunction isName isOpening spelled isClosing (resulted.of_agree behind)

end

/-- The semicolon at the end of a text is no part of the expression in it. -/
theorem withoutTerminator_concat (t : Text) : withoutTerminator (t ++ [';']) = Text.trim t := by
  obtain ⟨gap, blank, trimmed⟩ := Text.exists_trim_concat (show isBlank ';' = false by decide) t
  have ended : Text.trim (t ++ [';']) = (Text.trim t ++ gap) ++ [';'] := by simp [trimmed]
  have spelled := SpellsValue.terminated ended
  rw [Text.trimEnd_append_blank _ blank, Text.trimEnd_eq_self (Text.flush_trim t).2] at spelled
  exact withoutTerminator_eq_iff.mpr spelled

theorem matches_terminated (line : Int) {s gap : Text} (flush : Text.Flush s)
    (unended : s.getLast? ≠ some ';') (blank : ∀ c ∈ gap, isBlank c = true) :
    Matches line s (s ++ (gap ++ [';'])) := by
  refine ⟨agree_terminated line 0 s blank, ?_⟩
  intro token membership _
  obtain ⟨before, behind, split, place, -⟩ := exists_behind_of_mem membership
  have inside : token.stop ≤ s.length := by
    rw [split, stop, place]
    simp only [List.length_append]
    omega
  have dropped : (s ++ (gap ++ [';'])).drop token.stop = s.drop token.stop ++ gap ++ [';'] := by
    rw [List.drop_append_of_le_length inside, List.append_assoc]
  rw [valueAfter, valueAfter, dropped, withoutTerminator_concat, Text.trim_append_blank _ blank]
  apply withoutTerminator_eq_iff.mpr
  have atEnd : ∀ c ∈ (s.drop token.stop).getLast?, s.getLast? = some c := by
    intro c last
    rw [List.getLast?_drop] at last
    split at last
    · contradiction
    · exact last
  have solid : ∀ c ∈ (s.drop token.stop).getLast?, isBlank c = false := fun c last =>
    flush.2 c (atEnd c last)
  exact .plain fun ended => unended (atEnd ';' (Text.getLast?_of_trim solid ended))

/-- A line has the same record, or none, with a semicolon at its end as without, unless it ends in
one already or is a closing brace alone. -/
theorem classify_terminated (line : Int) {t : Text} (unended : (Text.trim t).getLast? ≠ some ';')
    (notBrace : Text.trim t ≠ ['\x7d']) : classify line (t ++ [';']) = classify line t := by
  obtain ⟨gap, blank, trimmed⟩ := Text.exists_trim_concat (show isBlank ';' = false by decide) t
  have same := matches_terminated line (Text.flush_trim t) unended blank
  rw [← trimmed] at same
  have otherNotBrace : Text.trim (t ++ [';']) ≠ ['\x7d'] := by
    intro brace
    have last := congrArg List.getLast? (trimmed.symm.trans brace)
    simp at last
  apply Option.ext
  intro record
  constructor
  · intro found
    exact classify_of_describes ((describes_of_classify found).of_matches same.symm otherNotBrace)
  · intro found
    exact classify_of_describes ((describes_of_classify found).of_matches same notBrace)

/-- The blank and the semicolon behind an open string are no part of the expression, although they are
part of the string. -/
theorem classify_terminated_open_string :
    classify 3 "let s: string = 'a\\ ;".toList =
      some (.declaration ⟨.plain, ['s'], ⟨["string".toList]⟩, "'a\\".toList, 3⟩) := by
  have plain : classify 3 "let s: string = 'a\\ ".toList =
      some (.declaration ⟨.plain, ['s'], ⟨["string".toList]⟩, "'a\\".toList, 3⟩) := by decide +kernel
  have unended : (Text.trim "let s: string = 'a\\ ".toList).getLast? ≠ some ';' := by decide
  exact (classify_terminated 3 unended (by decide)).trans plain

end Line
end TypedScript
