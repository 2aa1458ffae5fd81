import TypedScript.Proofs.Token.Strings

set_option autoImplicit false

/-!
What a text in front of a separator is read as. A separator goes on with no word,
number or operator, so it changes no token in front of it but a string that is
not closed, which it becomes part of.
-/

namespace TypedScript.Token

/-- No word, number or operator goes on at the beginning of a text. -/
def Separates (tail : Text) : Prop :=
  ∀ d ∈ tail.head?, isIdentPart d = false ∧ isAsciiDigit d = false ∧ isOperatorChar d = false

theorem separates_cons {d : Char} {tail : Text} :
    Separates (d :: tail) ↔
      isIdentPart d = false ∧ isAsciiDigit d = false ∧ isOperatorChar d = false := by
  simp [Separates]

theorem separates_blank {d : Char} (tail : Text) (blank : isBlank d = true) :
    Separates (d :: tail) := by
  refine separates_cons.mpr ⟨isIdentPart_eq_false_of_isBlank blank, ?_, ?_⟩
  · by_contra digit
    simp [(apart_of_isAsciiDigit (by simpa using digit)).2] at blank
  · have solid : ∀ c ∈ "=<>!+-*/%&^~?.".toList, isBlank c = false := forall_mem_of_all (by decide)
    by_contra other
    have operator : isOperatorChar d = true := by simpa using other
    have member := List.contains_iff_mem.mp operator
    simp [solid d member] at blank

section

variable {p : Char → Bool} {tail : Text} (stops : ∀ d ∈ tail.head?, p d = false) (x : Text)
include stops

theorem takeWhile_append_of_stops : (x ++ tail).takeWhile p = x.takeWhile p := by
  induction x with
  | nil => cases tail <;> simp_all
  | cons c x ih => simp [List.takeWhile_cons, ih]

theorem dropWhile_append_of_stops : (x ++ tail).dropWhile p = x.dropWhile p ++ tail := by
  induction x with
  | nil => cases tail <;> simp_all
  | cons c x ih =>
    rw [List.cons_append, List.dropWhile_cons, List.dropWhile_cons, ih]
    split <;> rfl

end

/-- A closed string is read as one token, whatever stands behind it. -/
theorem Content.leads {quote : Char} {inner : Text} (content : Content quote inner)
    (quoted : isQuote quote = true) (behind : Text) :
    Leads .string (quote :: (inner ++ [quote])) behind := by
  refine ⟨quote, inner ++ [quote], rfl, (apart_of_isQuote quoted).1, ?_⟩
  rw [lexeme_of_isQuote quoted, List.append_assoc, List.singleton_append,
    stringTail_of_content quoted content, List.length_append, List.length_singleton]

section

variable {tail : Text} (separates : Separates tail)
include separates

theorem numberTail_append (x : Text) : numberTail (x ++ tail) = numberTail x := by
  have noDigit : ∀ d ∈ tail.head?, isAsciiDigit d = false := fun d first => (separates d first).2.1
  simp only [numberTail, takeWhile_append_of_stops noDigit, dropWhile_append_of_stops noDigit]
  cases x.dropWhile isAsciiDigit with
  | nil =>
    cases tail with
    | nil => rfl
    | cons d tail =>
      have noPoint : d ≠ '.' := by
        rintro rfl
        exact absurd (separates_cons.mp separates).2.2 (by decide)
      simp [noPoint]
  | cons c rest =>
    by_cases point : c = '.'
    · subst point
      cases rest with
      | cons d more => simp [takeWhile_append_of_stops noDigit]
      | nil =>
        cases tail with
        | nil => rfl
        | cons d tail => simp [noDigit d (by simp)]
    · simp [point]

theorem opensAssign_append (c : Char) (x : Text) : opensAssign c (x ++ tail) = opensAssign c x := by
  cases x with
  | cons d x => rfl
  | nil =>
    cases tail with
    | nil => rfl
    | cons d tail =>
      have operator := (separates_cons.mp separates).2.2
      have noEquals : d ≠ '=' := by
        rintro rfl
        exact absurd operator (by decide)
      have noGreater : d ≠ '>' := by
        rintro rfl
        exact absurd operator (by decide)
      rw [Bool.eq_iff_iff]
      simp [opensAssign, noEquals, noGreater]

theorem lexeme_append {c : Char} (noQuote : isQuote c = false) (x : Text) :
    lexeme c (x ++ tail) = lexeme c x := by
  have noPart : ∀ d ∈ tail.head?, isIdentPart d = false := fun d first => (separates d first).1
  have noOperator : ∀ d ∈ tail.head?, isOperatorChar d = false := fun d first =>
    (separates d first).2.2
  simp only [lexeme, noQuote, takeWhile_append_of_stops noPart, takeWhile_append_of_stops noOperator,
    numberTail_append separates, opensAssign_append separates, Bool.false_eq_true, if_false]

/-- A token stays in front of a separator, unless it is a string that is not closed. -/
theorem Leads.append {kind : TokenKind} {w behind : Text} (leads : Leads kind w behind) :
    Leads kind w (behind ++ tail) ∨
      kind = .string ∧ behind = [] ∧ ∃ quote rest, w = quote :: rest ∧ isQuote quote = true := by
  obtain ⟨c, more, rfl, solid, read⟩ := id leads
  by_cases quoted : isQuote c = true
  · have string := lexeme_of_isQuote quoted (more ++ behind)
    obtain rfl : kind = .string := (Prod.mk.inj (read.symm.trans string)).1
    obtain ⟨quote, -, ⟨inner, split, content⟩ | ⟨rest, -, -, empty⟩⟩ := leads.string_cases
    · left
      obtain ⟨rfl, rfl⟩ := List.cons.inj split
      exact content.leads quoted (behind ++ tail)
    · exact .inr ⟨rfl, empty, c, more, rfl, quoted⟩
  · left
    refine ⟨c, more, rfl, solid, ?_⟩
    rw [← List.append_assoc, lexeme_append separates (by simpa using quoted), read]

end

end TypedScript.Token
