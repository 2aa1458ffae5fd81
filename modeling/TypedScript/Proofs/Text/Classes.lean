import Mathlib.Tactic.ByContra
import Mathlib.Tactic.Tauto
import TypedScript.Text.Blank
import TypedScript.Text.Letter
import TypedScript.Token

set_option autoImplicit false

/-!
How the character classes lie to each other, and how a text is cut at a
character. No blank is a letter or a numeral, so a blank always ends a word.
-/

namespace TypedScript

namespace Ranges

/-- Every range of one table lies beside every range of the other. -/
def apart (first second : Ranges) : Bool :=
  first.all fun a => second.all fun b => a.2 < b.1 || b.2 < a.1

theorem exists_range_of_contains {ranges : Ranges} {n : Nat} (inside : ranges.contains n = true) :
    ∃ range ∈ ranges, range.1 ≤ n ∧ n ≤ range.2 := by
  induction ranges with
  | nil => simp [contains] at inside
  | cons range rest ih =>
    obtain ⟨low, high⟩ := range
    simp only [contains] at inside
    split at inside
    · contradiction
    · split at inside
      · exact ⟨(low, high), by simp, by omega, by assumption⟩
      · obtain ⟨range, membership, bounds⟩ := ih inside
        exact ⟨range, by simp [membership], bounds⟩

theorem contains_eq_false_of_apart {first second : Ranges} {n : Nat}
    (separate : first.apart second = true) (inside : first.contains n = true) :
    second.contains n = false := by
  by_contra other
  obtain ⟨a, aMembership, aLow, aHigh⟩ := exists_range_of_contains inside
  obtain ⟨b, bMembership, bLow, bHigh⟩ := exists_range_of_contains (by simpa using other)
  have beside := List.all_eq_true.mp (List.all_eq_true.mp separate a aMembership) b bMembership
  simp only [Bool.or_eq_true, decide_eq_true_eq] at beside
  omega

end Ranges

theorem isLetterOrNumeral_eq_false_of_isBlank {c : Char} (blank : isBlank c = true) :
    isLetterOrNumeral c = false := by
  have letters : blankRanges.apart letterRanges = true := by decide +kernel
  have numerals : blankRanges.apart numeralRanges = true := by decide +kernel
  have noLetter := Ranges.contains_eq_false_of_apart letters blank
  have noNumeral := Ranges.contains_eq_false_of_apart numerals blank
  simp [isLetterOrNumeral, isLetter, isNumeral, noLetter, noNumeral]

theorem isIdentPart_eq_false_of_isBlank {c : Char} (blank : isBlank c = true) :
    Token.isIdentPart c = false := by
  have noUnderscore : c ≠ '_' := by rintro rfl; revert blank; decide
  have noDollar : c ≠ '$' := by rintro rfl; revert blank; decide
  simp [Token.isIdentPart, isLetterOrNumeral_eq_false_of_isBlank blank, noUnderscore, noDollar]

theorem isBlank_eq_false_of_isIdentPart {c : Char} (part : Token.isIdentPart c = true) :
    isBlank c = false := by
  by_contra blank
  simp [isIdentPart_eq_false_of_isBlank (by simpa using blank)] at part

theorem isIdentPart_of_isIdentStart {c : Char} (start : Token.isIdentStart c = true) :
    Token.isIdentPart c = true := by
  simp only [Token.isIdentStart, Bool.or_eq_true] at start
  simp only [Token.isIdentPart, isLetterOrNumeral, Bool.or_eq_true]
  tauto

/-- Identifiers are made of word characters and dollar signs. -/
theorem isIdentPart_iff (c : Char) :
    Token.isIdentPart c = true ↔ isWordChar c = true ∨ c = '$' := by
  simp [Token.isIdentPart, isWordChar]

theorem isIdentPart_of_isWordChar {c : Char} (word : isWordChar c = true) :
    Token.isIdentPart c = true :=
  (isIdentPart_iff c).mpr (.inl word)

theorem isWordChar_eq_false_of_isBlank {c : Char} (blank : isBlank c = true) :
    isWordChar c = false := by
  by_contra word
  have part := isIdentPart_of_isWordChar (by simpa using word)
  simp [isIdentPart_eq_false_of_isBlank blank] at part

/-- The ASCII digits begin no name, and none of them is blank. -/
theorem apart_of_isAsciiDigit {c : Char} (digit : isAsciiDigit c = true) :
    Token.isIdentStart c = false ∧ isBlank c = false := by
  have inside : Ranges.contains [(48, 57)] c.toNat = true := by
    simp only [isAsciiDigit, Bool.and_eq_true, decide_eq_true_eq] at digit
    simp [Ranges.contains, digit.2, digit.1]
  have letters : Ranges.apart [(48, 57)] letterRanges = true := by decide +kernel
  have blanks : Ranges.apart [(48, 57)] blankRanges = true := by decide +kernel
  have noUnderscore : c ≠ '_' := by rintro rfl; revert digit; decide
  have noDollar : c ≠ '$' := by rintro rfl; revert digit; decide
  have noLetter : isLetter c = false := Ranges.contains_eq_false_of_apart letters inside
  exact ⟨by simp [Token.isIdentStart, noLetter, noUnderscore, noDollar],
    Ranges.contains_eq_false_of_apart blanks inside⟩

/-- What all characters of a text have in common is evaluated over the text, not over all there are. -/
theorem forall_mem_of_all {P : Char → Prop} [DecidablePred P] {t : Text}
    (all : t.all (fun c => P c) = true) : ∀ c ∈ t, P c := by simpa using all

/-- A text that lies in front of a character and does not hold it ends before it. -/
theorem exists_split_of_not_mem {c : Char} {x first rest tail : Text} (missing : c ∉ first)
    (split : x ++ c :: rest = first ++ tail) : ∃ y, x = first ++ y ∧ tail = y ++ c :: rest := by
  rcases List.append_eq_append_iff.mp split with ⟨y, rfl, rest⟩ | ⟨y, rfl, rfl⟩
  · cases y with
    | nil => exact ⟨[], by simp, by simpa using rest.symm⟩
    | cons d y =>
      obtain ⟨rfl, -⟩ := List.cons.inj rest
      exact absurd (by simp) missing
  · exact ⟨y, rfl, rfl⟩

/-- A text is cut in one way at a character if the cuts leave equally many of it in front. -/
theorem append_cons_inj_of_count {c : Char} {x y x' y' : Text} (counts : x.count c = x'.count c)
    (same : x ++ c :: y = x' ++ c :: y') : x = x' ∧ y = y' := by
  have noMore : ∀ {front between tail rest : Text}, front.count c = (front ++ between).count c →
      c :: tail = between ++ c :: rest → between = [] := by
    intro front between tail rest equal split
    cases between with
    | nil => rfl
    | cons d between =>
      obtain ⟨rfl, -⟩ := List.cons.inj split
      simp only [List.count_append, List.count_cons_self] at equal
      omega
  rcases List.append_eq_append_iff.mp same with ⟨between, rfl, tail⟩ | ⟨between, rfl, tail⟩
  · obtain rfl := noMore counts tail
    exact ⟨(List.append_nil x).symm, (List.cons.inj tail).2⟩
  · obtain rfl := noMore counts.symm tail
    exact ⟨List.append_nil x', (List.cons.inj tail).2.symm⟩

theorem append_cons_inj {c : Char} {x y x' y' : Text} (first : c ∉ x) (other : c ∉ x')
    (same : x ++ c :: y = x' ++ c :: y') : x = x' ∧ y = y' := by
  refine append_cons_inj_of_count ?_ same
  rw [List.count_eq_zero_of_not_mem first, List.count_eq_zero_of_not_mem other]

end TypedScript
