import TypedScript.Proofs.Lowering.Linewise
import TypedScript.Proofs.Text.Lines

set_option autoImplicit false

/-!
The spelling of newlines. A source whose line feeds are written with a carriage
return in front is checked as before, and lowered to the same text in that
spelling.
-/

namespace TypedScript

namespace Lowering

open Rule

namespace Rule

variable {r : Rule}

/-- A rule that does not care how line feeds are spelled: no match has a break in it, and whether
there is one does not depend on the spelling of the text ahead. -/
structure Indifferent (r : Rule) : Prop where
  bounded : r.Bounded
  written : '\n' ∉ r.replacement
  taken : ∀ before first rest, r.matched? before (first ++ rest) = some first.length → '\n' ∉ first
  here : ∀ before c rest, isLineBreak c = true → r.matched? before (c :: rest) = none
  ahead : ∀ before t, r.matched? before (Text.crlf t) = r.matched? before t

/-- A walk over a text is a walk over the other spelling, with what it makes spelled alike. -/
theorem Rewrites.crlf (indifferent : r.Indifferent) {before : Option Char} {t out : Text}
    (walk : r.Rewrites before t out) : r.Rewrites before (Text.crlf t) (Text.crlf out) := by
  induction walk with
  | nil => exact .nil
  | @copy before c rest out unmatched _ ih =>
    by_cases feed : c = '\n'
    · -- the carriage return is copied first, and the line feed behind it as before
      subst feed
      rw [Text.crlf_lineFeed, Text.crlf_lineFeed]
      exact .copy (indifferent.here _ _ _ (by decide)) (.copy (indifferent.here _ _ _ (by decide)) ih)
    · have spelled := Text.crlf_cons feed
      rw [← indifferent.ahead, spelled] at unmatched
      rw [spelled, spelled]
      exact .copy unmatched ih
  | @replace before first rest out filled found _ ih =>
    have whole := Text.crlf_append_of_not_mem (indifferent.taken _ _ _ found) rest
    rw [← indifferent.ahead, whole] at found
    rw [whole, Text.crlf_append_of_not_mem indifferent.written]
    exact .replace filled found ih

theorem Indifferent.apply_crlf (indifferent : r.Indifferent) (t : Text) :
    r.apply (Text.crlf t) = Text.crlf (r.apply t) :=
  ((rewrites_applyFrom indifferent.bounded none t).crlf indifferent).applyFrom_eq

/-- A match does not reach past a blocking character. -/
theorem Blocks.not_mem (bounded : r.Bounded) {c : Char} (blocks : r.Blocks c) {before : Option Char}
    {first rest : Text} (found : r.matched? before (first ++ rest) = some first.length) :
    c ∉ first := by
  intro membership
  obtain ⟨x, y, rfl, -⟩ := List.eq_append_cons_of_mem membership
  rw [List.append_assoc, List.cons_append] at found
  cases x with
  | nil =>
    rw [List.nil_append, blocks.here] at found
    cases found
  | cons d x =>
    rw [blocks.ahead _ _ _ (List.cons_ne_nil d x)] at found
    have inside := (bounded _ _ _ found).2
    simp only [List.length_append, List.length_cons] at inside
    omega

/-- A rule that no line break lets through does not care which ones there are. -/
theorem indifferent_of_blocks (bounded : r.Bounded) (written : '\n' ∉ r.replacement)
    (blocks : ∀ c, isLineBreak c = true → r.Blocks c) : r.Indifferent where
  bounded := bounded
  written := written
  taken := fun _ _ _ => (blocks '\n' (by decide)).not_mem bounded
  here := fun before c rest breaks => (blocks c breaks).here before rest
  ahead := by
    intro before t
    by_cases broken : '\n' ∈ t
    · obtain ⟨x, y, rfl, free⟩ := List.eq_append_cons_of_mem broken
      rw [Text.crlf_append_of_not_mem free, Text.crlf_lineFeed]
      have feed := blocks '\n' (by decide)
      have ret := blocks '\r' (by decide)
      by_cases filled : x = []
      · subst filled
        exact (ret.here before _).trans (feed.here before y).symm
      · rw [ret.ahead _ _ _ filled, feed.ahead _ _ _ filled]
    · rw [Text.crlf_of_not_mem broken]

end Rule

theorem opensCall_crlf (t : Text) : opensCall (Text.crlf t) = opensCall t := by
  have blanks : isBlank '\r' = true ∧ isBlank '\n' = true := by decide
  induction t with
  | nil => rfl
  | cons c rest ih =>
    by_cases feed : c = '\n'
    · subst feed
      simp [opensCall_cons, blanks, ih]
    · rw [Text.crlf_cons feed, opensCall_cons, opensCall_cons, ih]

theorem print_indifferent : printRule.Indifferent where
  bounded := print_wordWise.bounded
  written := by decide
  taken := by
    intro before first rest found
    obtain ⟨rfl, -⟩ := print_matched?_eq_some found
    decide
  here := by
    intro before c rest breaks
    apply print_matched?_eq_none
    intro _ tail split
    obtain ⟨rfl, -⟩ := List.cons.inj split
    exact absurd breaks (by decide)
  ahead := by
    intro before t
    ext n
    rw [print_matched?_eq_some_iff, print_matched?_eq_some_iff]
    constructor
    · rintro ⟨free, ⟨rest, split, opens⟩, length⟩
      obtain ⟨y, rfl, rfl⟩ := Text.exists_of_crlf_eq_append (by decide) (by decide) split
      exact ⟨free, ⟨y, rfl, opensCall_crlf y ▸ opens⟩, length⟩
    · rintro ⟨free, ⟨rest, rfl, opens⟩, length⟩
      exact ⟨free, ⟨Text.crlf rest, Text.crlf_append_of_not_mem (by decide) rest,
        (opensCall_crlf rest).trans opens⟩, length⟩

theorem indifferent_of_mem_rules {rule : Rule} (membership : rule ∈ rules) : rule.Indifferent := by
  have bounded := bounded_of_mem_rules membership
  simp only [rules, List.mem_cons, List.not_mem_nil, or_false] at membership
  rcases membership with rfl | rfl | rfl | rfl
  · exact indifferent_of_blocks bounded (by decide) fun c breaks =>
      mutable_replaces.blocks (isWordChar_eq_false_of_isLineBreak breaks)
  · refine indifferent_of_blocks bounded (by decide) fun c breaks => ?_
    obtain ⟨blank, noSpace⟩ := isBlank_of_isLineBreak breaks
    exact typing_blocks (isWordChar_eq_false_of_isBlank blank) noSpace
      (ne_of_isBlank blank (by decide)) (ne_of_isBlank blank (by decide))
  · exact indifferent_of_blocks bounded (by decide) fun c breaks =>
      function_replaces.blocks (isWordChar_eq_false_of_isLineBreak breaks)
  · exact print_indifferent

theorem lower_crlf (source : Text) : lower (Text.crlf source) = Text.crlf (lower source) := by
  have each : ∀ rule ∈ rules, ∀ t, rule.apply (Text.crlf t) = Text.crlf (rule.apply t) :=
    fun rule membership => (indifferent_of_mem_rules membership).apply_crlf
  rw [lower_eq, each mutableRule (by simp [rules]), each typingRule (by simp [rules]),
    each functionRule (by simp [rules]), each printRule (by simp [rules]), ← lower_eq]

end Lowering

theorem Check.visits_crlf {source : Text} (free : '\r' ∉ source) :
    visits (Text.crlf source) = visits source := by
  rw [visits, Text.lines_crlf free, visits]

theorem check_crlf {source : Text} (free : '\r' ∉ source) :
    check (Text.crlf source) = check source := by
  rw [check, Check.visits_crlf free, check]

/-- A source without carriage returns may have its line feeds spelled with one: the check finds and
tells the same on the same lines, the lowered text is the same in that spelling, and so one is
compiled exactly if the other is. -/
theorem compile_crlf {source : Text} (free : '\r' ∉ source) :
    check (Text.crlf source) = check source ∧
      announced (Text.crlf source) = announced source ∧
      lower (Text.crlf source) = Text.crlf (lower source) ∧
      compile (Text.crlf source) =
        { compile source with output := (compile source).output.map Text.crlf } := by
  have lowered := Lowering.lower_crlf source
  refine ⟨check_crlf free, ?_, lowered, ?_⟩
  · rw [announced, Check.visits_crlf free, announced]
  · simp only [compile, check_crlf free, lowered]
    split <;> rfl

/-- A call of `print` finds its parenthesis on the next line in either spelling. -/
theorem compile_crlf_print :
    '\r' ∉ "mut x: number = 1\nprint\n(x)".toList ∧
      (compile (Text.crlf "mut x: number = 1\nprint\n(x)".toList)).output =
        some "let x = 1\r\nconsole.log\r\n(x)".toList := by
  have free : '\r' ∉ "mut x: number = 1\nprint\n(x)".toList := by decide +kernel
  obtain ⟨-, -, -, compiled⟩ := compile_crlf free
  refine ⟨free, ?_⟩
  rw [compiled]
  decide +kernel

end TypedScript
