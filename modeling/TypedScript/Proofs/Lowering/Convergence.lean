import Mathlib.Logic.Function.Iterate
import TypedScript.Proofs.Lowering.Idempotence

set_option autoImplicit false

/-!
Lowering a text over and over. A text is left alone exactly if no rule has a match
in it. A lowered text changes again only by losing annotations, and each takes a
colon with it, so the colons of a text bound how often lowering can change it.
-/

namespace TypedScript.Lowering

open Rule

/-- What lowering replaces is what the rules match. -/
theorem untouched_iff_quiet {t : Text} : Untouched t ↔ ∀ rule ∈ rules, rule.Quiet none t := by
  constructor
  · intro untouched rule membership
    simp only [rules, List.mem_cons, List.not_mem_nil, or_false] at membership
    rcases membership with rfl | rfl | rfl | rfl
    · exact mutable_replaces.quiet_iff.mpr untouched.noMutable
    · exact typing_quiet_iff.mpr untouched.noAnnotation
    · exact function_replaces.quiet_iff.mpr untouched.noFunction
    · exact print_quiet_iff.mpr untouched.noPrint
  · intro quiet
    exact {
      noMutable := mutable_replaces.quiet_iff.mp (quiet mutableRule (by simp [rules]))
      noFunction := function_replaces.quiet_iff.mp (quiet functionRule (by simp [rules]))
      noAnnotation := typing_quiet_iff.mp (quiet typingRule (by simp [rules]))
      noPrint := print_quiet_iff.mp (quiet printRule (by simp [rules])) }

theorem count_colon_lower_le (source : Text) : (lower source).count ':' ≤ source.count ':' := by
  calc (lower source).count ':'
      ≤ (functionRule.apply (typingRule.apply (mutableRule.apply source))).count ':' :=
        count_apply_le print_wordWise.bounded (by decide) _
    _ ≤ (typingRule.apply (mutableRule.apply source)).count ':' :=
        count_apply_le function_replaces.wordWise.bounded (by decide) _
    _ ≤ (mutableRule.apply source).count ':' :=
        count_apply_le typing_wordWise.bounded (by decide) _
    _ ≤ source.count ':' := count_apply_le mutable_replaces.wordWise.bounded (by decide) _

/-- A lowered text stays as it is, or has fewer colons once it is lowered again. -/
theorem lower_lower_eq_or_count_lt (source : Text) :
    lower (lower source) = lower source ∨
      (lower (lower source)).count ':' < (lower source).count ':' := by
  by_cases annotated : Annotated (lower source)
  · exact .inr (count_colon_lower_lt annotated)
  · have untouched : Untouched (lower source) :=
      ⟨mut_not_mem_wordsOf_lower source, fn_not_mem_wordsOf_lower source, annotated,
        print_quiet_iff.mp (print_quiet _)⟩
    exact .inl untouched.lower_eq_self

/-- A lowered text can change as often again as it has colons. -/
theorem lower_iterate_of_count_le {source : Text} {n : Nat} (few : (lower source).count ':' ≤ n) :
    lower (lower^[n] (lower source)) = lower^[n] (lower source) := by
  induction n generalizing source with
  | zero =>
    rcases lower_lower_eq_or_count_lt source with same | fewer
    · exact same
    · omega
  | succ n ih =>
    rcases lower_lower_eq_or_count_lt source with same | fewer
    · rw [Function.iterate_fixed same, same]
    · rw [Function.iterate_succ_apply]
      exact ih (by omega)

/-- Lowering leaves neither of the two words and no call of `print` in a text. It changes a text
exactly if one of its rules has a match there, and behind one lowering more than there are colons
it changes nothing any more. -/
theorem lower_settles (source : Text) :
    (['m', 'u', 't'] ∉ wordsOf (lower source) ∧ ['f', 'n'] ∉ wordsOf (lower source) ∧
        ¬ CallsPrint (lower source)) ∧
      (lower source = source ↔ ∀ rule ∈ rules, rule.Quiet none source) ∧
      lower (lower^[source.count ':' + 1] source) = lower^[source.count ':' + 1] source := by
  refine ⟨⟨mut_not_mem_wordsOf_lower source, fn_not_mem_wordsOf_lower source,
    print_quiet_iff.mp (print_quiet _)⟩, ?_, ?_⟩
  · rw [lower_eq_self_iff, untouched_iff_quiet]
  · rw [Function.iterate_succ_apply]
    exact lower_iterate_of_count_le (count_colon_lower_le source)

end TypedScript.Lowering
