import TypedScript.Proofs.Lowering.Passes

set_option autoImplicit false

/-!
Lowering a text that has been lowered already. The words that lowering replaces
and the calls that it renames are gone for good, but taking an annotation out may
join its two sides to a new one. A second lowering changes the text exactly if
that has happened, and each lowering that changes it leaves fewer colons. So the
texts that lowering leaves alone are those without such words, calls and annotations.
-/

namespace TypedScript.Lowering

open Rule

theorem mut_not_mem_wordsOf_lower (source : Text) : ['m', 'u', 't'] ∉ wordsOf (lower source) := by
  rw [lower_eq]
  apply print_wordWise.not_mem_wordsOf_apply (by decide)
  apply function_replaces.wordWise.not_mem_wordsOf_apply (by decide)
  apply typing_wordWise.not_mem_wordsOf_apply (by decide)
  exact mutable_replaces.not_mem_wordsOf_apply (by decide) source

theorem fn_not_mem_wordsOf_lower (source : Text) : ['f', 'n'] ∉ wordsOf (lower source) := by
  rw [lower_eq]
  apply print_wordWise.not_mem_wordsOf_apply (by decide)
  exact function_replaces.not_mem_wordsOf_apply (by decide) _

theorem mutable_apply_lower (source : Text) : mutableRule.apply (lower source) = lower source :=
  applyFrom_of_quiet (mutable_replaces.quiet_iff.mpr (mut_not_mem_wordsOf_lower source))

theorem function_apply_lower (source : Text) : functionRule.apply (lower source) = lower source :=
  applyFrom_of_quiet (function_replaces.quiet_iff.mpr (fn_not_mem_wordsOf_lower source))

theorem print_apply_lower (source : Text) : printRule.apply (lower source) = lower source :=
  applyFrom_of_quiet (print_quiet _)

/-- A rule that does not write a character leaves no more of it. -/
theorem Rule.Rewrites.count_le {r : Rule} {mark : Char} (fresh : mark ∉ r.replacement)
    {before : Option Char} {t out : Text} (walk : r.Rewrites before t out) :
    out.count mark ≤ t.count mark := by
  induction walk with
  | nil => exact Nat.le_refl _
  | copy _ _ ih =>
    rw [List.count_cons, List.count_cons]
    exact Nat.add_le_add_right ih _
  | replace _ _ _ ih =>
    rw [List.count_append, List.count_append, List.count_eq_zero_of_not_mem fresh]
    omega

theorem Rule.count_apply_le {r : Rule} (bounded : r.Bounded) {mark : Char}
    (fresh : mark ∉ r.replacement) (t : Text) : (r.apply t).count mark ≤ t.count mark :=
  (rewrites_applyFrom bounded none t).count_le fresh

/-- It leaves fewer if all its matches hold the character, and it has a match. -/
theorem Rule.Rewrites.count_lt {r : Rule} {mark : Char} (fresh : mark ∉ r.replacement)
    (taken : ∀ before first rest, r.matched? before (first ++ rest) = some first.length → mark ∈ first)
    {before : Option Char} {t out : Text} (walk : r.Rewrites before t out)
    (loud : ¬ r.Quiet before t) : out.count mark < t.count mark := by
  induction walk with
  | nil =>
    refine absurd ?_ loud
    intro p q split filled
    simp_all
  | copy unmatched _ ih =>
    have later := ih fun quiet => loud (quiet_cons_iff.mpr ⟨unmatched, quiet⟩)
    rw [List.count_cons, List.count_cons]
    exact Nat.add_lt_add_right later _
  | replace _ found walk _ =>
    have some := List.count_pos_iff.mpr (taken _ _ _ found)
    have others := walk.count_le fresh
    rw [List.count_append, List.count_append, List.count_eq_zero_of_not_mem fresh]
    omega

theorem count_colon_typing_lt {t : Text} (annotated : Annotated t) :
    (typingRule.apply t).count ':' < t.count ':' := by
  have walk := rewrites_applyFrom typing_wordWise.bounded none t
  refine walk.count_lt (by decide) ?_ ?_
  · intro before first rest found
    exact (typing_matched?_eq_some found).1.colon_mem
  · intro quiet
    exact typing_quiet_iff.mp quiet annotated

theorem count_colon_lower_lt {source : Text} (annotated : Annotated (lower source)) :
    (lower (lower source)).count ':' < (lower source).count ':' := by
  rw [lower_eq (lower source), mutable_apply_lower]
  calc (printRule.apply (functionRule.apply (typingRule.apply (lower source)))).count ':'
      ≤ (functionRule.apply (typingRule.apply (lower source))).count ':' :=
        count_apply_le print_wordWise.bounded (by decide) _
    _ ≤ (typingRule.apply (lower source)).count ':' :=
        count_apply_le function_replaces.wordWise.bounded (by decide) _
    _ < (lower source).count ':' := count_colon_typing_lt annotated

/-- Lowering again changes nothing exactly if no annotation stands in what was lowered. -/
theorem lower_lower_eq_iff (source : Text) :
    lower (lower source) = lower source ↔ ¬ Annotated (lower source) := by
  constructor
  · intro same annotated
    have fewer := count_colon_lower_lt annotated
    rw [same] at fewer
    exact Nat.lt_irrefl _ fewer
  · intro plain
    have typing : typingRule.apply (lower source) = lower source :=
      applyFrom_of_quiet (typing_quiet_iff.mpr plain)
    rw [lower_eq (lower source), mutable_apply_lower, typing, function_apply_lower,
      print_apply_lower]

/-- One annotation between the colon and the name of another: `x: :string number` is lowered to
`x: number`, and that to `x`. -/
theorem lower_lower_ne :
    lower (lower "x: :string number".toList) ≠ lower "x: :string number".toList := by
  decide +kernel

/-- Nothing stands in the text that lowering replaces. -/
structure Untouched (t : Text) : Prop where
  noMutable : ['m', 'u', 't'] ∉ wordsOf t
  noFunction : ['f', 'n'] ∉ wordsOf t
  noAnnotation : ¬ Annotated t
  noPrint : ¬ CallsPrint t

theorem Untouched.lower_eq_self {t : Text} (untouched : Untouched t) : lower t = t := by
  have mutable : mutableRule.apply t = t :=
    applyFrom_of_quiet (mutable_replaces.quiet_iff.mpr untouched.noMutable)
  have typing : typingRule.apply t = t :=
    applyFrom_of_quiet (typing_quiet_iff.mpr untouched.noAnnotation)
  have function : functionRule.apply t = t :=
    applyFrom_of_quiet (function_replaces.quiet_iff.mpr untouched.noFunction)
  have print : printRule.apply t = t :=
    applyFrom_of_quiet (print_quiet_iff.mpr untouched.noPrint)
  rw [lower_eq, mutable, typing, function, print]

theorem lower_eq_self_iff {t : Text} : lower t = t ↔ Untouched t := by
  constructor
  · intro same
    refine ⟨same ▸ mut_not_mem_wordsOf_lower t, same ▸ fn_not_mem_wordsOf_lower t, ?_, ?_⟩
    · intro annotated
      have fewer := count_colon_lower_lt (same.symm ▸ annotated)
      rw [same, same] at fewer
      exact Nat.lt_irrefl _ fewer
    · apply print_quiet_iff.mp
      have quiet : printRule.Quiet none (lower t) := print_quiet _
      rwa [same] at quiet
  · exact Untouched.lower_eq_self

end TypedScript.Lowering
