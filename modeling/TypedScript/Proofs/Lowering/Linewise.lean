import TypedScript.Proofs.Lowering.Erasure
import TypedScript.Proofs.Text.Margin

set_option autoImplicit false

/-!
Lowering works line by line. No rule matches across a line break, but a call of
`print` may have its parenthesis on a later line; where a line does not end in
that name, it is lowered on its own. The line breaks of a text always stay.
-/

namespace TypedScript.Lowering

open Rule

theorem isBlank_of_isLineBreak {c : Char} (breaks : isLineBreak c = true) :
    isBlank c = true ∧ isSpaceOrTab c = false := by
  have all : ∀ n ∈ lineBreaks,
      isBlank (Char.ofNat n) = true ∧ isSpaceOrTab (Char.ofNat n) = false := by decide
  have found := all c.toNat (by simpa [isLineBreak] using breaks)
  rwa [Char.ofNat_toNat] at found

theorem isWordChar_eq_false_of_isLineBreak {c : Char} (breaks : isLineBreak c = true) :
    isWordChar c = false := isWordChar_eq_false_of_isBlank (isBlank_of_isLineBreak breaks).1

theorem ne_of_isBlank {c d : Char} (blank : isBlank c = true) (solid : isBlank d = false) : c ≠ d := by
  rintro rfl
  simp [blank] at solid

theorem survives_of_isLineBreak {c : Char} (breaks : isLineBreak c = true) : survives c = true := by
  obtain ⟨blank, noSpace⟩ := isBlank_of_isLineBreak breaks
  exact survives_iff.mpr ⟨isWordChar_eq_false_of_isBlank blank, noSpace,
    ne_of_isBlank blank (by decide), ne_of_isBlank blank (by decide), ne_of_isBlank blank (by decide)⟩

/-- The text ends in the name `print` and blanks behind it. -/
def EndsInPrint (t : Text) : Prop :=
  ∃ before gap, t = before ++ (printName ++ gap) ∧ ∀ c ∈ gap, isBlank c = true

theorem endsInPrint_iff {t : Text} : EndsInPrint t ↔ printName <:+ Text.trimEnd t := by
  constructor
  · rintro ⟨before, gap, rfl, blank⟩
    have last : (before ++ printName).getLast? = some 't' := by simp [printName, List.getLast?_append]
    have solid : ∀ c ∈ (before ++ printName).getLast?, isBlank c = false := by
      rw [last]
      simp only [Option.mem_some_iff, forall_eq']
      decide
    rw [← List.append_assoc, Text.trimEnd_append_blank _ blank, Text.trimEnd_eq_self solid]
    exact List.suffix_append before printName
  · rintro ⟨before, split⟩
    obtain ⟨gap, whole, blank⟩ := Text.exists_trimEnd_append t
    exact ⟨before, gap, by rw [← List.append_assoc, split, ← whole], blank⟩

instance : DecidablePred EndsInPrint := fun _ => decidable_of_iff _ endsInPrint_iff.symm

theorem EndsInPrint.append {t : Text} (ends : EndsInPrint t) (x : Text) : EndsInPrint (x ++ t) := by
  obtain ⟨before, gap, rfl, blank⟩ := ends
  exact ⟨x ++ before, gap, by simp, blank⟩

theorem endsInPrint_cons {c : Char} {rest : Text} :
    EndsInPrint (c :: rest) ↔
      (∃ gap, c :: rest = printName ++ gap ∧ ∀ d ∈ gap, isBlank d = true) ∨ EndsInPrint rest := by
  constructor
  · rintro ⟨before, gap, split, blank⟩
    cases before with
    | nil => exact .inl ⟨gap, split, blank⟩
    | cons d before =>
      obtain ⟨-, rfl⟩ := List.cons.inj split
      exact .inr ⟨before, gap, rfl, blank⟩
  · rintro (⟨gap, split, blank⟩ | ends)
    · exact ⟨[], gap, split, blank⟩
    · exact ends.append [c]

/-- What stands in a text decides about a call, unless all of it is blank. -/
theorem opensCall_append {x : Text} (y : Text) (solid : ∃ c ∈ x, isBlank c = false) :
    opensCall (x ++ y) = opensCall x := by
  induction x with
  | nil => simp at solid
  | cons c x ih =>
    rw [List.cons_append, opensCall_cons, opensCall_cons]
    split
    next blank =>
      apply ih
      obtain ⟨d, membership, filled⟩ := solid
      rcases List.mem_cons.mp membership with rfl | later
      · simp [blank] at filled
      · exact ⟨d, later, filled⟩
    next => rfl

theorem solid_of_opensCall {t : Text} (opens : opensCall t = true) : ∃ c ∈ t, isBlank c = false :=
  ⟨'(', mem_of_opensCall opens, by decide⟩

/-- A blank does not stand in a match, and the rule looks past it only behind the name. -/
theorem print_matched?_append {c : Char} (blank : isBlank c = true) (before : Option Char)
    {x : Text} (y : Text) (calm : ¬ EndsInPrint x) :
    printRule.matched? before (x ++ c :: y) = printRule.matched? before x := by
  have missing : c ∉ printName := by
    intro membership
    have word := isWordChar_of_mem_printName membership
    simp [isWordChar_eq_false_of_isBlank blank] at word
  ext n
  rw [print_matched?_eq_some_iff, print_matched?_eq_some_iff]
  constructor
  · rintro ⟨free, ⟨rest, split, opens⟩, length⟩
    obtain ⟨z, rfl, rfl⟩ := exists_split_of_not_mem missing split
    have solid : ∃ d ∈ z, isBlank d = false := by
      by_contra allBlank
      apply calm
      exact ⟨[], z, rfl, by simpa using allBlank⟩
    rw [opensCall_append _ solid] at opens
    exact ⟨free, ⟨z, rfl, opens⟩, length⟩
  · rintro ⟨free, ⟨z, rfl, opens⟩, length⟩
    refine ⟨free, ⟨z ++ c :: y, by simp, ?_⟩, length⟩
    rwa [opensCall_append _ (solid_of_opensCall opens)]

theorem print_apply_append {c : Char} (blank : isBlank c = true) {x : Text} (y : Text)
    (calm : ¬ EndsInPrint x) :
    printRule.apply (x ++ c :: y) = printRule.apply x ++ c :: printRule.apply y := by
  apply applyFrom_append_cons print_wordWise.bounded
  · intro before
    apply print_matched?_eq_none
    intro _ tail split
    obtain ⟨rfl, -⟩ := List.cons.inj split
    exact absurd blank (by decide)
  · have same : nameFree (some c) = nameFree none := by
      have noMember : c ≠ '.' := ne_of_isBlank blank (by decide)
      have noSign : c ≠ '$' := ne_of_isBlank blank (by decide)
      simp [nameFree, isWordChar_eq_false_of_isBlank blank, noMember, noSign]
    ext n
    rw [print_matched?_eq_some_iff, print_matched?_eq_some_iff, same]
  · rintro p q rfl -
    apply print_matched?_append blank
    intro ends
    exact calm (ends.append p)

/-- A name that is called is not the one at the end, and no other name begins inside it. -/
theorem EndsInPrint.of_called {rest : Text} (ends : EndsInPrint (printName ++ rest))
    (opens : opensCall rest = true) : EndsInPrint rest := by
  have skip : ∀ {c : Char} {t : Text}, c ≠ 'p' → EndsInPrint (c :: t) → EndsInPrint t := by
    intro c t differs ends
    rcases endsInPrint_cons.mp ends with ⟨gap, split, -⟩ | later
    · exact absurd (List.cons.inj split).1 differs
    · exact later
  rcases endsInPrint_cons.mp ends with ⟨gap, split, blank⟩ | later
  · have same : printName ++ rest = printName ++ gap := split
    obtain rfl : rest = gap := List.append_cancel_left same
    obtain ⟨c, membership, solid⟩ := solid_of_opensCall opens
    simp [blank c membership] at solid
  · exact skip (by decide) (skip (by decide) (skip (by decide) (skip (by decide) later)))

/-- The name at the end of a text is not called in it, so the rule leaves it there. -/
theorem endsInPrint_of_rewrites {before : Option Char} {t out : Text}
    (walk : printRule.Rewrites before t out) (ends : EndsInPrint t) : EndsInPrint out := by
  induction walk with
  | nil =>
    obtain ⟨before, gap, split, -⟩ := ends
    simp [printName] at split
  | @copy before c rest out unmatched walk ih =>
    rcases endsInPrint_cons.mp ends with ⟨gap, split, blank⟩ | later
    · have noCall : '(' ∉ rest := by
        intro membership
        have inside : '(' ∈ printName ++ gap := split ▸ List.mem_cons_of_mem c membership
        rcases List.mem_append.mp inside with inName | inGap
        · exact absurd inName (by decide)
        · exact absurd (blank _ inGap) (by decide)
      rwa [← walk.applyFrom_eq, print_applyFrom_eq_self _ noCall]
    · exact (ih later).append [c]
  | @replace before first rest out filled found walk ih =>
    obtain ⟨rfl, -, opens⟩ := print_matched?_eq_some found
    exact (ih (ends.of_called opens)).append _

/-- Behind a line that does not end in the name `print`, the next line is lowered on its own. -/
theorem lower_append_break {c : Char} (breaks : isLineBreak c = true) {a : Text} (b : Text)
    (calm : ¬ EndsInPrint (lower a)) : lower (a ++ c :: b) = lower a ++ c :: lower b := by
  obtain ⟨blank, noSpace⟩ := isBlank_of_isLineBreak breaks
  have border := isWordChar_eq_false_of_isBlank blank
  have noColon : c ≠ ':' := ne_of_isBlank blank (by decide)
  have noBar : c ≠ '|' := ne_of_isBlank blank (by decide)
  have untyped : ¬ EndsInPrint (functionRule.apply (typingRule.apply (mutableRule.apply a))) := by
    intro ends
    exact calm (endsInPrint_of_rewrites (rewrites_applyFrom print_wordWise.bounded none _) ends)
  rw [lower_eq, passes_append_cons border noSpace noColon noBar, print_apply_append blank _ untyped]
  rfl

theorem filter_isLineBreak_lower (source : Text) :
    (lower source).filter isLineBreak = source.filter isLineBreak :=
  filter_lower (fun _ => survives_of_isLineBreak) source

/-- Lines are lowered one by one unless a line ends in the name `print`, and no line break is
added, removed or moved. -/
theorem lower_linewise :
    (∀ (a b : Text) (c : Char), isLineBreak c = true → ¬ EndsInPrint (lower a) →
        lower (a ++ c :: b) = lower a ++ c :: lower b) ∧
      ∀ source : Text, (lower source).filter isLineBreak = source.filter isLineBreak :=
  ⟨fun _ b _ breaks calm => lower_append_break breaks b calm, filter_isLineBreak_lower⟩

/-- A name in front of a word is no call on the next line. -/
theorem lower_linewise_print :
    isLineBreak '\n' = true ∧ ¬ EndsInPrint (lower "print x".toList) ∧
      lower "print x\n(fn)".toList = lower "print x".toList ++ '\n' :: lower "(fn)".toList := by
  have breaks : isLineBreak '\n' = true := by decide
  have calm : ¬ EndsInPrint (lower "print x".toList) := by decide +kernel
  exact ⟨breaks, calm, lower_linewise.1 "print x".toList "(fn)".toList '\n' breaks calm⟩

end TypedScript.Lowering
