import TypedScript.Proofs.Lowering.Passes

set_option autoImplicit false

/-!
What lowering erases. Lowering works on the two sides of a dividing character on
its own and keeps the characters that no rule touches. It makes nothing of a text
exactly if the text is made of annotations, and it brings a dividing character to
the front only by erasing annotations.
-/

namespace TypedScript.Lowering

open Rule

/-- A character that no rule matches, looks past, or takes into account behind it. -/
def divides (c : Char) : Bool := !isWordChar c && !isBlank c && !([':', '|', '(', '.', '$'].contains c)

theorem isBlank_of_isSpaceOrTab {c : Char} (spacing : isSpaceOrTab c = true) : isBlank c = true := by
  simp only [isSpaceOrTab, Bool.or_eq_true, beq_iff_eq] at spacing
  rcases spacing with rfl | rfl <;> decide

theorem isSpaceOrTab_eq_false_of_isBlank {c : Char} (solid : isBlank c = false) :
    isSpaceOrTab c = false := by
  cases spacing : isSpaceOrTab c with
  | false => rfl
  | true => simp [isBlank_of_isSpaceOrTab spacing] at solid

theorem bounded_of_mem_rules {rule : Rule} (membership : rule ∈ rules) : rule.Bounded := by
  simp only [rules, List.mem_cons, List.not_mem_nil, or_false] at membership
  rcases membership with rfl | rfl | rfl | rfl
  · exact mutable_replaces.wordWise.bounded
  · exact typing_wordWise.bounded
  · exact function_replaces.wordWise.bounded
  · exact print_wordWise.bounded

theorem blocks_of_mem_rules {c : Char} (dividing : divides c = true) {rule : Rule}
    (membership : rule ∈ rules) : rule.Blocks c := by
  simp only [divides, Bool.and_eq_true, Bool.not_eq_true', List.contains_eq_mem,
    decide_eq_false_iff_not, List.mem_cons, List.not_mem_nil, or_false, not_or] at dividing
  obtain ⟨⟨border, solid⟩, noColon, noBar, noCall, noMember, noSign⟩ := dividing
  simp only [rules, List.mem_cons, List.not_mem_nil, or_false] at membership
  rcases membership with rfl | rfl | rfl | rfl
  · exact mutable_replaces.blocks border
  · exact typing_blocks border (isSpaceOrTab_eq_false_of_isBlank solid) noColon noBar
  · exact function_replaces.blocks border
  · exact print_blocks border solid noCall noMember noSign

theorem lower_nil : lower [] = [] := by
  rw [lower_eq, apply_nil, apply_nil, apply_nil, apply_nil]

/-- The two sides of a dividing character are lowered on their own. -/
theorem lower_append_cons {c : Char} (dividing : divides c = true) (x y : Text) :
    lower (x ++ c :: y) = lower x ++ c :: lower y := by
  have each : ∀ rule ∈ rules, ∀ x y, rule.apply (x ++ c :: y) = rule.apply x ++ c :: rule.apply y := by
    intro rule membership x y
    apply apply_append_of_blocks
    · exact bounded_of_mem_rules membership
    · exact blocks_of_mem_rules dividing membership
  rw [lower_eq, each mutableRule (by simp [rules]), each typingRule (by simp [rules]),
    each functionRule (by simp [rules]), each printRule (by simp [rules])]
  rfl

theorem lower_cons {c : Char} (dividing : divides c = true) (t : Text) :
    lower (c :: t) = c :: lower t := by
  have split := lower_append_cons dividing [] t
  rwa [lower_nil] at split

/-- A character that no rule takes out of a text or writes into one. -/
def survives (c : Char) : Bool := !isWordChar c && !isSpaceOrTab c && !([':', '|', '.'].contains c)

theorem survives_iff {c : Char} :
    survives c = true ↔ isWordChar c = false ∧ isSpaceOrTab c = false ∧ c ≠ ':' ∧ c ≠ '|' ∧ c ≠ '.' := by
  simp [survives, and_assoc]

theorem survives_of_divides {c : Char} (dividing : divides c = true) : survives c = true := by
  simp only [divides, Bool.and_eq_true, Bool.not_eq_true', List.contains_eq_mem,
    decide_eq_false_iff_not, List.mem_cons, List.not_mem_nil, or_false, not_or] at dividing
  obtain ⟨⟨border, solid⟩, noColon, noBar, -, noMember, -⟩ := dividing
  exact survives_iff.mpr
    ⟨border, isSpaceOrTab_eq_false_of_isBlank solid, noColon, noBar, noMember⟩

theorem survives_eq_false_of_isWordChar {c : Char} (word : isWordChar c = true) :
    survives c = false := by simp [survives, word]

theorem Rule.Replaces.filter_apply {r : Rule} {w : Text} (replaces : r.Replaces w) (t : Text) :
    (r.apply t).filter survives = t.filter survives := by
  refine (rewrites_applyFrom replaces.wordWise.bounded none t).filter_eq ?_ ?_
  · intro c membership
    exact survives_eq_false_of_isWordChar (replaces.written c membership)
  · intro before first rest found c membership
    obtain ⟨rfl, -⟩ := replaces.of_matched found
    exact survives_eq_false_of_isWordChar (replaces.spelled c membership)

theorem typing_filter_apply (t : Text) :
    (typingRule.apply t).filter survives = t.filter survives := by
  refine (rewrites_applyFrom typing_wordWise.bounded none t).filter_eq (by simp [typingRule]) ?_
  intro before first rest found c membership
  by_contra kept
  obtain ⟨border, noSpace, noColon, noBar, -⟩ := survives_iff.mp (by simpa using kept)
  rcases (typing_matched?_eq_some found).1.mem membership with spacing | same | same | word
  · simp [noSpace] at spacing
  · exact noColon same
  · exact noBar same
  · simp [border] at word

theorem print_filter_apply (t : Text) :
    (printRule.apply t).filter survives = t.filter survives := by
  refine (rewrites_applyFrom print_wordWise.bounded none t).filter_eq
    (forall_mem_of_all (by decide)) ?_
  intro before first rest found c membership
  obtain ⟨rfl, -⟩ := print_matched?_eq_some found
  exact survives_eq_false_of_isWordChar (isWordChar_of_mem_printName membership)

/-- Lowering keeps the characters that no rule touches, in their order. -/
theorem filter_lower {P : Char → Bool} (untouched : ∀ c, P c = true → survives c = true) (t : Text) :
    (lower t).filter P = t.filter P := by
  have narrow : ∀ x : Text, x.filter P = (x.filter survives).filter P := by
    intro x
    rw [List.filter_filter]
    apply List.filter_congr
    intro c _
    cases chosen : P c with
    | false => rfl
    | true => simp [untouched c chosen]
  rw [narrow, narrow t, lower_eq, print_filter_apply, function_replaces.filter_apply,
    typing_filter_apply, mutable_replaces.filter_apply]

theorem count_lower {c : Char} (dividing : divides c = true) (t : Text) :
    (lower t).count c = t.count c := by
  have kept : (lower t).filter (· == c) = t.filter (· == c) := by
    apply filter_lower
    intro d same
    rw [beq_iff_eq.mp same]
    exact survives_of_divides dividing
  rw [List.count_eq_length_filter, kept, ← List.count_eq_length_filter]

theorem mem_of_mem_lower {c : Char} (dividing : divides c = true) {t : Text}
    (membership : c ∈ lower t) : c ∈ t := by
  rw [← List.count_pos_iff, count_lower dividing] at membership
  exact List.count_pos_iff.mp membership

/-- Annotations, one right behind the other. -/
inductive Annotations : Text → Prop
  | nil : Annotations []
  | cons {first more : Text} : Annotation first → Annotations more → Annotations (first ++ more)

theorem Annotations.wordEnds {t : Text} (spelled : Annotations t) : wordEnds t = true := by
  cases spelled with
  | nil => rfl
  | cons typed _ => exact typed.wordEnds_append _

/-- No bar follows where an annotation begins. -/
theorem Annotation.marked?_bar {t : Text} (typed : Annotation t) (rest : Text) :
    marked? '|' (t ++ rest) = none := by
  obtain ⟨named, spelled⟩ := typed
  rename_i first more
  cases named with
  | @intro gap space name spacing _ =>
    have split : gap ++ ':' :: (space ++ name.text) ++ more ++ rest =
        gap ++ ':' :: (space ++ name.text ++ more ++ rest) := by simp
    rw [split]
    exact marked?_of_other spacing (by simp [isSpaceOrTab]) (by simp)

theorem Annotations.marked?_bar {t : Text} (spelled : Annotations t) : marked? '|' t = none := by
  cases spelled with
  | nil => rfl
  | cons typed _ => exact typed.marked?_bar _

theorem annotations_of_rewrites {before : Option Char} {t out : Text}
    (walk : typingRule.Rewrites before t out) (erased : out = []) : Annotations t := by
  induction walk with
  | nil => exact .nil
  | copy => cases erased
  | replace _ found _ ih => exact .cons (typing_matched?_eq_some found).1 (ih erased)

/-- The rule on annotations makes nothing of annotations, and of nothing else. -/
theorem typing_applyFrom_eq_nil_iff {before : Option Char} {t : Text} :
    typingRule.applyFrom before t = [] ↔ Annotations t := by
  constructor
  · exact annotations_of_rewrites (rewrites_applyFrom typing_wordWise.bounded before t)
  · intro spelled
    induction spelled generalizing before with
    | nil => exact applyFrom_nil before
    | @cons first more typed others ih =>
      have found : typingRule.matched? before (first ++ more) = some first.length :=
        typing?_eq_some_iff.mpr
          ⟨first, more, rfl, rfl, typed, others.wordEnds, others.marked?_bar⟩
      rw [applyFrom_replace typed.ne_nil found, ih]
      rfl

theorem wordsFrom_named (inside : Bool) {mark : Char} (border : isWordChar mark = false) {t : Text}
    (named : Named mark t) : ∃ name : TypeName, wordsFrom inside t = [name.text] := by
  cases named with
  | @intro gap space name spacing spaceSpacing =>
    refine ⟨name, ?_⟩
    have split : gap ++ mark :: (space ++ name.text) = (gap ++ mark :: space) ++ name.text := by simp
    rw [split, wordsFrom_borders inside _ (by simp)]
    · cases name <;> decide
    · intro c membership
      simp only [List.mem_append, List.mem_cons] at membership
      rcases membership with inGap | rfl | inSpace
      · exact isWordChar_eq_false_of_isSpaceOrTab (spacing c inGap)
      · exact border
      · exact isWordChar_eq_false_of_isSpaceOrTab (spaceSpacing c inSpace)

def typeWords : List Text := TypeName.all.map TypeName.text

/-- All words of a text are names of primitive types. -/
def OnlyTypeNames (t : Text) : Prop := ∀ inside, ∀ w ∈ wordsFrom inside t, w ∈ typeWords

theorem OnlyTypeNames.append {x y : Text} (first : OnlyTypeNames x) (second : OnlyTypeNames y)
    (ends : wordEnds y = true) : OnlyTypeNames (x ++ y) := by
  intro inside w membership
  rw [wordsFrom_append inside true x ends] at membership
  rcases List.mem_append.mp membership with inFirst | inSecond
  · exact first inside w inFirst
  · exact second true w inSecond

theorem onlyTypeNames_named {mark : Char} (border : isWordChar mark = false) {t : Text}
    (named : Named mark t) : OnlyTypeNames t := by
  intro inside w membership
  obtain ⟨name, words⟩ := wordsFrom_named inside border named
  rw [words, List.mem_singleton] at membership
  subst membership
  cases name <;> decide

theorem onlyTypeNames_of_borders {t : Text} (border : ∀ c ∈ t, isWordChar c = false) :
    OnlyTypeNames t := by
  intro inside w membership
  by_cases filled : t = []
  · simp [filled, wordsFrom] at membership
  · have none := wordsFrom_borders inside [] filled border
    rw [List.append_nil] at none
    simp [none, wordsFrom] at membership

theorem Alternatives.wordEnds {t : Text} (spelled : Alternatives t) : wordEnds t = true := by
  cases spelled with
  | nil => rfl
  | cons named _ => exact named.wordEnds_append (by decide) _

theorem Alternatives.onlyTypeNames {t : Text} (spelled : Alternatives t) : OnlyTypeNames t := by
  induction spelled with
  | nil => exact onlyTypeNames_of_borders (by simp)
  | cons named more ih => exact (onlyTypeNames_named (by decide) named).append ih more.wordEnds

theorem Annotation.onlyTypeNames {t : Text} (typed : Annotation t) : OnlyTypeNames t := by
  obtain ⟨named, more⟩ := typed
  exact (onlyTypeNames_named (by decide) named).append more.onlyTypeNames more.wordEnds

theorem Annotations.onlyTypeNames {t : Text} (spelled : Annotations t) : OnlyTypeNames t := by
  induction spelled with
  | nil => exact onlyTypeNames_of_borders (by simp)
  | cons typed more ih => exact typed.onlyTypeNames.append ih more.wordEnds

/-- A word that is written into a text stands there, so a text without it was left alone. -/
theorem Rule.Rewrites.eq_of_not_mem_words {r : Rule} {w : Text} (replaces : r.Replaces w)
    {before : Option Char} {t out : Text} (walk : r.Rewrites before t out)
    (unwritten : r.replacement ∉ wordsFrom (inWord before) out) : out = t := by
  induction walk with
  | nil => rfl
  | @copy before c rest out _ _ ih =>
    congr 1
    apply ih
    intro membership
    apply unwritten
    obtain ⟨x, y, rfl, border, word, -⟩ := exists_split_of_mem_wordsFrom membership
    rw [← word]
    rw [← edge_cons before] at border
    exact mem_wordsOf_of_split (c :: x) y border (by rw [word]; exact replaces.writes)
  | @replace before first rest out present found walk _ =>
    obtain ⟨border, -⟩ := replaces.matched?_eq_some_iff.mp found
    obtain ⟨lastInside, restEnds⟩ := replaces.wordWise.ends _ _ _ present found
    have outEnds : wordEnds out = true := by
      rw [wordEnds_iff, walk.headWord_eq replaces.wordWise lastInside, wordEnds_iff.mp restEnds]
    have head : headWord (r.replacement ++ out) = r.replacement := by
      rw [headWord_append_of_wordEnds _ outEnds, headWord_of_word replaces.written]
    have written := mem_wordsOf_of_split [] (r.replacement ++ out) border
      (by rw [head]; exact replaces.writes)
    rw [head] at written
    exact absurd written unwritten

section

variable {r : Rule} {w : Text}

theorem Rule.Replaces.apply_of_onlyTypeNames (replaces : r.Replaces w) (foreign : w ∉ typeWords)
    {t : Text} (names : OnlyTypeNames t) : r.apply t = t := by
  apply applyFrom_of_quiet
  apply replaces.quiet_iff.mpr
  intro membership
  exact foreign (names _ w membership)

/-- A rule that writes another word does not make type names of anything. -/
theorem Rule.Replaces.apply_eq_of_onlyTypeNames (replaces : r.Replaces w)
    (foreign : r.replacement ∉ typeWords) {t : Text} (names : OnlyTypeNames (r.apply t)) : r.apply t = t := by
  have walk := rewrites_applyFrom replaces.wordWise.bounded none t
  apply walk.eq_of_not_mem_words replaces
  intro membership
  exact foreign (names _ _ membership)

end

theorem Rule.Rewrites.eq_nil {r : Rule} (filled : r.replacement ≠ []) {before : Option Char}
    {t out : Text} (walk : r.Rewrites before t out) (empty : out = []) : t = [] := by
  cases walk with
  | nil => rfl
  | copy => cases empty
  | replace => exact absurd (List.append_eq_nil_iff.mp empty).1 filled

/-- A text is lowered to nothing exactly if it is made of annotations. -/
theorem lower_eq_nil_iff {t : Text} : lower t = [] ↔ Annotations t := by
  rw [lower_eq]
  constructor
  · intro erased
    have unprinted := (rewrites_applyFrom print_wordWise.bounded none _).eq_nil (by decide) erased
    have untyped := (rewrites_applyFrom function_replaces.wordWise.bounded none _).eq_nil
      function_replaces.writes unprinted
    have spelled := typing_applyFrom_eq_nil_iff.mp untyped
    have same := mutable_replaces.apply_eq_of_onlyTypeNames (by decide) spelled.onlyTypeNames
    rwa [same] at spelled
  · intro spelled
    have erased : typingRule.apply t = [] := typing_applyFrom_eq_nil_iff.mpr spelled
    rw [mutable_replaces.apply_of_onlyTypeNames (by decide) spelled.onlyTypeNames, erased]
    rw [apply_nil, apply_nil]

/-- Lowering brings a dividing character to the front if annotations alone stand before it. -/
theorem head?_lower_eq_some_iff {c : Char} (dividing : divides c = true) {t : Text} :
    (lower t).head? = some c ↔ ∃ erased tail, t = erased ++ c :: tail ∧ Annotations erased := by
  constructor
  · intro head
    have present : c ∈ t := mem_of_mem_lower dividing (List.mem_of_head? head)
    obtain ⟨x, y, rfl, first⟩ := List.eq_append_cons_of_mem present
    refine ⟨x, y, rfl, lower_eq_nil_iff.mp ?_⟩
    rw [lower_append_cons dividing] at head
    cases front : lower x with
    | nil => rfl
    | cons d rest =>
      rw [front, List.cons_append, List.head?_cons, Option.some.injEq] at head
      have copied : c ∈ lower x := by simp [front, head]
      exact absurd (mem_of_mem_lower dividing copied) first
  · rintro ⟨erased, tail, rfl, spelled⟩
    rw [lower_append_cons dividing, lower_eq_nil_iff.mpr spelled]
    rfl

end TypedScript.Lowering
