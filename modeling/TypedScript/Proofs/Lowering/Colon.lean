import TypedScript.Proofs.Lowering.Erasure

set_option autoImplicit false

/-!
What the rule on annotations leaves of a text around a colon: the text in front
of it, and only blanks of the rest exactly if type names that the rule knows
stand there.
-/

namespace TypedScript.Lowering

open Rule

/-- An annotation, and nothing but blanks behind it. -/
def BareAnnotation (t : Text) : Prop :=
  ∃ typed behind, t = typed ++ behind ∧ Annotation typed ∧
    ∀ c ∈ behind, isBlank c = true

theorem onlyTypeNames_of_blank {t : Text} (blank : ∀ c ∈ t, isBlank c = true) : OnlyTypeNames t :=
  onlyTypeNames_of_borders (border_of_blank blank)

theorem marked?_bar_of_blank {t : Text} (blank : ∀ c ∈ t, isBlank c = true) :
    marked? '|' t = none := by
  obtain ⟨gap, rest, rfl, spacing, solid⟩ := exists_spacing_split t
  apply marked?_of_other spacing solid
  intro bar
  have barBlank := blank '|' (List.mem_append_right gap (List.mem_of_head? bar))
  exact absurd barBlank (by decide)

theorem BareAnnotation.onlyTypeNames {t : Text} (bare : BareAnnotation t) : OnlyTypeNames t := by
  obtain ⟨typed, behind, rfl, spelled, blank⟩ := bare
  exact spelled.onlyTypeNames.append (onlyTypeNames_of_blank blank) (wordEnds_of_blank blank)

/-- The rule on the word `mut` neither makes nor breaks an annotation. -/
theorem bareAnnotation_mutable_iff {t : Text} :
    BareAnnotation (mutableRule.apply t) ↔ BareAnnotation t := by
  constructor
  · intro bare
    rwa [mutable_replaces.apply_eq_of_onlyTypeNames (by decide) bare.onlyTypeNames] at bare
  · intro bare
    rwa [mutable_replaces.apply_of_onlyTypeNames (by decide) bare.onlyTypeNames]

theorem typing?_of_bareAnnotation {typed behind : Text} (spelled : Annotation typed)
    (blank : ∀ c ∈ behind, isBlank c = true) :
    typing? (typed ++ behind) = some typed.length :=
  typing?_eq_some_iff.mpr ⟨typed, behind, rfl, rfl, spelled, wordEnds_of_blank blank,
    marked?_bar_of_blank blank⟩

/-- The spaces before a colon make no difference to whether an annotation is found at it. -/
theorem typing?_spacing {gap : Text} (t : Text) (spacing : Spacing gap) :
    typing? (gap ++ ':' :: t) = (typing? (':' :: t)).map (gap.length + ·) := by
  have solid : isSpaceOrTab ':' = false := by decide
  have alone : marked? ':' ([] ++ ':' :: t) = _ := marked?_of_mark solid t (by simp [Spacing])
  rw [List.nil_append] at alone
  rw [typing?, typing?, marked?_of_mark solid t spacing, alone]
  cases primitive? (t.drop (spaces t)) with
  | none => rfl
  | some n =>
    simp only [Option.map_some, Option.some.injEq, List.length_nil, Nat.zero_add]
    have dropped : (gap ++ ':' :: t).drop (gap.length + 1 + spaces t + n) =
        (':' :: t).drop (1 + spaces t + n) := by
      rw [show gap.length + 1 + spaces t + n = gap.length + (1 + spaces t + n) by omega,
        List.drop_length_add_append]
    rw [dropped]
    omega

/-- The rule does not look at what stands in front of a place. -/
theorem typing_applyFrom_eq (before : Option Char) (t : Text) :
    typingRule.applyFrom before t = typingRule.apply t := applyFrom_congr rfl

/-- What stands in front of a colon, up to the spaces before it, is copied. -/
theorem typing_apply_append {x : Text} (y : Text) (noColon : ':' ∉ x)
    (solid : ∀ c ∈ x.getLast?, isSpaceOrTab c = false) :
    typingRule.apply (x ++ y) = x ++ typingRule.apply y := by
  rw [← typing_applyFrom_eq (edge none x) y]
  apply applyFrom_append_of_unmatched
  rintro p q rfl filled
  cases matched : typingRule.matched? (edge none p) (q ++ y) with
  | none => rfl
  | some n =>
    obtain ⟨found, rest, split, -, ⟨named, -⟩, -⟩ := typing?_eq_some_iff.mp matched
    cases named with
    | @intro gap space name spacing _ =>
      have lastInside : q.getLast filled ∈ q := List.getLast_mem filled
      have noSpace : isSpaceOrTab (q.getLast filled) = false :=
        solid _ (by simp [List.getLast?_append, List.getLast?_eq_some_getLast filled])
      have notInGap : q.getLast filled ∉ gap := by
        intro membership
        simp [spacing _ membership] at noSpace
      rw [List.append_assoc, List.append_assoc, List.cons_append] at split
      -- The match would begin with spaces up to the end of `q`, or hold a colon of `q`.
      rcases List.append_eq_append_iff.mp split with ⟨k, inside, -⟩ | ⟨k, ends, behind⟩
      · exact absurd (inside ▸ List.mem_append_left k lastInside) notInGap
      · cases k with
        | nil =>
          rw [List.append_nil] at ends
          exact absurd (ends ▸ lastInside) notInGap
        | cons c k =>
          obtain ⟨rfl, -⟩ := List.cons.inj behind
          exact absurd (by simp [ends]) noColon

theorem not_annotated_of_not_mem {t : Text} (noColon : ':' ∉ t) : ¬ Annotated t := by
  rintro ⟨before, found, rest, rfl, typed, -⟩
  exact noColon (by simp [typed.colon_mem])

theorem typing_apply_eq_self {t : Text} (noColon : ':' ∉ t) : typingRule.apply t = t :=
  applyFrom_of_quiet (typing_quiet_iff.mpr (not_annotated_of_not_mem noColon))

/-- At the only colon of a text, an annotation that is not found at the colon is not found. -/
theorem not_annotated_of_typing?_eq_none {gap t : Text} (spacing : Spacing gap) (noColon : ':' ∉ t)
    (nothing : typing? (':' :: t) = none) : ¬ Annotated (gap ++ ':' :: t) := by
  rw [annotated_iff]
  rintro ⟨front, ahead, n, split, found⟩
  obtain ⟨typed, rest, same, -, spelled, -⟩ := typing?_eq_some_iff.mp found
  have colon : ':' ∈ ahead := by simp [same, spelled.colon_mem]
  rcases List.append_eq_append_iff.mp split with ⟨k, rfl, behind⟩ | ⟨k, rfl, rfl⟩
  · cases k with
    | nil =>
      rw [List.nil_append] at behind
      rw [← behind, nothing] at found
      cases found
    | cons c k =>
      obtain ⟨-, rfl⟩ := List.cons.inj behind
      exact noColon (List.mem_append_right k colon)
  · have inside : Spacing k := fun c membership => spacing c (List.mem_append_right front membership)
    rw [typing?_spacing t inside, nothing] at found
    cases found

/-- Behind the rule only blanks are left of a colon and its type names exactly if they are an
annotation with blanks behind it. -/
theorem typing_apply_spacing_blank_iff {gap t : Text} (spacing : Spacing gap) (noColon : ':' ∉ t) :
    (∀ c ∈ typingRule.apply (gap ++ ':' :: t), isBlank c = true) ↔
      BareAnnotation (':' :: t) := by
  cases found : typing? (':' :: t) with
  | none =>
    have kept : typingRule.apply (gap ++ ':' :: t) = gap ++ ':' :: t :=
      applyFrom_of_quiet
        (typing_quiet_iff.mpr (not_annotated_of_typing?_eq_none spacing noColon found))
    rw [kept]
    constructor
    · intro blank
      exact absurd (blank ':' (by simp)) (by decide)
    · rintro ⟨typed, behind, same, spelled, blank⟩
      rw [same, typing?_of_bareAnnotation spelled blank] at found
      cases found
  | some n =>
    obtain ⟨typed, rest, split, rfl, spelled, -⟩ := typing?_eq_some_iff.mp found
    have matched : typingRule.matched? none ((gap ++ typed) ++ rest) =
        some (gap ++ typed).length := by
      change typing? _ = _
      rw [List.append_assoc, ← split, typing?_spacing t spacing, found, Option.map_some,
        List.length_append]
    have restPlain : ':' ∉ rest := by
      obtain ⟨c, others, rfl⟩ := List.exists_cons_of_ne_nil spelled.ne_nil
      obtain ⟨-, rfl⟩ := List.cons.inj split
      exact fun membership => noColon (List.mem_append_right others membership)
    have erased : typingRule.apply (gap ++ ':' :: t) = rest := by
      rw [split, ← List.append_assoc, Rule.apply,
        applyFrom_replace (by simp [spelled.ne_nil]) matched, typing_applyFrom_eq,
        typing_apply_eq_self restPlain]
      rfl
    rw [erased]
    constructor
    · intro blank
      exact ⟨typed, rest, split, spelled, blank⟩
    · rintro ⟨other, behind, same, otherSpelled, blank⟩
      have length := typing?_of_bareAnnotation otherSpelled blank
      rw [← same, found, Option.some.injEq] at length
      obtain ⟨-, rfl⟩ := List.append_inj (split.symm.trans same) length
      exact blank

theorem typing_apply_wordEnds {t : Text} (ends : wordEnds t = true) :
    wordEnds (typingRule.apply t) = true := by
  -- What stands in front may as well be a letter.
  have walk := rewrites_applyFrom typing_wordWise.bounded (some 'a') t
  rw [← typing_applyFrom_eq (some 'a') t, wordEnds_iff, walk.headWord_eq typing_wordWise rfl,
    wordEnds_iff.mp ends]

theorem exists_trailing_spacing (t : Text) :
    ∃ front gap, t = front ++ gap ∧ Spacing gap ∧ ∀ c ∈ front.getLast?, isSpaceOrTab c = false := by
  obtain ⟨gap, rest, split, spacing, solid⟩ := exists_spacing_split t.reverse
  refine ⟨rest.reverse, gap.reverse, ?_, ?_, ?_⟩
  · rw [← List.reverse_append, ← split, List.reverse_reverse]
  · intro c membership
    exact spacing c (List.mem_reverse.mp membership)
  · rwa [List.getLast?_reverse]

/-- Other blanks than spaces and tabs may stand in front of the colon too. -/
theorem typing_apply_blank_iff {space t : Text} (blank : ∀ c ∈ space, isBlank c = true)
    (noColon : ':' ∉ t) :
    (∀ c ∈ typingRule.apply (space ++ ':' :: t), isBlank c = true) ↔ BareAnnotation (':' :: t) := by
  obtain ⟨front, gap, rfl, spacing, solid⟩ := exists_trailing_spacing space
  have frontBlank : ∀ c ∈ front, isBlank c = true := fun c membership =>
    blank c (List.mem_append_left gap membership)
  have frontPlain : ':' ∉ front := fun membership => absurd (frontBlank _ membership) (by decide)
  have copied : typingRule.apply (front ++ gap ++ ':' :: t) =
      front ++ typingRule.apply (gap ++ ':' :: t) := by
    rw [List.append_assoc, typing_apply_append _ frontPlain solid]
  rw [copied, ← typing_apply_spacing_blank_iff spacing noColon]
  constructor
  · intro allBlank c membership
    exact allBlank c (List.mem_append_right front membership)
  · intro restBlank c membership
    rcases List.mem_append.mp membership with inFront | later
    · exact frontBlank c inFront
    · exact restBlank c later

end TypedScript.Lowering
