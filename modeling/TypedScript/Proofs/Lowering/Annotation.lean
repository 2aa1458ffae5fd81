import TypedScript.Proofs.Lowering.Word

set_option autoImplicit false

/-!
The annotations that are taken out of a text, given by their form. The matcher
finds the longest annotation at a place, and finds one wherever one stands.
-/

namespace TypedScript.Lowering

/-- A text of spaces and tabs. -/
def Spacing (t : Text) : Prop := ∀ c ∈ t, isSpaceOrTab c = true

/-- A mark with the name of a primitive type behind it, and spacing around the mark. -/
inductive Named (mark : Char) : Text → Prop
  | intro {gap space : Text} (name : TypeName) :
      Spacing gap → Spacing space → Named mark (gap ++ mark :: (space ++ name.text))

/-- Further names, each behind a bar. -/
inductive Alternatives : Text → Prop
  | nil : Alternatives []
  | cons {first more : Text} :
      Named '|' first → Alternatives more → Alternatives (first ++ more)

/-- A colon with a name behind it, and further names behind bars. -/
inductive Annotation : Text → Prop
  | intro {first more : Text} :
      Named ':' first → Alternatives more → Annotation (first ++ more)

theorem isWordChar_of_mem_text {name : TypeName} {c : Char} (membership : c ∈ name.text) :
    isWordChar c = true := by
  have letters : name.text.all isWordChar = true := by cases name <;> decide
  exact List.all_eq_true.mp letters c membership

theorem isWordChar_eq_false_of_isSpaceOrTab {c : Char} (spacing : isSpaceOrTab c = true) :
    isWordChar c = false := by
  simp only [isSpaceOrTab, Bool.or_eq_true, beq_iff_eq] at spacing
  rcases spacing with rfl | rfl <;> decide

theorem isSpaceOrTab_eq_false_of_isWordChar {c : Char} (word : isWordChar c = true) :
    isSpaceOrTab c = false := by
  cases spacing : isSpaceOrTab c with
  | false => rfl
  | true => simp [isWordChar_eq_false_of_isSpaceOrTab spacing] at word

theorem text_ne_nil (name : TypeName) : name.text ≠ [] := by cases name <;> simp [TypeName.text]

theorem Named.mem {mark c : Char} {t : Text} (named : Named mark t) (membership : c ∈ t) :
    isSpaceOrTab c = true ∨ c = mark ∨ isWordChar c = true := by
  obtain ⟨name, gapSpacing, spaceSpacing⟩ := named
  simp only [List.mem_append, List.mem_cons] at membership
  rcases membership with inGap | rfl | inSpace | inName
  · exact .inl (gapSpacing c inGap)
  · exact .inr (.inl rfl)
  · exact .inl (spaceSpacing c inSpace)
  · exact .inr (.inr (isWordChar_of_mem_text inName))

theorem Named.ne_nil {mark : Char} {t : Text} (named : Named mark t) : t ≠ [] := by
  obtain ⟨name, -⟩ := named
  simp

/-- What is named ends in a letter of the name. -/
theorem Named.inWord_edge {mark : Char} {t : Text} (named : Named mark t) (before : Option Char) :
    inWord (edge before t) = true := by
  cases named with
  | @intro gap space name =>
    have filled := text_ne_nil name
    have letter := isWordChar_of_mem_text (List.getLast_mem filled)
    rw [edge_append, edge_cons, edge_append, edge_of_ne_nil _ filled,
      List.getLast?_eq_some_getLast filled]
    simp [inWord, letter]

theorem Named.wordEnds_append {mark : Char} (border : isWordChar mark = false) {t : Text}
    (named : Named mark t) (rest : Text) : wordEnds (t ++ rest) = true := by
  cases named with
  | @intro gap space name gapSpacing =>
    cases gap with
    | nil => exact wordEnds_cons.mpr border
    | cons c gap =>
      exact wordEnds_cons.mpr (isWordChar_eq_false_of_isSpaceOrTab (gapSpacing c (by simp)))

theorem spaces_append {gap : Text} (rest : Text) (spacing : Spacing gap)
    (solid : ∀ c ∈ rest.head?, isSpaceOrTab c = false) : spaces (gap ++ rest) = gap.length := by
  have ends : rest.takeWhile isSpaceOrTab = [] := by
    cases rest with
    | nil => rfl
    | cons c rest => simp [solid c (by simp)]
  rw [spaces, List.takeWhile_append_of_pos spacing, ends, List.append_nil]

/-- Every text is spacing and something that does not begin with spacing. -/
theorem exists_spacing_split (t : Text) :
    ∃ gap rest, t = gap ++ rest ∧ Spacing gap ∧ ∀ c ∈ rest.head?, isSpaceOrTab c = false := by
  refine ⟨t.takeWhile isSpaceOrTab, t.dropWhile isSpaceOrTab,
    List.takeWhile_append_dropWhile.symm, ?_, ?_⟩
  · intro c membership
    exact List.all_eq_true.mp List.all_takeWhile c membership
  · intro c first
    have dropped := List.head?_dropWhile_not isSpaceOrTab t
    rw [Option.mem_def.mp first] at dropped
    simpa using dropped

/-- A primitive name is found where it is the word at the place. -/
theorem primitive?_eq_some_iff {ahead : Text} {n : Nat} :
    primitive? ahead = some n ↔ ∃ name : TypeName, headWord ahead = name.text ∧ name.text.length = n := by
  have tested : ∀ name : TypeName,
      (name.text.isPrefixOf ahead && wordEnds (ahead.drop name.text.length)) =
        decide (headWord ahead = name.text) := by
    intro name
    rw [Bool.eq_iff_iff, decide_eq_true_iff, headWord_eq_iff fun _ => isWordChar_of_mem_text,
      Bool.and_eq_true]
  simp only [primitive?, tested, Option.map_eq_some_iff]
  constructor
  · rintro ⟨name, found, length⟩
    exact ⟨name, by simpa using List.find?_some found, length⟩
  · rintro ⟨name, same, length⟩
    refine ⟨name, ?_, length⟩
    rw [same]
    cases name <;> decide

theorem marked?_of_mark {mark : Char} (solid : isSpaceOrTab mark = false) {gap : Text} (rest : Text)
    (spacing : Spacing gap) :
    marked? mark (gap ++ mark :: rest) =
      (primitive? (rest.drop (spaces rest))).map fun n => gap.length + 1 + spaces rest + n := by
  have lead : spaces (gap ++ mark :: rest) = gap.length :=
    spaces_append _ spacing (by simpa using solid)
  simp [marked?, lead]

theorem marked?_of_other {mark : Char} {gap rest : Text} (spacing : Spacing gap)
    (solid : ∀ c ∈ rest.head?, isSpaceOrTab c = false) (other : rest.head? ≠ some mark) :
    marked? mark (gap ++ rest) = none := by
  have lead : spaces (gap ++ rest) = gap.length := spaces_append _ spacing solid
  cases rest with
  | nil => simp only [marked?, lead, List.drop_left]
  | cons c rest =>
    have differs : c ≠ mark := by simpa using other
    simp [marked?, lead, differs]

/-- The matcher of a mark finds what is named by the mark, if the word ends there. -/
theorem marked?_eq_some_iff {mark : Char} (solid : isSpaceOrTab mark = false) {ahead : Text}
    {n : Nat} :
    marked? mark ahead = some n ↔
      ∃ first rest, ahead = first ++ rest ∧ first.length = n ∧ Named mark first ∧
        wordEnds rest = true := by
  constructor
  · intro found
    obtain ⟨gap, tail, rfl, spacing, solidTail⟩ := exists_spacing_split ahead
    by_cases marked : tail.head? = some mark
    · obtain ⟨rest, rfl⟩ := List.head?_eq_some_iff.mp marked
      obtain ⟨space, word, rfl, spaceSpacing, solidWord⟩ := exists_spacing_split rest
      rw [marked?_of_mark solid _ spacing, spaces_append word spaceSpacing solidWord,
        List.drop_left] at found
      obtain ⟨m, primitive, rfl⟩ := Option.map_eq_some_iff.mp found
      obtain ⟨name, head, rfl⟩ := primitive?_eq_some_iff.mp primitive
      obtain ⟨front, ends⟩ := (headWord_eq_iff fun _ => isWordChar_of_mem_text).mp head
      obtain ⟨last, rfl⟩ := List.isPrefixOf_iff_prefix.mp front
      rw [List.drop_left] at ends
      refine ⟨gap ++ mark :: (space ++ name.text), last, by simp, ?_,
        .intro name spacing spaceSpacing, ends⟩
      simp only [List.length_append, List.length_cons]
      omega
    · simp [marked?_of_other spacing solidTail marked] at found
  · rintro ⟨first, rest, rfl, rfl, named, ends⟩
    cases named with
    | @intro gap space name spacing spaceSpacing =>
      have head : headWord (name.text ++ rest) = name.text := by
        rw [headWord_append_of_wordEnds _ ends, headWord_of_word fun _ => isWordChar_of_mem_text]
      have solidName : ∀ c ∈ (name.text ++ rest).head?, isSpaceOrTab c = false := by
        intro c first
        obtain ⟨d, tail, split⟩ := List.exists_cons_of_ne_nil (text_ne_nil name)
        have letter : isWordChar d = true := isWordChar_of_mem_text (by rw [split]; simp)
        rw [split, List.cons_append, List.head?_cons, Option.mem_some_iff] at first
        exact isSpaceOrTab_eq_false_of_isWordChar (first ▸ letter)
      have split : gap ++ mark :: (space ++ name.text) ++ rest =
          gap ++ (mark :: (space ++ (name.text ++ rest))) := by simp
      rw [split, marked?_of_mark solid _ spacing, spaces_append _ spaceSpacing solidName,
        List.drop_left, primitive?_eq_some_iff.mpr ⟨name, head, rfl⟩]
      simp only [Option.map_some, List.length_append, List.length_cons, Option.some.injEq]
      omega

theorem alternatives_of_none {t : Text} (unmarked : marked? '|' t = none) : alternatives t = 0 := by
  cases t with
  | nil => rw [alternatives]
  | cons c rest => rw [alternatives, unmarked]

theorem alternatives_of_named {first : Text} {rest : Text} (named : Named '|' first)
    (ends : wordEnds rest = true) :
    alternatives (first ++ rest) = first.length + alternatives rest := by
  have found : marked? '|' (first ++ rest) = some first.length :=
    (marked?_eq_some_iff (by decide)).mpr ⟨first, rest, rfl, rfl, named, ends⟩
  cases first with
  | nil => exact absurd rfl named.ne_nil
  | cons c first =>
    rw [List.cons_append] at found ⊢
    rw [alternatives, found]
    simp

theorem Alternatives.wordEnds_append {more rest : Text} (spelled : Alternatives more)
    (ends : wordEnds rest = true) : wordEnds (more ++ rest) = true := by
  cases spelled with
  | nil => exact ends
  | cons named _ =>
    rw [List.append_assoc]
    exact named.wordEnds_append (by decide) _

/-- At the end of a word, the further names are taken as far as they go. -/
theorem exists_alternatives_split {t : Text} (ends : wordEnds t = true) :
    ∃ more rest, t = more ++ rest ∧ more.length = alternatives t ∧ Alternatives more ∧
      wordEnds rest = true ∧ marked? '|' rest = none := by
  induction size : t.length using Nat.strongRecOn generalizing t with
  | ind bound ih =>
    cases found : marked? '|' t with
    | none => exact ⟨[], t, rfl, (alternatives_of_none found).symm, .nil, ends, found⟩
    | some n =>
      obtain ⟨first, rest, rfl, -, named, restEnds⟩ := (marked?_eq_some_iff (by decide)).mp found
      have shorter : rest.length < bound := by
        rw [← size, List.length_append]
        have := List.length_pos_iff.mpr named.ne_nil
        omega
      obtain ⟨more, last, rfl, length, spelled, lastEnds, stops⟩ := ih _ shorter restEnds rfl
      refine ⟨first ++ more, last, by simp, ?_, .cons named spelled, lastEnds, stops⟩
      rw [alternatives_of_named named restEnds, ← length, List.length_append]

theorem alternatives_append {more rest : Text} (spelled : Alternatives more)
    (ends : wordEnds rest = true) (stops : marked? '|' rest = none) :
    alternatives (more ++ rest) = more.length := by
  induction spelled with
  | nil => exact alternatives_of_none stops
  | @cons first more named spelled ih =>
    rw [List.append_assoc, alternatives_of_named named (spelled.wordEnds_append ends), ih,
      List.length_append]

/-- The matcher finds an annotation as long as it can be: the word ends behind it, and no further
name follows. -/
theorem typing?_eq_some_iff {ahead : Text} {n : Nat} :
    typing? ahead = some n ↔
      ∃ found rest, ahead = found ++ rest ∧ found.length = n ∧ Annotation found ∧
        wordEnds rest = true ∧ marked? '|' rest = none := by
  simp only [typing?, Option.map_eq_some_iff]
  constructor
  · rintro ⟨m, marked, rfl⟩
    obtain ⟨first, tail, rfl, rfl, named, ends⟩ := (marked?_eq_some_iff (by decide)).mp marked
    obtain ⟨more, rest, rfl, length, spelled, restEnds, stops⟩ := exists_alternatives_split ends
    refine ⟨first ++ more, rest, by simp, ?_, .intro named spelled, restEnds, stops⟩
    rw [List.drop_left, ← length, List.length_append]
  · rintro ⟨found, rest, rfl, rfl, ⟨named, spelled⟩, ends, stops⟩
    rename_i first more
    refine ⟨first.length, (marked?_eq_some_iff (by decide)).mpr
      ⟨first, more ++ rest, by simp, rfl, named, spelled.wordEnds_append ends⟩, ?_⟩
    rw [List.append_assoc, List.drop_left, alternatives_append spelled ends stops,
      List.length_append]

/-- An annotation stands in a text with the end of a word behind it. -/
def Annotated (t : Text) : Prop :=
  ∃ before found rest, t = before ++ (found ++ rest) ∧ Annotation found ∧ wordEnds rest = true

/-- Wherever an annotation stands, one is found. -/
theorem typing?_isSome_of_annotation {found : Text} (rest : Text) (typed : Annotation found)
    (ends : wordEnds rest = true) : ∃ n, typing? (found ++ rest) = some n := by
  obtain ⟨named, spelled⟩ := typed
  rename_i first more
  have marked : marked? ':' (first ++ more ++ rest) = some first.length :=
    (marked?_eq_some_iff (by decide)).mpr
      ⟨first, more ++ rest, by simp, rfl, named, spelled.wordEnds_append ends⟩
  exact ⟨_, by rw [typing?, marked, Option.map_some]⟩

theorem annotated_iff {t : Text} :
    Annotated t ↔ ∃ before ahead n, t = before ++ ahead ∧ typing? ahead = some n := by
  constructor
  · rintro ⟨before, found, rest, rfl, typed, ends⟩
    obtain ⟨n, matched⟩ := typing?_isSome_of_annotation rest typed ends
    exact ⟨before, found ++ rest, n, rfl, matched⟩
  · rintro ⟨before, ahead, n, rfl, matched⟩
    obtain ⟨found, rest, rfl, -, typed, ends, -⟩ := typing?_eq_some_iff.mp matched
    exact ⟨before, found, rest, rfl, typed, ends⟩

theorem Alternatives.mem {t : Text} (spelled : Alternatives t) {c : Char} (membership : c ∈ t) :
    isSpaceOrTab c = true ∨ c = '|' ∨ isWordChar c = true := by
  induction spelled with
  | nil => simp at membership
  | cons named _ ih =>
    rcases List.mem_append.mp membership with inFirst | later
    · exact named.mem inFirst
    · exact ih later

theorem Alternatives.inWord_edge {t : Text} (spelled : Alternatives t) {before : Option Char}
    (inside : inWord before = true) : inWord (edge before t) = true := by
  induction spelled generalizing before with
  | nil => exact inside
  | cons named _ ih =>
    rw [edge_append]
    exact ih (named.inWord_edge before)

theorem Annotation.mem {t : Text} (typed : Annotation t) {c : Char} (membership : c ∈ t) :
    isSpaceOrTab c = true ∨ c = ':' ∨ c = '|' ∨ isWordChar c = true := by
  obtain ⟨named, spelled⟩ := typed
  rcases List.mem_append.mp membership with inFirst | later
  · rcases named.mem inFirst with spacing | rfl | word
    · exact .inl spacing
    · exact .inr (.inl rfl)
    · exact .inr (.inr (.inr word))
  · exact (spelled.mem later).imp_right .inr

theorem Annotation.ne_nil {t : Text} (typed : Annotation t) : t ≠ [] := by
  obtain ⟨named, -⟩ := typed
  simp [named.ne_nil]

theorem Annotation.inWord_edge {t : Text} (typed : Annotation t) (before : Option Char) :
    inWord (edge before t) = true := by
  obtain ⟨named, spelled⟩ := typed
  rw [edge_append]
  exact spelled.inWord_edge (named.inWord_edge before)

theorem Annotation.wordEnds_append {t : Text} (typed : Annotation t) (rest : Text) :
    wordEnds (t ++ rest) = true := by
  obtain ⟨named, -⟩ := typed
  rw [List.append_assoc]
  exact named.wordEnds_append (by decide) _

theorem Annotation.colon_mem {t : Text} (typed : Annotation t) : ':' ∈ t := by
  obtain ⟨⟨name, -⟩, -⟩ := typed
  simp

end TypedScript.Lowering
