import TypedScript.Proofs.Line.Layout
import TypedScript.Proofs.Lowering.Colon

set_option autoImplicit false

/-!
Lowering a declaration. The checker takes any type names and any blanks between
the name and the equals sign, and lowering erases the four primitive types
between spaces and tabs. The lowered text declares the same name exactly if the
two agree on the annotation, the name holds no word that is replaced, and no
comparison or arrow comes to stand right behind the equals sign.
-/

namespace TypedScript.Lowering

open Rule

/-- A rule that writes a name makes names of names. -/
theorem Rule.Rewrites.isName {r : Rule} (written : Token.IsName r.replacement)
    {before : Option Char} {t out : Text} (walk : r.Rewrites before t out)
    (name : Token.IsName t) : Token.IsName out := by
  have parts : ∀ c ∈ out, Token.isIdentPart c = true := by
    intro c membership
    rcases walk.mem membership with old | new
    · exact name.isIdentPart old
    · exact written.isIdentPart new
  cases walk with
  | nil => exact name
  | @copy _ c rest out _ _ =>
    obtain ⟨d, others, same, start, -⟩ := name
    obtain ⟨rfl, rfl⟩ := List.cons.inj same
    refine ⟨c, out, rfl, start, ?_⟩
    intro d membership
    exact parts d (List.mem_cons_of_mem c membership)
  | @replace _ first rest out _ _ _ =>
    obtain ⟨d, others, same, start, -⟩ := written
    rw [same, List.cons_append] at parts ⊢
    refine ⟨d, others ++ out, rfl, start, ?_⟩
    intro e membership
    exact parts e (List.mem_cons_of_mem d membership)

/-- What a name becomes. -/
def lowerName (name : Text) : Text := functionRule.apply (mutableRule.apply name)

/-- A name is kept exactly if it holds no word that is replaced. -/
theorem lowerName_eq_iff {name : Text} :
    lowerName name = name ↔ ['m', 'u', 't'] ∉ wordsOf name ∧ ['f', 'n'] ∉ wordsOf name := by
  constructor
  · intro kept
    rw [← kept]
    constructor
    · apply function_replaces.wordWise.not_mem_wordsOf_apply (by decide)
      exact mutable_replaces.not_mem_wordsOf_apply (by decide) name
    · exact function_replaces.not_mem_wordsOf_apply (by decide) _
  · rintro ⟨noMut, noFn⟩
    have first : mutableRule.apply name = name :=
      applyFrom_of_quiet (mutable_replaces.quiet_iff.mpr noMut)
    rw [lowerName, first]
    exact applyFrom_of_quiet (function_replaces.quiet_iff.mpr noFn)

theorem isName_mutable_apply {name : Text} (isName : Token.IsName name) :
    Token.IsName (mutableRule.apply name) := by
  have walk := rewrites_applyFrom mutable_replaces.wordWise.bounded none name
  exact walk.isName (Line.isName_word .plain) isName

theorem isName_lowerName {name : Text} (isName : Token.IsName name) :
    Token.IsName (lowerName name) := by
  have walk := rewrites_applyFrom function_replaces.wordWise.bounded none (mutableRule.apply name)
  have written : Token.IsName functionRule.replacement :=
    ⟨'f', ['u', 'n', 'c', 't', 'i', 'o', 'n'], rfl, by decide, List.all_eq_true.mp (by decide)⟩
  exact walk.isName written (isName_mutable_apply isName)

theorem length_le_lowerName (name : Text) : name.length ≤ (lowerName name).length := by
  have first := rewrites_applyFrom mutable_replaces.wordWise.bounded none name
  have second := rewrites_applyFrom function_replaces.wordWise.bounded none (mutableRule.apply name)
  calc name.length
      ≤ (mutableRule.apply name).length := first.length_le mutable_replaces (by decide)
    _ ≤ (lowerName name).length := second.length_le function_replaces (by decide)

/-- The word that opens a lowered declaration. -/
def loweredBinding : Binding → Binding
  | .mutable => .plain
  | b => b

theorem lowerName_word (b : Binding) : lowerName b.word = (loweredBinding b).word := by
  cases b <;> decide +kernel

theorem function_apply_blank_iff {t : Text} :
    (∀ c ∈ functionRule.apply t, isBlank c = true) ↔ ∀ c ∈ t, isBlank c = true := by
  constructor
  · intro blank
    rwa [function_replaces.apply_eq_of_onlyTypeNames (by decide) (onlyTypeNames_of_blank blank)]
      at blank
  · intro blank
    rwa [function_replaces.apply_of_onlyTypeNames (by decide) (onlyTypeNames_of_blank blank)]

/-- A name and what stands in front of it are copied by the rule on annotations. -/
theorem typing_apply_name {x name : Text} (y : Text) (noColon : ':' ∉ x) (isName : Token.IsName name) :
    typingRule.apply (x ++ (name ++ y)) = x ++ (name ++ typingRule.apply y) := by
  have parts : ∀ c ∈ name, isBlank c = false := fun c membership =>
    isBlank_eq_false_of_isIdentPart (isName.isIdentPart membership)
  have noColonCopied : ':' ∉ x ++ name := by
    intro membership
    rcases List.mem_append.mp membership with inFront | inName
    · exact noColon inFront
    · exact absurd (isName.isIdentPart inName) (by decide)
  have solid : ∀ c ∈ (x ++ name).getLast?, isSpaceOrTab c = false := by
    intro c last
    have filled := isName.ne_nil
    rw [List.getLast?_append, List.getLast?_eq_some_getLast filled, Option.some_or,
      Option.mem_some_iff] at last
    exact isSpaceOrTab_eq_false_of_isBlank (parts c (last ▸ List.getLast_mem filled))
  rw [← List.append_assoc, typing_apply_append y noColonCopied solid, List.append_assoc]

/-- A colon and type names, with blanks before them, are lowered to blanks exactly if they are an
annotation with blanks behind it. -/
theorem lower_colon_blank_iff {space union : Text} (blank : ∀ c ∈ space, isBlank c = true)
    (noColon : ':' ∉ union) (noCall : '(' ∉ union) :
    (∀ c ∈ lower (space ++ ':' :: union), isBlank c = true) ↔ BareAnnotation (':' :: union) := by
  have border := border_of_blank blank
  have colon : mutableRule.apply ([':'] ++ union) = [':'] ++ mutableRule.apply union :=
    mutable_replaces.apply_borders union (by simp only [List.mem_singleton, forall_eq]; decide)
  have stillPlain : ':' ∉ mutableRule.apply union := fun membership =>
    noColon (mem_of_mem_apply mutable_replaces.wordWise.bounded (by decide) membership)
  have noCallHere : '(' ∉ space ++ ':' :: union := by
    intro membership
    rcases List.mem_append.mp membership with inSpace | later
    · exact absurd (blank _ inSpace) (by decide)
    · exact noCall (by simpa using later)
  rw [lower_of_not_mem noCallHere, function_apply_blank_iff, mutable_replaces.apply_borders _ border,
    ← bareAnnotation_mutable_iff]
  rw [List.singleton_append, List.singleton_append] at colon
  rw [colon]
  exact typing_apply_blank_iff blank stillPlain

theorem not_mem_line {c : Char} (mark : Line.isMark c = true) {lead name rest : Text}
    (leadBlank : ∀ c ∈ lead, isBlank c = true) (isName : Token.IsName name) (missing : c ∉ rest) :
    c ∉ lead ++ (name ++ rest) := by
  intro membership
  simp only [List.mem_append] at membership
  rcases membership with inLead | inName | inRest
  · exact Line.isMark_iff.mp mark (.inl (leadBlank c inLead))
  · exact Line.isMark_iff.mp mark (.inr (isName.isIdentPart inName))
  · exact missing inRest

/-- A name behind blanks and what follows it are lowered one by one, if no call stands there. -/
theorem lower_name {lead name rest : Text} (leadBlank : ∀ c ∈ lead, isBlank c = true)
    (isName : Token.IsName name) (ends : wordEnds rest = true) (noCall : '(' ∉ rest) :
    lower (lead ++ (name ++ rest)) = lead ++ (lowerName name ++ lower rest) := by
  have noCallLine := not_mem_line (by decide) leadBlank isName noCall
  have noColon : ':' ∉ lead := fun membership => absurd (leadBlank _ membership) (by decide)
  have border := border_of_blank leadBlank
  have typedEnds := typing_apply_wordEnds (mutable_replaces.apply_wordEnds ends)
  rw [lower_of_not_mem noCallLine, lower_of_not_mem noCall, mutable_replaces.apply_borders _ border,
    mutable_replaces.apply_append name ends, typing_apply_name _ noColon (isName_mutable_apply isName),
    function_replaces.apply_borders _ border, function_replaces.apply_append _ typedEnds]
  rfl

/-- The word, the name and the rest of a line are lowered one by one, if no call stands in it. -/
theorem lower_line (b : Binding) {lead gap name rest : Text}
    (leadBlank : ∀ c ∈ lead, isBlank c = true) (gapBlank : ∀ c ∈ gap, isBlank c = true)
    (filled : gap ≠ []) (isName : Token.IsName name) (ends : wordEnds rest = true)
    (noCall : '(' ∉ rest) :
    lower (lead ++ (b.word ++ (gap ++ (name ++ rest)))) =
      lead ++ ((loweredBinding b).word ++ (gap ++ (lowerName name ++ lower rest))) := by
  have gapEnds := wordEnds_blank_append (name ++ rest) gapBlank filled
  have noCallBehind := not_mem_line (by decide) gapBlank isName noCall
  rw [lower_name leadBlank (Line.isName_word b) gapEnds noCallBehind, lowerName_word,
    lower_name gapBlank isName ends noCall]

/-- Lowering brings a comparison or an arrow to the front: annotations alone stand before it. -/
def Exposed (rest : Text) : Prop :=
  ∃ erased c tail, rest = erased ++ c :: tail ∧ Annotations erased ∧ (c = '=' ∨ c = '>')

/-- The first colon of a text belongs to an annotation of primitive types. Blanks alone stand
between the annotation and an equals sign, and no comparison or arrow is exposed behind that. -/
def Erasable (source : Text) : Prop :=
  ∃ before typed behind rest, source = before ++ (typed ++ (behind ++ '=' :: rest)) ∧
    ':' ∉ before ∧ Annotation typed ∧ (∀ c ∈ behind, isBlank c = true) ∧ ¬ Exposed rest

theorem exposed_iff {rest : Text} :
    Exposed rest ↔ (lower rest).head? = some '=' ∨ (lower rest).head? = some '>' := by
  rw [head?_lower_eq_some_iff (by decide), head?_lower_eq_some_iff (by decide)]
  constructor
  · rintro ⟨erased, c, tail, split, spelled, rfl | rfl⟩
    · exact .inl ⟨erased, tail, split, spelled⟩
    · exact .inr ⟨erased, tail, split, spelled⟩
  · rintro (⟨erased, tail, split, spelled⟩ | ⟨erased, tail, split, spelled⟩)
    · exact ⟨erased, '=', tail, split, spelled, .inl rfl⟩
    · exact ⟨erased, '>', tail, split, spelled, .inr rfl⟩

theorem Annotation.sign_not_mem {t : Text} (typed : Annotation t) : '=' ∉ t := by
  intro membership
  exact absurd (typed.mem membership) (by decide)

/-- An annotation begins with spacing and its only colon, and the spacing may be left out. -/
theorem Annotation.exists_colon {t : Text} (typed : Annotation t) :
    ∃ gap names, t = gap ++ ':' :: names ∧ Spacing gap ∧ Annotation (':' :: names) := by
  obtain ⟨named, more⟩ := typed
  rename_i first others
  cases named with
  | @intro gap space name spacing spaceSpacing =>
    have bare : Named ':' ([] ++ ':' :: (space ++ name.text)) :=
      .intro name (by simp [Spacing]) spaceSpacing
    exact ⟨gap, space ++ name.text ++ others, by simp, spacing, .intro bare more⟩

theorem erasable_text_iff {b : Binding} {name : Text} (parts : Line.Parts b name) :
    Erasable parts.text ↔ BareAnnotation (':' :: parts.union) ∧ ¬ Exposed parts.rest := by
  constructor
  · rintro ⟨before, typed, behind, rest, split, noColon, annotated, blank, hidden⟩
    obtain ⟨gap, names, rfl, spacing, bare⟩ := annotated.exists_colon
    have noColonGap : ':' ∉ before ++ gap := by
      intro membership
      rcases List.mem_append.mp membership with inFront | inGap
      · exact noColon inFront
      · exact absurd (spacing _ inGap) (by decide)
    have noSignNames : '=' ∉ names ++ behind := by
      intro membership
      rcases List.mem_append.mp membership with inNames | later
      · exact bare.sign_not_mem (List.mem_cons_of_mem ':' inNames)
      · exact absurd (blank _ later) (by decide)
    have aligned : parts.front ++ ':' :: (parts.union ++ '=' :: parts.rest) =
        (before ++ gap) ++ ':' :: ((names ++ behind) ++ '=' :: rest) := by
      simpa [Line.Parts.text] using split
    obtain ⟨-, tails⟩ :=
      append_cons_inj (parts.not_mem_front (by decide)) noColonGap aligned
    obtain ⟨union, rfl⟩ :=
      append_cons_inj (parts.not_mem_union (by decide) (by decide)) noSignNames tails
    exact ⟨⟨':' :: names, behind, by rw [union]; rfl, bare, blank⟩, hidden⟩
  · rintro ⟨⟨typed, behind, split, annotated, blank⟩, hidden⟩
    refine ⟨parts.front, typed, behind, parts.rest, ?_, ?_, annotated, blank, hidden⟩
    · rw [Line.Parts.text, ← List.append_assoc typed, ← split, List.cons_append]
    · exact parts.not_mem_front (by decide)

theorem lower_text {b : Binding} {name : Text} (parts : Line.Parts b name) :
    lower parts.text = parts.lead ++ ((loweredBinding b).word ++ (parts.gap ++
      (lowerName name ++ (lower (parts.space ++ ':' :: parts.union) ++ '=' :: lower parts.rest)))) := by
  have ends : wordEnds (parts.space ++ ':' :: parts.union) = true := by
    rw [wordEnds_append_cons (by decide)]
    exact wordEnds_of_blank parts.space_blank
  have noCall : '(' ∉ parts.space ++ ':' :: parts.union :=
    parts.not_mem_behind (by decide) (by decide) (by decide)
  have split : parts.text = (parts.lead ++ (b.word ++ (parts.gap ++ (name ++
      (parts.space ++ ':' :: parts.union))))) ++ '=' :: parts.rest := by
    simp [Line.Parts.text, Line.Parts.front]
  rw [split, lower_append_cons (by decide),
    lower_line b parts.lead_blank parts.gap_blank parts.gap_filled parts.isName ends noCall]
  simp only [List.append_assoc]

/-- A compiled declaration declares the same name, without its annotation, exactly if no word of
the name is replaced and the annotation is one that lowering erases. -/
theorem declares_compiled_iff {line : Int} {source out : Text} {d : Declaration}
    (recognised : Line.classify line source = some (.declaration d))
    (compiled : (compile source).output = some out) :
    Line.Declares line out (loweredBinding d.binding) d.name ↔
      (['m', 'u', 't'] ∉ wordsOf d.name ∧ ['f', 'n'] ∉ wordsOf d.name) ∧ Erasable source := by
  obtain ⟨parts, rfl⟩ := Line.exists_parts recognised
  have noColon : ':' ∉ parts.union := parts.not_mem_union (by decide) (by decide)
  have noCall : '(' ∉ parts.union := parts.not_mem_union (by decide) (by decide)
  have noSign : '=' ∉ lower (parts.space ++ ':' :: parts.union) := fun membership =>
    parts.not_mem_behind (by decide) (by decide) (by decide) (mem_of_mem_lower (by decide) membership)
  rw [output_eq_lower compiled, lower_text,
    Line.declares_iff line _ parts.lead_blank parts.gap_blank parts.gap_filled
      (isName_lowerName parts.isName) noSign parts.isIdent (length_le_lowerName d.name),
    lowerName_eq_iff, lower_colon_blank_iff parts.space_blank noColon noCall, erasable_text_iff,
    exposed_iff, not_or]

theorem declares_compiled_mutable :
    Line.classify 1 "mut y : string|any = \"ok\"".toList =
        some (.declaration ⟨.mutable, ['y'], ⟨["string".toList, "any".toList]⟩, "\"ok\"".toList, 1⟩) ∧
      (compile "mut y : string|any = \"ok\"".toList).output = some "let y = \"ok\"".toList ∧
      Line.Declares 1 "let y = \"ok\"".toList .plain ['y'] := by
  have recognised : Line.classify 1 "mut y : string|any = \"ok\"".toList =
      some (.declaration ⟨.mutable, ['y'], ⟨["string".toList, "any".toList]⟩, "\"ok\"".toList, 1⟩) := by
    decide +kernel
  have compiled : (compile "mut y : string|any = \"ok\"".toList).output =
      some "let y = \"ok\"".toList := by decide +kernel
  have space : Spacing [' '] := by simp [Spacing, isSpaceOrTab]
  have none : Spacing [] := by simp [Spacing]
  have typed : Annotation " : string|any".toList :=
    .intro (.intro .string space space) (.cons (.intro .any none none) .nil)
  have hidden : ¬ Exposed " \"ok\"".toList := by
    rw [exposed_iff]
    decide +kernel
  have erasable : Erasable "mut y : string|any = \"ok\"".toList :=
    ⟨"mut y".toList, " : string|any".toList, [' '], " \"ok\"".toList, rfl, by decide, typed,
      List.all_eq_true.mp (by decide), hidden⟩
  exact ⟨recognised, compiled,
    (declares_compiled_iff recognised compiled).mpr ⟨⟨by decide, by decide⟩, erasable⟩⟩

/-- The checker takes `int` as a type name, and lowering leaves it standing behind the name. -/
theorem not_declares_compiled_union :
    Line.classify 1 "let x: string|int = \"a\"".toList =
        some (.declaration ⟨.plain, ['x'], ⟨["string".toList, "int".toList]⟩, "\"a\"".toList, 1⟩) ∧
      (compile "let x: string|int = \"a\"".toList).output = some "let x|int = \"a\"".toList ∧
      ¬ Line.Declares 1 "let x|int = \"a\"".toList .plain ['x'] := by
  refine ⟨by decide +kernel, by decide +kernel, ?_⟩
  rintro ⟨opening, ident, assign, rest, read, -, -, -, isAssign⟩
  have third : ((tokenize 1 "let x|int = \"a\"".toList)[2]?).map (·.kind) = some .pipe := by
    decide +kernel
  rw [read] at third
  simp [isAssign] at third

end TypedScript.Lowering
