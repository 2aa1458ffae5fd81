import TypedScript.Proofs.Lowering.Declaration

set_option autoImplicit false

/-!
Lines with types in them, lowered part by part. A declaration loses its
annotation, and a function header those of its parameters and of its result. The
names, the commas and all other spacing stay as they are.
-/

namespace TypedScript.Lowering

open Rule

/-- An identifier without dollar signs, so that it is one word. -/
structure PlainName (name : Text) : Prop where
  isIdent : Token.IsIdent name
  spelled : ∀ c ∈ name, isWordChar c = true

namespace PlainName

variable {name : Text}

theorem wordsOf_append (plain : PlainName name) {rest : Text} (ends : wordEnds rest = true) :
    wordsOf (name ++ rest) = name :: wordsOf rest :=
  wordsOf_word_append plain.spelled plain.isIdent.1.ne_nil ends

theorem ne_keyword (plain : PlainName name) {w : Text} (keyword : Token.wordKind w ≠ .ident) :
    name ≠ w := by
  rintro rfl
  exact keyword plain.isIdent.2

theorem lowerName_eq (plain : PlainName name) : lowerName name = name := by
  have words : wordsOf name = [name] := by
    have whole : wordsOf (name ++ []) = [name] := plain.wordsOf_append rfl
    rwa [List.append_nil] at whole
  have other : ∀ {w : Text}, Token.wordKind w ≠ .ident → w ∉ wordsOf name := by
    intro w keyword membership
    rw [words, List.mem_singleton] at membership
    exact plain.ne_keyword keyword membership.symm
  exact lowerName_eq_iff.mpr ⟨other (by decide), other (by decide)⟩

end PlainName

theorem plainName_iff {name : Text} :
    PlainName name ↔ name.head?.any Token.isIdentStart = true ∧ name.all isWordChar = true ∧
      Token.wordKind name = .ident := by
  rw [Option.any_eq_true, List.all_eq_true]
  constructor
  · rintro ⟨⟨⟨c, more, rfl, start, -⟩, other⟩, spelled⟩
    exact ⟨⟨c, rfl, start⟩, spelled, other⟩
  · rintro ⟨⟨c, first, start⟩, spelled, other⟩
    obtain ⟨more, rfl⟩ := List.head?_eq_some_iff.mp first
    have parts : ∀ d ∈ more, Token.isIdentPart d = true := fun d membership =>
      isIdentPart_of_isWordChar (spelled d (List.mem_cons_of_mem c membership))
    exact ⟨⟨⟨c, more, rfl, start, parts⟩, other⟩, spelled⟩

instance : DecidablePred PlainName := fun _ => decidable_of_iff _ plainName_iff.symm

theorem Spacing.blank {t : Text} (spacing : Spacing t) : ∀ c ∈ t, isBlank c = true :=
  fun c membership => isBlank_of_isSpaceOrTab (spacing c membership)

/-- Nothing, or an annotation. -/
inductive Typing : Text → Prop
  | absent : Typing []
  | present {t : Text} : Annotation t → Typing t

theorem Typing.wordEnds_append {t space : Text} (typing : Typing t) (spacing : Spacing space) :
    wordEnds (t ++ space) = true := by
  cases typing with
  | absent => exact wordEnds_of_blank spacing.blank
  | present annotated => exact annotated.wordEnds_append space

theorem Typing.not_mem_append {t space : Text} (typing : Typing t) (spacing : Spacing space) :
    '(' ∉ t ++ space := by
  intro membership
  rcases List.mem_append.mp membership with inTyping | inSpace
  · cases typing with
    | absent => simp at inTyping
    | present annotated => exact absurd (annotated.mem inTyping) (by decide)
  · exact absurd (spacing _ inSpace) (by decide)

theorem Typing.onlyTypeNames {t : Text} (typing : Typing t) : OnlyTypeNames t := by
  cases typing with
  | absent => exact onlyTypeNames_of_blank (by simp)
  | present annotated => exact annotated.onlyTypeNames

theorem Typing.typing_apply {t space : Text} (typing : Typing t) (spacing : Spacing space) :
    typingRule.apply (t ++ space) = space := by
  have noColon : ':' ∉ space := fun membership => absurd (spacing _ membership) (by decide)
  cases typing with
  | absent => exact typing_apply_eq_self noColon
  | present annotated =>
    have found : typingRule.matched? none (t ++ space) = some t.length :=
      typing?_of_bareAnnotation annotated spacing.blank
    rw [Rule.apply, applyFrom_replace annotated.ne_nil found, typing_applyFrom_eq,
      typing_apply_eq_self noColon]
    rfl

/-- An annotation is erased, and the spacing behind it stays. -/
theorem Typing.lower_append {t space : Text} (typing : Typing t) (spacing : Spacing space) :
    lower (t ++ space) = space := by
  have blank := onlyTypeNames_of_blank spacing.blank
  have names := typing.onlyTypeNames.append blank (wordEnds_of_blank spacing.blank)
  rw [lower_of_not_mem (typing.not_mem_append spacing),
    mutable_replaces.apply_of_onlyTypeNames (by decide) names, typing.typing_apply spacing,
    function_replaces.apply_of_onlyTypeNames (by decide) blank]

/-- A name, its annotation if there is one, and spacing, all behind blanks. -/
theorem lower_typed_name {lead name typing space : Text} (leadBlank : ∀ c ∈ lead, isBlank c = true)
    (plain : PlainName name) (typed : Typing typing) (spacing : Spacing space) :
    lower (lead ++ (name ++ (typing ++ space))) = lead ++ (name ++ space) := by
  rw [lower_name leadBlank plain.isIdent.1 (typed.wordEnds_append spacing)
    (typed.not_mem_append spacing), plain.lowerName_eq, typed.lower_append spacing]

/-- The parts of a typed declaration, with any text behind the equals sign. -/
structure TypedDeclaration where
  indent : Text
  binding : Binding
  gap : Text
  name : Text
  typing : Text
  space : Text
  rest : Text
  indent_blank : ∀ c ∈ indent, isBlank c = true
  gap_spacing : Spacing gap
  gap_filled : gap ≠ []
  name_plain : PlainName name
  typing_annotated : Annotation typing
  space_spacing : Spacing space

def TypedDeclaration.text (d : TypedDeclaration) : Text :=
  d.indent ++ (d.binding.word ++ (d.gap ++ (d.name ++ (d.typing ++ (d.space ++ '=' :: d.rest)))))

/-- A typed declaration loses its annotation, the word `mut` becomes `let`, and what stands behind
the name is lowered on its own. -/
theorem lower_typedDeclaration (d : TypedDeclaration) :
    lower d.text = d.indent ++ ((loweredBinding d.binding).word ++
      (d.gap ++ (d.name ++ (d.space ++ lower ('=' :: d.rest))))) := by
  have typed : Typing d.typing := .present d.typing_annotated
  have split : d.text = (d.indent ++ (d.binding.word ++ (d.gap ++ (d.name ++
      (d.typing ++ d.space))))) ++ '=' :: d.rest := by simp [TypedDeclaration.text]
  rw [split, lower_append_cons (by decide),
    lower_line d.binding d.indent_blank d.gap_spacing.blank d.gap_filled d.name_plain.isIdent.1
      (typed.wordEnds_append d.space_spacing) (typed.not_mem_append d.space_spacing),
    d.name_plain.lowerName_eq, typed.lower_append d.space_spacing, lower_cons (by decide)]
  simp only [List.append_assoc]

theorem lower_typedDeclaration_mutable :
    lower "\n  mut total :\tstring | any= print(fn: number)".toList =
      "\n  let total= console.log(function)".toList := by
  have none : Spacing [] := by simp [Spacing]
  have space : Spacing [' '] := by simp [Spacing, isSpaceOrTab]
  have tab : Spacing ['\t'] := by simp [Spacing, isSpaceOrTab]
  have typed : Annotation " :\tstring | any".toList :=
    .intro (.intro .string space tab) (.cons (.intro .any space space) .nil)
  have lowered := lower_typedDeclaration
    ⟨"\n  ".toList, .mutable, [' '], "total".toList, " :\tstring | any".toList, [],
      " print(fn: number)".toList, forall_mem_of_all (by decide), space, by simp, by decide, typed, none⟩
  dsimp only at lowered
  exact lowered.trans (by decide +kernel)

/-- A parameter of a function header. -/
structure Slot where
  lead : Text
  name : Text
  typing : Text
  trail : Text
  lead_spacing : Spacing lead
  name_plain : PlainName name
  typing_typed : Typing typing
  trail_spacing : Spacing trail

namespace Slot

def text (slot : Slot) : Text := slot.lead ++ (slot.name ++ (slot.typing ++ slot.trail))

/-- The parameter without its annotation. -/
def bare (slot : Slot) : Text := slot.lead ++ (slot.name ++ slot.trail)

theorem lower_text (slot : Slot) : lower slot.text = slot.bare :=
  lower_typed_name slot.lead_spacing.blank slot.name_plain slot.typing_typed slot.trail_spacing

/-- The parameter further to the right. -/
def indented (slot : Slot) {space : Text} (spacing : Spacing space) : Slot :=
  { slot with
    lead := space ++ slot.lead
    lead_spacing := fun c membership =>
      (List.mem_append.mp membership).elim (spacing c) (slot.lead_spacing c) }

theorem indented_text (slot : Slot) {space : Text} (spacing : Spacing space) :
    (slot.indented spacing).text = space ++ slot.text := List.append_assoc ..

theorem indented_bare (slot : Slot) {space : Text} (spacing : Spacing space) :
    (slot.indented spacing).bare = space ++ slot.bare := List.append_assoc ..

end Slot

/-- Pieces between dividing characters are lowered one by one. -/
theorem lower_join {c : Char} (dividing : divides c = true) (parts : List Text) :
    lower (Text.join [c] parts) = Text.join [c] (parts.map lower) := by
  induction parts with
  | nil => exact lower_nil
  | cons first more ih =>
    by_cases last : more = []
    · subst last
      rfl
    · have lastLowered : more.map lower ≠ [] := by simpa using last
      rw [List.map_cons, Text.join_cons _ _ last, Text.join_cons _ _ lastLowered, ← ih,
        List.append_assoc, List.append_assoc, List.singleton_append, List.singleton_append,
        lower_append_cons dividing]

theorem join_append_cons (separator x first : Text) (more : List Text) :
    Text.join separator ((x ++ first) :: more) = x ++ Text.join separator (first :: more) := by
  cases more with
  | nil => rfl
  | cons second others => simp [Text.join]

theorem lower_slots (slots : List Slot) :
    lower (Text.join [','] (slots.map Slot.text)) = Text.join [','] (slots.map Slot.bare) := by
  rw [lower_join (by decide), List.map_map]
  congr 2
  funext slot
  exact slot.lower_text

/-- Without the name `print` in front of it, a parenthesis opens no call that the rule renames. -/
theorem print_apply_append_of_unnamed {x : Text} (y : Text) (unnamed : printName ∉ wordsOf x) :
    printRule.apply (x ++ '(' :: y) = x ++ '(' :: printRule.apply y := by
  have ends : wordEnds ('(' :: y) = true := rfl
  have copied : printRule.applyFrom none (x ++ '(' :: y) =
      x ++ printRule.applyFrom (edge none x) ('(' :: y) := by
    apply applyFrom_append_of_unmatched
    rintro p q rfl -
    apply print_matched?_eq_none
    intro free rest split
    by_contra opens
    have head : headWord q = printName := by
      rw [← headWord_append_of_wordEnds q ends, split,
        headWord_append_of_wordEnds _ (wordEnds_of_opensCall (by simpa using opens))]
      exact headWord_of_word fun _ => isWordChar_of_mem_printName
    have border : inWord (edge none p) = false := by
      by_contra inside
      simp [nameFree_eq_false_of_inWord (by simpa using inside)] at free
    have named := mem_wordsOf_of_split p q border (by rw [head]; decide)
    rw [head] at named
    exact unnamed named
  have here : printRule.matched? (edge none x) ('(' :: y) = none := by
    apply print_matched?_eq_none
    intro _ rest split
    exact absurd (List.cons.inj split).1 (by decide)
  have same : printRule.matched? (some '(') y = printRule.matched? none y := rfl
  rw [Rule.apply, copied, applyFrom_copy here, applyFrom_congr same]
  rfl

theorem lower_append_paren {x : Text} (y : Text) (noCall : '(' ∉ x)
    (unnamed : printName ∉ wordsOf (lower x)) : lower (x ++ '(' :: y) = lower x ++ '(' :: lower y := by
  rw [lower_of_not_mem noCall] at unnamed ⊢
  rw [lower_eq, passes_append_cons (by decide) (by decide) (by decide) (by decide),
    print_apply_append_of_unnamed _ unnamed]
  rfl

/-- Spacing, and perhaps a brace with any text behind it. -/
inductive HeaderTail : Text → Prop
  | spacing {space : Text} : Spacing space → HeaderTail space
  | brace {space : Text} (body : Text) : Spacing space → HeaderTail (space ++ '\x7b' :: body)

/-- In front of such a tail an annotation is erased, and the tail is lowered on its own. -/
theorem Typing.lower_append_tail {t tail : Text} (typing : Typing t) (form : HeaderTail tail) :
    lower (t ++ tail) = lower tail := by
  have alone : ∀ {space : Text}, Spacing space → lower (t ++ space) = lower space := by
    intro space spacing
    exact (typing.lower_append spacing).trans (Typing.absent.lower_append spacing).symm
  cases form with
  | spacing spaced => exact alone spaced
  | @brace space body spaced =>
    rw [← List.append_assoc, lower_append_cons (by decide), lower_append_cons (by decide),
      alone spaced]

/-- The parts of a function header: its name, its parameters between commas and its result. -/
structure TypedHeader where
  indent : Text
  gap : Text
  name : Text
  space : Text
  inner : Text
  slots : List Slot
  result : Text
  tail : Text
  indent_blank : ∀ c ∈ indent, isBlank c = true
  gap_spacing : Spacing gap
  gap_filled : gap ≠ []
  name_plain : PlainName name
  name_other : name ≠ printName
  space_spacing : Spacing space
  inner_spacing : Spacing inner
  result_typed : Typing result
  tail_form : HeaderTail tail

namespace TypedHeader

/-- The header up to its parenthesis, behind the given word. -/
def front (h : TypedHeader) (word : Text) : Text :=
  h.indent ++ (word ++ (h.gap ++ (h.name ++ h.space)))

/-- The parameters between the parentheses, each written as given. -/
def parameters (h : TypedHeader) (write : Slot → Text) : Text :=
  h.inner ++ Text.join [','] (h.slots.map write)

def text (h : TypedHeader) : Text :=
  h.front ['f', 'n'] ++ '(' :: (h.parameters Slot.text ++ ')' :: (h.result ++ h.tail))

theorem gap_wordEnds (h : TypedHeader) (rest : Text) : wordEnds (h.gap ++ rest) = true :=
  wordEnds_blank_append rest h.gap_spacing.blank h.gap_filled

theorem isName_fn : Token.IsName ['f', 'n'] :=
  ⟨'f', ['n'], rfl, by decide, List.all_eq_true.mp (by decide)⟩

theorem not_mem_behind (h : TypedHeader) : '(' ∉ h.gap ++ (h.name ++ h.space) :=
  not_mem_line (by decide) h.gap_spacing.blank h.name_plain.isIdent.1
    (Typing.absent.not_mem_append h.space_spacing)

theorem not_mem_front (h : TypedHeader) : '(' ∉ h.front ['f', 'n'] :=
  not_mem_line (by decide) h.indent_blank isName_fn h.not_mem_behind

theorem lower_front (h : TypedHeader) :
    lower (h.front ['f', 'n']) = h.front ['f', 'u', 'n', 'c', 't', 'i', 'o', 'n'] := by
  have word : lowerName ['f', 'n'] = ['f', 'u', 'n', 'c', 't', 'i', 'o', 'n'] := by decide +kernel
  have behind : lower (h.gap ++ (h.name ++ ([] ++ h.space))) = h.gap ++ (h.name ++ h.space) :=
    lower_typed_name h.gap_spacing.blank h.name_plain .absent h.space_spacing
  rw [List.nil_append] at behind
  rw [front, lower_name h.indent_blank isName_fn (h.gap_wordEnds _) h.not_mem_behind, word, behind]
  rfl

theorem wordsOf_front (h : TypedHeader) :
    wordsOf (h.front ['f', 'u', 'n', 'c', 't', 'i', 'o', 'n']) =
      [['f', 'u', 'n', 'c', 't', 'i', 'o', 'n'], h.name] := by
  have spelled : ∀ c ∈ ['f', 'u', 'n', 'c', 't', 'i', 'o', 'n'], isWordChar c = true :=
    function_replaces.written
  have spaceEnds := wordEnds_of_blank h.space_spacing.blank
  rw [front, wordsOf_borders _ (border_of_blank h.indent_blank),
    wordsOf_word_append spelled (by simp) (h.gap_wordEnds _),
    wordsOf_borders _ (border_of_blank h.gap_spacing.blank), h.name_plain.wordsOf_append spaceEnds,
    wordsOf_of_blank h.space_spacing.blank]

theorem lower_parameters (h : TypedHeader) :
    lower (h.parameters Slot.text) = h.parameters Slot.bare := by
  rw [parameters, parameters]
  cases h.slots with
  | nil =>
    have alone : lower ([] ++ h.inner) = h.inner := Typing.absent.lower_append h.inner_spacing
    simpa using alone
  | cons first more =>
    -- The spacing behind the parenthesis may as well belong to the first parameter.
    have moved := lower_slots (first.indented h.inner_spacing :: more)
    rw [List.map_cons, List.map_cons, Slot.indented_text, Slot.indented_bare, join_append_cons,
      join_append_cons] at moved
    exact moved

end TypedHeader

/-- A function header keeps its name, its parameters and their commas, and loses all its
annotations; what stands behind it is lowered on its own. -/
theorem lower_typedHeader (h : TypedHeader) :
    lower h.text = h.front ['f', 'u', 'n', 'c', 't', 'i', 'o', 'n'] ++
      '(' :: (h.parameters Slot.bare ++ ')' :: lower h.tail) := by
  have unnamed : printName ∉ wordsOf (lower (h.front ['f', 'n'])) := by
    rw [h.lower_front, h.wordsOf_front]
    intro membership
    rcases List.mem_cons.mp membership with same | later
    · exact absurd same (by decide)
    · exact h.name_other (List.mem_singleton.mp later).symm
  rw [TypedHeader.text, lower_append_paren _ h.not_mem_front unnamed, lower_append_cons (by decide),
    h.lower_front, h.lower_parameters, h.result_typed.lower_append_tail h.tail_form]

/-- The name `print` is only renamed where it is called. -/
theorem lower_typedHeader_print :
    lower "fn f(a: number, print : string|any ): boolean \x7b print(fn)".toList =
      "function f(a, print ) \x7b console.log(function)".toList := by
  have none : Spacing [] := by simp [Spacing]
  have space : Spacing [' '] := by simp [Spacing, isSpaceOrTab]
  have number : Annotation ": number".toList := .intro (.intro .number none space) .nil
  have union : Annotation " : string|any".toList :=
    .intro (.intro .string space space) (.cons (.intro .any none none) .nil)
  have boolean : Annotation ": boolean".toList := .intro (.intro .boolean none space) .nil
  have lowered := lower_typedHeader
    ⟨[], [' '], ['f'], [], [],
      [⟨[], ['a'], ": number".toList, [], none, by decide, .present number, none⟩,
        ⟨[' '], "print".toList, " : string|any".toList, [' '], space, by decide, .present union, space⟩],
      ": boolean".toList, " \x7b print(fn)".toList, by simp, space, by simp, by decide, by decide,
      none, none, .present boolean, .brace " print(fn)".toList space⟩
  dsimp only [TypedHeader.front, TypedHeader.parameters, List.map, Slot.bare] at lowered
  exact lowered.trans (by decide +kernel)

end TypedScript.Lowering
