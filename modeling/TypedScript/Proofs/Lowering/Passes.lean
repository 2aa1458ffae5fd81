import TypedScript.Proofs.Lowering.Annotation

set_option autoImplicit false

/-!
The four rules of lowering: each keeps to the borders of words, and each may be
cut at certain characters. Behind its own pass a rule on words, or on calls, has
nothing left to match.
-/

namespace TypedScript.Lowering

open Rule

theorem lower_eq (source : Text) :
    lower source = printRule.apply (functionRule.apply (typingRule.apply (mutableRule.apply source))) :=
  rfl

theorem output_eq_lower {source out : Text} (compiled : (compile source).output = some out) :
    out = lower source := by
  simp only [compile] at compiled
  split at compiled
  · exact (Option.some.inj compiled).symm
  · cases compiled

theorem mutable_replaces : mutableRule.Replaces ['m', 'u', 't'] :=
  ⟨rfl, by decide, List.all_eq_true.mp (by decide), by decide, List.all_eq_true.mp (by decide)⟩

theorem function_replaces : functionRule.Replaces ['f', 'n'] :=
  ⟨rfl, by decide, List.all_eq_true.mp (by decide), by decide, List.all_eq_true.mp (by decide)⟩

theorem typing_matched?_eq_some {before : Option Char} {first rest : Text}
    (found : typingRule.matched? before (first ++ rest) = some first.length) :
    Annotation first ∧ wordEnds rest = true ∧ marked? '|' rest = none := by
  obtain ⟨other, tail, split, length, typed, ends, stops⟩ := typing?_eq_some_iff.mp found
  obtain ⟨rfl, rfl⟩ := List.append_inj split length.symm
  exact ⟨typed, ends, stops⟩

theorem typing_wordWise : typingRule.WordWise where
  bounded := by
    intro before ahead n found
    obtain ⟨first, rest, rfl, rfl, typed, -⟩ := typing?_eq_some_iff.mp found
    refine ⟨List.length_pos_iff.mpr typed.ne_nil, ?_⟩
    rw [List.length_append]
    omega
  ends := by
    intro before first rest _ found
    obtain ⟨typed, ends, -⟩ := typing_matched?_eq_some found
    exact ⟨typed.inWord_edge before, ends⟩
  begins := by
    intro before ahead n found _
    obtain ⟨first, rest, rfl, -, typed, -⟩ := typing?_eq_some_iff.mp found
    exact ⟨typed.wordEnds_append rest, rfl⟩

theorem typing_quiet_iff {before : Option Char} {t : Text} :
    typingRule.Quiet before t ↔ ¬ Annotated t := by
  rw [annotated_iff]
  constructor
  · rintro quiet ⟨front, ahead, n, rfl, found⟩
    by_cases filled : ahead = []
    · subst filled
      exact absurd (typing_wordWise.bounded none [] n found) (by simp; omega)
    · exact absurd ((quiet front ahead rfl filled).symm.trans found) (by simp)
  · rintro plain front ahead rfl -
    cases found : typingRule.matched? (edge before front) ahead with
    | none => rfl
    | some n => exact absurd ⟨front, ahead, n, rfl, found⟩ plain

theorem wordEnds_append_cons {c : Char} (border : isWordChar c = false) (y rest : Text) :
    wordEnds (y ++ c :: rest) = wordEnds y := by
  cases y with
  | nil => simpa [wordEnds] using border
  | cons d y => rfl

theorem marked?_append_cons {mark c : Char} (solid : isSpaceOrTab mark = false)
    (border : isWordChar c = false) (noSpace : isSpaceOrTab c = false) (differs : c ≠ mark)
    (x rest : Text) : marked? mark (x ++ c :: rest) = marked? mark x := by
  ext n
  rw [marked?_eq_some_iff solid, marked?_eq_some_iff solid]
  constructor
  · rintro ⟨first, tail, split, length, named, ends⟩
    have missing : c ∉ first := by
      intro membership
      rcases named.mem membership with spacing | same | word
      · simp [noSpace] at spacing
      · exact differs same
      · simp [border] at word
    obtain ⟨y, rfl, rfl⟩ := exists_split_of_not_mem missing split
    rw [wordEnds_append_cons border] at ends
    exact ⟨first, y, rfl, length, named, ends⟩
  · rintro ⟨first, y, rfl, length, named, ends⟩
    exact ⟨first, y ++ c :: rest, by simp, length, named, by rwa [wordEnds_append_cons border]⟩

theorem typing_blocks {c : Char} (border : isWordChar c = false) (noSpace : isSpaceOrTab c = false)
    (noColon : c ≠ ':') (noBar : c ≠ '|') : typingRule.Blocks c where
  here := by
    intro before rest
    have unmarked : marked? ':' ([] ++ c :: rest) = none :=
      marked?_of_other (by simp [Spacing]) (by simpa using noSpace) (by simpa using noColon)
    exact congrArg (Option.map _) unmarked
  ahead := by
    intro before x rest _
    ext n
    change typing? (x ++ c :: rest) = some n ↔ typing? x = some n
    rw [typing?_eq_some_iff, typing?_eq_some_iff]
    have bars : ∀ x rest, marked? '|' (x ++ c :: rest) = marked? '|' x :=
      marked?_append_cons (by decide) border noSpace noBar
    constructor
    · rintro ⟨found, tail, split, length, typed, ends, stops⟩
      have missing : c ∉ found := by
        intro membership
        rcases typed.mem membership with spacing | same | same | word
        · simp [noSpace] at spacing
        · exact noColon same
        · exact noBar same
        · simp [border] at word
      obtain ⟨y, rfl, rfl⟩ := exists_split_of_not_mem missing split
      rw [wordEnds_append_cons border] at ends
      rw [bars] at stops
      exact ⟨found, y, rfl, length, typed, ends, stops⟩
    · rintro ⟨found, y, rfl, length, typed, ends, stops⟩
      refine ⟨found, y ++ c :: rest, by simp, length, typed, ?_, ?_⟩
      · rwa [wordEnds_append_cons border]
      · rwa [bars]
  behind := fun _ => rfl

/-- Whether a name behind a character is a name of its own, not a part of a name or a member. -/
def nameFree (before : Option Char) : Bool :=
  !(before.map fun c => isWordChar c || c == '.' || c == '$').getD false

/-- Whether an opening parenthesis is the first thing ahead. -/
def opensCall (ahead : Text) : Bool := (Text.trimStart ahead).head? == some '('

theorem opensCall_cons (c : Char) (rest : Text) :
    opensCall (c :: rest) = if isBlank c then opensCall rest else c == '(' := by
  cases blank : isBlank c <;> simp [opensCall, Text.trimStart, blank]

theorem nameFree_eq_false_of_inWord {before : Option Char} (inside : inWord before = true) :
    nameFree before = false := by
  cases before with
  | none => simp [inWord] at inside
  | some c =>
    have word : isWordChar c = true := by simpa [inWord] using inside
    simp [nameFree, word]

theorem wordEnds_of_opensCall {rest : Text} (opens : opensCall rest = true) :
    wordEnds rest = true := by
  cases rest with
  | nil => rfl
  | cons c rest =>
    apply wordEnds_cons.mpr
    rw [opensCall_cons] at opens
    split at opens
    next blank => exact isWordChar_eq_false_of_isBlank blank
    next =>
      obtain rfl : c = '(' := by simpa using opens
      decide

def printName : Text := ['p', 'r', 'i', 'n', 't']

theorem isWordChar_of_mem_printName {c : Char} (membership : c ∈ printName) :
    isWordChar c = true := by
  have letters : printName.all isWordChar = true := by decide
  exact List.all_eq_true.mp letters c membership

theorem print_matched?_eq_some_iff {before : Option Char} {ahead : Text} {n : Nat} :
    printRule.matched? before ahead = some n ↔
      nameFree before = true ∧ (∃ rest, ahead = printName ++ rest ∧ opensCall rest = true) ∧
        printName.length = n := by
  change (if nameFree before && printName.isPrefixOf ahead && opensCall (ahead.drop printName.length)
    then some printName.length else none) = some n ↔ _
  constructor
  · intro found
    split at found
    next conditions =>
      simp only [Bool.and_eq_true] at conditions
      obtain ⟨⟨free, front⟩, opens⟩ := conditions
      obtain ⟨rest, rfl⟩ := List.isPrefixOf_iff_prefix.mp front
      rw [List.drop_left] at opens
      exact ⟨free, ⟨rest, rfl, opens⟩, Option.some.inj found⟩
    next => cases found
  · rintro ⟨free, ⟨rest, rfl, opens⟩, rfl⟩
    have front : printName.isPrefixOf (printName ++ rest) = true :=
      List.isPrefixOf_iff_prefix.mpr (List.prefix_append _ _)
    rw [List.drop_left, free, front, opens]
    rfl

theorem print_matched?_eq_some {before : Option Char} {first rest : Text}
    (found : printRule.matched? before (first ++ rest) = some first.length) :
    first = printName ∧ nameFree before = true ∧ opensCall rest = true := by
  obtain ⟨free, ⟨tail, split, opens⟩, length⟩ := print_matched?_eq_some_iff.mp found
  obtain ⟨rfl, rfl⟩ := List.append_inj split length.symm
  exact ⟨rfl, free, opens⟩

theorem print_matched?_eq_none {before : Option Char} {ahead : Text}
    (other : nameFree before = true → ∀ rest, ahead = printName ++ rest → opensCall rest = false) :
    printRule.matched? before ahead = none := by
  cases found : printRule.matched? before ahead with
  | none => rfl
  | some n =>
    obtain ⟨free, ⟨rest, split, opens⟩, -⟩ := print_matched?_eq_some_iff.mp found
    simp [other free rest split] at opens

theorem print_wordWise : printRule.WordWise where
  bounded := by
    intro before ahead n found
    obtain ⟨-, ⟨rest, rfl, -⟩, rfl⟩ := print_matched?_eq_some_iff.mp found
    refine ⟨by decide, ?_⟩
    rw [List.length_append]
    omega
  ends := by
    intro before first rest _ found
    obtain ⟨rfl, -, opens⟩ := print_matched?_eq_some found
    exact ⟨rfl, wordEnds_of_opensCall opens⟩
  begins := by
    intro before ahead n found inside
    obtain ⟨free, -⟩ := print_matched?_eq_some_iff.mp found
    simp [nameFree_eq_false_of_inWord inside] at free

theorem opensCall_append_cons {c : Char} (solid : isBlank c = false) (noCall : c ≠ '(')
    (x rest : Text) : opensCall (x ++ c :: rest) = opensCall x := by
  induction x with
  | nil => simp [opensCall, Text.trimStart, solid, noCall]
  | cons d x ih => rw [List.cons_append, opensCall_cons, opensCall_cons, ih]

theorem print_blocks {c : Char} (border : isWordChar c = false) (solid : isBlank c = false)
    (noCall : c ≠ '(') (noMember : c ≠ '.') (noSign : c ≠ '$') : printRule.Blocks c where
  here := by
    intro before rest
    apply print_matched?_eq_none
    intro _ tail split
    obtain ⟨rfl, -⟩ := List.cons.inj split
    exact absurd border (by decide)
  ahead := by
    intro before x rest _
    ext n
    rw [print_matched?_eq_some_iff, print_matched?_eq_some_iff]
    have missing : c ∉ printName := by
      intro membership
      simp [isWordChar_of_mem_printName membership] at border
    constructor
    · rintro ⟨free, ⟨tail, split, opens⟩, length⟩
      obtain ⟨y, rfl, rfl⟩ := exists_split_of_not_mem missing split
      rw [opensCall_append_cons solid noCall] at opens
      exact ⟨free, ⟨y, rfl, opens⟩, length⟩
    · rintro ⟨free, ⟨y, rfl, opens⟩, length⟩
      refine ⟨free, ⟨y ++ c :: rest, by simp, ?_⟩, length⟩
      rwa [opensCall_append_cons solid noCall]
  behind := by
    intro t
    have same : nameFree (some c) = nameFree none := by simp [nameFree, border, noMember, noSign]
    ext n
    rw [print_matched?_eq_some_iff, print_matched?_eq_some_iff, same]

/-- The rule takes no call away from what stands in front of one. -/
theorem opensCall_print_applyFrom (before : Option Char) (t : Text) :
    opensCall (printRule.applyFrom before t) = opensCall t := by
  have walk := rewrites_applyFrom print_wordWise.bounded before t
  generalize printRule.applyFrom before t = out at walk ⊢
  induction walk with
  | nil => rfl
  | copy _ _ ih => rw [opensCall_cons, opensCall_cons, ih]
  | @replace before first rest out filled found _ ih =>
    obtain ⟨rfl, -⟩ := print_matched?_eq_some found
    have neither : isBlank 'c' = false ∧ isBlank 'p' = false := by decide
    change opensCall ('c' :: _) = opensCall ('p' :: _)
    rw [opensCall_cons, opensCall_cons, neither.1, neither.2]
    rfl

theorem print_applyFrom_append_of_word (before : Option Char) {w : Text} (rest : Text)
    (inside : inWord before = true) (spelled : ∀ c ∈ w, isWordChar c = true) :
    printRule.applyFrom before (w ++ rest) = w ++ printRule.applyFrom (edge before w) rest := by
  apply applyFrom_append_of_unmatched
  intro p q split _
  subst split
  have stillInside : inWord (edge before p) = true := by
    rcases List.eq_nil_or_concat p with rfl | ⟨init, last, rfl⟩
    · exact inside
    · rw [List.concat_eq_append, edge_concat]
      simp [inWord, spelled last (by simp)]
  apply print_matched?_eq_none
  intro free
  simp [nameFree_eq_false_of_inWord stillInside] at free

/-- Behind the rule no call of the name is left. -/
theorem print_quiet_of_rewrites {before other : Option Char} {t out : Text}
    (walk : printRule.Rewrites before t out) (same : nameFree other = nameFree before) :
    printRule.Quiet other out := by
  induction walk generalizing other with
  | nil =>
    intro p q split filled
    simp_all
  | @copy before c rest out unmatched walk ih =>
    refine quiet_cons_iff.mpr ⟨?_, ih rfl⟩
    apply print_matched?_eq_none
    intro free tail split
    obtain ⟨rfl, rfl⟩ := List.cons.inj split
    by_contra opens
    replace opens : opensCall tail = true := by simpa using opens
    -- The name with a call behind it is then what was copied from, so it was matched there.
    have spelled : ∀ d ∈ printName.tail, isWordChar d = true := fun d membership =>
      isWordChar_of_mem_printName (List.mem_of_mem_tail membership)
    have head : headWord rest = printName.tail := by
      rw [← walk.headWord_eq print_wordWise rfl]
      refine (headWord_append_of_wordEnds printName.tail (wordEnds_of_opensCall opens)).trans ?_
      exact headWord_of_word spelled
    obtain ⟨front, -⟩ := (headWord_eq_iff spelled).mp head
    obtain ⟨source, rfl⟩ := List.isPrefixOf_iff_prefix.mp front
    have copied := walk.applyFrom_eq
    rw [print_applyFrom_append_of_word _ source rfl spelled] at copied
    have tailEq : printRule.applyFrom (edge (some 'p') printName.tail) source = tail :=
      List.append_cancel_left copied
    rw [← tailEq, opensCall_print_applyFrom] at opens
    have found : printRule.matched? before (printName ++ source) = some printName.length :=
      print_matched?_eq_some_iff.mpr ⟨same ▸ free, ⟨source, rfl, opens⟩, rfl⟩
    exact absurd (unmatched.symm.trans found) (by simp)
  | @replace before first rest out filled found walk ih =>
    obtain ⟨lastInside, -⟩ := print_wordWise.ends _ _ _ filled found
    apply quiet_append
    · intro p q split present
      apply print_matched?_eq_none
      intro _ tail spelled
      obtain ⟨d, q, rfl⟩ := List.exists_cons_of_ne_nil present
      obtain ⟨rfl, -⟩ := List.cons.inj spelled
      have written : 'p' ∈ printRule.replacement := by simp [split]
      exact absurd written (by decide)
    · apply ih
      rw [nameFree_eq_false_of_inWord lastInside]
      rfl

theorem print_quiet (t : Text) : printRule.Quiet none (printRule.apply t) :=
  print_quiet_of_rewrites (rewrites_applyFrom print_wordWise.bounded none t) rfl

/-- The name is called in a text, as a name of its own. -/
def CallsPrint (t : Text) : Prop :=
  ∃ front rest, t = front ++ (printName ++ rest) ∧ nameFree (edge none front) = true ∧
    opensCall rest = true

theorem print_quiet_iff {t : Text} : printRule.Quiet none t ↔ ¬ CallsPrint t := by
  constructor
  · rintro quiet ⟨front, rest, rfl, free, opens⟩
    have unmatched := quiet front (printName ++ rest) rfl (by simp [printName])
    rw [print_matched?_eq_some_iff.mpr ⟨free, ⟨rest, rfl, opens⟩, rfl⟩] at unmatched
    cases unmatched
  · rintro uncalled front ahead rfl -
    apply print_matched?_eq_none
    rintro free rest rfl
    by_contra opens
    exact uncalled ⟨front, rest, rfl, free, by simpa using opens⟩

theorem mem_of_opensCall {t : Text} (opens : opensCall t = true) : '(' ∈ t := by
  induction t with
  | nil => simp [opensCall, Text.trimStart] at opens
  | cons c rest ih =>
    rw [opensCall_cons] at opens
    split at opens
    · exact List.mem_cons_of_mem c (ih opens)
    · simp [(beq_iff_eq.mp opens)]

theorem print_applyFrom_eq_self (before : Option Char) {t : Text} (noCall : '(' ∉ t) :
    printRule.applyFrom before t = t := by
  apply applyFrom_of_quiet
  rintro p q rfl -
  apply print_matched?_eq_none
  rintro _ rest rfl
  by_contra opens
  apply noCall
  have inside := mem_of_opensCall (t := rest) (by simpa using opens)
  simp [inside]

/-- The rules before the one on calls work on both sides of a mark on their own. -/
theorem passes_append_cons {c : Char} (border : isWordChar c = false)
    (noSpace : isSpaceOrTab c = false) (noColon : c ≠ ':') (noBar : c ≠ '|') (x y : Text) :
    functionRule.apply (typingRule.apply (mutableRule.apply (x ++ c :: y))) =
      functionRule.apply (typingRule.apply (mutableRule.apply x)) ++
        c :: functionRule.apply (typingRule.apply (mutableRule.apply y)) := by
  rw [apply_append_of_blocks mutable_replaces.wordWise.bounded (mutable_replaces.blocks border),
    apply_append_of_blocks typing_wordWise.bounded (typing_blocks border noSpace noColon noBar),
    apply_append_of_blocks function_replaces.wordWise.bounded (function_replaces.blocks border)]

/-- Without an opening parenthesis three of the rules are left. -/
theorem lower_of_not_mem {t : Text} (noCall : '(' ∉ t) :
    lower t = functionRule.apply (typingRule.apply (mutableRule.apply t)) := by
  apply print_applyFrom_eq_self none
  intro membership
  apply noCall
  apply mem_of_mem_apply mutable_replaces.wordWise.bounded (by decide)
  apply mem_of_mem_apply typing_wordWise.bounded (by decide)
  exact mem_of_mem_apply function_replaces.wordWise.bounded (by decide) membership

end TypedScript.Lowering
