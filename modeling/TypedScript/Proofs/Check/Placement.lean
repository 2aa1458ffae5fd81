import TypedScript.Proofs.Check.Isolation
import TypedScript.Proofs.Text.Lines

set_option autoImplicit false

/-!
Where the lines of a check stand in the source. A line is numbered by the breaks
in front of it, of whatever kind, while a reader counts line feeds. The two counts
agree up to the first break that is no line feed, and nowhere behind it.
-/

namespace TypedScript

namespace Text

theorem pieces_begin {separator c : Char} (differs : c ≠ separator) (rest : Text) :
    pieces separator (c :: rest) = begin c (pieces separator rest) := by
  rw [pieces, if_neg differs]
  cases pieces separator rest <;> rfl

/-- A line of a source: no break stands in it, and breaks or the ends of the source are around it. -/
structure IsLine (source before line after : Text) : Prop where
  split : source = before ++ (line ++ after)
  opened : ∀ c ∈ before.getLast?, isLineBreak c = true
  unbroken : ∀ c ∈ line, isLineBreak c = false
  closed : ∀ c ∈ after.head?, isLineBreak c = true

/-- A line stays one when a break or a character of another line is put in front. -/
theorem IsLine.cons {c : Char} {source before line after : Text}
    (isLine : IsLine source before line after) (first : before = [] → isLineBreak c = true) :
    IsLine (c :: source) (c :: before) line after := by
  refine ⟨by simp [isLine.split], ?_, isLine.unbroken, isLine.closed⟩
  intro d last
  cases before with
  | nil =>
    obtain rfl : c = d := by simpa using last
    exact first rfl
  | cons e before => exact isLine.opened d (by simpa [List.getLast?_cons] using last)

/-- The line without breaks in front of it begins the source. -/
theorem IsLine.before_eq_nil {source before line after : Text}
    (isLine : IsLine source before line after) (none : before.countP isLineBreak = 0) :
    before = [] := by
  cases last : before.getLast? with
  | none => exact List.getLast?_eq_none_iff.mp last
  | some c =>
    have breaks := isLine.opened c last
    exact absurd breaks (List.countP_eq_zero.mp none c (List.mem_of_getLast? last))

theorem getElem?_begin_succ (c : Char) (parts : List Text) (place : Nat) :
    (begin c parts)[place + 1]? = parts[place + 1]? := by
  cases parts <;> simp [begin]

theorem getElem?_begin_zero (c : Char) (parts : List Text) :
    (begin c parts)[0]? = some (c :: parts.getD 0 []) := by
  cases parts <;> rfl

/-- The lines of a source are numbered by the breaks in front of them. -/
theorem exists_isLine_of_getElem? {source line : Text} {place : Nat} (free : '\r' ∉ source)
    (found : (lines source)[place]? = some line) :
    ∃ before after, IsLine source before line after ∧ before.countP isLineBreak = place := by
  induction source using breakRec generalizing place line with
  | nil => simp at found
  | pair rest => simp at free
  | single c rest breaks single ih =>
    rw [lines_break breaks single] at found
    cases place with
    | zero =>
      obtain rfl : [] = line := by simpa using found
      exact ⟨[], c :: rest, ⟨rfl, by simp, by simp, by simpa using breaks⟩, rfl⟩
    | succ place =>
      obtain ⟨before, after, isLine, count⟩ := ih (List.not_mem_of_not_mem_cons free) found
      exact ⟨c :: before, after, isLine.cons fun _ => breaks, by simp [breaks, count]⟩
  | inside c rest inside ih =>
    have restFree := List.not_mem_of_not_mem_cons free
    rw [lines_begin inside] at found
    cases place with
    | zero =>
      rw [getElem?_begin_zero, Option.some.injEq] at found
      subst found
      by_cases filled : rest = []
      · subst filled
        exact ⟨[], [], ⟨by simp, by simp, by simpa using inside, by simp⟩, rfl⟩
      · obtain ⟨first, more, cut⟩ := List.exists_cons_of_ne_nil (lines_ne_nil filled)
        have leads : (lines rest)[0]? = some first := by rw [cut, List.getElem?_cons_zero]
        obtain ⟨before, after, isLine, count⟩ := ih restFree leads
        obtain rfl := isLine.before_eq_nil count
        have split : c :: rest = [] ++ (c :: first ++ after) := congrArg (c :: ·) isLine.split
        rw [cut]
        exact ⟨[], after, ⟨split, by simp, by simpa [inside] using isLine.unbroken, isLine.closed⟩, rfl⟩
    | succ place =>
      rw [getElem?_begin_succ] at found
      obtain ⟨before, after, isLine, count⟩ := ih restFree found
      have filled : before ≠ [] := by
        rintro rfl
        simp at count
      exact ⟨c :: before, after, isLine.cons fun empty => absurd empty filled, by simp [inside, count]⟩

/-- The physical lines up to a place hold no break of another kind. -/
def Clear (source : Text) (place : Nat) : Prop :=
  ∀ piece ∈ (pieces '\n' source).take (place + 1), ∀ c ∈ piece, isLineBreak c = false

instance (source : Text) (place : Nat) : Decidable (Clear source place) :=
  decidable_of_iff (((pieces '\n' source).take (place + 1)).all (·.all (!isLineBreak ·)) = true)
    (by simp [Clear])

theorem Clear.of_lineFeed {rest : Text} {place : Nat} (clear : Clear ('\n' :: rest) (place + 1)) :
    Clear rest place := by
  intro piece membership
  refine clear piece ?_
  rw [pieces_separator, List.take_succ_cons]
  exact List.mem_cons_of_mem _ membership

theorem Clear.of_cons {c : Char} {rest : Text} {place : Nat} (differs : c ≠ '\n')
    (clear : Clear (c :: rest) place) : isLineBreak c = false ∧ Clear rest place := by
  obtain ⟨first, more, cut⟩ := List.exists_cons_of_ne_nil (pieces_ne_nil '\n' rest)
  unfold Clear at clear ⊢
  rw [pieces_begin differs, cut, begin, List.take_succ_cons, List.forall_mem_cons,
    List.forall_mem_cons] at clear
  rw [cut, List.take_succ_cons, List.forall_mem_cons]
  exact ⟨clear.1.1, clear.1.2, clear.2⟩

/-- As long as line feeds are the only breaks, the same texts stand in the lines and in the physical
lines; there may be an empty physical line at the end. -/
theorem getD_lines_of_clear {source : Text} {place : Nat} (free : '\r' ∉ source)
    (clear : Clear source place) :
    (lines source).getD place [] = (pieces '\n' source).getD place [] := by
  induction source using breakRec generalizing place with
  | nil => cases place <;> rfl
  | pair rest => simp at free
  | single c rest breaks single ih =>
    by_cases feed : c = '\n'
    · subst feed
      rw [lines_lineFeed, pieces_separator]
      cases place with
      | zero => rfl
      | succ place => exact ih (List.not_mem_of_not_mem_cons free) clear.of_lineFeed
    · exact absurd breaks (by simp [(clear.of_cons feed).1])
  | inside c rest inside ih =>
    have noFeed : c ≠ '\n' := by
      rintro rfl
      simp [isLineBreak_lineFeed] at inside
    have same := ih (List.not_mem_of_not_mem_cons free) (clear.of_cons noFeed).2
    rw [lines_begin inside, pieces_begin noFeed]
    rw [List.getD_eq_getElem?_getD, List.getD_eq_getElem?_getD]
    cases place with
    | zero => rw [getElem?_begin_zero, getElem?_begin_zero, same]
    | succ place =>
      rw [getElem?_begin_succ, getElem?_begin_succ, ← List.getD_eq_getElem?_getD, same,
        List.getD_eq_getElem?_getD]

/-- The number of breaks is the number of line feeds exactly if there are no others. -/
theorem countP_isLineBreak_eq_iff (t : Text) :
    t.countP isLineBreak = t.count '\n' ↔ ∀ c ∈ t, isLineBreak c = true → c = '\n' := by
  have fewer : ∀ t : Text, t.count '\n' ≤ t.countP isLineBreak := fun t =>
    List.countP_mono_left fun c _ feed => by rw [eq_of_beq feed]; exact isLineBreak_lineFeed
  induction t with
  | nil => simp
  | cons c t ih =>
    have bound := fewer t
    by_cases feed : c = '\n'
    · subst feed
      simp [isLineBreak_lineFeed, ih]
    · cases breaks : isLineBreak c with
      | false => simp [breaks, feed, ih]
      | true =>
        simp only [List.countP_cons, List.count_cons, breaks, beq_iff_eq, feed, if_true, if_false,
          List.forall_mem_cons, false_and, iff_false, forall_const]
        omega

end Text

namespace Check

/-- What a mismatch says of a text: it declares the subject, or it returns. -/
def Concerns (m : Mismatch) (t : Text) : Prop :=
  match m.kind with
  | .assigned => ∃ d, Line.classify m.line t = some (.declaration d) ∧ d.name = m.subject
  | .returned => ∃ value line, Line.classify m.line t = some (.returns value line)

/-- What is reported under the number of a physical line is about that line, and a wrong declaration
in it is reported under that number. -/
def NumberedAt (source : Text) (place : Nat) : Prop :=
  (∀ m ∈ (check source).mismatches, m.line = place + 1 →
      ∃ t, (Text.pieces '\n' source)[place]? = some t ∧ Concerns m t) ∧
    ∀ t d, (Text.pieces '\n' source)[place]? = some t →
      Line.classify (place + 1) t = some (.declaration d) →
      d.declared.admits (literalType d.value) = false →
      ⟨place + 1, d.name, d.declared.text, literalType d.value, .assigned⟩ ∈ (check source).mismatches

theorem mem_mismatches_iff {source : Text} {m : Mismatch} :
    m ∈ (check source).mismatches ↔ ∃ place, Fault source place m := by
  rw [check_mismatches, mem_announced_iff]

/-- A fault is about the text at its place, in every division of the source that has the same record
there. -/
theorem Fault.exists_concerns {source : Text} {place : Nat} {m : Mismatch} {parts : List Text}
    (fault : Fault source place m)
    (same : recordAt? source place = parts[place]?.bind (Line.classify (place + 1))) :
    ∃ t, parts[place]? = some t ∧ Concerns m t := by
  cases fault with
  | assigned found _ =>
    rw [same] at found
    obtain ⟨t, present, classified⟩ := Option.bind_eq_some_iff.mp found
    exact ⟨t, present, _, classified, rfl⟩
  | returned found _ _ _ _ =>
    rw [same] at found
    obtain ⟨t, present, classified⟩ := Option.bind_eq_some_iff.mp found
    exact ⟨t, present, _, _, classified⟩

theorem bind_classify (parts : List Text) (place : Nat) (line : Int) :
    parts[place]?.bind (Line.classify line) = Line.classify line (parts.getD place []) := by
  rw [List.getD_eq_getElem?_getD]
  cases parts[place]? with
  | none => exact (classify_nil line).symm
  | some t => rfl

/-- The records of the physical lines are those of the lines as long as line feeds are the only
breaks. -/
theorem recordAt?_of_clear {source : Text} {place : Nat} (free : '\r' ∉ source)
    (clear : Text.Clear source place) :
    recordAt? source place = (Text.pieces '\n' source)[place]?.bind (Line.classify (place + 1)) := by
  rw [recordAt?, bind_classify, bind_classify, Text.getD_lines_of_clear free clear]

theorem numberedAt_of_clear {source : Text} {place : Nat} (free : '\r' ∉ source)
    (clear : Text.Clear source place) : NumberedAt source place := by
  have same := recordAt?_of_clear free clear
  constructor
  · intro m reported number
    obtain ⟨found, fault⟩ := mem_mismatches_iff.mp reported
    have atPlace : found = place := by
      have := fault.line_eq
      omega
    subst atPlace
    exact fault.exists_concerns same
  · intro t d present classified excluded
    have record : recordAt? source place = some (.declaration d) := by
      rw [same, present, Option.bind_some, classified]
    exact mem_mismatches_iff.mpr
      ⟨place, .assigned record ((TypeUnion.admits_eq_false_iff _ _).mp excluded)⟩

/-- Reported numbers count the breaks of every kind in front of a line. Such a number is that of the
physical line exactly if all these breaks are line feeds. Up to the first break of another kind, what
is reported under a number is about the physical line with that number, and every wrong declaration is
reported under its own. -/
theorem check_numbers_lines (source : Text) (free : '\r' ∉ source) :
    (∀ m ∈ (check source).mismatches, ∃ before t after,
        Text.IsLine source before t after ∧ Concerns m t ∧
        m.line = before.countP isLineBreak + 1 ∧
        (m.line = before.count '\n' + 1 ↔ ∀ c ∈ before, isLineBreak c = true → c = '\n')) ∧
      ∀ place, Text.Clear source place → NumberedAt source place := by
  refine ⟨?_, fun place => numberedAt_of_clear free⟩
  intro m reported
  obtain ⟨place, fault⟩ := mem_mismatches_iff.mp reported
  obtain ⟨t, present, concerns⟩ := fault.exists_concerns rfl
  obtain ⟨before, after, isLine, count⟩ := Text.exists_isLine_of_getElem? free present
  refine ⟨before, t, after, isLine, concerns, by rw [count, fault.line_eq], ?_⟩
  rw [← Text.countP_isLineBreak_eq_iff, count, fault.line_eq]
  omega

/-- The first physical line is clear, the second one is not. -/
theorem check_numbers_lines_first :
    '\r' ∉ "let x: number = 'a'\n\x0clet y: number = 'b'".toList ∧
      (⟨1, ['x'], "number".toList, .string, .assigned⟩ : Mismatch) ∈
        (check "let x: number = 'a'\n\x0clet y: number = 'b'".toList).mismatches := by
  have free : '\r' ∉ "let x: number = 'a'\n\x0clet y: number = 'b'".toList := by decide
  refine ⟨free, ?_⟩
  have clear : Text.Clear "let x: number = 'a'\n\x0clet y: number = 'b'".toList 0 := by decide
  exact ((check_numbers_lines _ free).2 0 clear).2 "let x: number = 'a'".toList
    ⟨.plain, ['x'], ⟨["number".toList]⟩, "'a'".toList, 1⟩ (by decide) (by decide +kernel) (by decide)

/-- A page break on a line of its own moves the number of what follows: there is no third line here. -/
theorem not_numberedAt_page_break :
    '\r' ∉ "\x0c\nlet x: number = \"a\"".toList ∧
      ¬ NumberedAt "\x0c\nlet x: number = \"a\"".toList 2 := by
  refine ⟨by decide, ?_⟩
  rintro ⟨about, -⟩
  have reported : (⟨3, ['x'], "number".toList, .string, .assigned⟩ : Mismatch) ∈
      (check "\x0c\nlet x: number = \"a\"".toList).mismatches := by decide +kernel
  have missing : (Text.pieces '\n' "\x0c\nlet x: number = \"a\"".toList)[2]? = none := by decide
  obtain ⟨t, present, -⟩ := about _ reported rfl
  rw [missing] at present
  contradiction

end Check
end TypedScript
