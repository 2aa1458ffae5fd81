import TypedScript.Text.Lines

set_option autoImplicit false

/-!
How a text is cut into lines at a line feed. What stands behind the line feed is
cut on its own; what stands before it keeps its lines, and an empty one is added
where no line was begun. A carriage return at the end of the first part is one
break together with the line feed, so line feeds may be spelled with one.
-/

namespace TypedScript.Text

theorem isLineBreak_lineFeed : isLineBreak '\n' = true := by decide

theorem isLineBreak_carriageReturn : isLineBreak '\r' = true := by decide

/-- A character is a break of its own unless it is the first half of a longer one. -/
def Single (c : Char) (rest : Text) : Prop := c = '\r' → rest.head? ≠ some '\n'

theorem single_lineFeed (rest : Text) : Single '\n' rest := by simp [Single]

@[simp] theorem lines_nil : lines [] = [] := by rw [lines]

theorem lines_pair (rest : Text) : lines ('\r' :: '\n' :: rest) = [] :: lines rest := by rw [lines]

theorem lines_break {c : Char} {rest : Text} (breaks : isLineBreak c = true)
    (single : Single c rest) : lines (c :: rest) = [] :: lines rest := by
  rw [lines]
  · rw [if_pos breaks]
  · rintro tail rfl rfl
    exact single rfl rfl

theorem lines_lineFeed (rest : Text) : lines ('\n' :: rest) = [] :: lines rest :=
  lines_break isLineBreak_lineFeed (single_lineFeed rest)

/-- Lines with one more character in front of the first one. -/
def begin (c : Char) : List Text → List Text
  | [] => [[c]]
  | line :: more => (c :: line) :: more

theorem begin_append (c : Char) {first : List Text} (more : List Text) (filled : first ≠ []) :
    begin c (first ++ more) = begin c first ++ more := by
  cases first with
  | nil => exact absurd rfl filled
  | cons line others => rfl

theorem lines_begin {c : Char} (inside : isLineBreak c = false) (rest : Text) :
    lines (c :: rest) = begin c (lines rest) := by
  rw [lines]
  · rw [if_neg (by simp [inside])]
    cases lines rest <;> rfl
  · rintro tail rfl
    simp [isLineBreak_carriageReturn] at inside

/-- Texts by their line breaks: a pair, a single break, or a character of a line comes first. -/
@[elab_as_elim]
theorem breakRec {motive : Text → Prop} (nil : motive [])
    (pair : ∀ rest, motive rest → motive ('\r' :: '\n' :: rest))
    (single : ∀ c rest, isLineBreak c = true → Single c rest → motive rest → motive (c :: rest))
    (inside : ∀ c rest, isLineBreak c = false → motive rest → motive (c :: rest)) (t : Text) :
    motive t := by
  fun_induction lines t with
  | case1 => exact nil
  | case2 rest ih => exact pair rest ih
  | case3 c rest whole breaks ih =>
    refine single c rest breaks ?_ ih
    rintro rfl first
    obtain ⟨tail, rfl⟩ := List.head?_eq_some_iff.mp first
    exact whole tail rfl rfl
  | case4 c rest _ noBreak _ ih => exact inside c rest (by simpa using noBreak) ih
  | case5 c rest _ noBreak _ _ _ ih => exact inside c rest (by simpa using noBreak) ih

theorem lines_ne_nil {t : Text} (filled : t ≠ []) : lines t ≠ [] := by
  induction t using breakRec with
  | nil => exact absurd rfl filled
  | pair rest => simp [lines_pair]
  | single c rest breaks single => simp [lines_break breaks single]
  | inside c rest inside =>
    rw [lines_begin inside]
    cases lines rest <;> simp [begin]

/-- A single break in front of a text stays single when the text goes on, if there is any text. -/
theorem Single.append {c : Char} {rest : Text} (single : Single c rest) (filled : rest ≠ [])
    (more : Text) : Single c (rest ++ more) := by
  intro isReturn
  rw [List.head?_append, List.head?_eq_some_head filled, Option.some_or,
    ← List.head?_eq_some_head filled]
  exact single isReturn

/-- In front of a line feed a text keeps its lines, with empty ones behind them that depend on the
text alone; behind it the other text has its own. -/
theorem exists_lines_append_lineFeed (a : Text) :
    ∃ gap, (∀ line ∈ gap, line = []) ∧ ∀ b, lines (a ++ '\n' :: b) = lines a ++ gap ++ lines b := by
  induction a using breakRec with
  | nil => exact ⟨[[]], by simp, fun b => by simp [lines_lineFeed]⟩
  | pair rest ih =>
    obtain ⟨gap, empty, split⟩ := ih
    exact ⟨gap, empty, fun b => by simp [lines_pair, split]⟩
  | single c rest breaks single ih =>
    by_cases filled : rest = []
    · subst filled
      by_cases isReturn : c = '\r'
      · -- the two characters are one break, which no line follows
        subst isReturn
        exact ⟨[], by simp, fun b => by simp [lines_pair, lines_break breaks single]⟩
      · have alone : ∀ more, Single c more := fun _ same => absurd same isReturn
        exact ⟨[[]], by simp, fun b => by simp [lines_break breaks (alone _), lines_lineFeed]⟩
    · obtain ⟨gap, empty, split⟩ := ih
      refine ⟨gap, empty, fun b => ?_⟩
      rw [List.cons_append, lines_break breaks (single.append filled _), lines_break breaks single,
        split, List.cons_append, List.cons_append]
  | inside c rest inside ih =>
    by_cases filled : rest = []
    · subst filled
      exact ⟨[], by simp, fun b => by simp [lines_begin inside, lines_lineFeed, begin]⟩
    · obtain ⟨gap, empty, split⟩ := ih
      refine ⟨gap, empty, fun b => ?_⟩
      rw [List.cons_append, lines_begin inside, lines_begin inside, split, List.append_assoc,
        begin_append c _ (lines_ne_nil filled), List.append_assoc]

theorem lines_append_lineFeed (a b : Text) :
    lines (a ++ '\n' :: b) = lines (a ++ ['\n']) ++ lines b := by
  obtain ⟨gap, -, split⟩ := exists_lines_append_lineFeed a
  rw [split b, split [], lines_nil, List.append_nil]

/-- The text with a carriage return in front of every line feed. -/
def crlf : Text → Text
  | [] => []
  | c :: rest => if c = '\n' then '\r' :: '\n' :: crlf rest else c :: crlf rest

@[simp] theorem crlf_nil : crlf [] = [] := rfl

@[simp] theorem crlf_lineFeed (rest : Text) : crlf ('\n' :: rest) = '\r' :: '\n' :: crlf rest := by
  simp [crlf]

theorem crlf_cons {c : Char} (other : c ≠ '\n') (rest : Text) : crlf (c :: rest) = c :: crlf rest := by
  simp [crlf, other]

theorem crlf_append_of_not_mem {x : Text} (free : '\n' ∉ x) (y : Text) :
    crlf (x ++ y) = x ++ crlf y := by
  induction x with
  | nil => rfl
  | cons c x ih =>
    simp only [List.mem_cons, not_or] at free
    rw [List.cons_append, crlf_cons (Ne.symm free.1), ih free.2, List.cons_append]

theorem crlf_of_not_mem {t : Text} (free : '\n' ∉ t) : crlf t = t := by
  have whole := crlf_append_of_not_mem free []
  rwa [List.append_nil, crlf_nil, List.append_nil] at whole

/-- What a text begins with, apart from breaks, it begins with in the other spelling. -/
theorem exists_of_crlf_eq_append {t first rest : Text} (noFeed : '\n' ∉ first) (noReturn : '\r' ∉ first)
    (split : crlf t = first ++ rest) : ∃ y, t = first ++ y ∧ rest = crlf y := by
  induction first generalizing t with
  | nil => exact ⟨t, rfl, split.symm⟩
  | cons c first ih =>
    simp only [List.mem_cons, not_or] at noFeed noReturn
    cases t with
    | nil => simp at split
    | cons d t =>
      by_cases feed : d = '\n'
      · subst feed
        rw [crlf_lineFeed] at split
        exact absurd (List.cons.inj split).1 noReturn.1
      · rw [crlf_cons feed] at split
        obtain ⟨rfl, later⟩ := List.cons.inj split
        obtain ⟨y, rfl, same⟩ := ih noFeed.2 noReturn.2 later
        exact ⟨y, rfl, same⟩

/-- A text without carriage returns has the same lines in the other spelling. -/
theorem lines_crlf {t : Text} (free : '\r' ∉ t) : lines (crlf t) = lines t := by
  induction t using breakRec with
  | nil => rfl
  | pair rest => simp at free
  | single c rest breaks single ih =>
    simp only [List.mem_cons, not_or] at free
    by_cases feed : c = '\n'
    · subst feed
      rw [crlf_lineFeed, lines_pair, lines_lineFeed, ih free.2]
    · have alone : Single c (crlf rest) := fun isReturn => absurd isReturn.symm free.1
      rw [crlf_cons feed, lines_break breaks alone, lines_break breaks single, ih free.2]
  | inside c rest inside ih =>
    simp only [List.mem_cons, not_or] at free
    have noFeed : c ≠ '\n' := by
      rintro rfl
      simp [isLineBreak_lineFeed] at inside
    rw [crlf_cons noFeed, lines_begin inside, lines_begin inside, ih free.2]

end TypedScript.Text
