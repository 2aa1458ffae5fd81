import TypedScript.Text.Blank

set_option autoImplicit false

/-!
Texts without blanks at their ends. Trimming gives such a text and leaves one
alone, and what it takes away is blank.
-/

namespace TypedScript.Text

/-- Neither the first nor the last character is blank. -/
def Flush (t : Text) : Prop :=
  (∀ c ∈ t.head?, isBlank c = false) ∧ ∀ c ∈ t.getLast?, isBlank c = false

theorem flush_of_solid {t : Text} (solid : ∀ c ∈ t, isBlank c = false) : Flush t :=
  ⟨fun c first => solid c (List.mem_of_head? first), fun c last => solid c (List.mem_of_getLast? last)⟩

theorem head?_trimStart (t : Text) : ∀ c ∈ (trimStart t).head?, isBlank c = false := by
  intro c first
  have dropped := List.head?_dropWhile_not isBlank t
  rw [← trimStart, Option.mem_def.mp first] at dropped
  simpa using dropped

theorem trimStart_eq_self {t : Text} (solid : ∀ c ∈ t.head?, isBlank c = false) :
    trimStart t = t := by
  cases t with
  | nil => rfl
  | cons c rest => simp [trimStart, solid c (by simp)]

theorem trimStart_blank {c : Char} (rest : Text) (blank : isBlank c = true) :
    trimStart (c :: rest) = trimStart rest := by simp [trimStart, blank]

theorem trimEnd_eq_reverse (t : Text) : trimEnd t = (trimStart t.reverse).reverse := rfl

theorem exists_trimStart_append (t : Text) :
    ∃ lead, t = lead ++ trimStart t ∧ ∀ c ∈ lead, isBlank c = true :=
  ⟨t.takeWhile isBlank, List.takeWhile_append_dropWhile.symm,
    fun c membership => List.all_eq_true.mp List.all_takeWhile c membership⟩

theorem exists_trimEnd_append (t : Text) :
    ∃ trail, t = trimEnd t ++ trail ∧ ∀ c ∈ trail, isBlank c = true := by
  obtain ⟨lead, split, blank⟩ := exists_trimStart_append t.reverse
  refine ⟨lead.reverse, ?_, by simpa using blank⟩
  rw [trimEnd_eq_reverse, ← List.reverse_append, ← split, List.reverse_reverse]

theorem getLast?_trimEnd (t : Text) : ∀ c ∈ (trimEnd t).getLast?, isBlank c = false := by
  rw [trimEnd_eq_reverse, List.getLast?_reverse]
  exact head?_trimStart t.reverse

theorem trimEnd_eq_self {t : Text} (solid : ∀ c ∈ t.getLast?, isBlank c = false) :
    trimEnd t = t := by
  rw [trimEnd_eq_reverse, trimStart_eq_self, List.reverse_reverse]
  rwa [List.head?_reverse]

/-- What begins without a blank still does so when blanks are taken from its end. -/
theorem flush_trimEnd {t : Text} (solid : ∀ c ∈ t.head?, isBlank c = false) : Flush (trimEnd t) := by
  refine ⟨?_, getLast?_trimEnd t⟩
  intro c first
  obtain ⟨trail, split, -⟩ := exists_trimEnd_append t
  apply solid c
  rw [split, List.head?_append, Option.mem_def.mp first]
  rfl

theorem flush_trim (t : Text) : Flush (trim t) := flush_trimEnd (head?_trimStart t)

theorem trim_of_flush {t : Text} (flush : Flush t) : trim t = t := by
  rw [trim, trimStart_eq_self flush.1, trimEnd_eq_self flush.2]

theorem trimEnd_append_blank {gap : Text} (x : Text) (blank : ∀ c ∈ gap, isBlank c = true) :
    trimEnd (x ++ gap) = trimEnd x := by
  rw [trimEnd, List.reverse_append, List.dropWhile_append_of_pos (by simpa using blank), trimEnd]

theorem exists_trim_split (t : Text) :
    ∃ lead trail, t = lead ++ (trim t ++ trail) ∧ (∀ c ∈ lead, isBlank c = true) ∧
      ∀ c ∈ trail, isBlank c = true := by
  obtain ⟨lead, split, leadBlank⟩ := exists_trimStart_append t
  obtain ⟨trail, rest, trailBlank⟩ := exists_trimEnd_append (trimStart t)
  exact ⟨lead, trail, by rw [trim, ← rest, ← split], leadBlank, trailBlank⟩

theorem trimStart_append_blank {gap : Text} (x : Text) (blank : ∀ c ∈ gap, isBlank c = true) :
    trimStart (gap ++ x) = trimStart x :=
  List.dropWhile_append_of_pos blank

/-- Trimming finds the text between the blanks around it. -/
theorem trim_eq_iff {t w : Text} (flush : Flush w) :
    trim t = w ↔ ∃ lead trail, t = lead ++ (w ++ trail) ∧ (∀ c ∈ lead, isBlank c = true) ∧
      ∀ c ∈ trail, isBlank c = true := by
  constructor
  · intro trimmed
    obtain ⟨lead, trail, split, blanks⟩ := exists_trim_split t
    rw [trimmed] at split
    exact ⟨lead, trail, split, blanks⟩
  · rintro ⟨lead, trail, rfl, leadBlank, trailBlank⟩
    rw [trim, trimStart_append_blank _ leadBlank]
    cases w with
    | nil =>
      have nothing := trimStart_append_blank [] trailBlank
      rw [List.append_nil] at nothing
      rw [List.nil_append, nothing]
      rfl
    | cons c w =>
      have solid : trimStart ((c :: w) ++ trail) = (c :: w) ++ trail := trimStart_eq_self flush.1
      rw [solid, trimEnd_append_blank _ trailBlank, trimEnd_eq_self flush.2]

/-- The first character that is not blank stays the first one. -/
theorem head?_trim_append {gap : Text} {c : Char} (rest : Text)
    (blank : ∀ d ∈ gap, isBlank d = true) (solid : isBlank c = false) :
    (trim (gap ++ c :: rest)).head? = some c := by
  have front : trimStart (c :: rest) = c :: rest := trimStart_eq_self (by simpa using solid)
  obtain ⟨trail, split, trailBlank⟩ := exists_trimEnd_append (c :: rest)
  rw [trim, trimStart_append_blank _ blank, front]
  cases kept : trimEnd (c :: rest) with
  | nil =>
    rw [kept, List.nil_append] at split
    have first := trailBlank c (by simp [← split])
    simp [solid] at first
  | cons d more =>
    rw [kept, List.cons_append] at split
    rw [List.head?_cons, (List.cons.inj split).1]

/-- A character that is not blank ends the trimmed text behind which it stands, with the blanks that
were there. -/
theorem exists_trim_concat {c : Char} (solid : isBlank c = false) (t : Text) :
    ∃ gap, (∀ d ∈ gap, isBlank d = true) ∧ trim (t ++ [c]) = trim t ++ (gap ++ [c]) := by
  obtain ⟨lead, trail, split, leadBlank, trailBlank⟩ := exists_trim_split t
  have flush := flush_trim t
  generalize trim t = body at split flush
  subst split
  cases body with
  | nil =>
    have alone : Flush [c] := flush_of_solid (by simpa using solid)
    refine ⟨[], by simp, (trim_eq_iff alone).mpr ⟨lead ++ trail, [], by simp, ?_, by simp⟩⟩
    intro d membership
    exact (List.mem_append.mp membership).elim (leadBlank d) (trailBlank d)
  | cons first body =>
    have whole : Flush (first :: body ++ (trail ++ [c])) := by
      refine ⟨flush.1, ?_⟩
      rw [← List.append_assoc, List.getLast?_concat]
      simpa using solid
    exact ⟨trail, trailBlank, (trim_eq_iff whole).mpr ⟨lead, [], by simp, leadBlank, by simp⟩⟩

theorem trim_append_blank {gap : Text} (t : Text) (blank : ∀ c ∈ gap, isBlank c = true) :
    trim (t ++ gap) = trim t := by
  obtain ⟨lead, trail, split, leadBlank, trailBlank⟩ := exists_trim_split t
  have whole := congrArg (· ++ gap) split
  refine (trim_eq_iff (flush_trim t)).mpr ⟨lead, trail ++ gap, by simpa using whole, leadBlank, ?_⟩
  intro c membership
  exact (List.mem_append.mp membership).elim (trailBlank c) (blank c)

/-- A text that ends without a blank ends as it does when it is trimmed. -/
theorem getLast?_of_trim {t : Text} {c : Char} (solid : ∀ d ∈ t.getLast?, isBlank d = false)
    (last : (trim t).getLast? = some c) : t.getLast? = some c := by
  obtain ⟨lead, split, -⟩ := exists_trimStart_append t
  rw [trim] at last
  generalize trimStart t = body at split last
  subst split
  cases body with
  | nil => simp [trimEnd] at last
  | cons first body =>
    have same : (lead ++ first :: body).getLast? = (first :: body).getLast? := by
      simp [List.getLast?_append, List.getLast?_cons]
    rw [same] at solid ⊢
    rwa [trimEnd_eq_self solid] at last

end TypedScript.Text
