set_option autoImplicit false

/-!
Source text is a list of characters. Cutting at a separator and joining again
are inverse to each other as long as no piece holds the separator.
-/

namespace TypedScript

abbrev Text := List Char

namespace Text

/-- The pieces between separators; there is always at least one. -/
def pieces (separator : Char) : Text → List Text
  | [] => [[]]
  | c :: rest =>
    if c = separator then [] :: pieces separator rest
    else match pieces separator rest with
      | [] => [[c]]
      | piece :: more => (c :: piece) :: more

/-- The pieces with the separator written between them. -/
def join (separator : Text) : List Text → Text
  | [] => []
  | [piece] => piece
  | piece :: more => piece ++ separator ++ join separator more

/-- The part before the first separator and the part after it, if there is one. -/
def cut? (separator : Char) : Text → Option (Text × Text)
  | [] => none
  | c :: rest =>
    if c = separator then some ([], rest)
    else (cut? separator rest).map fun (before, after) => (c :: before, after)

@[simp] theorem pieces_nil (separator : Char) : pieces separator [] = [[]] := rfl

@[simp] theorem pieces_separator (separator : Char) (rest : Text) :
    pieces separator (separator :: rest) = [] :: pieces separator rest := by simp [pieces]

theorem pieces_ne_nil (separator : Char) (t : Text) : pieces separator t ≠ [] := by
  induction t with
  | nil => simp
  | cons c rest ih =>
    simp only [pieces]
    split
    · simp
    · split <;> simp

@[simp] theorem join_nil (separator : Text) : join separator [] = [] := rfl

@[simp] theorem join_singleton (separator piece : Text) : join separator [piece] = piece := rfl

theorem join_cons (separator piece : Text) {more : List Text} (h : more ≠ []) :
    join separator (piece :: more) = piece ++ separator ++ join separator more := by
  cases more with
  | nil => exact absurd rfl h
  | cons => rfl

theorem join_pieces (separator : Char) (t : Text) :
    join [separator] (pieces separator t) = t := by
  induction t with
  | nil => rfl
  | cons c rest ih =>
    simp only [pieces]
    split
    case isTrue h => rw [join_cons _ _ (pieces_ne_nil _ _), ih, h]; rfl
    case isFalse =>
      split
      case h_1 h => exact absurd h (pieces_ne_nil _ _)
      case h_2 piece more h =>
        rw [h] at ih
        cases more with
        | nil => simpa using ih
        | cons => simpa [join] using ih

theorem mem_join_iff {c : Char} {separator : Text} (apart : c ∉ separator) (parts : List Text) :
    c ∈ join separator parts ↔ ∃ part ∈ parts, c ∈ part := by
  induction parts with
  | nil => simp
  | cons first more ih =>
    by_cases last : more = []
    · subst last
      simp
    · simp [join_cons _ _ last, apart, ih]

theorem pieces_of_not_mem {separator : Char} {t : Text} (free : separator ∉ t) :
    pieces separator t = [t] := by
  induction t with
  | nil => rfl
  | cons c rest ih =>
    simp only [List.mem_cons, not_or] at free
    obtain ⟨differs, free⟩ := free
    rw [pieces, if_neg (Ne.symm differs), ih free]

theorem pieces_append_separator {separator : Char} {t : Text} (rest : Text)
    (free : separator ∉ t) :
    pieces separator (t ++ separator :: rest) = t :: pieces separator rest := by
  induction t with
  | nil => simp
  | cons c t ih =>
    simp only [List.mem_cons, not_or] at free
    obtain ⟨differs, free⟩ := free
    rw [List.cons_append, pieces, if_neg (Ne.symm differs), ih free]

theorem pieces_join {separator : Char} {parts : List Text} (filled : parts ≠ [])
    (free : ∀ part ∈ parts, separator ∉ part) :
    pieces separator (join [separator] parts) = parts := by
  induction parts with
  | nil => exact absurd rfl filled
  | cons first more ih =>
    have firstFree := free first (by simp)
    by_cases last : more = []
    · subst last
      rw [join_singleton, pieces_of_not_mem firstFree]
    · rw [join_cons _ _ last, List.append_assoc, List.singleton_append,
        pieces_append_separator _ firstFree,
        ih last fun part membership => free part (by simp [membership])]

theorem not_mem_of_mem_pieces {separator : Char} {t piece : Text}
    (membership : piece ∈ pieces separator t) : separator ∉ piece := by
  induction t generalizing piece with
  | nil => simp_all
  | cons c rest ih =>
    simp only [pieces] at membership
    split at membership
    case isTrue =>
      rcases List.mem_cons.mp membership with rfl | later
      · simp
      · exact ih later
    case isFalse differs =>
      split at membership
      case h_1 none => exact absurd none (pieces_ne_nil _ _)
      case h_2 first more split =>
        rcases List.mem_cons.mp membership with rfl | later
        · have others : separator ∉ first := ih (by simp [split])
          simp [others, Ne.symm differs]
        · exact ih (by simp [split, later])

end Text

/-- The character of a code point. A surrogate is none on its own and is read as the replacement
character. -/
def charOfCode? (code : Nat) : Option Char :=
  if code.isValidChar then some (Char.ofNat code)
  else if code < 0x110000 then some '\uFFFD'
  else none

end TypedScript
