import TypedScript.Files.Path

set_option autoImplicit false

/-!
Paths in normal form. A path that is read from a text is in normal form, and a
path in normal form is read back from its text.
-/

namespace TypedScript.Path

/-- Every component is one that a text can have: neither empty nor a dot, and without slashes. -/
def Normal (p : Path) : Prop := ∀ part ∈ p.parts, isPart part = true ∧ '/' ∉ part

instance (p : Path) : Decidable p.Normal := inferInstanceAs (Decidable (∀ part ∈ p.parts, _))

theorem normal_ofText (t : Text) : (ofText t).Normal := by
  intro part membership
  obtain ⟨inside, isPart⟩ := List.mem_filter.mp membership
  exact ⟨isPart, Text.not_mem_of_mem_pieces inside⟩

theorem Normal.join {base : Path} (normal : base.Normal) (t : Text) : (base.join t).Normal := by
  simp only [Path.join]
  split
  · intro part membership
    rcases List.mem_append.mp membership with before | behind
    · exact normal part before
    · exact normal_ofText t part behind
  · exact normal_ofText t

/-- A character that is neither a slash nor a dot stands in a path if it stands in a component. -/
theorem mem_text_iff {c : Char} (noSlash : c ≠ '/') (noDot : c ≠ '.') (p : Path) :
    c ∈ p.text ↔ ∃ part ∈ p.parts, c ∈ part := by
  have apart : c ∉ ['/'] := by simpa using noSlash
  have outside : c ∉ p.root.text := by cases p.root <;> simp [PathRoot.text, noSlash]
  unfold text
  split
  next bare => simp [bare.2, noDot]
  next => simp [outside, Text.mem_join_iff apart]

theorem mem_text_of_mem_parent {c : Char} {p : Path} (noSlash : c ≠ '/') (noDot : c ≠ '.')
    (inside : c ∈ p.parent.text) : c ∈ p.text := by
  rw [mem_text_iff noSlash noDot] at inside ⊢
  obtain ⟨part, membership, inside⟩ := inside
  exact ⟨part, (List.dropLast_sublist _).mem membership, inside⟩

theorem exists_mem_parts_ofText {c : Char} {t : Text} (noSlash : c ≠ '/') (noDot : c ≠ '.')
    (inside : c ∈ t) : ∃ part ∈ (ofText t).parts, c ∈ part := by
  rw [← Text.join_pieces '/' t, Text.mem_join_iff (by simpa using noSlash)] at inside
  obtain ⟨piece, membership, inside⟩ := inside
  refine ⟨piece, List.mem_filter.mpr ⟨membership, ?_⟩, inside⟩
  have filled : piece ≠ [] := List.ne_nil_of_mem inside
  have differs : piece ≠ ['.'] := by
    rintro rfl
    simp [noDot] at inside
  simp [isPart, filled, differs]

theorem join_parts_ne_nil (base : Path) {c : Char} {t : Text} (noSlash : c ≠ '/') (noDot : c ≠ '.')
    (inside : c ∈ t) : (base.join t).parts ≠ [] := by
  obtain ⟨part, membership, -⟩ := exists_mem_parts_ofText noSlash noDot inside
  have filled := List.ne_nil_of_mem membership
  simp only [Path.join]
  split
  · simp [filled]
  · exact filled

/-- The text of components begins with a character that is no slash. -/
theorem exists_head_join {parts : List Text} (filled : parts ≠ [])
    (normal : ∀ part ∈ parts, isPart part = true ∧ '/' ∉ part) :
    ∃ c rest, Text.join ['/'] parts = c :: rest ∧ c ≠ '/' := by
  obtain ⟨first, more, rfl⟩ := List.exists_cons_of_ne_nil filled
  obtain ⟨isPart, noSlash⟩ := normal first (by simp)
  have present : first ≠ [] := by
    rintro rfl
    simp [Path.isPart] at isPart
  obtain ⟨c, rest, rfl⟩ := List.exists_cons_of_ne_nil present
  have differs : c ≠ '/' := fun same => noSlash (by simp [same])
  by_cases last : more = []
  · subst last
    exact ⟨c, rest, rfl, differs⟩
  · exact ⟨c, _, Text.join_cons _ _ last, differs⟩

/-- A path in normal form is the path of its text. -/
theorem ofText_text {p : Path} (normal : p.Normal) : ofText p.text = p := by
  obtain ⟨root, parts⟩ := p
  by_cases filled : parts = []
  · subst filled
    cases root <;> rfl
  · obtain ⟨c, rest, leads, differs⟩ := exists_head_join filled normal
    have cut : (Text.pieces '/' (Text.join ['/'] parts)).filter isPart = parts := by
      rw [Text.pieces_join filled fun part membership => (normal part membership).2]
      exact List.filter_eq_self.mpr fun part membership => (normal part membership).1
    have text : text ⟨root, parts⟩ = root.text ++ Text.join ['/'] parts := by simp [Path.text, filled]
    have roots : rootOf (root.text ++ Text.join ['/'] parts) = root := by
      rw [leads]
      cases root <;> simp [PathRoot.text, rootOf, differs]
    have slashes : (Text.pieces '/' (root.text ++ Text.join ['/'] parts)).filter isPart = parts := by
      cases root <;> simpa [PathRoot.text, isPart] using cut
    rw [text, ofText, roots, slashes]

theorem Normal.text_ne_nil {p : Path} (normal : p.Normal) : p.text ≠ [] := by
  intro empty
  -- the empty text is that of the path which is written as a dot
  have bare : p = ofText [] := by rw [← empty, ofText_text normal]
  rw [bare] at empty
  cases empty

end TypedScript.Path
