import TypedScript.Value.Merge

set_option autoImplicit false

/-!
What mappings hold under texts. A text is the same key as itself alone, so an
insertion changes what one text holds, and a merge can be described text by
text.
-/

namespace TypedScript

namespace Value

theorem canonical_eq_str_iff {key : Value} {name : String} :
    key.canonical = .str name ↔ key = .str name := by
  constructor
  · intro text
    unfold canonical at text
    split at text
    · cases text
    · split at text <;> cases text
    · split at text
      · split at text <;> cases text
      · cases text
    · exact text
  · rintro rfl
    rfl

theorem sameScalar_str_iff {key : Value} {name : String} :
    key.sameScalar (.str name) = true ↔ key = .str name := by
  have itself : (Value.str name).canonical = .str name := rfl
  unfold sameScalar
  rw [← canonical_eq_str_iff, itself]
  cases key.canonical <;> simp

theorem str_sameScalar_iff {key : Value} {name : String} :
    (Value.str name).sameScalar key = true ↔ key = .str name := by
  have itself : (Value.str name).canonical = .str name := rfl
  unfold sameScalar
  rw [← canonical_eq_str_iff, itself]
  cases key.canonical with
  | str other => simpa using eq_comm
  | _ => simp

theorem same_str_iff {key : Value} {name : String} :
    key.same (.str name) = true ↔ key = .str name := by
  cases key with
  | tuple items => simp [Value.same]
  | _ =>
    rw [Value.same, sameScalar_str_iff]
    all_goals simp

theorem str_same_iff {key : Value} {name : String} :
    (Value.str name).same key = true ↔ key = .str name := by
  cases key with
  | tuple items => simp [Value.same]
  | _ =>
    rw [Value.same, str_sameScalar_iff]
    all_goals simp

end Value

namespace Entries

theorem find?_cons_self (name : String) (value : Value) (rest : Entries) :
    find? (.str name) ((.str name, value) :: rest) = some value := by
  rw [find?, if_pos (Value.same_str_iff.mpr rfl)]

theorem find?_cons_of_ne {key : Value} {name : String} (differs : key ≠ .str name) (value : Value)
    (rest : Entries) : find? (.str name) ((key, value) :: rest) = find? (.str name) rest := by
  rw [find?, if_neg (mt Value.same_str_iff.mp differs)]

theorem find?_insert_self (name : String) (value : Value) (entries : Entries) :
    find? (.str name) (insert (.str name) value entries) = some value := by
  induction entries with
  | nil => exact find?_cons_self name value []
  | cons entry rest ih =>
    obtain ⟨key, old⟩ := entry
    unfold insert
    split
    next same =>
      obtain rfl := Value.same_str_iff.mp same
      exact find?_cons_self name value rest
    next differs => rw [find?_cons_of_ne (mt Value.same_str_iff.mpr differs), ih]

theorem find?_insert_of_ne {key : Value} {name : String} (differs : key ≠ .str name) (value : Value)
    (entries : Entries) :
    find? (.str name) (insert key value entries) = find? (.str name) entries := by
  induction entries with
  | nil => exact find?_cons_of_ne differs value []
  | cons entry rest ih =>
    obtain ⟨other, old⟩ := entry
    unfold insert
    split
    next same =>
      have apart : other ≠ .str name := by
        rintro rfl
        exact differs (Value.str_same_iff.mp same)
      rw [find?_cons_of_ne apart, find?_cons_of_ne apart]
    next => rw [find?, find?, ih]

theorem find?_insert_str_of_ne {key : Value} {name : String} (differs : key ≠ .str name)
    (value : Value) (entries : Entries) :
    find? key (insert (.str name) value entries) = find? key entries := by
  have apart : (Value.str name).same key = false :=
    Bool.eq_false_iff.mpr (mt Value.str_same_iff.mp differs)
  induction entries with
  | nil => simp [insert, find?, apart]
  | cons entry rest ih =>
    obtain ⟨other, old⟩ := entry
    unfold insert
    split
    next same =>
      obtain rfl := Value.same_str_iff.mp same
      simp [find?, apart]
    next => rw [find?, find?, ih]

/-- Whether a key is a text that entries hold something under. -/
def repeats (key : Value) (entries : Entries) : Bool :=
  match key with
  | .str name => (find? (.str name) entries).isSome
  | _ => false

end Entries

mutual

/-- A value, if it is a mapping, has entries that form one. -/
def Value.isProper : Value → Bool
  | .dict entries => Entries.formMapping entries
  | _ => true

/-- Entries form a mapping: no text is a key twice, in them or in the mappings under their keys. -/
def Entries.formMapping : List (Value × Value) → Bool
  | [] => true
  | (key, value) :: rest =>
    !Entries.repeats key rest && Value.isProper value && Entries.formMapping rest

end

namespace Entries

theorem isProper_of_find? {entries : Entries} (mapping : formMapping entries = true)
    {name : String} {value : Value} (found : find? (.str name) entries = some value) :
    value.isProper = true := by
  induction entries with
  | nil => cases found
  | cons entry rest ih =>
    obtain ⟨key, first⟩ := entry
    simp only [formMapping, Bool.and_eq_true] at mapping
    rw [find?] at found
    split at found
    · cases found
      exact mapping.1.2
    · exact ih mapping.2 found

theorem mergeValue_of_plain {old : Option Value} (plain : ∀ base, old ≠ some (.dict base))
    (value : Value) : mergeValue old value = value := by
  unfold mergeValue
  split
  · split
    next base => exact absurd rfl (plain base)
    next => rfl
  · rfl

theorem mergeValue_of_not_dict {value : Value} (other : ∀ updates, value ≠ .dict updates)
    (old : Option Value) : mergeValue old value = value := by
  unfold mergeValue
  split
  next updates => exact absurd rfl (other updates)
  next => rfl

theorem mergeValue_dict (base updates : Entries) :
    mergeValue (some (.dict base)) (.dict updates) = .dict (merge base updates) := by
  simp only [mergeValue]

/-- A merge, text by text: what the update holds wins, unless both hold mappings. -/
theorem find?_merge {updates : Entries} (mapping : formMapping updates = true) (base : Entries)
    (name : String) :
    find? (.str name) (merge base updates) =
      ((find? (.str name) updates).map (mergeValue (find? (.str name) base))).or
        (find? (.str name) base) := by
  induction updates generalizing base with
  | nil => simp [merge, find?]
  | cons entry rest ih =>
    obtain ⟨key, value⟩ := entry
    simp only [formMapping, Bool.and_eq_true, Bool.not_eq_true'] at mapping
    obtain ⟨⟨fresh, -⟩, mapping⟩ := mapping
    rw [merge, ih mapping]
    by_cases same : key = .str name
    · subst same
      -- the text does not come again, so the inserted value stays
      have gone : find? (.str name) rest = none := by simpa [repeats] using fresh
      rw [gone, find?_cons_self, find?_insert_self]
      rfl
    · rw [find?_cons_of_ne same, find?_insert_of_ne same]

end Entries
end TypedScript
