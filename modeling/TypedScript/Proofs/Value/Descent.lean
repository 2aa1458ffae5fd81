import TypedScript.Proofs.Value.Lookup

set_option autoImplicit false

/-!
Paths of keys through mappings. A path leads to a value, or is blocked by
something that is no mapping; an assignment at a path changes nothing but what is
on the path or behind it.
-/

namespace TypedScript

open Entries

namespace Value

/-- What a path of keys leads to, through mappings. -/
def at? (value : Value) : (path : List Value) → Option Value
  | [] => some value
  | key :: rest => match value with
    | .dict entries => (find? key entries).bind (·.at? rest)
    | _ => none

@[simp] theorem at?_nil (value : Value) : value.at? [] = some value := rfl

@[simp] theorem at?_dict_cons (entries : Entries) (key : Value) (rest : List Value) :
    (Value.dict entries).at? (key :: rest) = (find? key entries).bind (·.at? rest) := rfl

theorem at?_cons (value key : Value) (rest : List Value) :
    value.at? (key :: rest) = (value.at? [key]).bind (·.at? rest) := by
  cases value with
  | dict entries => cases found : find? key entries <;> simp [found]
  | _ => rfl

def IsMapping (value : Value) : Prop := ∃ entries, value = .dict entries

/-- On the way along a path, before its end, there is something else than a mapping. -/
def Blocks (value : Value) (path : List Value) : Prop :=
  ∃ front, front ≠ [] ∧ front <+: path ∧ front ≠ path ∧
    ∃ found, value.at? front = some found ∧ ¬ found.IsMapping

/-- A path leads to a new value, through mappings, and nothing has changed that is neither on the
path nor behind it. -/
structure Assigned (before after : Value) (path : List Value) (value : Value) : Prop where
  bound : after.at? path = some value
  above : ∀ front, front <+: path → front ≠ path →
    ∃ found, after.at? front = some found ∧ found.IsMapping
  others : ∀ other, ¬ other <+: path → ¬ path <+: other → after.at? other = before.at? other

/-- The way is blocked by what the first key leads to, or behind it. -/
theorem blocks_cons_iff (entries : Entries) (key : Value) (rest : List Value) :
    (Value.dict entries).Blocks (key :: rest) ↔
      rest ≠ [] ∧
        ∃ found, find? key entries = some found ∧ (¬ found.IsMapping ∨ found.Blocks rest) := by
  constructor
  · rintro ⟨front, filled, leads, proper, last, reached, other⟩
    obtain ⟨first, front, rfl⟩ := List.exists_cons_of_ne_nil filled
    obtain ⟨rfl, behind⟩ := List.cons_prefix_cons.mp leads
    have shorter : front ≠ rest := fun same => proper (same ▸ rfl)
    have more : rest ≠ [] := by
      rintro rfl
      exact shorter (List.prefix_nil.mp behind)
    obtain ⟨found, held, reached⟩ := Option.bind_eq_some_iff.mp reached
    refine ⟨more, found, held, ?_⟩
    by_cases here : front = []
    · subst here
      obtain rfl := Option.some.inj reached
      exact .inl other
    · exact .inr ⟨front, here, behind, shorter, last, reached, other⟩
  · rintro ⟨more, found, held, other | ⟨front, filled, leads, proper, last, reached, other⟩⟩
    · exact ⟨[key], by simp, by simp, by simpa using Ne.symm more, found, by simp [held], other⟩
    · exact ⟨key :: front, by simp, by simpa using leads, by simpa using proper, last,
        by simp [held, reached], other⟩

theorem not_blocks_nil (path : List Value) : ¬ (Value.dict []).Blocks path := by
  cases path with
  | nil =>
    rintro ⟨front, filled, leads, -⟩
    exact filled (List.prefix_nil.mp leads)
  | cons key rest => simp [blocks_cons_iff, find?]

namespace Assigned

theorem single (name : String) (value : Value) (entries : Entries) :
    Assigned (.dict entries) (.dict (insert (.str name) value entries)) [.str name] value where
  bound := by simp [find?_insert_self]
  above front leads proper := by
    cases front with
    | nil => exact ⟨_, rfl, _, rfl⟩
    | cons key more =>
      obtain ⟨rfl, rest⟩ := List.cons_prefix_cons.mp leads
      simp [List.prefix_nil.mp rest] at proper
  others other notAbove notBelow := by
    cases other with
    | nil => simp at notAbove
    | cons key more =>
      have differs : key ≠ .str name := by
        rintro rfl
        simp at notBelow
      simp [find?_insert_str_of_ne differs]

/-- What is assigned in the mapping under a text, which may be made for it, is assigned behind that
text. -/
theorem cons {name : String} {entries inner after : Entries} {path : List Value} {value : Value}
    (held : (find? (.str name) entries).getD (.dict []) = .dict inner)
    (assigned : Assigned (.dict inner) (.dict after) path value) :
    Assigned (.dict entries) (.dict (insert (.str name) (.dict after) entries)) (.str name :: path)
      value where
  bound := by simpa [find?_insert_self] using assigned.bound
  above front leads proper := by
    cases front with
    | nil => exact ⟨_, rfl, _, rfl⟩
    | cons key more =>
      obtain ⟨rfl, behind⟩ := List.cons_prefix_cons.mp leads
      have shorter : more ≠ path := fun same => proper (same ▸ rfl)
      simpa [find?_insert_self] using assigned.above more behind shorter
  others other notAbove notBelow := by
    cases other with
    | nil => simp at notAbove
    | cons key more =>
      by_cases same : key = .str name
      · subst same
        have agrees := assigned.others more (by simpa using notAbove) (by simpa using notBelow)
        rw [at?_dict_cons, find?_insert_self, at?_dict_cons, Option.bind_some, agrees]
        cases found : find? (.str name) entries with
        | none =>
          rw [found] at held
          obtain rfl := Value.dict.inj held.symm
          have filled : more ≠ [] := by
            rintro rfl
            simp at notAbove
          obtain ⟨key, more, rfl⟩ := List.exists_cons_of_ne_nil filled
          simp [find?]
        | some mapping =>
          rw [found] at held
          obtain rfl : mapping = .dict inner := held
          simp
      · simp [find?_insert_str_of_ne same]

end Assigned
end Value

end TypedScript
