import TypedScript.Proofs.Value.Lookup

set_option autoImplicit false

/-!
Where the values in a merged mapping come from. Nothing is said about which of
several entries counts, so the statements hold of entries with repeated keys too.
-/

namespace TypedScript.Entries

theorem mem_of_find? {name : String} {value : Value} {entries : Entries}
    (found : find? (.str name) entries = some value) : (.str name, value) ∈ entries := by
  induction entries with
  | nil => cases found
  | cons entry rest ih =>
    obtain ⟨key, first⟩ := entry
    rw [find?] at found
    split at found
    next same =>
      obtain rfl := Value.same_str_iff.mp same
      cases found
      exact List.mem_cons_self
    next => exact List.mem_cons_of_mem _ (ih found)

theorem mem_insert {name : String} {key new value : Value} {entries : Entries}
    (inside : (.str name, value) ∈ insert key new entries) :
    (.str name, value) ∈ entries ∨ key = .str name ∧ value = new := by
  induction entries with
  | nil =>
    cases List.mem_singleton.mp inside
    exact .inr ⟨rfl, rfl⟩
  | cons entry rest ih =>
    obtain ⟨other, old⟩ := entry
    unfold insert at inside
    split at inside
    next same =>
      rcases List.mem_cons.mp inside with here | later
      · cases here
        exact .inr ⟨Value.str_same_iff.mp same, rfl⟩
      · exact .inl (List.mem_cons_of_mem _ later)
    next =>
      rcases List.mem_cons.mp inside with here | later
      · exact .inl (here ▸ List.mem_cons_self)
      · exact (ih later).imp_left (List.mem_cons_of_mem _)

/-- What a merge holds under a text has a property if the base gives it and every update keeps it. -/
theorem forall_mem_merge {name : String} {good : Value → Prop} {base updates : Entries}
    (before : ∀ value, (.str name, value) ∈ base → good value)
    (kept : ∀ old value, (.str name, value) ∈ updates → (∀ held ∈ old, good held) →
      good (mergeValue old value)) :
    ∀ value, (.str name, value) ∈ merge base updates → good value := by
  induction updates generalizing base with
  | nil =>
    rw [merge]
    exact before
  | cons entry rest ih =>
    obtain ⟨key, update⟩ := entry
    rw [merge]
    refine ih ?_ fun old value later => kept old value (List.mem_cons_of_mem _ later)
    intro value inside
    rcases mem_insert inside with held | ⟨rfl, rfl⟩
    · exact before value held
    · exact kept _ update List.mem_cons_self fun held found => before held (mem_of_find? found)

/-- A value, if it is a mapping, holds nothing under a text but what has a property. -/
def HoldsOnly (key : String) (good : Value → Prop) (held : Value) : Prop :=
  ∀ inner, held = .dict inner → ∀ value, (.str key, value) ∈ inner → good value

/-- A value takes the place of the old one, unless both are mappings, which are merged. -/
theorem mergeValue_cases (old : Option Value) (value : Value) :
    mergeValue old value = value ∨ ∃ base updates, old = some (.dict base) ∧
      value = .dict updates ∧ mergeValue old value = .dict (merge base updates) := by
  cases value with
  | dict updates =>
    by_cases held : ∃ base, old = some (.dict base)
    · obtain ⟨base, rfl⟩ := held
      exact .inr ⟨base, updates, rfl, rfl, mergeValue_dict base updates⟩
    · exact .inl (mergeValue_of_plain (fun base same => held ⟨base, same⟩) _)
  | _ => exact .inl (mergeValue_of_not_dict (by simp) old)

/-- A property that mappings have is kept one level down, where what is merged has it. -/
theorem HoldsOnly.mergeValue {good : Value → Prop} (mappings : ∀ inner, good (.dict inner))
    {key : String} {old : Option Value} {update : Value}
    (before : ∀ held ∈ old, HoldsOnly key good held) (given : HoldsOnly key good update) :
    HoldsOnly key good (mergeValue old update) := by
  rcases mergeValue_cases old update with same | ⟨base, updates, rfl, rfl, merged⟩
  · rwa [same]
  · rw [merged]
    rintro _ ⟨⟩
    refine forall_mem_merge (before _ rfl base rfl) fun old value member _ => ?_
    rcases mergeValue_cases old value with same | ⟨_, _, -, -, merged⟩
    · rw [same]
      exact given updates rfl value member
    · rw [merged]
      exact mappings _

/-- Entries hold a value under a text, in a mapping under another text. -/
def Contains (entries : Entries) (group key : String) (value : Value) : Prop :=
  ∃ inner, (.str group, .dict inner) ∈ entries ∧ (.str key, value) ∈ inner

/-- What a merge contains, other than a mapping, the base or the update contained. -/
theorem Contains.of_merge {base updates : Entries} {group key : String} {value : Value}
    (contains : Contains (merge base updates) group key value)
    (other : ∀ inner, value ≠ .dict inner) :
    Contains base group key value ∨ Contains updates group key value := by
  obtain ⟨inner, inside, member⟩ := contains
  have all : ∀ held, (.str group, held) ∈ merge base updates → HoldsOnly key
      (fun value => (∃ inner, value = .dict inner) ∨
        Contains base group key value ∨ Contains updates group key value) held := by
    refine forall_mem_merge ?_ ?_
    · rintro _ held inner rfl value member
      exact .inr (.inl ⟨inner, held, member⟩)
    · intro old update given before
      refine HoldsOnly.mergeValue (fun inner => .inl ⟨inner, rfl⟩) before ?_
      rintro inner rfl value member
      exact .inr (.inr ⟨inner, given, member⟩)
  exact (all _ inside inner rfl value member).resolve_left fun ⟨inner, same⟩ => other inner same

end TypedScript.Entries
