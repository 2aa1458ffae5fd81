import TypedScript.Proofs.Value.Descent

set_option autoImplicit false

/-!
What a merge does along paths of texts. A value that the update has at a path is
there after the merge; what the update does not reach is as in the base; and the
merged mapping holds all of the update already, so merging again changes nothing.
-/

namespace TypedScript

/-- A key is a text. -/
def Value.isText : Value → Bool
  | .str _ => true
  | _ => false

mutual

/-- A value, if it is a mapping, has nothing but texts for its keys. -/
def Value.isTextKeyed : Value → Bool
  | .dict entries => Entries.textKeyed entries
  | _ => true

/-- All keys are texts, in the entries and in the mappings under their keys. -/
def Entries.textKeyed : List (Value × Value) → Bool
  | [] => true
  | (key, value) :: rest => key.isText && Value.isTextKeyed value && Entries.textKeyed rest

end

namespace Value

theorem exists_of_isText {key : Value} (text : key.isText = true) : ∃ name, key = .str name := by
  cases key with
  | str name => exact ⟨name, rfl⟩
  | _ => contradiction

end Value

namespace Entries

open Value

theorem isTextKeyed_of_mem {entries : Entries} (texts : textKeyed entries = true) {key value : Value}
    (membership : (key, value) ∈ entries) : value.isTextKeyed = true := by
  induction entries with
  | nil => cases membership
  | cons entry rest ih =>
    simp only [textKeyed, Bool.and_eq_true] at texts
    rcases List.mem_cons.mp membership with rfl | later
    · exact texts.1.2
    · exact ih texts.2 later

theorem find?_of_mem {entries : Entries} (mapping : formMapping entries = true) {name : String}
    {value : Value} (membership : (.str name, value) ∈ entries) :
    find? (.str name) entries = some value := by
  induction entries with
  | nil => cases membership
  | cons entry rest ih =>
    obtain ⟨key, first⟩ := entry
    simp only [formMapping, Bool.and_eq_true, Bool.not_eq_true'] at mapping
    obtain ⟨⟨fresh, -⟩, mapping⟩ := mapping
    rcases List.mem_cons.mp membership with same | later
    · cases same
      exact find?_cons_self name value rest
    · have found := ih mapping later
      have differs : key ≠ .str name := by
        rintro rfl
        simp [repeats, found] at fresh
      rw [find?_cons_of_ne differs, found]

/-- What a mapping holds under a text after a merge into something, mapping or not. -/
theorem exists_mergeValue_dict {updates : Entries} (mapping : formMapping updates = true)
    (old : Option Value) :
    ∃ merged, mergeValue old (.dict updates) = .dict merged ∧ ∀ name,
      find? (.str name) merged =
        ((find? (.str name) updates).map (mergeValue (old.bind (·.at? [.str name])))).or
          (old.bind (·.at? [.str name])) := by
  by_cases held : ∃ base, old = some (.dict base)
  · obtain ⟨base, rfl⟩ := held
    refine ⟨merge base updates, mergeValue_dict base updates, fun name => ?_⟩
    have first : (some (Value.dict base)).bind (·.at? [.str name]) = find? (.str name) base := by
      simp
    rw [find?_merge mapping, first]
  · have plain : ∀ base, old ≠ some (.dict base) := fun base same => held ⟨base, same⟩
    refine ⟨updates, mergeValue_of_plain plain _, fun name => ?_⟩
    have nothing : old.bind (·.at? [.str name]) = none := by
      cases old with
      | none => rfl
      | some value => cases value with
        | dict base => exact absurd rfl (plain base)
        | _ => rfl
    have unchanged : mergeValue none = id := funext (mergeValue_of_plain (by simp))
    rw [nothing, unchanged, Option.map_id, Option.or_none, id]

theorem at?_mergeValue_of_bound {path : List String} {old : Option Value} {value leaf : Value}
    (proper : value.isProper = true) (bound : value.at? (path.map .str) = some leaf)
    (other : ¬ leaf.IsMapping) : (mergeValue old value).at? (path.map .str) = some leaf := by
  induction path generalizing old value with
  | nil =>
    obtain rfl := Option.some.inj bound
    rw [mergeValue_of_not_dict fun updates same => other ⟨updates, same⟩]
    rfl
  | cons name rest ih =>
    cases value with
    | dict updates =>
      obtain ⟨inner, found, behind⟩ := Option.bind_eq_some_iff.mp bound
      obtain ⟨merged, result, holds⟩ := exists_mergeValue_dict proper old
      rw [result, List.map_cons, at?_dict_cons, holds, found]
      exact ih (isProper_of_find? proper found) behind
    | _ => cases bound

theorem at?_mergeValue_of_unbound {path : List String} (old : Option Value) {updates : Entries}
    (mapping : formMapping updates = true)
    (unbound : (Value.dict updates).at? (path.map .str) = none)
    (clear : ¬ (Value.dict updates).Blocks (path.map .str)) :
    (mergeValue old (.dict updates)).at? (path.map .str) = old.bind (·.at? (path.map .str)) := by
  induction path generalizing old updates with
  | nil => cases unbound
  | cons name rest ih =>
    obtain ⟨merged, result, holds⟩ := exists_mergeValue_dict mapping old
    have before : old.bind (·.at? ((name :: rest).map .str)) =
        (old.bind (·.at? [.str name])).bind (·.at? (rest.map .str)) := by
      cases old with
      | none => rfl
      | some value => exact at?_cons value (.str name) (rest.map .str)
    rw [before, result, List.map_cons, at?_dict_cons, holds]
    cases found : find? (.str name) updates with
    | none => rfl
    | some value =>
      rw [List.map_cons, at?_dict_cons, found, Option.bind_some] at unbound
      rw [List.map_cons, blocks_cons_iff] at clear
      -- the path goes on, so what is under the text is a mapping that does not block it
      have further : rest.map Value.str ≠ [] := by
        intro ended
        rw [ended] at unbound
        cases unbound
      have innerClear : ¬ value.Blocks (rest.map .str) := fun blocks =>
        clear ⟨further, value, found, .inr blocks⟩
      obtain ⟨inner, rfl⟩ : value.IsMapping := Classical.byContradiction fun other =>
        clear ⟨further, value, found, .inl other⟩
      exact ih (old.bind (·.at? [.str name])) (isProper_of_find? mapping found) unbound innerClear

theorem insert_of_find? {name : String} {value : Value} {entries : Entries}
    (found : find? (.str name) entries = some value) :
    insert (.str name) value entries = entries := by
  induction entries with
  | nil => cases found
  | cons entry rest ih =>
    obtain ⟨key, first⟩ := entry
    rw [find?] at found
    rw [insert]
    split at found
    next same =>
      rw [if_pos same, Option.some.inj found]
    next differs => rw [if_neg differs, ih found]

/-- A merge changes nothing in entries that hold all of the update already. -/
theorem merge_eq_self {entries updates : Entries} (texts : textKeyed updates = true)
    (holds : ∀ name value, (.str name, value) ∈ updates →
      ∃ held, find? (.str name) entries = some held ∧ mergeValue (some held) value = held) :
    merge entries updates = entries := by
  induction updates with
  | nil => rw [merge]
  | cons entry rest ih =>
    obtain ⟨key, value⟩ := entry
    simp only [textKeyed, Bool.and_eq_true] at texts
    obtain ⟨name, rfl⟩ := exists_of_isText texts.1.1
    obtain ⟨held, found, same⟩ := holds name value (by simp)
    rw [merge, found, same, insert_of_find? found]
    exact ih texts.2 fun other value later => holds other value (List.mem_cons_of_mem _ later)

theorem sizeOf_lt_of_mem {entries : Entries} {key value : Value} (membership : (key, value) ∈ entries) :
    sizeOf value < sizeOf (Value.dict entries) := by
  have inside := List.sizeOf_lt_of_mem membership
  simp only [Prod.mk.sizeOf_spec, Value.dict.sizeOf_spec] at inside ⊢
  omega

/-- Merging a value again changes nothing. The induction is on the nesting of the update. -/
theorem mergeValue_mergeValue (old : Option Value) {value : Value} (proper : value.isProper = true)
    (texts : value.isTextKeyed = true) :
    mergeValue (some (mergeValue old value)) value = mergeValue old value := by
  induction size : sizeOf value using Nat.strongRecOn generalizing old value with
  | ind bound ih =>
    by_cases mapping : ∃ updates, value = .dict updates
    · obtain ⟨updates, rfl⟩ := mapping
      obtain ⟨merged, result, holds⟩ := exists_mergeValue_dict proper old
      rw [result, mergeValue_dict]
      refine congrArg Value.dict (merge_eq_self texts ?_)
      intro name value membership
      have found := find?_of_mem proper membership
      refine ⟨mergeValue (old.bind (·.at? [.str name])) value, by rw [holds, found]; rfl, ?_⟩
      exact ih _ (size ▸ sizeOf_lt_of_mem membership) _ (isProper_of_find? proper found)
        (isTextKeyed_of_mem texts membership) rfl
    · have other : ∀ updates, value ≠ .dict updates := fun updates same => mapping ⟨updates, same⟩
      rw [mergeValue_of_not_dict other, mergeValue_of_not_dict other]

/-- In a merge the update takes precedence. What it has at a path, other than a mapping, is found
there. Where it has nothing, and nothing in the way but mappings, the base is found as it was. And
merging the same update again changes nothing. -/
theorem merge_takes_precedence (base : Entries) {updates : Entries}
    (mapping : formMapping updates = true) (texts : textKeyed updates = true) :
    let merged := merge base updates
    (∀ (path : List String) (value : Value),
        (Value.dict updates).at? (path.map .str) = some value → ¬ value.IsMapping →
        (Value.dict merged).at? (path.map .str) = some value) ∧
      (∀ path : List String, (Value.dict updates).at? (path.map .str) = none →
        ¬ (Value.dict updates).Blocks (path.map .str) →
        (Value.dict merged).at? (path.map .str) = (Value.dict base).at? (path.map .str)) ∧
      merge merged updates = merged := by
  intro merged
  have whole : mergeValue (some (.dict base)) (.dict updates) = .dict merged :=
    mergeValue_dict base updates
  refine ⟨?_, ?_, ?_⟩
  · intro path value bound other
    exact whole ▸ at?_mergeValue_of_bound mapping bound other
  · intro path unbound clear
    exact whole ▸ at?_mergeValue_of_unbound (some (.dict base)) mapping unbound clear
  · have again : mergeValue (some (mergeValue (some (.dict base)) (.dict updates))) (.dict updates) =
        mergeValue (some (.dict base)) (.dict updates) := mergeValue_mergeValue _ mapping texts
    rw [whole, mergeValue_dict] at again
    exact Value.dict.inj again

/-- Two mappings meet under `a`; under `b` a mapping takes the place of a number. -/
theorem merge_takes_precedence_nested :
    let base : Entries :=
      [(.str "a", .dict [(.str "x", .int 1), (.str "y", .int 2)]), (.str "b", .int 3)]
    let updates : Entries :=
      [(.str "b", .dict [(.str "z", .int 6)]), (.str "a", .dict [(.str "y", .int 5)])]
    let merged := merge base updates
    formMapping updates = true ∧ textKeyed updates = true ∧
      (Value.dict merged).at? [.str "a", .str "y"] = some (.int 5) ∧
      (Value.dict merged).at? [.str "b", .str "z"] = some (.int 6) ∧
      (Value.dict merged).at? [.str "a", .str "x"] = some (.int 1) ∧
      merge merged updates = merged := by
  intro base updates merged
  have mapping : formMapping updates = true := rfl
  have texts : textKeyed updates = true := rfl
  have number (n : Int) : ¬ (Value.int n).IsMapping := fun ⟨_, same⟩ => Value.noConfusion same
  obtain ⟨bound, unbound, again⟩ := merge_takes_precedence base mapping texts
  have clear : ¬ (Value.dict updates).Blocks (["a", "x"].map .str) := by
    have held : find? (.str "a") updates = some (.dict [(.str "y", .int 5)]) := rfl
    simp [blocks_cons_iff, held, IsMapping]
  exact ⟨mapping, texts, bound ["a", "y"] _ rfl (number 5), bound ["b", "z"] _ rfl (number 6),
    unbound ["a", "x"] rfl clear, again⟩

end Entries
end TypedScript
