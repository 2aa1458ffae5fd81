import TypedScript.Proofs.Settings.Leaf
import TypedScript.Proofs.Value.Origin

set_option autoImplicit false

/-!
The settings that can come about: read from data, and changed by merging further
data into them. Whatever the data are, a script can be run under such settings.
Their stem is empty only if it was read from a hollow value.
-/

namespace TypedScript

namespace RunOptions

/-- A run needs an interpreter and, if its time is limited, a limit that is not zero or below; the
directory for its script is a path that a text can name. -/
structure Runnable (o : RunOptions) : Prop where
  command : o.command ≠ []
  timeout : ∀ x ∈ o.timeout, ¬ x ≤ 0.0
  scratch : ∀ path ∈ o.scratch, path.Normal

end RunOptions

namespace Settings

/-- Settings that are read from data, or made from such settings by merging data into them. -/
inductive Reachable : Settings → Prop
  | read {data : Value} {s : Settings} : ofData data = .ok s → Reachable s
  | merged {s after : Settings} {overrides : Value} :
      Reachable s → s.mergeData overrides = .ok after → Reachable after

/-- A merge leaves settings as they are, or reads a merged mapping. -/
theorem mergeData_cases {s after : Settings} {overrides : Value}
    (merged : s.mergeData overrides = .ok after) :
    after = s ∨ ∃ entries, overrides = .dict entries ∧ entriesOfData overrides = .ok entries ∧
      ofEntries (Entries.merge s.toEntries entries) = .ok after := by
  obtain ⟨present, answered, merged⟩ := exists_ok_of_bind merged
  cases present with
  | false =>
    cases merged
    exact .inl rfl
  | true =>
    cases overrides with
    | dict entries =>
      have given : entriesOfData (.dict entries) = .ok entries := by
        rw [entriesOfData, answered]
        rfl
      have merged : s.merge entries = .ok after := merged
      unfold merge at merged
      split at merged
      · cases merged
        exact .inl rfl
      · exact .inr ⟨entries, rfl, given, merged⟩
    | _ => contradiction

/-- However settings have come about, one mapping is read to them. -/
theorem Reachable.exists_entries {s : Settings} (reachable : s.Reachable) :
    ∃ entries, ofEntries entries = .ok s := by
  induction reachable with
  | read built =>
    obtain ⟨entries, -, built⟩ := exists_ok_of_bind built
    exact ⟨entries, built⟩
  | merged _ merged ih =>
    rcases mergeData_cases merged with rfl | ⟨entries, -, -, built⟩
    · exact ih
    · exact ⟨_, built⟩

theorem Reachable.sound {s : Settings} (reachable : s.Reachable) (leaf : Leaf) :
    leaf.Sound (leaf.of s) := by
  obtain ⟨entries, read⟩ := reachable.exists_entries
  exact Leaf.sound_of_read (ofEntries_eq_ok_iff.mp read leaf)

theorem Reachable.runnable {s : Settings} (reachable : s.Reachable) : s.run.Runnable :=
  ⟨reachable.sound .command, reachable.sound .timeout, reachable.sound .scratch⟩

namespace Leaf

/-- Data have a value in a leaf's place. -/
def Stated (leaf : Leaf) (data value : Value) : Prop :=
  ∃ entries, entriesOfData data = .ok entries ∧ entries.Contains leaf.group leaf.key value

theorem contains_source {leaf : Leaf} {entries : Entries} (filled : leaf.source entries ≠ .null) :
    entries.Contains leaf.group leaf.key (leaf.source entries) := by
  unfold source at filled ⊢
  cases held : Entries.find? (.str leaf.group) entries with
  | none => simp [Entries.get, held, Value.under] at filled
  | some group =>
    rw [Entries.get_of_find? held] at filled ⊢
    cases group with
    | dict inner =>
      refine ⟨inner, Entries.mem_of_find? held, ?_⟩
      cases found : Entries.find? (.str leaf.key) inner with
      | none => simp [Entries.get, found, Value.under] at filled
      | some value =>
        rw [Value.under, Entries.get_of_find? found]
        exact Entries.mem_of_find? found
    | _ => exact absurd rfl filled

theorem not_contains_stem (s : Settings) (value : Foreign) :
    ¬ s.toEntries.Contains Leaf.stem.group Leaf.stem.key (.other value) := by
  rintro ⟨inner, held, found⟩
  have single : Value.dict inner = s.run.toValue := by simpa [toEntries, group] using held
  cases single
  simp [key] at found

/-- An empty stem is read from a hollow value. -/
theorem exists_other_of_stem {entries : Entries} {s : Settings} (read : ofEntries entries = .ok s)
    (empty : s.run.stem = "") :
    ∃ value : Foreign, entries.Contains Leaf.stem.group Leaf.stem.key (.other value) ∧
      value.truth = .ok true ∧ value.text = .ok "" := by
  have leaf : textOr RunOptions.defaultStem (Leaf.stem.source entries) = .ok s.run.stem :=
    ofEntries_eq_ok_iff.mp read .stem
  rw [empty, textOr_eq_empty_iff (by decide)] at leaf
  obtain ⟨value, same, hollow⟩ := leaf.exists_other
  have filled : Leaf.stem.source entries ≠ .null := by simp [same]
  have contained := contains_source filled
  rw [same] at contained
  exact ⟨value, contained, hollow⟩

end Leaf

/-- Settings with an empty stem are what data with a hollow value in the stem's place were read to,
or what merging such data into other settings has led to. -/
theorem Reachable.exists_stated_of_stem {s : Settings} (reachable : s.Reachable)
    (empty : s.run.stem = "") :
    ∃ (data : Value) (value : Foreign), Leaf.stem.Stated data (.other value) ∧
      value.truth = .ok true ∧ value.text = .ok "" ∧
      (ofData data = .ok s ∨
        ∃ before : Settings, before.Reachable ∧ before.mergeData data = .ok s) := by
  induction reachable with
  | @read data s built =>
    obtain ⟨entries, given, read⟩ := exists_ok_of_bind built
    obtain ⟨value, contained, truth, text⟩ := Leaf.exists_other_of_stem read empty
    exact ⟨data, value, ⟨entries, given, contained⟩, truth, text, .inl built⟩
  | @merged before s overrides reachable merged ih =>
    rcases mergeData_cases merged with rfl | ⟨entries, -, given, built⟩
    · exact ih empty
    · obtain ⟨value, contained, truth, text⟩ := Leaf.exists_other_of_stem built empty
      -- the mapping of settings has a text there, so the value is one of the overrides
      have stated := (contained.of_merge (by simp)).resolve_left
        (Leaf.not_contains_stem before value)
      exact ⟨overrides, value, ⟨entries, given, stated⟩, truth, text,
        .inr ⟨before, reachable, merged⟩⟩

end Settings
end TypedScript
