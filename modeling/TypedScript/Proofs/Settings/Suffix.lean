import TypedScript.Proofs.Settings.Reachable

set_option autoImplicit false

/-!
Where a compilation writes by default: beside its source, under a name with the
suffix of the settings. Settings ask for less than paths do: a suffix that is a
dot alone, or that holds a slash, is accepted and then fits no path.
-/

namespace TypedScript

namespace Path

/-- A path beside another one: its name begins like the name of the other one and ends in the
suffix. -/
structure Sibling (p : Path) (suffix : Text) (target : Path) : Prop where
  directory : target.parent = p.parent
  name : ∃ old stem, p.parts.getLast? = some old ∧ stem ≠ [] ∧ stem <+: old ∧
    target.parts.getLast? = some (stem ++ suffix)
  normal : target.Normal

theorem isSuffix_iff {suffix : Text} (dotted : suffix.head? = some '.') :
    isSuffix suffix = true ↔ suffix ≠ ['.'] ∧ '/' ∉ suffix := by
  have filled : suffix ≠ [] := by
    rintro rfl
    contradiction
  simp [isSuffix, filled, dotted, and_comm]

theorem stemLength_pos {name : Text} (filled : name ≠ []) : 0 < stemLength name := by
  have some := List.length_pos_iff.mpr filled
  simp only [stemLength]
  split <;> omega

/-- A name stays one when its suffix is replaced. -/
theorem isPart_stem_append {name suffix : Text} (part : isPart name = true)
    (dotted : suffix.head? = some '.') (longer : suffix ≠ ['.']) :
    name.take (stemLength name) ≠ [] ∧ isPart (name.take (stemLength name) ++ suffix) = true := by
  have filled : name ≠ [] := by
    rintro rfl
    simp [isPart] at part
  have stem : name.take (stemLength name) ≠ [] := by
    simp [filled, Nat.ne_of_gt (stemLength_pos filled)]
  obtain ⟨c, others, split⟩ := List.exists_cons_of_ne_nil stem
  refine ⟨stem, ?_⟩
  cases suffix with
  | nil => contradiction
  | cons d rest => simp [split, isPart]

/-- A path that has a name takes every suffix that is one. -/
theorem exists_withSuffix {p : Path} {suffix : Text} (normal : p.Normal) (named : p.parts ≠ [])
    (dotted : suffix.head? = some '.') (fits : isSuffix suffix = true) :
    ∃ target, p.withSuffix suffix = .ok target ∧ p.Sibling suffix target := by
  obtain ⟨longer, noSlash⟩ := (isSuffix_iff dotted).mp fits
  obtain ⟨directory, old, split⟩ := List.eq_nil_or_concat p.parts |>.resolve_left named
  have last : p.parts.getLast? = some old := by simp [split]
  have isOld := normal old (by simp [split])
  obtain ⟨stem, part⟩ := isPart_stem_append isOld.1 dotted longer
  refine ⟨_, by rw [withSuffix, last]; simp only [fits]; rfl, ?_, ?_, ?_⟩
  · simp [parent]
  · exact ⟨old, old.take (stemLength old), last, stem, List.take_prefix _ _, by simp⟩
  · intro name membership
    rcases List.mem_append.mp membership with above | here
    · exact normal name ((List.dropLast_sublist _).mem above)
    · obtain rfl := List.mem_singleton.mp here
      refine ⟨part, ?_⟩
      intro slash
      rcases List.mem_append.mp slash with inStem | inSuffix
      · exact isOld.2 (List.mem_of_mem_take inStem)
      · exact noSlash inSuffix

theorem withSuffix_of_not_isSuffix (p : Path) {suffix : Text} (unfit : ¬ isSuffix suffix = true) :
    p.withSuffix suffix = .error (.invalidSuffix suffix) := by
  simp [withSuffix, unfit]

end Path

namespace Settings

/-- Whatever settings have come about, their suffix gives every source with a name a place beside it,
unless the suffix is a dot alone or holds a slash; then it gives none a place. -/
theorem suffix_accepted {s : Settings} (reachable : s.Reachable) {source : Text}
    (named : (Path.ofText source).parts ≠ []) :
    ((∃ target, (Path.ofText source).withSuffix s.suffix.toList = .ok target ∧
        (Path.ofText source).Sibling s.suffix.toList target) ↔
      s.suffix ≠ "." ∧ '/' ∉ s.suffix.toList) ∧
    ((Path.ofText source).withSuffix s.suffix.toList = .error (.invalidSuffix s.suffix.toList) ↔
      s.suffix = "." ∨ '/' ∈ s.suffix.toList) := by
  have dotted : s.suffix.toList.head? = some '.' := reachable.sound .suffix
  have dot : s.suffix.toList = ".".toList ↔ s.suffix = "." := String.toList_inj
  have usable : Path.isSuffix s.suffix.toList = true ↔ s.suffix ≠ "." ∧ '/' ∉ s.suffix.toList :=
    (Path.isSuffix_iff dotted).trans (and_congr (not_congr dot) .rfl)
  by_cases fits : Path.isSuffix s.suffix.toList = true
  · obtain ⟨target, placed, beside⟩ :=
      Path.exists_withSuffix (Path.normal_ofText source) named dotted fits
    obtain ⟨notDot, noSlash⟩ := usable.mp fits
    exact ⟨iff_of_true ⟨target, placed, beside⟩ ⟨notDot, noSlash⟩, by simp [placed, notDot, noSlash]⟩
  · have refused := Path.withSuffix_of_not_isSuffix (Path.ofText source) fits
    have unusable := mt usable.mpr fits
    refine ⟨iff_of_false (by simp [refused]) unusable, iff_of_true refused ?_⟩
    by_cases isDot : s.suffix = "."
    · exact .inl isDot
    · exact .inr (Classical.byContradiction fun noSlash => unusable ⟨isDot, noSlash⟩)

/-- A suffix of two parts, merged into the defaults, replaces the last part of a name. -/
theorem suffix_accepted_merged :
    ∃ s, default.mergeData (.dict [(.str "output", .dict [(.str "suffix", .str ".min.js")])]) = .ok s ∧
      ∃ target, (Path.ofText "lib/a.b.d".toList).withSuffix s.suffix.toList = .ok target ∧
        (Path.ofText "lib/a.b.d".toList).Sibling ".min.js".toList target := by
  have read : ofData .null = .ok default := rfl
  have merged : default.mergeData (.dict [(.str "output", .dict [(.str "suffix", .str ".min.js")])]) =
      .ok ⟨RunOptions.default, ".min.js"⟩ := rfl
  have named : (Path.ofText "lib/a.b.d".toList).parts ≠ [] := by decide
  have placed := (suffix_accepted (.merged (.read read) merged) named).1.mpr
    ⟨by decide, by decide⟩
  exact ⟨_, merged, placed⟩

/-- A dot alone is accepted as a suffix, and then no path can be made of a source's name. -/
theorem suffix_dot_unusable :
    ofData (.dict [(.str "output", .dict [(.str "suffix", .str ".")])]) =
        .ok ⟨RunOptions.default, "."⟩ ∧
      (Path.ofText "a.d".toList).parts ≠ [] ∧
      (Path.ofText "a.d".toList).withSuffix ".".toList = .error (.invalidSuffix ".".toList) :=
  ⟨rfl, by decide, rfl⟩

end Settings
end TypedScript
