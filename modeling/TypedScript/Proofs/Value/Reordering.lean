import TypedScript.Proofs.Value.Lookup

set_option autoImplicit false

/-!
Mappings that differ in the order of their entries alone, at any depth. What they
hold under a text is the same but for such an order, and they stay alike when the
same is inserted into both.
-/

namespace TypedScript

namespace Entries

/-- The same entries in another order, as are the entries of the mappings under their keys. Only
entries with different keys change places. -/
inductive Reordered : Entries → Entries → Prop
  | nil : Reordered [] []
  | cons (entry : Value × Value) {a b : Entries} :
      Reordered a b → Reordered (entry :: a) (entry :: b)
  | inner (key : Value) {i j a b : Entries} :
      Reordered i j → Reordered a b → Reordered ((key, .dict i) :: a) ((key, .dict j) :: b)
  | swap {first second : Value × Value} (rest : Entries) :
      first.1.same second.1 = false → second.1.same first.1 = false →
      Reordered (first :: second :: rest) (second :: first :: rest)
  | trans {a b c : Entries} : Reordered a b → Reordered b c → Reordered a c

theorem Reordered.refl (entries : Entries) : Reordered entries entries := by
  induction entries with
  | nil => exact .nil
  | cons entry rest ih => exact .cons entry ih

end Entries

/-- Equal values, or mappings that differ in order alone. -/
inductive Value.Alike : Value → Value → Prop
  | same (value : Value) : Alike value value
  | dict {i j : Entries} : Entries.Reordered i j → Alike (.dict i) (.dict j)

theorem Value.Alike.trans {u v w : Value} (first : u.Alike v) (second : v.Alike w) : u.Alike w := by
  cases first with
  | same => exact second
  | dict reordered => cases second with
    | same => exact .dict reordered
    | dict further => exact .dict (reordered.trans further)

theorem Value.Alike.rel_trans {x y z : Option Value} (first : Option.Rel Alike x y)
    (second : Option.Rel Alike y z) : Option.Rel Alike x z := by
  cases first with
  | none => exact second
  | some alike => cases second with
    | some further => exact .some (alike.trans further)

/-- Of two different keys one at most is a given text. -/
theorem Value.ne_str_or_ne_str {first second : Value} (differs : first.same second = false)
    (name : String) : first ≠ .str name ∨ second ≠ .str name := by
  by_cases here : first = .str name
  · refine .inr fun there => ?_
    rw [here, str_same_iff.mpr there] at differs
    contradiction
  · exact .inl here

namespace Entries

theorem Reordered.find? {a b : Entries} (reordered : Reordered a b) (name : String) :
    Option.Rel Value.Alike (find? (.str name) a) (find? (.str name) b) := by
  induction reordered with
  | nil => exact .none
  | cons entry _ ih =>
    simp only [Entries.find?]
    split
    · exact .some (.same _)
    · exact ih
  | inner key inside _ _ ih =>
    simp only [Entries.find?]
    split
    · exact .some (.dict inside)
    · exact ih
  | @swap first second rest differs _ =>
    have same : Entries.find? (.str name) (first :: second :: rest) =
        Entries.find? (.str name) (second :: first :: rest) := by
      rcases Value.ne_str_or_ne_str differs name with other | other <;>
        simp [Entries.find?, mt Value.same_str_iff.mp other]
    rw [same]
    cases Entries.find? (.str name) (second :: first :: rest) with
    | none => exact .none
    | some value => exact .some (.same value)
  | trans _ _ first second => exact Value.Alike.rel_trans first second

theorem insert_alike (name : String) {v w : Value} (alike : v.Alike w) (entries : Entries) :
    Reordered (insert (.str name) v entries) (insert (.str name) w entries) := by
  have replaced (key : Value) (rest : Entries) : Reordered ((key, v) :: rest) ((key, w) :: rest) := by
    cases alike with
    | same => exact .refl _
    | dict inside => exact .inner key inside (.refl rest)
  induction entries with
  | nil => exact replaced _ []
  | cons entry rest ih =>
    simp only [insert]
    split
    · exact replaced _ rest
    · exact .cons entry ih

theorem Reordered.insert {a b : Entries} (reordered : Reordered a b) (name : String) {v w : Value}
    (alike : v.Alike w) : Reordered (insert (.str name) v a) (insert (.str name) w b) := by
  refine .trans ?_ (insert_alike name alike b)
  induction reordered with
  | nil => exact .refl _
  | cons entry reordered ih =>
    simp only [Entries.insert]
    split
    · exact .cons _ reordered
    · exact .cons entry ih
  | inner key inside reordered _ ih =>
    simp only [Entries.insert]
    split
    · exact .cons _ reordered
    · exact .inner key inside ih
  | @swap first second rest differs differsBack =>
    rcases Value.ne_str_or_ne_str differs name with other | other
    · by_cases found : second.1.same (.str name) = true <;>
        simpa [Entries.insert, mt Value.same_str_iff.mp other, found] using
          .swap _ differs differsBack
    · by_cases found : first.1.same (.str name) = true <;>
        simpa [Entries.insert, mt Value.same_str_iff.mp other, found] using
          .swap _ differs differsBack
  | trans _ _ first second => exact first.trans second

theorem insert_insert (name : String) (v w : Value) (entries : Entries) :
    insert (.str name) v (insert (.str name) w entries) = insert (.str name) v entries := by
  induction entries with
  | nil => simp [insert, Value.same_str_iff]
  | cons entry rest ih =>
    by_cases here : entry.1.same (.str name) = true
    · simp [insert, here]
    · simp [insert, here, ih]

/-- Insertions under different texts change places. -/
theorem insert_comm {name other : String} (differs : name ≠ other) (v w : Value)
    (entries : Entries) :
    Reordered (insert (.str name) v (insert (.str other) w entries))
      (insert (.str other) w (insert (.str name) v entries)) := by
  have apart {x y : String} (distinct : x ≠ y) : (Value.str x).same (.str y) = false :=
    Bool.eq_false_iff.mpr fun same => distinct (by simpa using Value.same_str_iff.mp same)
  induction entries with
  | nil =>
    simp only [insert, apart differs, apart differs.symm]
    exact .swap [] (apart differs.symm) (apart differs)
  | cons entry rest ih =>
    by_cases here : entry.1.same (.str name) = true
    · have there : entry.1.same (.str other) = false := by
        rw [Value.same_str_iff.mp here]
        exact apart differs
      simpa [insert, here, there] using Reordered.refl _
    · by_cases there : entry.1.same (.str other) = true
      · simpa [insert, here, there] using Reordered.refl _
      · simpa [insert, here, there] using Reordered.cons entry ih

end Entries
end TypedScript
