import TypedScript.Proofs.Files.Path
import TypedScript.Value.Display

set_option autoImplicit false

/-!
The texts of values. A value of a kind that is known here is never shown as
nothing, and has a text if it counts as true; of values of other classes neither
can be said.
-/

namespace TypedScript

namespace FloatLayout

theorem magnitude_ne_nil {layout : FloatLayout} (pointed : layout.keepsPoint = true) (b : Binary) :
    layout.magnitude b ≠ [] := by
  unfold magnitude
  extract_lets d all digits place whole body fraction sign mantissa
  split
  · split
    · simp
    · split <;> simp
  · simp

theorem standard_text_ne_nil (x : Float) : standard.text x ≠ [] := by
  unfold text
  split
  · simp
  · simp
  next b _ =>
    have digits : standard.magnitude b ≠ [] := magnitude_ne_nil rfl b
    simp [digits]

end FloatLayout

namespace Value

theorem complexText_ne_nil (re im : Float) : complexText re im ≠ [] := by
  unfold complexText
  extract_lets imaginary
  split <;> simp

theorem toString_ne_nil (n : Int) : (toString n).toList ≠ [] := by
  cases n with
  | ofNat n =>
    change n.repr.toList ≠ []
    rw [ne_eq, String.toList_eq_nil_iff]
    exact Nat.repr_ne_empty
  | negSucc n =>
    change ("-" ++ n.succ.repr).toList ≠ []
    simp

theorem shown_ne_nil {v : Value} (known : ∀ value, v ≠ .other value) : v.shown ≠ [] := by
  cases v with
  | bool b =>
    unfold shown
    split <;> simp
  | int n =>
    unfold shown
    exact toString_ne_nil n
  | float x =>
    unfold shown
    exact FloatLayout.standard_text_ne_nil x
  | complex re im =>
    unfold shown
    exact complexText_ne_nil re im
  | set items =>
    unfold shown
    split <;> simp
  | other value => exact absurd rfl (known value)
  | _ =>
    unfold shown
    simp [Quoted.text, Quoted.bytes]

theorem text_ne_empty {v : Value} {t : String} (known : ∀ value, v ≠ .other value)
    (truth : v.truth = .ok true) (written : v.text = .ok t) : t ≠ "" := by
  have filled {characters : Text} (some : characters ≠ []) : String.ofList characters ≠ "" := by
    rwa [ne_eq, ← String.toList_eq_nil_iff, String.toList_ofList]
  unfold text at written
  split at written
  next s =>
    cases written
    simpa [Value.truth] using truth
  next name =>
    cases written
    exact filled (Path.normal_ofText name).text_ne_nil
  next value => exact absurd rfl (known value)
  next =>
    split at written
    · cases written
      exact filled (shown_ne_nil known)
    · contradiction

/-- A value counts as true although its text is empty. -/
def IsHollow (v : Value) : Prop := v.truth = .ok true ∧ v.text = .ok ""

/-- Only values of other classes can be hollow. -/
theorem IsHollow.exists_other {v : Value} (hollow : v.IsHollow) :
    ∃ value, v = .other value ∧ value.truth = .ok true ∧ value.text = .ok "" := by
  apply Classical.byContradiction
  intro noOther
  have known : ∀ value, v ≠ .other value := by
    rintro value rfl
    exact noOther ⟨value, rfl, hollow⟩
  exact text_ne_empty known hollow.1 hollow.2 rfl

end Value
end TypedScript
