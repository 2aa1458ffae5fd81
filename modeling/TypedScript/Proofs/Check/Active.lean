import Mathlib.Data.List.Induction
import TypedScript.Check.Scan

set_option autoImplicit false

/-!
The one function that a check keeps in mind. Behind any sequence of steps it is
the function that was opened last, unless something was closed since.
-/

namespace TypedScript.Check

/-- The function that a step opens, directly or by a visited header. -/
def Step.opened? : Step → Option Header
  | .enter h => some h
  | .visit (some (.header h)) => some h
  | .visit (some (.declaration _)) | .visit (some (.returns ..)) | .visit (some (.close _)) => none
  | .visit none | .leave => none

/-- A step closes directly, or by a visited brace. -/
def Step.closes : Step → Bool
  | .leave => true
  | .visit (some (.close _)) => true
  | .visit (some (.declaration _)) | .visit (some (.returns ..)) | .visit (some (.header _)) => false
  | .visit none | .enter _ => false

def Step.Neutral (step : Step) : Prop := step.opened? = none ∧ step.closes = false

/-- The function was opened by one of the steps, and all steps behind that one are neutral. -/
def OpenIn (steps : List Step) (h : Header) : Prop :=
  ∃ (place : Nat) (opening : Step), steps[place]? = some opening ∧ opening.opened? = some h ∧
    ∀ (later : Nat) (step : Step), place < later → steps[later]? = some step → step.Neutral

theorem step_active (s : State) (step : Step) :
    (s.step step).active =
      if step.closes then none else step.opened?.or s.active := by
  match step with
  | .enter _ | .leave => rfl
  | .visit none => rfl
  | .visit (some (.declaration _)) | .visit (some (.returns ..)) => rfl
  | .visit (some (.header _)) | .visit (some (.close _)) => rfl

theorem opened?_of_closes {step : Step} (closes : step.closes = true) : step.opened? = none := by
  match step with
  | .leave => rfl
  | .visit (some (.close _)) => rfl

theorem not_openIn_nil (h : Header) : ¬ OpenIn [] h := by
  rintro ⟨place, opening, found, -⟩
  simp at found

/-- With one more step at the end, the function was opened by that step, or the step is neutral
and the function was open before. -/
theorem openIn_concat_iff (steps : List Step) (last : Step) (h : Header) :
    OpenIn (steps ++ [last]) h ↔ last.opened? = some h ∨ last.Neutral ∧ OpenIn steps h := by
  constructor
  · rintro ⟨place, opening, found, opens, neutral⟩
    by_cases inside : place < steps.length
    · right
      refine ⟨neutral steps.length last inside (by simp), place, opening, ?_, opens, ?_⟩
      · rwa [List.getElem?_append_left inside] at found
      · intro later step behind present
        have bound : later < steps.length := (List.getElem?_eq_some_iff.mp present).1
        exact neutral later step behind (by rwa [List.getElem?_append_left bound])
    · left
      have bound := (List.getElem?_eq_some_iff.mp found).1
      have atEnd : place = steps.length := by
        simp only [List.length_append, List.length_singleton] at bound
        omega
      subst atEnd
      simp only [List.getElem?_concat_length, Option.some.injEq] at found
      rwa [found]
  · rintro (opens | ⟨lastNeutral, place, opening, found, opens, neutral⟩)
    · refine ⟨steps.length, last, by simp, opens, ?_⟩
      intro later step behind present
      have bound := (List.getElem?_eq_some_iff.mp present).1
      simp only [List.length_append, List.length_singleton] at bound
      omega
    · have inside : place < steps.length := (List.getElem?_eq_some_iff.mp found).1
      refine ⟨place, opening, by rwa [List.getElem?_append_left inside], opens, ?_⟩
      intro later step behind present
      by_cases bound : later < steps.length
      · exact neutral later step behind (by rwa [List.getElem?_append_left bound] at present)
      · have limit := (List.getElem?_eq_some_iff.mp present).1
        have atEnd : later = steps.length := by
          simp only [List.length_append, List.length_singleton] at limit
          omega
        subst atEnd
        simp only [List.getElem?_concat_length, Option.some.injEq] at present
        exact present ▸ lastNeutral

/-- The state behind a sequence of steps. -/
def State.after (s : State) (steps : List Step) : State := steps.foldl State.step s

@[simp] theorem after_nil (s : State) : s.after [] = s := rfl

@[simp] theorem after_cons (s : State) (first : Step) (rest : List Step) :
    s.after (first :: rest) = (s.step first).after rest := rfl

theorem after_append (s : State) (first second : List Step) :
    s.after (first ++ second) = (s.after first).after second := List.foldl_append

theorem after_concat (s : State) (steps : List Step) (last : Step) :
    s.after (steps ++ [last]) = (s.after steps).step last := by
  simp [State.after]

theorem run_fst (s : State) (steps : List Step) : (run s steps).1 = s.after steps := by
  induction steps generalizing s with
  | nil => rfl
  | cons first rest ih => simpa [run] using ih (s.step first)

/-- The active function is the one that is open. The induction is on the last step, since that
step alone decides which function comes out. -/
theorem after_active_iff (steps : List Step) (h : Header) :
    (State.start.after steps).active = some h ↔ OpenIn steps h := by
  induction steps using List.reverseRecOn with
  | nil => simp [State.start, not_openIn_nil]
  | append_singleton steps last ih =>
    rw [after_concat, openIn_concat_iff, step_active]
    by_cases closes : last.closes = true
    · simp [closes, opened?_of_closes closes, Step.Neutral]
    · cases opened : last.opened? with
      | none => simp [closes, opened, Step.Neutral, ih]
      | some g => simp [closes, opened, Step.Neutral]

end TypedScript.Check
