import TypedScript.Proofs.Check.Faults

set_option autoImplicit false

/-!
What a check has in mind, has recorded and has noted behind any sequence of steps,
whether functions are opened and closed directly or by lines. The open function
is said by the steps alone, the recorded mismatches only grow, and a note stands
for a step that opened a function while another one was open.
-/

namespace TypedScript

/-- How a note names a function. -/
def Header.mention (h : Header) : String := s!"{String.ofList h.name} (line {h.line})"

namespace Check

/-- The notes of a sequence of steps: one for each step that opens a function while another one is
open, and none for any other step. -/
inductive Log : List Step → List Event → Prop
  | start : Log [] []
  | replaced {steps : List Step} {events : List Event} {next : Step} {f g : Header} :
      Log steps events → OpenIn steps f → next.opened? = some g →
      Log (steps ++ [next]) (events ++ [.replaced f g])
  | silent {steps : List Step} {events : List Event} {next : Step} :
      Log steps events → (∀ f g, OpenIn steps f → next.opened? ≠ some g) →
      Log (steps ++ [next]) events

theorem events_eq (s : State) (step : Step) :
    s.events step = match s.active, step.opened? with
      | some f, some g => [.replaced f g]
      | _, _ => [] := by
  match step with
  | .enter _ | .visit (some (.header _)) =>
    cases active : s.active <;> simp [State.events, notes, opening, Step.opened?, active]
  | .leave | .visit none => cases s.active <;> rfl
  | .visit (some (.declaration _)) | .visit (some (.returns ..)) | .visit (some (.close _)) =>
    cases s.active <;> rfl

theorem run_snd_append (s : State) (first second : List Step) :
    (run s (first ++ second)).2 = (run s first).2 ++ (run (s.after first) second).2 := by
  induction first generalizing s with
  | nil => rfl
  | cons step rest ih => simp [run, ih]

/-- The notes of a run. The induction is on the last step, whose note depends on the function that
the steps before it have left open. -/
theorem log_run (steps : List Step) : Log steps (run .start steps).2 := by
  induction steps using List.reverseRecOn with
  | nil => exact .start
  | append_singleton steps next ih =>
    have noted : (run .start (steps ++ [next])).2 =
        (run .start steps).2 ++ (State.start.after steps).events next := by
      simp [run_snd_append, run]
    rw [noted, events_eq]
    cases active : (State.start.after steps).active with
    | none =>
      have closed : ∀ f, ¬ OpenIn steps f := fun f isOpen => by
        simp [(after_active_iff steps f).mpr isOpen] at active
      simpa using Log.silent ih fun f _ isOpen _ => closed f isOpen
    | some f =>
      have isOpen := (after_active_iff steps f).mp active
      cases opened : next.opened? with
      | none => simpa using Log.silent ih fun _ _ _ => by simp [opened]
      | some g => exact .replaced ih isOpen opened

theorem Log.exists_replaced {steps : List Step} {events : List Event} (log : Log steps events)
    {event : Event} (noted : event ∈ events) : ∃ f g, event = .replaced f g := by
  induction log with
  | start => simp at noted
  | @replaced steps events next f g _ _ _ ih =>
    rcases List.mem_append.mp noted with before | last
    · exact ih before
    · exact ⟨f, g, List.mem_singleton.mp last⟩
  | silent _ _ ih => exact ih noted

theorem message_replaced (f g : Header) : (Event.replaced f g).message =
    "function " ++ f.mention ++ " replaced by " ++ g.mention ++ " before closing" := by
  have between : ") replaced by " = ")" ++ " replaced by " := by decide
  have last : ") before closing" = ")" ++ " before closing" := by decide
  unfold Event.message Header.mention
  rw [between, last]
  simp only [String.append_assoc]
  rfl

theorem length_told_le (s : State) (steps : List Step) : (told s steps).length ≤ steps.length := by
  induction steps generalizing s with
  | nil => exact Nat.le_refl 0
  | cons first rest ih =>
    have one : (s.found? first).toList.length ≤ 1 := by cases s.found? first <;> simp
    have others := ih (s.step first)
    rw [told_cons, List.length_append, List.length_cons]
    omega

theorem failed_of_prefix {s t : State} (kept : s.mismatches <+: t.mismatches)
    (failed : s.failed = true) : t.failed = true := by
  simp only [State.failed, Bool.not_eq_true', List.isEmpty_eq_false_iff] at failed ⊢
  exact fun none => failed (List.prefix_nil.mp (none ▸ kept))

theorem after_active_of_neutral (s : State) {steps : List Step}
    (neutral : ∀ step ∈ steps, step.Neutral) : (s.after steps).active = s.active := by
  induction steps generalizing s with
  | nil => rfl
  | cons first rest ih =>
    obtain ⟨opensNone, stays⟩ := neutral first (by simp)
    rw [after_cons, ih _ fun step later => neutral step (List.mem_cons_of_mem first later),
      step_active, opensNone, stays]
    rfl

/-- Behind every sequence of steps the active function is the one that was opened last, if nothing
was closed since, and none otherwise. Further steps keep the recorded mismatches, add one at most
each, and so never take a failure back; if none of them opens or closes, the active function stays.
The notes are those of the steps that open a function while another one is open; each is a debug
note that names both functions and their lines. -/
theorem run_history (steps : List Step) :
    (∀ h, (run .start steps).1.active = some h ↔ OpenIn steps h) ∧
      ((run .start steps).1.active = none ↔ ∀ h, ¬ OpenIn steps h) ∧
      (∀ further,
        (run .start steps).1.mismatches <+: (run .start (steps ++ further)).1.mismatches ∧
        (run .start (steps ++ further)).1.mismatches.length ≤
          (run .start steps).1.mismatches.length + further.length ∧
        ((run .start steps).1.failed = true → (run .start (steps ++ further)).1.failed = true) ∧
        ((∀ step ∈ further, step.Neutral) →
          (run .start (steps ++ further)).1.active = (run .start steps).1.active)) ∧
      Log steps (run .start steps).2 ∧
      ∀ event ∈ (run .start steps).2, ∃ f g, event = .replaced f g ∧ event.severity = .debug ∧
        event.message =
          "function " ++ f.mention ++ " replaced by " ++ g.mention ++ " before closing" := by
  have active := after_active_iff steps
  simp only [run_fst, after_append]
  refine ⟨active, ?_, ?_, log_run steps, ?_⟩
  · rw [Option.eq_none_iff_forall_ne_some]
    exact forall_congr' fun h => not_congr (active h)
  · intro further
    have recorded := after_mismatches (State.start.after steps) further
    have kept : (State.start.after steps).mismatches <+:
        ((State.start.after steps).after further).mismatches := ⟨_, recorded.symm⟩
    refine ⟨kept, ?_, failed_of_prefix kept, after_active_of_neutral _⟩
    rw [recorded, List.length_append]
    exact Nat.add_le_add_left (length_told_le _ further) _
  · intro event noted
    obtain ⟨f, g, rfl⟩ := (log_run steps).exists_replaced noted
    exact ⟨f, g, rfl, rfl, message_replaced f g⟩

end Check
end TypedScript
