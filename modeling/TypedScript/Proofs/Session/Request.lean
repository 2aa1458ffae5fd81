import TypedScript.Proofs.Session.Running
import TypedScript.Proofs.Settings.Merge

set_option autoImplicit false

/-!
What a run may fail with. Settings that have come about from data of any kind
make a request that is in order, so that a run under them fails for the files,
for the launch or for the time, and for nothing else.
-/

namespace TypedScript

/-- What may go wrong while a script is written, launched and deleted. -/
inductive Failure.Occurs : Failure → Prop
  | nullInPath : Occurs .nullInPath
  | file (e : FileError) : Occurs (.file e)
  | launch (command : List String) (reason : String) : Occurs (.launch command reason)
  | system (e : LaunchError) (program : Text) : Occurs (.system e program)
  | timedOut (seconds : Float) : Occurs (.timedOut seconds)

namespace Action

variable {α β : Type}

/-- An action fails, if it does, with what may go wrong. -/
def Runs (action : Action α) : Prop := ∀ s e, (action s).1 = .error e → e.Occurs

namespace Runs

theorem pure (x : α) : Runs (Pure.pure x) := fun _ _ failed => by cases failed

theorem throw {e : Failure} (occurs : e.Occurs) : Runs (MonadExcept.throw e : Action α) := by
  intro s other failed
  cases failed
  exact occurs

theorem get : Runs (MonadState.get : Action Session) := fun _ _ failed => by cases failed

theorem modify (change : Session → Session) : Runs (modify change : Action Unit) :=
  fun _ _ failed => by cases failed

theorem bind {first : Action α} {next : α → Action β} (runs : Runs first)
    (after : ∀ x, Runs (next x)) : Runs (first >>= next) := by
  intro s e failed
  rw [bind_apply] at failed
  match ended : first s with
  | (.ok x, between) =>
    rw [ended] at failed
    exact after x between e failed
  | (.error other, between) =>
    rw [ended] at failed
    cases failed
    exact runs s e (by rw [ended])

theorem checkPath (path : Path) : Runs (Action.checkPath path) := by
  intro s e failed
  by_cases null : '\x00' ∈ path.text
  · rw [checkPath_of_null null] at failed
    cases failed
    exact .nullInPath
  · rw [checkPath_of_clean null] at failed
    cases failed

theorem changeFiles (path : Path) (change : FileTree → Except FileFault FileTree) :
    Runs (Action.changeFiles path change) := by
  refine .bind (.checkPath path) fun _ => .bind .get fun s => ?_
  split
  · exact .modify _
  · exact .throw (.file _)

theorem ensureDirectory (path : Path) : Runs (Action.ensureDirectory path) := by
  refine .bind (.checkPath path) fun _ => .bind .get fun s => .bind (.modify _) fun _ => ?_
  split
  · exact .pure ()
  · exact .throw (.file _)

theorem writeText (path : Path) (t : Text) : Runs (Action.writeText path t) :=
  .bind (.ensureDirectory _) fun _ => .changeFiles path _

end Runs
end Action

namespace Script

open TypedScript.Action

theorem delete_runs (name : Text) : Runs (delete name) := by
  refine .bind (.checkPath _) fun _ => .bind .get fun s => ?_
  split
  · exact .modify _
  · exact .modify _
  · exact .throw (.file _)

/-- A time limit that settings can hold is one that a run can exceed. -/
theorem timeoutFailure_occurs (o : RunOptions) : (timeoutFailure o.limit).Occurs := by
  unfold RunOptions.limit
  cases o.timeout with
  | none => exact .timedOut 0.0
  | some x => exact .timedOut x

theorem outcome_occurs {command : List String} {o : RunOptions} {ending : Ending} {e : Failure}
    (failed : outcome command o.limit ending = .error e) : e.Occurs := by
  cases ending with
  | exited status => cases failed
  | notFound =>
    cases failed
    exact .launch command _
  | notPermitted e =>
    cases failed
    exact .launch command _
  | failed e =>
    cases failed
    exact .system e _
  | timedOut =>
    cases failed
    exact timeoutFailure_occurs o

theorem launch_runs (o : RunOptions) (script : Path) : Runs (launch o.command o.limit script) := by
  intro s e failed
  obtain ⟨events, launched⟩ := launch_apply o.command o.limit script s
  rw [launched] at failed
  exact outcome_occurs failed

theorem thenAlways_runs {α : Type} {action : Action α} {last : Action Unit} (runs : Runs action)
    (lastRuns : Runs last) : Runs (thenAlways action last) := by
  intro s e failed
  have first := runs s
  have second := lastRuns (action s).2
  cases begun : action s with
  | mk outcome between =>
    rw [begun] at first second
    rcases closed : last between with ⟨_ | _, after⟩
    · rw [closed] at second
      simp only [thenAlways, begun, closed] at failed
      cases failed
      exact second _ rfl
    · simp only [thenAlways, begun, closed] at failed
      exact first e failed

theorem run_runs {o : RunOptions} (runnable : o.Runnable) (t : Text) :
    Runs (run t o.command o.limit o.scratch o.stem) := by
  intro s e failed
  have behind : Runs (do
      let script := freshPath (← MonadState.get) o.scratch o.stem
      writeText script t
      let status ← thenAlways (launch o.command o.limit script) (delete script.text)
      note (.finished status)
      return status) :=
    .bind .get fun _ => .bind (.writeText _ _) fun _ =>
      .bind (thenAlways_runs (launch_runs o _) (delete_runs _)) fun _ =>
        .bind (.modify _) fun _ => .pure _
  rw [run, bind_apply, checkRequest_apply runnable.command (checkTimeout_limit runnable)] at failed
  exact behind s e failed

end Script

/-- Settings that have come about from data of any kind name an interpreter, a limit that is not
zero or below if any, and a suffix with its dot. They have a stem too, unless the data that were
read or merged to make them have a value of another class in its place that counts as true and has
the empty text. A run under them does not fail for want of an interpreter or because of its
limit. -/
theorem Settings.run_accepted {s : Settings} (reachable : s.Reachable) :
    s.run.command ≠ [] ∧ (∀ x ∈ s.run.timeout, ¬ x ≤ 0.0) ∧
      (s.run.stem = "" → ∃ (data : Value) (value : Foreign), Leaf.stem.Stated data (.other value) ∧
        value.truth = .ok true ∧ value.text = .ok "" ∧
        (ofData data = .ok s ∨
          ∃ before : Settings, before.Reachable ∧ before.mergeData data = .ok s)) ∧
      s.suffix.toList.head? = some '.' ∧
      ∀ (t : Text) (session : Session) (e : Failure),
        (Script.run t s.run.command s.run.limit s.run.scratch s.run.stem session).1 = .error e →
          e ≠ .noInterpreter ∧ ∀ limit, e ≠ .timeoutNotPositive limit := by
  refine ⟨reachable.sound .command, reachable.sound .timeout, reachable.exists_stated_of_stem,
    reachable.sound .suffix, ?_⟩
  intro t session e failed
  have occurs := Script.run_runs reachable.runnable t session e failed
  constructor
  · rintro rfl
    cases occurs
  · rintro limit rfl
    cases occurs

/-- Bytes make a command of their numbers, and a limit that is no number is not refused. -/
theorem Settings.run_accepted_bytes :
    let data : Value := .dict
      [(.str "runtime", .dict
        [(.str "command", .bytes [104, 105]), (.str "timeout", .str " NaN"),
         (.str "temp_root", .str ""), (.str "temp_prefix", .list [.null])]),
       (.str "output", .dict [(.str "suffix", .str ".x y")])]
    let s : Settings := ⟨⟨["104", "105"], some (0.0 / 0.0), none, "[None]"⟩, ".x y"⟩
    ofData data = .ok s ∧ s.suffix.toList.head? = some '.' ∧ ∀ t session limit,
      (Script.run t s.run.command s.run.limit none s.run.stem session).1 ≠
        .error (.timeoutNotPositive limit) := by
  intro data s
  have read : ofData data = .ok s := by rfl
  obtain ⟨-, -, -, dot, accepted⟩ := run_accepted (.read read)
  exact ⟨read, dot, fun t session limit failed => (accepted t session _ failed).2 limit rfl⟩

/-- A stem can be empty. -/
theorem Settings.stemless_read :
    ofData stemless = .ok ⟨⟨["node"], none, none, ""⟩, ".js"⟩ := rfl

end TypedScript
