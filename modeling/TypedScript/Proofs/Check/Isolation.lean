import TypedScript.Proofs.Check.Faults
import TypedScript.Proofs.Line.Numbering
import TypedScript.Proofs.Text.Lines

set_option autoImplicit false

/-!
A line that is just a closing brace cuts a source in two. The check of the part
behind it starts afresh, so its faults are those it has alone, further down by
the lines in front of it.
-/

namespace TypedScript

def Mismatch.shift (n : Int) (m : Mismatch) : Mismatch := { m with line := m.line + n }

namespace Check

def Step.shift (n : Int) : Step → Step
  | .enter h => .enter (h.shift n)
  | .leave => .leave
  | .visit record => .visit (record.map (LineRecord.shift n))

/-- The state keeps the same function in mind as another one, further down by `n` lines. -/
def State.Below (n : Int) (s below : State) : Prop := below.active = s.active.map (Header.shift n)

theorem mismatch?_shift (n : Int) (active : Option Header) (record : LineRecord) :
    mismatch? (active.map (Header.shift n)) (record.shift n) =
      (mismatch? active record).map (Mismatch.shift n) := by
  cases record with
  | declaration d =>
    simp only [LineRecord.shift, mismatch?, Declaration.mismatch?, Declaration.shift]
    split <;> rfl
  | returns value line =>
    cases active with
    | none => rfl
    | some h =>
      simp only [LineRecord.shift, mismatch?, Option.map_some, Option.bind_some,
        Header.mismatch?, Header.shift]
      split
      · rfl
      · split <;> rfl
  | header h => rfl
  | close line => rfl

theorem State.Below.found? {n : Int} {s below : State} (same : s.Below n below) (step : Step) :
    below.found? (step.shift n) = (s.found? step).map (Mismatch.shift n) := by
  match step with
  | .enter _ | .leave => rfl
  | .visit none => rfl
  | .visit (some record) =>
    simp only [Step.shift, State.found?, Option.map_some]
    rw [same, mismatch?_shift]

theorem State.Below.step {n : Int} {s below : State} (same : s.Below n below) (step : Step) :
    (s.step step).Below n (below.step (step.shift n)) := by
  match step with
  | .enter _ | .leave => rfl
  | .visit none => exact same
  | .visit (some (.header _)) | .visit (some (.close _)) => rfl
  | .visit (some (.declaration _)) | .visit (some (.returns ..)) => exact same

theorem State.Below.after {n : Int} {s below : State} (same : s.Below n below) (steps : List Step) :
    (s.after steps).Below n (below.after (steps.map (Step.shift n))) := by
  induction steps generalizing s below with
  | nil => exact same
  | cons first rest ih => exact ih (same.step first)

theorem State.Below.told {n : Int} {s below : State} (same : s.Below n below) (steps : List Step) :
    told below (steps.map (Step.shift n)) = (told s steps).map (Mismatch.shift n) := by
  induction steps generalizing s below with
  | nil => rfl
  | cons first rest ih =>
    rw [List.map_cons, told_cons, told_cons, same.found? first, ih (same.step first),
      List.map_append]
    cases s.found? first <;> rfl

theorem told_append (s : State) (first second : List Step) :
    told s (first ++ second) = told s first ++ told (s.after first) second := by
  induction first generalizing s with
  | nil => rfl
  | cons step rest ih =>
    rw [List.cons_append, told_cons, told_cons, ih, after_cons, List.append_assoc]

/-- The visits of lines that stand behind `start` others. -/
def visitsFrom (start : Nat) (lines : List Text) : List Step :=
  (lines.zipIdx start).map fun (t, index) => .visit (Line.classify (index + 1) t)

theorem visits_eq (source : Text) : visits source = visitsFrom 0 (Text.lines source) := rfl

theorem visitsFrom_cons (start : Nat) (t : Text) (rest : List Text) :
    visitsFrom start (t :: rest) =
      .visit (Line.classify (start + 1) t) :: visitsFrom (start + 1) rest := rfl

theorem visitsFrom_append (start : Nat) (first second : List Text) :
    visitsFrom start (first ++ second) =
      visitsFrom start first ++ visitsFrom (start + first.length) second := by
  simp [visitsFrom, List.zipIdx_append]

theorem visitsFrom_add (n start : Nat) (lines : List Text) :
    visitsFrom (n + start) lines = (visitsFrom start lines).map (Step.shift n) := by
  induction lines generalizing start with
  | nil => rfl
  | cons t rest ih =>
    have number : ((n + start : Nat) : Int) + 1 = (start : Int) + 1 + n := by
      push_cast
      omega
    rw [visitsFrom_cons, visitsFrom_cons, number, Line.classify_shift, Nat.add_assoc, ih]
    rfl

theorem classify_nil (line : Int) : Line.classify line [] = none := by
  simp [Line.classify, Text.trim, Text.trimStart, Text.trimEnd, tokenize, Token.tokensFrom_nil]

/-- Empty lines change nothing and are never at fault. -/
theorem empty_lines (s : State) (start : Nat) {gap : List Text} (empty : ∀ t ∈ gap, t = []) :
    s.after (visitsFrom start gap) = s ∧ told s (visitsFrom start gap) = [] := by
  induction gap generalizing start with
  | nil => exact ⟨rfl, rfl⟩
  | cons t rest ih =>
    obtain rfl := empty t (by simp)
    obtain ⟨kept, silent⟩ := ih (start + 1) fun t membership => empty t (by simp [membership])
    rw [visitsFrom_cons, classify_nil]
    exact ⟨kept, silent⟩

/-- The line of a closing brace, between line feeds. -/
def closing : Text := ['\n', '\x7d', '\n']

theorem lines_closing_append (a b : Text) :
    Text.lines (a ++ closing ++ b) = Text.lines (a ++ closing) ++ Text.lines b := by
  have split := Text.lines_append_lineFeed (a ++ ['\n', '\x7d']) b
  simpa [closing] using split

theorem exists_lines_closing (a : Text) :
    ∃ gap, (∀ t ∈ gap, t = []) ∧
      Text.lines (a ++ closing) = Text.lines a ++ gap ++ [['\x7d']] := by
  obtain ⟨gap, empty, split⟩ := Text.exists_lines_append_lineFeed a
  have brace : Text.lines ['\x7d', '\n'] = [['\x7d']] := by decide
  exact ⟨gap, empty, by rw [closing, split, brace]⟩

/-- Behind the brace no function is active, and the brace has added no fault. -/
theorem visits_closing (a : Text) :
    (State.start.after (visits (a ++ closing))).active = none ∧
      told .start (visits (a ++ closing)) = announced a := by
  obtain ⟨gap, empty, split⟩ := exists_lines_closing a
  obtain ⟨kept, silent⟩ := empty_lines (State.start.after (visits a)) (Text.lines a).length empty
  have brace (line : Int) : Line.classify line ['\x7d'] = some (.close line) :=
    Line.classify_of_describes (.close (by decide))
  rw [visits_eq, split, visitsFrom_append, visitsFrom_append, ← visits_eq, Nat.zero_add,
    visitsFrom_cons, brace]
  constructor
  · rw [after_append, after_append, kept]
    rfl
  · rw [told_append, told_append, after_append, kept, silent, List.append_nil]
    exact List.append_nil _

theorem visits_closing_append (a b : Text) :
    visits (a ++ closing ++ b) =
      visits (a ++ closing) ++ (visits b).map (Step.shift (Text.lines (a ++ closing)).length) := by
  rw [visits_eq, lines_closing_append, visitsFrom_append, ← visits_eq, visits_eq b, Nat.zero_add,
    ← visitsFrom_add, Nat.add_zero]

/-- A closing brace isolates what follows: the source behind it has the faults that it has alone,
further down, and the functions that are open in front of its lines are its own. -/
theorem check_closing_append (a b : Text) :
    (check (a ++ closing ++ b)).mismatches = (check a).mismatches ++
        (check b).mismatches.map (Mismatch.shift (Text.lines (a ++ closing)).length) ∧
      ∀ place f, OpenBefore (a ++ closing ++ b) ((Text.lines (a ++ closing)).length + place) f ↔
        ∃ g, OpenBefore b place g ∧ g.shift (Text.lines (a ++ closing)).length = f := by
  obtain ⟨noneActive, silent⟩ := visits_closing a
  have afresh : State.start.Below (Text.lines (a ++ closing)).length
      (State.start.after (visits (a ++ closing))) := noneActive
  constructor
  · rw [check_mismatches, check_mismatches, check_mismatches, announced, visits_closing_append,
      told_append, silent, afresh.told, ← announced]
  · intro place f
    have length : (visits (a ++ closing)).length = (Text.lines (a ++ closing)).length := by
      simp [visits]
    rw [← openIn_take_visits_iff, ← after_active_iff, visits_closing_append, ← length,
      List.take_length_add_append, ← List.map_take, after_append, length,
      afresh.after ((visits b).take place)]
    simp only [Option.map_eq_some_iff, after_active_iff, openIn_take_visits_iff]

end Check
end TypedScript
