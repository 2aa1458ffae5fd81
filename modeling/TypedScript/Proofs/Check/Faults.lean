import TypedScript.Proofs.Check.Active
import TypedScript.Proofs.Line.Recognition

set_option autoImplicit false

/-!
What a check finds, said line by line and without its state. A line is at fault
by its own record and by the function that is open in front of it; the check
lists the faults in the order of the lines, and tells them in that order.
-/

namespace TypedScript

/-- A union excludes a type unless `any` is its only name or the type is one of its names. -/
def TypeUnion.Excludes (union : TypeUnion) (inferred : TypeName) : Prop :=
  union.names ≠ [TypeName.any.text] ∧ inferred.text ∉ union.names

theorem TypeUnion.admits_eq_false_iff (union : TypeUnion) (inferred : TypeName) :
    union.admits inferred = false ↔ union.Excludes inferred := by
  simp [admits, isWildcard, Excludes]

namespace Check

/-- The record of a line; the line at place zero has number one. -/
def recordAt? (source : Text) (place : Nat) : Option LineRecord :=
  (Text.lines source)[place]?.bind (Line.classify (place + 1))

/-- A function is open in front of a line if its header stands before the line, and neither a
header nor a closing brace stands between the two. -/
def OpenBefore (source : Text) (place : Nat) (f : Header) : Prop :=
  ∃ opened < place, recordAt? source opened = some (.header f) ∧
    ∀ between, opened < between → between < place →
      (∀ g, recordAt? source between ≠ some (.header g)) ∧
      ∀ line, recordAt? source between ≠ some (.close line)

/-- What is wrong with a line: the type of a declared value, or of a value that is returned from
the open function. -/
inductive Fault (source : Text) (place : Nat) : Mismatch → Prop
  | assigned {d : Declaration} :
      recordAt? source place = some (.declaration d) →
      d.declared.Excludes (literalType d.value) →
      Fault source place
        ⟨place + 1, d.name, d.declared.text, literalType d.value, .assigned⟩
  | returned {value : Text} {line : Int} {f : Header} {union : TypeUnion} :
      recordAt? source place = some (.returns value line) → value ≠ [] →
      OpenBefore source place f → f.result = some union →
      union.Excludes (literalType value) →
      Fault source place ⟨place + 1, f.name, union.text, literalType value, .returned⟩

theorem Fault.line_eq {source : Text} {place : Nat} {m : Mismatch} (fault : Fault source place m) :
    m.line = place + 1 := by
  cases fault <;> rfl

theorem Declaration.mismatch?_eq_some_iff {d : Declaration} {m : Mismatch} :
    d.mismatch? = some m ↔
      d.declared.Excludes (literalType d.value) ∧
        m = ⟨d.line, d.name, d.declared.text, literalType d.value, .assigned⟩ := by
  simp only [Declaration.mismatch?, ← TypeUnion.admits_eq_false_iff]
  split
  next admitted => simp [admitted]
  next excluded => simp [excluded, eq_comm]

theorem Header.mismatch?_eq_some_iff {f : Header} {value : Text} {line : Int} {m : Mismatch} :
    f.mismatch? value line = some m ↔
      ∃ union, f.result = some union ∧ value ≠ [] ∧ union.Excludes (literalType value) ∧
        m = ⟨line, f.name, union.text, literalType value, .returned⟩ := by
  unfold Header.mismatch?
  split
  next missing => simp [missing]
  next union found =>
    simp only [found, Option.some.injEq, exists_eq_left', ← TypeUnion.admits_eq_false_iff]
    cases value with
    | nil => simp
    | cons c rest => by_cases admitted : union.admits (literalType (c :: rest)) = true <;>
        simp [admitted, eq_comm]

theorem visits_getElem? (source : Text) (place : Nat) :
    (visits source)[place]? =
      (Text.lines source)[place]?.map fun t => .visit (Line.classify (place + 1) t) := by
  simp [visits, Function.comp_def]

/-- Visiting the line at a place opens a function exactly if the line is its header. -/
theorem visits_opened?_iff {source : Text} {place : Nat} {step : Step} {f : Header}
    (visited : (visits source)[place]? = some step) :
    step.opened? = some f ↔ recordAt? source place = some (.header f) := by
  rw [visits_getElem?] at visited
  obtain ⟨t, found, rfl⟩ := Option.map_eq_some_iff.mp visited
  rw [recordAt?, found, Option.bind_some]
  cases Line.classify (place + 1) t with
  | none => simp [Step.opened?]
  | some record => cases record <;> simp [Step.opened?]

theorem visits_closes_iff {source : Text} {place : Nat} {step : Step}
    (visited : (visits source)[place]? = some step) :
    step.closes = true ↔ ∃ line, recordAt? source place = some (.close line) := by
  rw [visits_getElem?] at visited
  obtain ⟨t, found, rfl⟩ := Option.map_eq_some_iff.mp visited
  rw [recordAt?, found, Option.bind_some]
  cases Line.classify (place + 1) t with
  | none => simp [Step.closes]
  | some record => cases record <;> simp [Step.closes]

theorem exists_visit_of_recordAt? {source : Text} {place : Nat} {record : LineRecord}
    (found : recordAt? source place = some record) :
    (visits source)[place]? = some (.visit (some record)) := by
  obtain ⟨t, line, classified⟩ := Option.bind_eq_some_iff.mp found
  rw [visits_getElem?, line, Option.map_some, classified]

theorem take_visits_getElem?_iff {source : Text} {place earlier : Nat} {step : Step} :
    ((visits source).take place)[earlier]? = some step ↔
      earlier < place ∧ (visits source)[earlier]? = some step := by
  rw [List.getElem?_take]
  split <;> simp [*]

/-- The functions that are open in front of a line are those left open by the lines before it. -/
theorem openIn_take_visits_iff (source : Text) (place : Nat) (f : Header) :
    OpenIn ((visits source).take place) f ↔ OpenBefore source place f := by
  constructor
  · rintro ⟨opened, opening, visited, opens, neutral⟩
    obtain ⟨before, visited⟩ := take_visits_getElem?_iff.mp visited
    refine ⟨opened, before, (visits_opened?_iff visited).mp opens, ?_⟩
    intro between behind ahead
    have quiet : ∀ record, recordAt? source between = some record →
        Step.Neutral (.visit (some record)) := by
      intro record found
      exact neutral between _ behind
        (take_visits_getElem?_iff.mpr ⟨ahead, exists_visit_of_recordAt? found⟩)
    constructor
    · intro g found
      exact absurd (quiet _ found).1 (by simp [Step.opened?])
    · intro line found
      exact absurd (quiet _ found).2 (by simp [Step.closes])
  · rintro ⟨opened, before, found, quiet⟩
    have visited := exists_visit_of_recordAt? found
    refine ⟨opened, _, take_visits_getElem?_iff.mpr ⟨before, visited⟩,
      (visits_opened?_iff visited).mpr found, ?_⟩
    intro between step behind present
    obtain ⟨ahead, present⟩ := take_visits_getElem?_iff.mp present
    obtain ⟨noHeader, noClose⟩ := quiet between behind ahead
    constructor
    · cases opens : step.opened? with
      | none => rfl
      | some g => exact absurd ((visits_opened?_iff present).mp opens) (noHeader g)
    · cases closes : step.closes with
      | false => rfl
      | true =>
        obtain ⟨line, closing⟩ := (visits_closes_iff present).mp closes
        exact absurd closing (noClose line)

theorem told_cons (s : State) (first : Step) (rest : List Step) :
    told s (first :: rest) = (s.found? first).toList ++ told (s.step first) rest := rfl

theorem step_mismatches (s : State) (step : Step) :
    (s.step step).mismatches = s.mismatches ++ (s.found? step).toList := by
  match step with
  | .enter _ | .leave => simp [State.step, State.found?]
  | .visit none => simp [State.step, State.found?]
  | .visit (some _) => rfl

/-- A run adds to the mismatches exactly what it tells. -/
theorem after_mismatches (s : State) (steps : List Step) :
    (s.after steps).mismatches = s.mismatches ++ told s steps := by
  induction steps generalizing s with
  | nil => simp [told]
  | cons first rest ih =>
    rw [after_cons, ih, step_mismatches, told_cons, List.append_assoc]

theorem check_mismatches (source : Text) : (check source).mismatches = announced source := by
  simp [check, run_fst, after_mismatches, State.start, announced]

/-- What is told at some place of a run, the state being the one behind the steps before. -/
theorem mem_told_iff (s : State) (steps : List Step) (m : Mismatch) :
    m ∈ told s steps ↔
      ∃ (place : Nat) (step : Step), steps[place]? = some step ∧
        (s.after (steps.take place)).found? step = some m := by
  induction steps generalizing s with
  | nil => simp [told]
  | cons first rest ih =>
    rw [told_cons, List.mem_append, ih, Option.mem_toList]
    constructor
    · rintro (now | ⟨place, step, present, later⟩)
      · exact ⟨0, first, rfl, now⟩
      · exact ⟨place + 1, step, present, later⟩
    · rintro ⟨place, step, present, found⟩
      cases place with
      | zero =>
        cases present
        exact .inl found
      | succ place => exact .inr ⟨place, step, present, found⟩

/-- If the mismatch of a step has the number of the step, then numbers increase along a run. -/
theorem told_pairwise (s : State) (steps : List Step) (offset : Int)
    (numbered : ∀ (place : Nat) (step : Step) (m : Mismatch), steps[place]? = some step →
      (s.after (steps.take place)).found? step = some m → m.line = offset + place + 1) :
    (told s steps).Pairwise fun a b => a.line < b.line := by
  induction steps generalizing s offset with
  | nil => exact .nil
  | cons first rest ih =>
    have later : ∀ (place : Nat) (step : Step) (m : Mismatch), rest[place]? = some step →
        ((s.step first).after (rest.take place)).found? step = some m →
        m.line = offset + 1 + place + 1 := by
      intro place step m present found
      have number := numbered (place + 1) step m present found
      push_cast at number
      omega
    rw [told_cons]
    cases now : s.found? first with
    | none => exact ih (s.step first) (offset + 1) later
    | some m =>
      refine .cons ?_ (ih (s.step first) (offset + 1) later)
      intro other membership
      obtain ⟨place, step, present, found⟩ := (mem_told_iff _ _ _).mp membership
      have number := numbered 0 first m rfl now
      have otherNumber := later place step other present found
      simp only [Int.natCast_zero] at number
      omega

/-- The line at a place is found to be at fault exactly as `Fault` says. -/
theorem found?_visits_iff {source : Text} {place : Nat} {step : Step} {m : Mismatch}
    (visited : (visits source)[place]? = some step) :
    (State.start.after ((visits source).take place)).found? step = some m ↔
      Fault source place m := by
  have active : ∀ f, (State.start.after ((visits source).take place)).active = some f ↔
      OpenBefore source place f := fun f =>
    (after_active_iff _ f).trans (openIn_take_visits_iff source place f)
  rw [visits_getElem?] at visited
  obtain ⟨t, present, rfl⟩ := Option.map_eq_some_iff.mp visited
  have record : recordAt? source place = Line.classify (place + 1) t := by
    rw [recordAt?, present, Option.bind_some]
  cases classified : Line.classify (place + 1) t with
  | none =>
    rw [classified] at record
    refine iff_of_false (by simp [State.found?]) ?_
    rintro (found | found) <;> simp [record] at found
  | some node =>
    rw [classified] at record
    cases node with
    | declaration d =>
      have number : d.line = place + 1 := by cases Line.describes_of_classify classified; rfl
      simp only [State.found?, mismatch?, Declaration.mismatch?_eq_some_iff, number]
      constructor
      · rintro ⟨excluded, rfl⟩
        exact .assigned record excluded
      · rintro (found | found) <;> simp only [record, Option.some.injEq, reduceCtorEq,
          LineRecord.declaration.injEq] at found
        subst found
        exact ⟨by assumption, rfl⟩
    | returns value line =>
      have number : line = place + 1 := by cases Line.describes_of_classify classified; rfl
      simp only [State.found?, mismatch?, Option.bind_eq_some_iff, active,
        Header.mismatch?_eq_some_iff, number]
      constructor
      · rintro ⟨f, isOpen, union, declared, filled, excluded, rfl⟩
        exact .returned record filled isOpen declared excluded
      · intro fault
        cases fault with
        | assigned found => simp [record] at found
        | returned found filled isOpen declared excluded =>
          simp only [record, Option.some.injEq, LineRecord.returns.injEq] at found
          obtain ⟨rfl, -⟩ := found
          exact ⟨_, isOpen, _, declared, filled, excluded, rfl⟩
    | header f =>
      refine iff_of_false (by simp [State.found?, mismatch?]) ?_
      rintro (found | found) <;> simp [record] at found
    | close line =>
      refine iff_of_false (by simp [State.found?, mismatch?]) ?_
      rintro (found | found) <;> simp [record] at found

theorem Fault.exists_visit {source : Text} {place : Nat} {m : Mismatch}
    (fault : Fault source place m) : ∃ step, (visits source)[place]? = some step := by
  cases fault with
  | assigned found => exact ⟨_, exists_visit_of_recordAt? found⟩
  | returned found => exact ⟨_, exists_visit_of_recordAt? found⟩

theorem mem_announced_iff (source : Text) (m : Mismatch) :
    m ∈ announced source ↔ ∃ place, Fault source place m := by
  rw [announced, mem_told_iff]
  constructor
  · rintro ⟨place, step, visited, found⟩
    exact ⟨place, (found?_visits_iff visited).mp found⟩
  · rintro ⟨place, fault⟩
    obtain ⟨step, visited⟩ := fault.exists_visit
    exact ⟨place, step, visited, (found?_visits_iff visited).mpr fault⟩

theorem announced_pairwise (source : Text) :
    (announced source).Pairwise fun a b => a.line < b.line := by
  apply told_pairwise State.start (visits source) 0
  intro place step m visited found
  rw [((found?_visits_iff visited).mp found).line_eq]
  omega

/-- A check lists the faults of the lines, one at most for a line and in the order of the lines. A
listener is told the same list, and the check is good exactly if no line is at fault. -/
theorem check_lists_faults (source : Text) :
    (∀ m, m ∈ (check source).mismatches ↔ ∃ place, Fault source place m) ∧
      (check source).mismatches.Pairwise (fun a b => a.line < b.line) ∧
      announced source = (check source).mismatches ∧
      ((check source).ok = true ↔ (check source).mismatches = []) := by
  rw [check_mismatches]
  refine ⟨mem_announced_iff source, announced_pairwise source, rfl, ?_⟩
  rw [Report.ok, check_mismatches, List.isEmpty_iff]

end Check
end TypedScript
