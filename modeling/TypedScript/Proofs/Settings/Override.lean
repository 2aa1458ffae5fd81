import TypedScript.Literal.Reading
import TypedScript.Proofs.Value.Descent
import TypedScript.Settings.Override

set_option autoImplicit false

/-!
What overrides do to the mapping that they build, whatever reader there is for
their values. An override puts its value at its path; it is refused exactly if
something that is no mapping is in the way, and it changes nothing but what is on
its path or behind it.
-/

namespace TypedScript

open Entries

theorem Text.cut?_append {separator : Char} {before : Text} (free : separator ∉ before)
    (after : Text) : cut? separator (before ++ separator :: after) = some (before, after) := by
  induction before with
  | nil => simp [cut?]
  | cons c rest ih =>
    have differs : c ≠ separator := fun same => free (by simp [same])
    have others : separator ∉ rest := fun inside => free (List.mem_cons_of_mem c inside)
    simp [cut?, differs, ih others]

namespace Override

open Value

theorem assign_eq_none_iff (value : Value) (path : List String) (entries : Entries) :
    assign value path entries = none ↔ (Value.dict entries).Blocks (path.map .str) := by
  fun_induction assign value path entries with
  | case1 entries =>
    have clear : ¬ (Value.dict entries).Blocks [] := fun ⟨_, filled, leads, _⟩ =>
      filled (List.prefix_nil.mp leads)
    simpa using clear
  | case2 name entries => simp [blocks_cons_iff]
  | case3 name next rest entries missing ih =>
    have made : assign value (next :: rest) [] ≠ none := mt ih.mp (not_blocks_nil _)
    simp [blocks_cons_iff, missing, made]
  | case4 name next rest entries inner held ih =>
    have mapping : (Value.dict inner).IsMapping := ⟨inner, rfl⟩
    have behind := blocks_cons_iff entries (.str name) ((next :: rest).map .str)
    rw [Option.map_eq_none_iff, ih]
    refine Iff.trans ?_ behind.symm
    simp [held, mapping]
  | case5 name next rest entries other notDict held =>
    have blocks : ¬ other.IsMapping := fun ⟨inner, same⟩ => notDict inner same
    simp [blocks_cons_iff, held, blocks]

theorem assigned_of_assign {value : Value} {path : List String} {entries after : Entries}
    (named : path ≠ []) (done : assign value path entries = some after) :
    Assigned (.dict entries) (.dict after) (path.map .str) value := by
  fun_induction assign value path entries generalizing after with
  | case1 entries => contradiction
  | case2 name entries =>
    obtain rfl := Option.some.inj done
    exact .single name value entries
  | case3 name next rest entries missing ih =>
    obtain ⟨inner, made, rfl⟩ := Option.map_eq_some_iff.mp done
    exact .cons (by simp [missing]) (ih (by simp) made)
  | case4 name next rest entries inner held ih =>
    obtain ⟨changed, made, rfl⟩ := Option.map_eq_some_iff.mp done
    exact .cons (by simp [held]) (ih (by simp) made)
  | case5 name next rest entries other notDict held => contradiction

variable {literal : ValueReader}

/-- An item assigns its value at its path. -/
theorem apply_item (entries : Entries) {key text : Text} {value : Value} (free : '=' ∉ key)
    (named : path key ≠ []) (coerced : coerce literal text = .ok value) :
    apply literal entries (key ++ '=' :: text) = match assign value (path key) entries with
      | some after => .ok after
      | none => .error (.conflict key) := by
  have filled : (path key).isEmpty = false := by simpa using named
  rw [apply, Text.cut?_append free]
  simp only [filled, coerced]
  rfl

/-- One more item is assigned behind the others. -/
theorem read_concat {items : List Text} {entries : Entries} (accepted : read literal items = .ok entries)
    {key text : Text} {value : Value} (free : '=' ∉ key) (named : path key ≠ [])
    (coerced : coerce literal text = .ok value) :
    read literal (items ++ [key ++ '=' :: text]) = match assign value (path key) entries with
      | some after => .ok after
      | none => .error (.conflict key) := by
  rw [read] at accepted ⊢
  rw [List.foldlM_append, accepted, ← apply_item entries free named coerced]
  exact bind_pure (apply literal entries (key ++ '=' :: text))

/-- An override that follows others is refused as a conflict exactly if something that is no
mapping is on its path, before the end. Otherwise its value is found at the path, mappings lead to
it, and everything is as before that is neither on the path nor behind it. -/
theorem read_assigns {items : List Text} {entries : Entries} (accepted : read literal items = .ok entries)
    (key text : Text) {value : Value} (free : '=' ∉ key) (named : path key ≠ [])
    (coerced : coerce literal text = .ok value) :
    let names := (path key).map Value.str
    let further := items ++ [key ++ '=' :: text]
    (read literal further = .error (.conflict key) ↔ (Value.dict entries).Blocks names) ∧
      (¬ (Value.dict entries).Blocks names → ∃ after, read literal further = .ok after ∧
        Assigned (.dict entries) (.dict after) names value) := by
  intro names further
  have step : read literal further = _ := read_concat accepted free named coerced
  have refused := assign_eq_none_iff value (path key) entries
  cases assigned : assign value (path key) entries with
  | none =>
    have blocks := refused.mp assigned
    simp [step, assigned, names, blocks]
  | some after =>
    have clear : ¬ (Value.dict entries).Blocks names := fun blocks => by
      simp [refused.mpr blocks] at assigned
    refine ⟨by simp [step, assigned, clear], fun _ => ⟨after, by simp [step, assigned], ?_⟩⟩
    exact assigned_of_assign named assigned

/-- The mapping of a literal is entered, and keeps what it has under a number. -/
theorem read_assigns_within_literal :
    ∃ after, read Literal.reader ["run=\x7b1: 2\x7d".toList, "run..env.A=3".toList] = .ok after ∧
      (Value.dict after).at? [.str "run", .str "env", .str "A"] = some (.int 3) ∧
      (Value.dict after).at? [.str "run", .int 1] = some (.int 2) := by
  have literal : coerce Literal.reader "\x7b1: 2\x7d".toList = .ok (.dict [(.int 1, .int 2)]) := rfl
  have accepted := read_concat (show read Literal.reader [] = .ok [] from rfl)
    (show '=' ∉ "run".toList by decide) (by decide +kernel) literal
  have coerced : coerce Literal.reader "3".toList = .ok (.int 3) := rfl
  have names : path "run..env.A".toList = ["run", "env", "A"] := by decide +kernel
  have assigns := (read_assigns accepted "run..env.A".toList "3".toList (by decide)
    (by decide +kernel) coerced).2
  have missing : find? (.str "env") [(.int 1, .int 2)] = none := rfl
  have clear : ¬ (Value.dict [(.str "run", .dict [(.int 1, .int 2)])]).Blocks
      [.str "run", .str "env", .str "A"] := by
    simp [blocks_cons_iff, find?_cons_self, missing, IsMapping]
  rw [names] at assigns
  obtain ⟨after, done, assigned⟩ := assigns clear
  refine ⟨after, done, assigned.bound, ?_⟩
  exact assigned.others [.str "run", .int 1] (by simp) (by simp)

end Override
end TypedScript
