import TypedScript.Proofs.Outcome
import TypedScript.Proofs.Settings.Override
import TypedScript.Proofs.Value.Reordering

set_option autoImplicit false

/-!
Overrides whose paths do not lie on each other's way. None of them is refused,
each value is found where its item put it, and the order of the items is seen in
the order of the entries alone.
-/

namespace TypedScript

open Entries

/-- Neither of two paths leads to the other one. -/
def Apart {α : Type} (p q : List α) : Prop := ¬ p <+: q ∧ ¬ q <+: p

instance {α : Type} [DecidableEq α] (p q : List α) : Decidable (Apart p q) :=
  inferInstanceAs (Decidable (_ ∧ _))

theorem Apart.symm {α : Type} {p q : List α} (apart : Apart p q) : Apart q p := ⟨apart.2, apart.1⟩

theorem apart_cons {α : Type} {key : α} {p q : List α} : Apart (key :: p) (key :: q) ↔ Apart p q := by
  simp [Apart]

theorem Apart.ne_nil {α : Type} {p q : List α} (apart : Apart p q) : p ≠ [] := by
  rintro rfl
  exact apart.1 (List.nil_prefix)

theorem Apart.map_str {p q : List String} (apart : Apart p q) :
    Apart (p.map Value.str) (q.map Value.str) := by
  have injective : Function.Injective Value.str := fun _ _ same => Value.str.inj same
  exact ⟨mt (List.prefix_map_iff_of_injective injective).mp apart.1,
    mt (List.prefix_map_iff_of_injective injective).mp apart.2⟩

/-- An assignment does not get into the way of a path apart from its own. -/
theorem Value.Assigned.not_blocks {before after value : Value} {path other : List Value}
    (assigned : Assigned before after path value) (apart : Apart path other)
    (clear : ¬ before.Blocks other) : ¬ after.Blocks other := by
  rintro ⟨front, filled, leads, proper, found, reached, plain⟩
  by_cases above : front <+: path
  · have differs : front ≠ path := by
      rintro rfl
      exact apart.1 leads
    obtain ⟨mapping, same, isMapping⟩ := assigned.above front above differs
    rw [reached] at same
    cases same
    exact plain isMapping
  · have beside : ¬ path <+: front := fun below => apart.1 (below.trans leads)
    rw [assigned.others front above beside] at reached
    exact clear ⟨front, filled, leads, proper, found, reached, plain⟩

theorem rel_map {α β γ δ : Type} {r : α → β → Prop} {r' : γ → δ → Prop} {f : α → γ} {g : β → δ}
    {x : Option α} {y : Option β} (related : Option.Rel r x y) (maps : ∀ a b, r a b → r' (f a) (g b)) :
    Option.Rel r' (x.map f) (y.map g) := by
  cases related with
  | none => exact .none
  | some here => exact .some (maps _ _ here)

namespace Override

/-- What the first name of a path holds after an assignment, given what it held before. -/
def renewed (value : Value) (rest : List String) (old : Option Value) : Option Value :=
  if rest = [] then some value
  else match old.getD (.dict []) with
    | .dict inner => (assign value rest inner).map .dict
    | _ => none

theorem assign_cons (value : Value) (name : String) (rest : List String) (entries : Entries) :
    assign value (name :: rest) entries =
      (renewed value rest (find? (.str name) entries)).map fun new =>
        insert (.str name) new entries := by
  cases rest with
  | nil => simp [assign, renewed]
  | cons next rest =>
    rw [assign]
    simp only [renewed]
    cases find? (.str name) entries with
    | none => simp [Function.comp_def]
    | some held => cases held <;> simp [Function.comp_def]

theorem renewed_eq_some_iff {value new : Value} {rest : List String} {old : Option Value}
    (more : rest ≠ []) :
    renewed value rest old = some new ↔ ∃ inner after, old.getD (.dict []) = .dict inner ∧
      assign value rest inner = some after ∧ new = .dict after := by
  rw [renewed, if_neg more]
  constructor
  · intro done
    split at done
    next inner held =>
      obtain ⟨after, assigned, rfl⟩ := Option.map_eq_some_iff.mp done
      exact ⟨inner, after, held, assigned, rfl⟩
    next => contradiction
  · rintro ⟨inner, after, held, assigned, rfl⟩
    simp [held, assigned]

theorem renewed_alike {value : Value} {rest : List String} {old other : Option Value}
    (related : Option.Rel Value.Alike old other)
    (inside : ∀ i j, Reordered i j → Option.Rel Reordered (assign value rest i) (assign value rest j)) :
    Option.Rel Value.Alike (renewed value rest old) (renewed value rest other) := by
  have alike : (old.getD (.dict [])).Alike (other.getD (.dict [])) := by
    cases related with
    | none => exact .same _
    | some alike => exact alike
  simp only [renewed]
  split
  · exact .some (.same value)
  · generalize old.getD (.dict []) = first at alike
    generalize other.getD (.dict []) = second at alike
    cases alike with
    | dict reordered => exact rel_map (inside _ _ reordered) fun _ _ => .dict
    | same => cases first with
      | dict inner => exact rel_map (inside inner inner (.refl inner)) fun _ _ => .dict
      | _ => exact .none

theorem assign_reordered (value : Value) (path : List String) {a b : Entries}
    (reordered : Reordered a b) :
    Option.Rel Reordered (assign value path a) (assign value path b) := by
  induction path generalizing a b with
  | nil => exact .some reordered
  | cons name rest ih =>
    rw [assign_cons, assign_cons]
    exact rel_map (renewed_alike (reordered.find? name) fun _ _ => ih) fun _ _ =>
      reordered.insert name

/-- Two assignments at paths apart from each other change places. -/
theorem assign_comm {v w : Value} {p q : List String} (apart : Apart p q) {a b c : Entries}
    (first : assign v p a = some b) (second : assign w q b = some c) :
    ∃ d e, assign w q a = some d ∧ assign v p d = some e ∧ Reordered c e := by
  induction p generalizing q a b c with
  | nil => exact absurd rfl apart.ne_nil
  | cons name p ih =>
    obtain ⟨other, q, rfl⟩ := List.exists_cons_of_ne_nil apart.symm.ne_nil
    rw [assign_cons] at first second
    obtain ⟨x, renews, rfl⟩ := Option.map_eq_some_iff.mp first
    obtain ⟨y, renewsOther, rfl⟩ := Option.map_eq_some_iff.mp second
    by_cases same : name = other
    · subst same
      have inside := apart_cons.mp apart
      rw [find?_insert_self] at renewsOther
      obtain ⟨inner, after, held, assigned, rfl⟩ := (renewed_eq_some_iff inside.ne_nil).mp renews
      obtain ⟨middle, last, same, assignedOther, rfl⟩ :=
        (renewed_eq_some_iff inside.symm.ne_nil).mp renewsOther
      obtain rfl : after = middle := Value.dict.inj same
      obtain ⟨between, final, other, back, reordered⟩ := ih inside assigned assignedOther
      have begins := (renewed_eq_some_iff inside.symm.ne_nil).mpr ⟨inner, between, held, other, rfl⟩
      have ends : renewed v p (some (.dict between)) = some (.dict final) :=
        (renewed_eq_some_iff inside.ne_nil).mpr ⟨between, final, rfl, back, rfl⟩
      refine ⟨_, _, by rw [assign_cons, begins, Option.map_some],
        by rw [assign_cons, find?_insert_self, ends, Option.map_some], ?_⟩
      rw [insert_insert, insert_insert]
      exact insert_alike name (.dict reordered) a
    · have differs : Value.str name ≠ .str other := fun equal => same (Value.str.inj equal)
      rw [find?_insert_of_ne differs] at renewsOther
      refine ⟨insert (.str other) y a, insert (.str name) x (insert (.str other) y a), ?_, ?_, ?_⟩
      · rw [assign_cons, renewsOther, Option.map_some]
      · rw [assign_cons, find?_insert_of_ne differs.symm, renews, Option.map_some]
      · exact insert_comm (Ne.symm same) y x a

/-- An item that can be read on its own, to the given value. -/
def Reads (literal : ValueReader) (item : Text) (value : Value) : Prop :=
  ∃ key text, item = key ++ '=' :: text ∧ '=' ∉ key ∧ path key ≠ [] ∧
    coerce literal text = .ok value

/-- The path that an item names, in front of its first equals sign. -/
def names (item : Text) : List String := path (item.takeWhile (· != '='))

theorem names_item {key : Text} (text : Text) (free : '=' ∉ key) :
    names (key ++ '=' :: text) = path key := by
  have before : ∀ c ∈ key, (c != '=') = true := by
    intro c membership
    simpa using fun same : c = '=' => free (same ▸ membership)
  rw [names, List.takeWhile_append_of_pos before]
  simp

variable {literal : ValueReader}

theorem Reads.names_ne_nil {item : Text} {value : Value} (reads : Reads literal item value) :
    names item ≠ [] := by
  obtain ⟨key, text, rfl, free, named, -⟩ := reads
  rwa [names_item text free]

theorem Reads.apply_eq_ok_iff {item : Text} {value : Value} (reads : Reads literal item value)
    {entries after : Entries} :
    apply literal entries item = .ok after ↔ assign value (names item) entries = some after := by
  obtain ⟨key, text, rfl, free, named, coerced⟩ := reads
  rw [names_item text free, apply_item entries free named coerced]
  cases assign value (path key) entries <;> simp

theorem foldlM_cons_eq_ok_iff {item : Text} {rest : List Text} {start after : Entries} :
    (item :: rest).foldlM (apply literal) start = .ok after ↔
      ∃ next, apply literal start item = .ok next ∧ rest.foldlM (apply literal) next = .ok after := by
  rw [List.foldlM_cons]
  constructor
  · exact exists_ok_of_bind
  · rintro ⟨next, applied, done⟩
    rw [applied]
    exact done

theorem apply_reordered {item : Text} {value : Value} (reads : Reads literal item value)
    {a b after : Entries} (reordered : Reordered a b) (done : apply literal a item = .ok after) :
    ∃ other, apply literal b item = .ok other ∧ Reordered after other := by
  have related := assign_reordered value (names item) reordered
  rw [reads.apply_eq_ok_iff.mp done] at related
  generalize found : assign value (names item) b = outcome at related
  cases related with
  | some alike => exact ⟨_, reads.apply_eq_ok_iff.mpr found, alike⟩

theorem apply_comm {item next : Text} {v w : Value} (reads : Reads literal item v)
    (nextReads : Reads literal next w) (apart : Apart (names item) (names next)) {a b c : Entries}
    (first : apply literal a item = .ok b) (second : apply literal b next = .ok c) :
    ∃ d e, apply literal a next = .ok d ∧ apply literal d item = .ok e ∧ Reordered c e := by
  obtain ⟨d, e, begins, ends, reordered⟩ := assign_comm apart (reads.apply_eq_ok_iff.mp first)
    (nextReads.apply_eq_ok_iff.mp second)
  exact ⟨d, e, nextReads.apply_eq_ok_iff.mpr begins, reads.apply_eq_ok_iff.mpr ends, reordered⟩

theorem foldlM_reordered {items : List Text}
    (formed : ∀ item ∈ items, ∃ value, Reads literal item value) {a b after : Entries}
    (reordered : Reordered a b) (done : items.foldlM (apply literal) a = .ok after) :
    ∃ other, items.foldlM (apply literal) b = .ok other ∧ Reordered after other := by
  induction items generalizing a b with
  | nil =>
    cases done
    exact ⟨b, rfl, reordered⟩
  | cons item rest ih =>
    obtain ⟨value, reads⟩ := formed item (by simp)
    obtain ⟨next, applied, done⟩ := foldlM_cons_eq_ok_iff.mp done
    obtain ⟨other, appliedOther, further⟩ := apply_reordered reads reordered applied
    obtain ⟨last, doneOther, alike⟩ := ih (fun item later => formed item (by simp [later])) further done
    exact ⟨last, foldlM_cons_eq_ok_iff.mpr ⟨other, appliedOther, doneOther⟩, alike⟩

/-- Items apart from each other can be read in any order if they can be read in one. The induction
is on the permutation, whose swaps are those of neighbouring items. -/
theorem foldlM_perm {items order : List Text} (permuted : items.Perm order)
    (formed : ∀ item ∈ items, ∃ value, Reads literal item value)
    (apart : items.Pairwise fun a b => Apart (names a) (names b)) {start after : Entries}
    (done : items.foldlM (apply literal) start = .ok after) :
    ∃ other, order.foldlM (apply literal) start = .ok other ∧ Reordered after other := by
  induction permuted generalizing start after with
  | nil => exact ⟨after, done, .refl after⟩
  | @cons item items order _ ih =>
    obtain ⟨next, applied, done⟩ := foldlM_cons_eq_ok_iff.mp done
    obtain ⟨other, doneOther, reordered⟩ :=
      ih (fun item later => formed item (by simp [later])) apart.of_cons done
    exact ⟨other, foldlM_cons_eq_ok_iff.mpr ⟨next, applied, doneOther⟩, reordered⟩
  | swap item first rest =>
    obtain ⟨value, reads⟩ := formed item (by simp)
    obtain ⟨firstValue, firstReads⟩ := formed first (by simp)
    have separate : Apart (names first) (names item) := List.rel_of_pairwise_cons apart (by simp)
    obtain ⟨b, applied, done⟩ := foldlM_cons_eq_ok_iff.mp done
    obtain ⟨c, appliedNext, done⟩ := foldlM_cons_eq_ok_iff.mp done
    obtain ⟨d, e, begins, ends, exchanged⟩ := apply_comm firstReads reads separate applied appliedNext
    obtain ⟨other, doneOther, reordered⟩ :=
      foldlM_reordered (fun item later => formed item (by simp [later])) exchanged done
    exact ⟨other, foldlM_cons_eq_ok_iff.mpr ⟨d, begins,
      foldlM_cons_eq_ok_iff.mpr ⟨e, ends, doneOther⟩⟩, reordered⟩
  | trans first _ ih further =>
    obtain ⟨middle, doneMiddle, reordered⟩ := ih formed apart done
    obtain ⟨other, doneOther, alike⟩ := further
      (fun item inside => formed item (first.mem_iff.mpr inside))
      ((first.pairwise_iff Apart.symm).mp apart) doneMiddle
    exact ⟨other, doneOther, reordered.trans alike⟩

/-- What items have put into entries: each its value at its path, and nothing where no item leads. -/
structure Holds (literal : ValueReader) (items : List Text) (before after : Entries) : Prop where
  bound : ∀ item ∈ items, ∀ value, Reads literal item value →
    (Value.dict after).at? ((names item).map .str) = some value
  others : ∀ path, (∀ item ∈ items, Apart ((names item).map .str) path) →
    (Value.dict after).at? path = (Value.dict before).at? path

theorem exists_foldlM {items : List Text}
    (formed : ∀ item ∈ items, ∃ value, Reads literal item value)
    (apart : items.Pairwise fun a b => Apart (names a) (names b)) {start : Entries}
    (clear : ∀ item ∈ items, ¬ (Value.dict start).Blocks ((names item).map .str)) :
    ∃ after, items.foldlM (apply literal) start = .ok after ∧ Holds literal items start after := by
  induction items generalizing start with
  | nil => exact ⟨start, rfl, by simp, fun _ _ => rfl⟩
  | cons item rest ih =>
    obtain ⟨value, reads⟩ := formed item (by simp)
    obtain ⟨separate, apart⟩ := List.pairwise_cons.mp apart
    have free := mt (assign_eq_none_iff value (names item) start).mp (clear item (by simp))
    obtain ⟨next, assigned⟩ := Option.ne_none_iff_exists'.mp free
    have applied := reads.apply_eq_ok_iff.mpr assigned
    have changes : ∀ value, Reads literal item value → Value.Assigned (.dict start) (.dict next)
        ((names item).map .str) value := fun value reads =>
      assigned_of_assign reads.names_ne_nil (reads.apply_eq_ok_iff.mp applied)
    obtain ⟨after, done, bound, others⟩ := ih (fun item later => formed item (by simp [later])) apart
      fun other later => (changes value reads).not_blocks (separate other later).map_str
        (clear other (by simp [later]))
    refine ⟨after, foldlM_cons_eq_ok_iff.mpr ⟨next, applied, done⟩, ?_, ?_⟩
    · intro other membership found readsOther
      rcases List.mem_cons.mp membership with rfl | later
      · rw [others _ fun other later => (separate other later).map_str.symm]
        exact (changes found readsOther).bound
      · exact bound other later found readsOther
    · intro path away
      obtain ⟨here, later⟩ := List.forall_mem_cons.mp away
      rw [others path later]
      exact (changes value reads).others path here.2 here.1

/-- Items that can be read, none of which names a path on the way to another one's, can be read
together in any order. Each value is found at its path and nothing where no item leads, and the
mappings that two orders build differ in the order of their entries alone. -/
theorem read_independent {items : List Text}
    (formed : ∀ item ∈ items, ∃ value, Reads literal item value)
    (apart : items.Pairwise fun a b => Apart (names a) (names b)) {order : List Text}
    (permuted : order.Perm items) :
    ∃ entries, read literal order = .ok entries ∧ Holds literal items [] entries ∧
      ∀ other, other.Perm items → ∃ rearranged, read literal other = .ok rearranged ∧
        Reordered entries rearranged := by
  have formedOrder : ∀ item ∈ order, ∃ value, Reads literal item value := fun item inside =>
    formed item (permuted.mem_iff.mp inside)
  have apartOrder : order.Pairwise fun a b => Apart (names a) (names b) :=
    (permuted.pairwise_iff Apart.symm).mpr apart
  obtain ⟨entries, done, holds⟩ := exists_foldlM formedOrder apartOrder fun item _ =>
    Value.not_blocks_nil ((names item).map .str)
  refine ⟨entries, done, ?_, ?_⟩
  · exact ⟨fun item inside => holds.bound item (permuted.mem_iff.mpr inside), fun path away =>
      holds.others path fun item inside => away item (permuted.mem_iff.mp inside)⟩
  · intro other otherPermuted
    exact foldlM_perm (permuted.trans otherPermuted.symm) formedOrder apartOrder done

/-- Two items share the mapping that the one in front makes. -/
theorem read_independent_shared :
    ∃ first second, read Literal.reader ["a.b=1".toList, "a..c.d=x".toList] = .ok first ∧
      read Literal.reader ["a..c.d=x".toList, "a.b=1".toList] = .ok second ∧ Reordered first second ∧
      (Value.dict first).at? [.str "a", .str "b"] = some (.int 1) := by
  have number : Reads Literal.reader "a.b=1".toList (.int 1) :=
    ⟨"a.b".toList, "1".toList, by decide, by decide, by decide +kernel, rfl⟩
  have word : Reads Literal.reader "a..c.d=x".toList (.str "x") :=
    ⟨"a..c.d".toList, "x".toList, by decide, by decide, by decide +kernel, rfl⟩
  have numberNames : names "a.b=1".toList = ["a", "b"] := by decide +kernel
  have wordNames : names "a..c.d=x".toList = ["a", "c", "d"] := by decide +kernel
  have formed : ∀ item ∈ ["a.b=1".toList, "a..c.d=x".toList], ∃ value, Reads Literal.reader item value :=
    List.forall_mem_cons.mpr ⟨⟨_, number⟩, List.forall_mem_singleton.mpr ⟨_, word⟩⟩
  have apart : ["a.b=1".toList, "a..c.d=x".toList].Pairwise fun a b => Apart (names a) (names b) := by
    refine List.pairwise_pair.mpr ?_
    rw [numberNames, wordNames]
    decide
  obtain ⟨first, done, holds, others⟩ := read_independent formed apart (.refl _)
  obtain ⟨second, doneSecond, reordered⟩ := others _ (.swap _ _ _)
  have bound := holds.bound _ (by simp) _ number
  rw [numberNames] at bound
  exact ⟨first, second, done, doneSecond, reordered, bound⟩

end Override
end TypedScript
