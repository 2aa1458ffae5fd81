import TypedScript.Lowering.Rule

set_option autoImplicit false

/-!
Rules on any text. `Rewrites` says what a walk over a text copies and what it
replaces; a rule applied to a text gives the one text that it rewrites to.
-/

namespace TypedScript.Lowering

/-- The character in front of what follows a text. -/
def edge (before : Option Char) (t : Text) : Option Char := t.getLast?.or before

@[simp] theorem edge_nil (before : Option Char) : edge before [] = before := rfl

@[simp] theorem edge_cons (before : Option Char) (c : Char) (t : Text) :
    edge before (c :: t) = edge (some c) t := by
  simp only [edge, List.getLast?_cons]
  cases t.getLast? <;> rfl

theorem edge_append (before : Option Char) (x y : Text) :
    edge before (x ++ y) = edge (edge before x) y := by
  induction x generalizing before with
  | nil => rfl
  | cons c x ih => simp [ih]

theorem edge_concat (before : Option Char) (x : Text) (c : Char) :
    edge before (x ++ [c]) = some c := by
  rw [edge_append, edge_cons, edge_nil]

theorem edge_of_ne_nil (before : Option Char) {t : Text} (filled : t ≠ []) :
    edge before t = t.getLast? := by
  cases t with
  | nil => exact absurd rfl filled
  | cons c t => simp [edge, List.getLast?_cons]

namespace Rule

variable {r : Rule}

/-- A match takes a character at least, and lies in the text. -/
def Bounded (r : Rule) : Prop :=
  ∀ before t n, r.matched? before t = some n → 0 < n ∧ n ≤ t.length

/-- What a walk over a text makes of it, where `before` is the character in front of the text. -/
inductive Rewrites (r : Rule) : Option Char → Text → Text → Prop
  | nil {before : Option Char} : Rewrites r before [] []
  | copy {before : Option Char} {c : Char} {rest out : Text} :
      r.matched? before (c :: rest) = none → Rewrites r (some c) rest out →
      Rewrites r before (c :: rest) (c :: out)
  | replace {before : Option Char} {first rest out : Text} :
      first ≠ [] → r.matched? before (first ++ rest) = some first.length →
      Rewrites r (edge before first) rest out →
      Rewrites r before (first ++ rest) (r.replacement ++ out)

theorem applyFrom_nil (before : Option Char) : r.applyFrom before [] = [] := by rw [applyFrom]

theorem apply_nil : r.apply [] = [] := applyFrom_nil none

theorem applyFrom_copy {before : Option Char} {c : Char} {rest : Text}
    (unmatched : r.matched? before (c :: rest) = none) :
    r.applyFrom before (c :: rest) = c :: r.applyFrom (some c) rest := by
  rw [applyFrom]
  split
  next => rfl
  next n found => simp [unmatched] at found

theorem applyFrom_replace {before : Option Char} {first rest : Text} (filled : first ≠ [])
    (found : r.matched? before (first ++ rest) = some first.length) :
    r.applyFrom before (first ++ rest) =
      r.replacement ++ r.applyFrom (edge before first) rest := by
  cases first with
  | nil => exact absurd rfl filled
  | cons c first =>
    rw [List.cons_append] at found ⊢
    rw [applyFrom]
    split
    next unmatched => simp [unmatched] at found
    next n matched =>
      obtain rfl : n = (c :: first).length := Option.some.inj (matched.symm.trans found)
      rw [edge_of_ne_nil before (List.cons_ne_nil c first), ← List.cons_append, List.take_left]
      simp

theorem Rewrites.applyFrom_eq {before : Option Char} {t out : Text} (walk : Rewrites r before t out) :
    r.applyFrom before t = out := by
  induction walk with
  | nil => exact applyFrom_nil _
  | copy unmatched _ ih => rw [applyFrom_copy unmatched, ih]
  | replace filled found _ ih => rw [applyFrom_replace filled found, ih]

theorem rewrites_applyFrom (bounded : r.Bounded) (before : Option Char) (t : Text) :
    Rewrites r before t (r.applyFrom before t) := by
  induction size : t.length using Nat.strongRecOn generalizing before t with
  | ind bound ih =>
    cases t with
    | nil =>
      rw [applyFrom_nil]
      exact .nil
    | cons c rest =>
      cases found : r.matched? before (c :: rest) with
      | none =>
        rw [applyFrom_copy found]
        exact .copy found (ih rest.length (by simp [← size]) _ rest rfl)
      | some n =>
        obtain ⟨positive, inside⟩ := bounded before _ n found
        have split : c :: rest = (c :: rest).take n ++ (c :: rest).drop n :=
          (List.take_append_drop n _).symm
        have length : ((c :: rest).take n).length = n := by
          rw [List.length_take, Nat.min_eq_left inside]
        have filled : (c :: rest).take n ≠ [] := by
          intro empty
          rw [empty] at length
          exact absurd length (by simp; omega)
        have matched : r.matched? before ((c :: rest).take n ++ (c :: rest).drop n) =
            some ((c :: rest).take n).length := by rw [← split, length, found]
        rw [split, applyFrom_replace filled matched]
        refine .replace filled matched (ih _ ?_ _ _ rfl)
        rw [← size, List.length_drop]
        omega

/-- A walk copies what it finds no match in, with all that is ahead in sight. -/
theorem applyFrom_append_of_unmatched (before : Option Char) {x : Text} (y : Text)
    (unmatched : ∀ p q, x = p ++ q → q ≠ [] → r.matched? (edge before p) (q ++ y) = none) :
    r.applyFrom before (x ++ y) = x ++ r.applyFrom (edge before x) y := by
  induction x generalizing before with
  | nil => rfl
  | cons c x ih =>
    have here : r.matched? before (c :: (x ++ y)) = none :=
      unmatched [] (c :: x) rfl (List.cons_ne_nil c x)
    rw [List.cons_append, applyFrom_copy here, ih, edge_cons, List.cons_append]
    intro p q split filled
    have later := unmatched (c :: p) q (by rw [split, List.cons_append]) filled
    rwa [edge_cons] at later

/-- No match anywhere in a text. -/
def Quiet (r : Rule) (before : Option Char) (t : Text) : Prop :=
  ∀ p q, t = p ++ q → q ≠ [] → r.matched? (edge before p) q = none

theorem applyFrom_of_quiet {before : Option Char} {t : Text} (quiet : r.Quiet before t) :
    r.applyFrom before t = t := by
  have copied := applyFrom_append_of_unmatched (r := r) before (x := t) [] (by
    intro p q split filled
    rw [List.append_nil]
    exact quiet p q split filled)
  rwa [List.append_nil, applyFrom_nil, List.append_nil] at copied

theorem quiet_cons_iff {before : Option Char} {c : Char} {rest : Text} :
    r.Quiet before (c :: rest) ↔ r.matched? before (c :: rest) = none ∧ r.Quiet (some c) rest := by
  constructor
  · intro quiet
    refine ⟨quiet [] _ rfl (List.cons_ne_nil c rest), ?_⟩
    intro p q split filled
    have later := quiet (c :: p) q (by rw [split, List.cons_append]) filled
    rwa [edge_cons] at later
  · rintro ⟨here, later⟩ p q split filled
    cases p with
    | nil =>
      rw [List.nil_append] at split
      rw [← split]
      exact here
    | cons d p =>
      obtain ⟨rfl, rfl⟩ := List.cons.inj split
      rw [edge_cons]
      exact later p q rfl filled

theorem quiet_append {before : Option Char} {x y : Text}
    (unmatched : ∀ p q, x = p ++ q → q ≠ [] → r.matched? (edge before p) (q ++ y) = none)
    (quiet : r.Quiet (edge before x) y) : r.Quiet before (x ++ y) := by
  induction x generalizing before with
  | nil => exact quiet
  | cons c x ih =>
    rw [edge_cons] at quiet
    refine quiet_cons_iff.mpr ⟨unmatched [] (c :: x) rfl (List.cons_ne_nil c x), ih ?_ quiet⟩
    intro p q split filled
    have later := unmatched (c :: p) q (by rw [split, List.cons_append]) filled
    rwa [edge_cons] at later

theorem Rewrites.mem {before : Option Char} {t out : Text} (walk : Rewrites r before t out) {c : Char}
    (membership : c ∈ out) : c ∈ t ∨ c ∈ r.replacement := by
  induction walk with
  | nil => simp at membership
  | copy _ _ ih =>
    rcases List.mem_cons.mp membership with rfl | later
    · exact .inl (by simp)
    · exact (ih later).imp_left (List.mem_cons_of_mem _)
  | replace _ _ _ ih =>
    rcases List.mem_append.mp membership with written | later
    · exact .inr written
    · exact (ih later).imp_left (List.mem_append_right _)

theorem mem_of_mem_apply (bounded : r.Bounded) {c : Char} (fresh : c ∉ r.replacement) {t : Text}
    (membership : c ∈ r.apply t) : c ∈ t :=
  ((rewrites_applyFrom bounded none t).mem membership).resolve_right fresh

/-- A character at which a walk may be cut: no match begins at it, none before it looks past it,
and behind it matches are found as at the beginning of a text. -/
structure Blocks (r : Rule) (c : Char) : Prop where
  here : ∀ before rest, r.matched? before (c :: rest) = none
  ahead : ∀ before x rest, x ≠ [] → r.matched? before (x ++ c :: rest) = r.matched? before x
  behind : ∀ t, r.matched? (some c) t = r.matched? none t

theorem applyFrom_congr {before other : Option Char} {t : Text}
    (same : r.matched? before t = r.matched? other t) :
    r.applyFrom before t = r.applyFrom other t := by
  cases t with
  | nil => rw [applyFrom_nil, applyFrom_nil]
  | cons c rest => rw [applyFrom, applyFrom, same]

/-- A walk may be cut at a character if no match begins there, the matches behind it are those at
the beginning of a text, and those before it are found without looking past it. -/
theorem applyFrom_append_cons (bounded : r.Bounded) {before : Option Char} {c : Char} {x y : Text}
    (here : ∀ before, r.matched? before (c :: y) = none)
    (behind : r.matched? (some c) y = r.matched? none y)
    (ahead : ∀ p q, x = p ++ q → q ≠ [] →
      r.matched? (edge before p) (q ++ c :: y) = r.matched? (edge before p) q) :
    r.applyFrom before (x ++ c :: y) = r.applyFrom before x ++ c :: r.apply y := by
  have walk := rewrites_applyFrom bounded before x
  generalize r.applyFrom before x = out at walk ⊢
  induction walk with
  | nil =>
    rw [List.nil_append, applyFrom_copy (here _), applyFrom_congr behind]
    rfl
  | @copy before d rest out unmatched _ ih =>
    have still : r.matched? before (d :: rest ++ c :: y) = none :=
      (ahead [] (d :: rest) rfl (List.cons_ne_nil d rest)).trans unmatched
    rw [List.cons_append] at still ⊢
    rw [applyFrom_copy still, ih, List.cons_append]
    intro p q split filled
    have later := ahead (d :: p) q (by rw [split, List.cons_append]) filled
    rwa [edge_cons] at later
  | @replace before first rest out filled found _ ih =>
    have still : r.matched? before (first ++ rest ++ c :: y) = some first.length :=
      (ahead [] (first ++ rest) rfl (by simp [filled])).trans found
    rw [List.append_assoc] at still ⊢
    rw [applyFrom_replace filled still, ih, List.append_assoc]
    intro p q split present
    have later := ahead (first ++ p) q (by rw [split, List.append_assoc]) present
    rwa [edge_append] at later

/-- The parts of a text on both sides of a blocking character are rewritten on their own. -/
theorem apply_append_of_blocks (bounded : r.Bounded) {c : Char} (blocks : r.Blocks c) (x y : Text) :
    r.apply (x ++ c :: y) = r.apply x ++ c :: r.apply y := by
  apply applyFrom_append_cons bounded
  · exact fun before => blocks.here before y
  · exact blocks.behind y
  · exact fun p q _ filled => blocks.ahead (edge none p) q y filled

/-- A walk keeps the characters of a class that it neither takes away nor writes. -/
theorem Rewrites.filter_eq {P : Char → Bool} (fresh : ∀ c ∈ r.replacement, P c = false)
    (taken : ∀ before first rest, r.matched? before (first ++ rest) = some first.length →
      ∀ c ∈ first, P c = false)
    {before : Option Char} {t out : Text} (walk : Rewrites r before t out) :
    out.filter P = t.filter P := by
  have none : ∀ {w : Text}, (∀ c ∈ w, P c = false) → w.filter P = [] := fun foreign =>
    List.filter_eq_nil_iff.mpr fun c membership => by simp [foreign c membership]
  induction walk with
  | nil => rfl
  | copy _ _ ih => rw [List.filter_cons, List.filter_cons, ih]
  | replace _ found _ ih =>
    rw [List.filter_append, List.filter_append, none fresh, none (taken _ _ _ found), ih]

end Rule
end TypedScript.Lowering
