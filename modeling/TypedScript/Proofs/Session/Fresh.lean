import Mathlib.Data.List.Perm.Subperm
import Mathlib.Order.Bounds.Defs
import TypedScript.Proofs.Files.Path
import TypedScript.Proofs.Files.Tree
import TypedScript.Session.Script

set_option autoImplicit false

/-!
The names that are tried for a script. They stand in one directory and differ in
their stamps, so no two of them are at the same place, and since there are only
finitely many entries one of them is free. The search goes from stamp to stamp,
so it ends, and the first free one is what it gives.
-/

namespace TypedScript

/-- The decimal text of a natural number has nothing but digits in it. -/
theorem not_mem_repr {c : Char} (other : c.isDigit = false) (n : Nat) : c ∉ n.repr.toList := by
  intro membership
  rw [Nat.toList_repr] at membership
  have digit := Nat.isDigit_of_mem_toDigits (by decide) (by decide) membership
  exact absurd digit (by simp [other])

theorem repr_inj {m n : Nat} (same : m.repr.toList = n.repr.toList) : m = n := by
  rw [Nat.toList_repr, Nat.toList_repr] at same
  simpa using congrArg (Nat.ofDigitChars 10 · 0) same

theorem toList_toString_negSucc (n : Nat) :
    (toString (Int.negSucc n)).toList = '-' :: (n + 1).repr.toList := by
  change ("-" ++ (n + 1).repr).toList = _
  simp

theorem slash_not_mem_toString (n : Int) : '/' ∉ (toString n).toList := by
  cases n with
  | ofNat n => exact not_mem_repr rfl n
  | negSucc n =>
    rw [toList_toString_negSucc, List.mem_cons, not_or]
    exact ⟨by decide, not_mem_repr rfl (n + 1)⟩

/-- An integer is known by its decimal text. -/
theorem toString_inj {m n : Int} (same : (toString m).toList = (toString n).toList) : m = n := by
  cases m with
  | ofNat m =>
    cases n with
    | ofNat n => exact congrArg Int.ofNat (repr_inj same)
    | negSucc n =>
      rw [toList_toString_negSucc] at same
      exact absurd (same ▸ List.mem_cons_self) (not_mem_repr (c := '-') rfl m)
  | negSucc m =>
    cases n with
    | ofNat n =>
      rw [toList_toString_negSucc] at same
      exact absurd (same ▸ List.mem_cons_self) (not_mem_repr (c := '-') rfl n)
    | negSucc n =>
      rw [toList_toString_negSucc, toList_toString_negSucc] at same
      have equal := repr_inj (List.cons.inj same).2
      rw [Nat.succ.inj equal]

namespace Text

/-- What is put behind a text without a separator goes on its last piece. -/
theorem exists_pieces_append (separator : Char) (t : Text) :
    ∃ front last, ∀ x, separator ∉ x → pieces separator (t ++ x) = front ++ [last ++ x] := by
  induction t with
  | nil => exact ⟨[], [], fun x free => pieces_of_not_mem free⟩
  | cons c t ih =>
    obtain ⟨front, last, cut⟩ := ih
    by_cases same : c = separator
    · subst same
      exact ⟨[] :: front, last, fun x free => by simp [cut x free]⟩
    · cases front with
      | nil => exact ⟨[], c :: last, fun x free => by simp [pieces, same, cut x free]⟩
      | cons first front =>
        exact ⟨(c :: first) :: front, last, fun x free => by simp [pieces, same, cut x free]⟩

end Text

namespace Path

/-- The root of a path is read from the first characters of its text. -/
theorem rootOf_append {t x : Text} (free : '/' ∉ x) : rootOf (t ++ x) = rootOf t := by
  cases x with
  | nil => rw [List.append_nil]
  | cons c x =>
    have differs : c ≠ '/' := fun same => free (by simp [same])
    match t with
    | [] => simp [rootOf, differs]
    | [a] => by_cases first : a = '/' <;> simp [rootOf, first, differs]
    | [a, b] =>
      by_cases first : a = '/' <;> by_cases second : b = '/' <;>
        simp [rootOf, first, second, differs]
    | a :: b :: d :: t =>
      by_cases first : a = '/' <;> by_cases second : b = '/' <;> by_cases third : d = '/' <;>
        simp [rootOf, first, second, third]

/-- What is put behind a text that is joined to a path goes on the last component. -/
theorem exists_join_append (base : Path) (t : Text) :
    ∃ root front last, ∀ x, '/' ∉ x → (∃ c ∈ x, c ≠ '.') →
      base.join (t ++ x) = ⟨root, front ++ [last ++ x]⟩ := by
  obtain ⟨front, last, cut⟩ := Text.exists_pieces_append '/' t
  have read : ∀ x, '/' ∉ x → (∃ c ∈ x, c ≠ '.') →
      ofText (t ++ x) = ⟨rootOf t, front.filter isPart ++ [last ++ x]⟩ := by
    rintro x free ⟨c, inside, noDot⟩
    have part : isPart (last ++ x) = true := by
      have filled : last ++ x ≠ [] := by simp [List.ne_nil_of_mem inside]
      have differs : last ++ x ≠ ['.'] := by
        intro same
        have single : c ∈ ['.'] := same ▸ List.mem_append_right last inside
        simp [noDot] at single
      simp [isPart, filled, differs]
    simp [ofText, rootOf_append free, cut x free, List.filter_append, part]
  by_cases relative : rootOf t = .relative
  · refine ⟨base.root, base.parts ++ front.filter isPart, last, ?_⟩
    intro x free named
    simp [join, read x free named, relative]
  · refine ⟨rootOf t, front.filter isPart, last, ?_⟩
    intro x free named
    simp [join, read x free named, relative]

end Path

namespace Script

/-- The names that are tried stand in one place, and differ in nothing but their stamps. -/
theorem exists_resolve_pathAt (tree : FileTree) (base : Path) (stem : String) :
    ∃ above name, ∀ stamp : Int, tree.resolve (pathAt base stem stamp) =
      above ++ [name ++ ((toString stamp).toList ++ ".js".toList)] := by
  obtain ⟨root, front, last, joined⟩ := base.exists_join_append stem.toList
  refine ⟨front.foldl Location.step (tree.base ⟨root, front⟩), last, ?_⟩
  intro stamp
  have free : '/' ∉ (toString stamp).toList ++ ".js".toList := by
    rw [List.mem_append, not_or]
    exact ⟨slash_not_mem_toString stamp, by decide⟩
  have ending : 's' ∈ (toString stamp).toList ++ ".js".toList :=
    List.mem_append_right _ (by decide)
  rw [pathAt, List.append_assoc, joined _ free ⟨'s', ending, by decide⟩, FileTree.resolve,
    List.foldl_append, List.foldl_cons, List.foldl_nil,
    Location.step_of_mem _ (List.mem_append_right last ending) (by decide)]
  rfl

theorem resolve_pathAt_inj {tree : FileTree} {base : Path} {stem : String} {m n : Int}
    (same : tree.resolve (pathAt base stem m) = tree.resolve (pathAt base stem n)) : m = n := by
  obtain ⟨above, name, places⟩ := exists_resolve_pathAt tree base stem
  rw [places m, places n] at same
  have name := List.append_cancel_left (List.singleton_inj.mp (List.append_cancel_left same))
  exact toString_inj (List.append_cancel_right name)

theorem resolve_pathAt_ne_nil (tree : FileTree) (base : Path) (stem : String) (stamp : Int) :
    tree.resolve (pathAt base stem stamp) ≠ [] := by
  obtain ⟨above, name, places⟩ := exists_resolve_pathAt tree base stem
  simp [places stamp]

/-- The first free path has no taken one before it, and is free unless the search has stopped. -/
theorem exists_firstFree_eq (files : FileTree) (base : Path) (stem : String) (stamp : Int)
    (steps : Nat) :
    ∃ passed ≤ steps, firstFree files base stem stamp steps = pathAt base stem (stamp + passed) ∧
      (∀ before < passed, files.pathExists (pathAt base stem (stamp + before)) = true) ∧
      (passed < steps → files.pathExists (pathAt base stem (stamp + passed)) = false) := by
  induction steps generalizing stamp with
  | zero => exact ⟨0, Nat.le_refl 0, by simp [firstFree], by simp, by simp⟩
  | succ steps ih =>
    unfold firstFree
    split
    next taken =>
      obtain ⟨passed, bound, found, earlier, free⟩ := ih (stamp + 1)
      have shift : ∀ n : Nat, stamp + 1 + n = stamp + (n + 1 : Nat) := by intro n; omega
      simp only [shift] at found earlier free
      refine ⟨passed + 1, by omega, found, ?_, fun below => free (by omega)⟩
      intro before below
      cases before with
      | zero => simpa using taken
      | succ before => exact earlier before (by omega)
    next free => exact ⟨0, by omega, by simp, by simp, by simpa using free⟩

theorem exists_freshPath_eq (s : Session) (base : Option Path) (stem : String) :
    ∃ stamp, freshPath s base stem = pathAt (base.getD s.scratch) stem stamp := by
  obtain ⟨passed, -, found, -⟩ := exists_firstFree_eq s.files (base.getD s.scratch) stem
    s.clock.stamp s.files.entries.length
  exact ⟨_, found⟩

theorem freshPath_normal {s : Session} {base : Option Path} (stem : String)
    (scratch : s.scratch.Normal) (named : ∀ path ∈ base, path.Normal) :
    (freshPath s base stem).Normal := by
  obtain ⟨stamp, fresh⟩ := exists_freshPath_eq s base stem
  rw [fresh]
  apply Path.Normal.join
  cases base with
  | none => exact scratch
  | some path => exact named path rfl

theorem freshPath_parts_ne_nil (s : Session) (base : Option Path) (stem : String) :
    (freshPath s base stem).parts ≠ [] := by
  obtain ⟨stamp, fresh⟩ := exists_freshPath_eq s base stem
  rw [fresh]
  exact Path.join_parts_ne_nil _ (c := 's') (by decide) (by decide) (by simp)

/-- Of more paths than there are entries not all are taken. -/
theorem not_forall_pathExists (files : FileTree) (base : Path) (stem : String) (stamp : Int) :
    ¬ ∀ passed ≤ files.entries.length,
      files.pathExists (pathAt base stem (stamp + passed)) = true := by
  intro taken
  let place (passed : Nat) : Location := files.resolve (pathAt base stem (stamp + passed))
  have distinct : ((List.range (files.entries.length + 1)).map place).Nodup := by
    refine List.pairwise_map.mpr (List.nodup_range.imp ?_)
    intro m n differs same
    have equal := resolve_pathAt_inj same
    omega
  have listed : (List.range (files.entries.length + 1)).map place ⊆ files.entries.map Prod.fst := by
    intro location membership
    obtain ⟨passed, below, rfl⟩ := List.mem_map.mp membership
    have bound : passed ≤ files.entries.length := by simpa [Nat.lt_succ_iff] using below
    obtain ⟨location, entry, located, found⟩ :=
      FileTree.pathExists_eq_true_iff.mp (taken passed bound)
    obtain rfl := FileTree.locate_eq_resolve located
    exact FileTree.mem_entries_of_found (resolve_pathAt_ne_nil files base stem _) found
  have count := (List.subperm_of_subset distinct listed).length_le
  simp only [List.length_map, List.length_range] at count
  omega

/-- The path for a script is free. -/
theorem pathExists_freshPath (s : Session) (base : Option Path) (stem : String) :
    s.files.pathExists (freshPath s base stem) = false := by
  obtain ⟨passed, bound, found, earlier, free⟩ := exists_firstFree_eq s.files
    (base.getD s.scratch) stem s.clock.stamp s.files.entries.length
  rw [freshPath, found, Bool.eq_false_iff]
  intro present
  -- The search has not stopped before its end, so it has met nothing but taken paths.
  have last : passed = s.files.entries.length := by
    by_cases below : passed < s.files.entries.length
    · simp [free below] at present
    · omega
  apply not_forall_pathExists s.files (base.getD s.scratch) stem s.clock.stamp
  intro other within
  by_cases same : other = passed
  · exact same ▸ present
  · exact earlier other (by omega)

/-- The search from a stamp on, without any bound: a run of it that ends, and the stamp where it
does. -/
inductive Search (files : FileTree) (base : Path) (stem : String) : Int → Int → Prop
  | stops {stamp : Int} :
      files.pathExists (pathAt base stem stamp) = false → Search files base stem stamp stamp
  | passes {stamp last : Int} :
      files.pathExists (pathAt base stem stamp) = true →
      Search files base stem (stamp + 1) last → Search files base stem stamp last

section

variable {files : FileTree} {base : Path} {stem : String} {stamp last : Int}

/-- The search passes over taken paths. -/
theorem Search.of_taken {passed : Nat}
    (taken : ∀ before < passed, files.pathExists (pathAt base stem (stamp + before)) = true)
    (rest : Search files base stem (stamp + passed) last) : Search files base stem stamp last := by
  induction passed with
  | zero => simpa using rest
  | succ passed ih =>
    have next : stamp + (passed + 1 : Nat) = stamp + passed + 1 := by omega
    rw [next] at rest
    exact ih (fun before below => taken before (by omega)) (.passes (taken passed (by omega)) rest)

/-- A run that ends has not skipped a free path. -/
theorem Search.isLeast (search : Search files base stem stamp last) :
    IsLeast {n | stamp ≤ n ∧ files.pathExists (pathAt base stem n) = false} last := by
  induction search with
  | stops free => exact ⟨⟨Int.le_refl _, free⟩, fun n inside => inside.1⟩
  | @passes stamp last taken _ ih =>
    obtain ⟨⟨above, free⟩, least⟩ := ih
    refine ⟨⟨by omega, free⟩, ?_⟩
    rintro n ⟨onward, other⟩
    have differs : n ≠ stamp := by
      rintro rfl
      simp [taken] at other
    exact least ⟨by omega, other⟩

end

/-- The search for a script's path ends, after no more steps than there are entries, at the least
stamp from the clock's on whose path leads to no file and no directory. -/
theorem freshPath_least (s : Session) (base : Option Path) (stem : String) :
    let candidate := pathAt (base.getD s.scratch) stem
    ∃ stamp : Int, Search s.files (base.getD s.scratch) stem s.clock.stamp stamp ∧
      stamp ≤ s.clock.stamp + s.files.entries.length ∧
      IsLeast {n | s.clock.stamp ≤ n ∧ ¬ ∃ location entry,
        s.files.locate (candidate n) = .ok location ∧
          s.files.entry? location = some entry} stamp ∧
      freshPath s base stem = candidate stamp := by
  intro candidate
  obtain ⟨passed, bound, found, taken, -⟩ := exists_firstFree_eq s.files
    (base.getD s.scratch) stem s.clock.stamp s.files.entries.length
  have free := pathExists_freshPath s base stem
  rw [freshPath, found] at free
  have search := Search.of_taken taken (.stops free)
  refine ⟨_, search, by omega, ?_, found⟩
  simpa only [← FileTree.pathExists_eq_true_iff, Bool.not_eq_true] using search.isLeast

end Script
end TypedScript
