import TypedScript.Files.Tree

set_option autoImplicit false

/-!
What the operations on a tree do to its entries. A walk that succeeds ends at
the location that the components name, whatever way they take. No operation
removes a directory, so a walk that has succeeded goes on to succeed; making
directories changes no entry, and writing or removing a file changes the one at
the location of its path.
-/

namespace TypedScript

theorem Location.step_of_ne (location : Location) {part : Text} (twice : part ≠ ['.', '.'])
    (once : part ≠ ['.']) : location.step part = location ++ [part] := by
  simp [step, twice, once]

theorem Location.step_of_mem (location : Location) {part : Text} {c : Char} (inside : c ∈ part)
    (noDot : c ≠ '.') : location.step part = location ++ [part] := by
  apply step_of_ne <;>
  · rintro rfl
    simp [noDot] at inside

namespace FileTree

theorem lookup_filter_self (entries : List (Location × Entry)) (location : Location) :
    (entries.filter (·.1 != location)).lookup location = none := by
  rw [List.lookup_eq_none_iff]
  rintro ⟨place, entry⟩ membership
  have differs : place ≠ location := by simpa using (List.mem_filter.mp membership).2
  simpa using Ne.symm differs

theorem lookup_filter_of_ne {location other : Location} (entries : List (Location × Entry))
    (differs : other ≠ location) :
    (entries.filter (·.1 != location)).lookup other = entries.lookup other := by
  induction entries with
  | nil => rfl
  | cons first rest ih =>
    obtain ⟨place, entry⟩ := first
    by_cases here : place = location
    · subst here
      have apart : (other == place) = false := by simpa using differs
      simpa [List.lookup_cons, apart] using ih
    · simp [List.lookup_cons, here, ih]

theorem entry?_put_self (tree : FileTree) {location : Location} (entry : Entry)
    (below : location ≠ []) : entry? (tree.put location entry) location = some entry := by
  simp [put, entry?, below]

theorem entry?_put_of_ne (tree : FileTree) {location other : Location} (entry : Entry)
    (differs : other ≠ location) :
    entry? (tree.put location entry) other = tree.entry? other := by
  have apart : (other == location) = false := by simpa using differs
  simp [put, entry?, List.lookup_cons, apart, lookup_filter_of_ne _ differs]

theorem entry?_erase_self (tree : FileTree) {location : Location} (below : location ≠ []) :
    entry? (tree.erase location) location = none := by
  simp [erase, entry?, below, lookup_filter_self]

theorem entry?_erase_of_ne (tree : FileTree) {location other : Location}
    (differs : other ≠ location) : entry? (tree.erase location) other = tree.entry? other := by
  simp [erase, entry?, lookup_filter_of_ne _ differs]

theorem erase_erase (tree : FileTree) (location : Location) :
    (tree.erase location).erase location = tree.erase location := by
  simp [erase]

theorem erase_put (tree : FileTree) (location : Location) (entry : Entry) :
    (tree.put location entry).erase location = tree.erase location := by
  simp [put, erase]

theorem erase_of_none {tree : FileTree} {location : Location}
    (missing : tree.entry? location = none) : tree.erase location = tree := by
  have absent : tree.entries.lookup location = none := by
    unfold entry? at missing
    split at missing
    · contradiction
    · exact missing
  have same : tree.entries.filter (·.1 != location) = tree.entries := by
    rw [List.filter_eq_self]
    intro place membership
    have differs := List.lookup_eq_none_iff.mp absent place membership
    simpa using Ne.symm (by simpa using differs)
  rw [erase, same]

theorem ne_root_of_not_directory {tree : FileTree} {location : Location}
    (free : tree.entry? location ≠ some .directory) : location ≠ [] := by
  rintro rfl
  exact free rfl

theorem mem_entries_of_found {tree : FileTree} {location : Location} {entry : Entry}
    (below : location ≠ []) (found : tree.entry? location = some entry) :
    location ∈ tree.entries.map Prod.fst := by
  unfold entry? at found
  rw [if_neg below] at found
  obtain ⟨front, back, split, -⟩ := List.lookup_eq_some_iff.mp found
  simp [split]

/-- A walk that succeeds ends where the components say. -/
theorem walk_eq_foldl {tree : FileTree} {start location : Location} {parts : List Text}
    (reached : tree.walk start parts = .ok location) :
    location = parts.foldl Location.step start := by
  induction parts generalizing start with
  | nil => exact (Except.ok.inj reached).symm
  | cons part rest ih =>
    rw [walk] at reached
    split at reached
    · contradiction
    · contradiction
    · exact ih reached

theorem locate_eq_resolve {tree : FileTree} {path : Path} {location : Location}
    (located : tree.locate path = .ok location) : location = tree.resolve path :=
  walk_eq_foldl located

/-- Every directory stays one. -/
structure KeepsDirectories (before after : FileTree) : Prop where
  home : after.home = before.home
  kept : ∀ location, before.entry? location = some .directory →
    after.entry? location = some .directory

namespace KeepsDirectories

theorem trans {before between after : FileTree} (first : before.KeepsDirectories between)
    (second : between.KeepsDirectories after) : before.KeepsDirectories after :=
  ⟨second.home.trans first.home,
    fun location found => second.kept location (first.kept location found)⟩

theorem put {tree : FileTree} {location : Location} (entry : Entry)
    (free : tree.entry? location ≠ some .directory) :
    tree.KeepsDirectories (tree.put location entry) := by
  refine ⟨rfl, ?_⟩
  intro other found
  have differs : other ≠ location := by
    rintro rfl
    exact free found
  rwa [entry?_put_of_ne tree entry differs]

theorem erase {tree : FileTree} {location : Location}
    (free : tree.entry? location ≠ some .directory) :
    tree.KeepsDirectories (tree.erase location) := by
  refine ⟨rfl, ?_⟩
  intro other found
  have differs : other ≠ location := by
    rintro rfl
    exact free found
  rwa [entry?_erase_of_ne tree differs]

theorem resolve {before after : FileTree} (keeps : before.KeepsDirectories after) (path : Path) :
    after.resolve path = before.resolve path := by
  simp only [FileTree.resolve, base, keeps.home]

theorem walk {before after : FileTree} (keeps : before.KeepsDirectories after)
    {start location : Location} {parts : List Text}
    (reached : before.walk start parts = .ok location) : after.walk start parts = .ok location := by
  induction parts generalizing start with
  | nil => exact reached
  | cons part rest ih =>
    rw [FileTree.walk] at reached ⊢
    split at reached
    · contradiction
    · contradiction
    · rename_i found
      rw [keeps.kept start found]
      exact ih reached

theorem locate {before after : FileTree} (keeps : before.KeepsDirectories after) {path : Path}
    {location : Location} (located : before.locate path = .ok location) :
    after.locate path = .ok location := by
  have sameBase : after.base path = before.base path := by simp only [base, keeps.home]
  rw [FileTree.locate, sameBase]
  exact keeps.walk located

end KeepsDirectories

theorem readFile_eq_ok_iff {tree : FileTree} {path : Path} {content : Bytes} :
    tree.readFile path = .ok content ↔
      ∃ location, tree.locate path = .ok location ∧
        tree.entry? location = some (.file content) := by
  unfold readFile inspect
  cases tree.locate path with
  | error fault => simp [bind, Except.bind]
  | ok location =>
    match found : tree.entry? location with
    | none => simp [bind, Except.bind, pure, Except.pure, found]
    | some .directory => simp [bind, Except.bind, pure, Except.pure, found]
    | some (.file other) => simp [bind, Except.bind, pure, Except.pure, found]

theorem writeFile_eq_ok_iff {tree after : FileTree} {path : Path} {content : Bytes} :
    tree.writeFile path content = .ok after ↔
      ∃ location, tree.locate path = .ok location ∧ tree.entry? location ≠ some .directory ∧
        after = tree.put location (.file content) := by
  unfold writeFile inspect
  cases tree.locate path with
  | error fault => simp [bind, Except.bind]
  | ok location =>
    match found : tree.entry? location with
    | none => simp [bind, Except.bind, pure, Except.pure, found, eq_comm]
    | some .directory => simp [bind, Except.bind, pure, Except.pure, found]
    | some (.file other) => simp [bind, Except.bind, pure, Except.pure, found, eq_comm]

theorem removeFile_of_file {tree : FileTree} {path : Path} {location : Location} {content : Bytes}
    (located : tree.locate path = .ok location)
    (found : tree.entry? location = some (.file content)) :
    tree.removeFile path = .ok (tree.erase location) := by
  simp [removeFile, inspect, located, found, bind, Except.bind, pure, Except.pure]

theorem removeFile_of_none {tree : FileTree} {path : Path} {location : Location}
    (located : tree.locate path = .ok location) (missing : tree.entry? location = none) :
    tree.removeFile path = .error .noEntry := by
  simp [removeFile, inspect, located, missing, bind, Except.bind, pure, Except.pure]

theorem pathExists_of_none {tree : FileTree} {path : Path} {location : Location}
    (located : tree.locate path = .ok location) (missing : tree.entry? location = none) :
    tree.pathExists path = false := by
  simp [pathExists, inspect, located, missing, bind, Except.bind, pure, Except.pure]

theorem pathExists_eq_true_iff {tree : FileTree} {path : Path} :
    tree.pathExists path = true ↔
      ∃ location entry, tree.locate path = .ok location ∧ tree.entry? location = some entry := by
  unfold pathExists inspect
  cases tree.locate path with
  | error fault => simp [bind, Except.bind]
  | ok location =>
    cases found : tree.entry? location <;> simp [bind, Except.bind, pure, Except.pure, found]

theorem makeDirectory_eq_ok_iff {tree after : FileTree} {path : Path} :
    tree.makeDirectory path = .ok after ↔
      ∃ location, tree.locate path = .ok location ∧ tree.entry? location = none ∧
        after = tree.put location .directory := by
  unfold makeDirectory inspect
  cases tree.locate path with
  | error fault => simp [bind, Except.bind]
  | ok location =>
    cases found : tree.entry? location with
    | none => simp [bind, Except.bind, pure, Except.pure, found, eq_comm]
    | some entry => simp [bind, Except.bind, pure, Except.pure, found]

theorem isDirectory_eq_true_iff {tree : FileTree} {path : Path} :
    tree.isDirectory path = true ↔
      ∃ location, tree.locate path = .ok location ∧ tree.entry? location = some .directory := by
  unfold isDirectory inspect
  cases tree.locate path with
  | error fault => simp [bind, Except.bind]
  | ok location =>
    match found : tree.entry? location with
    | none => simp [bind, Except.bind, pure, Except.pure, found]
    | some .directory => simp [bind, Except.bind, pure, Except.pure, found]
    | some (.file other) => simp [bind, Except.bind, pure, Except.pure, found]

/-- A walk that goes on behind some components has found a directory there. -/
theorem exists_walk_of_append {tree : FileTree} {start location : Location} {parts : List Text}
    {part : Text} (reached : tree.walk start (parts ++ [part]) = .ok location) :
    ∃ above, tree.walk start parts = .ok above ∧ tree.entry? above = some .directory := by
  induction parts generalizing start with
  | nil =>
    rw [List.nil_append, walk] at reached
    split at reached
    · contradiction
    · contradiction
    next found => exact ⟨start, rfl, found⟩
  | cons first rest ih =>
    rw [List.cons_append, walk] at reached
    rw [walk]
    split at reached
    · contradiction
    · contradiction
    · exact ih reached

/-- What a path with a component leads to stands in a directory. -/
theorem isDirectory_parent {tree : FileTree} {path : Path} {location : Location}
    (filled : path.parts ≠ []) (located : tree.locate path = .ok location) :
    tree.isDirectory path.parent = true := by
  unfold locate at located
  rw [← List.dropLast_concat_getLast filled] at located
  exact isDirectory_eq_true_iff.mpr (exists_walk_of_append located)

/-- A walk goes one step further from a directory. -/
theorem walk_concat {tree : FileTree} {start above : Location} {parts : List Text} (part : Text)
    (reached : tree.walk start parts = .ok above) (directory : tree.entry? above = some .directory) :
    tree.walk start (parts ++ [part]) = .ok (above.step part) := by
  induction parts generalizing start with
  | nil =>
    obtain rfl := Except.ok.inj reached
    simp [walk, directory]
  | cons first rest ih =>
    rw [walk] at reached
    rw [List.cons_append, walk]
    split at reached
    · contradiction
    · contradiction
    · exact ih reached

theorem exists_locate_of_parent {tree : FileTree} {path : Path} (filled : path.parts ≠ [])
    (directory : tree.isDirectory path.parent = true) :
    ∃ location, tree.locate path = .ok location := by
  obtain ⟨above, located, found⟩ := isDirectory_eq_true_iff.mp directory
  have reached := walk_concat (path.parts.getLast filled) located found
  simp only [Path.parent, List.dropLast_concat_getLast] at reached
  exact ⟨_, reached⟩

theorem ensureOne_error {tree : FileTree} {path : Path} {e : FileError}
    (failed : tree.ensureOne path = .error e) : tree.isDirectory path = false := by
  unfold ensureOne at failed
  split at failed
  · contradiction
  · split at failed
    · contradiction
    next none => exact Bool.eq_false_iff.mpr none

/-- Where making directories fails, the last one is not there in the end. -/
theorem ensureParts_error {root : PathRoot} {tree made : FileTree} {reversed : List Text}
    {e : FileError} (failed : ensureParts root tree reversed = (made, .error e)) :
    made.isDirectory ⟨root, reversed.reverse⟩ = false := by
  induction reversed generalizing made e with
  | nil =>
    unfold ensureParts at failed
    split at failed
    · simp at failed
    next stopped =>
      obtain ⟨rfl, -⟩ := Prod.mk.inj failed
      exact ensureOne_error stopped
  | cons part above ih =>
    simp only [ensureParts] at failed
    split at failed
    · simp at failed
    next =>
      split at failed
      next stopped =>
        obtain ⟨rfl, -⟩ := Prod.mk.inj failed
        -- Without the directory above there is no way to the last one.
        rw [Bool.eq_false_iff]
        intro present
        obtain ⟨location, located, -⟩ := isDirectory_eq_true_iff.mp present
        have reached := isDirectory_parent (by simp) located
        simp [Path.parent, ih stopped] at reached
      next =>
        split at failed
        · simp at failed
        next stopped =>
          obtain ⟨rfl, -⟩ := Prod.mk.inj failed
          exact ensureOne_error stopped
    next =>
      split at failed
      · simp at failed
      next none =>
        obtain ⟨rfl, -⟩ := Prod.mk.inj failed
        exact Bool.eq_false_iff.mpr none

/-- Nothing that was there has changed; there may be more directories. -/
structure Grows (before after : FileTree) : Prop where
  home : after.home = before.home
  kept : ∀ location entry, before.entry? location = some entry → after.entry? location = some entry
  added : ∀ location entry, after.entry? location = some entry →
    before.entry? location = some entry ∨ entry = .directory

namespace Grows

theorem refl (tree : FileTree) : tree.Grows tree :=
  ⟨rfl, fun _ _ found => found, fun _ _ found => .inl found⟩

theorem trans {before between after : FileTree} (first : before.Grows between)
    (second : between.Grows after) : before.Grows after where
  home := second.home.trans first.home
  kept location entry found := second.kept location entry (first.kept location entry found)
  added location entry found :=
    (second.added location entry found).elim (first.added location entry) .inr

theorem keepsDirectories {before after : FileTree} (grows : before.Grows after) :
    before.KeepsDirectories after :=
  ⟨grows.home, fun location => grows.kept location .directory⟩

theorem makeDirectory {tree after : FileTree} {path : Path}
    (made : tree.makeDirectory path = .ok after) : tree.Grows after := by
  obtain ⟨location, -, missing, rfl⟩ := makeDirectory_eq_ok_iff.mp made
  refine ⟨rfl, ?_, ?_⟩
  · intro other entry found
    have differs : other ≠ location := by
      rintro rfl
      simp [missing] at found
    rwa [entry?_put_of_ne tree _ differs]
  · intro other entry found
    by_cases here : other = location
    · have free : tree.entry? location ≠ some .directory := by simp [missing]
      have below := ne_root_of_not_directory free
      rw [here, entry?_put_self tree _ below] at found
      exact .inr (Option.some.inj found).symm
    · exact .inl (entry?_put_of_ne tree _ here ▸ found)

theorem ensureOne {tree after : FileTree} {path : Path} (made : tree.ensureOne path = .ok after) :
    tree.Grows after := by
  unfold FileTree.ensureOne at made
  split at made
  next fresh =>
    cases made
    exact makeDirectory fresh
  next =>
    split at made
    · cases made
      exact refl tree
    · contradiction

/-- Making directories only adds directories, also where it fails on the way. -/
theorem ensureParts (root : PathRoot) (tree : FileTree) (reversed : List Text) :
    tree.Grows (FileTree.ensureParts root tree reversed).1 := by
  induction reversed with
  | nil =>
    unfold FileTree.ensureParts
    split
    next made => exact ensureOne made
    next => exact refl tree
  | cons part above ih =>
    simp only [FileTree.ensureParts]
    split
    next fresh => exact makeDirectory fresh
    next =>
      split
      next failed =>
        rw [failed] at ih
        exact ih
      next reached =>
        rw [reached] at ih
        split
        next made => exact ih.trans (ensureOne made)
        next => exact ih
    next => split <;> exact refl tree

theorem readFile {before after : FileTree} (grows : before.Grows after) {path : Path}
    {content : Bytes} (read : before.readFile path = .ok content) :
    after.readFile path = .ok content := by
  obtain ⟨location, located, found⟩ := readFile_eq_ok_iff.mp read
  exact readFile_eq_ok_iff.mpr
    ⟨location, grows.keepsDirectories.locate located, grows.kept location _ found⟩

end Grows

/-- A file has been written, in directories that were made as needed, and nothing else has
changed. -/
structure Written (before after : FileTree) (path : Path) (content : Bytes) : Prop where
  directories : before.KeepsDirectories after
  located : after.locate path = .ok (before.resolve path)
  found : after.entry? (before.resolve path) = some (.file content)
  others : ∀ location entry, location ≠ before.resolve path →
    before.entry? location = some entry → after.entry? location = some entry
  added : ∀ location entry, location ≠ before.resolve path →
    after.entry? location = some entry → before.entry? location = some entry ∨ entry = .directory

namespace Written

theorem of_writeFile {before made after : FileTree} {path : Path} {content : Bytes}
    (grows : before.Grows made) (written : made.writeFile path content = .ok after) :
    before.Written after path content := by
  obtain ⟨location, located, free, rfl⟩ := writeFile_eq_ok_iff.mp written
  have keeps : made.KeepsDirectories (made.put location (.file content)) := .put _ free
  have place : location = before.resolve path := by
    rw [locate_eq_resolve located, grows.keepsDirectories.resolve]
  subst place
  refine ⟨grows.keepsDirectories.trans keeps, keeps.locate located,
    entry?_put_self made _ (ne_root_of_not_directory free), ?_, ?_⟩
  · intro other entry differs present
    rw [entry?_put_of_ne made _ differs]
    exact grows.kept other entry present
  · intro other entry differs present
    rw [entry?_put_of_ne made _ differs] at present
    exact grows.added other entry present

/-- What has been written is gone when its location is cleared. -/
theorem pathExists_erase {before after : FileTree} {path : Path} {content : Bytes}
    (written : before.Written after path content) :
    (after.erase (before.resolve path)).pathExists path = false := by
  have free : after.entry? (before.resolve path) ≠ some .directory := by simp [written.found]
  exact pathExists_of_none ((KeepsDirectories.erase free).locate written.located)
    (entry?_erase_self after (ne_root_of_not_directory free))

theorem readFile {before after : FileTree} {path : Path} {content : Bytes}
    (written : before.Written after path content) : after.readFile path = .ok content :=
  readFile_eq_ok_iff.mpr ⟨_, written.located, written.found⟩

theorem readFile_of_ne {before after : FileTree} {path other : Path} {content kept : Bytes}
    (written : before.Written after path content)
    (differs : before.resolve other ≠ before.resolve path)
    (read : before.readFile other = .ok kept) : after.readFile other = .ok kept := by
  obtain ⟨location, located, found⟩ := readFile_eq_ok_iff.mp read
  obtain rfl := locate_eq_resolve located
  exact readFile_eq_ok_iff.mpr
    ⟨_, written.directories.locate located, written.others _ _ differs found⟩

end Written

/-- There is a file at a path, and the path can be handed to the system. -/
def HasFile (tree : FileTree) (path : Path) : Prop :=
  '\x00' ∉ path.text ∧ ∃ content, tree.readFile path = .ok content

theorem not_hasFile_of_parent {tree : FileTree} {path : Path} (filled : path.parts ≠ [])
    (missing : tree.isDirectory path.parent = false) : ¬ tree.HasFile path := by
  rintro ⟨-, content, read⟩
  obtain ⟨location, located, -⟩ := readFile_eq_ok_iff.mp read
  exact absurd (isDirectory_parent filled located) (by simp [missing])

theorem not_hasFile_of_writeFile {tree : FileTree} {path : Path} {content : Bytes}
    {fault : FileFault} (failed : tree.writeFile path content = .error fault) :
    ¬ tree.HasFile path := by
  rintro ⟨-, found, read⟩
  obtain ⟨location, located, found⟩ := readFile_eq_ok_iff.mp read
  have written : tree.writeFile path content = .ok (tree.put location (.file content)) :=
    writeFile_eq_ok_iff.mpr ⟨location, located, by simp [found], rfl⟩
  rw [failed] at written
  contradiction

theorem not_hasFile_of_pathExists {tree : FileTree} {path : Path}
    (gone : tree.pathExists path = false) : ¬ tree.HasFile path := by
  rintro ⟨-, content, read⟩
  obtain ⟨location, located, found⟩ := readFile_eq_ok_iff.mp read
  have present := pathExists_eq_true_iff.mpr ⟨location, _, located, found⟩
  simp [gone] at present

/-- The tree with a file written to it, in directories that are made as needed; none if a path has
a null character in it, a directory cannot be made, or one stands in the file's place. -/
def store? (tree : FileTree) (path : Path) (content : Bytes) : Option FileTree :=
  if '\x00' ∈ path.parent.text ∨ '\x00' ∈ path.text then none
  else match tree.ensureDirectory path.parent with
    | (_, .error _) => none
    | (made, .ok ()) => (made.writeFile path content).toOption

end FileTree
end TypedScript
