import TypedScript.Proofs.Session.Running

set_option autoImplicit false

/-!
What a run does to the files that are there. Its script has a free path, which
is not yet a free place: a path may lead through a directory that is missing and
back out of it, and then nothing is found behind it until the directory is made
for the script. The file in the script's place is the only one that a run can
harm, and there is none where the script's directory exists or no component
leads back.
-/

namespace TypedScript

namespace FileTree

/-- The same files with the same contents, whatever the directories are. -/
def SameFiles (before after : FileTree) : Prop :=
  ∀ location content,
    after.entry? location = some (.file content) ↔ before.entry? location = some (.file content)

/-- A file can be stored at a path, in the place of another one. -/
def Overwrites (tree : FileTree) (path : Path) (content : Bytes) : Prop :=
  (tree.store? path content).isSome ∧ ∃ old, tree.entry? (tree.resolve path) = some (.file old)

/-- Every entry stands in a directory. -/
def Rooted (tree : FileTree) : Prop :=
  ∀ place ∈ tree.entries, tree.entry? place.1.dropLast = some .directory

instance (tree : FileTree) : Decidable tree.Rooted :=
  inferInstanceAs (Decidable (∀ place ∈ tree.entries, _))

/-- Where directories have been made there are the same files. -/
theorem Grows.sameFiles {before after : FileTree} (grows : before.Grows after) :
    before.SameFiles after := by
  intro location content
  constructor
  · intro found
    rcases grows.added location _ found with present | directory
    · exact present
    · contradiction
  · exact grows.kept location _

/-- A file that has been written and cleared away again is the only one that can be missing. -/
theorem Written.entry?_erase_iff {before after : FileTree} {path : Path} {written : Bytes}
    (stored : before.Written after path written) (location : Location) (content : Bytes) :
    entry? (after.erase (before.resolve path)) location = some (.file content) ↔
      before.entry? location = some (.file content) ∧ location ≠ before.resolve path := by
  by_cases here : location = before.resolve path
  · have free : after.entry? (before.resolve path) ≠ some .directory := by simp [stored.found]
    simp [here, entry?_erase_self after (ne_root_of_not_directory free)]
  · rw [entry?_erase_of_ne after here]
    constructor
    · intro found
      rcases stored.added location _ here found with present | directory
      · exact ⟨present, here⟩
      · contradiction
    · exact fun ⟨present, _⟩ => stored.others location _ here present

theorem foldl_step {parts : List Text} (plain : ∀ part ∈ parts, part ≠ ['.', '.'] ∧ part ≠ ['.'])
    (start : Location) : parts.foldl Location.step start = start ++ parts := by
  induction parts generalizing start with
  | nil => simp
  | cons part rest ih =>
    obtain ⟨⟨twice, once⟩, others⟩ := List.forall_mem_cons.mp plain
    rw [List.foldl_cons, Location.step_of_ne start twice once, ih others, List.append_assoc,
      List.singleton_append]

namespace Rooted

variable {tree : FileTree} {entry : Entry}

theorem directory_of_child (rooted : tree.Rooted) {above : Location} {name : Text}
    (found : tree.entry? (above ++ [name]) = some entry) : tree.entry? above = some .directory := by
  obtain ⟨place, membership, here⟩ := List.mem_map.mp (mem_entries_of_found (by simp) found)
  have directory := rooted place membership
  rwa [here, List.dropLast_concat] at directory

/-- Whatever is above an entry is a directory. -/
theorem directory_above (rooted : tree.Rooted) {above : Location} {name : Text} {below : Location}
    (found : tree.entry? (above ++ name :: below) = some entry) :
    tree.entry? above = some .directory := by
  induction below generalizing above name with
  | nil => exact rooted.directory_of_child found
  | cons next below ih =>
    rw [List.append_cons] at found
    exact rooted.directory_of_child (ih found)

/-- Without components that lead back, the walk to an entry succeeds. -/
theorem walk (rooted : tree.Rooted) {start : Location} {parts : List Text}
    (plain : ∀ part ∈ parts, part ≠ ['.', '.'] ∧ part ≠ ['.'])
    (found : tree.entry? (parts.foldl Location.step start) = some entry) :
    tree.walk start parts = .ok (parts.foldl Location.step start) := by
  induction parts generalizing start with
  | nil => rfl
  | cons part rest ih =>
    obtain ⟨⟨twice, once⟩, others⟩ := List.forall_mem_cons.mp plain
    have directory : tree.entry? start = some .directory := by
      rw [foldl_step plain] at found
      exact rooted.directory_above found
    simp only [FileTree.walk, directory]
    exact ih others found

theorem exists_locate (rooted : tree.Rooted) {path : Path} (normal : path.Normal)
    (forward : ['.', '.'] ∉ path.parts)
    (found : tree.entry? (tree.resolve path) = some entry) :
    ∃ location, tree.locate path = .ok location := by
  refine ⟨_, rooted.walk ?_ found⟩
  intro part membership
  constructor
  · rintro rfl
    exact forward membership
  · rintro rfl
    simpa [Path.isPart] using (normal _ membership).1

end Rooted

/-- A file is not overwritten where the walk to its free path succeeds. -/
theorem not_overwrites {tree : FileTree} {path : Path} (content : Bytes)
    (free : tree.pathExists path = false)
    (reached : ∀ old, tree.entry? (tree.resolve path) = some (.file old) →
      ∃ location, tree.locate path = .ok location) : ¬ tree.Overwrites path content := by
  rintro ⟨-, old, found⟩
  obtain ⟨location, located⟩ := reached old found
  obtain rfl := locate_eq_resolve located
  have present := pathExists_eq_true_iff.mpr ⟨_, _, located, found⟩
  simp [free] at present

end FileTree

namespace Script

/-- The files behind a run: those before it, without the one in the script's place if the script
could be stored there. -/
theorem entry?_run_iff (t : Text) {command : List String} {timeout : Value} (base : Option Path)
    (stem : String) (s : Session) (filled : command ≠ [])
    (admissible : checkTimeout timeout = .ok ()) (normal : (freshPath s base stem).Normal)
    (location : Location) (content : Bytes) :
    FileTree.entry? (run t command timeout base stem s).2.files location = some (.file content) ↔
      s.files.entry? location = some (.file content) ∧
        ((s.files.store? (freshPath s base stem) (Encoding.encode t)).isSome →
          location ≠ s.files.resolve (freshPath s base stem)) := by
  rcases run_cases t filled admissible normal with
    ⟨made, e, grows, -, unstored, stopped⟩ | ⟨stored, events, written, stores, launched⟩
  · rw [stopped, unstored]
    simpa using grows.sameFiles location content
  · rw [launched, stores]
    simpa [Session.launched] using written.entry?_erase_iff location content

/-- However a run ends and whatever the interpreter does to the script, the files are those from
before, except for the one in the script's place if the script could be stored. So the files are
the same unless the script overwrites one. It does not if its directory exists, and neither if no
component of its path leads back. A script is a text of Unicode scalar values, so it can always be
encoded; a lone surrogate, which cannot, is no character here. -/
theorem run_spares_files (t : Text) {command : List String} {timeout : Value} (base : Option Path)
    (stem : String) (s : Session) (filled : command ≠ [])
    (admissible : checkTimeout timeout = .ok ()) (scratch : s.scratch.Normal)
    (named : ∀ path ∈ base, path.Normal) :
    let script := freshPath s base stem
    let program := Encoding.encode t
    let after := (run t command timeout base stem s).2.files
    (∀ location content, after.entry? location = some (.file content) ↔
        s.files.entry? location = some (.file content) ∧
          ((s.files.store? script program).isSome → location ≠ s.files.resolve script)) ∧
      (s.files.SameFiles after ↔ ¬ s.files.Overwrites script program) ∧
      (s.files.isDirectory script.parent = true → s.files.SameFiles after) ∧
      (s.files.Rooted → ['.', '.'] ∉ script.parts → s.files.SameFiles after) := by
  intro script program after
  have normal := freshPath_normal stem scratch named
  have free := pathExists_freshPath s base stem
  have files := entry?_run_iff t base stem s filled admissible normal
  have spared : s.files.SameFiles after ↔ ¬ s.files.Overwrites script program := by
    constructor
    · rintro same ⟨stored, old, found⟩
      exact ((files _ _).mp ((same _ _).mpr found)).2 stored rfl
    · intro kept location content
      refine (files location content).trans ⟨And.left, fun found => ⟨found, ?_⟩⟩
      rintro stored rfl
      exact kept ⟨stored, content, found⟩
  refine ⟨files, spared, ?_, ?_⟩
  · intro directory
    exact spared.mpr (FileTree.not_overwrites _ free fun _ _ =>
      FileTree.exists_locate_of_parent (freshPath_parts_ne_nil s base stem) directory)
  · intro rooted forward
    exact spared.mpr (FileTree.not_overwrites _ free fun _ found =>
      rooted.exists_locate normal forward found)

/-- The first path is taken, so the script gets the next one. -/
theorem run_spares_files_beside :
    freshPath (Build.holding "p1000000.js" "keep") (some (Path.ofText ".".toList)) "p" =
        Path.ofText "p1000001.js".toList ∧
      (Build.holding "p1000000.js" "keep").files.SameFiles
        (run "x".toList ["node"] .null (some (Path.ofText ".".toList)) "p"
          (Build.holding "p1000000.js" "keep")).2.files := by
  have spares := run_spares_files "x".toList (some (Path.ofText ".".toList)) "p"
    (Build.holding "p1000000.js" "keep") (show ["node"] ≠ [] by decide)
    (show checkTimeout .null = .ok () from rfl) (by decide) (by decide)
  exact ⟨by decide +kernel, spares.2.2.2 (by decide +kernel) (by decide +kernel)⟩

/-- A file behind a directory that is missing, and is made for the script, is found too late. -/
theorem not_sameFiles_run_detour :
    ¬ (Build.holding "p1000000.js" "keep").files.SameFiles
      (run "x".toList ["node"] .null (some (Path.ofText "missing/..".toList)) "p"
        (Build.holding "p1000000.js" "keep")).2.files := by
  intro same
  have gone : FileTree.entry? (run "x".toList ["node"] .null
      (some (Path.ofText "missing/..".toList)) "p"
      (Build.holding "p1000000.js" "keep")).2.files ["p1000000.js".toList] = none := by
    decide +kernel
  have present := (same ["p1000000.js".toList] (Encoding.encode "keep".toList)).mpr rfl
  rw [gone] at present
  cases present

end Script
end TypedScript
