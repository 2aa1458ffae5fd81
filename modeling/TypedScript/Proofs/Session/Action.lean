import TypedScript.Proofs.Files.Path
import TypedScript.Proofs.Files.Tree
import TypedScript.Proofs.Outcome
import TypedScript.Session.Basic

set_option autoImplicit false

/-!
What actions do to a session. Reading depends on the files alone and changes
nothing; writing a text makes directories and then puts the one file, or stops
with no more than directories made; notes change the journal and nothing else.
-/

namespace TypedScript

/-- The text at a path, with unified newlines, or what prevents reading it. -/
def FileTree.textAt (tree : FileTree) (path : Path) : Except Failure Text :=
  if '\x00' ∈ path.text then .error .nullInPath
  else match tree.readFile path with
    | .error fault => .error (.file ⟨fault, path.text⟩)
    | .ok content =>
      match Encoding.decode content with
      | .error e => .error (.decoding e)
      | .ok t => .ok (Text.unifyNewlines t)

theorem FileTree.exists_readFile_of_textAt {tree : FileTree} {path : Path} {t : Text}
    (read : tree.textAt path = .ok t) : ∃ content, tree.readFile path = .ok content := by
  unfold textAt at read
  split at read
  · contradiction
  · split at read
    · contradiction
    · exact ⟨_, by assumption⟩

namespace Session

theorem note_eq (s : Session) (e : Event) : ∃ events, s.note e = { s with events := events } := by
  unfold note
  split
  · exact ⟨_, rfl⟩
  · exact ⟨s.events, rfl⟩

theorem noteAll_eq (s : Session) (noted : List Event) :
    ∃ events, s.noteAll noted = { s with events := events } := by
  induction noted generalizing s with
  | nil => exact ⟨s.events, rfl⟩
  | cons e rest ih =>
    obtain ⟨first, noted⟩ := s.note_eq e
    obtain ⟨events, more⟩ := ih (s.note e)
    exact ⟨events, by rw [noteAll, List.foldl_cons, ← noteAll, more, noted]⟩

end Session

namespace Action

variable {α β : Type}

theorem bind_apply (first : Action α) (next : α → Action β) (s : Session) :
    (first >>= next) s = match first s with
      | (.ok x, after) => next x after
      | (.error e, after) => (.error e, after) := by
  simp only [bind, ExceptT.bind, ExceptT.mk, StateT.bind, ExceptT.bindCont]
  cases first s with
  | mk outcome after => cases outcome <;> rfl

@[simp] theorem pure_apply (x : α) (s : Session) : (pure x : Action α) s = (.ok x, s) := rfl

@[simp] theorem throw_apply (e : Failure) (s : Session) :
    (throw e : Action α) s = (.error e, s) := rfl

@[simp] theorem get_apply (s : Session) : (get : Action Session) s = (.ok s, s) := rfl

@[simp] theorem set_apply (s after : Session) : (set after : Action Unit) s = (.ok (), after) := rfl

@[simp] theorem modify_apply (change : Session → Session) (s : Session) :
    (modify change : Action Unit) s = (.ok (), change s) := rfl

theorem checkPath_of_null {path : Path} (null : '\x00' ∈ path.text) (s : Session) :
    checkPath path s = (.error .nullInPath, s) := by
  simp [checkPath, null]

theorem checkPath_of_clean {path : Path} (clean : '\x00' ∉ path.text) (s : Session) :
    checkPath path s = (.ok (), s) := by
  simp [checkPath, clean]

theorem readText_apply (path : Path) (s : Session) : readText path s = (s.files.textAt path, s) := by
  unfold readText FileTree.textAt
  by_cases null : '\x00' ∈ path.text
  · rw [bind_apply, checkPath_of_null null, if_pos null]
  · simp only [bind_apply, checkPath_of_clean null, get_apply, if_neg null]
    cases s.files.readFile path with
    | error fault => rfl
    | ok content => cases decoded : Encoding.decode content <;> simp [decoded]

theorem ensureDirectory_of_clean {path : Path} (clean : '\x00' ∉ path.text) (s : Session) :
    ensureDirectory path s = match s.files.ensureDirectory path with
      | (made, .ok ()) => (.ok (), { s with files := made })
      | (made, .error e) => (.error (.file e), { s with files := made }) := by
  simp only [ensureDirectory, bind_apply, checkPath_of_clean clean, get_apply, modify_apply]
  cases s.files.ensureDirectory path with
  | mk made outcome => cases outcome <;> rfl

theorem changeFiles_of_clean {path : Path} (clean : '\x00' ∉ path.text)
    (change : FileTree → Except FileFault FileTree) (s : Session) :
    changeFiles path change s = match change s.files with
      | .ok files => (.ok (), { s with files := files })
      | .error fault => (.error (.file ⟨fault, path.text⟩), s) := by
  simp only [changeFiles, bind_apply, checkPath_of_clean clean, get_apply]
  cases change s.files <;> rfl

/-- Writing stops with no more than directories made and no file in the end, or has stored the
file. -/
theorem writeText_cases (path : Path) (t : Text) (s : Session) :
    (∃ made e, s.files.Grows made ∧ (path.parts ≠ [] → ¬ made.HasFile path) ∧
        s.files.store? path (Encoding.encode t) = none ∧
        writeText path t s = (.error e, { s with files := made })) ∨
      ∃ files, '\x00' ∉ path.text ∧ s.files.Written files path (Encoding.encode t) ∧
        s.files.store? path (Encoding.encode t) = some files ∧
        writeText path t s = (.ok (), { s with files := files }) := by
  unfold writeText
  by_cases parentNull : '\x00' ∈ path.parent.text
  · left
    have null := Path.mem_text_of_mem_parent (by decide) (by decide) parentNull
    refine ⟨s.files, .nullInPath, .refl _, fun _ present => present.1 null,
      by simp [FileTree.store?, parentNull], ?_⟩
    simp only [bind_apply, ensureDirectory, checkPath_of_null parentNull]
  · have grows := FileTree.Grows.ensureParts path.parent.root s.files path.parent.parts.reverse
    rw [← FileTree.ensureDirectory] at grows
    simp only [bind_apply, ensureDirectory_of_clean parentNull]
    unfold FileTree.store?
    cases ensured : s.files.ensureDirectory path.parent with
    | mk made outcome =>
    rw [ensured] at grows
    cases outcome with
    | error e =>
      have missing := FileTree.ensureParts_error ensured
      rw [List.reverse_reverse] at missing
      exact .inl ⟨made, .file e, grows, fun filled => FileTree.not_hasFile_of_parent filled missing,
        by simp, rfl⟩
    | ok =>
      by_cases null : '\x00' ∈ path.text
      · left
        refine ⟨made, .nullInPath, grows, fun _ present => present.1 null, by simp [null], ?_⟩
        simp only [changeFiles, bind_apply, checkPath_of_null null]
      · simp only [changeFiles_of_clean null, parentNull, null, or_self, if_false]
        cases written : made.writeFile path (Encoding.encode t) with
        | error fault =>
          exact .inl ⟨made, .file ⟨fault, path.text⟩, grows,
            fun _ => FileTree.not_hasFile_of_writeFile written, rfl, rfl⟩
        | ok files => exact .inr ⟨files, not_false, .of_writeFile grows written, rfl, rfl⟩

/-- An action only looks at the files, and changes nothing. -/
def Reads (action : Action α) (view : FileTree → Except Failure α) : Prop :=
  ∀ s, action s = (view s.files, s)

theorem Reads.bind {first : Action α} {next : α → Action β} {view : FileTree → Except Failure α}
    {views : α → FileTree → Except Failure β} (reads : Reads first view)
    (after : ∀ x, Reads (next x) (views x)) :
    Reads (first >>= next) fun files => view files >>= fun x => views x files := by
  intro s
  rw [bind_apply, reads s]
  cases found : view s.files with
  | error e =>
    simp only [found]
    rfl
  | ok x =>
    simp only [found, after x s]
    rfl

/-- An action leaves the error output alone, however it ends. -/
def Silent (action : Action α) : Prop := ∀ s, (action s).2.err = s.err

namespace Silent

theorem pure (x : α) : Silent (Pure.pure x) := fun _ => rfl

theorem throw (e : Failure) : Silent (MonadExcept.throw e : Action α) := fun _ => rfl

theorem get : Silent (MonadState.get : Action Session) := fun _ => rfl

theorem bind {first : Action α} {next : α → Action β} (silent : Silent first)
    (after : ∀ x, Silent (next x)) : Silent (first >>= next) := by
  intro s
  have begun := silent s
  rw [bind_apply]
  match ended : first s with
  | (.ok x, between) =>
    rw [ended] at begun
    exact (after x between).trans begun
  | (.error e, between) =>
    rw [ended] at begun
    exact begun

theorem note (e : Event) : Silent (Action.note e) := by
  intro s
  obtain ⟨events, noted⟩ := s.note_eq e
  simp only [Action.note, modify_apply, noted]

theorem checkPath (path : Path) : Silent (Action.checkPath path) := by
  intro s
  by_cases null : '\x00' ∈ path.text
  · rw [checkPath_of_null null]
  · rw [checkPath_of_clean null]

theorem writeText (path : Path) (t : Text) : Silent (Action.writeText path t) := by
  intro s
  rcases writeText_cases path t s with ⟨made, e, -, -, -, stopped⟩ | ⟨files, -, -, -, done⟩
  · rw [stopped]
  · rw [done]

end Silent
end Action
end TypedScript
