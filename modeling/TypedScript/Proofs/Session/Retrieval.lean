import TypedScript.Proofs.Session.Compilation
import TypedScript.Proofs.Text.Encoding
import TypedScript.Proofs.Text.Lines

set_option autoImplicit false

/-!
Reading back a text that has been written. The bytes are those of the text, but
newlines are unified when they are read and not when they are written, so what
comes back is the text itself only if it has no carriage return.
-/

namespace TypedScript

namespace Text

/-- The text with every occurrence of a pattern replaced, from the left. -/
def replaced (old new : Text) : Text → Text
  | [] => []
  | c :: rest =>
    if old.isPrefixOf (c :: rest) then new ++ replaced old new (rest.drop (old.length - 1))
    else c :: replaced old new rest
termination_by t => t.length
decreasing_by all_goals simp only [List.length_drop, List.length_cons]; omega

theorem replaced_nil (old new : Text) : replaced old new [] = [] := by rw [replaced]

theorem replaced_append {old : Text} (new rest : Text) (filled : old ≠ []) :
    replaced old new (old ++ rest) = new ++ replaced old new rest := by
  obtain ⟨c, more, rfl⟩ := List.exists_cons_of_ne_nil filled
  have matched : List.isPrefixOf (c :: more) (c :: (more ++ rest)) = true := by simp
  rw [List.cons_append, replaced, if_pos matched, List.length_cons, Nat.add_sub_cancel,
    List.drop_left]

theorem replaced_cons {old : Text} (new : Text) {c : Char} {rest : Text}
    (other : ¬ old <+: c :: rest) : replaced old new (c :: rest) = c :: replaced old new rest := by
  rw [replaced, if_neg (by simpa using other)]

/-- Newlines are unified in two steps: pairs first, then the carriage returns that are left. -/
theorem unifyNewlines_eq_replaced (t : Text) :
    unifyNewlines t = replaced ['\r'] ['\n'] (replaced ['\r', '\n'] ['\n'] t) := by
  fun_induction unifyNewlines t with
  | case1 => rw [replaced_nil, replaced_nil]
  | case2 rest ih =>
    have pair := replaced_append ['\n'] rest (show ['\r', '\n'] ≠ [] by simp)
    have other : ¬ ['\r'] <+: '\n' :: replaced ['\r', '\n'] ['\n'] rest := by simp
    rw [List.cons_append, List.singleton_append, List.singleton_append] at pair
    rw [pair, replaced_cons _ other, ih]
  | case3 c rest noPair ih =>
    have single : ¬ ['\r', '\n'] <+: c :: rest := by
      rintro ⟨tail, split⟩
      obtain ⟨rfl, rfl⟩ := List.cons.inj split
      exact noPair tail rfl rfl
    rw [replaced_cons _ single, ih]
    by_cases isReturn : c = '\r'
    · subst isReturn
      have lone := replaced_append ['\n'] (replaced ['\r', '\n'] ['\n'] rest)
        (show ['\r'] ≠ [] by simp)
      rw [List.singleton_append, List.singleton_append] at lone
      rw [lone, if_pos rfl]
    · rw [if_neg isReturn, replaced_cons]
      simpa using Ne.symm isReturn

theorem return_not_mem_unifyNewlines (t : Text) : '\r' ∉ unifyNewlines t := by
  fun_induction unifyNewlines t with
  | case1 => simp
  | case2 rest ih => simpa using ih
  | case3 c rest _ ih =>
    split
    · simpa using ih
    next other => simpa [Ne.symm other] using ih

theorem unifyNewlines_eq_self_iff (t : Text) : unifyNewlines t = t ↔ '\r' ∉ t := by
  constructor
  · intro same
    rw [← same]
    exact return_not_mem_unifyNewlines t
  · intro free
    fun_induction unifyNewlines t with
    | case1 => rfl
    | case2 rest => simp at free
    | case3 c rest _ ih =>
      simp only [List.mem_cons, not_or] at free
      rw [if_neg (Ne.symm free.1), ih free.2]

end Text

namespace Action

/-- A text that has been written is read back from the same path with unified newlines. It is the
text itself exactly if there is no carriage return in it. -/
theorem readText_writeText {path : Path} {t : Text} {s after : Session}
    (written : writeText path t s = (.ok (), after)) :
    let unified := Text.replaced ['\r'] ['\n'] (Text.replaced ['\r', '\n'] ['\n'] t)
    readText path after = (.ok unified, after) ∧ (unified = t ↔ '\r' ∉ t) := by
  intro unified
  have same : Text.unifyNewlines t = unified := Text.unifyNewlines_eq_replaced t
  rcases writeText_cases path t s with ⟨made, e, -, -, -, stopped⟩ | ⟨files, clean, stored, -, done⟩
  · cases (Prod.mk.inj (stopped.symm.trans written)).1
  · obtain rfl := (Prod.mk.inj (done.symm.trans written)).2
    refine ⟨?_, same ▸ Text.unifyNewlines_eq_self_iff t⟩
    rw [readText_apply, FileTree.textAt, if_neg clean]
    simp only [stored.readFile, Encoding.decode_encode, same]

/-- A pair, a lone carriage return and a character of four bytes, in a directory that is made. -/
theorem readText_writeText_returns :
    ∃ after, writeText (Path.ofText "lib/a.ds".toList) "x\r\ny\r𝕏".toList
        (Build.holding "a.ds" "") = (.ok (), after) ∧
      readText (Path.ofText "lib/a.ds".toList) after = (.ok "x\ny\n𝕏".toList, after) := by
  have written : writeText (Path.ofText "lib/a.ds".toList) "x\r\ny\r𝕏".toList
      (Build.holding "a.ds" "") = (.ok (), (writeText (Path.ofText "lib/a.ds".toList)
        "x\r\ny\r𝕏".toList (Build.holding "a.ds" "")).2) := rfl
  have unified : Text.replaced ['\r'] ['\n'] (Text.replaced ['\r', '\n'] ['\n'] "x\r\ny\r𝕏".toList) =
      "x\ny\n𝕏".toList := by decide +kernel
  refine ⟨_, written, ?_⟩
  rw [(readText_writeText written).1, unified]

end Action
end TypedScript
