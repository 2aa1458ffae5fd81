import TypedScript.Proofs.Lowering.Erasure
import TypedScript.Proofs.Lowering.Idempotence
import TypedScript.Proofs.Token.Strings

set_option autoImplicit false

/-!
Strings in a text that is lowered. Lowering knows nothing of strings: it cuts a
text at every quote and lowers the pieces, inside a string as outside. The strings
stay as they are exactly if nothing stands in them that lowering replaces.
-/

namespace TypedScript.Lowering

open Token

theorem divides_of_isQuote {c : Char} (quoted : isQuote c = true) : divides c = true := by
  have all : ∀ c ∈ ['"', '\'', '\x60'], divides c = true := forall_mem_of_all (by decide)
  exact all c (isQuote_iff.mp quoted)

theorem unquoted_lower {t : Text} (unquoted : Unquoted t) : Unquoted (lower t) := by
  intro c membership
  by_contra quoted
  have dividing := divides_of_isQuote (by simpa using quoted)
  exact quoted (unquoted c (mem_of_mem_lower dividing membership))

/-- A closed string is lowered between its quotes. -/
theorem lower_closed_eq_iff {quote : Char} (dividing : divides quote = true) (inner : Text) :
    lower (quote :: (inner ++ [quote])) = quote :: (inner ++ [quote]) ↔ lower inner = inner := by
  rw [lower_cons dividing, lower_append_cons dividing, lower_nil]
  simp

/-- The strings of a text are found again in the lowered text if lowering leaves them alone. -/
theorem quotes_lower_iff {t : Text} {found : List Text} (quotes : Quotes t found) :
    Quotes (lower t) found ↔ ∀ v ∈ found, lower v = v := by
  induction quotes with
  | none unquoted => simpa using Quotes.none (unquoted_lower unquoted)
  | @closed x inner behind quote others free quoted content _ ih =>
    have dividing := divides_of_isQuote quoted
    rw [lower_append_cons dividing, lower_append_cons dividing,
      quotes_closed_iff (unquoted_lower free) quoted content, List.forall_mem_cons,
      lower_closed_eq_iff dividing, ← ih]
    constructor
    · rintro ⟨tail, split, later⟩
      -- Lowering keeps the quotes inside the string, so no other quote is taken for the closing one.
      obtain ⟨kept, rfl⟩ := append_cons_inj_of_count (count_lower dividing inner) split
      exact ⟨kept, later⟩
    · rintro ⟨kept, later⟩
      exact ⟨lower behind, by rw [kept], later⟩
  | @unclosed x rest quote free quoted unclosed =>
    have dividing := divides_of_isQuote quoted
    rw [lower_append_cons dividing, quotes_unclosed_iff (unquoted_lower free) quoted unclosed]
    simp [lower_cons dividing]

/-- Compiling leaves the strings of a line as they are exactly if nothing stands in them that
lowering replaces. -/
theorem strings_compiled_eq_iff {source out : Text} (compiled : (compile source).output = some out)
    (line : Int) :
    strings (tokenize line out) = strings (tokenize line source) ↔
      ∀ v ∈ strings (tokenize line source), Untouched v := by
  have quotes := strings_tokenize_eq_iff.mp (Eq.refl (strings (tokenize line source)))
  rw [output_eq_lower compiled, strings_tokenize_eq_iff, quotes_lower_iff quotes]
  simp only [lower_eq_self_iff]

/-- The words of this string only begin like `fn` and `number`. -/
theorem strings_compiled_eq_words :
    (compile "mut s: string = \"fns: numbers\"".toList).output =
        some "let s = \"fns: numbers\"".toList ∧
      ∀ v ∈ strings (tokenize 1 "mut s: string = \"fns: numbers\"".toList), Untouched v := by
  have compiled : (compile "mut s: string = \"fns: numbers\"".toList).output =
      some "let s = \"fns: numbers\"".toList := by decide +kernel
  exact ⟨compiled, (strings_compiled_eq_iff compiled 1).mp (by decide +kernel)⟩

/-- A word inside a string is replaced like any other. -/
theorem strings_compiled_ne :
    (∀ c ∈ "let s: string = \"mut\"".toList, isLineBreak c = false) ∧
      (compile "let s: string = \"mut\"".toList).output = some "let s = \"let\"".toList ∧
      strings (tokenize 1 "let s = \"let\"".toList) ≠
        strings (tokenize 1 "let s: string = \"mut\"".toList) :=
  ⟨forall_mem_of_all (by decide), by decide +kernel, by decide +kernel⟩

end TypedScript.Lowering
