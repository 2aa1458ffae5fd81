import TypedScript.Proofs.Check.Faults
import TypedScript.Proofs.Lowering.Idempotence
import TypedScript.Proofs.Lowering.Linewise
import TypedScript.Proofs.Text.Lines
import TypedScript.Proofs.Token.Spelling

set_option autoImplicit false

/-!
The words that lines begin with. A line that is recognised by its first word has
that word among the words of the text it stands in. Lowering leaves no `fn` and
no `mut` there, so the checker sees neither a header nor a mutable declaration in
a lowered text, and no return in it is at fault.
-/

namespace TypedScript

namespace Lowering

theorem headD_begin (c : Char) (ls : List Text) :
    (Text.begin c ls).headD [] = c :: ls.headD [] := by cases ls <;> rfl

theorem tail_begin (c : Char) (ls : List Text) : (Text.begin c ls).tail = ls.tail := by
  cases ls <;> rfl

theorem headWord_eq_headD (t : Text) : headWord t = headWord ((Text.lines t).headD []) := by
  induction t using Text.breakRec with
  | nil => rfl
  | pair rest =>
    rw [Text.lines_pair]
    exact headWord_cons_of_not_word _ (by decide)
  | single c rest breaks single =>
    rw [Text.lines_break breaks single]
    exact headWord_cons_of_not_word rest (isWordChar_eq_false_of_isLineBreak breaks)
  | inside c rest inside ih =>
    rw [Text.lines_begin inside, headD_begin]
    by_cases word : isWordChar c = true
    · rw [headWord_cons_of_word _ word, headWord_cons_of_word _ word, ih]
    · rw [headWord_cons_of_not_word _ (by simpa using word),
        headWord_cons_of_not_word _ (by simpa using word)]

theorem flatMap_wordsOf (ls : List Text) :
    wordsOf (ls.headD []) ++ ls.tail.flatMap wordsOf = ls.flatMap wordsOf := by cases ls <;> rfl

/-- A word may have begun before the first line, and before none of the others. -/
theorem wordsFrom_eq_flatMap (inside : Bool) (t : Text) :
    wordsFrom inside t =
      wordsFrom inside ((Text.lines t).headD []) ++ (Text.lines t).tail.flatMap wordsOf := by
  induction t using Text.breakRec generalizing inside with
  | nil => rfl
  | pair rest ih =>
    have skipped : wordsFrom inside (['\r', '\n'] ++ rest) = wordsFrom false rest :=
      wordsFrom_borders inside rest (by simp) (forall_mem_of_all (by decide))
    rw [Text.lines_pair]
    exact skipped.trans ((ih false).trans (flatMap_wordsOf _))
  | single c rest breaks single ih =>
    have skipped : wordsFrom inside ([c] ++ rest) = wordsFrom false rest :=
      wordsFrom_borders inside rest (by simp)
        (by simpa using isWordChar_eq_false_of_isLineBreak breaks)
    rw [Text.lines_break breaks single]
    exact skipped.trans ((ih false).trans (flatMap_wordsOf _))
  | inside c rest noBreak ih =>
    have head := headWord_eq_headD (c :: rest)
    rw [Text.lines_begin noBreak, headD_begin] at head ⊢
    rw [tail_begin, wordsFrom, wordsFrom, head, ih true, ih false]
    split
    · split <;> rfl
    · rfl

theorem wordsOf_eq_flatMap (t : Text) : wordsOf t = (Text.lines t).flatMap wordsOf :=
  (wordsFrom_eq_flatMap false t).trans (flatMap_wordsOf _)

theorem wordsOf_trim (t : Text) : wordsOf (Text.trim t) = wordsOf t := by
  obtain ⟨lead, trail, split, leadBlank, trailBlank⟩ := Text.exists_trim_split t
  have front : wordsOf t = wordsOf (Text.trim t ++ trail) := by
    have skipped := wordsOf_borders (Text.trim t ++ trail) (border_of_blank leadBlank)
    rwa [← split] at skipped
  have back : wordsOf (Text.trim t ++ trail) = wordsOf (Text.trim t) ++ wordsOf trail :=
    wordsFrom_append false false _ (wordEnds_of_blank trailBlank)
  rw [front, back, wordsOf_of_blank trailBlank, List.append_nil]

theorem wordEnds_of_nameEnds {t : Text} (ends : Token.NameEnds t) : wordEnds t = true := by
  cases t with
  | nil => rfl
  | cons c rest =>
    apply wordEnds_cons.mpr
    by_contra word
    have part := isIdentPart_of_isWordChar (by simpa using word)
    simp [Token.nameEnds_cons.mp ends] at part

/-- A keyword that is the first token of a text is one of its words. -/
theorem mem_wordsOf_of_tokenize {line : Int} {t w : Text} {opening : Token} {rest : List Token}
    (read : tokenize line t = opening :: rest) (isWord : Token.isWordKind opening.kind = true)
    (keyword : ∀ v, Token.wordKind v = opening.kind → v = w)
    (spelled : ∀ c ∈ w, isWordChar c = true) : w ∈ wordsOf t := by
  have real : opening.kind ≠ .eof := by
    intro isEnd
    simp [isEnd, Token.isWordKind] at isWord
  obtain ⟨gap, behind, blank, rfl, leads, -⟩ := (Token.tokensFrom_eq_cons_iff real).mp read
  obtain ⟨isName, ends, kind⟩ := leads.isName isWord
  rw [keyword _ kind] at isName ⊢
  rw [wordsOf_borders _ (border_of_blank blank),
    wordsOf_word_append spelled isName.ne_nil (wordEnds_of_nameEnds ends)]
  exact List.mem_cons_self

theorem isWordChar_of_mem_word {b : Binding} {c : Char} (membership : c ∈ b.word) :
    isWordChar c = true := by
  have letters : b.word.all isWordChar = true := by cases b <;> decide
  exact List.all_eq_true.mp letters c membership

theorem word_mem_wordsOf_of_classify {line : Int} {t : Text} {d : Declaration}
    (found : Line.classify line t = some (.declaration d)) : d.binding.word ∈ wordsOf t := by
  rw [← wordsOf_trim]
  cases Line.describes_of_classify found with
  | @declaration opening name colon assign tokens rest b union behind value read isBinding =>
    have isWord : Token.isWordKind opening.kind = true := by rw [isBinding]; rfl
    apply mem_wordsOf_of_tokenize read isWord
    · intro v kind
      exact Token.wordKind_eq_binding_iff.mp (kind.trans isBinding)
    · exact fun _ => isWordChar_of_mem_word

theorem fn_mem_wordsOf_of_classify {line : Int} {t : Text} {h : Header}
    (found : Line.classify line t = some (.header h)) : ['f', 'n'] ∈ wordsOf t := by
  rw [← wordsOf_trim]
  cases Line.describes_of_classify found with
  | @header opening name lparen rparen tokens rest ps result read isFunction =>
    have isWord : Token.isWordKind opening.kind = true := by rw [isFunction]; rfl
    apply mem_wordsOf_of_tokenize read isWord
    · intro v kind
      exact Token.eq_of_wordKind_fn (kind.trans isFunction)
    · exact function_replaces.spelled

/-- A line of a lowered text is neither a header nor a mutable declaration. -/
theorem classify_lower {source t : Text} (membership : t ∈ Text.lines (lower source)) (line : Int) :
    (∀ h, Line.classify line t ≠ some (.header h)) ∧
      ∀ d, Line.classify line t = some (.declaration d) → d.binding ≠ .mutable := by
  have words : ∀ {w}, w ∈ wordsOf t → w ∈ wordsOf (lower source) := by
    intro w found
    rw [wordsOf_eq_flatMap]
    exact List.mem_flatMap.mpr ⟨t, membership, found⟩
  constructor
  · intro h found
    exact fn_not_mem_wordsOf_lower source (words (fn_mem_wordsOf_of_classify found))
  · intro d found isMutable
    have word := word_mem_wordsOf_of_classify found
    rw [isMutable] at word
    exact mut_not_mem_wordsOf_lower source (words word)

end Lowering

/-- The checker sees neither a header nor a mutable declaration in a lowered text, so it finds no
fault with what is returned there. -/
theorem check_lower_unreturned (source : Text) :
    (∀ t ∈ Text.lines (lower source), ∀ line : Int,
        (∀ h, Line.classify line t ≠ some (.header h)) ∧
          ∀ d, Line.classify line t = some (.declaration d) → d.binding ≠ .mutable) ∧
      ∀ m ∈ (check (lower source)).mismatches, m.kind ≠ .returned := by
  refine ⟨fun t membership line => Lowering.classify_lower membership line, ?_⟩
  intro m membership
  rw [Check.check_mismatches] at membership
  obtain ⟨place, fault⟩ := (Check.mem_announced_iff _ m).mp membership
  cases fault with
  | assigned => simp
  | returned _ _ isOpen =>
    obtain ⟨opened, -, header, -⟩ := isOpen
    obtain ⟨t, found, recognised⟩ := Option.bind_eq_some_iff.mp header
    have inside : t ∈ Text.lines (lower source) := List.mem_of_getElem? found
    exact absurd recognised ((Lowering.classify_lower inside _).1 _)

/-- The fault of the return is gone with the header, and that of the declaration stays. -/
theorem check_lower_unreturned_header :
    (check "fn f(): string\nmut x: int = 1\nreturn 2".toList).mismatches =
        [⟨2, ['x'], "int".toList, .number, .assigned⟩, ⟨3, ['f'], "string".toList, .number, .returned⟩] ∧
      "function f()".toList ∈ Text.lines (lower "fn f(): string\nmut x: int = 1\nreturn 2".toList) ∧
      (∀ h, Line.classify 1 "function f()".toList ≠ some (.header h)) ∧
      ⟨2, ['x'], "int".toList, .number, .assigned⟩ ∈
        (check (lower "fn f(): string\nmut x: int = 1\nreturn 2".toList)).mismatches ∧
      MismatchKind.assigned ≠ .returned := by
  have lowered := check_lower_unreturned "fn f(): string\nmut x: int = 1\nreturn 2".toList
  have inside : "function f()".toList ∈
      Text.lines (lower "fn f(): string\nmut x: int = 1\nreturn 2".toList) := by decide +kernel
  have found : ⟨2, ['x'], "int".toList, .number, .assigned⟩ ∈
      (check (lower "fn f(): string\nmut x: int = 1\nreturn 2".toList)).mismatches := by
    decide +kernel
  exact ⟨by decide +kernel, inside, (lowered.1 _ inside 1).1, found, lowered.2 _ found⟩

end TypedScript
