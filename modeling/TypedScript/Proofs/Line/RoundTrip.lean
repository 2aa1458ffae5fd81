import Mathlib.Data.List.Basic
import TypedScript.Proofs.Line.Layout
import TypedScript.Proofs.Line.WellFormed

set_option autoImplicit false

/-!
Writing a record as a line and reading it back. The parts of a well formed
record are read as the tokens that spell them, whatever stands behind, and so the
written line is recognised as the record.
-/

namespace TypedScript

theorem Text.join_cons_eq_append (separator piece : Text) (more : List Text) :
    Text.join separator (piece :: more) = piece ++ more.flatMap (separator ++ ·) := by
  induction more generalizing piece with
  | nil => simp
  | cons next more ih => rw [Text.join_cons _ _ (List.cons_ne_nil _ _), ih]; simp

namespace Line

open Token

variable {line : Int} {behind : Text}

theorem tokensFrom_ident (start : Nat) {w : Text} (ident : IsIdent w) (ends : NameEnds behind) :
    tokensFrom line start (w ++ behind) =
      ⟨.ident, w, line, start⟩ :: tokensFrom line (start + w.length) behind :=
  tokensFrom_leads line start (ident.leads ends)

theorem tokensFrom_mark (start : Nat) {d : Char} {kind : TokenKind}
    (mark : punctuation? d = some kind) :
    tokensFrom line start (d :: behind) =
      ⟨kind, [d], line, start⟩ :: tokensFrom line (start + 1) behind :=
  tokensFrom_leads line start (leads_mark mark behind)

theorem tokensFrom_space (start : Nat) :
    tokensFrom line start (' ' :: behind) = tokensFrom line (start + 1) behind := by
  have blank : ∀ c ∈ [' '], isBlank c = true := List.all_eq_true.mp (by decide)
  exact tokensFrom_blanks line start behind blank

/-- In front of `behind` the text is read as tokens with the given property. -/
def Writes (line : Int) (t behind : Text) (P : List Token → Prop) : Prop :=
  ∀ start, ∃ tokens, P tokens ∧
    tokensFrom line start (t ++ behind) = tokens ++ tokensFrom line (start + t.length) behind

/-- The names behind the first one of a union. -/
def barred (names : List Text) : Text := names.flatMap (['|'] ++ ·)

theorem barred_cons (name : Text) (names : List Text) :
    barred (name :: names) = '|' :: (name ++ barred names) := by simp [barred]

theorem union_text_cons (name : Text) (names : List Text) :
    TypeUnion.text ⟨name :: names⟩ = name ++ barred names := Text.join_cons_eq_append ['|'] name names

theorem nameEnds_barred {names : List Text} (ends : NameEnds behind) :
    NameEnds (barred names ++ behind) := by
  cases names with
  | nil => exact ends
  | cons name names =>
    rw [barred_cons]
    exact nameEnds_cons.mpr (by decide)

theorem writes_moreNames {names : List Text} (idents : ∀ name ∈ names, IsIdent name)
    (ends : NameEnds behind) : Writes line (barred names) behind (SpellsMoreNames · names) := by
  induction names with
  | nil => exact fun start => ⟨[], .nil, rfl⟩
  | cons name names ih =>
    intro start
    have ident := idents name (by simp)
    have others : ∀ other ∈ names, IsIdent other := fun other membership =>
      idents other (List.mem_cons_of_mem name membership)
    obtain ⟨tokens, spelled, read⟩ := ih others (start + 1 + name.length)
    have more : SpellsMoreNames
        (⟨.pipe, ['|'], line, start⟩ :: ⟨.ident, name, line, start + 1⟩ :: tokens)
        (name :: names) := .cons rfl rfl spelled
    refine ⟨_, more, ?_⟩
    rw [barred_cons, List.cons_append, List.append_assoc, tokensFrom_mark start rfl,
      tokensFrom_ident _ ident (nameEnds_barred ends), read]
    simp only [List.cons_append, List.length_cons, List.length_append]
    congr 4
    omega

theorem writes_union {union : TypeUnion} (formed : union.WellFormed) (ends : NameEnds behind) :
    Writes line union.text behind (SpellsUnion · union) := by
  intro start
  obtain ⟨filled, idents⟩ := formed
  obtain ⟨names⟩ := union
  cases names with
  | nil => exact absurd rfl filled
  | cons name names =>
    have ident := idents name (by simp)
    have others : ∀ other ∈ names, IsIdent other := fun other membership =>
      idents other (List.mem_cons_of_mem name membership)
    obtain ⟨tokens, spelled, read⟩ := writes_moreNames others ends (start + name.length)
    have whole : SpellsUnion (⟨.ident, name, line, start⟩ :: tokens) ⟨name :: names⟩ :=
      .intro rfl spelled
    refine ⟨_, whole, ?_⟩
    rw [union_text_cons, List.append_assoc, tokensFrom_ident _ ident (nameEnds_barred ends), read,
      List.length_append, Nat.add_assoc]
    rfl

theorem writes_parameter {p : Parameter} (formed : p.WellFormed) (ends : NameEnds behind) :
    Writes line p.render behind (SpellsParameter · p) := by
  intro start
  obtain ⟨ident, unions⟩ := formed
  obtain ⟨name, declared⟩ := p
  cases declared with
  | none =>
    have alone : SpellsParameter [⟨.ident, name, line, start⟩] ⟨name, none⟩ := .intro rfl .absent
    exact ⟨_, alone, tokensFrom_ident start ident ends⟩
  | some union =>
    obtain ⟨tokens, spelled, read⟩ :=
      writes_union (unions union rfl) ends (start + name.length + 1 + 1)
    have typed : SpellsParameter
        (⟨.ident, name, line, start⟩ :: ⟨.colon, [':'], line, start + name.length⟩ :: tokens)
        ⟨name, some union⟩ := .intro rfl (.present rfl spelled)
    have colonEnds : NameEnds (':' :: ' ' :: (union.text ++ behind)) := nameEnds_cons.mpr (by decide)
    have text : Parameter.render ⟨name, some union⟩ ++ behind =
        name ++ ':' :: ' ' :: (union.text ++ behind) := by simp [Parameter.render]
    refine ⟨_, typed, ?_⟩
    rw [text, tokensFrom_ident _ ident colonEnds, tokensFrom_mark _ rfl, tokensFrom_space, read]
    simp only [Parameter.render, List.cons_append, List.length_cons, List.length_append,
      List.length_nil]
    congr 4
    omega

/-- The parameters behind the first one of a list. -/
def listed (more : List Parameter) : Text := (more.map Parameter.render).flatMap ([',', ' '] ++ ·)

theorem listed_cons (p : Parameter) (more : List Parameter) :
    listed (p :: more) = ',' :: ' ' :: (p.render ++ listed more) := by simp [listed]

theorem nameEnds_listed {more : List Parameter} (ends : NameEnds behind) :
    NameEnds (listed more ++ behind) := by
  cases more with
  | nil => exact ends
  | cons p more =>
    rw [listed_cons]
    exact nameEnds_cons.mpr (by decide)

theorem writes_moreParameters {more : List Parameter} (formed : ∀ p ∈ more, p.WellFormed)
    (ends : NameEnds behind) : Writes line (listed more) behind (SpellsMoreParameters · more) := by
  induction more with
  | nil => exact fun start => ⟨[], .nil, rfl⟩
  | cons p more ih =>
    intro start
    have others : ∀ other ∈ more, other.WellFormed := fun other membership =>
      formed other (List.mem_cons_of_mem p membership)
    obtain ⟨first, spelled, readFirst⟩ :=
      writes_parameter (formed p (by simp)) (nameEnds_listed ends) (start + 1 + 1)
    obtain ⟨rest, further, readRest⟩ := ih others (start + 1 + 1 + p.render.length)
    have whole : SpellsMoreParameters (⟨.comma, [','], line, start⟩ :: (first ++ rest)) (p :: more) :=
      .cons rfl spelled further
    refine ⟨_, whole, ?_⟩
    rw [listed_cons, List.cons_append, List.cons_append, List.append_assoc, tokensFrom_mark start rfl,
      tokensFrom_space, readFirst, readRest]
    simp only [List.cons_append, List.append_assoc, List.length_cons, List.length_append]
    congr 4
    omega

theorem writes_parameters {ps : List Parameter} (formed : ∀ p ∈ ps, p.WellFormed)
    (ends : NameEnds behind) :
    Writes line (Text.join [',', ' '] (ps.map Parameter.render)) behind (SpellsParameters · ps) := by
  intro start
  cases ps with
  | nil => exact ⟨[], .none, rfl⟩
  | cons p more =>
    have others : ∀ other ∈ more, other.WellFormed := fun other membership =>
      formed other (List.mem_cons_of_mem p membership)
    obtain ⟨first, spelled, readFirst⟩ :=
      writes_parameter (formed p (by simp)) (nameEnds_listed ends) start
    obtain ⟨rest, further, readRest⟩ := writes_moreParameters others ends (start + p.render.length)
    have text : Text.join [',', ' '] ((p :: more).map Parameter.render) = p.render ++ listed more :=
      Text.join_cons_eq_append _ _ _
    refine ⟨first ++ rest, .some spelled further, ?_⟩
    rw [text, List.append_assoc, readFirst, readRest, List.length_append, List.append_assoc,
      Nat.add_assoc]

/-- What is written behind the parameters. -/
def resultText : Option TypeUnion → Text
  | none => []
  | some union => [':', ' '] ++ union.text

theorem spellsResult_resultText {result : Option TypeUnion}
    (formed : ∀ union ∈ result, union.WellFormed) (start : Nat) :
    SpellsResult (tokensFrom line start (resultText result)) result := by
  cases result with
  | none =>
    rw [resultText, tokensFrom_nil]
    exact .absent (by simp)
  | some union =>
    have ends : NameEnds [] := by simp [NameEnds]
    obtain ⟨tokens, spelled, read⟩ := writes_union (formed union rfl) ends (start + 1 + 1)
    have text : resultText (some union) = ':' :: ' ' :: (union.text ++ []) := by simp [resultText]
    rw [text, tokensFrom_mark start rfl, tokensFrom_space, read, tokensFrom_nil]
    exact .present rfl spelled (by simp)

/-- A line begins with a word and a space behind it. -/
theorem tokenize_opening {w : Text} (name : IsName w) :
    tokenize line (w ++ ' ' :: behind) =
      ⟨wordKind w, w, line, 0⟩ :: tokensFrom line (w.length + 1) behind := by
  have ends : NameEnds (' ' :: behind) := nameEnds_cons.mpr (by decide)
  rw [tokenize, tokensFrom_leads line 0 (name.leads ends), tokensFrom_space, Nat.zero_add]

/-- The space and the semicolon around a written expression are not part of it. -/
theorem spellsValue_written {value : Text} (flush : Text.Flush value) :
    SpellsValue (' ' :: (value ++ [';'])) value := by
  have ended : Text.Flush (value ++ [';']) := by
    refine ⟨?_, by simp only [List.getLast?_concat, Option.mem_some_iff, forall_eq']; decide⟩
    cases value with
    | nil => simp only [List.nil_append, List.head?_cons, Option.mem_some_iff, forall_eq']; decide
    | cons c rest => simpa using flush.1
  have trimmed : Text.trim (' ' :: (value ++ [';'])) = value ++ [';'] := by
    rw [Text.trim, Text.trimStart_blank _ (by decide)]
    exact Text.trim_of_flush ended
  have spelled := SpellsValue.terminated trimmed
  rwa [Text.trimEnd_eq_self flush.2] at spelled

theorem describes_returns {value : Text} (flush : Text.Flush value) :
    Describes line (LineRecord.returns value line).render (.returns value line) := by
  have word : IsName ['r', 'e', 't', 'u', 'r', 'n'] :=
    ⟨'r', _, rfl, by decide, List.all_eq_true.mp (by decide)⟩
  have lies : Behind (LineRecord.returns value line).render
      ⟨.ret, ['r', 'e', 't', 'u', 'r', 'n'], line, 0⟩ (' ' :: (value ++ [';'])) := ⟨[], rfl, rfl⟩
  exact .returns (tokenize_opening word) rfl lies (spellsValue_written flush)

theorem describes_declaration {b : Binding} {name value : Text} {union : TypeUnion}
    (ident : IsIdent name) (formed : union.WellFormed) (flush : Text.Flush value)
    (filled : value ≠ []) :
    Describes line (Declaration.render ⟨b, name, union, value, line⟩)
      (.declaration ⟨b, name, union, value, line⟩) := by
  have text : Declaration.render ⟨b, name, union, value, line⟩ =
      b.word ++ ' ' :: (name ++ ' ' :: ':' :: ' ' :: (union.text ++
        ' ' :: '=' :: ' ' :: (value ++ [';']))) := by simp [Declaration.render]
  have whole : tokenize line (Declaration.render ⟨b, name, union, value, line⟩) =
      ⟨wordKind b.word, b.word, line, 0⟩ :: ⟨.ident, name, line, b.word.length + 1⟩ ::
        ⟨.colon, [':'], line, b.word.length + 1 + name.length + 1⟩ ::
          tokensFrom line (b.word.length + 1 + name.length + 1 + 1 + 1)
            (union.text ++ ' ' :: '=' :: ' ' :: (value ++ [';'])) := by
    rw [text, tokenize_opening (isName_word b),
      tokensFrom_ident _ ident (nameEnds_cons.mpr (by decide)), tokensFrom_space,
      tokensFrom_mark _ rfl, tokensFrom_space]
  have written : Writes line union.text (' ' :: '=' :: ' ' :: (value ++ [';']))
      (SpellsUnion · union) := writes_union formed (nameEnds_cons.mpr (by decide))
  have assigns : Leads .assign ['='] (' ' :: (value ++ [';'])) :=
    leads_assign_iff.mpr ⟨rfl, by simp, by simp⟩
  obtain ⟨tokens, spelled, read⟩ := written (b.word.length + 1 + name.length + 1 + 1 + 1)
  have assigned := tokensFrom_leads line
    (b.word.length + 1 + name.length + 1 + 1 + 1 + union.text.length + 1) assigns
  rw [List.singleton_append] at assigned
  rw [read, tokensFrom_space, assigned] at whole
  have lies : Behind (Declaration.render ⟨b, name, union, value, line⟩)
      ⟨.assign, ['='], line, b.word.length + 1 + name.length + 1 + 1 + 1 + union.text.length + 1⟩
      (' ' :: (value ++ [';'])) := by
    refine ⟨b.word ++ ' ' :: (name ++ ' ' :: ':' :: ' ' :: (union.text ++ [' '])), ?_, ?_⟩
    · rw [text]
      simp
    · simp only [List.length_append, List.length_cons, List.length_nil]
      omega
  exact .declaration whole (wordKind_eq_binding_iff.mpr rfl) rfl rfl spelled rfl lies
    (spellsValue_written flush) filled

theorem describes_header {name : Text} {ps : List Parameter} {result : Option TypeUnion}
    (ident : IsIdent name) (formed : ∀ p ∈ ps, p.WellFormed)
    (resultFormed : ∀ union ∈ result, union.WellFormed) :
    Describes line (Header.render ⟨name, ps, result, line⟩) (.header ⟨name, ps, result, line⟩) := by
  have word : IsName ['f', 'n'] := ⟨'f', _, rfl, by decide, List.all_eq_true.mp (by decide)⟩
  have text : Header.render ⟨name, ps, result, line⟩ = ['f', 'n'] ++ ' ' :: (name ++ '(' ::
      (Text.join [',', ' '] (ps.map Parameter.render) ++ ')' :: resultText result)) := by
    cases result <;> simp [Header.render, resultText]
  have whole : tokenize line (Header.render ⟨name, ps, result, line⟩) =
      ⟨.fn, ['f', 'n'], line, 0⟩ :: ⟨.ident, name, line, 3⟩ ::
        ⟨.lparen, ['('], line, 3 + name.length⟩ :: tokensFrom line (3 + name.length + 1)
          (Text.join [',', ' '] (ps.map Parameter.render) ++ ')' :: resultText result) := by
    rw [text, tokenize_opening word, tokensFrom_ident _ ident (nameEnds_cons.mpr (by decide)),
      tokensFrom_mark _ rfl]
    rfl
  have written : Writes line (Text.join [',', ' '] (ps.map Parameter.render))
      (')' :: resultText result) (SpellsParameters · ps) :=
    writes_parameters formed (nameEnds_cons.mpr (by decide))
  obtain ⟨tokens, spelled, read⟩ := written (3 + name.length + 1)
  rw [read, tokensFrom_mark _ rfl] at whole
  exact .header whole rfl rfl rfl spelled rfl (spellsResult_resultText resultFormed _)

/-- There is no blank in a written union. -/
theorem union_text_solid {union : TypeUnion} (formed : union.WellFormed) :
    union.text ≠ [] ∧ ∀ c ∈ union.text, isBlank c = false := by
  obtain ⟨filled, idents⟩ := formed
  obtain ⟨names⟩ := union
  obtain ⟨name, names, rfl⟩ := List.exists_cons_of_ne_nil filled
  have solid : ∀ w, IsIdent w → ∀ c ∈ w, isBlank c = false := fun w ident c membership =>
    isBlank_eq_false_of_isIdentPart (ident.1.isIdentPart membership)
  rw [union_text_cons]
  refine ⟨by simp [(idents name (by simp)).1.ne_nil], ?_⟩
  intro c membership
  rcases List.mem_append.mp membership with inFirst | later
  · exact solid name (idents name (by simp)) c inFirst
  · obtain ⟨other, isOther, inOther⟩ := List.mem_flatMap.mp later
    rcases List.mem_append.mp inOther with bar | inName
    · obtain rfl := List.mem_singleton.mp bar
      decide
    · exact solid other (idents other (by simp [isOther])) c inName

/-- A text has no blanks at its ends if there are none in its first and its last part. -/
theorem flush_between {x y : Text} (between : Text) (xFilled : x ≠ []) (yFilled : y ≠ [])
    (xSolid : ∀ c ∈ x, isBlank c = false) (ySolid : ∀ c ∈ y, isBlank c = false) :
    Text.Flush (x ++ (between ++ y)) := by
  constructor
  · intro c first
    rw [List.head?_append_of_ne_nil x xFilled] at first
    exact xSolid c (List.mem_of_head? first)
  · intro c last
    rw [← List.append_assoc, List.getLast?_append_of_ne_nil _ yFilled] at last
    exact ySolid c (List.mem_of_getLast? last)

theorem flush_render {record : LineRecord} (formed : WellFormed line record) :
    Text.Flush record.render := by
  cases formed with
  | close =>
    rw [LineRecord.render]
    exact Text.flush_of_solid (forall_mem_of_all (by decide))
  | @returns value =>
    have split : (LineRecord.returns value line).render =
        ['r', 'e', 't', 'u', 'r', 'n'] ++ ((' ' :: value) ++ [';']) := rfl
    rw [split]
    exact flush_between _ (by decide) (by decide) (forall_mem_of_all (by decide))
      (forall_mem_of_all (by decide))
  | @declaration b name value union =>
    have split : Declaration.render ⟨b, name, union, value, line⟩ =
        b.word ++ (([' '] ++ name ++ [' ', ':', ' '] ++ union.text ++ [' ', '=', ' '] ++ value) ++
          [';']) := by simp [Declaration.render]
    have solid : ∀ c ∈ b.word, isBlank c = false := fun c membership =>
      isBlank_eq_false_of_isIdentPart (isIdentPart_of_mem_word membership)
    rw [LineRecord.render, split]
    exact flush_between _ (isName_word b).ne_nil (by decide) solid (forall_mem_of_all (by decide))
  | @header name ps result _ _ formed =>
    have split : Header.render ⟨name, ps, result, line⟩ = ['f', 'n'] ++ (([' '] ++ name ++ ['('] ++
        Text.join [',', ' '] (ps.map Parameter.render)) ++ (')' :: resultText result)) := by
      cases result <;> simp [Header.render, resultText]
    rw [LineRecord.render, split]
    have opening : ∀ c ∈ ['f', 'n'], isBlank c = false := forall_mem_of_all (by decide)
    cases result with
    | none => exact flush_between _ (by decide) (by decide) opening (forall_mem_of_all (by decide))
    | some union =>
      obtain ⟨filled, solid⟩ := union_text_solid (formed union rfl)
      have tail : ')' :: resultText (some union) = [')', ':', ' '] ++ union.text := rfl
      rw [tail, ← List.append_assoc _ [')', ':', ' ']]
      exact flush_between _ (by decide) filled opening solid

theorem describes_render {record : LineRecord} (formed : WellFormed line record) :
    Describes line record.render record := by
  cases formed with
  | close => exact .close rfl
  | returns flush => exact describes_returns flush
  | declaration ident union flush filled => exact describes_declaration ident union flush filled
  | header ident ps result => exact describes_header ident ps result

/-- A recognised record is recognised again in its written form. -/
theorem classify_render {line : Int} {text : Text} {record : LineRecord}
    (found : classify line text = some record) : classify line record.render = some record := by
  have formed := wellFormed_of_describes (describes_of_classify found)
  apply classify_of_describes
  rw [Text.trim_of_flush (flush_render formed)]
  exact describes_render formed

/-- One semicolon is taken off the expression, and the next one stays in it. -/
theorem classify_render_semicolons :
    classify 4 " const n:int|any=\"a = b;\" ; ;".toList = some (.declaration
        ⟨.constant, ['n'], ⟨["int".toList, "any".toList]⟩, "\"a = b;\" ;".toList, 4⟩) ∧
      classify 4 "const n : int|any = \"a = b;\" ;;".toList = some (.declaration
        ⟨.constant, ['n'], ⟨["int".toList, "any".toList]⟩, "\"a = b;\" ;".toList, 4⟩) := by
  have found : classify 4 " const n:int|any=\"a = b;\" ; ;".toList = some (.declaration
      ⟨.constant, ['n'], ⟨["int".toList, "any".toList]⟩, "\"a = b;\" ;".toList, 4⟩) := by
    decide +kernel
  exact ⟨found, classify_render found⟩

end Line
end TypedScript
