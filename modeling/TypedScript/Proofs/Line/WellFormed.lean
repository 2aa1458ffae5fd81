import TypedScript.Proofs.Line.Recognition
import TypedScript.Proofs.Text.Margin
import TypedScript.Proofs.Token.Spelling

set_option autoImplicit false

/-!
What the record of a line can be. Its names are identifiers, its unions have a
name at least, and its expression has no blanks at its ends.
-/

namespace TypedScript

def TypeUnion.WellFormed (union : TypeUnion) : Prop :=
  union.names ≠ [] ∧ ∀ name ∈ union.names, Token.IsIdent name

def Parameter.WellFormed (p : Parameter) : Prop :=
  Token.IsIdent p.name ∧ ∀ union ∈ p.declared, union.WellFormed

namespace Line

open Token

/-- The records of a line that can be written. -/
inductive WellFormed (line : Int) : LineRecord → Prop
  | close : WellFormed line (.close line)
  | returns {value : Text} : Text.Flush value → WellFormed line (.returns value line)
  | declaration {b : Binding} {name value : Text} {union : TypeUnion} :
      IsIdent name → union.WellFormed → Text.Flush value → value ≠ [] →
      WellFormed line (.declaration ⟨b, name, union, value, line⟩)
  | header {name : Text} {ps : List Parameter} {result : Option TypeUnion} :
      IsIdent name → (∀ p ∈ ps, p.WellFormed) → (∀ union ∈ result, union.WellFormed) →
      WellFormed line (.header ⟨name, ps, result, line⟩)

/-- Tokens whose names are identifiers. -/
def Idents (tokens : List Token) : Prop := ∀ token ∈ tokens, token.kind = .ident → IsIdent token.text

theorem idents_tokenize (line : Int) (t : Text) : Idents (tokenize line t) :=
  fun _ membership kind => isIdent_of_mem membership kind

theorem Idents.mono {tokens others : List Token} (idents : Idents tokens)
    (inside : others ⊆ tokens) : Idents others :=
  fun token membership => idents token (inside membership)

theorem SpellsMoreNames.isIdent {tokens : List Token} {names : List Text}
    (spelled : SpellsMoreNames tokens names) (idents : Idents tokens) :
    ∀ name ∈ names, IsIdent name := by
  induction spelled with
  | nil => simp
  | @cons bar first tokens names _ isName _ ih =>
    intro name membership
    rcases List.mem_cons.mp membership with rfl | later
    · exact idents first (by simp) isName
    · exact ih (idents.mono (by simp)) name later

theorem SpellsUnion.wellFormed {tokens : List Token} {union : TypeUnion}
    (spelled : SpellsUnion tokens union) (idents : Idents tokens) : union.WellFormed := by
  obtain ⟨isName, more⟩ := spelled
  refine ⟨by simp, ?_⟩
  intro name membership
  rcases List.mem_cons.mp membership with rfl | later
  · exact idents _ (by simp) isName
  · exact more.isIdent (idents.mono (by simp)) name later

theorem SpellsParameter.wellFormed {tokens : List Token} {p : Parameter}
    (spelled : SpellsParameter tokens p) (idents : Idents tokens) : p.WellFormed := by
  obtain ⟨isName, typed⟩ := spelled
  refine ⟨idents _ (by simp) isName, ?_⟩
  intro union declared
  cases typed with
  | absent => cases declared
  | present _ spelledUnion =>
    cases declared
    exact spelledUnion.wellFormed (idents.mono (by simp))

theorem SpellsMoreParameters.wellFormed {tokens : List Token} {more : List Parameter}
    (spelled : SpellsMoreParameters tokens more) (idents : Idents tokens) :
    ∀ p ∈ more, p.WellFormed := by
  induction spelled with
  | nil => simp
  | cons _ first _ ih =>
    intro p membership
    rcases List.mem_cons.mp membership with rfl | later
    · exact first.wellFormed (idents.mono (by simp))
    · exact ih (idents.mono (by simp)) p later

theorem SpellsParameters.wellFormed {tokens : List Token} {ps : List Parameter}
    (spelled : SpellsParameters tokens ps) (idents : Idents tokens) : ∀ p ∈ ps, p.WellFormed := by
  cases spelled with
  | none => simp
  | some first others =>
    intro p membership
    rcases List.mem_cons.mp membership with rfl | later
    · exact first.wellFormed (idents.mono (by simp))
    · exact others.wellFormed (idents.mono (by simp)) p later

theorem SpellsResult.wellFormed {tokens : List Token} {result : Option TypeUnion}
    (spelled : SpellsResult tokens result) (idents : Idents tokens) :
    ∀ union ∈ result, union.WellFormed := by
  cases spelled with
  | absent => simp
  | present _ spelledUnion _ =>
    intro union declared
    cases declared
    exact spelledUnion.wellFormed (idents.mono (by simp))

theorem SpellsValue.flush {behind value : Text} (spelled : SpellsValue behind value) :
    Text.Flush value := by
  have flush := Text.flush_trim behind
  cases spelled with
  | plain => exact flush
  | @terminated body split =>
    apply Text.flush_trimEnd
    intro c first
    apply flush.1 c
    rw [split, List.head?_append, Option.mem_def.mp first]
    rfl

theorem wellFormed_of_describes {line : Int} {t : Text} {record : LineRecord}
    (described : Describes line t record) : WellFormed line record := by
  have idents := idents_tokenize line t
  cases described with
  | close => exact .close
  | returns _ _ _ value => exact .returns value.flush
  | declaration read _ isName _ spelled _ _ value filled =>
    rw [read] at idents
    have union := spelled.wellFormed (idents.mono fun _ inside => by simp [inside])
    exact .declaration (idents _ (by simp) isName) union value.flush filled
  | header read _ isName _ spelled _ resulted =>
    rw [read] at idents
    have ps := spelled.wellFormed (idents.mono fun _ inside => by simp [inside])
    have result := resulted.wellFormed (idents.mono fun _ inside => by simp [inside])
    exact .header (idents _ (by simp) isName) ps result

end Line
end TypedScript
