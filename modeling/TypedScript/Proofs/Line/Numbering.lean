import TypedScript.Proofs.Line.Recognition

set_option autoImplicit false

/-!
The number of a line. It is written into the tokens and into the record of the
line and is not looked at, so a line further down has the same record but for
the number.
-/

namespace TypedScript

def Token.shift (n : Int) (token : Token) : Token := { token with line := token.line + n }

def Declaration.shift (n : Int) (d : Declaration) : Declaration := { d with line := d.line + n }

def Header.shift (n : Int) (h : Header) : Header := { h with line := h.line + n }

/-- The record of the same line, `n` lines further down. -/
def LineRecord.shift (n : Int) : LineRecord → LineRecord
  | .declaration d => .declaration (d.shift n)
  | .header h => .header (h.shift n)
  | .returns value line => .returns value (line + n)
  | .close line => .close (line + n)

namespace Token

@[simp] theorem shift_kind (n : Int) (token : Token) : (token.shift n).kind = token.kind := rfl

@[simp] theorem shift_text (n : Int) (token : Token) : (token.shift n).text = token.text := rfl

theorem tokensFrom_shift (n line : Int) (start : Nat) (t : Text) :
    tokensFrom (line + n) start t = (tokensFrom line start t).map (shift n) := by
  fun_induction tokensFrom line start t with
  | case1 => rw [tokensFrom_nil]; rfl
  | case2 start c rest blank ih => rw [tokensFrom, if_pos blank, ih]
  | case3 start c rest solid ih => rw [tokensFrom, if_neg solid, ih]; rfl

theorem Behind.shift {t behind : Text} {token : Token} (n : Int) (lies : Behind t token behind) :
    Behind t (token.shift n) behind := lies

end Token

namespace Line

open Token

theorem SpellsMoreNames.shift {tokens : List Token} {names : List Text} (n : Int)
    (spelled : SpellsMoreNames tokens names) :
    SpellsMoreNames (tokens.map (Token.shift n)) names := by
  induction spelled with
  | nil => exact .nil
  | cons isBar isName _ ih => exact .cons isBar isName ih

theorem SpellsUnion.shift {tokens : List Token} {union : TypeUnion} (n : Int)
    (spelled : SpellsUnion tokens union) : SpellsUnion (tokens.map (Token.shift n)) union := by
  obtain ⟨isName, more⟩ := spelled
  exact .intro isName (more.shift n)

theorem SpellsParameter.shift {tokens : List Token} {p : Parameter} (n : Int)
    (spelled : SpellsParameter tokens p) : SpellsParameter (tokens.map (Token.shift n)) p := by
  obtain ⟨isName, typed⟩ := spelled
  cases typed with
  | absent => exact .intro isName .absent
  | present isColon union => exact .intro isName (.present isColon (union.shift n))

theorem SpellsMoreParameters.shift {tokens : List Token} {more : List Parameter} (n : Int)
    (spelled : SpellsMoreParameters tokens more) :
    SpellsMoreParameters (tokens.map (Token.shift n)) more := by
  induction spelled with
  | nil => exact .nil
  | cons isComma first _ ih =>
    rw [List.map_cons, List.map_append]
    exact .cons isComma (first.shift n) ih

theorem SpellsParameters.shift {tokens : List Token} {ps : List Parameter} (n : Int)
    (spelled : SpellsParameters tokens ps) : SpellsParameters (tokens.map (Token.shift n)) ps := by
  cases spelled with
  | none => exact .none
  | some first more =>
    rw [List.map_append]
    exact .some (first.shift n) (more.shift n)

theorem SpellsResult.shift {tokens : List Token} {result : Option TypeUnion} (n : Int)
    (spelled : SpellsResult tokens result) : SpellsResult (tokens.map (Token.shift n)) result := by
  cases spelled with
  | absent noColon => exact .absent noColon
  | present isColon union noBar =>
    rw [List.map_cons, List.map_append]
    exact .present isColon (union.shift n) noBar

theorem Describes.shift {line : Int} {t : Text} {record : LineRecord} (n : Int)
    (described : Describes line t record) : Describes (line + n) t (record.shift n) := by
  have tokens := tokensFrom_shift n line 0 t
  rw [← tokenize, ← tokenize] at tokens
  cases described with
  | close brace => exact .close brace
  | returns read isReturn lies value =>
    rw [read] at tokens
    exact .returns tokens isReturn (lies.shift n) value
  | declaration read isBinding isName isColon union isAssign lies value filled =>
    rw [read] at tokens
    simp only [List.map_cons, List.map_append] at tokens
    have moved := Describes.declaration tokens isBinding isName isColon (union.shift n) isAssign
      (lies.shift n) value filled
    exact moved
  | header read isFunction isName isOpening ps isClosing result =>
    rw [read] at tokens
    simp only [List.map_cons, List.map_append] at tokens
    have moved := Describes.header tokens isFunction isName isOpening (ps.shift n) isClosing
      (result.shift n)
    exact moved

/-- A line has the same record further down, with the other number. -/
theorem classify_shift (n line : Int) (t : Text) :
    classify (line + n) t = (classify line t).map (LineRecord.shift n) := by
  cases found : classify line t with
  | some record => exact classify_of_describes ((describes_of_classify found).shift n)
  | none =>
    cases other : classify (line + n) t with
    | none => rfl
    | some record =>
      have back := (describes_of_classify other).shift (-n)
      rw [Int.add_neg_cancel_right] at back
      rw [classify_of_describes back] at found
      contradiction

end Line
end TypedScript
