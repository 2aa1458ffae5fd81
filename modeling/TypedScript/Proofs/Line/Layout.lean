import TypedScript.Proofs.Line.Recognition
import TypedScript.Proofs.Text.Margin
import TypedScript.Proofs.Token.Spelling

set_option autoImplicit false

/-!
How a declaration stands in its text: a word, a name, a colon, type names between
bars, and an equals sign, with blanks around them. A declaration without a colon
is read off a text in the same way.
-/

namespace TypedScript.Line

/-- The parts of a text that declares a name, up to the equals sign and the rest behind it. -/
structure Parts (b : Binding) (name : Text) where
  lead : Text
  gap : Text
  space : Text
  union : Text
  rest : Text
  lead_blank : ∀ c ∈ lead, isBlank c = true
  gap_blank : ∀ c ∈ gap, isBlank c = true
  gap_filled : gap ≠ []
  space_blank : ∀ c ∈ space, isBlank c = true
  isName : Token.IsName name
  isIdent : Token.wordKind name = .ident
  union_spelled : ∀ c ∈ union, isBlank c = true ∨ Token.isIdentPart c = true ∨ c = '|'

/-- The text in front of the colon. -/
def Parts.front {b : Binding} {name : Text} (parts : Parts b name) : Text :=
  parts.lead ++ (b.word ++ (parts.gap ++ (name ++ parts.space)))

def Parts.text {b : Binding} {name : Text} (parts : Parts b name) : Text :=
  parts.front ++ ':' :: (parts.union ++ '=' :: parts.rest)

theorem isIdentPart_of_mem_word {b : Binding} {c : Char} (membership : c ∈ b.word) :
    Token.isIdentPart c = true := by
  have letters : b.word.all Token.isIdentPart = true := by cases b <;> decide
  exact List.all_eq_true.mp letters c membership

theorem Parts.mem_front {b : Binding} {name : Text} (parts : Parts b name) {c : Char}
    (membership : c ∈ parts.front) : isBlank c = true ∨ Token.isIdentPart c = true := by
  simp only [Parts.front, List.mem_append] at membership
  rcases membership with inLead | inWord | inGap | inName | inSpace
  · exact .inl (parts.lead_blank c inLead)
  · exact .inr (isIdentPart_of_mem_word inWord)
  · exact .inl (parts.gap_blank c inGap)
  · exact .inr (parts.isName.isIdentPart inName)
  · exact .inl (parts.space_blank c inSpace)

/-- A character that is no part of a gap or a name. -/
def isMark (c : Char) : Bool := !isBlank c && !Token.isIdentPart c

theorem isMark_iff {c : Char} :
    isMark c = true ↔ ¬ (isBlank c = true ∨ Token.isIdentPart c = true) := by
  simp [isMark]

theorem Parts.not_mem_front {b : Binding} {name : Text} (parts : Parts b name) {c : Char}
    (mark : isMark c = true) : c ∉ parts.front := by
  intro membership
  exact isMark_iff.mp mark (parts.mem_front membership)

theorem Parts.not_mem_union {b : Binding} {name : Text} (parts : Parts b name) {c : Char}
    (mark : isMark c = true) (noBar : c ≠ '|') : c ∉ parts.union := by
  intro membership
  rcases parts.union_spelled c membership with blank | part | bar
  · exact isMark_iff.mp mark (.inl blank)
  · exact isMark_iff.mp mark (.inr part)
  · exact noBar bar

theorem Parts.not_mem_behind {b : Binding} {name : Text} (parts : Parts b name) {c : Char}
    (mark : isMark c = true) (noBar : c ≠ '|') (noColon : c ≠ ':') :
    c ∉ parts.space ++ ':' :: parts.union := by
  intro membership
  rcases List.mem_append.mp membership with inSpace | later
  · exact isMark_iff.mp mark (.inl (parts.space_blank c inSpace))
  · rcases List.mem_cons.mp later with colon | inUnion
    · exact noColon colon
    · exact parts.not_mem_union mark noBar inUnion

theorem kind_of_mem_spellsMoreNames {tokens : List Token} {names : List Text}
    (spelled : SpellsMoreNames tokens names) :
    ∀ token ∈ tokens, token.kind = .pipe ∨ token.kind = .ident := by
  induction spelled with
  | nil => simp
  | cons isBar isName _ ih =>
    intro token membership
    simp only [List.mem_cons] at membership
    rcases membership with rfl | rfl | later
    · exact .inl isBar
    · exact .inr isName
    · exact ih token later

theorem kind_of_mem_spellsUnion {tokens : List Token} {union : TypeUnion}
    (spelled : SpellsUnion tokens union) :
    ∀ token ∈ tokens, token.kind = .pipe ∨ token.kind = .ident := by
  obtain ⟨isName, more⟩ := spelled
  intro token membership
  rcases List.mem_cons.mp membership with rfl | later
  · exact .inr isName
  · exact kind_of_mem_spellsMoreNames more token later

/-- Bars and names are spelled with blanks, identifier characters and bars. -/
theorem exists_front_of_tokensFrom {line : Int} {start : Nat} {t : Text} {tokens rest : List Token}
    {assign : Token} (kinds : ∀ token ∈ tokens, token.kind = .pipe ∨ token.kind = .ident)
    (isAssign : assign.kind = .assign)
    (read : Token.tokensFrom line start t = tokens ++ assign :: rest) :
    ∃ front behind, t = front ++ '=' :: behind ∧
      ∀ c ∈ front, isBlank c = true ∨ Token.isIdentPart c = true ∨ c = '|' := by
  induction tokens generalizing start t with
  | nil =>
    obtain ⟨gap, behind, blank, rfl, leads, -⟩ :=
      (Token.tokensFrom_eq_cons_iff (by simp [isAssign])).mp read
    rw [isAssign] at leads
    rw [(Token.leads_assign_iff.mp leads).1]
    exact ⟨gap, behind, rfl, fun c membership => .inl (blank c membership)⟩
  | cons token tokens ih =>
    have kind := kinds token (by simp)
    have real : token.kind ≠ .eof := by rcases kind with kind | kind <;> simp [kind]
    obtain ⟨gap, behind, blank, rfl, leads, -, -, others⟩ :=
      (Token.tokensFrom_eq_cons_iff real).mp read
    obtain ⟨front, behind, rfl, spelled⟩ :=
      ih (fun token membership => kinds token (by simp [membership])) others.symm
    refine ⟨gap ++ (token.text ++ front), behind, by simp, ?_⟩
    intro c membership
    simp only [List.mem_append] at membership
    rcases membership with inGap | inToken | later
    · exact .inl (blank c inGap)
    · rcases kind with isBar | isName
      · rw [isBar] at leads
        have barText : token.text = ['|'] := leads.eq_mark rfl
        rw [barText, List.mem_singleton] at inToken
        exact .inr (.inr inToken)
      · exact .inr (.inl ((leads.isName (by rw [isName]; rfl)).1.isIdentPart inToken))
    · exact spelled c later

/-- A recognised declaration has its parts. -/
theorem exists_parts {line : Int} {source : Text} {d : Declaration}
    (recognised : classify line source = some (.declaration d)) :
    ∃ parts : Parts d.binding d.name, source = parts.text := by
  obtain ⟨lead, trail, split, leadBlank, -⟩ := Text.exists_trim_split source
  have described := describes_of_classify recognised
  generalize Text.trim source = t at split described
  cases described with
  | @declaration opening name colon assign tokens rest b union _ value read isBinding isName isColon
      spelled isAssign _ _ _ =>
    obtain ⟨gap₀, afterWord, blank₀, rfl, word, -, -, more₀⟩ :=
      (Token.tokensFrom_eq_cons_iff (by simp [isBinding])).mp read
    obtain ⟨gap, afterName, blank, rfl, ident, -, -, more₁⟩ :=
      (Token.tokensFrom_eq_cons_iff (by simp [isName])).mp more₀.symm
    obtain ⟨space, afterColon, spaceBlank, rfl, mark, -, -, more₂⟩ :=
      (Token.tokensFrom_eq_cons_iff (by simp [isColon])).mp more₁.symm
    obtain ⟨front, behind, rfl, spelledFront⟩ :=
      exists_front_of_tokensFrom (kind_of_mem_spellsUnion spelled) isAssign more₂.symm
    obtain ⟨-, wordEnds, wordKind⟩ := word.isName (by rw [isBinding]; rfl)
    obtain ⟨named, -, identKind⟩ := ident.isName (by rw [isName]; rfl)
    rw [isBinding, Token.wordKind_eq_binding_iff] at wordKind
    rw [isColon] at mark
    have colonText : colon.text = [':'] := mark.eq_mark rfl
    -- Without a blank between them the word and the name would be one word.
    have filled : gap ≠ [] := by
      rintro rfl
      obtain ⟨c, others, nameText, start, -⟩ := id named
      rw [List.nil_append, nameText, List.cons_append, Token.nameEnds_cons] at wordEnds
      simp [isIdentPart_of_isIdentStart start] at wordEnds
    refine ⟨⟨lead ++ gap₀, gap, space, front, behind ++ trail, ?_, blank, filled, spaceBlank, named,
      identKind.trans isName, spelledFront⟩, ?_⟩
    · intro c membership
      rcases List.mem_append.mp membership with inLead | inGap
      · exact leadBlank c inLead
      · exact blank₀ c inGap
    · rw [split, wordKind, colonText]
      simp [Parts.text, Parts.front]

theorem isName_word (b : Binding) : Token.IsName b.word := by
  cases b
  · exact ⟨'l', ['e', 't'], rfl, by decide, List.all_eq_true.mp (by decide)⟩
  · exact ⟨'c', ['o', 'n', 's', 't'], rfl, by decide, List.all_eq_true.mp (by decide)⟩
  · exact ⟨'m', ['u', 't'], rfl, by decide, List.all_eq_true.mp (by decide)⟩

/-- The tokens of a text begin with a word that opens a declaration, a name, and an equals sign. -/
def Declares (line : Int) (t : Text) (b : Binding) (name : Text) : Prop :=
  ∃ opening ident assign rest, tokenize line t = opening :: ident :: assign :: rest ∧
    opening.kind = .binding b ∧ ident.kind = .ident ∧ ident.text = name ∧ assign.kind = .assign

theorem nameEnds_blank {gap : Text} (rest : Text) (blank : ∀ c ∈ gap, isBlank c = true)
    (filled : gap ≠ []) : Token.NameEnds (gap ++ rest) := by
  obtain ⟨c, others, rfl⟩ := List.exists_cons_of_ne_nil filled
  exact Token.nameEnds_cons.mpr (isIdentPart_eq_false_of_isBlank (blank c (by simp)))

/-- The tokens behind the word and the blanks of a declaration. -/
theorem tokenize_word (line : Int) (b : Binding) {lead gap : Text} (rest : Text)
    (leadBlank : ∀ c ∈ lead, isBlank c = true) (gapBlank : ∀ c ∈ gap, isBlank c = true)
    (filled : gap ≠ []) :
    ∃ opening start, opening.kind = .binding b ∧
      tokenize line (lead ++ (b.word ++ (gap ++ rest))) =
        opening :: Token.tokensFrom line start rest := by
  have leads := (isName_word b).leads (nameEnds_blank rest gapBlank filled)
  rw [Token.wordKind_eq_binding_iff.mpr rfl] at leads
  refine ⟨⟨.binding b, b.word, line, 0 + lead.length⟩, 0 + lead.length + b.word.length + gap.length,
    rfl, ?_⟩
  rw [tokenize, Token.tokensFrom_blanks line 0 _ leadBlank, Token.tokensFrom_leads line _ leads,
    Token.tokensFrom_blanks line _ _ gapBlank]

/-- An equals sign comes first exactly if blanks alone stand before it, and it assigns. -/
theorem exists_assign_iff (line : Int) (start : Nat) {left rest : Text} (noSign : '=' ∉ left) :
    (∃ assign more, Token.tokensFrom line start (left ++ '=' :: rest) = assign :: more ∧
        assign.kind = .assign) ↔
      (∀ c ∈ left, isBlank c = true) ∧ rest.head? ≠ some '=' ∧ rest.head? ≠ some '>' := by
  constructor
  · rintro ⟨assign, more, read, isAssign⟩
    obtain ⟨gap, behind, blank, split, leads, -⟩ :=
      (Token.tokensFrom_eq_cons_iff (by simp [isAssign])).mp read
    rw [isAssign, Token.leads_assign_iff] at leads
    obtain ⟨text, heads⟩ := leads
    have noSignGap : '=' ∉ gap := fun membership => absurd (blank _ membership) (by decide)
    rw [text, List.singleton_append] at split
    obtain ⟨rfl, rfl⟩ := append_cons_inj noSign noSignGap split
    exact ⟨blank, heads⟩
  · rintro ⟨blank, heads⟩
    have leads : Token.Leads .assign ['='] rest := Token.leads_assign_iff.mpr ⟨rfl, heads⟩
    have read := Token.tokensFrom_leads line (start + left.length) leads
    rw [List.singleton_append, ← Token.tokensFrom_blanks line start _ blank] at read
    exact ⟨_, _, read, rfl⟩

/-- A line declares a name exactly if the name stands behind the word, and then blanks and an
equals sign that assigns. -/
theorem declares_iff (line : Int) (b : Binding) {lead gap written left rest name : Text}
    (leadBlank : ∀ c ∈ lead, isBlank c = true) (gapBlank : ∀ c ∈ gap, isBlank c = true)
    (filled : gap ≠ []) (isName : Token.IsName written) (noSign : '=' ∉ left)
    (isIdent : Token.wordKind name = .ident) (long : name.length ≤ written.length) :
    Declares line (lead ++ (b.word ++ (gap ++ (written ++ (left ++ '=' :: rest))))) b name ↔
      written = name ∧ (∀ c ∈ left, isBlank c = true) ∧ rest.head? ≠ some '=' ∧
        rest.head? ≠ some '>' := by
  obtain ⟨word, start, isWord, read⟩ :=
    tokenize_word line b (written ++ (left ++ '=' :: rest)) leadBlank gapBlank filled
  rw [Declares, read]
  constructor
  · rintro ⟨opening, ident, assign, more, same, -, -, text, isAssign⟩
    rw [Token.tokensFrom_name line start isName] at same
    obtain ⟨-, behindWord⟩ := List.cons.inj same
    obtain ⟨rfl, behindName⟩ := List.cons.inj behindWord
    -- The name that is read is no longer than what is written, so nothing stands right behind it.
    have nothing : (left ++ '=' :: rest).takeWhile Token.isIdentPart = [] := by
      rw [← text, List.length_append] at long
      exact List.length_eq_zero_iff.mp (by omega)
    have whole := List.takeWhile_append_dropWhile (p := Token.isIdentPart) (l := left ++ '=' :: rest)
    rw [nothing, List.nil_append] at whole
    rw [nothing, List.append_nil] at text behindName
    rw [whole] at behindName
    exact ⟨text, (exists_assign_iff line _ noSign).mp ⟨assign, more, behindName, isAssign⟩⟩
  · rintro ⟨rfl, blank, heads⟩
    have ends : Token.NameEnds (left ++ '=' :: rest) := by
      cases left with
      | nil => exact Token.nameEnds_cons.mpr (by decide)
      | cons c left => exact nameEnds_blank _ blank (List.cons_ne_nil c left)
    have leads := isName.leads ends
    rw [isIdent] at leads
    obtain ⟨assign, more, readAssign, isAssign⟩ :=
      (exists_assign_iff line (start + written.length) noSign).mpr ⟨blank, heads⟩
    rw [Token.tokensFrom_leads line start leads, readAssign]
    exact ⟨word, _, assign, more, rfl, isWord, rfl, rfl, isAssign⟩

end TypedScript.Line
