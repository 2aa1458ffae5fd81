import Mathlib.Data.PFun
import TypedScript.Line.Classify

set_option autoImplicit false

/-!
Reading a line with a cursor. A walk looks its tokens up by their place, which can
fail, gives up by a signal, and runs loops that nothing bounds; a walk that never
ends has no outcome. The lemmas `run_*` say what the steps of a walk do.
-/

namespace TypedScript.Line

/-- Why a walk is given up: another token was wanted, or the cursor is on no token. -/
inductive Signal where
  | mismatch (wanted : TokenKind)
  | beyond (place : Nat)
  deriving DecidableEq, Repr

/-- The place of the next token, and the places the cursor was at before. -/
structure Cursor where
  place : Nat
  passed : List Nat
  deriving DecidableEq, Repr

namespace Cursor

def start : Cursor := ⟨0, []⟩

def step (c : Cursor) : Cursor := ⟨c.place + 1, c.place :: c.passed⟩

def places (c : Cursor) : List Nat := c.place :: c.passed

/-- The next token. Nothing keeps the cursor from places where there is none. -/
def token (tokens : List Token) (c : Cursor) : Except Signal Token :=
  match tokens[c.place]? with
  | some token => .ok token
  | none => .error (.beyond c.place)

end Cursor

/-- Gives a result or a signal and moves the cursor, or never ends. -/
abbrev Walk := ExceptT Signal (ReaderT (List Token) (StateT Cursor Part))

namespace Walk

def run {α : Type} (walk : Walk α) (tokens : List Token) (c : Cursor) :
    Part (Except Signal α × Cursor) :=
  ((ExceptT.run walk).run tokens).run c

/-- How a round of a loop leaves it: with its outcome, or with what the next round begins with. -/
def turn {σ α : Type} :
    Except Signal (α ⊕ σ) × Cursor → (Except Signal α × Cursor) ⊕ (σ × Cursor)
  | (.error signal, c) => .inl (.error signal, c)
  | (.ok (.inl a), c) => .inl (.ok a, c)
  | (.ok (.inr s), c) => .inr (s, c)

/-- The rounds of a loop over the given tokens, one after the other. -/
def rounds {σ α : Type} (round : σ → Walk (α ⊕ σ)) (tokens : List Token) :
    σ × Cursor →. (Except Signal α × Cursor) ⊕ (σ × Cursor) :=
  fun (s, c) => ((round s).run tokens c).map turn

/-- Goes round until a round gives a result or a signal, however often that may be. -/
def loop {σ α : Type} (round : σ → Walk (α ⊕ σ)) (s : σ) : Walk α := fun tokens c =>
  (rounds round tokens).fix (s, c)

def peek : Walk Token := fun tokens c => Part.some (c.token tokens, c)

def step : Walk Unit := fun _ c => Part.some (.ok (), c.step)

/-- Hands over the next token. The end mark stays in place. -/
def advance : Walk Token := do
  let token ← peek
  if token.kind ≠ .eof then step
  return token

def expect (kind : TokenKind) : Walk Token := do
  let token ← peek
  if token.kind = kind then advance else throw (.mismatch kind)

def accept (kind : TokenKind) : Walk (Option Token) := do
  let token ← peek
  if token.kind = kind then
    let taken ← advance
    return some taken
  else return none

/-- Adds names as long as a bar comes next. -/
def names : List Text → Walk (List Text) := loop fun found => do
  match ← accept .pipe with
  | none => return .inl found
  | some _ =>
    let name ← expect .ident
    return .inr (found ++ [name.text])

def typeUnion : Walk TypeUnion := do
  let first ← expect .ident
  let all ← names [first.text]
  return ⟨all⟩

def typing : Walk (Option TypeUnion) := do
  match ← accept .colon with
  | none => return none
  | some _ =>
    let union ← typeUnion
    return some union

def parameter : Walk Parameter := do
  let name ← expect .ident
  let declared ← typing
  return ⟨name.text, declared⟩

/-- Adds parameters until no comma follows one. -/
def parametersFrom : List Parameter → Walk (List Parameter) := loop fun found => do
  let next ← parameter
  match ← accept .comma with
  | none => return .inl (found ++ [next])
  | some _ => return .inr (found ++ [next])

def parameters : Walk (List Parameter) := do
  let token ← peek
  if token.kind = .rparen then return [] else parametersFrom []

/-- Turns a mismatch into no result. Every other signal goes on. -/
def attempt {α : Type} (walk : Walk α) : Walk (Option α) :=
  tryCatch (some <$> walk) fun
    | .mismatch _ => return none
    | signal => throw signal

def declarationParts : Walk (Token × TypeUnion × Token) := do
  let name ← expect .ident
  let _ ← expect .colon
  let declared ← typeUnion
  let assign ← expect .assign
  return (name, declared, assign)

def declaration (b : Binding) (line : Int) (t : Text) : Walk (Option Declaration) := do
  match ← attempt (do let _ ← advance; declarationParts) with
  | none => return none
  | some (name, declared, assign) =>
    let value := valueAfter assign t
    if value.isEmpty then return none else return some ⟨b, name.text, declared, value, line⟩

def headerParts (line : Int) : Walk Header := do
  let name ← expect .ident
  let _ ← expect .lparen
  let parameters ← parameters
  let _ ← expect .rparen
  let result ← typing
  return ⟨name.text, parameters, result, line⟩

def header (line : Int) : Walk (Option Header) :=
  attempt (do let _ ← advance; headerParts line)

def returns (line : Int) (t : Text) : Walk LineRecord := do
  let word ← advance
  return .returns (valueAfter word t) line

def record (line : Int) (t : Text) : Walk (Option LineRecord) := do
  if t.isEmpty then return none
  else if t = ['\x7d'] then return some (.close line)
  else
    let head ← peek
    match head.kind with
    | .binding b => Option.map .declaration <$> declaration b line t
    | .fn => Option.map .header <$> header line
    | .ret => some <$> returns line t
    | _ => return none

section

variable {α β σ : Type} {tokens : List Token} {c : Cursor} {token : Token}

theorem run_pure (a : α) : (pure a : Walk α).run tokens c = Part.some (.ok a, c) := rfl

theorem run_bind (walk : Walk α) (next : α → Walk β) :
    (walk >>= next).run tokens c = (walk.run tokens c).bind fun
      | (.ok a, c) => (next a).run tokens c
      | (.error signal, c) => Part.some (.error signal, c) := by
  simp only [run, ExceptT.run_bind, ReaderT.run_bind, StateT.run_bind, Part.bind_eq_bind]
  congr 1
  funext outcome
  match outcome with
  | (.ok _, _) => rfl
  | (.error _, _) => rfl

/-- A loop ends as its first round does, or as the loop from the next round on. -/
theorem mem_run_loop (round : σ → Walk (α ⊕ σ)) (s : σ) (outcome : Except Signal α × Cursor) :
    outcome ∈ (loop round s).run tokens c ↔
      Sum.inl outcome ∈ rounds round tokens (s, c) ∨
        ∃ next, Sum.inr next ∈ rounds round tokens (s, c) ∧
          outcome ∈ (loop round next.1).run tokens next.2 :=
  PFun.mem_fix_iff

theorem run_loop (round : σ → Walk (α ⊕ σ)) (s : σ) :
    (loop round s).run tokens c = (round s >>= Sum.elim pure (loop round)).run tokens c := by
  apply Part.ext
  intro outcome
  rw [mem_run_loop, run_bind, Part.mem_bind_iff]
  simp only [rounds, Part.mem_map_iff]
  constructor
  · rintro (⟨⟨result, last⟩, ended, turned⟩ | ⟨next, ⟨⟨result, last⟩, ended, turned⟩, member⟩)
    · refine ⟨(result, last), ended, ?_⟩
      match result with
      | .error _ | .ok (.inl _) =>
        cases turned
        exact Part.mem_some _
    · refine ⟨(result, last), ended, ?_⟩
      match result with
      | .ok (.inr _) =>
        cases turned
        exact member
  · rintro ⟨⟨result, last⟩, ended, member⟩
    match result with
    | .error _ | .ok (.inl _) => exact .inl ⟨_, ended, by rw [Part.mem_some_iff.mp member]; rfl⟩
    | .ok (.inr s) => exact .inr ⟨(s, last), ⟨_, ended, rfl⟩, member⟩

theorem run_map (walk : Walk α) (f : α → β) :
    (f <$> walk).run tokens c = (walk.run tokens c).map fun (outcome, c) => (outcome.map f, c) := by
  rw [map_eq_pure_bind, run_bind, ← Part.bind_some_eq_map]
  congr 1
  funext outcome
  match outcome with
  | (.ok _, _) => rfl
  | (.error _, _) => rfl

theorem run_tryCatch (walk : Walk α) (handle : Signal → Walk α) :
    (tryCatch walk handle).run tokens c = (walk.run tokens c).bind fun
      | (.ok a, c) => Part.some (.ok a, c)
      | (.error signal, c) => (handle signal).run tokens c := by
  simp only [run, ExceptT.run_tryCatch, ReaderT.run_bind, StateT.run_bind, Part.bind_eq_bind]
  congr 1
  funext outcome
  match outcome with
  | (.ok _, _) => rfl
  | (.error _, _) => rfl

theorem run_attempt (walk : Walk α) :
    (attempt walk).run tokens c = (walk.run tokens c).map fun
      | (.ok a, c) => (.ok (some a), c)
      | (.error (.mismatch _), c) => (.ok none, c)
      | (.error signal, c) => (.error signal, c) := by
  rw [attempt, run_tryCatch, run_map, Part.bind_map, ← Part.bind_some_eq_map]
  congr 1
  funext outcome
  match outcome with
  | (.ok _, _) => rfl
  | (.error (.mismatch _), _) => rfl
  | (.error (.beyond _), _) => rfl

theorem run_step : step.run tokens c = Part.some (.ok (), c.step) := rfl

theorem run_peek (next : tokens[c.place]? = some token) :
    peek.run tokens c = Part.some (.ok token, c) := by
  change Part.some (c.token tokens, c) = _
  rw [Cursor.token, next]

theorem run_advance (next : tokens[c.place]? = some token) (real : token.kind ≠ .eof) :
    advance.run tokens c = Part.some (.ok token, c.step) := by
  rw [advance, run_bind, run_peek next, Part.bind_some]
  simp only [if_pos real, run_bind, run_step, Part.bind_some, run_pure]

theorem run_returns (line : Int) (t : Text) (next : tokens[c.place]? = some token)
    (real : token.kind ≠ .eof) :
    (returns line t).run tokens c =
      Part.some (.ok (.returns (valueAfter token t) line), c.step) := by
  simp only [returns, run_bind, run_advance next real, Part.bind_some, run_pure]

theorem run_names (found : List Text) : (names found).run tokens c = Walk.run (do
    match ← accept .pipe with
    | none => return found
    | some _ =>
      let name ← expect .ident
      names (found ++ [name.text])) tokens c := by
  rw [names, run_loop, bind_assoc]
  congr 2
  funext bar
  cases bar <;> simp

theorem run_parametersFrom (found : List Parameter) :
    (parametersFrom found).run tokens c = Walk.run (do
      let next ← parameter
      match ← accept .comma with
      | none => return found ++ [next]
      | some _ => parametersFrom (found ++ [next])) tokens c := by
  rw [parametersFrom, run_loop, bind_assoc]
  congr 2
  funext next
  rw [bind_assoc]
  congr 2
  funext comma
  cases comma <;> simp

end

end Walk

/-- The outcome of walking over the tokens of a line. -/
def walkLine (line : Int) (text : Text) : Part (Except Signal (Option LineRecord) × Cursor) :=
  (Walk.record line (Text.trim text)).run (tokenize line (Text.trim text)) Cursor.start

end TypedScript.Line
