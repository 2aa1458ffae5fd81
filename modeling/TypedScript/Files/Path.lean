import TypedScript.Text.Quoted

set_option autoImplicit false

/-!
Paths in normal form: empty components and single dots are dropped, double dots
are kept. Exactly two leading slashes are a root of their own.
-/

namespace TypedScript

inductive PathRoot where
  | relative
  | single
  | double
  deriving DecidableEq, Repr

def PathRoot.text : PathRoot → Text
  | .relative => []
  | .single => ['/']
  | .double => ['/', '/']

structure Path where
  root : PathRoot
  parts : List Text
  deriving DecidableEq, Repr

namespace Path

def rootOf : Text → PathRoot
  | '/' :: '/' :: '/' :: _ => .single
  | '/' :: '/' :: _ => .double
  | '/' :: _ => .single
  | _ => .relative

def isPart (piece : Text) : Bool := !piece.isEmpty && piece != ['.']

def ofText (t : Text) : Path := ⟨rootOf t, (Text.pieces '/' t).filter isPart⟩

/-- A path without any component is written as its root, or as a dot. -/
def text (p : Path) : Text :=
  if p.root = .relative ∧ p.parts = [] then ['.'] else p.root.text ++ Text.join ['/'] p.parts

/-- A path read from another one; an absolute path stays as it is. -/
def join (base : Path) (t : Text) : Path :=
  let path := ofText t
  if path.root = .relative then { base with parts := base.parts ++ path.parts } else path

def parent (p : Path) : Path := { p with parts := p.parts.dropLast }

/-- The length of a name without its suffix. The suffix begins at the last dot, if that is neither
the first nor the last character. -/
def stemLength (name : Text) : Nat :=
  let tail := (name.reverse.takeWhile (· != '.')).length
  if tail = 0 ∨ name.length ≤ tail + 1 then name.length else name.length - tail - 1

inductive SuffixError where
  | invalidSuffix (suffix : Text)
  | emptyName (path : Path)
  deriving DecidableEq, Repr

def SuffixError.message : SuffixError → String
  | .invalidSuffix suffix => "Invalid suffix " ++ quoted suffix
  | .emptyName path => "PosixPath(" ++ quoted path.text ++ ") has an empty name"

/-- A suffix is empty, or a dot with at least one more character and no slash. -/
def isSuffix (suffix : Text) : Bool :=
  !suffix.contains '/' && (suffix.isEmpty || (suffix.head? == some '.' && suffix != ['.']))

/-- The path with the suffix of its last component replaced. -/
def withSuffix (p : Path) (suffix : Text) : Except SuffixError Path :=
  if !isSuffix suffix then .error (.invalidSuffix suffix)
  else match p.parts.getLast? with
    | none => .error (.emptyName p)
    | some name =>
      .ok { p with parts := p.parts.dropLast ++ [name.take (stemLength name) ++ suffix] }

end Path
end TypedScript
