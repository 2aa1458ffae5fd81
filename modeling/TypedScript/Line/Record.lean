import TypedScript.Types

set_option autoImplicit false

/-!
What a line can be for the checker: a typed declaration, a function header, a
return, or a closing brace. `LineRecord.render` writes a record as a line.
-/

namespace TypedScript

structure Declaration where
  binding : Binding
  name : Text
  declared : TypeUnion
  value : Text
  line : Int
  deriving DecidableEq, Repr

structure Parameter where
  name : Text
  declared : Option TypeUnion
  deriving DecidableEq, Repr

/-- The header of a function and the line it stands on. -/
structure Header where
  name : Text
  parameters : List Parameter
  result : Option TypeUnion
  line : Int
  deriving DecidableEq, Repr

inductive LineRecord where
  | declaration (d : Declaration)
  | header (h : Header)
  | returns (value : Text) (line : Int)
  | close (line : Int)
  deriving DecidableEq, Repr

def Declaration.isMutable (d : Declaration) : Bool := d.binding == .mutable

def Declaration.render (d : Declaration) : Text :=
  d.binding.word ++ [' '] ++ d.name ++ [' ', ':', ' '] ++ d.declared.text ++ [' ', '=', ' '] ++
    d.value ++ [';']

def Parameter.render (p : Parameter) : Text :=
  match p.declared with
  | none => p.name
  | some union => p.name ++ [':', ' '] ++ union.text

def Header.render (h : Header) : Text :=
  ['f', 'n', ' '] ++ h.name ++ ['('] ++ Text.join [',', ' '] (h.parameters.map Parameter.render) ++
    [')'] ++
    match h.result with
    | none => []
    | some union => [':', ' '] ++ union.text

def LineRecord.render : LineRecord → Text
  | .declaration d => d.render
  | .header h => h.render
  | .returns value _ => ['r', 'e', 't', 'u', 'r', 'n', ' '] ++ value ++ [';']
  | .close _ => ['\x7d']

end TypedScript
