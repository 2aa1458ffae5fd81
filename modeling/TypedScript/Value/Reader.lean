import TypedScript.Value.Basic

set_option autoImplicit false

/-!
Reading values from texts. Documents and literals have grammars of their own; what
the program needs of a reader is the value of a text, or why there is none.
-/

namespace TypedScript

/-- Why a text is read to no value: it is malformed, or something else went wrong on the way. -/
inductive ReadFault where
  | malformed (message : String)
  | raised (e : Raised)
  deriving DecidableEq, Repr

abbrev ValueReader := Text → Except ReadFault Value

end TypedScript
