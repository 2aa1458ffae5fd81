import TypedScript.Text.Digit
import TypedScript.Text.Quoted

set_option autoImplicit false

/-!
Options and positional arguments. Long options may be shortened as long as one
option is meant; a value stands behind an equals sign, or, for short options,
directly behind the letter, or is the next argument. Two dashes end the options.
-/

namespace TypedScript.CommandLine

inductive Role where
  | help
  | switch
  | value
  deriving DecidableEq, Repr

structure OptionSpec where
  names : List Text
  role : Role
  deriving DecidableEq, Repr

/-- What is understood: options, and one positional argument, which takes all that follows if
`takesRest` is set. -/
structure Interface where
  program : String
  usage : String
  details : String
  options : List OptionSpec
  positional : String
  takesRest : Bool
  deriving Repr

/-- Why reading arguments ends early. -/
inductive Stop where
  | help (text : String)
  | misuse (text : String)
  deriving DecidableEq, Repr

def Interface.help (i : Interface) : Stop := .help (i.usage ++ "\n" ++ i.details)

def Interface.misuse (i : Interface) (problem : String) : Stop :=
  .misuse (i.usage ++ i.program ++ ": error: " ++ problem ++ "\n")

def OptionSpec.label (o : OptionSpec) : String := String.ofList (Text.join ['/'] o.names)

def Interface.ignored (i : Interface) (o : OptionSpec) (given : Text) : Stop :=
  i.misuse ("argument " ++ o.label ++ ": ignored explicit argument " ++ quoted given)

def Interface.missing (i : Interface) (o : OptionSpec) : Stop :=
  i.misuse ("argument " ++ o.label ++ ": expected one argument")

/-- What an argument looks like, before it is known where it belongs. -/
inductive Mark where
  | plain
  | separator
  | known (o : OptionSpec) (name : Text) (given : Option Text)
  | unknown
  deriving DecidableEq, Repr

namespace Interface

def find? (i : Interface) (name : Text) : Option OptionSpec :=
  i.options.find? fun o => o.names.contains name

/-- Every option under each of its names. -/
def named (i : Interface) : List (OptionSpec × Text) :=
  i.options.flatMap fun o => o.names.map fun name => (o, name)

/-- The options that an argument may be short for, with the value given along. -/
def readings (i : Interface) (argument : Text) : List (OptionSpec × Text × Option Text) :=
  if argument.take 2 = ['-', '-'] then
    let (start, given) := match Text.cut? '=' argument with
      | some (start, value) => (start, some value)
      | none => (argument, none)
    (i.named.filter fun (_, name) => start.isPrefixOf name).map fun (o, name) => (o, name, given)
  else
    (i.named.filter fun (_, name) => name == argument.take 2).map fun (o, name) =>
      (o, name, some (argument.drop 2))

/-- A negative number is no option. -/
def looksNegative (argument : Text) : Bool :=
  let isDigit (c : Char) : Bool := (digitValue? c).isSome
  let line := if argument.getLast? = some '\n' then argument.dropLast else argument
  match line with
  | '-' :: rest =>
    match rest.dropWhile isDigit with
    | [] => !rest.isEmpty
    | '.' :: fraction => !fraction.isEmpty && fraction.all isDigit
    | _ => false
  | _ => false

def mark (i : Interface) (argument : Text) : Except Stop Mark :=
  if argument.head? ≠ some '-' ∨ argument = ['-'] then .ok .plain
  else match i.find? argument with
    | some o => .ok (.known o argument none)
    | none =>
      let split := (Text.cut? '=' argument).bind fun (name, value) =>
        (i.find? name).map fun o => Mark.known o name (some value)
      match split with
      | some found => .ok found
      | none =>
        match i.readings argument with
        | [(o, name, given)] => .ok (.known o name given)
        | [] =>
          if looksNegative argument || argument.contains ' ' then .ok .plain else .ok .unknown
        | several =>
          let names := Text.join [',', ' '] (several.map fun (_, name, _) => name)
          .error (i.misuse ("ambiguous option: " ++ String.ofList argument ++ " could match " ++
            String.ofList names))

/-- Marks for all arguments; behind two dashes every argument is plain. -/
def marks (i : Interface) : List Text → Except Stop (List (Text × Mark))
  | [] => .ok []
  | argument :: rest =>
    if argument = ['-', '-'] then .ok ((argument, .separator) :: rest.map fun a => (a, .plain))
    else do
      let found ← i.mark argument
      let more ← i.marks rest
      return (argument, found) :: more

end Interface

/-- What has been read so far. -/
structure Given where
  /-- The options in order, with their values. -/
  options : List (OptionSpec × Option Text)
  positional : Option (List Text)
  extras : List Text
  deriving DecidableEq, Repr

namespace Given

def start : Given := ⟨[], none, []⟩

/-- Takes options in order; a request for help ends the reading. -/
def take (g : Given) (i : Interface) (found : List (OptionSpec × Option Text)) : Except Stop Given :=
  if found.any fun (o, _) => o.role == .help then .error i.help
  else .ok { g with options := g.options ++ found }

def ignore (g : Given) (arguments : List Text) : Given := { g with extras := g.extras ++ arguments }

/-- The last value that an option was given. -/
def value? (g : Given) (name : Text) : Option Text :=
  (g.options.filter fun (o, _) => o.names.contains name).getLast?.bind (·.2)

def values (g : Given) (name : Text) : List Text :=
  (g.options.filter fun (o, _) => o.names.contains name).filterMap (·.2)

def has (g : Given) (name : Text) : Bool := g.options.any fun (o, _) => o.names.contains name

end Given

namespace Interface

/-- A text given along with a switch must be further short options: the switches among them, the
last option, and what is left for it. -/
def cluster (i : Interface) (o : OptionSpec) (name : Text) :
    Text → Except Stop (List OptionSpec × OptionSpec × Option Text)
  | [] => if o.role = .value then .ok ([], o, some []) else .error (i.ignored o [])
  | c :: rest =>
    if o.role = .value then .ok ([], o, some (c :: rest))
    else if name.take 2 = ['-', '-'] then .error (i.ignored o (c :: rest))
    else match i.find? ['-', c] with
      | none => .error (i.ignored o (c :: rest))
      | some next =>
        if rest.isEmpty then .ok ([o], next, none)
        else (i.cluster next ['-', c] rest).map fun (switches, last) => (o :: switches, last)

def resolve (i : Interface) (o : OptionSpec) (name : Text) :
    Option Text → Except Stop (List OptionSpec × OptionSpec × Option Text)
  | none => .ok ([], o, none)
  | some given => i.cluster o name given

/-- Goes through the arguments from left to right. -/
def walk (i : Interface) (g : Given) : List (Text × Mark) → Except Stop Given
  | [] => .ok g
  | (argument, .unknown) :: rest => i.walk (g.ignore [argument]) rest
  | (_, .known o name given) :: rest => do
    let (switches, last, value) ← i.resolve o name given
    let before := switches.map fun s => (s, none)
    match value, last.role with
    | none, .value =>
      match rest with
      | (value, .plain) :: rest => i.walk (← g.take i (before ++ [(last, some value)])) rest
      | _ => .error (i.missing last)
    | value, _ => i.walk (← g.take i (before ++ [(last, value)])) rest
  | (argument, .plain) :: rest =>
    if g.positional.isSome then i.walk (g.ignore [argument]) rest
    else if i.takesRest then .ok { g with positional := some (argument :: rest.map (·.1)) }
    else match rest with
      | (_, .separator) :: rest => i.walk { g with positional := some [argument] } rest
      | rest => i.walk { g with positional := some [argument] } rest
  | (argument, .separator) :: rest =>
    let words := rest.map (·.1)
    match g.positional, words with
    | none, first :: more =>
      if i.takesRest then .ok { g with positional := some (argument :: words) }
      else .ok ({ g with positional := some [first] }.ignore more)
    | _, _ => .ok (g.ignore (argument :: words))

/-- Reads arguments; the positional one must be among them. -/
def read (i : Interface) (arguments : List Text) : Except Stop (Given × List Text) := do
  let given ← i.walk .start (← i.marks arguments)
  match given.positional with
  | some words => return (given, words)
  | none => .error (i.misuse ("the following arguments are required: " ++ i.positional))

end Interface
end TypedScript.CommandLine
