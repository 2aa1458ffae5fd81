import TypedScript.Yaml.Scalar
import TypedScript.Yaml.Scanner

set_option autoImplicit false

/-!
The tree of a YAML document, read from its tokens. What is left out is an empty
plain scalar. A block must be closed by its own end, a bracket by its partner,
and nothing but an end mark may follow the document. An alias stands for the node
that was anchored under its name before; inside that node it stands for an empty
one of its kind.
-/

namespace TypedScript.Yaml

inductive Node where
  | scalar (tag : Tag) (t : Text)
  | sequence (tag : Tag) (items : List Node)
  | mapping (tag : Tag) (entries : List (Node × Node))
  deriving Repr

/-- What has been said so far: what the handles of tags stand for, and the anchored nodes; one
that is still being read is empty. -/
structure Context where
  handles : List (Text × Text)
  anchors : List (Text × Node)

abbrev Reading := StateT Context (Except Fault)

namespace Node

def tag : Node → Tag
  | .scalar tag _ | .sequence tag _ | .mapping tag _ => tag

def empty : Node := .scalar .null []

/-- A reader takes tokens from the front and gives the tokens behind. -/
abbrev Reader (α : Type) := List Token → Reading (α × List Token)

/-- The fault of the next token, if it is one, and else the given fault. -/
def refuse {α : Type} (tokens : List Token) (fault : Fault) : Reading α :=
  match tokens with
  | .fault f :: _ => throw f
  | _ => throw fault

/-- The next token leaves no room for a value in a block mapping. -/
def endsBlockValue : List Token → Bool
  | .key :: _ | .value :: _ | .blockEnd :: _ => true
  | _ => false

def endsEntry : List Token → Bool
  | .entry :: _ | .blockEnd :: _ => true
  | _ => false

/-- The next token ends an item inside brackets that `close` closes. -/
def endsItem (close : Token) : List Token → Bool
  | token :: _ => token == .comma || token == close
  | [] => false

def startsValue : List Token → Bool
  | .value :: _ => true
  | _ => false

/-! ### Properties -/

/-- An anchor and a tag before a node, in either order. -/
structure Properties where
  anchor : Option Text
  tag : Option Text

/-- The full text of a tag. -/
def fullTag (handle : Option Text) (suffix : Text) : Reading Text := do
  match handle with
  | none => return suffix
  | some handle =>
    match (← get).handles.lookup handle with
    | some start => return start ++ suffix
    | none => throw (.undefinedHandle handle)

def properties : Reader Properties
  | .anchor name :: .tag handle suffix :: rest | .tag handle suffix :: .anchor name :: rest => do
    return (⟨some name, some (← fullTag handle suffix)⟩, rest)
  | .anchor name :: rest => return (⟨some name, none⟩, rest)
  | .tag handle suffix :: rest => do
    match rest with
    | .fault f :: _ => throw f
    | _ => return (⟨none, some (← fullTag handle suffix)⟩, rest)
  | tokens => return (⟨none, none⟩, tokens)

namespace Properties

/-- A lone exclamation mark leaves the tag open. -/
def isOpen (p : Properties) : Bool := p.tag.isNone || p.tag == some ['!']

def scalarTag (p : Properties) (t : Text) (isPlain : Bool) : Tag :=
  match p.tag with
  | none => if isPlain then Tag.ofPlain t else .str
  | some tag => if tag = ['!'] then Tag.ofPlain t else Tag.ofText tag

def collectionTag (p : Properties) (usual : Tag) : Tag :=
  if p.isOpen then usual else ((p.tag.map Tag.ofText).getD usual)

/-- Sets the anchor up for a node that is still empty. -/
def announce (p : Properties) (node : Node) : Reading Unit := do
  match p.anchor with
  | none => return ()
  | some name =>
    if ((← get).anchors.lookup name).isSome then throw (.repeatedAnchor name)
    else modify fun c => { c with anchors := (name, node) :: c.anchors }

/-- Puts a finished node under its anchor. -/
def settle (p : Properties) (node : Node) : Reading Node := do
  match p.anchor with
  | none => return node
  | some name =>
    modify fun c => { c with anchors := (name, node) :: c.anchors }
    return node

end Properties

def aliased (name : Text) : Reading Node := do
  match (← get).anchors.lookup name with
  | none => throw (.undefinedAlias name)
  | some node => return node

mutual

/-- One node. `inBlock` allows blocks; `atKey` allows a sequence at the indentation of its key. The
number bounds the recursion. -/
def node (inBlock atKey : Bool) : Nat → Reader Node
  | 0, _ => throw .expectedNode
  | steps + 1, tokens =>
    match tokens with
    | .alias name :: rest => do return (← aliased name, rest)
    | tokens => do
      let (p, tokens) ← properties tokens
      content inBlock atKey p steps tokens

/-- A node behind its properties. Where there are some, it may be left out. -/
def content (inBlock atKey : Bool) (p : Properties) : Nat → Reader Node
  | 0, _ => throw .expectedNode
  | steps + 1, tokens =>
    let missing : Reading (Node × List Token) :=
      if p.anchor.isNone && p.tag.isNone then refuse tokens .expectedNode
      else do
        p.announce empty
        return (← p.settle (.scalar (p.scalarTag [] p.isOpen) []), tokens)
    match tokens with
    | .fault f :: _ => throw f
    | .scalar t isPlain :: rest => do
      p.announce empty
      return (← p.settle (.scalar (p.scalarTag t isPlain) t), rest)
    | .sequenceOpen :: rest => do
      p.announce (.sequence (p.collectionTag .seq) [])
      let (items, rest) ← flowItems true steps rest
      return (← p.settle (.sequence (p.collectionTag .seq) items), rest)
    | .mappingOpen :: rest => do
      p.announce (.mapping (p.collectionTag .map) [])
      let (entries, rest) ← flowEntries true steps rest
      return (← p.settle (.mapping (p.collectionTag .map) entries), rest)
    | .entry :: rest =>
      if atKey then do
        p.announce (.sequence (p.collectionTag .seq) [])
        let (items, rest) ← keyEntries steps (.entry :: rest)
        return (← p.settle (.sequence (p.collectionTag .seq) items), rest)
      else missing
    | .blockSequence :: rest =>
      if inBlock then do
        p.announce (.sequence (p.collectionTag .seq) [])
        let (items, rest) ← blockEntries steps rest
        return (← p.settle (.sequence (p.collectionTag .seq) items), rest)
      else missing
    | .blockMapping :: rest =>
      if inBlock then do
        p.announce (.mapping (p.collectionTag .map) [])
        let (entries, rest) ← blockPairs steps rest
        return (← p.settle (.mapping (p.collectionTag .map) entries), rest)
      else missing
    | _ => missing

/-- The entries of a block sequence, with its end. -/
def blockEntries : Nat → Reader (List Node)
  | 0, _ => throw .expectedBlockEnd
  | steps + 1, tokens =>
    match tokens with
    | .entry :: rest => do
      let (item, rest) ←
        if endsEntry rest then pure (empty, rest) else node true false steps rest
      let (more, rest) ← blockEntries steps rest
      return (item :: more, rest)
    | .blockEnd :: rest => return ([], rest)
    | tokens => refuse tokens .expectedBlockEnd

/-- The entries of a sequence at the indentation of its key; it has no end of its own. -/
def keyEntries : Nat → Reader (List Node)
  | 0, _ => throw .expectedNode
  | steps + 1, tokens =>
    match tokens with
    | .entry :: rest => do
      let (item, rest) ←
        if endsEntry rest || endsBlockValue rest then pure (empty, rest)
        else node true false steps rest
      let (more, rest) ← keyEntries steps rest
      return (item :: more, rest)
    | tokens => return ([], tokens)

def blockPairs : Nat → Reader (List (Node × Node))
  | 0, _ => throw .expectedBlockEnd
  | steps + 1, tokens =>
    match tokens with
    | .key :: rest => do
      let (key, rest) ←
        if endsBlockValue rest then pure (empty, rest) else node true true steps rest
      let (value, rest) ← match rest with
        | .value :: rest =>
          if endsBlockValue rest then pure (empty, rest) else node true true steps rest
        | rest => pure (empty, rest)
      let (more, rest) ← blockPairs steps rest
      return ((key, value) :: more, rest)
    | .blockEnd :: rest => return ([], rest)
    | tokens => refuse tokens .expectedBlockEnd

/-- A value behind a colon inside brackets, if there is one. -/
def flowValue (close : Token) : Nat → Reader Node
  | 0, _ => throw .expectedNode
  | steps + 1, tokens =>
    match tokens with
    | .value :: rest =>
      if endsItem close rest then return (empty, rest) else node false false steps rest
    | tokens => return (empty, tokens)

/-- The items of a sequence in brackets. A key among them makes a mapping of one entry. -/
def flowItems (first : Bool) : Nat → Reader (List Node)
  | 0, _ => throw .expectedSeparator
  | steps + 1, tokens =>
    match tokens with
    | .sequenceClose :: rest => return ([], rest)
    | tokens => do
      let tokens ← match first, tokens with
        | true, tokens => pure tokens
        | false, .comma :: rest => pure rest
        | false, tokens => refuse tokens .expectedSeparator
      match tokens with
      | .sequenceClose :: rest => return ([], rest)
      | .key :: rest =>
        let (key, rest) ←
          if startsValue rest || endsItem .sequenceClose rest then pure (empty, rest)
          else node false false steps rest
        let (value, rest) ← flowValue .sequenceClose steps rest
        let (more, rest) ← flowItems false steps rest
        return (.mapping .map [(key, value)] :: more, rest)
      | tokens =>
        let (item, rest) ← node false false steps tokens
        let (more, rest) ← flowItems false steps rest
        return (item :: more, rest)

def flowEntries (first : Bool) : Nat → Reader (List (Node × Node))
  | 0, _ => throw .expectedSeparator
  | steps + 1, tokens =>
    match tokens with
    | .mappingClose :: rest => return ([], rest)
    | tokens => do
      let tokens ← match first, tokens with
        | true, tokens => pure tokens
        | false, .comma :: rest => pure rest
        | false, tokens => refuse tokens .expectedSeparator
      match tokens with
      | .mappingClose :: rest => return ([], rest)
      | .key :: rest =>
        let (key, rest) ←
          if startsValue rest || endsItem .mappingClose rest then pure (empty, rest)
          else node false false steps rest
        let (value, rest) ← flowValue .mappingClose steps rest
        let (more, rest) ← flowEntries false steps rest
        return ((key, value) :: more, rest)
      | tokens =>
        let (key, rest) ← node false false steps tokens
        let (more, rest) ← flowEntries false steps rest
        return ((key, empty) :: more, rest)

end

/-! ### Documents -/

/-- Nothing but ends of documents may follow. -/
def finish : List Token → Reading Unit
  | [.streamEnd] => return ()
  | .documentEnd :: rest => finish rest
  | .directive _ :: rest => refuse (rest.dropWhile isDirective) .secondDocument
  | .documentStart :: _ => throw .secondDocument
  | tokens => refuse tokens .expectedDocument
where
  isDirective : Token → Bool
    | .directive _ => true
    | _ => false

/-- The root behind the start of a document. -/
def root (tokens : List Token) : Reading Node :=
  match tokens with
  | .directive _ :: _ | .documentStart :: _ | .documentEnd :: _ | [.streamEnd] => do
    finish tokens
    return empty
  | tokens => do
    let (root, rest) ← node true false (4 * tokens.length + 4) tokens
    finish rest
    return root

/-- The directives of a document up to its start. Each version and handle is given at most once. -/
def directed (hasVersion : Bool) (own : List (Text × Text)) : List Token → Reading Node
  | .directive d :: rest =>
    match d with
    | .version major =>
      if hasVersion then throw .repeatedDirective
      else if major ≠ 1 then throw .badVersion
      else directed true own rest
    | .handle handle start =>
      if (own.lookup handle).isSome then throw .repeatedDirective
      else directed hasVersion ((handle, start) :: own) rest
    | .unknown => directed hasVersion own rest
  | .documentStart :: rest => do
    modify fun c => { c with handles := own ++ c.handles }
    root rest
  | tokens => refuse tokens .expectedDocument

/-- The root of the one document; a stream without a document has an empty one. -/
def ofTokens (tokens : List Token) : Except Fault Node :=
  let reading : Reading Node := match tokens with
    | [.streamEnd] => pure empty
    | .directive _ :: _ | .documentStart :: _ => directed false [] tokens
    | .documentEnd :: _ => throw .expectedNode
    | tokens => root tokens
  (reading.run ⟨standardHandles, []⟩).map (·.1)

end Node
end TypedScript.Yaml
