import TypedScript.Text.Quoted

set_option autoImplicit false

/-!
Why a YAML document cannot be read: it is not well-formed, or a number, a truth
value or a character in it cannot be built.
-/

namespace TypedScript.Yaml

inductive Fault where
  | unprintable
  | cannotStart (c : Char)
  | entryHere
  | keyHere
  | valueHere
  | missingColon
  | unclosedQuote
  | markerInQuote
  | unknownEscape
  | shortEscape
  | badName
  | badTag
  | badDirective
  | badBlockHeader
  | expectedNode
  | expectedBlockEnd
  | expectedSeparator
  | expectedDocument
  | secondDocument
  | repeatedDirective
  | badVersion
  | undefinedHandle (handle : Text)
  | undefinedAlias (name : Text)
  | repeatedAnchor (name : Text)
  | keylessKey
  | mergeOfScalar
  | unknownTag
  | expectedScalar
  | expectedSequence
  | expectedMapping
  | badBinary
  | badInteger (base : Nat) (digits : Text)
  | longInteger (digits : Nat)
  | badFloat (t : Text)
  | badBoolean (t : Text)
  | emptyNumber
  | noCharacter
  | hugeCode
  deriving DecidableEq, Repr

/-- Whether the document itself is at fault, and not a value or character in it. -/
def Fault.isMalformed : Fault → Bool
  | .badInteger .. | .longInteger _ | .badFloat _ | .badBoolean _ | .emptyNumber | .noCharacter
  | .hugeCode => false
  | _ => true

/-- The class of a fault that is not the document's. -/
def Fault.kind : Fault → String
  | .badBoolean _ => "KeyError"
  | .emptyNumber => "IndexError"
  | .hugeCode => "OverflowError"
  | _ => "ValueError"

def Fault.message : Fault → String
  | .unprintable => "special characters are not allowed"
  | .cannotStart c => s!"found character '{c}' that cannot start any token"
  | .entryHere => "sequence entries are not allowed here"
  | .keyHere => "mapping keys are not allowed here"
  | .valueHere => "mapping values are not allowed here"
  | .missingColon => "could not find expected ':'"
  | .unclosedQuote => "found unexpected end of stream"
  | .markerInQuote => "found unexpected document separator"
  | .unknownEscape => "found unknown escape character"
  | .shortEscape => "expected more hexadecimal digits"
  | .badName => "expected alphabetic or numeric character"
  | .badTag => "expected a tag"
  | .badDirective => "expected a directive"
  | .badBlockHeader => "expected chomping or indentation indicators"
  | .expectedNode => "expected the node content"
  | .expectedBlockEnd => "expected the end of a block"
  | .expectedSeparator => "expected ',' or a closing bracket"
  | .expectedDocument => "expected the start of a document"
  | .secondDocument => "expected a single document in the stream"
  | .repeatedDirective => "found duplicate directive"
  | .badVersion => "found incompatible YAML document"
  | .undefinedHandle handle => "found undefined tag handle " ++ quoted handle
  | .undefinedAlias name => "found undefined alias " ++ quoted name
  | .repeatedAnchor name => "found duplicate anchor " ++ quoted name
  | .keylessKey => "found unhashable key"
  | .mergeOfScalar => "expected a mapping or list of mappings for merging"
  | .unknownTag => "could not determine a constructor for the tag"
  | .expectedScalar => "expected a scalar node"
  | .expectedSequence => "expected a sequence node"
  | .expectedMapping => "expected a mapping node"
  | .badBinary => "failed to decode base64 data"
  | .badInteger base digits => s!"invalid literal for int() with base {base}: " ++ quoted digits
  | .longInteger digits =>
    s!"Exceeds the limit (4300 digits) for integer string conversion: value has {digits} digits; use sys.set_int_max_str_digits() to increase the limit"
  | .badFloat t => "could not convert string to float: " ++ quoted t
  | .badBoolean t => quoted t
  | .emptyNumber => "string index out of range"
  | .noCharacter => "chr() arg not in range(0x110000)"
  | .hugeCode => "Python int too large to convert to C int"

end TypedScript.Yaml
