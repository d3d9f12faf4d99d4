import ReplicatedKv.Decimal.Layout
import ReplicatedKv.Text.Quoted

/-! # Faults of JSON documents

A document is read from left to right, and the first thing that is wrong with it is its fault.

* `Found` — what stands where something else was expected.
* `Fault` — what can be wrong, with its wording in `Fault.message`.
-/

namespace ReplicatedKv.Json

/-- A value that stands where one of another kind was expected. -/
inductive Found where
  | null
  | boolean (b : Bool)
  /-- A whole number of 64 bits, signed or unsigned, written without fraction or exponent. -/
  | integer (n : Int)
  /-- Any other number. -/
  | floating (x : Float)
  | text (s : String)
  | list
  | object
  deriving DecidableEq

/-- Numbers keep their fraction, and an exponent is written before more than sixteen digits or after
    more than four zeros. -/
def numberLayout : Decimal.Layout := ⟨16, 4, "+"⟩

def Found.label : Found → String
  | null => "null"
  | boolean b => "boolean `" ++ toString b ++ "`"
  | integer n => "integer `" ++ toString n ++ "`"
  | floating x => "floating point `" ++ numberLayout.render x ++ "`"
  | text s => "string " ++ Text.quoted s
  | list => "sequence"
  | object => "map"

/-- What is wrong with a document. -/
inductive Fault where
  /-- The document ends where an element or the end of a list was due. -/
  | endInList
  | endInObject
  | endInText
  /-- The document ends where a value was due, or inside a literal or number. -/
  | endInValue
  | expectedValue
  /-- Letters that begin like a literal and go on otherwise. -/
  | expectedLiteral
  | expectedColon
  /-- Something else than a comma or a bracket after an element. -/
  | expectedListSeparator
  /-- Something else than a comma or a brace after a member. -/
  | expectedObjectSeparator
  | nameNotText
  | trailingComma
  | trailingInput
  | invalidNumber
  | numberOutOfRange
  | invalidEscape
  /-- A leading surrogate without a second escape after it. -/
  | unpairedEscape
  /-- A trailing surrogate without a leading one, or an escape after a leading surrogate that is no
      trailing one. -/
  | loneSurrogate
  | controlCharacter
  | notUtf8
  | wrongType (found : Found) (expected : String)
  | missingField (name : String)
  | duplicateField (name : String)
  | unknownField (name : String) (known : List String)
  /-- A list with too few elements for a record. -/
  | wrongLength (found : Nat) (title : String) (expected : Nat)
  deriving DecidableEq

namespace Fault

def named (name : String) : String := "`" ++ name ++ "`"

def listed : List String → String
  | [] => ""
  | [name] => named name
  | name :: names => named name ++ ", " ++ listed names

/-- The wording of a fault.  It is the same wherever in the document the fault stands: the
    ` at line L column C` that a report may add behind it is left out. -/
def message : Fault → String
  | endInList => "EOF while parsing a list"
  | endInObject => "EOF while parsing an object"
  | endInText => "EOF while parsing a string"
  | endInValue => "EOF while parsing a value"
  | expectedValue => "expected value"
  | expectedLiteral => "expected ident"
  | expectedColon => "expected `:`"
  | expectedListSeparator => "expected `,` or `]`"
  | expectedObjectSeparator => "expected `,` or `\x7d`"
  | nameNotText => "key must be a string"
  | trailingComma => "trailing comma"
  | trailingInput => "trailing characters"
  | invalidNumber => "invalid number"
  | numberOutOfRange => "number out of range"
  | invalidEscape => "invalid escape"
  | unpairedEscape => "unexpected end of hex escape"
  | loneSurrogate => "lone leading surrogate in hex escape"
  | controlCharacter => "control character (\\u0000-\\u001F) found while parsing a string"
  | notUtf8 => "invalid unicode code point"
  | wrongType found expected => "invalid type: " ++ found.label ++ ", expected " ++ expected
  | missingField name => "missing field " ++ named name
  | duplicateField name => "duplicate field " ++ named name
  | unknownField name known =>
    "unknown field " ++ named name ++ ", expected one of " ++ listed known
  | wrongLength found title expected =>
    "invalid length " ++ toString found ++ ", expected " ++ title ++ " with "
      ++ toString expected ++ (if expected = 1 then " element" else " elements")

end Fault

end ReplicatedKv.Json
