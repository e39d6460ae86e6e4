/-
# What can be wrong with a JSON text

A reader goes through its text from left to right and stops at the first fault:
the text breaks the grammar (`syntax`), ends too early (`eof`), or holds a value
that the wanted type has no place for (`data`). Messages name what was met as a
`Token`: a scalar, or the opening of a list or an object.

Key definitions:
* `Token.describe`, `Fault.category`, `Fault.message`.
-/
import FrameFlow.Binary.Decimal
import FrameFlow.Text.Quote

namespace FrameFlow.Json

/-- The beginning of a value: a whole scalar, or an opening bracket. -/
inductive Token where
  | null
  | boolean (b : Bool)
  | integer (i : Int)
  | number (x : Double)
  | text (s : String)
  | list
  | object
deriving DecidableEq

/-- How a message names what was met. -/
def Token.describe : Token → String
  | .null => "null"
  | .boolean b => s!"boolean `{b}`"
  | .integer i => s!"integer `{String.ofList (integerText i)}`"
  | .number x => s!"floating point `{String.ofList (x.finiteText doubleStyle)}`"
  | .text s => s!"string {quoted s}"
  | .list => "sequence"
  | .object => "map"

/-- What a text was in the middle of when it ended. -/
inductive Unfinished where
  | list
  | object
  | text
  | value
deriving DecidableEq, Repr

/-- The first fault of a text. -/
inductive Fault where
  | endOf (what : Unfinished)
  | expectedColon
  | expectedCommaOrBracket
  | expectedCommaOrBrace
  | badKeyword
  | expectedValue
  | invalidEscape
  | invalidNumber
  | numberOutOfRange
  | controlCharacter
  | keyNotText
  | loneSurrogate
  | unpairedSurrogate
  | trailingComma
  | trailingCharacters
  | tooDeep
  | missingField (name : String)
  | duplicateField (name : String)
  | unknownVariant (name : String) (choices : List String)
  | wrongType (found : Token) (expected : String)
  | wrongValue (found : Token) (expected : String)
  | wrongLength (length : Nat) (expected : String)
deriving DecidableEq

/-- The three kinds of fault. -/
inductive Category where
  | grammar
  | data
  | eof
deriving DecidableEq, Repr

namespace Fault

def category : Fault → Category
  | endOf _ => .eof
  | missingField _ | duplicateField _ | unknownVariant .. | wrongType .. | wrongValue ..
  | wrongLength .. => .data
  | _ => .grammar

/-- The names a variant may have, as a message lists them. -/
def listChoices : List String → String
  | [a, b] => s!"`{a}` or `{b}`"
  | choices => "one of " ++ ", ".intercalate (choices.map fun c => s!"`{c}`")

def message : Fault → String
  | endOf .list => "EOF while parsing a list"
  | endOf .object => "EOF while parsing an object"
  | endOf .text => "EOF while parsing a string"
  | endOf .value => "EOF while parsing a value"
  | expectedColon => "expected `:`"
  | expectedCommaOrBracket => "expected `,` or `]`"
  | expectedCommaOrBrace => "expected `,` or `\x7d`"
  | badKeyword => "expected ident"
  | expectedValue => "expected value"
  | invalidEscape => "invalid escape"
  | invalidNumber => "invalid number"
  | numberOutOfRange => "number out of range"
  | controlCharacter => "control character (\\u0000-\\u001F) found while parsing a string"
  | keyNotText => "key must be a string"
  | loneSurrogate => "lone leading surrogate in hex escape"
  | unpairedSurrogate => "unexpected end of hex escape"
  | trailingComma => "trailing comma"
  | trailingCharacters => "trailing characters"
  | tooDeep => "recursion limit exceeded"
  | missingField name => s!"missing field `{name}`"
  | duplicateField name => s!"duplicate field `{name}`"
  | unknownVariant name choices => s!"unknown variant `{name}`, expected {listChoices choices}"
  | wrongType found expected => s!"invalid type: {found.describe}, expected {expected}"
  | wrongValue found expected => s!"invalid value: {found.describe}, expected {expected}"
  | wrongLength length expected => s!"invalid length {length}, expected {expected}"

end Fault
end FrameFlow.Json
