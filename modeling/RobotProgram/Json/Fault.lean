import RobotProgram.Json.Printer
import RobotProgram.Text.Quoted

/-!
# What can be wrong with a JSON text

## Main definitions

* `Json.Fault`: the causes for which a text or a value is not read.
* `Json.Fault.category`: whether the text ended early, is malformed, or holds something else.
* `Json.Fault.message`: the wording.
-/

namespace RobotProgram.Json

/-- What was still open when a text ended. -/
inductive Unfinished where
  | value | list | object | string
  deriving DecidableEq

/-- A value as a message names it. -/
inductive Shown where
  | null
  | boolean (value : Bool)
  | integer (value : Int)
  | float (value : Binary64)
  | string (value : String)
  | sequence
  | map
  deriving DecidableEq

inductive Fault where
  | ended (what : Unfinished)
  | expectedValue
  | expectedWord
  | expectedCommaOrBracket
  | expectedCommaOrBrace
  | expectedColon
  | keyNotString
  | trailingComma
  | trailingCharacters
  | invalidNumber
  | numberOutOfRange
  | invalidEscape
  | loneSurrogate
  | unfinishedSurrogates
  | controlCharacter
  | tooDeep
  | missingField (name : String)
  | duplicateField (name : String)
  | wrongType (got : Shown) (want : String)
  | wrongValue (got : Shown) (want : String)
  | wrongLength (length : Nat) (want : String)
  deriving DecidableEq

/-- The three families of faults. -/
inductive Category where
  | eof | malformed | data
  deriving DecidableEq

def Category.name : Category → String
  | .eof => "eof"
  | .malformed => "syntax"
  | .data => "data"

/-- How a value is named in a message. -/
def Shown.text : Shown → String
  | .null => "null"
  | .boolean b => "boolean `" ++ String.ofList (boolText b) ++ "`"
  | .integer i => "integer `" ++ String.ofList (intText i) ++ "`"
  | .float x => "floating point `" ++ String.ofList (floatText x) ++ "`"
  | .string s => "string " ++ Text.quoted s
  | .sequence => "sequence"
  | .map => "map"

/-- A value as a message names it. -/
def shown : Json → Shown
  | .null => .null
  | .bool b => .boolean b
  | .integer i => .integer i.val
  | .float x => .float x
  | .string s => .string s
  | .array _ => .sequence
  | .object _ => .map

namespace Fault

def category : Fault → Category
  | .ended _ => .eof
  | .missingField _ | .duplicateField _ | .wrongType _ _ | .wrongValue _ _ | .wrongLength _ _ =>
    .data
  | _ => .malformed

def message : Fault → String
  | .ended .value => "EOF while parsing a value"
  | .ended .list => "EOF while parsing a list"
  | .ended .object => "EOF while parsing an object"
  | .ended .string => "EOF while parsing a string"
  | .expectedValue => "expected value"
  | .expectedWord => "expected ident"
  | .expectedCommaOrBracket => "expected `,` or `]`"
  | .expectedCommaOrBrace => "expected `,` or `\x7d`"
  | .expectedColon => "expected `:`"
  | .keyNotString => "key must be a string"
  | .trailingComma => "trailing comma"
  | .trailingCharacters => "trailing characters"
  | .invalidNumber => "invalid number"
  | .numberOutOfRange => "number out of range"
  | .invalidEscape => "invalid escape"
  | .loneSurrogate => "lone leading surrogate in hex escape"
  | .unfinishedSurrogates => "unexpected end of hex escape"
  | .controlCharacter => "control character (\\u0000-\\u001F) found while parsing a string"
  | .tooDeep => "recursion limit exceeded"
  | .missingField name => "missing field `" ++ name ++ "`"
  | .duplicateField name => "duplicate field `" ++ name ++ "`"
  | .wrongType got want => "invalid type: " ++ got.text ++ ", expected " ++ want
  | .wrongValue got want => "invalid value: " ++ got.text ++ ", expected " ++ want
  | .wrongLength n want => "invalid length " ++ toString n ++ ", expected " ++ want

end Fault

end RobotProgram.Json
