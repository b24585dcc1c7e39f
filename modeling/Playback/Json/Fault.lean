import Playback.Json.Value
import Playback.Text.Quoted

namespace Playback.Json

inductive Found where
  | null
  | bool (b : Bool)
  | number (n : Number)
  | string (s : String)
  | sequence
  | map
  deriving DecidableEq, Repr

inductive Fault where
  | endInList
  | endInObject
  | endInString
  | endInValue
  | colonExpected
  | listSeparatorExpected
  | fieldSeparatorExpected
  | wordExpected
  | valueExpected
  | badEscape
  | badNumber
  | numberOutOfRange
  | controlInString
  | keyNotString
  | loneSurrogate
  | unfinishedSurrogate
  | trailingComma
  | trailingText
  | tooDeep
  | missingField (name : String)
  | duplicateField (name : String)
  | unknownVariant (name : String) (known : List String)
  | wrongType (found : Found) (wanted : String)
  | wrongLength (length : Nat) (wanted : String)
  | manyKeys
  | badInstant (why : String)
  deriving DecidableEq, Repr

/-- Faults are of three kinds: the text breaks off, it is malformed, or it says the wrong thing. -/
inductive Fault.Kind where
  | ending
  | form
  | content
  deriving DecidableEq, Repr

namespace Fault

def kind : Fault → Kind
  | endInList | endInObject | endInString | endInValue => .ending
  | missingField _ | duplicateField _ | unknownVariant .. | wrongType .. | wrongLength ..
  | manyKeys | badInstant _ => .content
  | _ => .form

def ticked (s : String) : String := "\x60" ++ s ++ "\x60"

def choice : List String → String
  | [] => "there are no variants"
  | [a] => "expected " ++ ticked a
  | [a, b] => "expected " ++ ticked a ++ " or " ++ ticked b
  | names => "expected one of " ++ ", ".intercalate (names.map ticked)

end Fault

def Found.text : Found → String
  | null => "null"
  | bool b => "boolean " ++ Fault.ticked (if b then "true" else "false")
  | number (.integer n) => "integer " ++ Fault.ticked (toString n)
  | number (.real x) => "floating point " ++ Fault.ticked (String.ofList x.text)
  | string s => "string " ++ Text.quoted s
  | sequence => "sequence"
  | map => "map"

namespace Fault

def message : Fault → String
  | endInList => "EOF while parsing a list"
  | endInObject => "EOF while parsing an object"
  | endInString => "EOF while parsing a string"
  | endInValue => "EOF while parsing a value"
  | colonExpected => "expected " ++ ticked ":"
  | listSeparatorExpected => "expected " ++ ticked "," ++ " or " ++ ticked "]"
  | fieldSeparatorExpected => "expected " ++ ticked "," ++ " or " ++ ticked "\x7d"
  | wordExpected => "expected ident"
  | valueExpected => "expected value"
  | badEscape => "invalid escape"
  | badNumber => "invalid number"
  | numberOutOfRange => "number out of range"
  | controlInString => "control character (\\u0000-\\u001F) found while parsing a string"
  | keyNotString => "key must be a string"
  | loneSurrogate => "lone leading surrogate in hex escape"
  | unfinishedSurrogate => "unexpected end of hex escape"
  | trailingComma => "trailing comma"
  | trailingText => "trailing characters"
  | tooDeep => "recursion limit exceeded"
  | missingField name => "missing field " ++ ticked name
  | duplicateField name => "duplicate field " ++ ticked name
  | unknownVariant name known => "unknown variant " ++ ticked name ++ ", " ++ choice known
  | wrongType found wanted => "invalid type: " ++ found.text ++ ", expected " ++ wanted
  | wrongLength length wanted => "invalid length " ++ toString length ++ ", expected " ++ wanted
  | manyKeys => "invalid value: map, expected map with a single key"
  | badInstant why => why

end Fault

def Value.found : Value → Found
  | .null => .null
  | .bool b => .bool b
  | .number n => .number n
  | .string s => .string s
  | .array _ => .sequence
  | .object _ => .map

end Playback.Json
