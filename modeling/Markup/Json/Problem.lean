import Markup.Text.Bytes
import Markup.Text.Quoted
import Markup.Number.Text

/-!
# What is wrong with a JSON text

- `Json.Problem`: the problems a reader meets, with their kinds and wordings.
- `Json.Stop`: a problem and the place in the text where the reader stopped.
- `Json.ReadError`: a problem with its line and column, both as messages count them.
-/

namespace Markup.Json

/-- What stands where an object is wanted. -/
inductive Found where
  | null
  | bool (b : Bool)
  | integer (n : Int)
  | float (x : Number)
  | text (s : String)
  | array
  deriving DecidableEq

def Found.describe : Found → String
  | null => "null"
  | bool b => "boolean `" ++ (if b then "true" else "false") ++ "`"
  | integer n => "integer `" ++ toString n ++ "`"
  | float x => "floating point `" ++ x.floatToken ++ "`"
  | text s => "string " ++ Text.quotedInMessage s
  | array => "sequence"

inductive Problem where
  | endInValue
  | endInObject
  | endInArray
  | endInText
  | noValue
  | badWord
  | keyNotText
  | noColon
  | noCommaInObject
  | noCommaInArray
  | trailingComma
  | trailingCharacters
  | invalidNumber
  | numberOutOfRange
  | controlCharacter
  | invalidEscape
  | loneSurrogate
  | escapeBrokenOff
  | tooDeep
  | notAnObject (found : Found)
  deriving DecidableEq

/-- The three kinds of problem. -/
inductive Kind where
  /-- the text breaks a rule of the grammar -/
  | grammar
  /-- the text ends too early -/
  | ending
  /-- the text is JSON, but not of the shape that is wanted -/
  | shape
  deriving DecidableEq

namespace Problem

def kind : Problem → Kind
  | endInValue | endInObject | endInArray | endInText => .ending
  | notAnObject _ => .shape
  | _ => .grammar

def message : Problem → String
  | endInValue => "EOF while parsing a value"
  | endInObject => "EOF while parsing an object"
  | endInArray => "EOF while parsing a list"
  | endInText => "EOF while parsing a string"
  | noValue => "expected value"
  | badWord => "expected ident"
  | keyNotText => "key must be a string"
  | noColon => "expected `:`"
  | noCommaInObject => "expected `,` or `\x7d`"
  | noCommaInArray => "expected `,` or `]`"
  | trailingComma => "trailing comma"
  | trailingCharacters => "trailing characters"
  | invalidNumber => "invalid number"
  | numberOutOfRange => "number out of range"
  | controlCharacter => "control character (\\u0000-\\u001F) found while parsing a string"
  | invalidEscape => "invalid escape"
  | loneSurrogate => "lone leading surrogate in hex escape"
  | escapeBrokenOff => "unexpected end of hex escape"
  | tooDeep => "recursion limit exceeded"
  | notAnObject found => "invalid type: " ++ found.describe ++ ", expected a map"

end Problem

/-- A problem with its line, counted from one, and the bytes of that line up to it. -/
structure ReadError where
  problem : Problem
  line : Nat
  column : Nat
  deriving DecidableEq

namespace ReadError

def kind (e : ReadError) : Kind := e.problem.kind

def message (e : ReadError) : String :=
  e.problem.message ++ " at line " ++ toString e.line ++ " column " ++ toString e.column

end ReadError

/-- A problem met before `rest`. The place that a message names is `ahead` bytes into `rest`, to
count the bytes that caused the problem. -/
structure Stop where
  problem : Problem
  rest : List Char
  ahead : Nat
  deriving DecidableEq

/-- The place of a problem in the text that was read. -/
def Stop.locate (text : List Char) (s : Stop) : ReadError :=
  let before := (Text.bytes text).take (Text.byteSize text - Text.byteSize s.rest + s.ahead)
  { problem := s.problem
    line := before.count 10 + 1
    column := (before.reverse.takeWhile (· != 10)).length }

end Markup.Json
