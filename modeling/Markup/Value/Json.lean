import Markup.Value.Basic
import Markup.Json.Basic

/-!
# Values as JSON

Two ways from a value to JSON text. `Value.jsonText` writes numbers as they stand in markup;
`Value.serialized` goes through JSON data, where a whole number up to `2 ^ 53 - 1` is an integer
and any other number a floating-point token. Both write objects as their projections and numbers
that are not finite as `null`.

- `Value.toJson`, `Value.ofJson`: values and JSON data.
-/

namespace Markup.Value

mutual

/-- The JSON text embedded in markup. -/
def jsonText : Value → String
  | null => "null"
  | bool b => if b then "true" else "false"
  | number n => if n.isFinite then n.display else "null"
  | text s => Json.quote s
  | list items => "[" ++ ",".intercalate (jsonItems items) ++ "]"
  | map entries => "\x7b" ++ ",".intercalate (jsonEntries entries) ++ "\x7d"
  | object _ v => jsonText v

def jsonItems : List Value → List String
  | [] => []
  | v :: vs => jsonText v :: jsonItems vs

def jsonEntries : List (String × Value) → List String
  | [] => []
  | (k, v) :: es => (Json.quote k ++ ":" ++ jsonText v) :: jsonEntries es

end

/-- A number as JSON data. -/
def numberToJson (n : Number) : Json :=
  match n.safeInteger? with
  | some i => .integer i
  | none => if n.isFinite then .float n else .null

mutual

/-- The value as JSON data. -/
def toJson : Value → Json
  | null => .null
  | bool b => .bool b
  | number n => numberToJson n
  | text s => .text s
  | list items => .array (toJsonItems items)
  | map entries => .object (toJsonEntries entries)
  | object _ v => toJson v

def toJsonItems : List Value → List Json
  | [] => []
  | v :: vs => toJson v :: toJsonItems vs

def toJsonEntries : List (String × Value) → List (String × Json)
  | [] => []
  | (k, v) :: es => (k, toJson v) :: toJsonEntries es

end

mutual

/-- The value of JSON data: every number is a double-precision one, and a repeated key keeps its
first place and takes its last value. -/
def ofJson : Json → Value
  | .null => null
  | .bool b => bool b
  | .integer n => number (.ofInt n)
  | .float x => number x
  | .text s => text s
  | .array items => list (ofJsonItems items)
  | .object entries => map (Entries.collect (ofJsonEntries entries))

def ofJsonItems : List Json → List Value
  | [] => []
  | v :: vs => ofJson v :: ofJsonItems vs

def ofJsonEntries : List (String × Json) → List (String × Value)
  | [] => []
  | (k, v) :: es => (k, ofJson v) :: ofJsonEntries es

end

/-- The value written as JSON data. -/
def serialized (v : Value) : String := v.toJson.write

end Markup.Value
