import Markup.AttributeMap.Basic
import Markup.ClassList
import Markup.InlineStyle

/-!
# Attributes in markup

How one attribute is written in a tag, and how all of them are.

- `Attribute.of?`: what is written for a key and a value, if anything.
- `Attribute.write`: its text, a space in front.
- `Attribute.showApostrophes`: a text in apostrophes read back.
- `AttributeMap.attributes`: what is written for a map, the class list first.
- `Attribute.scan?`: the attributes of a text read back from the left.
-/

namespace Markup

/-- A text between quotation marks or between apostrophes. -/
inductive Quoted where
  | double (text : String)
  | single (text : String)
  deriving DecidableEq

/-- An attribute as written in a tag. One without a value is on by being there. -/
structure Attribute where
  name : String
  value : Option Quoted
  deriving DecidableEq

namespace Attribute

/-- The text of an attribute, a space in front. -/
def write (a : Attribute) : String :=
  match a.value with
  | none => " " ++ a.name
  | some (.double t) => " " ++ a.name ++ "=\"" ++ t ++ "\""
  | some (.single t) => " " ++ a.name ++ "='" ++ t ++ "'"

/-- A text with apostrophes as references. -/
def hideApostrophes (s : String) : String :=
  String.ofList (s.toList.flatMap fun c => if c = '\'' then "&#39;".toList else [c])

/-- A text with references to apostrophes as the apostrophes. -/
def showApostrophes : List Char → List Char
  | '&' :: '#' :: '3' :: '9' :: ';' :: cs => '\'' :: showApostrophes cs
  | c :: cs => c :: showApostrophes cs
  | [] => []

/-- The value written for a value that is neither absent nor a truth value. Texts stand as they
are and other values as JSON text; a JSON text with quotation marks that is not to be escaped
goes between apostrophes. -/
def quoted (value : Value) (escaped : Bool) : Quoted :=
  match value with
  | .text s => .double (if escaped then escape s else s)
  | v =>
    let json := v.jsonText
    if escaped then .double (escape json)
    else if json.toList.contains '"' then .single (hideApostrophes json)
    else .double json

/-- A value with an object replaced by its projection. -/
def projected : Value → Value
  | .object _ v => v
  | v => v

/-- What is written for a key and a value. Absent and `false` values are left out, and so are
falsy class lists and styles; `true` is written as the bare name if `terse`, and as the name
given to itself otherwise. -/
def of? (key : String) (value : Value) (escaped terse : Bool) : Option Attribute :=
  match value with
  | .null | .bool false => none
  | .bool true => some ⟨key, if terse then none else some (.double key)⟩
  | v =>
    if !v.isTruthy && (key == "class" || key == "style") then none
    else some ⟨key, some (quoted (projected v) escaped)⟩

end Attribute

/-- The text of one attribute, empty if it is left out. -/
def attributeText (key : String) (value : Value) (escaped terse : Bool) : String :=
  match Attribute.of? key value escaped terse with
  | some a => a.write
  | none => ""

namespace AttributeMap

/-- The value written for an entry: the class text and the style text under their keys. -/
def shown (key : String) (value : Value) : Value :=
  if key = "class" then .text value.classText
  else if key = "style" then .text value.styleText
  else value

/-- The attributes written for a map: the class list first, the others in their order. -/
def attributes (m : AttributeMap) (terse : Bool) : List Attribute :=
  (m.entries.filter (·.1 == "class") ++ m.entries.filter (·.1 != "class")).filterMap fun (k, v) =>
    Attribute.of? k (shown k v) false terse

/-- The text of a map in a tag. -/
def text (m : AttributeMap) (terse : Bool) : String :=
  String.join ((m.attributes terse).map Attribute.write)

end AttributeMap

/-! ### Reading attributes back -/

namespace Attribute

def isNameChar (c : Char) : Bool := c != ' ' && c != '=' && c != '"' && c != '\''

/-- The characters before the first `stop`, and those after it. -/
def until? (stop : Char) : List Char → Option (List Char × List Char)
  | [] => none
  | c :: cs =>
    if c = stop then some ([], cs)
    else (until? stop cs).map fun (before, after) => (c :: before, after)

/-- One attribute, its space in front, and what follows it. -/
def scanOne? : List Char → Option (Attribute × List Char)
  | ' ' :: cs =>
    let name := String.ofList (cs.takeWhile isNameChar)
    if name = "" then none
    else match cs.dropWhile isNameChar with
      | '=' :: '"' :: rest =>
        (until? '"' rest).map fun (t, rest) => (⟨name, some (.double (String.ofList t))⟩, rest)
      | '=' :: '\'' :: rest =>
        (until? '\'' rest).map fun (t, rest) => (⟨name, some (.single (String.ofList t))⟩, rest)
      | rest => some (⟨name, none⟩, rest)
  | _ => none

/-- The attributes of a text, at most `limit` of them. -/
def scanUpTo? : Nat → List Char → Option (List Attribute)
  | _, [] => some []
  | 0, _ :: _ => none
  | limit + 1, cs => do
    let (a, rest) ← scanOne? cs
    return a :: (← scanUpTo? limit rest)

/-- The attributes of a text. A quoted value ends at the first repeat of its opening mark. -/
def scan? (s : String) : Option (List Attribute) := scanUpTo? s.toList.length s.toList

end Attribute

end Markup
