import Markup.Text.Bytes
import Markup.Value.Display

/-!
# Escaping

`escape` writes the four characters that markup reserves as named entities.

The pass goes over the bytes of the text. It notes the spans between the reserved bytes, with an
entity after each, and then copies the spans; the reserved characters are ASCII, so that every
span begins and ends between two characters. `substitute` is the same escaping said character by
character, and `unescape` reads the four entities back.
-/

namespace Markup

namespace Escape

/-- The entity of a reserved character. -/
def entity? (c : Char) : Option String :=
  if c = '"' then some "&quot;"
  else if c = '&' then some "&amp;"
  else if c = '<' then some "&lt;"
  else if c = '>' then some "&gt;"
  else none

/-- The entity of a reserved byte. -/
def byteEntity? (b : UInt8) : Option String :=
  if b = 34 then some "&quot;"
  else if b = 38 then some "&amp;"
  else if b = 60 then some "&lt;"
  else if b = 62 then some "&gt;"
  else none

/-- What the pass copies into its result. -/
inductive Piece where
  /-- the bytes from `start` to before `stop` -/
  | span (start stop : Nat)
  | entity (name : String)
  deriving DecidableEq

/-- The pieces of a text from byte `i` on, when the bytes from `last` on are not yet copied. -/
def pieces (i last : Nat) : List UInt8 → List Piece
  | [] => [.span last i]
  | b :: bs =>
    match byteEntity? b with
    | some name => .span last i :: .entity name :: pieces (i + 1) (i + 1) bs
    | none => pieces (i + 1) last bs

/-- The characters of a piece, if it cuts the text between characters. -/
def Piece.copy? (cs : List Char) : Piece → Option (List Char)
  | .span start stop => Text.slice? cs start stop
  | .entity name => some name.toList

/-- The pieces copied one after the other. -/
def assemble? (cs : List Char) (ps : List Piece) : Option (List Char) :=
  (ps.mapM (Piece.copy? cs)).map List.flatten

/-- Whether the text holds a reserved character. -/
def isNeeded (s : String) : Bool := (Text.bytes s.toList).any fun b => (byteEntity? b).isSome

end Escape

open Escape

/-- The text with reserved characters as entities. A text without any is handed back as it is. -/
def escape (s : String) : String :=
  if isNeeded s then
    match assemble? s.toList (pieces 0 0 (Text.bytes s.toList)) with
    | some cs => String.ofList cs
    | none => s
  else s

namespace Escape

/-- One character, as an entity if it is reserved. -/
def substituteChar (c : Char) : List Char :=
  match entity? c with
  | some name => name.toList
  | none => [c]

/-- The text with each character replaced on its own. -/
def substitute (s : String) : String := String.ofList (s.toList.flatMap substituteChar)

/-- The four entities read back, in one pass from the left. -/
def unescapeChars : List Char → List Char
  | '&' :: 'q' :: 'u' :: 'o' :: 't' :: ';' :: cs => '"' :: unescapeChars cs
  | '&' :: 'a' :: 'm' :: 'p' :: ';' :: cs => '&' :: unescapeChars cs
  | '&' :: 'l' :: 't' :: ';' :: cs => '<' :: unescapeChars cs
  | '&' :: 'g' :: 't' :: ';' :: cs => '>' :: unescapeChars cs
  | c :: cs => c :: unescapeChars cs
  | [] => []

def unescape (s : String) : String := String.ofList (unescapeChars s.toList)

/-- The texts that escaping gives: entities, and characters that are not reserved. -/
inductive IsEscaped : List Char → Prop where
  | nil : IsEscaped []
  | plain {c : Char} {cs : List Char} : entity? c = none → IsEscaped cs → IsEscaped (c :: cs)
  | entity {c : Char} {name : String} {cs : List Char} :
    entity? c = some name → IsEscaped cs → IsEscaped (name.toList ++ cs)

end Escape

/-- The text of a value, escaped. -/
def Value.escaped (v : Value) : String := escape v.display

end Markup
