import Markup.AttributeMap.Basic
import Markup.Json.Problem
import Markup.Number.Scaled

/-!
# Reading JSON

A reader goes over the characters of a text and hands on those it has not used. Where it stops
on a problem it says so with the characters before which it stopped.

- `Json.number`: a number whose sign is read. An integer that 64 bits hold is read exactly; any
  other number keeps the leading digits that 64 bits hold and is scaled in steps.
- `Json.value`, `Json.items`, `Json.members`: the grammar. At most `room` arrays and objects may
  stand inside one another; `fuel` bounds the steps, and twice the length of the text suffices.
- `Json.read`: a whole text as JSON data.
- `Value.read`: a whole text as a value.
- `AttributeMap.read`: a whole text as an attribute map.
-/

namespace Markup.Json

/-- A problem before `rest`. -/
def stopAt {α : Type} (problem : Problem) (rest : List Char) : Except Stop α :=
  .error ⟨problem, rest, 0⟩

/-- A problem that the next byte of `rest` causes. -/
def stopOn {α : Type} (problem : Problem) (rest : List Char) : Except Stop α :=
  .error ⟨problem, rest, 1⟩

def isBlank (c : Char) : Bool := c = ' ' || c = '\t' || c = '\n' || c = '\r'

def skipBlank (cs : List Char) : List Char := cs.dropWhile isBlank

/-! ### Words -/

/-- The rest of a word whose first letter is read. -/
def word : List Char → List Char → Except Stop (List Char)
  | [], cs => .ok cs
  | _ :: _, [] => stopAt .endInValue []
  | l :: ls, c :: cs => if c = l then word ls cs else stopOn .badWord (c :: cs)

/-! ### Texts -/

def hexDigit? (c : Char) : Option Nat :=
  if '0' ≤ c ∧ c ≤ '9' then some (c.toNat - 48)
  else if 'a' ≤ c ∧ c ≤ 'f' then some (c.toNat - 87)
  else if 'A' ≤ c ∧ c ≤ 'F' then some (c.toNat - 55)
  else none

/-- Four hexadecimal digits as a number. -/
def hex4? (a b c d : Char) : Option Nat := do
  return (((← hexDigit? a) * 16 + (← hexDigit? b)) * 16 + (← hexDigit? c)) * 16 + (← hexDigit? d)

/-- The four digits of an escape. -/
def hexEscape (cs : List Char) : Except Stop (Nat × List Char) :=
  if Text.byteSize cs < 4 then stopAt .endInText []
  else match cs with
    | a :: b :: c :: d :: rest =>
      match hex4? a b c d with
      | some n => .ok (n, rest)
      | none => .error ⟨.invalidEscape, cs, 4⟩
    | _ => .error ⟨.invalidEscape, cs, 4⟩

def isHighSurrogate (n : Nat) : Bool := 0xD800 ≤ n && n ≤ 0xDBFF

def isLowSurrogate (n : Nat) : Bool := 0xDC00 ≤ n && n ≤ 0xDFFF

/-- The character of a surrogate pair. -/
def joinSurrogates (high low : Nat) : Char :=
  .ofNat (0x10000 + (high - 0xD800) * 0x400 + (low - 0xDC00))

/-- The low half of a surrogate pair, which must follow in an escape of its own. -/
def lowSurrogate (high : Nat) : List Char → Except Stop (Char × List Char)
  | [] => stopAt .endInText []
  | '\\' :: [] => stopAt .endInText []
  | '\\' :: 'u' :: cs => do
    let (low, rest) ← hexEscape cs
    if isLowSurrogate low then return (joinSurrogates high low, rest)
    else stopAt .loneSurrogate rest
  | '\\' :: cs => stopOn .escapeBrokenOff cs
  | cs => stopOn .escapeBrokenOff cs

/-- An escape by number. -/
def unicodeEscape (cs : List Char) : Except Stop (Char × List Char) := do
  let (n, rest) ← hexEscape cs
  if isLowSurrogate n then stopAt .loneSurrogate rest
  else if isHighSurrogate n then lowSurrogate n rest
  else return (.ofNat n, rest)

/-- An escape whose backslash is read. -/
def escapedChar : List Char → Except Stop (Char × List Char)
  | [] => stopAt .endInText []
  | '"' :: cs => .ok ('"', cs)
  | '\\' :: cs => .ok ('\\', cs)
  | '/' :: cs => .ok ('/', cs)
  | 'b' :: cs => .ok ('\x08', cs)
  | 'f' :: cs => .ok ('\x0c', cs)
  | 'n' :: cs => .ok ('\n', cs)
  | 'r' :: cs => .ok ('\r', cs)
  | 't' :: cs => .ok ('\t', cs)
  | 'u' :: cs => unicodeEscape cs
  | cs => stopOn .invalidEscape cs

/-- The characters of a text whose opening mark is read, up to its closing one. -/
def textChars : Nat → List Char → Except Stop (List Char × List Char)
  | 0, _ | _, [] => stopAt .endInText []
  | fuel + 1, c :: cs =>
    if c = '"' then .ok ([], cs)
    else if c = '\\' then do
      let (c, rest) ← escapedChar cs
      let (others, rest) ← textChars fuel rest
      return (c :: others, rest)
    else if c.toNat < 32 then stopOn .controlCharacter (c :: cs)
    else do
      let (others, rest) ← textChars fuel cs
      return (c :: others, rest)

/-- A text whose opening mark is read. -/
def quotedText (cs : List Char) : Except Stop (String × List Char) := do
  let (chars, rest) ← textChars (cs.length + 1) cs
  return (String.ofList chars, rest)

/-! ### Numbers -/

/-- Takes digits on as long as 64 bits hold the number. Also counts those that are left out, from
the first that does not fit. -/
def takeDigits : Nat → List Char → Nat × Nat
  | n, [] => (n, 0)
  | n, d :: ds =>
    let next := 10 * n + (d.toNat - 48)
    if next < UInt64.size then takeDigits next ds else (n, ds.length + 1)

/-- The decimal of whole digits. Those left out count as zeros. -/
def wholeDigits (ds : List Char) : Decimal :=
  let (n, left) := takeDigits 0 ds
  ⟨n, left⟩

/-- A decimal with places after its point. Those left out do not count. -/
def withPlaces (d : Decimal) (places : List Char) : Decimal :=
  let (n, left) := takeDigits d.digits places
  ⟨n, d.exponent - (places.length - left)⟩

/-- A number with a fraction or an exponent, scaled in steps. It must not overflow. -/
def floatNumber (negative : Bool) (d : Decimal) (rest : List Char) :
    Except Stop (Json × List Char) :=
  match d.scaled? with
  | some m => .ok (float (.finite negative m), rest)
  | none => stopAt .numberOutOfRange rest

/-- A number without fraction and exponent: an integer if 64 bits hold it. -/
def wholeNumber (negative : Bool) (d : Decimal) (rest : List Char) :
    Except Stop (Json × List Char) :=
  if d.exponent ≠ 0 then floatNumber negative d rest
  else if negative then
    if 0 < d.digits ∧ d.digits ≤ 2 ^ (63 : Nat) then .ok (integer (-d.digits), rest)
    else floatNumber true d rest
  else .ok (integer d.digits, rest)

/-- The largest exponent that is counted in full. -/
def maxExponent : Nat := 2 ^ (31 : Nat) - 1

/-- The digits of an exponent, after its value so far. An exponent that grows beyond all bounds
makes the number zero, unless it is positive and the number is not: then it is out of range at
the digit that oversteps. -/
def exponentDigits (negative : Bool) (d : Decimal) (down : Bool) :
    Nat → List Char → Except Stop (Json × List Char)
  | value, [] => finish value []
  | value, c :: cs =>
    if c.isDigit then
      let next := 10 * value + (c.toNat - 48)
      if next ≤ maxExponent then exponentDigits negative d down next cs
      else if !down && d.digits ≠ 0 then stopAt .numberOutOfRange cs
      else .ok (float (.finite negative .zero), cs.dropWhile Char.isDigit)
    else finish value (c :: cs)
where
  finish (value : Nat) (rest : List Char) : Except Stop (Json × List Char) :=
    let change : Int := if down then -value else value
    floatNumber negative ⟨d.digits, d.exponent + change⟩ rest

/-- What follows the letter of an exponent. -/
def exponentPart (negative : Bool) (d : Decimal) (cs : List Char) :
    Except Stop (Json × List Char) :=
  let (down, cs) := match cs with
    | '+' :: cs => (false, cs)
    | '-' :: cs => (true, cs)
    | cs => (false, cs)
  match cs with
  | [] => stopAt .endInValue []
  | c :: _ =>
    if c.isDigit then exponentDigits negative d down 0 cs
    else stopOn .invalidNumber cs

def isExponentLetter (c : Char) : Bool := c = 'e' || c = 'E'

/-- What follows the point of a number. -/
def fractionPart (negative : Bool) (d : Decimal) (cs : List Char) :
    Except Stop (Json × List Char) :=
  let places := cs.takeWhile Char.isDigit
  match places, cs.dropWhile Char.isDigit with
  | [], [] => stopAt .endInValue []
  | [], rest => stopOn .invalidNumber rest
  | _, c :: rest =>
    if isExponentLetter c then exponentPart negative (withPlaces d places) rest
    else floatNumber negative (withPlaces d places) (c :: rest)
  | _, [] => floatNumber negative (withPlaces d places) []

/-- What follows the whole digits of a number. -/
def afterDigits (negative : Bool) (d : Decimal) : List Char → Except Stop (Json × List Char)
  | [] => wholeNumber negative d []
  | c :: rest =>
    if c = '.' then fractionPart negative d rest
    else if isExponentLetter c then exponentPart negative d rest
    else wholeNumber negative d (c :: rest)

/-- A number whose sign is read. -/
def number (negative : Bool) : List Char → Except Stop (Json × List Char)
  | [] => stopAt .endInValue []
  | '0' :: c :: cs =>
    if c.isDigit then stopOn .invalidNumber (c :: cs) else afterDigits negative ⟨0, 0⟩ (c :: cs)
  | c :: cs =>
    if c.isDigit then
      afterDigits negative (wholeDigits ((c :: cs).takeWhile Char.isDigit))
        ((c :: cs).dropWhile Char.isDigit)
    else stopOn .invalidNumber (c :: cs)

/-! ### Values -/

/-- Where the key of a member begins: at a quotation mark. -/
def keyStart : List Char → Except Stop (List Char)
  | '"' :: cs => .ok cs
  | cs => stopOn .keyNotText cs

/-- The value of a member begins after a colon. -/
def afterColon (cs : List Char) : Except Stop (List Char) :=
  match skipBlank cs with
  | [] => stopAt .endInObject []
  | ':' :: cs => .ok cs
  | cs => stopOn .noColon cs

/-- The next item of an array begins here, or after a comma. -/
def itemStart (first : Bool) (cs : List Char) : Except Stop (List Char) :=
  if first then .ok cs
  else match cs with
    | ',' :: cs =>
      match skipBlank cs with
      | [] => stopAt .endInValue []
      | ']' :: cs => stopOn .trailingComma (']' :: cs)
      | cs => .ok cs
    | cs => stopOn .noCommaInArray cs

/-- The key of the next member of an object begins here, or after a comma. -/
def memberStart (first : Bool) (cs : List Char) : Except Stop (List Char) :=
  if first then keyStart cs
  else match cs with
    | ',' :: cs =>
      match skipBlank cs with
      | [] => stopAt .endInValue []
      | '}' :: cs => stopOn .trailingComma ('}' :: cs)
      | cs => keyStart cs
    | cs => stopOn .noCommaInObject cs

mutual

/-- A value, blanks in front. -/
def value : Nat → Nat → List Char → Except Stop (Json × List Char)
  | 0, _, cs => stopAt .endInValue cs
  | fuel + 1, room, cs =>
    match skipBlank cs with
    | [] => stopAt .endInValue []
    | c :: cs =>
      if c = 'n' then do return (null, ← word ['u', 'l', 'l'] cs)
      else if c = 't' then do return (bool true, ← word ['r', 'u', 'e'] cs)
      else if c = 'f' then do return (bool false, ← word ['a', 'l', 's', 'e'] cs)
      else if c = '-' then number true cs
      else if c.isDigit then number false (c :: cs)
      else if c = '"' then do
        let (s, rest) ← quotedText cs
        return (text s, rest)
      else if c = '[' then
        if room = 0 then stopOn .tooDeep (c :: cs)
        else do
          let (vs, rest) ← items fuel (room - 1) true cs
          return (array vs, rest)
      else if c = '{' then
        if room = 0 then stopOn .tooDeep (c :: cs)
        else do
          let (es, rest) ← members fuel (room - 1) true cs
          return (object es, rest)
      else stopOn .noValue (c :: cs)

/-- The items of an array up to its closing bracket. -/
def items : Nat → Nat → Bool → List Char → Except Stop (List Json × List Char)
  | 0, _, _, cs => stopAt .endInArray cs
  | fuel + 1, room, first, cs =>
    match skipBlank cs with
    | [] => stopAt .endInArray []
    | ']' :: rest => .ok ([], rest)
    | cs => do
      let cs ← itemStart first cs
      let (v, rest) ← value fuel room cs
      let (vs, rest) ← items fuel room false rest
      return (v :: vs, rest)

/-- The members of an object up to its closing brace. -/
def members : Nat → Nat → Bool → List Char → Except Stop (List (String × Json) × List Char)
  | 0, _, _, cs => stopAt .endInObject cs
  | fuel + 1, room, first, cs =>
    match skipBlank cs with
    | [] => stopAt .endInObject []
    | '}' :: rest => .ok ([], rest)
    | cs => do
      let cs ← memberStart first cs
      let (k, rest) ← quotedText cs
      let rest ← afterColon rest
      let (v, rest) ← value fuel room rest
      let (es, rest) ← members fuel room false rest
      return ((k, v) :: es, rest)

end

/-! ### Whole texts -/

/-- How many arrays and objects may stand inside one another. -/
def maxDepth : Nat := 127

/-- Nothing but blanks may follow. -/
def ending (cs : List Char) : Except Stop Unit :=
  match skipBlank cs with
  | [] => .ok ()
  | cs => stopOn .trailingCharacters cs

/-- A whole text in which at most so many arrays and objects stand inside one another. -/
def wholeWithin (room : Nat) (cs : List Char) : Except Stop Json := do
  let (v, rest) ← value (2 * cs.length + 2) room cs
  ending rest
  return v

/-- A whole text. -/
def whole (cs : List Char) : Except Stop Json := wholeWithin maxDepth cs

/-- A text as JSON data. -/
def read (s : String) : Except ReadError Json :=
  (whole s.toList).mapError (Stop.locate s.toList)

/-- A scalar in place of an object. -/
def notAnObject (v : Json) (rest : List Char) : Except Stop (List (String × Json)) :=
  match v with
  | null => stopAt (.notAnObject .null) rest
  | bool b => stopAt (.notAnObject (.bool b)) rest
  | integer n => stopAt (.notAnObject (.integer n)) rest
  | float x => stopAt (.notAnObject (.float x)) rest
  | text s => stopAt (.notAnObject (.text s)) rest
  | array _ | object _ => stopAt (.notAnObject .array) rest

/-- The members of a whole text that is an object. Another value is read only as far as its
first bracket. -/
def wholeObject (cs : List Char) : Except Stop (List (String × Json)) :=
  match skipBlank cs with
  | '{' :: rest => do
    let (es, rest) ← members (2 * cs.length + 1) (maxDepth - 1) true rest
    ending rest
    return es
  | '[' :: rest => stopAt (.notAnObject .array) ('[' :: rest)
  | rest => do
    let (v, rest) ← value 1 maxDepth rest
    notAnObject v rest

end Markup.Json

namespace Markup

/-- A JSON text as a value. -/
def Value.read (s : String) : Except Json.ReadError Value := do
  return ofJson (← Json.read s)

/-- A JSON text as an attribute map. -/
def AttributeMap.read (s : String) : Except Json.ReadError AttributeMap :=
  match Json.wholeObject s.toList with
  | .ok es => .ok (.ofList (es.map fun (k, v) => (k, Value.ofJson v)))
  | .error stop => .error (stop.locate s.toList)

end Markup
