import Markup.Number.Basic

/-!
# Number literals

A literal is a sign, digits, places after a point and a power of ten, all but the digits left out
at will. It denotes a decimal exactly, and the number nearest to that.

- `Literal.ofChars?`: the literal that a text is.
- `Literal.decimal`, `Literal.number`: what it denotes.
-/

namespace Markup

/-- The parts of a number as written. -/
structure Literal where
  negative : Bool
  digits : List Char
  /-- the digits after the point -/
  places : List Char := []
  power : Int := 0
  deriving DecidableEq

namespace Literal

/-- The number that digits denote. -/
def digitsValue (ds : List Char) : Nat := ds.foldl (fun n d => 10 * n + (d.toNat - 48)) 0

/-- The decimal that a literal denotes, without its sign. -/
def decimal (l : Literal) : Decimal :=
  ⟨digitsValue (l.digits ++ l.places), l.power - l.places.length⟩

/-- The number nearest to a literal. -/
def number (l : Literal) : Number := .ofDecimal l.negative l.decimal

/-! ### Reading -/

/-- A sign, a minus being true, and what follows it. -/
def sign : List Char → Bool × List Char
  | '-' :: cs => (true, cs)
  | '+' :: cs => (false, cs)
  | cs => (false, cs)

/-- The digits after a point, and what follows them. -/
def pointPart? : List Char → Option (List Char × List Char)
  | '.' :: cs =>
    if cs.takeWhile Char.isDigit = [] then none
    else some (cs.takeWhile Char.isDigit, cs.dropWhile Char.isDigit)
  | cs => some ([], cs)

/-- The power of ten that is all that is left. -/
def powerPart? : List Char → Option Int
  | [] => some 0
  | c :: cs =>
    let (negative, ds) := sign cs
    if (c = 'e' ∨ c = 'E') ∧ ds ≠ [] ∧ ds.all Char.isDigit then
      some (if negative then -(digitsValue ds : Int) else digitsValue ds)
    else none

/-- The literal that a text is. -/
def ofChars? (cs : List Char) : Option Literal := do
  let (negative, cs) := sign cs
  let digits := cs.takeWhile Char.isDigit
  if digits = [] then none
  else do
    let (places, cs) ← pointPart? (cs.dropWhile Char.isDigit)
    return ⟨negative, digits, places, ← powerPart? cs⟩

end Literal

end Markup
