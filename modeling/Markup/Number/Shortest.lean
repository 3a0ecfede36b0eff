import Markup.Number.Decimal

/-!
# Shortest decimals

`Magnitude.shortest` is the decimal of fewest digits that reads back as the magnitude and, of
those, the nearest; a value half-way between two of them goes as the `Tie` says.

The search tries the grids of decimals from coarse to fine. On each grid only the two
neighbours of the value matter: when a point of the grid reads back, so does one of them.
-/

namespace Markup

/-- Where a value half-way between two decimals goes. -/
inductive Tie where
  /-- away from zero -/
  | up
  /-- to the even digit -/
  | even
  deriving DecidableEq

namespace Magnitude

/-- The exponent of the first decimal digit of a magnitude above zero. -/
def leading (m : Magnitude) : Int :=
  (Decimal.digitChars (m.units * 10 ^ (400 : Nat) / unit)).length - 401

/-- The magnitude as a quotient of steps of size `10 ^ grid`. -/
def inSteps (m : Magnitude) : Int → Nat × Nat
  | .ofNat g => (m.units, unit * 10 ^ g)
  | .negSucc g => (m.units * 10 ^ (g + 1), unit)

/-- Of the two neighbours of the magnitude on a grid, the one to write, if any reads back. -/
def onGrid? (tie : Tie) (m : Magnitude) (grid : Int) : Option Decimal :=
  let (num, den) := m.inSteps grid
  let low : Decimal := ⟨num / den, grid⟩
  let high : Decimal := ⟨num / den + 1, grid⟩
  match low.magnitude? == some m, high.magnitude? == some m with
  | false, false => none
  | true, false => some low
  | false, true => some high
  | true, true =>
    if 2 * (num % den) < den then some low
    else if den < 2 * (num % den) then some high
    else match tie with
      | .up => some high
      | .even => if low.digits % 2 = 0 then some low else some high

/-- The magnitude as a decimal, in full. -/
def exact (m : Magnitude) : Decimal := ⟨m.units * 5 ^ (1074 : Nat), -1074⟩

/-- The shortest decimal that reads back as the magnitude. Seventeen digits always suffice. -/
def shortest (tie : Tie) (m : Magnitude) : Decimal :=
  ((List.range 18).findSome? fun (digits : Nat) =>
    m.onGrid? tie (m.leading + 1 - digits)).getD m.exact

end Magnitude

end Markup
