import Markup.Number.Decimal

/-!
# Decimals scaled in steps

The value of a decimal when its digits are rounded first and then multiplied or divided by a
power of ten, with a rounding at every step. The result may be a few units in the last place away
from the nearest magnitude, and a decimal close to the largest magnitude may overflow.

- `Magnitude.times?`, `Magnitude.over?`: a product and a quotient, rounded.
- `Decimal.scaled?`: the value of a decimal, `none` when it overflows.
-/

namespace Markup

namespace Magnitude

/-- The magnitude nearest to a product. -/
def times? (m n : Magnitude) : Option Magnitude := nearest (m.units * n.units) unit

/-- The magnitude nearest to a quotient. -/
def over? (m n : Magnitude) : Option Magnitude := nearest (m.units * unit) n.units

/-- The exponent of the largest power of ten that does not overflow. -/
def maxPower : Nat := 308

/-- The magnitude nearest to a power of ten. -/
def tenTo? (power : Nat) : Option Magnitude := (⟨1, power⟩ : Decimal).magnitude?

/-- The magnitude multiplied by a power of ten. Zero stays zero, whatever the power. -/
def scaledUp? (m : Magnitude) (power : Nat) : Option Magnitude :=
  if m.isZero then some m else do m.times? (← tenTo? power)

/-- The magnitude divided so many times by the largest power of ten. -/
def dividedByMax? : Nat → Magnitude → Option Magnitude
  | 0, m => some m
  | times + 1, m =>
    if m.isZero then some m
    else do dividedByMax? times (← m.over? (← tenTo? maxPower))

/-- The magnitude divided by a power of ten above zero. A power beyond the largest is divided by
in steps. -/
def scaledDown? (m : Magnitude) (power : Nat) : Option Magnitude := do
  let steps := (power - 1) / maxPower
  (← dividedByMax? steps m).over? (← tenTo? (power - steps * maxPower))

end Magnitude

namespace Decimal

/-- The value of a decimal, scaled in steps. -/
def scaled? (d : Decimal) : Option Magnitude := do
  let m ← (⟨d.digits, 0⟩ : Decimal).magnitude?
  match d.exponent with
  | .ofNat e => m.scaledUp? e
  | .negSucc e => m.scaledDown? (e + 1)

end Decimal

end Markup
