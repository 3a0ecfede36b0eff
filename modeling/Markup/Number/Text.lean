import Markup.Number.Basic
import Markup.Number.Shortest

/-!
# Number text

Three spellings of the shortest digits.

- `Number.display`: the spelling of text and markup. Plain from `1e-6` up to below `1e21`,
  integers without a fraction, zeros without a sign.
- `Number.floatToken`: the spelling of a floating-point token. Plain while the first digit has an
  exponent from −5 to 15, and always with a point or an exponent.
- `Number.positional`: a floating-point token that never has an exponent.
-/

namespace Markup

namespace Magnitude

/-- `10 ^ 21`. -/
def tenTo21 : Magnitude :=
  ⟨2 ^ (4 : Nat) * 5 ^ (21 : Nat), 1074 + 17, by decide, by decide, by decide⟩

/-- The magnitude nearest to `10 ^ -6`. -/
def tenToMinus6 : Magnitude := ((⟨1, -6⟩ : Decimal).magnitude?).getD .zero

/-- Whether text shows the magnitude with an exponent. -/
def wantsExponent (m : Magnitude) : Bool :=
  tenTo21.units ≤ m.units || m.units < tenToMinus6.units

end Magnitude

namespace Number

def signed (negative : Bool) (body : List Char) : String :=
  String.ofList (if negative then '-' :: body else body)

/-- The text of a number in markup. -/
def display : Number → String
  | nan => "NaN"
  | infinite negative => signed negative "Infinity".toList
  | finite negative m =>
    if m.isZero then "0"
    else
      let d := m.shortest .up
      signed negative (if m.wantsExponent then d.scientific else d.plain)

/-- A plain decimal that keeps a point. -/
def withPoint (d : Decimal) : List Char :=
  d.plain ++ if d.isWhole then ['.', '0'] else []

/-- A floating-point token: a point or an exponent tells it from an integer. -/
def floatToken : Number → String
  | nan | infinite _ => "null"
  | finite negative m =>
    signed negative <|
      if m.isZero then ['0', '.', '0']
      else
        let d := m.shortest .even
        if -5 ≤ d.leading && d.leading < 16 then withPoint d else d.scientific

/-- A floating-point token without an exponent, whatever its size. -/
def positional : Number → String
  | nan => "NaN"
  | infinite negative => signed negative "inf".toList
  | finite negative m =>
    signed negative (if m.isZero then ['0', '.', '0'] else withPoint (m.shortest .up))

end Number

end Markup
