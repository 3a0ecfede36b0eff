import Markup.Number.Magnitude

/-!
# Decimals

`digits · 10 ^ exponent`, read into the nearest magnitude and written back.

- `Decimal.magnitude?`: the magnitude nearest to a decimal, `none` when it overflows.
- `Decimal.plain`: the decimal written without an exponent.
- `Decimal.scientific`: one digit, the others after a point, and a signed exponent.
-/

namespace Markup

/-- `digits · 10 ^ exponent`. -/
structure Decimal where
  digits : Nat
  exponent : Int
  deriving DecidableEq, Inhabited

namespace Decimal

/-- The magnitude nearest to the decimal, `none` when it overflows. The first two tests only
spare the arithmetic: from `10 ^ 401` on every decimal overflows, and one that far below a unit
rounds to zero. -/
def magnitude? (d : Decimal) : Option Magnitude :=
  match d.exponent with
  | .ofNat e =>
    if d.digits = 0 then some .zero
    else if 400 < e then none
    else Magnitude.nearest (d.digits * 10 ^ e * Magnitude.unit) 1
  | .negSucc e =>
    if d.digits.log2 + 1100 < e then some .zero
    else Magnitude.nearest (d.digits * Magnitude.unit) (10 ^ (e + 1))

/-! ### Writing -/

/-- The digits of a number in base ten. -/
def digitChars (n : Nat) : List Char := Nat.toDigits 10 n

/-- The exponent of the first digit. -/
def leading (d : Decimal) : Int := d.exponent + (digitChars d.digits).length - 1

/-- The decimal without an exponent; missing low digits are zeros, and only a decimal with a
fraction has a point. -/
def plain (d : Decimal) : List Char :=
  let ds := digitChars d.digits
  match d.exponent with
  | .ofNat e => ds ++ List.replicate e '0'
  | .negSucc e =>
    let places := e + 1
    if places < ds.length then ds.take (ds.length - places) ++ '.' :: ds.drop (ds.length - places)
    else '0' :: '.' :: (List.replicate (places - ds.length) '0' ++ ds)

/-- A signed exponent, `+` included. -/
def exponentChars : Int → List Char
  | .ofNat e => '+' :: digitChars e
  | .negSucc e => '-' :: digitChars (e + 1)

/-- One digit, the others after a point, and the exponent of the first digit. -/
def scientific (d : Decimal) : List Char :=
  let mantissa := match digitChars d.digits with
    | first :: second :: others => first :: '.' :: second :: others
    | ds => ds
  mantissa ++ 'e' :: exponentChars d.leading

/-- Whether the decimal has no fraction as written. -/
def isWhole (d : Decimal) : Bool :=
  match d.exponent with
  | .ofNat _ => true
  | .negSucc _ => false

end Decimal

end Markup
