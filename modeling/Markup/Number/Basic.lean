import Markup.Number.Decimal

/-!
# Numbers

Double-precision numbers as exact data: not a number, an infinity, or a sign and a magnitude.
Comparison is the numeric one: `nan` differs from itself and the two zeros are equal.
-/

namespace Markup

/-- A double-precision number. -/
inductive Number where
  | nan
  | infinite (negative : Bool)
  | finite (negative : Bool) (magnitude : Magnitude)
  deriving DecidableEq

namespace Number

def zero : Number := finite false .zero

instance : Inhabited Number := ⟨zero⟩

def isNaN : Number → Bool
  | nan => true
  | _ => false

def isFinite : Number → Bool
  | finite _ _ => true
  | _ => false

def isZero : Number → Bool
  | finite _ m => m.isZero
  | _ => false

/-- Numeric equality. -/
def equal : Number → Number → Bool
  | infinite a, infinite b => a == b
  | finite a m, finite b n => m == n && (a == b || m.isZero)
  | _, _ => false

/-- The number of this sign nearest to a decimal, an infinity when it overflows. -/
def ofDecimal (negative : Bool) (d : Decimal) : Number :=
  match d.magnitude? with
  | some m => finite negative m
  | none => infinite negative

/-- The number nearest to an integer. -/
def ofInt (n : Int) : Number := ofDecimal (n < 0) ⟨n.natAbs, 0⟩

/-- The largest integer up to which all integers are numbers. -/
def maxSafeInteger : Nat := 2 ^ (53 : Nat) - 1

/-- The integer a number is, if it is one that needs no rounding. -/
def safeInteger? : Number → Option Int
  | finite negative m =>
    let whole := m.units / Magnitude.unit
    if m.isIntegral && whole ≤ maxSafeInteger then
      some (if negative then -(whole : Int) else whole)
    else none
  | _ => none

end Number

end Markup
