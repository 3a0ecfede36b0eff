/-!
# Binary magnitudes

A finite double-precision number is, up to its sign, a whole number of units of `2 ^ -1074`.
`Magnitude` is the normal form of such a number: a mantissa below `2 ^ 53` and a scale, where a
scale above zero asks for a full mantissa. `Magnitude.units` is the number of units.

- `roundHalfEven`: a quotient rounded to the nearest integer, a half going to the even one.
- `Magnitude.nearest`: the magnitude nearest to a quotient of units, `none` when it overflows.
-/

namespace Markup

-- Powers are those of the core library, whichever others a proof brings into scope. A literal
-- exponent needs its type written for that.
attribute [scoped instance (2000)] instPowNat

/-- A quotient rounded to the nearest integer, a half going to the even one. -/
def roundHalfEven (num den : Nat) : Nat :=
  if 2 * (num % den) < den then num / den
  else if den < 2 * (num % den) then num / den + 1
  else num / den + num / den % 2

theorem div_le_roundHalfEven (num den : Nat) : num / den ≤ roundHalfEven num den := by
  unfold roundHalfEven
  split
  · exact Nat.le_refl _
  · split <;> omega

/-- `mantissa · 2 ^ scale` units of `2 ^ -1074`. -/
structure Magnitude where
  mantissa : Nat
  scale : Nat
  mantissa_lt : mantissa < 2 ^ (53 : Nat)
  scale_le : scale ≤ 2045
  normal : scale = 0 ∨ 2 ^ (52 : Nat) ≤ mantissa
  deriving DecidableEq

namespace Magnitude

/-- The number of units of `2 ^ -1074`. -/
def units (m : Magnitude) : Nat := m.mantissa * 2 ^ m.scale

/-- How many units make one. -/
def unit : Nat := 2 ^ (1074 : Nat)

def zero : Magnitude := ⟨0, 0, by decide, by decide, by decide⟩

instance : Inhabited Magnitude := ⟨zero⟩

def isZero (m : Magnitude) : Bool := m.mantissa == 0

/-- Whether the magnitude is a whole number. -/
def isIntegral (m : Magnitude) : Bool := m.units % unit == 0

/-- The bits of `n` beyond the first 53. -/
def excess (n : Nat) : Nat := n.log2 - 52

theorem full_of_excess_pos {num den : Nat} (h : 0 < excess (num / den)) :
    2 ^ (52 : Nat) ≤ num / (den * 2 ^ excess (num / den)) := by
  have hlog : (num / den).log2 = 52 + excess (num / den) := by
    unfold excess at h ⊢
    omega
  have hne : num / den ≠ 0 := by
    intro h0
    simp [excess, h0] at h
  rw [← Nat.div_div_eq_div_mul, Nat.le_div_iff_mul_le (Nat.two_pow_pos _), ← Nat.pow_add, ← hlog]
  exact Nat.log2_self_le hne

/-- The magnitude nearest to `num / den` units, a half going to the even mantissa. -/
def nearest (num den : Nat) : Option Magnitude :=
  let scale := excess (num / den)
  let mantissa := roundHalfEven num (den * 2 ^ scale)
  if hs : scale ≤ 2045 then
    if hm : mantissa < 2 ^ (53 : Nat) then
      some ⟨mantissa, scale, hm, hs, by
        rcases Nat.eq_zero_or_pos scale with h | h
        · exact .inl h
        · exact .inr (Nat.le_trans (full_of_excess_pos h) (div_le_roundHalfEven _ _))⟩
    else if hs' : scale + 1 ≤ 2045 then
      some ⟨2 ^ (52 : Nat), scale + 1, by decide, hs', .inr (Nat.le_refl _)⟩
    else none
  else none

end Magnitude

end Markup
