import Markup.Number.Decimal
import Markup.Proofs.Number.Rounding
import Mathlib.Algebra.Order.Field.Power

/-!
# The values of decimals

`Decimal.value` and `Magnitude.value` are the exact values of decimals and magnitudes, and
`Decimal.magnitude?` rounds the one to the other: it keeps order (`magnitude?_mono`), and it gives a
magnitude back for its own value (`magnitude?_of_value_eq`) and for any value close enough
(`magnitude?_of_close`). `Decimal.leading` is the power of ten that a decimal begins at.
-/

namespace Markup

namespace Magnitude

/-- The exact value of a magnitude. -/
def value (m : Magnitude) : ℚ := m.units / unit

theorem unit_eq {e : Nat} (h : e = 1074) : unit = 2 ^ e := by rw [h, unit]

theorem unit_pos : (0 : ℚ) < unit := by
  obtain ⟨e, he⟩ : ∃ e, e = 1074 := ⟨_, rfl⟩
  rw [unit_eq he]
  exact_mod_cast Nat.two_pow_pos e

theorem units_zero : zero.units = 0 := Nat.zero_mul _

theorem units_eq_value_mul (m : Magnitude) : (m.units : ℚ) = m.value * unit := by
  rw [value, div_mul_cancel₀ _ unit_pos.ne']

theorem value_zero : zero.value = 0 := by rw [value, units_zero, Nat.cast_zero, zero_div]

theorem value_nonneg (m : Magnitude) : 0 ≤ m.value := div_nonneg (Nat.cast_nonneg _) unit_pos.le

theorem isZero_iff {m : Magnitude} : m.isZero = true ↔ m = zero := by
  refine ⟨fun h => ?_, fun h => h ▸ rfl⟩
  have hm : m.mantissa = 0 := by simpa [isZero] using h
  refine ext_units ?_
  rw [units, hm, Nat.zero_mul, units_zero]

theorem units_pos {m : Magnitude} (h : m.isZero = false) : 0 < m.units := by
  refine Nat.pos_of_ne_zero fun hu => ?_
  have hm : m = zero := ext_units hu
  rw [hm] at h
  cases h

end Magnitude

namespace Decimal

open Magnitude

@[ext] theorem ext {d d' : Decimal} (hdigits : d.digits = d'.digits) (hexp : d.exponent = d'.exponent) : d = d' := by
  cases d
  cases d'
  cases hdigits
  cases hexp
  rfl

/-- The exact value of a decimal. -/
def value (d : Decimal) : ℚ := d.digits * 10 ^ d.exponent

theorem value_nonneg (d : Decimal) : 0 ≤ d.value := by
  unfold value
  positivity

/-! ### Rounding -/

theorem overflow_le_of_large {digits e : Nat} (hd : digits ≠ 0) (he : 400 < e) :
    overflow ≤ digits * 10 ^ e * unit := by
  obtain ⟨a, b, hb, hab, ha⟩ : ∃ a b, b = 1074 ∧ a + b = 2098 ∧ a ≤ 3 * e :=
    ⟨1024, 1074, rfl, rfl, by omega⟩
  have h10 : 2 ^ a ≤ 10 ^ e :=
    calc 2 ^ a ≤ 2 ^ (3 * e) := Nat.pow_le_pow_right (by decide) ha
      _ = 8 ^ e := Nat.pow_mul 2 3 e
      _ ≤ 10 ^ e := Nat.pow_le_pow_left (by decide) e
  calc overflow = 2 ^ a * unit := by rw [overflow_eq_mul hab, unit_eq hb]
    _ ≤ 10 ^ e * unit := Nat.mul_le_mul_right _ h10
    _ ≤ digits * 10 ^ e * unit :=
        Nat.mul_le_mul_right _ (Nat.le_mul_of_pos_left _ (Nat.pos_of_ne_zero hd))

theorem small_of_log2 {digits e : Nat} (h : digits.log2 + 1100 < e) :
    2 * (digits * unit) ≤ 10 ^ (e + 1) := by
  obtain ⟨b, hb⟩ : ∃ b, b = 1074 := ⟨_, rfl⟩
  calc 2 * (digits * unit) ≤ 2 * (2 ^ (digits.log2 + 1) * unit) :=
        Nat.mul_le_mul_left _ (Nat.mul_le_mul_right _ Nat.lt_log2_self.le)
    _ = 2 ^ (1 + (digits.log2 + 1 + b)) := by
        rw [unit_eq hb, Nat.pow_add 2 1, Nat.pow_add 2 (digits.log2 + 1), Nat.pow_one]
    _ ≤ 2 ^ (e + 1) := Nat.pow_le_pow_right (by decide) (by omega)
    _ ≤ 10 ^ (e + 1) := Nat.pow_le_pow_left (by decide) _

/-- A quotient up to one half is rounded to zero. -/
theorem nearest_of_le_half {num den : Nat} (hd : 0 < den) (h : 2 * num ≤ den) :
    nearest num den = some zero := by
  have hd' : (0 : ℚ) < den := by exact_mod_cast hd
  have hle : (num : ℚ) / den ≤ 1 / 2 := by
    rw [div_le_iff₀ hd']
    have : (2 * num : ℚ) ≤ den := by exact_mod_cast h
    linarith
  have hge : (0 : ℚ) ≤ num / den := div_nonneg (Nat.cast_nonneg _) hd'.le
  have hr : RoundsTo ((num : ℚ) / den * 2 ^ 0) 0 0 := by
    refine roundsTo_mul (by linarith) (.inl rfl) ?_ ?_ fun _ => rfl
    · rw [Nat.cast_zero]
      linarith
    · rw [Nat.cast_zero]
      linarith
  rw [pow_zero, mul_one] at hr
  exact (nearest_eq_some_iff hd hr).mpr (by rw [units_zero, Nat.zero_mul])

/-- The test for a large exponent only spares the arithmetic. -/
theorem magnitude?_ofNat (digits e : Nat) : (⟨digits, .ofNat e⟩ : Decimal).magnitude? =
    nearest (digits * 10 ^ e * unit) 1 := by
  unfold magnitude?
  dsimp only
  split
  · next h =>
    refine (nearest_self zero Nat.one_pos ?_).symm
    rw [h, Nat.zero_mul, Nat.zero_mul, units_zero, Nat.cast_zero, zero_div]
  · next h =>
    split
    · next he =>
      refine (nearest_eq_none Nat.one_pos ?_).symm
      rw [Nat.cast_one, div_one]
      exact_mod_cast overflow_le_of_large h he
    · rfl

/-- So does the test for a small one. -/
theorem magnitude?_negSucc (digits e : Nat) : (⟨digits, .negSucc e⟩ : Decimal).magnitude? =
    nearest (digits * unit) (10 ^ (e + 1)) := by
  unfold magnitude?
  dsimp only
  split
  · next h => exact (nearest_of_le_half (Nat.pow_pos (by decide)) (small_of_log2 h)).symm
  · rfl

/-- A decimal is read by rounding a quotient that has its value. -/
theorem magnitude?_eq_nearest (d : Decimal) :
    ∃ num den : Nat, 0 < den ∧ (num : ℚ) / den = d.value * unit ∧
      d.magnitude? = nearest num den := by
  obtain ⟨digits, exponent⟩ := d
  cases exponent with
  | ofNat e =>
    refine ⟨digits * 10 ^ e * unit, 1, Nat.one_pos, ?_, magnitude?_ofNat digits e⟩
    rw [value, Int.ofNat_eq_natCast, zpow_natCast]
    push_cast
    ring
  | negSucc e =>
    refine ⟨digits * unit, 10 ^ (e + 1), Nat.pow_pos (by decide), ?_, magnitude?_negSucc digits e⟩
    rw [value, zpow_negSucc]
    push_cast
    ring

variable {d d' : Decimal} {m n : Magnitude}

/-- Reading keeps order, and what is below a decimal that does not overflow does not either. -/
theorem magnitude?_mono (h : d.value ≤ d'.value) (hn : d'.magnitude? = some n) :
    ∃ m, d.magnitude? = some m ∧ m.units ≤ n.units := by
  obtain ⟨num, den, hden, hvalue, hd⟩ := d.magnitude?_eq_nearest
  obtain ⟨num', den', hden', hvalue', hd'⟩ := d'.magnitude?_eq_nearest
  rw [hd' ] at hn
  rw [hd]
  refine nearest_mono hden hden' ?_ hn
  rw [hvalue, hvalue']
  exact mul_le_mul_of_nonneg_right h unit_pos.le

/-- A decimal at most as large as a magnitude is read as one that is. -/
theorem magnitude?_le (h : d.value ≤ n.value) : ∃ m, d.magnitude? = some m ∧ m.units ≤ n.units := by
  obtain ⟨num, den, hden, hvalue, hd⟩ := d.magnitude?_eq_nearest
  have hn : ((n.units : Nat) : ℚ) / (1 : Nat) = n.units := by rw [Nat.cast_one, div_one]
  rw [hd]
  refine nearest_mono hden Nat.one_pos ?_ (nearest_self n Nat.one_pos hn)
  rw [hvalue, hn, units_eq_value_mul]
  exact mul_le_mul_of_nonneg_right h unit_pos.le

/-- A decimal at least as large as a magnitude is read as one that is. -/
theorem le_magnitude? (h : n.value ≤ d.value) (hm : d.magnitude? = some m) : n.units ≤ m.units := by
  obtain ⟨num, den, hden, hvalue, hd⟩ := d.magnitude?_eq_nearest
  have hn : ((n.units : Nat) : ℚ) / (1 : Nat) = n.units := by rw [Nat.cast_one, div_one]
  rw [hd] at hm
  have hle : ((n.units : Nat) : ℚ) / (1 : Nat) ≤ num / den := by
    rw [hvalue, hn, units_eq_value_mul]
    exact mul_le_mul_of_nonneg_right h unit_pos.le
  obtain ⟨n', hn', hle'⟩ := nearest_mono Nat.one_pos hden hle hm
  rw [nearest_self n Nat.one_pos hn, Option.some.injEq] at hn'
  rw [hn']
  exact hle'

/-- What is read as a magnitude may be taken closer to it. -/
theorem magnitude?_toward {e : Decimal} (hd : d.magnitude? = some m)
    (h : d.value ≤ e.value ∧ e.value ≤ m.value ∨ m.value ≤ e.value ∧ e.value ≤ d.value) :
    e.magnitude? = some m := by
  rcases h with ⟨hde, hem⟩ | ⟨hme, hed⟩
  · obtain ⟨n, hn, hle⟩ := magnitude?_le hem
    obtain ⟨m', hm', hle'⟩ := magnitude?_mono hde hn
    rw [hd, Option.some.injEq] at hm'
    rw [hn, ext_units (Nat.le_antisymm hle (hm' ▸ hle'))]
  · obtain ⟨n, hn, hle⟩ := magnitude?_mono hed hd
    rw [hn, ext_units (Nat.le_antisymm hle (le_magnitude? hme hn))]

theorem magnitude?_of_close (h : 2 * 10 ^ 16 * |d.value - m.value| ≤ m.value) :
    d.magnitude? = some m := by
  obtain ⟨num, den, hden, hvalue, hd⟩ := d.magnitude?_eq_nearest
  rw [hd]
  refine nearest_of_close m hden ?_
  rw [hvalue, units_eq_value_mul, ← sub_mul, abs_mul, abs_of_pos unit_pos, ← mul_assoc]
  exact mul_le_mul_of_nonneg_right h unit_pos.le

theorem magnitude?_of_value_eq (h : d.value = m.value) : d.magnitude? = some m := by
  refine magnitude?_of_close ?_
  rw [h, sub_self, abs_zero, mul_zero]
  exact m.value_nonneg

theorem magnitude?_congr (h : d.value = d'.value) : d.magnitude? = d'.magnitude? := by
  obtain ⟨num, den, hden, hvalue, hd⟩ := d.magnitude?_eq_nearest
  obtain ⟨num', den', hden', hvalue', hd'⟩ := d'.magnitude?_eq_nearest
  rw [hd, hd']
  exact nearest_congr hden hden' (by rw [hvalue, hvalue', h])

theorem value_lt_two_mul (hd : d.magnitude? = some m) (h : m.isZero = false) :
    d.value < 2 * m.value := by
  obtain ⟨num, den, hden, hvalue, hn⟩ := d.magnitude?_eq_nearest
  have hlt := lt_two_mul_of_nearest hden (hn ▸ hd) (units_pos h)
  rw [hvalue, units_eq_value_mul, ← mul_assoc] at hlt
  exact lt_of_mul_lt_mul_right hlt unit_pos.le

/-- A decimal that is read as a magnitude above zero has digits. -/
theorem digits_pos (hm : d.magnitude? = some m) (h : m.isZero = false) : 0 < d.digits := by
  refine Nat.pos_of_ne_zero fun hz => ?_
  have hv : d.value = Magnitude.zero.value := by
    rw [value, hz, Nat.cast_zero, zero_mul, value_zero]
  rw [magnitude?_of_value_eq hv, Option.some.injEq] at hm
  rw [← hm] at h
  cases h

/-! ### The first digit -/

theorem length_digitChars_pos (n : Nat) : 0 < (digitChars n).length := Nat.length_toDigits_pos

theorem lt_pow_length (n : Nat) : n < 10 ^ (digitChars n).length :=
  (Nat.length_toDigits_le_iff (by decide) (length_digitChars_pos n)).mp (Nat.le_refl _)

theorem pow_length_le {n : Nat} (h : 0 < n) : 10 ^ ((digitChars n).length - 1) ≤ n := by
  rcases Nat.eq_zero_or_pos ((digitChars n).length - 1) with h0 | h0
  · rw [h0]
    exact h
  · by_contra hlt
    have := (Nat.length_toDigits_le_iff (by decide) h0).mpr (Nat.lt_of_not_le hlt)
    have hlen : (Nat.toDigits 10 n).length = (digitChars n).length := rfl
    omega

theorem pow_leading_le (h : 0 < d.digits) : 10 ^ d.leading ≤ d.value := by
  have hlen := length_digitChars_pos d.digits
  have he : d.leading = ((digitChars d.digits).length - 1 : Nat) + d.exponent := by
    unfold leading
    omega
  have hle : (10 : ℚ) ^ ((digitChars d.digits).length - 1) ≤ d.digits := by
    exact_mod_cast pow_length_le h
  rw [he, zpow_add₀ (by norm_num), zpow_natCast, value]
  gcongr

theorem value_lt_pow_leading (d : Decimal) : d.value < 10 ^ (d.leading + 1) := by
  have he : d.leading + 1 = ((digitChars d.digits).length : Nat) + d.exponent := by
    unfold leading
    omega
  have hlt : (d.digits : ℚ) < 10 ^ (digitChars d.digits).length := by
    exact_mod_cast lt_pow_length d.digits
  rw [he, zpow_add₀ (by norm_num), zpow_natCast, value]
  gcongr

/-- Two powers of ten around a value differ by less than one step. -/
theorem exponent_lt_of_zpow {x : ℚ} {a b : Int} (ha : (10 : ℚ) ^ a ≤ x) (hb : x < 10 ^ b) :
    a < b := by
  by_contra h
  have hp : (10 : ℚ) ^ b ≤ 10 ^ a := zpow_le_zpow_right₀ (by norm_num) (not_lt.mp h)
  linarith

end Decimal

end Markup
