import Markup.Proofs.Number.Digits
import Markup.Proofs.Number.Shortest

/-!
# Whole magnitudes

Every whole number below `2 ^ 53` is a magnitude (`exists_units_eq`). So a decimal without a fraction
that is read as a magnitude below `2 ^ 53` is that magnitude (`units_of_reads_whole`), and a whole
magnitude that small is written with all its digits (`shortest_of_whole`). From `2 ^ 53` on
every magnitude is whole (`exists_whole_of_large`).
-/

namespace Markup

namespace Magnitude

variable {m : Magnitude} {d : Decimal} {n : Nat}

/-- A whole number below `2 ^ 53` is a magnitude. -/
theorem exists_units_eq (h : n < 2 ^ (53 : Nat)) : ∃ m : Magnitude, m.units = n * unit := by
  rcases Nat.eq_zero_or_pos n with rfl | hn
  · exact ⟨zero, by rw [units_zero, Nat.zero_mul]⟩
  · have hlog : n.log2 < 53 := (Nat.log2_lt hn.ne').mpr h
    obtain ⟨s, hs⟩ : ∃ s, n.log2 + s = 52 := ⟨52 - n.log2, by omega⟩
    obtain ⟨e, he⟩ : ∃ e, s + e = 1074 := ⟨1074 - s, by omega⟩
    refine ⟨⟨n * 2 ^ s, e, ?_, by omega, .inr ?_⟩, ?_⟩
    · calc n * 2 ^ s < 2 ^ (n.log2 + 1) * 2 ^ s :=
            Nat.mul_lt_mul_of_pos_right Nat.lt_log2_self (Nat.two_pow_pos s)
        _ = 2 ^ (53 : Nat) := by rw [← Nat.pow_add, Nat.add_right_comm, hs]
    · calc 2 ^ (52 : Nat) = 2 ^ n.log2 * 2 ^ s := by rw [← Nat.pow_add, hs]
        _ ≤ n * 2 ^ s := Nat.mul_le_mul_right _ (Nat.log2_self_le hn.ne')
    · show n * 2 ^ s * 2 ^ e = n * unit
      rw [unit_eq he, Nat.pow_add, Nat.mul_assoc]

/-- So are the powers of two from `2 ^ 52` to `2 ^ 1023`. -/
theorem exists_units_eq_pow {k : Nat} (hlow : 52 ≤ k) (hhigh : k ≤ 1023) :
    ∃ m : Magnitude, m.units = 2 ^ k * unit := by
  obtain ⟨b, hb⟩ : ∃ b, b = 1074 := ⟨_, rfl⟩
  obtain ⟨e, rfl⟩ := Nat.exists_eq_add_of_le hlow
  refine ⟨⟨2 ^ (52 : Nat), b + e, by decide, by omega, .inr (Nat.le_refl _)⟩, ?_⟩
  show 2 ^ (52 : Nat) * 2 ^ (b + e) = 2 ^ (52 + e) * unit
  rw [unit_eq hb, ← Nat.pow_add, ← Nat.pow_add]
  congr 1
  omega

theorem exists_units_eq_limit : ∃ m : Magnitude, m.units = 2 ^ (53 : Nat) * unit :=
  exists_units_eq_pow (by decide) (by decide)

theorem exists_units_eq_of_le (h : n ≤ 2 ^ (53 : Nat)) : ∃ m : Magnitude, m.units = n * unit := by
  rcases h.lt_or_eq with hlt | rfl
  · exact exists_units_eq hlt
  · exact exists_units_eq_limit

theorem value_of_units (h : m.units = n * unit) : m.value = n := by
  rw [value, h]
  push_cast
  exact mul_div_cancel_right₀ _ unit_pos.ne'

theorem magnitude?_of_units (h : m.units = n * unit) : (⟨n, 0⟩ : Decimal).magnitude? = some m := by
  refine Decimal.magnitude?_of_value_eq ?_
  rw [value_of_units h, Decimal.value, zpow_zero, mul_one]

/-- A decimal without a fraction has a whole value. -/
theorem value_of_exponent_nonneg (h : 0 ≤ d.exponent) :
    d.value = (d.digits * 10 ^ d.exponent.toNat : Nat) := by
  obtain ⟨digits, exponent⟩ := d
  obtain ⟨e, rfl⟩ := Int.eq_ofNat_of_zero_le h
  rw [Decimal.value, zpow_natCast, Int.toNat_natCast]
  push_cast
  rfl

/-- A decimal without a fraction that is read as a magnitude below a power of two is below it. -/
theorem lt_pow_of_reads_whole {k : Nat} (hlow : 52 ≤ k) (hhigh : k ≤ 1023)
    (hd : d.magnitude? = some m) (he : 0 ≤ d.exponent) (hm : m.units < 2 ^ k * unit) :
    d.digits * 10 ^ d.exponent.toNat < 2 ^ k := by
  by_contra hge
  obtain ⟨t, ht⟩ := exists_units_eq_pow hlow hhigh
  have hle : t.value ≤ d.value := by
    rw [value_of_units ht, value_of_exponent_nonneg he]
    exact Nat.cast_le.mpr (Nat.le_of_not_lt hge)
  have := Decimal.le_magnitude? hle hd
  omega

/-- A decimal without a fraction that is read as a magnitude below `2 ^ 53` is read exactly. -/
theorem units_of_reads_whole (hd : d.magnitude? = some m) (he : 0 ≤ d.exponent)
    (hm : m.units < 2 ^ (53 : Nat) * unit) :
    d.digits * 10 ^ d.exponent.toNat < 2 ^ (53 : Nat) ∧
      m.units = d.digits * 10 ^ d.exponent.toNat * unit := by
  have hvalue := value_of_exponent_nonneg he
  have hn := lt_pow_of_reads_whole (by decide) (by decide) hd he hm
  generalize d.digits * 10 ^ d.exponent.toNat = n at hvalue hn ⊢
  obtain ⟨t, ht⟩ := exists_units_eq hn
  rw [Decimal.magnitude?_of_value_eq (hvalue.trans (value_of_units ht).symm), Option.some.injEq] at hd
  exact ⟨hn, hd ▸ ht⟩

/-- A magnitude from `2 ^ 53` on is whole. -/
theorem exists_whole_of_large (h : 2 ^ (53 : Nat) * unit ≤ m.units) : ∃ n, m.units = n * unit := by
  obtain ⟨b, hb⟩ : ∃ b, b = 1074 := ⟨_, rfl⟩
  have hscale : b ≤ m.scale := by
    by_contra hlt
    have hle : m.units ≤ 2 ^ (53 : Nat) * 2 ^ m.scale :=
      Nat.mul_le_mul_right _ m.mantissa_lt.le
    have hpow : 2 ^ m.scale < 2 ^ b := Nat.pow_lt_pow_right (by decide) (Nat.lt_of_not_le hlt)
    have := Nat.mul_lt_mul_of_pos_left hpow (Nat.two_pow_pos (53 : Nat))
    rw [unit_eq hb] at h
    omega
  obtain ⟨e, he⟩ := Nat.exists_eq_add_of_le hscale
  refine ⟨m.mantissa * 2 ^ e, ?_⟩
  rw [units, unit_eq hb, he, Nat.pow_add, Nat.mul_comm (2 ^ b), Nat.mul_assoc]

section shortest

variable (tie : Tie) (h : m.isZero = false)
include h

/-- The shortest decimal of a whole magnitude has no fraction. -/
theorem exponent_nonneg_of_whole (hm : m.units = n * unit) : 0 ≤ (m.shortest tie).exponent :=
  exponent_le_shortest tie h (magnitude?_of_units hm)

/-- A whole magnitude below `2 ^ 53` is written exactly. -/
theorem shortest_of_whole (hn : n < 2 ^ (53 : Nat)) (hm : m.units = n * unit) :
    (m.shortest tie).digits * 10 ^ (m.shortest tie).exponent.toNat = n := by
  have hlt : m.units < 2 ^ (53 : Nat) * unit := by
    rw [hm]
    exact Nat.mul_lt_mul_of_pos_right hn (Nat.cast_pos.mp unit_pos)
  have hunits := (units_of_reads_whole (magnitude?_shortest tie h)
    (exponent_nonneg_of_whole tie h hm) hlt).2
  rw [hm] at hunits
  exact (Nat.eq_of_mul_eq_mul_right (Nat.cast_pos.mp unit_pos) hunits).symm

/-- The shortest decimal of a magnitude below `2 ^ 53` that is not whole has a fraction. -/
theorem exponent_neg_of_fraction (hlt : m.units < 2 ^ (53 : Nat) * unit)
    (hm : ∀ n < 2 ^ (53 : Nat), m.units ≠ n * unit) : (m.shortest tie).exponent < 0 := by
  by_contra he
  obtain ⟨hn, hunits⟩ := units_of_reads_whole (magnitude?_shortest tie h) (not_lt.mp he) hlt
  exact hm _ hn hunits

end shortest

end Magnitude

namespace Decimal

/-- Written without an exponent, a decimal without a fraction is the digits of its value. -/
theorem plain_of_exponent_nonneg {d : Decimal} (h : 0 < d.digits) (he : 0 ≤ d.exponent) :
    d.plain = digitChars (d.digits * 10 ^ d.exponent.toNat) := by
  obtain ⟨digits, exponent⟩ := d
  obtain ⟨e, rfl⟩ := Int.eq_ofNat_of_zero_le he
  rw [Int.toNat_natCast, ← digitChars_append_zeros h]
  rfl

end Decimal

end Markup
