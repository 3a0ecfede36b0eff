import Markup.Proofs.Number.Shortest

/-!
# The fewest digits

`Magnitude.IsShortest` says what a shortest decimal is, without the grids that the search tries: it
reads back, no decimal that does has fewer digits, and of those with as few none is nearer. The search
finds one (`isShortest_shortest`).

A decimal on the grid of the shortest one is no nearer (`distance_le_of_onGrid?`). One on a
finer grid with as few digits lies below the power of ten that the shortest one begins at. Then that
power reads back too, and the shortest decimal is a single digit on its grid
(`exists_power_of_leading_lt`). So wide a gap between two decimals that read back is there only for the
second magnitude above zero, and the finer decimal is farther from it (`exponent_of_gap`).
-/

namespace Markup

namespace Decimal

open Magnitude

variable {d d' e : Decimal} {m : Magnitude}

/-- How many digits a decimal has. -/
def size (d : Decimal) : Nat := (digitChars d.digits).length

theorem size_pos (d : Decimal) : 0 < d.size := length_digitChars_pos d.digits

theorem leading_eq_size (d : Decimal) : d.leading = d.exponent + d.size - 1 := rfl

theorem leading_lt_of_size (h : d.exponent ≤ d'.exponent) (hsize : d.size ≤ d'.size)
    (hne : d.exponent = d'.exponent → d.size ≠ d'.size) : d.leading < d'.leading := by
  rw [leading_eq_size, leading_eq_size]
  omega

/-- What lies between two decimals that read back does so too. -/
theorem magnitude?_between (hd : d.magnitude? = some m) (hd' : d'.magnitude? = some m)
    (hle : d.value ≤ e.value) (hle' : e.value ≤ d'.value) : e.magnitude? = some m := by
  obtain ⟨n, hn, hnm⟩ := magnitude?_mono hle' hd'
  obtain ⟨m', hm', hmn⟩ := magnitude?_mono hle hn
  rw [hd, Option.some.injEq] at hm'
  rw [hn, ext_units (Nat.le_antisymm hnm (hm' ▸ hmn))]

/-- Two decimals that are read alike are no more than one unit apart, or hardly apart for their size. -/
theorem close_of_magnitude?_eq (hd : d.magnitude? = some m) (hd' : d'.magnitude? = some m)
    (hle : d.value ≤ d'.value) :
    (d'.value - d.value) * unit ≤ 1 ∨ 2 ^ 52 * (d'.value - d.value) ≤ d'.value := by
  obtain ⟨num, den, hden, hvalue, hn⟩ := d.magnitude?_eq_nearest
  obtain ⟨num', den', hden', hvalue', hn'⟩ := d'.magnitude?_eq_nearest
  obtain ⟨s, k, hr, -⟩ := nearest_spec num hden
  obtain ⟨t, l, hr', -⟩ := nearest_spec num' hden'
  have hunits := (nearest_eq_some_iff hden hr).mp (hn ▸ hd)
  have hunits' := (nearest_eq_some_iff hden' hr').mp (hn' ▸ hd')
  rw [hvalue] at hr
  rw [hvalue'] at hr'
  have hclose := hr.close hr' (mul_le_mul_of_nonneg_right hle unit_pos.le) (hunits ▸ hunits')
  rw [← sub_mul, ← mul_assoc] at hclose
  exact hclose.imp_right fun h => le_of_mul_le_mul_right h unit_pos

/-- What is read as a magnitude above zero is more than half a unit. -/
theorem half_unit_lt (hd : d.magnitude? = some m) (h : m.isZero = false) :
    1 < 2 * (d.value * unit) := by
  obtain ⟨num, den, hden, hvalue, hn⟩ := d.magnitude?_eq_nearest
  by_contra hle
  rw [← hvalue, ← mul_div_assoc, not_lt, div_le_one (by exact_mod_cast hden)] at hle
  rw [hn, nearest_of_le_half hden (by exact_mod_cast hle), Option.some.injEq] at hd
  rw [← hd] at h
  cases h

end Decimal

namespace Magnitude

open Decimal (size)

variable {m : Magnitude} {g : Int} {tie : Tie} {d e : Decimal}

/-- The decimal reads back as the magnitude, and has the fewest digits of those that do. Of these
none is nearer to the magnitude. -/
structure IsShortest (m : Magnitude) (d : Decimal) : Prop where
  reads : d.magnitude? = some m
  fewest : ∀ e : Decimal, e.magnitude? = some m → d.size ≤ e.size
  nearest : ∀ e : Decimal, e.magnitude? = some m → e.size = d.size →
    |d.value - m.value| ≤ |e.value - m.value|

theorem isShortest_zero : zero.IsShortest ⟨0, 0⟩ := by
  have hvalue : (⟨0, 0⟩ : Decimal).value = zero.value := by
    rw [Decimal.value, Nat.cast_zero, zero_mul, value_zero]
  refine ⟨Decimal.magnitude?_of_value_eq hvalue, fun e _ => e.size_pos, fun e _ _ => ?_⟩
  rw [hvalue, sub_self, abs_zero]
  exact abs_nonneg _

/-! ### On one grid -/

theorem abs_low_sub (m : Magnitude) (g : Int) :
    |(m.low g).value - m.value| = m.value - (m.low g).value := by
  rw [abs_sub_comm, abs_of_nonneg (sub_nonneg.mpr (m.low_value_le g))]

theorem abs_high_sub (m : Magnitude) (g : Int) :
    |(m.high g).value - m.value| = (m.high g).value - m.value :=
  abs_of_nonneg (sub_nonneg.mpr (m.lt_high_value g).le)

/-- The nearer neighbour is no farther than either of them. -/
theorem distance_nearer_le (tie : Tie) (m : Magnitude) (g : Int) :
    |(m.nearer tie g).value - m.value| ≤ m.value - (m.low g).value ∧
      |(m.nearer tie g).value - m.value| ≤ (m.high g).value - m.value := by
  have hlow := m.abs_low_sub g
  have hhigh := m.abs_high_sub g
  unfold nearer
  split
  · rw [hlow]
    constructor <;> linarith
  · split
    · rw [hhigh]
      constructor <;> linarith
    · cases tie with
      | up =>
        rw [hhigh]
        constructor <;> linarith
      | even =>
        dsimp only
        split
        · rw [hlow]
          constructor <;> linarith
        · rw [hhigh]
          constructor <;> linarith

/-- What a grid gives is no farther than a neighbour that reads back. -/
theorem distance_onGrid?_le (he : m.onGrid? tie g = some e) :
    ((m.low g).magnitude? = some m → |e.value - m.value| ≤ m.value - (m.low g).value) ∧
      ((m.high g).magnitude? = some m → |e.value - m.value| ≤ (m.high g).value - m.value) := by
  obtain ⟨hlow, hhigh⟩ := distance_nearer_le tie m g
  rw [onGrid?_eq] at he
  split at he
  · split at he
    · cases he
      exact ⟨fun _ => hlow, fun _ => hhigh⟩
    · next hh =>
      cases he
      exact ⟨fun _ => (m.abs_low_sub g).le, fun h => absurd h hh⟩
  · next hl =>
    split at he
    · cases he
      exact ⟨fun h => absurd h hl, fun _ => (m.abs_high_sub g).le⟩
    · cases he

/-- What a grid gives is as near as any decimal of the grid that reads back. -/
theorem distance_le_of_onGrid? (he : m.onGrid? tie g = some e) (hd : d.magnitude? = some m)
    (hexp : d.exponent = g) : |e.value - m.value| ≤ |d.value - m.value| := by
  subst hexp
  obtain ⟨hlow, hhigh⟩ := distance_onGrid?_le he
  have hle := m.low_value_le d.exponent
  have hlt := m.lt_high_value d.exponent
  rcases Nat.lt_or_ge (m.low d.exponent).digits d.digits with hdigits | hdigits
  · have hd' : (m.high d.exponent).value ≤ d.value := value_mono hdigits d.exponent
    have hreads := Decimal.magnitude?_toward hd (.inr ⟨hlt.le, hd'⟩)
    rw [abs_of_nonneg (a := d.value - m.value) (by linarith)]
    linarith [hhigh hreads]
  · have hd' : d.value ≤ (m.low d.exponent).value := value_mono hdigits d.exponent
    have hreads := Decimal.magnitude?_toward hd (.inl ⟨hd', hle⟩)
    rw [abs_sub_comm d.value, abs_of_nonneg (a := m.value - d.value) (by linarith)]
    linarith [hlow hreads]

/-! ### On a finer grid -/

/-- What one unit is to the power of ten near it. That power is read as two units. -/
theorem unit_facts : 2 * 10 ^ (323 : Nat) ≤ unit ∧ 19 * unit ≤ 4 * 10 ^ (324 : Nat) ∧
    (⟨1, -323⟩ : Decimal).magnitude?.map units = some 2 := by
  decide +kernel

/-- A single digit on a finer grid is at most nine tenths of the power. -/
theorem ten_mul_value_le {k : Int} (hsize : d.size = 1) (hexp : d.exponent < k) :
    10 * d.value ≤ 9 * (⟨1, k⟩ : Decimal).value := by
  have hdigits : d.digits < 10 ^ d.size := Decimal.lt_pow_length d.digits
  rw [hsize] at hdigits
  have hnine : (d.digits : ℚ) ≤ 9 := by exact_mod_cast Nat.le_of_lt_succ hdigits
  have hpow : (10 : ℚ) ^ d.exponent * 10 ≤ 10 ^ k := by
    rw [← zpow_add_one₀ (by norm_num)]
    exact zpow_le_zpow_right₀ (by norm_num) hexp
  have hvalue : d.value ≤ 9 * 10 ^ d.exponent :=
    mul_le_mul_of_nonneg_right hnine (by positivity)
  rw [value_one]
  linarith

/-- The power of ten near the smallest magnitudes, in units. -/
theorem units_of_power {k : Int} (hk : k = -323) :
    2 ≤ (10 : ℚ) ^ k * unit ∧ 19 * ((10 : ℚ) ^ k * unit) ≤ 40 := by
  obtain ⟨hlow, hhigh, -⟩ := unit_facts
  obtain ⟨a, ha⟩ : ∃ a, a = 323 := ⟨_, rfl⟩
  rw [← ha] at hlow
  rw [show 324 = a + 1 by omega, Nat.pow_succ] at hhigh
  have hlow' : (2 * 10 ^ a : ℚ) ≤ unit := by exact_mod_cast hlow
  have hhigh' : (19 * unit : ℚ) ≤ 4 * (10 ^ a * 10) := by exact_mod_cast hhigh
  have hpow : (10 : ℚ) ^ k * 10 ^ a = 1 := by
    rw [← zpow_natCast, ← zpow_add₀ (by norm_num), show k + a = 0 by omega, zpow_zero]
  have hpos : (0 : ℚ) ≤ 10 ^ k := by positivity
  have hlow'' := mul_le_mul_of_nonneg_left hlow' hpos
  have hhigh'' := mul_le_mul_of_nonneg_left hhigh' hpos
  constructor <;> linarith

/-- A power of ten is read like a decimal one tenth below it only next to the smallest magnitudes. -/
theorem exponent_of_gap {k : Int} (h : m.isZero = false)
    (hk : (⟨1, k⟩ : Decimal).magnitude? = some m) (hd : d.magnitude? = some m)
    (hgap : 10 * d.value ≤ 9 * (⟨1, k⟩ : Decimal).value) : k = -323 := by
  obtain ⟨l, hl⟩ : ∃ l : Int, l = -323 := ⟨_, rfl⟩
  obtain ⟨hlow, hhigh⟩ := units_of_power hl
  have hpos : (0 : ℚ) < 10 ^ k := by positivity
  have hhalf := Decimal.half_unit_lt hk h
  have hclose := Decimal.close_of_magnitude?_eq hd hk (by rw [value_one] at hgap ⊢; linarith)
  rw [value_one] at hgap hhalf hclose
  -- the power is at most ten units, since the gap is at most one
  have hten : 10 ^ k * (unit : ℚ) ≤ 10 := by
    rcases hclose with hunit | hsize
    · have hle : 10 ^ k * (unit : ℚ) ≤ 10 * (10 ^ k - d.value) * unit :=
        mul_le_mul_of_nonneg_right (by linarith) unit_pos.le
      linarith
    · linarith
  have hupper : k < l + 1 := by
    refine Decimal.exponent_lt_of_zpow le_rfl (lt_of_mul_lt_mul_right ?_ unit_pos.le)
    rw [zpow_add_one₀ (by norm_num)]
    linarith
  have hlower : l - 1 < k := by
    refine Decimal.exponent_lt_of_zpow le_rfl (lt_of_mul_lt_mul_right ?_ unit_pos.le)
    rw [zpow_sub_one₀ (by norm_num)]
    linarith
  omega

/-- Next to them the power is nearer than the decimal. -/
theorem distance_power_le {k : Int} (h : m.isZero = false)
    (hk : (⟨1, k⟩ : Decimal).magnitude? = some m) (hd : d.magnitude? = some m)
    (hgap : 10 * d.value ≤ 9 * (⟨1, k⟩ : Decimal).value) :
    |(⟨1, k⟩ : Decimal).value - m.value| ≤ |d.value - m.value| := by
  have hexp := exponent_of_gap h hk hd hgap
  obtain ⟨hlow, hhigh⟩ := units_of_power hexp
  have hread := unit_facts.2.2
  rw [← hexp, hk, Option.map_some, Option.some.injEq] at hread
  have hunits : m.value * unit = 2 := by rw [← units_eq_value_mul, hread, Nat.cast_ofNat]
  rw [value_one] at hgap ⊢
  have hle : m.value ≤ 10 ^ k := by
    refine le_of_mul_le_mul_right ?_ unit_pos
    rwa [hunits]
  have hsum : 10 ^ k + d.value ≤ 2 * m.value := by
    refine le_of_mul_le_mul_right ?_ unit_pos
    have := mul_le_mul_of_nonneg_right hgap unit_pos.le
    linarith
  rw [abs_of_nonneg (a := 10 ^ k - m.value) (by linarith), abs_sub_comm d.value,
    abs_of_nonneg (a := m.value - d.value) (by linarith)]
  linarith

section shortest

variable (tie : Tie) (h : m.isZero = false)
include h

/-- A decimal that begins at a lower place than the shortest one and reads back: then the power of ten
that the shortest one begins at does, and the shortest one is a single digit on the grid of that power. -/
theorem exists_power_of_leading_lt (hd : d.magnitude? = some m)
    (hlt : d.leading < (m.shortest tie).leading) :
    ∃ k, k = (m.shortest tie).exponent ∧ (m.shortest tie).size = 1 ∧
      (⟨1, k⟩ : Decimal).magnitude? = some m := by
  have hreads := magnitude?_shortest tie h
  have hsize := (m.shortest tie).size_pos
  have hleading := (m.shortest tie).leading_eq_size
  have hpower : (⟨1, (m.shortest tie).leading⟩ : Decimal).magnitude? = some m := by
    refine Decimal.magnitude?_between hd hreads ?_ ?_
    · rw [value_one]
      exact d.value_lt_pow_leading.le.trans (zpow_le_zpow_right₀ (by norm_num) hlt)
    · rw [value_one]
      exact Decimal.pow_leading_le (shortest_digits_pos tie h)
  have hexp : (m.shortest tie).leading ≤ (m.shortest tie).exponent :=
    exponent_le_shortest tie h hpower
  exact ⟨_, by omega, by omega, hpower⟩

theorem size_shortest_le (hd : d.magnitude? = some m) : (m.shortest tie).size ≤ d.size := by
  have hexp := exponent_le_shortest tie h hd
  have hsize := d.size_pos
  by_contra hlt
  have hsmaller := Nat.lt_of_not_le hlt
  have hleading := Decimal.leading_lt_of_size hexp hsmaller.le fun _ => hsmaller.ne
  obtain ⟨-, -, hone, -⟩ := exists_power_of_leading_lt tie h hd hleading
  omega

/-- Of the decimals that read back with as few digits, none is nearer. -/
theorem distance_shortest_le (hd : d.magnitude? = some m) (hsize : d.size = (m.shortest tie).size) :
    |(m.shortest tie).value - m.value| ≤ |d.value - m.value| := by
  have hgrid := onGrid?_shortest tie h
  rcases (exponent_le_shortest tie h hd).eq_or_lt with hexp | hexp
  · exact distance_le_of_onGrid? hgrid hd hexp
  · have hleading := Decimal.leading_lt_of_size hexp.le hsize.le fun he => absurd he hexp.ne
    obtain ⟨k, hk, hone, hpower⟩ := exists_power_of_leading_lt tie h hd hleading
    have hgap := ten_mul_value_le (hsize.trans hone) (hk ▸ hexp)
    exact (distance_le_of_onGrid? hgrid hpower hk).trans (distance_power_le h hpower hd hgap)

theorem isShortest_shortest : m.IsShortest (m.shortest tie) :=
  ⟨magnitude?_shortest tie h, fun _ hd => size_shortest_le tie h hd,
    fun _ hd hsize => distance_shortest_le tie h hd hsize⟩

end shortest

end Magnitude

end Markup
