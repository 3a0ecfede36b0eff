import Markup.Number.Scaled
import Markup.Proofs.Number.Whole

/-!
# Decimals scaled in steps

`Decimal.scaled?` rounds at every step, so it may miss the nearest magnitude. But no step overflows, as
rounding keeps order: not for a decimal with a fraction (`scaled?_isSome_of_neg`), nor for one up to the
largest magnitude (`scaled?_isSome_of_le_top`), as every shortest decimal is. Where both the digits and
the power of ten are exact, only the last step rounds, and the result is the nearest magnitude
(`scaled?_of_exact`).
-/

namespace Markup

namespace Magnitude

variable {a b m s t k : Magnitude} {power : Nat}

/-! ### Steps that do not overflow -/

/-- The powers of ten and the products that the bounds rest on do not overflow. These are all that is
evaluated. -/
theorem limits :
    (tenTo? maxPower).isSome ∧
    (∀ p < 23, (tenTo? p).map units = some (10 ^ p * unit)) ∧
    (⟨10 ^ (17 : Nat), 0⟩ : Decimal).magnitude?.isSome ∧
    (⟨UInt64.size, (288 : Nat)⟩ : Decimal).scaled?.isSome ∧
    (⟨10 ^ (17 : Nat), (291 : Nat)⟩ : Decimal).scaled?.isSome ∧
    ∀ i < 17, (⟨17976931348623157 / 10 ^ i, (292 + i : Nat)⟩ : Decimal).scaled?.isSome := by
  decide +kernel

theorem times?_mono (ha : a.units ≤ b.units) (hs : s.units ≤ t.units) (h : b.times? t = some k) :
    ∃ n, a.times? s = some n := by
  have hunit : 0 < unit := Nat.cast_pos.mp unit_pos
  have hle : ((a.units * s.units : Nat) : ℚ) / unit ≤ (b.units * t.units : Nat) / unit := by
    rw [div_le_div_iff_of_pos_right unit_pos]
    exact_mod_cast Nat.mul_le_mul ha hs
  obtain ⟨n, hn, -⟩ := nearest_mono hunit hunit hle h
  exact ⟨n, hn⟩

theorem over?_isSome (ht : unit ≤ t.units) : ∃ n, m.over? t = some n := by
  have hunit : 0 < unit := Nat.cast_pos.mp unit_pos
  have hself : ((m.units : Nat) : ℚ) / (1 : Nat) = m.units := by rw [Nat.cast_one, div_one]
  have hle : ((m.units * unit : Nat) : ℚ) / t.units ≤ (m.units : Nat) / (1 : Nat) := by
    rw [hself, div_le_iff₀ (by exact_mod_cast hunit.trans_le ht)]
    exact_mod_cast Nat.mul_le_mul_left _ ht
  obtain ⟨n, hn, -⟩ := nearest_mono (hunit.trans_le ht) Nat.one_pos hle (nearest_self m Nat.one_pos hself)
  exact ⟨n, hn⟩

theorem value_power_mono {p q : Nat} (h : p ≤ q) :
    (⟨1, p⟩ : Decimal).value ≤ (⟨1, q⟩ : Decimal).value := by
  rw [Decimal.value, Decimal.value, zpow_natCast, zpow_natCast]
  gcongr
  norm_num

/-- A power of ten that does not overflow. -/
theorem tenTo?_isSome (h : power ≤ maxPower) : ∃ t, tenTo? power = some t ∧ unit ≤ t.units := by
  obtain ⟨limit, hlimit⟩ := Option.isSome_iff_exists.mp limits.1
  obtain ⟨t, ht, -⟩ := Decimal.magnitude?_mono (value_power_mono h) hlimit
  obtain ⟨one, hone⟩ := exists_units_eq (n := 1) (by decide)
  have hvalue : one.value ≤ (⟨1, power⟩ : Decimal).value := by
    rw [value_of_units hone, Decimal.value, zpow_natCast, Nat.cast_one, one_mul]
    exact one_le_pow₀ (by norm_num)
  have hle := Decimal.le_magnitude? hvalue ht
  rw [hone, Nat.one_mul] at hle
  exact ⟨t, ht, hle⟩

/-- One step of a division, taken apart. -/
theorem dividedByMax?_succ (times : Nat) (m : Magnitude) : dividedByMax? (times + 1) m =
    if m.isZero then some m
    else (tenTo? maxPower).bind fun t => (m.over? t).bind (dividedByMax? times) := by
  rw [dividedByMax?]
  rfl

theorem dividedByMax?_isSome (times : Nat) (m : Magnitude) : ∃ n, dividedByMax? times m = some n := by
  induction times generalizing m with
  | zero => exact ⟨m, by rw [dividedByMax?]⟩
  | succ times ih =>
    obtain ⟨t, ht, hunit⟩ := tenTo?_isSome (Nat.le_refl maxPower)
    obtain ⟨k, hk⟩ := over?_isSome (m := m) hunit
    obtain ⟨n, hn⟩ := ih k
    rw [dividedByMax?_succ, ht, Option.bind_some, hk, Option.bind_some, hn]
    cases m.isZero with
    | true => exact ⟨m, rfl⟩
    | false => exact ⟨n, rfl⟩

theorem scaledDown?_eq (m : Magnitude) (power : Nat) : m.scaledDown? power =
    (dividedByMax? ((power - 1) / maxPower) m).bind fun k =>
      (tenTo? (power - (power - 1) / maxPower * maxPower)).bind k.over? := rfl

theorem scaledDown?_isSome (m : Magnitude) (power : Nat) : ∃ n, m.scaledDown? power = some n := by
  obtain ⟨k, hk⟩ := dividedByMax?_isSome ((power - 1) / maxPower) m
  have hpower : power - (power - 1) / maxPower * maxPower ≤ maxPower := by
    unfold maxPower
    omega
  obtain ⟨t, ht, hunit⟩ := tenTo?_isSome hpower
  obtain ⟨n, hn⟩ := over?_isSome (m := k) hunit
  rw [scaledDown?_eq, hk, Option.bind_some, ht, Option.bind_some]
  exact ⟨n, hn⟩

theorem scaledUp?_eq (h : m.isZero = false) (power : Nat) :
    m.scaledUp? power = (tenTo? power).bind m.times? := by
  rw [scaledUp?, h]
  rfl

theorem scaledUp?_zero (h : m.isZero = true) (power : Nat) : m.scaledUp? power = some m := by
  rw [scaledUp?, if_pos h]

/-- A smaller product does not overflow either. -/
theorem scaledUp?_mono {p q : Nat} (hm : m.units ≤ a.units) (hp : p ≤ q)
    (h : a.scaledUp? q = some k) : ∃ n, m.scaledUp? p = some n := by
  cases hz : m.isZero with
  | true => exact ⟨m, scaledUp?_zero hz p⟩
  | false =>
    have ha : a.isZero = false := by
      refine Bool.eq_false_of_not_eq_true fun hza => ?_
      rw [isZero_iff.mp hza, units_zero] at hm
      exact absurd (units_pos hz) (Nat.not_lt.mpr hm)
    rw [scaledUp?_eq ha] at h
    obtain ⟨t, ht, hk⟩ := Option.bind_eq_some_iff.mp h
    obtain ⟨s, hs, hle⟩ := Decimal.magnitude?_mono (value_power_mono hp) ht
    obtain ⟨n, hn⟩ := times?_mono hm hle hk
    exact ⟨n, by rw [scaledUp?_eq hz, tenTo?, hs, Option.bind_some, hn]⟩

end Magnitude

namespace Decimal

open Magnitude

variable {d : Decimal} {m : Magnitude}

theorem scaled?_eq_up {e : Nat} (he : d.exponent = e) :
    d.scaled? = (⟨d.digits, 0⟩ : Decimal).magnitude?.bind (·.scaledUp? e) := by
  rw [scaled?, he]
  rfl

theorem scaled?_eq_down {e : Nat} (he : d.exponent = Int.negSucc e) :
    d.scaled? = (⟨d.digits, 0⟩ : Decimal).magnitude?.bind (·.scaledDown? (e + 1)) := by
  rw [scaled?, he]
  rfl

/-- Digits and a power of ten below others whose product does not overflow. -/
theorem scaled?_isSome_of_le {e cap limit : Nat} {k : Magnitude} (he : d.exponent = e)
    (hdigits : d.digits ≤ cap) (hlimit : e ≤ limit)
    (hk : (⟨cap, limit⟩ : Decimal).scaled? = some k) : ∃ m, d.scaled? = some m := by
  rw [scaled?_eq_up rfl] at hk
  obtain ⟨a, ha, hk⟩ := Option.bind_eq_some_iff.mp hk
  have hle : (⟨d.digits, 0⟩ : Decimal).value ≤ (⟨cap, 0⟩ : Decimal).value := value_mono hdigits 0
  obtain ⟨b, hb, hunits⟩ := magnitude?_mono hle ha
  rw [scaled?_eq_up he, hb, Option.bind_some]
  exact scaledUp?_mono hunits hlimit hk

theorem scaled?_isSome_of_neg (he : d.exponent < 0) (hdigits : d.digits ≤ 10 ^ (17 : Nat)) :
    ∃ m, d.scaled? = some m := by
  obtain ⟨e, he⟩ := Int.eq_negSucc_of_lt_zero he
  obtain ⟨-, -, hcap, -⟩ := limits
  obtain ⟨k, hk⟩ := Option.isSome_iff_exists.mp hcap
  have hle : (⟨d.digits, 0⟩ : Decimal).value ≤ (⟨10 ^ (17 : Nat), 0⟩ : Decimal).value :=
    value_mono hdigits 0
  obtain ⟨a, ha, -⟩ := magnitude?_mono hle hk
  rw [scaled?_eq_down he, ha, Option.bind_some]
  exact scaledDown?_isSome a (e + 1)

/-- A 64-bit number scaled up by less than `10 ^ 289` does not overflow. -/
theorem scaled?_isSome_of_small {e : Nat} (he : d.exponent = e) (hsmall : e ≤ 288)
    (hdigits : d.digits < UInt64.size) : ∃ m, d.scaled? = some m := by
  obtain ⟨-, -, -, hcap, -⟩ := limits
  obtain ⟨k, hk⟩ := Option.isSome_iff_exists.mp hcap
  exact scaled?_isSome_of_le he hdigits.le hsmall hk

/-- The shortest decimal of the largest magnitude. -/
def top : Decimal := ⟨17976931348623157, 292⟩

/-- A decimal up to the top one does not overflow on the way. -/
theorem scaled?_isSome_of_le_top (hdigits : 0 < d.digits) (hcap : d.digits ≤ 10 ^ (17 : Nat))
    (htop : d.value ≤ top.value) : ∃ m, d.scaled? = some m := by
  obtain ⟨-, -, -, -, hlimit, hlimits⟩ := limits
  rcases lt_or_ge d.exponent 0 with hneg | hpos
  · exact scaled?_isSome_of_neg hneg hcap
  · obtain ⟨e, he⟩ := Int.eq_ofNat_of_zero_le hpos
    rcases Nat.lt_or_ge e 292 with hlt | hge
    · obtain ⟨k, hk⟩ := Option.isSome_iff_exists.mp hlimit
      exact scaled?_isSome_of_le he hcap (Nat.le_of_lt_succ hlt) hk
    · obtain ⟨i, rfl⟩ := Nat.exists_eq_add_of_le hge
      -- the digits leave no room for a larger power
      have hbound : d.digits * 10 ^ i ≤ 17976931348623157 := by
        have hpow : (0 : ℚ) < 10 ^ (292 : Int) := by positivity
        rw [value, he, top, value, Nat.cast_add, Nat.cast_ofNat, add_comm (292 : Int),
          zpow_add₀ (by norm_num), ← mul_assoc, zpow_natCast] at htop
        exact_mod_cast le_of_mul_le_mul_right htop hpow
      have hi : i < 17 := by
        by_contra hi
        have := Nat.pow_le_pow_right (n := 10) (by decide) (Nat.le_of_not_lt hi)
        have := Nat.mul_le_mul hdigits this
        omega
      obtain ⟨k, hk⟩ := Option.isSome_iff_exists.mp (hlimits i hi)
      refine scaled?_isSome_of_le he ?_ (Nat.le_refl _) hk
      exact (Nat.le_div_iff_mul_le (Nat.pow_pos (by decide))).mpr hbound

/-- Powers of ten up to `10 ^ 22` are magnitudes. -/
theorem tenTo?_units {p : Nat} (h : p ≤ 22) : ∃ t, tenTo? p = some t ∧ t.units = 10 ^ p * unit := by
  obtain ⟨-, hall, -⟩ := limits
  exact Option.map_eq_some_iff.mp (hall p (Nat.lt_succ_of_le h))

/-- Digits alone are not scaled. -/
theorem scaled?_of_exponent_zero (he : d.exponent = 0) : d.scaled? = d.magnitude? := by
  have hd : (⟨d.digits, 0⟩ : Decimal) = d := Decimal.ext rfl he.symm
  rw [scaled?_eq_up (e := 0) he, hd]
  cases ha : d.magnitude? with
  | none => rfl
  | some a =>
    rw [Option.bind_some]
    cases hz : a.isZero with
    | true => exact scaledUp?_zero hz 0
    | false =>
      obtain ⟨t, ht, hunits⟩ := tenTo?_units (p := 0) (by decide)
      rw [Nat.pow_zero, Nat.one_mul] at hunits
      rw [scaledUp?_eq hz, ht, Option.bind_some, times?, hunits]
      refine nearest_self a (Nat.cast_pos.mp unit_pos) ?_
      push_cast
      exact mul_div_cancel_right₀ _ unit_pos.ne'

/-- With exact digits and an exact power of ten, only the last step rounds. -/
theorem scaled?_of_exact (hd : d.magnitude? = some m) (hdigits : d.digits ≤ 2 ^ (53 : Nat))
    (hlow : -22 ≤ d.exponent) (hhigh : d.exponent ≤ 22) : d.scaled? = some m := by
  obtain ⟨a, ha⟩ := exists_units_eq_of_le hdigits
  obtain ⟨num, den, hden, hvalue, hnearest⟩ := d.magnitude?_eq_nearest
  rw [hnearest] at hd
  have hunit := unit_pos
  have hunit' : 0 < unit := Nat.cast_pos.mp hunit
  cases he : d.exponent with
  | ofNat e =>
    rw [he, Int.ofNat_eq_natCast] at hhigh
    obtain ⟨t, ht, htunits⟩ := tenTo?_units (p := e) (by omega)
    rw [scaled?_eq_up he, magnitude?_of_units ha, Option.bind_some]
    cases hz : a.isZero with
    | true =>
      have hzero : d.digits = 0 := by
        rw [isZero_iff.mp hz, units_zero, eq_comm, Nat.mul_eq_zero] at ha
        exact ha.resolve_right hunit'.ne'
      have hsame : d.value = a.value := by
        rw [value_of_units ha, value, hzero, Nat.cast_zero, zero_mul]
      rw [scaledUp?_zero hz, ← magnitude?_of_value_eq hsame, hnearest, hd]
    | false =>
      rw [scaledUp?_eq hz, ht, Option.bind_some, times?, ← hd]
      refine nearest_congr hunit' hden ?_
      rw [hvalue, value, he, ha, htunits, Int.ofNat_eq_natCast, zpow_natCast]
      push_cast
      field_simp
  | negSucc e =>
    rw [he] at hlow
    obtain ⟨t, ht, htunits⟩ := tenTo?_units (p := e + 1) (by omega)
    have hsteps : (e + 1 - 1) / maxPower = 0 := Nat.div_eq_of_lt (by unfold maxPower; omega)
    rw [scaled?_eq_down he, magnitude?_of_units ha, Option.bind_some, scaledDown?_eq, hsteps,
      dividedByMax?, Option.bind_some, Nat.zero_mul, Nat.sub_zero, ht, Option.bind_some, over?, ← hd]
    refine nearest_congr ?_ hden ?_
    · rw [htunits]
      exact Nat.mul_pos (Nat.pow_pos (by decide)) hunit'
    · rw [hvalue, value, he, ha, htunits, zpow_negSucc]
      push_cast
      field_simp

end Decimal

namespace Magnitude

variable {m : Magnitude}

/-- The largest magnitude. -/
def largest : Magnitude := ⟨2 ^ (53 : Nat) - 1, 2045, by decide, by decide, by decide⟩

theorem units_le_largest (m : Magnitude) : m.units ≤ largest.units := by
  obtain ⟨b, hb⟩ : ∃ b, b = 2045 := ⟨_, rfl⟩
  have hmantissa : largest.mantissa = 2 ^ (53 : Nat) - 1 := rfl
  have hscale : largest.scale = b := hb ▸ rfl
  rw [units, units, hmantissa, hscale]
  refine Nat.mul_le_mul (Nat.le_sub_one_of_lt m.mantissa_lt) (Nat.pow_le_pow_right (by decide) ?_)
  exact hb ▸ m.scale_le

theorem value_shortest_le_top (h : m.isZero = false) :
    (m.shortest .up).value ≤ Decimal.top.value := by
  have htop : Decimal.top.magnitude? = some largest := by decide +kernel
  rcases (units_le_largest m).lt_or_eq with hlt | heq
  · by_contra hgt
    obtain ⟨n, hn, hle⟩ := Decimal.magnitude?_mono (not_le.mp hgt).le (magnitude?_shortest .up h)
    rw [htop, Option.some.injEq] at hn
    exact absurd (hn ▸ hle) (Nat.not_le.mpr hlt)
  · have hshortest : largest.shortest .up = Decimal.top := by decide +kernel
    rw [ext_units heq, hshortest]

end Magnitude

end Markup
