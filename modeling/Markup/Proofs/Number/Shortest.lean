import Markup.Number.Shortest
import Markup.Proofs.Number.Decimal

/-!
# The shortest decimal

`Magnitude.shortest` searches grids of decimals from coarse to fine. A grid gives nothing exactly
when none of its decimals reads back (`onGrid?_eq_none_iff`), and the grid of seventeen digits always
has one that does (`exists_seventeen`). So the search never gives up (`shortest_spec`). What it finds
reads back (`magnitude?_shortest`), and no decimal on a coarser grid does (`exponent_le_shortest`).

- `le_leading_shortest_iff`: where its first digit stands, from the size of the magnitude.
- `HalfWay`, `shortest_up_ne_even_iff`: the magnitudes for which the tie matters.
-/

namespace Markup

/-- The next decimal on the same grid. -/
def Decimal.next (d : Decimal) : Decimal := ⟨d.digits + 1, d.exponent⟩

theorem Decimal.value_next (d : Decimal) : d.next.value = d.value + 10 ^ d.exponent := by
  rw [value, value, next]
  push_cast
  ring

namespace Magnitude

variable {m : Magnitude} {g : Int} {tie : Tie} {d : Decimal}

/-! ### Neighbours on a grid -/

theorem inSteps_pos (m : Magnitude) (g : Int) : 0 < (m.inSteps g).2 := by
  have hunit : 0 < unit := Nat.cast_pos.mp unit_pos
  cases g with
  | ofNat g => exact Nat.mul_pos hunit (Nat.pow_pos (by decide))
  | negSucc g => simpa only [inSteps] using hunit

theorem inSteps_eq (m : Magnitude) (g : Int) :
    ((m.inSteps g).1 : ℚ) / (m.inSteps g).2 = m.value / 10 ^ g := by
  have hunit := unit_pos
  cases g with
  | ofNat g =>
    rw [inSteps, value, Int.ofNat_eq_natCast, zpow_natCast]
    push_cast
    rw [div_div]
  | negSucc g =>
    rw [inSteps, value, zpow_negSucc]
    push_cast
    field_simp

/-- The neighbour below a magnitude on a grid. -/
def low (m : Magnitude) (g : Int) : Decimal := ⟨(m.inSteps g).1 / (m.inSteps g).2, g⟩

/-- The neighbour above a magnitude on a grid. -/
def high (m : Magnitude) (g : Int) : Decimal := (m.low g).next

theorem high_digits (m : Magnitude) (g : Int) : (m.high g).digits = (m.low g).digits + 1 := rfl

theorem high_value (m : Magnitude) (g : Int) : (m.high g).value = (m.low g).value + 10 ^ g :=
  (m.low g).value_next

theorem low_value_le (m : Magnitude) (g : Int) : (m.low g).value ≤ m.value := by
  have hpos : (0 : ℚ) < (m.inSteps g).2 := by exact_mod_cast m.inSteps_pos g
  have hg : (0 : ℚ) < 10 ^ g := by positivity
  rw [Decimal.value, low, ← le_div_iff₀ hg, ← inSteps_eq, le_div_iff₀ hpos]
  exact_mod_cast Nat.div_mul_le_self ..

theorem lt_high_value (m : Magnitude) (g : Int) : m.value < (m.high g).value := by
  have hpos : (0 : ℚ) < (m.inSteps g).2 := by exact_mod_cast m.inSteps_pos g
  have hg : (0 : ℚ) < 10 ^ g := by positivity
  rw [Decimal.value, high, Decimal.next, low, ← div_lt_iff₀ hg, ← inSteps_eq, div_lt_iff₀ hpos]
  exact_mod_cast Nat.lt_mul_of_div_lt (Nat.lt_succ_self _) (m.inSteps_pos g)

/-- Which neighbour is nearer, from the remainder of the division. -/
theorem two_mul_mod_cmp (m : Magnitude) (g : Int) :
    (2 * ((m.inSteps g).1 % (m.inSteps g).2) < (m.inSteps g).2 ↔
      2 * m.value < (m.low g).value + (m.high g).value) ∧
    ((m.inSteps g).2 < 2 * ((m.inSteps g).1 % (m.inSteps g).2) ↔
      (m.low g).value + (m.high g).value < 2 * m.value) := by
  have hpos : (0 : ℚ) < (m.inSteps g).2 := by exact_mod_cast m.inSteps_pos g
  have hg : (0 : ℚ) < 10 ^ g := by positivity
  have hmod : ((m.inSteps g).2 : ℚ) * ((m.inSteps g).1 / (m.inSteps g).2 : Nat) +
      ((m.inSteps g).1 % (m.inSteps g).2 : Nat) = (m.inSteps g).1 := by
    exact_mod_cast Nat.div_add_mod ..
  have heq := m.inSteps_eq g
  rw [div_eq_div_iff hpos.ne' hg.ne'] at heq
  have hlow : (m.low g).value = ((m.inSteps g).1 / (m.inSteps g).2 : Nat) * 10 ^ g := rfl
  rw [high_value, hlow]
  generalize ((m.inSteps g).1 / (m.inSteps g).2 : Nat) = q at hmod ⊢
  generalize (m.inSteps g).1 % (m.inSteps g).2 = r at hmod ⊢
  generalize ((m.inSteps g).1 : ℚ) = n at heq hmod
  generalize (m.inSteps g).2 = k at hpos heq hmod ⊢
  -- the value is `q` steps and `r` parts of `k` of another
  have hv : m.value * k = (q * k + r) * 10 ^ g := by rw [← heq, ← hmod]; ring
  have hlt : ((2 * r : Nat) : ℚ) < k ↔ 2 * m.value < q * 10 ^ g + (q * 10 ^ g + 10 ^ g) := by
    rw [← mul_lt_mul_iff_left₀ hg, ← mul_lt_mul_iff_left₀ hpos (b := 2 * m.value), mul_assoc 2, hv]
    push_cast
    constructor <;> intro h <;> nlinarith
  have hgt : (k : ℚ) < (2 * r : Nat) ↔ q * 10 ^ g + (q * 10 ^ g + 10 ^ g) < 2 * m.value := by
    rw [← mul_lt_mul_iff_left₀ hg, ← mul_lt_mul_iff_left₀ hpos (c := 2 * m.value), mul_assoc 2, hv]
    push_cast
    constructor <;> intro h <;> nlinarith
  exact ⟨by rw [← hlt]; exact Nat.cast_lt.symm, by rw [← hgt]; exact Nat.cast_lt.symm⟩

theorem value_mono {a b : Nat} (h : a ≤ b) (g : Int) :
    (⟨a, g⟩ : Decimal).value ≤ (⟨b, g⟩ : Decimal).value := by
  have hg : (0 : ℚ) < 10 ^ g := by positivity
  exact mul_le_mul_of_nonneg_right (Nat.cast_le.mpr h) hg.le

/-- If a decimal on a grid reads back, one of the two neighbours does. -/
theorem low_or_high (hd : (⟨d.digits, g⟩ : Decimal).magnitude? = some m) :
    (m.low g).magnitude? = some m ∨ (m.high g).magnitude? = some m := by
  rcases Nat.lt_or_ge ((m.inSteps g).1 / (m.inSteps g).2) d.digits with h | h
  · have hle : (m.high g).value ≤ (⟨d.digits, g⟩ : Decimal).value := value_mono h g
    exact .inr (Decimal.magnitude?_toward hd (.inr ⟨(m.lt_high_value g).le, hle⟩))
  · have hle : (⟨d.digits, g⟩ : Decimal).value ≤ (m.low g).value := value_mono h g
    exact .inl (Decimal.magnitude?_toward hd (.inl ⟨hle, m.low_value_le g⟩))

/-! ### One grid -/

/-- The nearer neighbour, the tie deciding between two that are equally near. -/
def nearer (tie : Tie) (m : Magnitude) (g : Int) : Decimal :=
  if 2 * m.value < (m.low g).value + (m.high g).value then m.low g
  else if (m.low g).value + (m.high g).value < 2 * m.value then m.high g
  else match tie with
    | .up => m.high g
    | .even => if (m.low g).digits % 2 = 0 then m.low g else m.high g

theorem nearer_eq_or (tie : Tie) (m : Magnitude) (g : Int) :
    m.nearer tie g = m.low g ∨ m.nearer tie g = m.high g := by
  unfold nearer
  split
  · exact .inl rfl
  · split
    · exact .inr rfl
    · cases tie with
      | up => exact .inr rfl
      | even => exact ite_eq_or_eq ..

theorem onGrid?_eq (tie : Tie) (m : Magnitude) (g : Int) :
    m.onGrid? tie g =
      if (m.low g).magnitude? = some m then
        if (m.high g).magnitude? = some m then some (m.nearer tie g) else some (m.low g)
      else if (m.high g).magnitude? = some m then some (m.high g)
      else none := by
  obtain ⟨hlt, hgt⟩ := m.two_mul_mod_cmp g
  have hbeq (d : Decimal) : (d.magnitude? == some m) = decide (d.magnitude? = some m) := by
    by_cases h : d.magnitude? = some m
    · rw [beq_iff_eq.mpr h, decide_eq_true h]
    · rw [beq_eq_false_iff_ne.mpr h, decide_eq_false h]
  simp only [nearer, ← hlt, ← hgt]
  simp only [onGrid?, hbeq, low, high, Decimal.next]
  by_cases hl : (m.low g).magnitude? = some m <;> by_cases hh : (m.high g).magnitude? = some m <;>
    simp only [low, high, Decimal.next] at hl hh <;>
    simp only [hl, hh, decide_true, decide_false, if_true, if_false]
  split
  · rfl
  · split
    · rfl
    · cases tie with
      | up => rfl
      | even => exact (apply_ite some ..).symm

theorem onGrid?_spec (h : m.onGrid? tie g = some d) :
    d.magnitude? = some m ∧ (d = m.low g ∨ d = m.high g) := by
  rw [onGrid?_eq] at h
  split at h
  · next hl =>
    split at h
    · next hh =>
      have hd := m.nearer_eq_or tie g
      rw [Option.some.inj h] at hd
      refine ⟨?_, hd⟩
      rcases hd with rfl | rfl
      · exact hl
      · exact hh
    · exact Option.some.inj h ▸ ⟨hl, .inl rfl⟩
  · split at h
    · next hh => exact Option.some.inj h ▸ ⟨hh, .inr rfl⟩
    · cases h

/-- A grid gives nothing exactly when none of its decimals reads back. -/
theorem onGrid?_eq_none_iff :
    m.onGrid? tie g = none ↔ ∀ n, (⟨n, g⟩ : Decimal).magnitude? ≠ some m := by
  refine ⟨fun h n hn => ?_, fun h => ?_⟩
  · have hnone : (m.low g).magnitude? ≠ some m ∧ (m.high g).magnitude? ≠ some m := by
      rw [onGrid?_eq] at h
      split at h
      · split at h <;> cases h
      · next hl =>
        split at h
        · cases h
        · next hh => exact ⟨hl, hh⟩
    exact (low_or_high (d := ⟨n, g⟩) hn).elim hnone.1 hnone.2
  · have hl : (m.low g).magnitude? ≠ some m := h _
    have hh : (m.high g).magnitude? ≠ some m := h _
    rw [onGrid?_eq, if_neg hl, if_neg hh]

/-! ### The search -/

/-- The digits that `leading` counts are those of the value, so many places on. -/
theorem leading_eq (m : Magnitude) : ∃ p q : Nat,
    m.leading = (Decimal.digitChars q).length - 1 - (p : Int) ∧ (q : ℚ) ≤ m.value * 10 ^ p ∧
    m.value * 10 ^ p < q + 1 ∧ (m.isZero = false → 0 < q) := by
  obtain ⟨p, hp⟩ : ∃ p, p = 400 := ⟨_, rfl⟩
  obtain ⟨b, hb⟩ : ∃ b, b = 1074 := ⟨_, rfl⟩
  have hunit : 0 < unit := Nat.cast_pos.mp unit_pos
  have hvalue : m.value * 10 ^ p = (m.units * 10 ^ p : Nat) / (unit : ℚ) := by
    rw [value, div_mul_eq_mul_div]
    push_cast
    rfl
  refine ⟨p, m.units * 10 ^ p / unit, ?_, ?_, ?_, fun h => Nat.div_pos ?_ hunit⟩
  · unfold leading
    rw [← hp]
    omega
  · rw [hvalue, le_div_iff₀ unit_pos]
    exact_mod_cast Nat.div_mul_le_self ..
  · rw [hvalue, div_lt_iff₀ unit_pos]
    exact_mod_cast Nat.lt_mul_of_div_lt (Nat.lt_succ_self _) hunit
  · calc unit = 2 ^ b := unit_eq hb
      _ ≤ 2 ^ (3 * p) := Nat.pow_le_pow_right (by decide) (by omega)
      _ = 8 ^ p := Nat.pow_mul 2 3 p
      _ ≤ 10 ^ p := Nat.pow_le_pow_left (by decide) p
      _ ≤ m.units * 10 ^ p := Nat.le_mul_of_pos_left _ (units_pos h)

theorem pow_leading_le (h : m.isZero = false) : (10 : ℚ) ^ m.leading ≤ m.value := by
  obtain ⟨p, q, hlead, hle, -, hpos⟩ := m.leading_eq
  have hlen := Decimal.length_digitChars_pos q
  have heq : m.leading = ((Decimal.digitChars q).length - 1 : Nat) - (p : Int) := by omega
  have hq : (10 : ℚ) ^ ((Decimal.digitChars q).length - 1) ≤ q := by
    exact_mod_cast Decimal.pow_length_le (hpos h)
  rw [heq, zpow_sub₀ (by norm_num), zpow_natCast, zpow_natCast, div_le_iff₀ (by positivity)]
  exact hq.trans hle

theorem lt_pow_leading (m : Magnitude) : m.value < 10 ^ (m.leading + 1) := by
  obtain ⟨p, q, hlead, -, hlt, -⟩ := m.leading_eq
  have heq : m.leading + 1 = ((Decimal.digitChars q).length : Nat) - (p : Int) := by omega
  have hq : (q : ℚ) + 1 ≤ 10 ^ (Decimal.digitChars q).length := by
    exact_mod_cast Decimal.lt_pow_length q
  rw [heq, zpow_sub₀ (by norm_num), zpow_natCast, zpow_natCast, lt_div_iff₀ (by positivity)]
  exact hlt.trans_le hq

theorem low_digits_lt {i : Nat} (hi : m.leading + 1 = i + g) : (m.low g).digits < 10 ^ i := by
  have hlt := (m.low_value_le g).trans_lt m.lt_pow_leading
  rw [hi, zpow_add₀ (by norm_num), zpow_natCast] at hlt
  have hdigits := lt_of_mul_lt_mul_right hlt (by positivity)
  exact_mod_cast hdigits

/-- The grid of seventeen digits has a decimal that reads back. -/
theorem exists_seventeen (h : m.isZero = false) :
    ∃ n, (⟨n, m.leading - 16⟩ : Decimal).magnitude? = some m := by
  have hlow := m.low_value_le (m.leading - 16)
  have hhigh := m.lt_high_value (m.leading - 16)
  have hstep := m.high_value (m.leading - 16)
  have hlead : 10 ^ 16 * (10 : ℚ) ^ (m.leading - 16) ≤ m.value := by
    rw [← zpow_natCast, ← zpow_add₀ (by norm_num)]
    norm_num
    exact pow_leading_le h
  -- the nearer neighbour is at most half a step away
  rcases le_total (2 * m.value) ((m.low (m.leading - 16)).value + (m.high (m.leading - 16)).value)
    with hle | hle
  · refine ⟨_, Decimal.magnitude?_of_close (d := m.low (m.leading - 16)) ?_⟩
    rw [abs_of_nonpos (by linarith)]
    linarith
  · refine ⟨_, Decimal.magnitude?_of_close (d := m.high (m.leading - 16)) ?_⟩
    rw [abs_of_nonneg (by linarith)]
    linarith

theorem findSome?_range_eq_some {α : Type} {f : Nat → Option α} {n : Nat} {a : α}
    (h : (List.range n).findSome? f = some a) : ∃ i < n, f i = some a ∧ ∀ j < i, f j = none := by
  induction n with
  | zero => cases h
  | succ n ih =>
    rw [List.range_succ, List.findSome?_append, Option.or_eq_some_iff] at h
    rcases h with h | ⟨hnone, h⟩
    · obtain ⟨i, hi, hspec⟩ := ih h
      exact ⟨i, Nat.lt_succ_of_lt hi, hspec⟩
    · refine ⟨n, Nat.lt_succ_self n, ?_, fun j hj => ?_⟩
      · simpa using h
      · exact List.findSome?_eq_none_iff.mp hnone j (List.mem_range.mpr hj)

/-- The shortest decimal is what the first grid gives that has a decimal that reads back. -/
theorem shortest_spec (tie : Tie) (h : m.isZero = false) :
    ∃ i ≤ 17, (m.shortest tie).exponent = m.leading + 1 - (i : Nat) ∧
      m.onGrid? tie (m.shortest tie).exponent = some (m.shortest tie) ∧
      ∀ j < i, ∀ n, (⟨n, m.leading + 1 - (j : Nat)⟩ : Decimal).magnitude? ≠ some m := by
  have hsome : ∃ d, ((List.range 18).findSome? fun (digits : Nat) =>
      m.onGrid? tie (m.leading + 1 - digits)) = some d := by
    refine Option.ne_none_iff_exists'.mp fun hnone => ?_
    have h17 := List.findSome?_eq_none_iff.mp hnone 17 (by decide)
    obtain ⟨n, hn⟩ := exists_seventeen h
    have heq : m.leading + 1 - (17 : Nat) = m.leading - 16 := by omega
    rw [heq] at h17
    exact onGrid?_eq_none_iff.mp h17 n hn
  obtain ⟨d, hd⟩ := hsome
  have hshortest : m.shortest tie = d := by rw [shortest, hd, Option.getD_some]
  obtain ⟨i, hi, hgrid, hcoarser⟩ := findSome?_range_eq_some hd
  have hexp : d.exponent = m.leading + 1 - (i : Nat) := (onGrid?_spec hgrid).2.elim
    (fun heq => congrArg Decimal.exponent heq) (fun heq => congrArg Decimal.exponent heq)
  rw [hshortest, hexp]
  exact ⟨i, Nat.le_of_lt_succ hi, rfl, hgrid, fun j hj => onGrid?_eq_none_iff.mp (hcoarser j hj)⟩

theorem value_one (k : Int) : (⟨1, k⟩ : Decimal).value = 10 ^ k := by
  rw [Decimal.value, Nat.cast_one, one_mul]

section shortest

variable (tie : Tie) (h : m.isZero = false)
include h

theorem onGrid?_shortest :
    m.onGrid? tie (m.shortest tie).exponent = some (m.shortest tie) := by
  obtain ⟨i, -, -, hgrid, -⟩ := shortest_spec tie h
  exact hgrid

theorem magnitude?_shortest : (m.shortest tie).magnitude? = some m :=
  (onGrid?_spec (onGrid?_shortest tie h)).1

theorem shortest_digits_pos : 0 < (m.shortest tie).digits :=
  Decimal.digits_pos (magnitude?_shortest tie h) h

/-- No decimal that reads back has a larger exponent. -/
theorem exponent_le_shortest (hd : d.magnitude? = some m) :
    d.exponent ≤ (m.shortest tie).exponent := by
  obtain ⟨i, hi, hexp, -, hcoarser⟩ := shortest_spec tie h
  by_contra hlt
  rcases le_or_gt d.exponent (m.leading + 1) with hle | hgt
  · -- its grid was tried and gave nothing
    have hj : m.leading + 1 - ((m.leading + 1 - d.exponent).toNat : Nat) = d.exponent := by omega
    refine hcoarser (m.leading + 1 - d.exponent).toNat (by omega) d.digits ?_
    rw [hj]
    exact hd
  · -- it is more than ten times too large
    have hpow : (10 : ℚ) ^ (m.leading + 1 + 1) ≤ 10 ^ d.exponent :=
      zpow_le_zpow_right₀ (by norm_num) hgt
    have hdigits : (1 : ℚ) ≤ d.digits := by exact_mod_cast Decimal.digits_pos hd h
    have hvalue : 10 ^ d.exponent ≤ d.value := le_mul_of_one_le_left (by positivity) hdigits
    rw [zpow_add_one₀ (by norm_num)] at hpow
    linarith [m.lt_pow_leading, Decimal.value_lt_two_mul hd h, m.value_nonneg]

theorem shortest_exponent_eq : (m.shortest .up).exponent = (m.shortest .even).exponent :=
  Int.le_antisymm (exponent_le_shortest .even h (magnitude?_shortest .up h))
    (exponent_le_shortest .up h (magnitude?_shortest .even h))

theorem shortest_digits_le : (m.shortest tie).digits ≤ 10 ^ (17 : Nat) := by
  obtain ⟨i, hi, hexp, hgrid, -⟩ := shortest_spec tie h
  have hside := (onGrid?_spec hgrid).2
  generalize m.shortest tie = d at hexp hside ⊢
  have hlow : (m.low d.exponent).digits < 10 ^ i := low_digits_lt (by omega)
  have hhigh := m.high_digits d.exponent
  have hpow : 10 ^ i ≤ 10 ^ (17 : Nat) := Nat.pow_le_pow_right (by decide) hi
  rcases hside with heq | heq <;> rw [heq] <;> omega

/-- The first digit of the shortest decimal stands at `10 ^ k` or above exactly when the magnitude
is at least the one nearest to `10 ^ k`. -/
theorem le_leading_shortest_iff {k : Int} {n : Magnitude}
    (hn : (⟨1, k⟩ : Decimal).magnitude? = some n) :
    k ≤ (m.shortest tie).leading ↔ n.units ≤ m.units := by
  have hread := magnitude?_shortest tie h
  have hpos := shortest_digits_pos tie h
  have hlead : k ≤ (m.shortest tie).leading ↔ (⟨1, k⟩ : Decimal).value ≤ (m.shortest tie).value := by
    rw [value_one]
    refine ⟨fun hk => ?_, fun hk => ?_⟩
    · exact (zpow_le_zpow_right₀ (by norm_num) hk).trans (Decimal.pow_leading_le hpos)
    · have := Decimal.exponent_lt_of_zpow hk (m.shortest tie).value_lt_pow_leading
      omega
  rw [hlead]
  refine ⟨fun hle => ?_, fun hle => ?_⟩
  · obtain ⟨n', hn', hunits⟩ := Decimal.magnitude?_mono hle hread
    rw [hn, Option.some.injEq] at hn'
    exact hn' ▸ hunits
  · by_contra hlt
    obtain ⟨m', hm', hunits⟩ := Decimal.magnitude?_mono (not_le.mp hlt).le hn
    rw [hread, Option.some.injEq] at hm'
    -- then the power itself reads back, so the shortest decimal is no finer
    have heq : n = m := ext_units (Nat.le_antisymm hle (hm' ▸ hunits))
    have hexp := exponent_le_shortest tie h (heq ▸ hn)
    refine hlt ?_
    rw [value_one]
    calc (10 : ℚ) ^ k ≤ 10 ^ (m.shortest tie).exponent := zpow_le_zpow_right₀ (by norm_num) hexp
      _ ≤ (m.shortest tie).value := le_mul_of_one_le_left (by positivity) (by exact_mod_cast hpos)

end shortest

/-! ### Ties -/

/-- The magnitude lies half-way between two neighbouring decimals that both read back, on the
coarsest grid that has such a decimal, and the lower one is even. -/
def HalfWay (m : Magnitude) : Prop :=
  ∃ d : Decimal, d.digits % 2 = 0 ∧ d.magnitude? = some m ∧ d.next.magnitude? = some m ∧
    d.value + d.next.value = 2 * m.value ∧ ∀ e : Decimal, e.magnitude? = some m → e.exponent ≤ d.exponent

/-- The neighbour below is the decimal of the grid whose step holds the value. -/
theorem eq_low (hle : d.value ≤ m.value) (hlt : m.value < d.next.value) : d = m.low d.exponent := by
  have hlow := m.low_value_le d.exponent
  have hhigh := m.lt_high_value d.exponent
  have hg : (0 : ℚ) < 10 ^ d.exponent := by positivity
  have h1 := lt_of_mul_lt_mul_right (hle.trans_lt hhigh) hg.le
  have h2 := lt_of_mul_lt_mul_right (hlow.trans_lt hlt) hg.le
  rw [Nat.cast_lt] at h1 h2
  have h3 := m.high_digits d.exponent
  have h4 : d.next.digits = d.digits + 1 := rfl
  have hdigits : d.digits = (m.low d.exponent).digits := by omega
  calc d = ⟨d.digits, d.exponent⟩ := rfl
    _ = m.low d.exponent := by rw [hdigits]; rfl

theorem low_ne_high (m : Magnitude) (g : Int) : m.low g ≠ m.high g := by
  intro h
  have hdigits := congrArg Decimal.digits h
  rw [high_digits] at hdigits
  omega

theorem nearer_up_ne_even_iff : m.nearer .up g ≠ m.nearer .even g ↔
    (m.low g).value + (m.high g).value = 2 * m.value ∧ (m.low g).digits % 2 = 0 := by
  unfold nearer
  split
  · next hlt => exact iff_of_false (fun h => h rfl) fun h => hlt.ne h.1.symm
  · next hge =>
    split
    · next hlt => exact iff_of_false (fun h => h rfl) fun h => hlt.ne h.1
    · next hle =>
      have heq : (m.low g).value + (m.high g).value = 2 * m.value :=
        le_antisymm (not_lt.mp hge) (not_lt.mp hle)
      dsimp only
      split
      · next heven => exact iff_of_true (m.low_ne_high g).symm ⟨heq, heven⟩
      · next hodd => exact iff_of_false (fun h => h rfl) fun h => hodd h.2

theorem onGrid?_up_ne_even_iff : m.onGrid? .up g ≠ m.onGrid? .even g ↔
    (m.low g).magnitude? = some m ∧ (m.high g).magnitude? = some m ∧
      (m.low g).value + (m.high g).value = 2 * m.value ∧ (m.low g).digits % 2 = 0 := by
  rw [onGrid?_eq, onGrid?_eq]
  split
  · next hl =>
    split
    · next hh =>
      rw [ne_eq, Option.some.injEq, ← ne_eq, nearer_up_ne_even_iff]
      exact ⟨fun h => ⟨hl, hh, h⟩, fun h => h.2.2⟩
    · next hh => exact iff_of_false (fun h => h rfl) fun h => hh h.2.1
  · next hl => exact iff_of_false (fun h => h rfl) fun h => hl h.1

/-- On the coarsest grid of the decimals that read back, the tie matters exactly half-way. -/
theorem halfWay_iff (hd : d.magnitude? = some m)
    (hcoarsest : ∀ e : Decimal, e.magnitude? = some m → e.exponent ≤ d.exponent) :
    m.HalfWay ↔ m.onGrid? .up d.exponent ≠ m.onGrid? .even d.exponent := by
  rw [onGrid?_up_ne_even_iff]
  constructor
  · rintro ⟨e, hdigits, he, hnext, hvalue, hcoarsest'⟩
    have hexp : e.exponent = d.exponent := Int.le_antisymm (hcoarsest e he) (hcoarsest' d hd)
    have hstep := e.value_next
    have hg : (0 : ℚ) < 10 ^ e.exponent := by positivity
    have hlow : e = m.low e.exponent := eq_low (by linarith) (by linarith)
    rw [← hexp, high, ← hlow]
    exact ⟨he, hnext, hvalue, hdigits⟩
  · rintro ⟨hl, hh, hvalue, hdigits⟩
    exact ⟨m.low d.exponent, hdigits, hl, hh, hvalue, hcoarsest⟩

theorem shortest_up_ne_even_iff (h : m.isZero = false) :
    m.shortest .up ≠ m.shortest .even ↔ m.HalfWay := by
  have hup := onGrid?_shortest .up h
  have heven := onGrid?_shortest .even h
  rw [← shortest_exponent_eq h] at heven
  rw [halfWay_iff (magnitude?_shortest .up h) fun e => exponent_le_shortest .up h, hup, heven,
    ne_eq, ne_eq, Option.some.injEq]

end Magnitude

end Markup
