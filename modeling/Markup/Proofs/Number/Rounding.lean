import Markup.Number.Magnitude
import Mathlib.Algebra.Order.Field.Basic
import Mathlib.Algebra.Order.Ring.Rat
import Mathlib.Tactic.FieldSimp
import Mathlib.Tactic.Linarith
import Mathlib.Tactic.NormNum
import Mathlib.Tactic.Positivity
import Mathlib.Tactic.Ring

/-!
# Rounding to magnitudes

`Magnitude.nearest` divides natural numbers. Here it is a function of the exact quotient of units:
`RoundsTo x s k` says that `k · 2 ^ s` units is where `x` units are rounded, and
`nearest_eq_some_iff` that `nearest` follows it. From that come the three facts that the reading of
decimals rests on: a magnitude is rounded to itself (`nearest_self`), rounding keeps order
(`nearest_mono`), and a quotient that is closer to a magnitude than one part in `2 · 10 ^ 16` is
rounded to it (`nearest_of_close`).
-/

namespace Markup

/-! ### One quotient -/

section roundHalfEven

variable {num den : Nat}

theorem le_roundHalfEven_add_half (hd : 0 < den) :
    (num : ℚ) / den ≤ roundHalfEven num den + 1 / 2 := by
  have hmod := Nat.div_add_mod num den
  have hlt := Nat.mod_lt num hd
  rw [div_le_iff₀ (by exact_mod_cast hd)]
  have key : 2 * num ≤ (2 * roundHalfEven num den + 1) * den := by
    unfold roundHalfEven
    split
    · nlinarith
    · split
      · nlinarith
      · nlinarith [Nat.zero_le (num / den % 2 * den)]
  have key' : (2 * num : ℚ) ≤ (2 * roundHalfEven num den + 1) * den := by exact_mod_cast key
  linarith

theorem roundHalfEven_le_add_half (hd : 0 < den) :
    (roundHalfEven num den : ℚ) ≤ num / den + 1 / 2 := by
  have hmod := Nat.div_add_mod num den
  rw [← sub_le_iff_le_add, le_div_iff₀ (by exact_mod_cast hd)]
  have key : 2 * roundHalfEven num den * den ≤ 2 * num + den := by
    unfold roundHalfEven
    split
    · nlinarith [Nat.zero_le (num % den)]
    · split
      · nlinarith
      · have h2 : num / den % 2 ≤ 1 := by omega
        nlinarith [Nat.mul_le_mul_right den h2]
  have key' : (2 * roundHalfEven num den * den : ℚ) ≤ 2 * num + den := by exact_mod_cast key
  linarith

/-- A half goes to the even neighbour. -/
theorem roundHalfEven_even (hd : 0 < den)
    (h : (2 * num : ℚ) / den = 2 * roundHalfEven num den + 1 ∨
      (2 * num : ℚ) / den + 1 = 2 * roundHalfEven num den) :
    roundHalfEven num den % 2 = 0 := by
  have hmod := Nat.div_add_mod num den
  have hlt := Nat.mod_lt num hd
  have hd' : (den : ℚ) ≠ 0 := by exact_mod_cast hd.ne'
  have key : 2 * num = (2 * roundHalfEven num den + 1) * den ∨
      2 * num + den = 2 * roundHalfEven num den * den := by
    rcases h with h | h
    · left
      rw [div_eq_iff hd'] at h
      exact_mod_cast h
    · right
      rw [div_add_one hd', div_eq_iff hd'] at h
      exact_mod_cast h
  -- only the last of the three cases of the definition leaves a half
  unfold roundHalfEven at key ⊢
  split at key
  · exfalso
    rcases key with key | key <;> nlinarith [Nat.zero_le (num % den)]
  · split at key
    · exfalso
      rcases key with key | key <;> nlinarith
    · next h1 h2 =>
      rw [if_neg h1, if_neg h2]
      omega

end roundHalfEven

namespace Magnitude

/-! ### Where a number of units is rounded -/

/-- `x` units are rounded to `mantissa · 2 ^ scale`: the scale is the one at which the mantissa is
full, or zero, and a half goes to the even mantissa. -/
structure RoundsTo (x : ℚ) (scale mantissa : Nat) : Prop where
  lt : x < 2 ^ (53 + scale)
  full : scale = 0 ∨ 2 ^ (52 + scale) ≤ x
  le : x / 2 ^ scale ≤ mantissa + 1 / 2
  ge : (mantissa : ℚ) ≤ x / 2 ^ scale + 1 / 2
  even : x / 2 ^ scale = mantissa + 1 / 2 ∨ x / 2 ^ scale + 1 / 2 = mantissa → mantissa % 2 = 0

namespace RoundsTo

variable {x y : ℚ} {s t k l : Nat}

theorem le_full (h : RoundsTo x s k) : k ≤ 2 ^ (53 : Nat) := by
  have hx : x / 2 ^ s < 2 ^ 53 := by
    rw [div_lt_iff₀ (by positivity), ← pow_add]
    exact h.lt
  have hk : (k : ℚ) < 2 ^ 53 + 1 := by linarith [h.ge]
  have hk' : k < 2 ^ (53 : Nat) + 1 := by exact_mod_cast hk
  omega

theorem full_le (h : RoundsTo x s k) (hs : s ≠ 0) : 2 ^ (52 : Nat) ≤ k := by
  have hx : 2 ^ 52 ≤ x / 2 ^ s := by
    rw [le_div_iff₀ (by positivity), ← pow_add]
    exact h.full.resolve_left hs
  have hk : (2 : ℚ) ^ 52 < k + 1 := by linarith [h.le]
  have hk' : 2 ^ (52 : Nat) < k + 1 := by exact_mod_cast hk
  omega

theorem mantissa_le (hx : RoundsTo x s k) (hy : RoundsTo y s l) (h : x ≤ y) : k ≤ l := by
  by_contra hlt
  have hlt' : (l : ℚ) + 1 ≤ k := by exact_mod_cast Nat.lt_of_not_le hlt
  have hxy : x / 2 ^ s ≤ y / 2 ^ s := by gcongr
  -- then both are halves, on the two sides of one quotient
  have hk := hx.even (.inr (by linarith [hx.ge, hy.le]))
  have hl := hy.even (.inl (by linarith [hx.ge, hy.le]))
  have hkl : (k : ℚ) = l + 1 := by linarith [hx.ge, hy.le]
  have hkl' : k = l + 1 := by exact_mod_cast hkl
  omega

theorem scale_le (hx : RoundsTo x s k) (hy : RoundsTo y t l) (h : x ≤ y) : s ≤ t := by
  by_contra hlt
  have hs := hx.full.resolve_left (by omega)
  have hp : (2 : ℚ) ^ (53 + t) ≤ 2 ^ (52 + s) := pow_le_pow_right₀ (by norm_num) (by omega)
  linarith [hy.lt]

theorem units_le (hx : RoundsTo x s k) (hy : RoundsTo y t l) (h : x ≤ y) :
    k * 2 ^ s ≤ l * 2 ^ t := by
  rcases Nat.eq_or_lt_of_le (hx.scale_le hy h) with rfl | hst
  · exact Nat.mul_le_mul_right _ (hx.mantissa_le hy h)
  · calc k * 2 ^ s ≤ 2 ^ (53 : Nat) * 2 ^ s := Nat.mul_le_mul_right _ hx.le_full
      _ = 2 ^ (53 + s) := (Nat.pow_add ..).symm
      _ ≤ 2 ^ (52 + t) := Nat.pow_le_pow_right (by decide) (by omega)
      _ = 2 ^ (52 : Nat) * 2 ^ t := Nat.pow_add ..
      _ ≤ l * 2 ^ t := Nat.mul_le_mul_right _ (hy.full_le (by omega))

theorem units_eq (hx : RoundsTo x s k) (hy : RoundsTo x t l) : k * 2 ^ s = l * 2 ^ t :=
  Nat.le_antisymm (hx.units_le hy (le_refl x)) (hy.units_le hx (le_refl x))

/-- What is rounded to the same number of units is no more than one unit apart, or hardly apart for
its size. -/
theorem close (hx : RoundsTo x s k) (hy : RoundsTo y t l) (hle : x ≤ y)
    (h : k * 2 ^ s = l * 2 ^ t) : y - x ≤ 1 ∨ 2 ^ 52 * (y - x) ≤ y := by
  have hscale : (2 : ℚ) ^ s ≤ 2 ^ t := pow_le_pow_right₀ (by norm_num) (hx.scale_le hy hle)
  have hunits : (k : ℚ) * 2 ^ s = l * 2 ^ t := by exact_mod_cast h
  have hlow : ((k : ℚ) - 1 / 2) * 2 ^ s ≤ x := by
    rw [← le_div_iff₀ (by positivity)]
    linarith [hx.ge]
  have hhigh : y ≤ (l + 1 / 2) * 2 ^ t := by
    rw [← div_le_iff₀ (by positivity)]
    exact hy.le
  have hgap : y - x ≤ 2 ^ t := by
    rw [sub_mul] at hlow
    rw [add_mul] at hhigh
    linarith
  rcases hy.full with rfl | hfull
  · exact .inl (by simpa using hgap)
  · right
    rw [pow_add] at hfull
    linarith

end RoundsTo

/-! ### Magnitudes by their units -/

/-- The first number of units that is too large. -/
def overflow : Nat := 2 ^ (2098 : Nat)

theorem overflow_eq_mul {a b : Nat} (h : a + b = 2098) : overflow = 2 ^ a * 2 ^ b := by
  rw [overflow, ← h, Nat.pow_add]

theorem units_lt (m : Magnitude) : m.units < overflow := by
  have hs := m.scale_le
  obtain ⟨rest, hrest⟩ : ∃ rest, 53 + m.scale + rest = 2098 := ⟨2045 - m.scale, by omega⟩
  calc m.units < 2 ^ (53 : Nat) * 2 ^ m.scale :=
        Nat.mul_lt_mul_of_pos_right m.mantissa_lt (Nat.two_pow_pos _)
    _ = 2 ^ (53 + m.scale) := (Nat.pow_add ..).symm
    _ ≤ 2 ^ (53 + m.scale) * 2 ^ rest := Nat.le_mul_of_pos_right _ (Nat.two_pow_pos _)
    _ = overflow := (overflow_eq_mul hrest).symm

/-- Rounding, counted in units of the last place. -/
theorem roundsTo_mul {z : ℚ} {s k : Nat} (hlt : z < 2 ^ 53) (hfull : s = 0 ∨ 2 ^ 52 ≤ z)
    (hle : z ≤ k + 1 / 2) (hge : (k : ℚ) ≤ z + 1 / 2)
    (heven : z = k + 1 / 2 ∨ z + 1 / 2 = k → k % 2 = 0) : RoundsTo (z * 2 ^ s) s k := by
  have hdiv : z * 2 ^ s / 2 ^ s = z := mul_div_cancel_right₀ z (by positivity)
  refine ⟨?_, ?_, by rwa [hdiv], by rwa [hdiv], by rwa [hdiv]⟩
  · rw [pow_add]
    gcongr
  · refine hfull.imp_right fun h => ?_
    rw [pow_add]
    gcongr

theorem roundsTo_units (m : Magnitude) : RoundsTo m.units m.scale m.mantissa := by
  have hunits : (m.units : ℚ) = m.mantissa * 2 ^ m.scale := by exact_mod_cast rfl
  rw [hunits]
  refine roundsTo_mul ?_ ?_ (by linarith) (by linarith) ?_
  · exact_mod_cast m.mantissa_lt
  · exact m.normal.imp_right fun h => by exact_mod_cast h
  · rintro (h | h) <;> linarith

theorem ext_units {m n : Magnitude} (h : m.units = n.units) : m = n := by
  have hscale : m.scale = n.scale := by
    have hm := m.roundsTo_units
    have hn := n.roundsTo_units
    rw [h] at hm
    exact Nat.le_antisymm (hm.scale_le hn (le_refl _)) (hn.scale_le hm (le_refl _))
  have hmantissa : m.mantissa = n.mantissa := by
    rw [units, units, hscale] at h
    exact Nat.eq_of_mul_eq_mul_right (Nat.two_pow_pos _) h
  cases m
  cases n
  cases hscale
  cases hmantissa
  rfl

/-! ### The nearest magnitude -/

theorem lt_pow_excess (q : Nat) : q < 2 ^ (53 + excess q) := by
  rcases Nat.eq_zero_or_pos q with rfl | hq
  · exact Nat.two_pow_pos _
  · refine Nat.lt_of_lt_of_le Nat.lt_log2_self (Nat.pow_le_pow_right (by decide) ?_)
    unfold excess
    omega

theorem pow_excess_le {q : Nat} (h : excess q ≠ 0) : 2 ^ (52 + excess q) ≤ q := by
  have hlog : 52 + excess q = q.log2 := by
    unfold excess at h ⊢
    omega
  rw [hlog]
  refine Nat.log2_self_le fun hq => h ?_
  rw [hq]
  rfl

theorem roundsTo_roundHalfEven (num : Nat) {den : Nat} (hd : 0 < den) :
    RoundsTo (num / den) (excess (num / den))
      (roundHalfEven num (den * 2 ^ excess (num / den))) := by
  have hd' : (0 : ℚ) < den := by exact_mod_cast hd
  have hpos : 0 < den * 2 ^ excess (num / den) := Nat.mul_pos hd (Nat.two_pow_pos _)
  have hdiv : (num : ℚ) / den / 2 ^ excess (num / den) =
      num / ((den * 2 ^ excess (num / den) : Nat) : ℚ) := by
    push_cast
    rw [div_div]
  refine ⟨?_, ?_, ?_, ?_, ?_⟩
  · rw [div_lt_iff₀ hd']
    have h := (Nat.div_lt_iff_lt_mul hd).mp (lt_pow_excess (num / den))
    exact_mod_cast h
  · rcases Nat.eq_zero_or_pos (excess (num / den)) with h | h
    · exact .inl h
    · right
      rw [le_div_iff₀ hd']
      have h' := (Nat.le_div_iff_mul_le hd).mp (pow_excess_le h.ne')
      exact_mod_cast h'
  · rw [hdiv]
    exact le_roundHalfEven_add_half hpos
  · rw [hdiv]
    exact roundHalfEven_le_add_half hpos
  · rw [hdiv]
    intro h
    refine roundHalfEven_even hpos ?_
    rw [mul_div_assoc]
    rcases h with h | h
    · left
      linarith
    · right
      linarith

theorem overflow_le {x : ℚ} {s k : Nat} (h : RoundsTo x s k) (hs : 2046 ≤ s) :
    overflow ≤ k * 2 ^ s := by
  obtain ⟨e, he, hes⟩ : ∃ e, 52 + e = 2098 ∧ e ≤ s := ⟨2046, by decide, hs⟩
  calc overflow = 2 ^ (52 : Nat) * 2 ^ e := overflow_eq_mul he
    _ ≤ k * 2 ^ s := Nat.mul_le_mul (h.full_le (by omega)) (Nat.pow_le_pow_right (by decide) hes)

/-- Where the nearest magnitude is, if there is one. -/
theorem nearest_spec (num : Nat) {den : Nat} (hd : 0 < den) :
    ∃ s k, RoundsTo (num / den) s k ∧
      ((∃ m, nearest num den = some m ∧ m.units = k * 2 ^ s) ∨
        nearest num den = none ∧ overflow ≤ k * 2 ^ s) := by
  have hr := roundsTo_roundHalfEven num hd
  refine ⟨_, _, hr, ?_⟩
  unfold nearest
  dsimp only
  split
  · split
    · exact .inl ⟨_, rfl, rfl⟩
    · next hk =>
      have hk : roundHalfEven num (den * 2 ^ excess (num / den)) = 2 ^ (53 : Nat) :=
        Nat.le_antisymm hr.le_full (Nat.le_of_not_lt hk)
      have hcarry : 2 ^ (52 : Nat) * 2 ^ (excess (num / den) + 1) =
          roundHalfEven num (den * 2 ^ excess (num / den)) * 2 ^ excess (num / den) := by
        rw [hk, ← Nat.pow_add, ← Nat.pow_add]
        congr 1
        omega
      split
      · exact .inl ⟨_, rfl, hcarry⟩
      · next hs _ hs' =>
        have hs'' : excess (num / den) + 1 = 2046 := by omega
        refine .inr ⟨rfl, Nat.le_of_eq ?_⟩
        rw [← hcarry]
        exact overflow_eq_mul (by omega)
  · exact .inr ⟨rfl, overflow_le hr (by omega)⟩

theorem nearest_eq_some_iff {num den : Nat} (hd : 0 < den) {m : Magnitude} {s k : Nat}
    (h : RoundsTo (num / den) s k) : nearest num den = some m ↔ m.units = k * 2 ^ s := by
  obtain ⟨t, l, hr, hn⟩ := nearest_spec num hd
  rw [h.units_eq hr]
  rcases hn with ⟨n, hn, hu⟩ | ⟨hn, hu⟩
  · rw [hn, Option.some.injEq, ← hu]
    exact ⟨fun e => e ▸ rfl, fun e => (ext_units e).symm⟩
  · rw [hn]
    have := m.units_lt
    exact ⟨nofun, fun e => absurd e (by omega)⟩

theorem nearest_eq_none {num den : Nat} (hd : 0 < den) (h : (overflow : ℚ) ≤ num / den) :
    nearest num den = none := by
  obtain ⟨s, k, hr, ⟨m, -, hu⟩ | ⟨hn, -⟩⟩ := nearest_spec num hd
  · have hs : 2046 ≤ s := by
      by_contra hs
      obtain ⟨a, ha⟩ : ∃ a, 53 + s + a = 2098 := ⟨2045 - s, by omega⟩
      have hle : 2 ^ (53 + s) ≤ overflow := by
        rw [overflow_eq_mul ha]
        exact Nat.le_mul_of_pos_right _ (Nat.two_pow_pos _)
      have hle' : (2 : ℚ) ^ (53 + s) ≤ overflow := by exact_mod_cast hle
      linarith [hr.lt]
    have := overflow_le hr hs
    have := m.units_lt
    omega
  · exact hn

theorem nearest_self (m : Magnitude) {num den : Nat} (hd : 0 < den)
    (h : (num : ℚ) / den = m.units) : nearest num den = some m := by
  have hr := m.roundsTo_units
  rw [← h] at hr
  exact (nearest_eq_some_iff hd hr).mpr rfl

/-- Only the exact quotient matters. -/
theorem nearest_congr {num den num' den' : Nat} (hd : 0 < den) (hd' : 0 < den')
    (h : (num : ℚ) / den = num' / den') : nearest num den = nearest num' den' := by
  obtain ⟨s, k, hr, -⟩ := nearest_spec num hd
  have hr' := hr
  rw [h] at hr'
  ext m
  rw [nearest_eq_some_iff hd hr, nearest_eq_some_iff hd' hr']

/-- Rounding keeps order, and what is below a number that does not overflow does not either. -/
theorem nearest_mono {num den num' den' : Nat} (hd : 0 < den) (hd' : 0 < den') {n : Magnitude}
    (h : (num : ℚ) / den ≤ num' / den') (hn : nearest num' den' = some n) :
    ∃ m, nearest num den = some m ∧ m.units ≤ n.units := by
  obtain ⟨s, k, hr, hm⟩ := nearest_spec num hd
  obtain ⟨t, l, hr', -⟩ := nearest_spec num' hd'
  have hle := hr.units_le hr' h
  have hu := (nearest_eq_some_iff hd' hr').mp hn
  rcases hm with ⟨m, hm, hmu⟩ | ⟨-, hover⟩
  · exact ⟨m, hm, by omega⟩
  · have := n.units_lt
    omega

theorem lt_two_mul_of_nearest {num den : Nat} (hd : 0 < den) {m : Magnitude}
    (h : nearest num den = some m) (hm : 0 < m.units) : (num : ℚ) / den < 2 * m.units := by
  obtain ⟨s, k, hr, -⟩ := nearest_spec num hd
  have hu := (nearest_eq_some_iff hd hr).mp h
  have hp : (0 : ℚ) < 2 ^ s := by positivity
  have hk : (1 : ℚ) ≤ k := by
    have : 0 < k := Nat.pos_of_ne_zero fun hz => by simp [hz] at hu; omega
    exact_mod_cast this
  have hle := hr.le
  rw [div_le_iff₀ hp] at hle
  have hunits : (m.units : ℚ) = k * 2 ^ s := by
    rw [hu]
    push_cast
    rfl
  calc (num : ℚ) / den ≤ (k + 1 / 2) * 2 ^ s := hle
    _ < 2 * k * 2 ^ s := by
        refine mul_lt_mul_of_pos_right ?_ hp
        linarith
    _ = 2 * m.units := by rw [hunits, mul_assoc]

/-- A quotient closer to a magnitude than one part in `2 · 10 ^ 16` is rounded to it. -/
theorem roundsTo_of_close (m : Magnitude) {x : ℚ} (h : 2 * 10 ^ 16 * |x - m.units| ≤ m.units) :
    ∃ s k, RoundsTo x s k ∧ m.units = k * 2 ^ s := by
  obtain ⟨hlo, hhi⟩ := abs_le.mp ((le_div_iff₀' (by norm_num)).mpr h)
  have hp : (0 : ℚ) < 2 ^ m.scale := by positivity
  have hunits : (m.units : ℚ) = m.mantissa * 2 ^ m.scale := by exact_mod_cast rfl
  have hk : (m.mantissa : ℚ) + 1 ≤ 2 ^ 53 := by exact_mod_cast m.mantissa_lt
  obtain ⟨z, rfl⟩ : ∃ z, x = z * 2 ^ m.scale := ⟨x / 2 ^ m.scale, by field_simp⟩
  rw [hunits] at hlo hhi
  have hlo' : (m.mantissa : ℚ) - m.mantissa / (2 * 10 ^ 16) ≤ z :=
    le_of_mul_le_mul_right (by linarith) hp
  have hhi' : z ≤ m.mantissa + m.mantissa / (2 * 10 ^ 16) :=
    le_of_mul_le_mul_right (by linarith) hp
  by_cases hfull : m.scale = 0 ∨ 2 ^ 52 ≤ z
  · refine ⟨m.scale, m.mantissa, roundsTo_mul (by linarith) hfull (by linarith) (by linarith) ?_, rfl⟩
    rintro (e | e) <;> linarith
  · -- just below a power of two the mantissa is taken one place further
    obtain ⟨hscale, hz⟩ := not_or.mp hfull
    have hmantissa : m.mantissa = 2 ^ (52 : Nat) := by
      have hlt : (m.mantissa : ℚ) < 2 ^ 52 + 1 := by linarith
      have hle : m.mantissa < 2 ^ (52 : Nat) + 1 := by exact_mod_cast hlt
      have hge := m.normal.resolve_left hscale
      omega
    have hcast : (m.mantissa : ℚ) = 2 ^ 52 := by exact_mod_cast hmantissa
    obtain ⟨s, hs⟩ := Nat.exists_eq_succ_of_ne_zero hscale
    have hz2 : z * 2 ^ m.scale = 2 * z * 2 ^ s := by
      rw [hs, pow_succ]
      ring
    refine ⟨s, 2 ^ (53 : Nat), ?_, ?_⟩
    · rw [hz2]
      refine roundsTo_mul (by linarith) (.inr (by linarith)) ?_ ?_ fun _ => by decide
      · push_cast
        linarith
      · push_cast
        linarith
    · rw [units, hmantissa, hs, ← Nat.pow_add, ← Nat.pow_add]
      congr 1
      omega

theorem nearest_of_close (m : Magnitude) {num den : Nat} (hd : 0 < den)
    (h : 2 * 10 ^ 16 * |(num : ℚ) / den - m.units| ≤ m.units) : nearest num den = some m := by
  obtain ⟨s, k, hr, hu⟩ := m.roundsTo_of_close h
  exact (nearest_eq_some_iff hd hr).mpr hu

end Magnitude

end Markup
