import Markup.Value.Json
import Markup.Proofs.Number.Whole

/-!
# Two spellings of a number

A number has one spelling in the text embedded in markup and another as serialized data:
`Number.jsonToken` and `Number.serialToken`. Both write the digits of the shortest decimal, but they
change to an exponent at other sizes, a floating-point token keeps a point, and a tie between two
shortest decimals is broken in other ways. `jsonToken_eq_serialToken_iff` says for which numbers the
spellings are the same: all but those that are `SpelledApart`.
-/

namespace Markup

namespace Decimal

variable {d d' : Decimal}

theorem e_not_mem_unsigned {l : Literal} (h : l.Proper) : 'e' ∉ l.unsigned := fun hm => by
  rcases Literal.mem_unsigned h hm with hc | hc <;> revert hc <;> decide

theorem e_not_mem_plain (h : 0 < d.digits) : 'e' ∉ d.plain := by
  rw [plain_eq]
  exact e_not_mem_unsigned (proper_plainLiteral h)

theorem e_mem_scientific (d : Decimal) : 'e' ∈ d.scientific := by
  rw [scientific_eq]
  exact List.mem_append_right _ List.mem_cons_self

theorem plain_ne_scientific (h : 0 < d.digits) : d.plain ≠ d'.scientific := fun heq =>
  e_not_mem_plain h (heq ▸ e_mem_scientific d')

/-- The digits of a literal give the digits of its decimal. -/
theorem decimal_digits_eq {l l' : Literal} (hl : l.Proper) (hl' : l'.Proper)
    (h : l.unsigned = l'.unsigned) : l.decimal.digits = l'.decimal.digits := by
  have hfilter := congrArg (List.filter (· ≠ '.')) h
  rw [Literal.filter_unsigned hl, Literal.filter_unsigned hl'] at hfilter
  exact congrArg Literal.digitsValue hfilter

/-- On one grid, decimals written alike are the same. -/
theorem plain_injective (h : 0 < d.digits) (h' : 0 < d'.digits) (hexp : d.exponent = d'.exponent)
    (heq : d.plain = d'.plain) : d = d' := by
  rw [plain_eq, plain_eq] at heq
  have hdigits := decimal_digits_eq (proper_plainLiteral h) (proper_plainLiteral h') heq
  rw [decimal_plainLiteral, decimal_plainLiteral, hexp] at hdigits
  exact ext (Nat.eq_of_mul_eq_mul_right (Nat.pow_pos (by decide)) hdigits) hexp

theorem scientific_injective (h : 0 < d.digits) (h' : 0 < d'.digits)
    (hexp : d.exponent = d'.exponent) (heq : d.scientific = d'.scientific) : d = d' := by
  have hl := proper_scientificLiteral h
  have hl' := proper_scientificLiteral h'
  have hrun {l : Literal} (h : l.Proper) : ∀ c ∈ l.unsigned, decide (c ≠ 'e') := fun c hc =>
    decide_eq_true fun he => e_not_mem_unsigned h (he ▸ hc)
  have hends (cs : List Char) : EndsRun (fun c => decide (c ≠ 'e')) ('e' :: cs) := endsRun_cons rfl
  rw [scientific_eq, scientific_eq] at heq
  have hunsigned := (run_inj (hrun hl) (hrun hl') (hends _) (hends _) heq).1
  have hdigits := decimal_digits_eq hl hl' hunsigned
  rw [decimal_scientificLiteral, decimal_scientificLiteral] at hdigits
  exact ext hdigits hexp

end Decimal

namespace Magnitude

variable {m : Magnitude} {d d' : Decimal}

/-! ### Sizes -/

/-- The magnitude is at least the one nearest to a decimal. -/
def AtLeast (m : Magnitude) (d : Decimal) : Prop := ∃ n, d.magnitude? = some n ∧ n.units ≤ m.units

theorem atLeast_of_value_le (h : d.value ≤ m.value) : m.AtLeast d := Decimal.magnitude?_le h

theorem AtLeast.anti (h : m.AtLeast d') (hle : d.value ≤ d'.value) : m.AtLeast d := by
  obtain ⟨n, hn, hunits⟩ := h
  obtain ⟨n', hn', hunits'⟩ := Decimal.magnitude?_mono hle hn
  exact ⟨n', hn', hunits'.trans hunits⟩

theorem atLeast_iff {n : Magnitude} (h : d.magnitude? = some n) :
    m.AtLeast d ↔ n.units ≤ m.units := by
  unfold AtLeast
  rw [h]
  refine ⟨?_, fun hle => ⟨n, rfl, hle⟩⟩
  rintro ⟨n', hn', hle⟩
  cases hn'
  exact hle

theorem atLeast_limit_iff : m.AtLeast ⟨2 ^ (53 : Nat), 0⟩ ↔ 2 ^ (53 : Nat) * unit ≤ m.units := by
  obtain ⟨n, hn⟩ := exists_units_eq_limit
  rw [atLeast_iff (magnitude?_of_units hn), hn]

theorem units_tenTo21 : tenTo21.units = 10 ^ (21 : Nat) * unit := by
  obtain ⟨b, hb⟩ : ∃ b, b = 1074 := ⟨_, rfl⟩
  have hmantissa : tenTo21.mantissa = 2 ^ (4 : Nat) * 5 ^ (21 : Nat) := rfl
  have hscale : tenTo21.scale = b + 17 := hb ▸ rfl
  rw [units, hmantissa, hscale, unit_eq hb, Nat.pow_add]
  ring

theorem magnitude?_tenTo21 : (⟨1, 21⟩ : Decimal).magnitude? = some tenTo21 := by
  refine Decimal.magnitude?_of_value_eq ?_
  rw [value_of_units units_tenTo21, value_one]
  push_cast
  rfl

/-- Powers of ten up to `10 ^ 21` do not overflow. -/
theorem exists_magnitude?_power {k : Int} (hk : k ≤ 21) :
    ∃ n, (⟨1, k⟩ : Decimal).magnitude? = some n := by
  have hle : (⟨1, k⟩ : Decimal).value ≤ (⟨1, 21⟩ : Decimal).value := by
    rw [value_one, value_one]
    exact zpow_le_zpow_right₀ (by norm_num) hk
  obtain ⟨n, hn, -⟩ := Decimal.magnitude?_mono hle magnitude?_tenTo21
  exact ⟨n, hn⟩

theorem magnitude?_tenToMinus6 : (⟨1, -6⟩ : Decimal).magnitude? = some tenToMinus6 := by
  obtain ⟨n, hn⟩ := exists_magnitude?_power (k := -6) (by decide)
  rw [tenToMinus6, hn, Option.getD_some]

theorem le_leading_iff (tie : Tie) (h : m.isZero = false) {k : Int} (hk : k ≤ 21) :
    k ≤ (m.shortest tie).leading ↔ m.AtLeast ⟨1, k⟩ := by
  obtain ⟨n, hn⟩ := exists_magnitude?_power hk
  rw [le_leading_shortest_iff tie h hn, atLeast_iff hn]

theorem wantsExponent_iff : m.wantsExponent = true ↔ m.AtLeast ⟨1, 21⟩ ∨ ¬ m.AtLeast ⟨1, -6⟩ := by
  rw [wantsExponent, Bool.or_eq_true, decide_eq_true_eq, decide_eq_true_eq,
    atLeast_iff magnitude?_tenTo21, atLeast_iff magnitude?_tenToMinus6, not_le]

/-- The sizes at which only a serialized number has an exponent or a point. -/
def InGap (m : Magnitude) : Prop :=
  m.AtLeast ⟨1, -6⟩ ∧ ¬ m.AtLeast ⟨1, -5⟩ ∨ m.AtLeast ⟨2 ^ (53 : Nat), 0⟩ ∧ ¬ m.AtLeast ⟨1, 21⟩

/-- The magnitude is spelled in two ways: for its size, or because a tie matters for it. -/
def SpelledApart (m : Magnitude) : Prop := m.InGap ∨ m.HalfWay

instance : Decidable (m.AtLeast d) :=
  match h : d.magnitude? with
  | some _ => decidable_of_iff _ (atLeast_iff h).symm
  | none => .isFalse fun ⟨_, hn, _⟩ => nomatch h ▸ hn

instance : Decidable m.InGap := inferInstanceAs (Decidable (_ ∨ _))

theorem spelledApart_iff_halfWay (h : ¬ m.InGap) : m.SpelledApart ↔ m.HalfWay :=
  or_iff_right h

theorem not_inGap (hsmall : ¬ m.AtLeast ⟨1, -6⟩ ∨ m.AtLeast ⟨1, -5⟩)
    (hlarge : ¬ m.AtLeast ⟨2 ^ (53 : Nat), 0⟩ ∨ m.AtLeast ⟨1, 21⟩) : ¬ m.InGap := by
  rintro (⟨h6, h5⟩ | ⟨h53, h21⟩)
  · exact hsmall.elim (fun h => h h6) h5
  · exact hlarge.elim (fun h => h h53) h21

theorem not_spelledApart_zero : ¬ zero.SpelledApart := by
  intro hapart
  rcases hapart with h | h
  · exact absurd h (by decide +kernel)
  · obtain ⟨d, -, -, -, hvalue, -⟩ := h
    -- a decimal above zero cannot be half-way to zero
    have hpos : (0 : ℚ) < 10 ^ d.exponent := by positivity
    have hd := d.value_nonneg
    rw [Decimal.value_next, value_zero] at hvalue
    linarith

end Magnitude

namespace Number

open Magnitude

variable {s : Bool} {m : Magnitude} {n : Nat}

/-- The number in JSON text that is embedded in markup. -/
def jsonToken (x : Number) : String := if x.isFinite then x.display else "null"

/-- The number in serialized data. -/
def serialToken (x : Number) : String := (Value.numberToJson x).write

def SpelledApart : Number → Prop
  | finite _ m => m.SpelledApart
  | _ => False

def InGap : Number → Prop
  | finite _ m => m.InGap
  | _ => False

theorem signed_inj {a b : List Char} : signed s a = signed s b ↔ a = b := by
  cases s <;> simp [signed, String.ofList_inj]

/-! ### Integers -/

theorem safeInteger?_of_whole (hn : n < 2 ^ (53 : Nat)) (hm : m.units = n * unit) :
    (finite s m).safeInteger? = some (if s then -(n : Int) else n) := by
  have hunit : 0 < unit := Nat.cast_pos.mp unit_pos
  have hmod : m.isIntegral = true := by rw [isIntegral, hm, Nat.mul_mod_left]; rfl
  have hdiv : m.units / unit = n := by rw [hm, Nat.mul_div_cancel _ hunit]
  have hle : n ≤ maxSafeInteger := Nat.le_sub_one_of_lt hn
  simp only [safeInteger?, hmod, hdiv, hle, decide_true, Bool.and_self, if_true]

theorem safeInteger?_eq_none (hm : ∀ n < 2 ^ (53 : Nat), m.units ≠ n * unit) :
    (finite s m).safeInteger? = none := by
  have hfalse : (m.isIntegral && decide (m.units / unit ≤ maxSafeInteger)) = false := by
    by_contra htrue
    obtain ⟨hmod, hle⟩ := Bool.and_eq_true_iff.mp (Bool.eq_true_of_not_eq_false htrue)
    have hlt : m.units / unit < 2 ^ (53 : Nat) :=
      Nat.lt_of_le_sub_one (Nat.two_pow_pos _) (of_decide_eq_true hle)
    refine hm _ hlt (Nat.div_mul_cancel (Nat.dvd_of_mod_eq_zero ?_)).symm
    exact beq_iff_eq.mp hmod
  simp only [safeInteger?, hfalse, Bool.false_eq_true, if_false]

theorem toString_signed (hn : 0 < n) :
    toString (if s then -(n : Int) else n) = signed s (Decimal.digitChars n) := by
  cases s with
  | false => exact Nat.toString_eq_ofList_toDigits
  | true =>
    obtain ⟨k, rfl⟩ := Nat.exists_eq_succ_of_ne_zero hn.ne'
    show "-" ++ toString (k + 1) = String.ofList ('-' :: Decimal.digitChars (k + 1))
    rw [Nat.toString_eq_ofList_toDigits, ← String.toList_inj]
    simp [Decimal.digitChars]

theorem ofInt_signed (hn : 0 < n) (hread : (⟨n, 0⟩ : Decimal).magnitude? = some m) :
    Number.ofInt (if s then -(n : Int) else n) = .finite s m := by
  cases s with
  | false => simp [Number.ofInt, ofDecimal, hread]
  | true => simp [Number.ofInt, ofDecimal, hread, hn]

/-! ### The two spellings -/

theorem jsonToken_of_isZero (h : m.isZero = true) : (finite s m).jsonToken = "0" := by
  rw [jsonToken, isFinite, if_pos rfl, display, if_pos h]

section nonzero

variable (h : m.isZero = false)
include h

theorem shortest_up_eq_even_iff : m.shortest .up = m.shortest .even ↔ ¬ m.HalfWay := by
  rw [← shortest_up_ne_even_iff h, not_ne_iff]

theorem display_of_nonzero : (finite s m).display =
    signed s (if m.wantsExponent then (m.shortest .up).scientific else (m.shortest .up).plain) := by
  rw [display, h, if_neg Bool.false_ne_true]

theorem jsonToken_of_nonzero : (finite s m).jsonToken =
    signed s (if m.wantsExponent then (m.shortest .up).scientific else (m.shortest .up).plain) := by
  rw [jsonToken, isFinite, if_pos rfl, display_of_nonzero h]

theorem jsonToken_plain (h6 : m.AtLeast ⟨1, -6⟩) (h21 : ¬ m.AtLeast ⟨1, 21⟩) :
    (finite s m).jsonToken = signed s (m.shortest .up).plain := by
  have hplain : ¬ m.wantsExponent = true := by
    rw [wantsExponent_iff]
    exact fun hw => hw.elim h21 fun hn => hn h6
  rw [jsonToken_of_nonzero h, if_neg hplain]

theorem jsonToken_scientific (hout : m.AtLeast ⟨1, 21⟩ ∨ ¬ m.AtLeast ⟨1, -6⟩) :
    (finite s m).jsonToken = signed s (m.shortest .up).scientific := by
  rw [jsonToken_of_nonzero h, if_pos (wantsExponent_iff.mpr hout)]

theorem whole_pos (hm : m.units = n * unit) : 0 < n := Nat.pos_of_ne_zero fun h0 => by
  have := units_pos h
  simp [hm, h0] at this

theorem jsonToken_of_whole (hn : n < 2 ^ (53 : Nat)) (hm : m.units = n * unit) :
    (finite s m).jsonToken = signed s (Decimal.digitChars n) := by
  have hpos := whole_pos h hm
  have h6 : m.AtLeast ⟨1, -6⟩ := atLeast_of_value_le <| by
    rw [value_of_units hm, value_one]
    exact (zpow_le_one_of_nonpos₀ (by norm_num) (by decide)).trans (by exact_mod_cast hpos)
  have h21 : ¬ m.AtLeast ⟨1, 21⟩ := by
    rw [atLeast_iff magnitude?_tenTo21, units_tenTo21, hm, not_le]
    refine Nat.mul_lt_mul_of_pos_right (hn.trans (by decide)) (Nat.cast_pos.mp unit_pos)
  rw [jsonToken_plain h h6 h21, Decimal.plain_of_exponent_nonneg (shortest_digits_pos .up h)
    (exponent_nonneg_of_whole .up h hm), shortest_of_whole .up h hn hm]

variable (hm : ∀ n < 2 ^ (53 : Nat), m.units ≠ n * unit)
include hm

omit h in
theorem serialToken_eq_floatToken : (finite s m).serialToken = (finite s m).floatToken := by
  simp only [serialToken, Value.numberToJson, safeInteger?_eq_none hm, isFinite, if_true, Json.write]

theorem serialToken_plain (h5 : m.AtLeast ⟨1, -5⟩) (h16 : ¬ m.AtLeast ⟨1, 16⟩) :
    (finite s m).serialToken = signed s (withPoint (m.shortest .even)) := by
  have hlow := (le_leading_iff .even h (by decide)).mpr h5
  have hhigh := not_le.mp fun hle => h16 ((le_leading_iff .even h (by decide)).mp hle)
  simp only [serialToken_eq_floatToken hm, floatToken, h, hlow, hhigh, decide_true, Bool.and_self,
    if_true, if_false, Bool.false_eq_true]

theorem serialToken_scientific (hout : ¬ m.AtLeast ⟨1, -5⟩ ∨ m.AtLeast ⟨1, 16⟩) :
    (finite s m).serialToken = signed s (m.shortest .even).scientific := by
  have hneither : (decide (-5 ≤ (m.shortest .even).leading) &&
      decide ((m.shortest .even).leading < 16)) = false := by
    rw [Bool.and_eq_false_iff, decide_eq_false_iff_not, decide_eq_false_iff_not, not_lt,
      le_leading_iff .even h (by decide), le_leading_iff .even h (by decide)]
    exact hout
  simp only [serialToken_eq_floatToken hm, floatToken, h, hneither, if_false, Bool.false_eq_true]

end nonzero

/-- A whole number below `2 ^ 53` is written with all its digits in both spellings. -/
theorem tokens_of_whole (h : m.isZero = false) (hn : n < 2 ^ (53 : Nat)) (hm : m.units = n * unit) :
    (finite s m).jsonToken = (finite s m).serialToken ∧ ¬ m.SpelledApart := by
  have hpos : 0 < n := whole_pos h hm
  refine ⟨?_, ?_⟩
  · have hserial : (finite s m).serialToken = toString (if s then -(n : Int) else n) := by
      simp only [serialToken, Value.numberToJson, safeInteger?_of_whole hn hm, Json.write]
    rw [hserial, toString_signed hpos, jsonToken_of_whole h hn hm]
  · rintro ((⟨-, h5⟩ | ⟨h53, -⟩) | htie)
    · refine h5 (atLeast_of_value_le ?_)
      rw [value_of_units hm, value_one]
      exact (zpow_le_one_of_nonpos₀ (by norm_num) (by decide)).trans (by exact_mod_cast hpos)
    · rw [atLeast_limit_iff, hm] at h53
      exact absurd (Nat.le_of_mul_le_mul_right h53 (Nat.cast_pos.mp unit_pos)) (Nat.not_le.mpr hn)
    · -- both shortest decimals are exact, on one grid
      refine (shortest_up_eq_even_iff h).mp ?_ htie
      have hexp := shortest_exponent_eq h
      have hup := shortest_of_whole .up h hn hm
      have heven := shortest_of_whole .even h hn hm
      rw [← hexp, ← hup] at heven
      have hdigits := Nat.eq_of_mul_eq_mul_right (Nat.pow_pos (by decide)) heven
      exact Decimal.ext hdigits.symm hexp

/-- A number below `2 ^ 53` with a fraction. -/
theorem tokens_of_fraction (h : m.isZero = false) (hlt : m.units < 2 ^ (53 : Nat) * unit)
    (hm : ∀ n < 2 ^ (53 : Nat), m.units ≠ n * unit) :
    (finite s m).jsonToken = (finite s m).serialToken ↔ ¬ m.SpelledApart := by
  have h53 : ¬ m.AtLeast ⟨2 ^ (53 : Nat), 0⟩ := atLeast_limit_iff.not.mpr (Nat.not_le.mpr hlt)
  have h16 : ¬ m.AtLeast ⟨1, 16⟩ := fun h16 => h53 (h16.anti (by norm_num [Decimal.value]))
  have h21 : ¬ m.AtLeast ⟨1, 21⟩ := fun h21 => h53 (h21.anti (by norm_num [Decimal.value]))
  have hup := shortest_digits_pos .up h
  have heven := shortest_digits_pos .even h
  have hexp := shortest_exponent_eq h
  by_cases h6 : m.AtLeast ⟨1, -6⟩
  · by_cases h5 : m.AtLeast ⟨1, -5⟩
    · -- plain in both: there is a fraction, so no point is added
      have hapart := spelledApart_iff_halfWay (not_inGap (.inr h5) (.inl h53))
      have hfraction : (m.shortest .even).isWhole = false := by
        rw [Decimal.isWhole_eq_decide, decide_eq_false_iff_not, not_le]
        exact exponent_neg_of_fraction .even h hlt hm
      rw [hapart, jsonToken_plain h h6 h21, serialToken_plain h hm h5 h16, signed_inj, withPoint,
        hfraction, if_neg Bool.false_ne_true, List.append_nil, ← shortest_up_eq_even_iff h]
      exact ⟨Decimal.plain_injective hup heven hexp, fun heq => heq ▸ rfl⟩
    · -- only the serialized one has an exponent
      rw [jsonToken_plain h h6 h21, serialToken_scientific h hm (.inl h5), signed_inj]
      exact iff_of_false (Decimal.plain_ne_scientific hup) fun hn =>
        hn (.inl (.inl ⟨h6, h5⟩))
  · have h5 : ¬ m.AtLeast ⟨1, -5⟩ := fun h5 => h6 (h5.anti (by norm_num [Decimal.value]))
    have hapart := spelledApart_iff_halfWay (not_inGap (.inl h6) (.inl h53))
    rw [hapart, jsonToken_scientific h (.inr h6), serialToken_scientific h hm (.inl h5), signed_inj,
      ← shortest_up_eq_even_iff h]
    exact ⟨Decimal.scientific_injective hup heven hexp, fun heq => heq ▸ rfl⟩

/-- A number from `2 ^ 53` on. -/
theorem tokens_of_large (h : m.isZero = false) (hle : 2 ^ (53 : Nat) * unit ≤ m.units) :
    (finite s m).jsonToken = (finite s m).serialToken ↔ ¬ m.SpelledApart := by
  have hm : ∀ n < 2 ^ (53 : Nat), m.units ≠ n * unit := fun n hn heq => by
    rw [heq] at hle
    exact absurd (Nat.le_of_mul_le_mul_right hle (Nat.cast_pos.mp unit_pos)) (Nat.not_le.mpr hn)
  have h53 : m.AtLeast ⟨2 ^ (53 : Nat), 0⟩ := atLeast_limit_iff.mpr hle
  have h5 : m.AtLeast ⟨1, -5⟩ := h53.anti (by norm_num [Decimal.value])
  have h6 : m.AtLeast ⟨1, -6⟩ := h53.anti (by norm_num [Decimal.value])
  have hup := shortest_digits_pos .up h
  have heven := shortest_digits_pos .even h
  by_cases h21 : m.AtLeast ⟨1, 21⟩
  · have h16 : m.AtLeast ⟨1, 16⟩ := h21.anti (by norm_num [Decimal.value])
    have hapart := spelledApart_iff_halfWay (not_inGap (.inr h5) (.inr h21))
    rw [hapart, jsonToken_scientific h (.inl h21), serialToken_scientific h hm (.inr h16), signed_inj,
      ← shortest_up_eq_even_iff h]
    exact ⟨Decimal.scientific_injective hup heven (shortest_exponent_eq h), fun heq => heq ▸ rfl⟩
  · -- only the serialized one has an exponent or a point
    refine iff_of_false ?_ fun hn => hn (.inl (.inr ⟨h53, h21⟩))
    obtain ⟨n, hn⟩ := exists_whole_of_large hle
    rw [jsonToken_plain h h6 h21]
    by_cases h16 : m.AtLeast ⟨1, 16⟩
    · rw [serialToken_scientific h hm (.inr h16), signed_inj]
      exact Decimal.plain_ne_scientific hup
    · rw [serialToken_plain h hm h5 h16, signed_inj]
      have hwhole (tie : Tie) : (m.shortest tie).isWhole = true := by
        rw [Decimal.isWhole_eq_decide, decide_eq_true_eq]
        exact exponent_nonneg_of_whole tie h hn
      intro heq
      have hpoint : '.' ∈ (m.shortest .up).plain := by
        rw [heq, withPoint, hwhole, if_pos rfl]
        exact List.mem_append_right _ List.mem_cons_self
      rw [Decimal.plain_eq, Literal.point_mem_unsigned (Decimal.proper_plainLiteral hup)] at hpoint
      exact hpoint (Decimal.isWhole_iff.mp (hwhole .up))

/-- The spellings are the same for all numbers but those that are spelled apart. -/
theorem jsonToken_eq_serialToken_iff (x : Number) : x.jsonToken = x.serialToken ↔ ¬ x.SpelledApart := by
  cases x with
  | nan => exact iff_of_true rfl id
  | infinite s => exact iff_of_true rfl id
  | finite s m =>
    cases h : m.isZero with
    | true =>
      rw [isZero_iff] at h
      subst h
      exact iff_of_true (by cases s <;> decide +kernel) not_spelledApart_zero
    | false =>
      show _ ↔ ¬ m.SpelledApart
      rcases Nat.lt_or_ge m.units (2 ^ (53 : Nat) * unit) with hlt | hle
      · by_cases hm : ∃ n < 2 ^ (53 : Nat), m.units = n * unit
        · obtain ⟨n, hn, hunits⟩ := hm
          have htokens := tokens_of_whole (s := s) h hn hunits
          exact iff_of_true htokens.1 htokens.2
        · exact tokens_of_fraction h hlt fun n hn heq => hm ⟨n, hn, heq⟩
      · exact tokens_of_large h hle

end Number

end Markup
