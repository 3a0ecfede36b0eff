import Markup.Proofs.Json.Number
import Markup.Proofs.Value.Normal
import Markup.Proofs.Value.Spelling

/-!
# Numbers read back from JSON text

The text of a number is read as a number again, but not always as the same one: the reader holds a
decimal of at most 64 bits of digits (`Magnitude.kept`) and scales it in steps. What comes out is
`Magnitude.reread`. The reader always gets there (`scaled?_kept`, `value_jsonToken`), and it gets back
to the number itself where the text is short: `Magnitude.Brief`, `reread_of_brief`.
-/

namespace Markup

open Json

namespace Magnitude

variable {m : Magnitude}

/-- The decimal that a reader holds of the text of a magnitude: the shortest one, but a whole number
written in full loses the digits that 64 bits do not hold. -/
def kept (m : Magnitude) : Decimal :=
  if m.isZero then ⟨0, 0⟩
  else if m.wantsExponent then m.shortest .up
  else held (m.shortest .up).plainLiteral

/-- The magnitude that a reader makes of the text of another. -/
def reread (m : Magnitude) : Magnitude := m.kept.scaled?.getD m

theorem reread_zero : reread zero = zero := by decide +kernel

theorem lt_size_of_le {n : Nat} (h : n ≤ 10 ^ (17 : Nat)) : n < UInt64.size :=
  h.trans_lt (by decide)

section nonzero

variable (h : m.isZero = false)
include h

theorem kept_of_wantsExponent (hw : m.wantsExponent = true) : m.kept = m.shortest .up := by
  rw [kept, h, if_neg Bool.false_ne_true, if_pos hw]

theorem kept_of_plain (hw : ¬ m.wantsExponent = true) : m.kept = held (m.shortest .up).plainLiteral := by
  rw [kept, h, if_neg Bool.false_ne_true, if_neg hw]

/-- With a fraction, nothing is lost. -/
theorem kept_of_fraction (he : (m.shortest .up).exponent < 0) : m.kept = m.shortest .up := by
  by_cases hw : m.wantsExponent = true
  · exact kept_of_wantsExponent h hw
  · have hdigits := lt_size_of_le (shortest_digits_le .up h)
    rw [kept_of_plain h hw]
    exact held_of_fraction he hdigits

/-- A whole number is held as far as its digits fit. -/
theorem kept_of_whole (hw : ¬ m.wantsExponent = true) (he : 0 ≤ (m.shortest .up).exponent) :
    m.kept = wholeDigits (Decimal.digitChars
      ((m.shortest .up).digits * 10 ^ (m.shortest .up).exponent.toNat)) := by
  rw [kept_of_plain h hw, held_of_whole he (shortest_digits_pos .up h)]

theorem leading_lt_of_plain (hw : ¬ m.wantsExponent = true) : (m.shortest .up).leading < 21 := by
  rw [wantsExponent_iff] at hw
  exact not_le.mp fun hle => hw (.inl ((le_leading_iff .up h (Int.le_refl 21)).mp hle))

theorem scaled?_kept_isSome : ∃ k, m.kept.scaled? = some k := by
  have hpos := shortest_digits_pos .up h
  rcases lt_or_ge (m.shortest .up).exponent 0 with hneg | hge
  · rw [kept_of_fraction h hneg]
    exact Decimal.scaled?_isSome_of_neg hneg (shortest_digits_le .up h)
  · by_cases hw : m.wantsExponent = true
    · rw [kept_of_wantsExponent h hw]
      exact Decimal.scaled?_isSome_of_le_top hpos (shortest_digits_le .up h) (value_shortest_le_top h)
    · rw [kept_of_whole h hw hge]
      have hlen := length_digitChars_whole hge hpos
      have hlead := leading_lt_of_plain h hw
      obtain ⟨e, he, hle⟩ := wholeDigits_exponent (Decimal.digitChars
        ((m.shortest .up).digits * 10 ^ (m.shortest .up).exponent.toNat))
      exact Decimal.scaled?_isSome_of_small he (by omega) (wholeDigits_digits_lt _)

end nonzero

/-- The reader always gets to a magnitude. -/
theorem scaled?_kept (m : Magnitude) : m.kept.scaled? = some m.reread := by
  have hsome : ∃ k, m.kept.scaled? = some k := by
    cases h : m.isZero with
    | false => exact scaled?_kept_isSome h
    | true =>
      rw [kept, if_pos h]
      exact ⟨zero, by decide +kernel⟩
  obtain ⟨k, hk⟩ := hsome
  rw [reread, hk, Option.getD_some]

/-! ### Numbers that come back -/

/-- A whole number below `2 ^ 64` comes back. -/
theorem reread_of_whole (h : m.isZero = false) (he : 0 ≤ (m.shortest .up).exponent)
    (hfits : (m.shortest .up).digits * 10 ^ (m.shortest .up).exponent.toNat < UInt64.size) :
    m.reread = m := by
  have hpos := shortest_digits_pos .up h
  have hw : ¬ m.wantsExponent = true := by
    have hlen := length_digitChars_whole he hpos
    have hlong : (Decimal.digitChars
        ((m.shortest .up).digits * 10 ^ (m.shortest .up).exponent.toNat)).length ≤ 20 :=
      (Nat.length_toDigits_le_iff (by decide) (by decide)).mpr (hfits.trans (by decide))
    have h1 := Decimal.length_digitChars_pos
      ((m.shortest .up).digits * 10 ^ (m.shortest .up).exponent.toNat)
    rw [wantsExponent_iff, ← le_leading_iff .up h (by decide), ← le_leading_iff .up h (by decide)]
    omega
  have hscaled := m.scaled?_kept
  rw [kept_of_whole h hw he, wholeDigits_of_fits (by rwa [Literal.digitsValue_digitChars]),
    Literal.digitsValue_digitChars, Decimal.scaled?_of_exponent_zero rfl] at hscaled
  have hvalue : (⟨(m.shortest .up).digits * 10 ^ (m.shortest .up).exponent.toNat, 0⟩ : Decimal).value =
      (m.shortest .up).value := by
    rw [value_of_exponent_nonneg he, Decimal.value, zpow_zero, mul_one]
  rw [Decimal.magnitude?_congr hvalue, magnitude?_shortest .up h, Option.some.injEq] at hscaled
  exact hscaled.symm

/-- A number whose digits and power of ten are exact comes back. -/
theorem reread_of_exact (h : m.isZero = false)
    (hform : (m.shortest .up).exponent < 0 ∨ m.wantsExponent = true)
    (hdigits : (m.shortest .up).digits ≤ 2 ^ (53 : Nat)) (hlow : -22 ≤ (m.shortest .up).exponent)
    (hhigh : (m.shortest .up).exponent ≤ 22) : m.reread = m := by
  have hkept : m.kept = m.shortest .up := hform.elim (kept_of_fraction h) (kept_of_wantsExponent h)
  have hscaled := m.scaled?_kept
  rw [hkept, Decimal.scaled?_of_exact (magnitude?_shortest .up h) hdigits hlow hhigh] at hscaled
  exact (Option.some.inj hscaled).symm

/-- The text of the magnitude is so short that nothing is rounded on the way: a whole number below
`2 ^ 64`, or one with a fraction or an exponent whose digits and power of ten are exact. -/
def Brief (m : Magnitude) : Prop :=
  (m.isIntegral = true ∧ m.units < 2 ^ (64 : Nat) * unit) ∨
  (((m.shortest .up).exponent < 0 ∨ m.wantsExponent = true) ∧
    (m.shortest .up).digits ≤ 2 ^ (53 : Nat) ∧ (m.shortest .up).exponent.natAbs ≤ 22)

instance (m : Magnitude) : Decidable m.Brief := inferInstanceAs (Decidable (_ ∨ _))

theorem reread_of_brief (h : m.Brief) : m.reread = m := by
  cases hz : m.isZero with
  | true => rw [isZero_iff.mp hz, reread_zero]
  | false =>
    rcases h with ⟨hint, hlt⟩ | ⟨hform, hdigits, hexp⟩
    · have hwhole := (Nat.div_mul_cancel (Nat.dvd_of_mod_eq_zero (beq_iff_eq.mp hint))).symm
      have hexp := exponent_nonneg_of_whole .up hz hwhole
      have hfits := lt_pow_of_reads_whole (by decide) (by decide) (magnitude?_shortest .up hz) hexp hlt
      exact reread_of_whole hz hexp hfits
    · exact reread_of_exact hz hform hdigits (by omega) (by omega)

/-! ### The exponent of a text is small -/

theorem leading_lt (h : m.isZero = false) : m.leading < 1024 := by
  refine Decimal.exponent_lt_of_zpow (pow_leading_le h) ?_
  obtain ⟨a, b, ha, hb, hab⟩ : ∃ a b, a = 1024 ∧ b = 1074 ∧ a + b = 2098 := ⟨_, _, rfl, rfl, rfl⟩
  have hlt : (m.units : ℚ) < 2 ^ a * unit := by
    have := m.units_lt
    rw [overflow_eq_mul hab, ← unit_eq hb] at this
    exact_mod_cast this
  have htwo : (2 : ℚ) ^ a ≤ 10 ^ a := pow_le_pow_left₀ (by norm_num) (by norm_num) a
  have hten : (10 : ℚ) ^ (1024 : Int) = 10 ^ a := by
    rw [ha, ← zpow_natCast]
    rfl
  rw [hten, value, div_lt_iff₀ unit_pos]
  exact hlt.trans_le (mul_le_mul_of_nonneg_right htwo unit_pos.le)

theorem le_leading (m : Magnitude) : -400 ≤ m.leading := by
  have hlen := Decimal.length_digitChars_pos (m.units * 10 ^ (400 : Nat) / unit)
  unfold leading
  omega

theorem natAbs_leading_shortest_le (h : m.isZero = false) :
    (m.shortest .up).leading.natAbs ≤ maxExponent := by
  obtain ⟨i, hi, hexp, -, -⟩ := shortest_spec .up h
  have hdigits := shortest_digits_le .up h
  have hlt := leading_lt h
  have hle := m.le_leading
  have hlong : (Decimal.digitChars (m.shortest .up).digits).length ≤ 18 :=
    (Nat.length_toDigits_le_iff (by decide) (by decide)).mpr (hdigits.trans_lt (by decide))
  have hlen := Decimal.length_digitChars_pos (m.shortest .up).digits
  unfold Decimal.leading maxExponent
  omega

end Magnitude

/-! ### Reading the text of a number -/

namespace Json

open Value (isSpelling)

variable {s : Bool} {m k : Magnitude} {d : Decimal} {rest : List Char}

theorem endsRun_of_isSpelling {p : Char → Bool} (hcomma : p ',' = false) (hbracket : p ']' = false)
    (hbrace : p '}' = false) (hrest : EndsRun isSpelling rest) : EndsRun p rest := by
  intro c hc
  have hend : c = ',' ∨ c = ']' ∨ c = '}' := by
    have := hrest c hc
    simp only [isSpelling, Bool.and_eq_false_iff, decide_eq_false_iff_not, not_not] at this
    tauto
  rcases hend with rfl | rfl | rfl
  · exact hcomma
  · exact hbracket
  · exact hbrace

theorem floatNumber_of_scaled (h : d.scaled? = some k) :
    floatNumber s d rest = .ok (float (.finite s k), rest) := by
  rw [floatNumber, h]

/-- A whole number is read as the magnitude it is scaled to, be it an integer or not. -/
theorem wholeNumber_of_scaled (h : d.scaled? = some k) (hpos : d.exponent = 0 → 0 < d.digits) :
    ∃ j, wholeNumber s d rest = .ok (j, rest) ∧ Value.ofJson j = .number (.finite s k) := by
  unfold wholeNumber
  split
  · exact ⟨_, floatNumber_of_scaled h, rfl⟩
  · next he =>
    have hpos := hpos (not_not.mp he)
    have hread : (⟨d.digits, 0⟩ : Decimal).magnitude? = some k := by
      have hd : (⟨d.digits, 0⟩ : Decimal) = d := Decimal.ext rfl (not_not.mp he).symm
      rw [hd, ← Decimal.scaled?_of_exponent_zero (not_not.mp he), h]
    cases s with
    | false => exact ⟨_, rfl, congrArg Value.number (Number.ofInt_signed (s := false) hpos hread)⟩
    | true =>
      rw [if_pos rfl]
      split
      · exact ⟨_, rfl, congrArg Value.number (Number.ofInt_signed (s := true) hpos hread)⟩
      · exact ⟨_, floatNumber_of_scaled h, rfl⟩

section token

variable (hpos : 0 < d.digits) (hrest : EndsRun isSpelling rest)
include hpos hrest

/-- A decimal written with an exponent is held as it is. -/
theorem number_scientific_of_scaled (hfits : d.digits < UInt64.size)
    (hlead : d.leading.natAbs ≤ maxExponent) (h : d.scaled? = some k) :
    number s (d.scientific ++ rest) = .ok (float (.finite s k), rest) := by
  have hdecimal := d.decimal_scientificLiteral
  have hheld : held d.scientificLiteral = ⟨d.digits, d.exponent - d.leading⟩ := by
    rw [held_of_fits (by rwa [hdecimal]), hdecimal]
    rfl
  have hback : (⟨d.digits, d.exponent - d.leading + d.leading⟩ : Decimal) = d :=
    Decimal.ext rfl (Int.sub_add_cancel ..)
  rw [Decimal.scientific_eq, List.append_assoc, List.cons_append,
    number_scientific (Decimal.proper_scientificLiteral hpos),
    exponentPart_chars hlead (endsRun_of_isSpelling rfl rfl rfl hrest), hheld, hback]
  exact floatNumber_of_scaled h

theorem number_plain_of_scaled (h : (held d.plainLiteral).scaled? = some k) :
    ∃ j, number s (d.plain ++ rest) = .ok (j, rest) ∧ Value.ofJson j = .number (.finite s k) := by
  have hpoint : rest.head? ≠ some '.' := fun hp => Bool.false_ne_true (hrest '.' hp).symm
  rw [Decimal.plain_eq, number_plain (Decimal.proper_plainLiteral hpos)
    (endsRun_of_isSpelling rfl rfl rfl hrest) hpoint (endsRun_of_isSpelling rfl rfl rfl hrest)]
  split
  · next hplaces =>
    rw [held_of_no_places hplaces] at h
    refine wholeNumber_of_scaled h fun he => ?_
    have hdigits := congrArg Decimal.digits d.decimal_plainLiteral
    have hall : d.plainLiteral.decimal.digits = Literal.digitsValue d.plainLiteral.digits := by
      rw [Literal.decimal, hplaces, List.append_nil]
    rw [wholeDigits_all he, ← hall, hdigits]
    exact Nat.mul_pos hpos (Nat.pow_pos (by decide))
  · exact ⟨_, floatNumber_of_scaled h, rfl⟩

end token

/-- The characters of a magnitude above zero. -/
theorem number_shortest (h : m.isZero = false) (hrest : EndsRun isSpelling rest) :
    ∃ j, number s ((if m.wantsExponent then (m.shortest .up).scientific else (m.shortest .up).plain) ++
        rest) = .ok (j, rest) ∧ Value.ofJson j = .number (.finite s m.reread) := by
  have hpos := m.shortest_digits_pos .up h
  have hscaled := m.scaled?_kept
  split
  · next hw =>
    rw [m.kept_of_wantsExponent h hw] at hscaled
    have hfits := Magnitude.lt_size_of_le (m.shortest_digits_le .up h)
    exact ⟨_, number_scientific_of_scaled hpos hrest hfits (m.natAbs_leading_shortest_le h) hscaled, rfl⟩
  · next hw =>
    rw [m.kept_of_plain h hw] at hscaled
    exact number_plain_of_scaled hpos hrest hscaled

/-! ### A number as a value -/

variable {fuel room : Nat} {c : Char} {cs : List Char}

theorem skipBlank_cons (h : isBlank c = false) : skipBlank (c :: cs) = c :: cs := by
  rw [skipBlank, List.dropWhile_cons_of_neg (by simp [h])]

theorem isDigit_ne {d : Char} (hc : c.isDigit) (hd : d.isDigit = false) : c ≠ d := by
  rintro rfl
  rw [hd] at hc
  cases hc

theorem isBlank_of_isDigit (hc : c.isDigit) : isBlank c = false := by
  have hne {d : Char} (hd : d.isDigit = false) := isDigit_ne hc hd
  simp [isBlank, hne]

theorem value_digit (hc : c.isDigit) : value (fuel + 1) room (c :: cs) = number false (c :: cs) := by
  rw [value, skipBlank_cons (isBlank_of_isDigit hc)]
  dsimp only
  rw [if_neg (isDigit_ne hc rfl), if_neg (isDigit_ne hc rfl), if_neg (isDigit_ne hc rfl),
    if_neg (isDigit_ne hc rfl), if_pos hc]

theorem value_minus : value (fuel + 1) room ('-' :: cs) = number true cs := by
  rw [value, skipBlank_cons rfl]
  rfl

theorem value_null : value (fuel + 1) room ("null".toList ++ cs) = .ok (null, cs) := by
  show value (fuel + 1) room ('n' :: 'u' :: 'l' :: 'l' :: cs) = _
  rw [value, skipBlank_cons rfl]
  rfl

theorem value_signed {body : List Char} (hbody : ∃ c cs, body = c :: cs ∧ c.isDigit) :
    value (fuel + 1) room ((Number.signed s body).toList ++ cs) = number s (body ++ cs) := by
  obtain ⟨c, ds, rfl, hc⟩ := hbody
  cases s with
  | false => simp [Number.signed, value_digit hc]
  | true => simp [Number.signed, value_minus]

end Json

namespace Number

/-- The number that a reader makes of the text of another. -/
def reread : Number → Number
  | finite s m => finite s m.reread
  | x => x

/-- The text of the number is so short that it is read back as the number itself. -/
def Brief : Number → Prop
  | finite _ m => m.Brief
  | _ => True

instance : (x : Number) → Decidable x.Brief
  | finite _ m => inferInstanceAs (Decidable m.Brief)
  | nan | infinite _ => inferInstanceAs (Decidable True)

theorem reread_of_brief {x : Number} (h : x.Brief) : x.reread = x := by
  cases x with
  | nan => rfl
  | infinite s => rfl
  | finite s m => rw [reread, m.reread_of_brief h]

end Number

namespace Json

open Value (isSpelling)

variable {fuel room : Nat} {rest : List Char}

theorem exists_digit_unsigned {l : Literal} (h : l.Proper) :
    ∃ c cs, l.unsigned = c :: cs ∧ c.isDigit := by
  obtain ⟨c, cs, hcs⟩ := List.exists_cons_of_ne_nil h.digits_ne_nil
  exact ⟨c, _, by rw [Literal.unsigned, hcs]; rfl, h.isDigit c (hcs ▸ List.mem_cons_self)⟩

theorem value_zero (hrest : EndsRun isSpelling rest) :
    value (fuel + 1) room ('0' :: rest) = .ok (integer 0, rest) := by
  rw [value_digit rfl]
  cases rest with
  | nil => rfl
  | cons c rest =>
    have hdigit := endsRun_of_isSpelling (p := Char.isDigit) rfl rfl rfl hrest c rfl
    have hletter := endsRun_of_isSpelling (p := isExponentLetter) rfl rfl rfl hrest c rfl
    have hpoint : c ≠ '.' := by
      rintro rfl
      exact Bool.false_ne_true (hrest '.' rfl).symm
    rw [number, hdigit, if_neg Bool.false_ne_true, afterDigits, if_neg hpoint, hletter,
      if_neg Bool.false_ne_true]
    rfl

/-- The text of a number is read as its normal form, read back. -/
theorem value_jsonToken (x : Number) (hrest : EndsRun isSpelling rest) :
    ∃ j, value (fuel + 1) room (x.jsonToken.toList ++ rest) = .ok (j, rest) ∧
      Value.ofJson j = (Value.ofPlain x).mapNumbers Number.reread := by
  cases x with
  | nan => exact ⟨null, value_null, rfl⟩
  | infinite s => exact ⟨null, value_null, rfl⟩
  | finite s m =>
    cases h : m.isZero with
    | true =>
      refine ⟨integer 0, ?_, ?_⟩
      · rw [Number.jsonToken_of_isZero h]
        exact value_zero hrest
      · rw [Value.ofPlain_zero h, Value.mapNumbers, Number.zero, Number.reread, Magnitude.reread_zero]
        rfl
    | false =>
      have hpos := m.shortest_digits_pos .up h
      obtain ⟨j, hread, hvalue⟩ := number_shortest (s := s) h hrest
      refine ⟨j, ?_, ?_⟩
      · rw [Number.jsonToken_of_nonzero h, value_signed, hread]
        split
        · rw [Decimal.scientific_eq]
          obtain ⟨c, cs, hcs, hc⟩ := exists_digit_unsigned (Decimal.proper_scientificLiteral hpos)
          exact ⟨c, _, by rw [hcs]; rfl, hc⟩
        · rw [Decimal.plain_eq]
          exact exists_digit_unsigned (Decimal.proper_plainLiteral hpos)
      · rw [hvalue, Value.ofPlain_nonzero h, Value.mapNumbers, Number.reread]

end Json

end Markup
