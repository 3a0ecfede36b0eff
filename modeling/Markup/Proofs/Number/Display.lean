import Markup.Proofs.Json.Grammar
import Markup.Proofs.Number.Fewest

/-!
# The text of a number

A finite number is displayed in one of two forms, by its size: `ExponentForm` from `10 ^ 21` on and
below `10 ^ -6`, else `PlainForm`. The bound below is the number nearest to `10 ^ -6`, which is itself
a little less than that and still plain (`wantsExponent_iff_value`, `not_exponentForm_tenToMinus6`).

In both forms the text is a literal with the value of a shortest decimal that is read as the number
(`exists_literal_display`), so a text belongs to one number only. `display_finite` puts this together.
-/

namespace Markup

open Json.Grammar

/-! ### The two forms -/

namespace Number

variable {s : Bool} {m n : Magnitude} {d : Decimal} {cs fraction : List Char}

/-- A number with an exponent: one digit above zero, places, and a power of ten that has a sign. -/
inductive ExponentForm : List Char → Prop where
  | mk {sign fraction power : List Char} {digit mark : Char} (hsign : sign = [] ∨ sign = ['-'])
    (hdigit : digit.isDigit) (hne : digit ≠ '0') (hfraction : Fraction fraction)
    (hmark : mark = '+' ∨ mark = '-') (hpower : Digits power) :
    ExponentForm (sign ++ digit :: (fraction ++ 'e' :: mark :: power))

/-- A number without an exponent, and the places with their point. -/
inductive PlainForm (fraction : List Char) : List Char → Prop where
  | mk {sign whole : List Char} (hsign : sign = [] ∨ sign = ['-']) (hwhole : Whole whole)
    (hfraction : Fraction fraction) : PlainForm fraction (sign ++ (whole ++ fraction))

theorem e_mem_exponentForm (h : ExponentForm cs) : 'e' ∈ cs := by
  cases h
  simp

theorem e_not_mem_digits (h : Digits cs) : 'e' ∉ cs := fun he => by
  have hdigit := h.2 _ he
  revert hdigit
  decide

theorem e_not_mem_plainForm (h : PlainForm fraction cs) : 'e' ∉ cs := by
  obtain ⟨hsign, hwhole, hfraction⟩ := h
  have hnot : 'e' ∉ fraction := by
    cases hfraction with
    | none => exact List.not_mem_nil
    | places hdigits => simpa using e_not_mem_digits hdigits
  have hwholeNot := e_not_mem_digits hwhole.1
  rcases hsign with rfl | rfl <;> simp [hnot, hwholeNot]

theorem exponentForm_scientific (h : 0 < d.digits) :
    ExponentForm (signed s d.scientific).toList := by
  have hproper := Decimal.proper_scientificLiteral h
  obtain ⟨c, ds, hds⟩ := List.exists_cons_of_ne_nil (Decimal.digitChars_ne_nil d.digits)
  have hdigits : d.scientificLiteral.digits = [c] := by
    rw [Decimal.scientificLiteral, hds]
    rfl
  have hc : c.isDigit := hproper.isDigit c (hdigits ▸ List.mem_singleton_self c)
  have hne : c ≠ '0' := by
    have hhead := Decimal.head_digitChars h
    rw [hds, List.head?_cons] at hhead
    exact fun he => hhead (congrArg some he)
  rw [toList_signed, Decimal.scientific_eq, Literal.unsigned, hdigits, List.append_assoc]
  have hsign := sign_signed s
  have hfraction := fraction_places hproper
  have hpower (n : Nat) := digits_digitChars n
  cases d.leading with
  | ofNat e => exact .mk hsign hc hne hfraction (.inl rfl) (hpower e)
  | negSucc e => exact .mk hsign hc hne hfraction (.inr rfl) (hpower (e + 1))

/-- Only a decimal with a fraction has places. -/
theorem plainForm_plain (h : 0 < d.digits) :
    ∃ fraction, PlainForm fraction (signed s d.plain).toList ∧
      (fraction = [] ↔ 0 ≤ d.exponent) := by
  have hproper := Decimal.proper_plainLiteral h
  have hwhole : d.plainLiteral.places = [] ↔ 0 ≤ d.exponent := by
    rw [← Decimal.isWhole_iff, Decimal.isWhole_eq_decide, decide_eq_true_eq]
  refine ⟨if d.plainLiteral.places = [] then [] else '.' :: d.plainLiteral.places, ?_, ?_⟩
  · rw [toList_signed, Decimal.plain_eq]
    exact .mk (sign_signed s) ⟨⟨hproper.digits_ne_nil, hproper.isDigit⟩, hproper.leading⟩
      (fraction_places hproper)
  · rw [← hwhole]
    split
    · next hnil => exact iff_of_true rfl hnil
    · next hne => exact iff_of_false (List.cons_ne_nil _ _) hne

end Number

/-! ### Sizes -/

namespace Magnitude

variable {m n : Magnitude} {d : Decimal}

theorem atLeast_tenTo21_iff : m.AtLeast ⟨1, 21⟩ ↔ 10 ^ 21 ≤ m.value := by
  have hvalue : tenTo21.value = 10 ^ 21 := by
    rw [value_of_units units_tenTo21]
    push_cast
    rfl
  have hunits : tenTo21.units ≤ m.units ↔ (tenTo21.units : ℚ) ≤ m.units := Nat.cast_le.symm
  rw [atLeast_iff magnitude?_tenTo21, hunits, units_eq_value_mul, units_eq_value_mul, hvalue,
    mul_le_mul_iff_left₀ unit_pos]

/-- A magnitude is below the one nearest to a decimal if it is below the decimal and not that one. -/
theorem not_atLeast_iff (hn : d.magnitude? = some n) :
    ¬ m.AtLeast d ↔ m.value < d.value ∧ d.magnitude? ≠ some m := by
  rw [hn, ne_eq, Option.some.injEq, atLeast_iff hn, not_le]
  constructor
  · refine fun hlt => ⟨not_le.mp fun hle => ?_, fun he => hlt.ne (he ▸ rfl)⟩
    obtain ⟨n', hn', hunits⟩ := atLeast_of_value_le hle
    rw [hn, Option.some.injEq] at hn'
    exact hlt.not_ge (hn' ▸ hunits)
  · rintro ⟨hlt, hne⟩
    exact (Decimal.le_magnitude? hlt.le hn).lt_of_ne fun he => hne (ext_units he).symm

theorem wantsExponent_iff_value : m.wantsExponent = true ↔
    10 ^ 21 ≤ m.value ∨ m.value < 10 ^ (-6 : Int) ∧ (⟨1, -6⟩ : Decimal).magnitude? ≠ some m := by
  rw [wantsExponent_iff, atLeast_tenTo21_iff, not_atLeast_iff magnitude?_tenToMinus6, value_one]

/-- The shortest decimal of a magnitude has no fraction exactly if the magnitude is whole. -/
theorem exponent_nonneg_iff (tie : Tie) (h : m.isZero = false) :
    0 ≤ (m.shortest tie).exponent ↔ ∃ n : Nat, m.value = n := by
  constructor
  · intro he
    rcases Nat.lt_or_ge m.units (2 ^ (53 : Nat) * unit) with hlt | hge
    · exact ⟨_, value_of_units (units_of_reads_whole (magnitude?_shortest tie h) he hlt).2⟩
    · obtain ⟨n, hn⟩ := exists_whole_of_large hge
      exact ⟨n, value_of_units hn⟩
  · rintro ⟨n, hn⟩
    refine exponent_nonneg_of_whole tie h (n := n) ?_
    have hunits := m.units_eq_value_mul
    rw [hn] at hunits
    exact_mod_cast hunits

end Magnitude

/-! ### The text of a number -/

namespace Number

open Magnitude

variable {s t : Bool} {m n : Magnitude}

theorem numberText_display (s : Bool) (m : Magnitude) :
    NumberText (finite s m).display.toList := by
  have htoken := numberText_jsonToken s m
  rwa [jsonToken, isFinite, if_pos rfl] at htoken

theorem exponentForm_display_iff : ExponentForm (finite s m).display.toList ↔
    m.isZero = false ∧ m.wantsExponent = true := by
  cases h : m.isZero with
  | true =>
    have hdisplay : (finite s m).display = "0" := if_pos h
    rw [hdisplay]
    refine iff_of_false (fun hform => ?_) fun h => nomatch h.1
    exact absurd (e_mem_exponentForm hform) (by decide)
  | false =>
    have hpos := m.shortest_digits_pos .up h
    rw [display_of_nonzero h]
    split
    · next hw => exact iff_of_true (exponentForm_scientific hpos) ⟨rfl, hw⟩
    · next hw =>
      obtain ⟨fraction, hplain, -⟩ := plainForm_plain hpos
      exact iff_of_false (fun hform => e_not_mem_plainForm hplain (e_mem_exponentForm hform))
        fun h => hw h.2

/-- Without an exponent, the text has places exactly if the number is not whole. -/
theorem exists_plainForm_display (h : ¬ ExponentForm (finite s m).display.toList) :
    ∃ fraction, PlainForm fraction (finite s m).display.toList ∧
      (fraction = [] ↔ ∃ n : Nat, m.value = n) := by
  cases hz : m.isZero with
  | true =>
    have hdisplay : (finite s m).display = "0" := if_pos hz
    have hvalue : m.value = (0 : Nat) := by rw [isZero_iff.mp hz, value_zero, Nat.cast_zero]
    have hwhole : Whole ['0'] :=
      ⟨⟨List.cons_ne_nil _ _, List.forall_mem_singleton.mpr rfl⟩, .inl rfl⟩
    rw [hdisplay]
    exact ⟨[], .mk (.inl rfl) hwhole .none, iff_of_true rfl ⟨0, hvalue⟩⟩
  | false =>
    have hw : ¬ m.wantsExponent = true := fun hw => h (exponentForm_display_iff.mpr ⟨hz, hw⟩)
    obtain ⟨fraction, hplain, hwhole⟩ := plainForm_plain (s := s) (m.shortest_digits_pos .up hz)
    rw [display_of_nonzero hz, if_neg hw]
    exact ⟨fraction, hplain, hwhole.trans (exponent_nonneg_iff .up hz)⟩

/-- The text of a number is a literal with the value of a shortest decimal. -/
theorem exists_literal_display (s : Bool) (m : Magnitude) :
    ∃ l d, Literal.ofChars? (finite s m).display.toList = some l ∧
      l.negative = (s && !m.isZero) ∧ l.decimal.value = d.value ∧ m.IsShortest d := by
  cases h : m.isZero with
  | true =>
    obtain rfl := isZero_iff.mp h
    refine ⟨⟨false, ['0'], [], 0⟩, ⟨0, 0⟩, ?_, (Bool.and_false s).symm, rfl, isShortest_zero⟩
    rw [display, if_pos h]
    rfl
  | false =>
    have hshortest := isShortest_shortest .up h
    have hpos := m.shortest_digits_pos .up h
    rw [display_of_nonzero h]
    generalize m.shortest .up = d at hshortest hpos ⊢
    have hread : ∃ l, Literal.ofChars? (signed s (if m.wantsExponent then d.scientific
        else d.plain)).toList = some l ∧ l.negative = s ∧ l.decimal.value = d.value := by
      split
      · exact ofChars?_scientific hpos
      · exact ofChars?_plain hpos
    obtain ⟨l, hl, hnegative, hvalue⟩ := hread
    exact ⟨l, d, hl, hnegative.trans (Bool.and_true s).symm, hvalue, hshortest⟩

/-- A text belongs to one number, but for the two zeros. -/
theorem display_eq_iff : (finite s m).display = (finite t n).display ↔
    finite s m = finite t n ∨ m.isZero = true ∧ n.isZero = true := by
  constructor
  · intro heq
    obtain ⟨l, d, hl, hnegative, hvalue, hd⟩ := exists_literal_display s m
    obtain ⟨l', d', hl', hnegative', hvalue', hd'⟩ := exists_literal_display t n
    rw [heq, hl', Option.some.injEq] at hl
    subst hl
    obtain rfl : m = n := by
      have hreads := hd.reads
      rw [Decimal.magnitude?_congr (hvalue.symm.trans hvalue'), hd'.reads, Option.some.injEq] at hreads
      exact hreads.symm
    cases h : m.isZero with
    | true => exact .inr ⟨rfl, rfl⟩
    | false =>
      rw [h, Bool.not_false, Bool.and_true] at hnegative hnegative'
      exact .inl (by rw [← hnegative, ← hnegative'])
  · rintro (heq | ⟨hm, hn⟩)
    · rw [heq]
    · exact (if_pos hm).trans (if_pos hn).symm

theorem display_minus (h : m.isZero = false) :
    (finite true m).display = "-" ++ (finite false m).display := by
  rw [display_of_nonzero h, display_of_nonzero h]
  generalize (if m.wantsExponent then (m.shortest .up).scientific else (m.shortest .up).plain) = body
  rw [← String.toList_inj, String.toList_append, toList_signed, toList_signed]
  rfl

/-- The text of a finite number. It is a number by the grammar of JSON, in one of two forms by the size
of the number, and says the value of a shortest decimal that is read as the number. -/
theorem display_finite (s : Bool) (m : Magnitude) :
    NumberText (finite s m).display.toList ∧
    (m.isZero = true → (finite s m).display = "0") ∧
    (ExponentForm (finite s m).display.toList ↔ m.isZero = false ∧
      (10 ^ 21 ≤ m.value ∨
        m.value < 10 ^ (-6 : Int) ∧ (⟨1, -6⟩ : Decimal).magnitude? ≠ some m)) ∧
    (¬ ExponentForm (finite s m).display.toList →
      ∃ fraction, PlainForm fraction (finite s m).display.toList ∧
        (fraction = [] ↔ ∃ n : Nat, m.value = n)) ∧
    (∃ l d, Literal.ofChars? (finite s m).display.toList = some l ∧
      l.negative = (s && !m.isZero) ∧ l.decimal.value = d.value ∧ m.IsShortest d) ∧
    (∀ t n, (finite s m).display = (finite t n).display ↔
      finite s m = finite t n ∨ m.isZero = true ∧ n.isZero = true) ∧
    (m.isZero = false → (finite true m).display = "-" ++ (finite false m).display) := by
  refine ⟨numberText_display s m, fun h => if_pos h, ?_, exists_plainForm_display,
    exists_literal_display s m, fun _ _ => display_eq_iff, display_minus⟩
  rw [exponentForm_display_iff, wantsExponent_iff_value]

/-- Zero, the number nearest to `10 ^ -6`, and `10 ^ 21`. -/
theorem display_finite_samples :
    (finite true .zero).display = "0" ∧
    ExponentForm (finite true tenTo21).display.toList ∧
    (finite true tenTo21).display = "-" ++ (finite false tenTo21).display ∧
    ¬ ExponentForm (finite false tenToMinus6).display.toList ∧
    ∃ fraction, PlainForm fraction (finite false tenToMinus6).display.toList ∧
      (fraction = [] ↔ ∃ n : Nat, tenToMinus6.value = n) := by
  obtain ⟨-, hzero, -⟩ := display_finite true .zero
  obtain ⟨-, -, hlarge, -, -, -, hminus⟩ := display_finite true tenTo21
  obtain ⟨-, -, hsmall, hplain, -⟩ := display_finite false tenToMinus6
  have hform : ¬ ExponentForm (finite false tenToMinus6).display.toList := by
    rw [hsmall]
    rintro ⟨-, hle | ⟨-, hne⟩⟩
    · exact absurd (atLeast_tenTo21_iff.mpr hle) (by decide +kernel)
    · exact hne magnitude?_tenToMinus6
  have hvalue := atLeast_tenTo21_iff.mp ⟨_, magnitude?_tenTo21, le_rfl⟩
  exact ⟨hzero rfl, hlarge.mpr ⟨rfl, .inl hvalue⟩, hminus rfl, hform, hplain hform⟩

/-- The number nearest to `10 ^ -6` is less than that and has no exponent. -/
theorem not_exponentForm_tenToMinus6 :
    (finite false tenToMinus6).display = "0.000001" ∧
    ¬ (ExponentForm (finite false tenToMinus6).display.toList ↔ tenToMinus6.isZero = false ∧
      (10 ^ 21 ≤ tenToMinus6.value ∨ tenToMinus6.value < 10 ^ (-6 : Int))) := by
  have hdisplay : (finite false tenToMinus6).display = "0.000001" := by decide +kernel
  have hunits : tenToMinus6.units * 10 ^ (6 : Nat) < unit := by decide +kernel
  have hvalue : tenToMinus6.value < 10 ^ (-6 : Int) := by
    have hpow : (10 : ℚ) ^ (-6 : Int) * 10 ^ (6 : Nat) = 1 := by norm_num
    have hcast : ((tenToMinus6.units * 10 ^ (6 : Nat) : Nat) : ℚ) < unit := Nat.cast_lt.mpr hunits
    rw [Nat.cast_mul, Nat.cast_pow, Nat.cast_ofNat] at hcast
    have hmillion : (0 : ℚ) ≤ 10 ^ (6 : Nat) := by positivity
    refine (div_lt_iff₀ unit_pos).mpr (lt_of_mul_lt_mul_right ?_ hmillion)
    rwa [mul_right_comm, hpow, one_mul]
  refine ⟨hdisplay, fun hiff => ?_⟩
  have hform := hiff.mpr ⟨by decide +kernel, .inr hvalue⟩
  rw [hdisplay] at hform
  exact absurd (e_mem_exponentForm hform) (by decide)

end Number

end Markup
