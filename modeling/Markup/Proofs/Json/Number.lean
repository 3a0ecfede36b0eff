import Markup.Json.Reader
import Markup.Proofs.Number.Digits
import Markup.Proofs.Number.Scaled

/-!
# Reading a number

What `Json.number` makes of the text of a literal: without an exponent, an integer or the decimal that
the reader holds of it (`number_plain`), and with an exponent, that decimal moved by the exponent
(`number_scientific`). As long as the digits fit 64 bits, nothing of them is lost (`held_of_fits`).
-/

namespace Markup.Json

open Literal Decimal

variable {negative : Bool} {l : Literal} {n : Nat} {ds cs tail : List Char} {d : Decimal}

/-! ### Digits that 64 bits hold -/

theorem le_ofDigitChars (n : Nat) (ds : List Char) : n ≤ Nat.ofDigitChars 10 ds n := by
  rw [Nat.ofDigitChars_eq_ofDigitChars_zero]
  exact Nat.le_add_right_of_le (Nat.le_mul_of_pos_left n (Nat.pow_pos (by decide)))

theorem takeDigits_of_fits (h : Nat.ofDigitChars 10 ds n < UInt64.size) :
    takeDigits n ds = (Nat.ofDigitChars 10 ds n, 0) := by
  induction ds generalizing n with
  | nil => rfl
  | cons c ds ih =>
    rw [Nat.ofDigitChars_cons] at h ⊢
    have hnext : 10 * n + (c.toNat - 48) < UInt64.size := (le_ofDigitChars _ ds).trans_lt h
    rw [takeDigits]
    simp only [hnext, if_true]
    exact ih h

theorem takeDigits_lt (h : n < UInt64.size) (ds : List Char) : (takeDigits n ds).1 < UInt64.size := by
  induction ds generalizing n with
  | nil => exact h
  | cons c ds ih =>
    rw [takeDigits]
    split
    · next hnext => exact ih hnext
    · exact h

theorem takeDigits_le (n : Nat) (ds : List Char) : (takeDigits n ds).2 ≤ ds.length := by
  induction ds generalizing n with
  | nil => exact Nat.le_refl 0
  | cons c ds ih =>
    rw [takeDigits]
    split
    · exact (ih _).trans (Nat.le_succ _)
    · exact Nat.le_refl _

/-- The decimal that a reader holds of the digits and places of a literal. -/
def held (l : Literal) : Decimal := withPlaces (wholeDigits l.digits) l.places

theorem wholeDigits_of_fits (h : digitsValue ds < UInt64.size) :
    wholeDigits ds = ⟨digitsValue ds, 0⟩ := by
  rw [wholeDigits, takeDigits_of_fits h]
  rfl

/-- Digits that fit are all held. -/
theorem held_of_fits (h : l.decimal.digits < UInt64.size) :
    held l = ⟨l.decimal.digits, l.decimal.exponent - l.power⟩ := by
  have hsplit : l.decimal.digits = Nat.ofDigitChars 10 l.places (digitsValue l.digits) := by
    rw [digitsValue_eq, ← Nat.ofDigitChars_append]
    rfl
  have hwhole : digitsValue l.digits < UInt64.size :=
    (le_ofDigitChars _ l.places).trans_lt (hsplit ▸ h)
  have hexp : l.decimal.exponent = l.power - l.places.length := rfl
  rw [held, wholeDigits_of_fits hwhole, withPlaces, takeDigits_of_fits (hsplit ▸ h), hsplit, hexp]
  simp

theorem held_of_no_places (h : l.places = []) : held l = wholeDigits l.digits := by
  rw [held, h]
  simp [withPlaces, takeDigits]

/-- With a fraction, nothing is lost. -/
theorem held_of_fraction (he : d.exponent < 0) (hdigits : d.digits < UInt64.size) :
    held d.plainLiteral = d := by
  have hdecimal := d.decimal_plainLiteral
  rw [Int.toNat_of_nonpos he.le, Nat.pow_zero, Nat.mul_one, Int.min_eq_left he.le] at hdecimal
  rw [held_of_fits (by rw [hdecimal]; exact hdigits), hdecimal, power_plainLiteral, Int.sub_zero]

theorem held_of_whole (he : 0 ≤ d.exponent) (hdigits : 0 < d.digits) :
    held d.plainLiteral = wholeDigits (digitChars (d.digits * 10 ^ d.exponent.toNat)) := by
  obtain ⟨digits, exponent⟩ := d
  obtain ⟨e, rfl⟩ := Int.eq_ofNat_of_zero_le he
  rw [held_of_no_places rfl, Int.toNat_natCast, ← digitChars_append_zeros hdigits]
  rfl

theorem length_digitChars_whole (he : 0 ≤ d.exponent) (hdigits : 0 < d.digits) :
    ((digitChars (d.digits * 10 ^ d.exponent.toNat)).length : Int) = d.leading + 1 := by
  rw [← digitChars_append_zeros hdigits, List.length_append, List.length_replicate, leading]
  omega

theorem wholeDigits_exponent (ds : List Char) :
    ∃ e : Nat, (wholeDigits ds).exponent = e ∧ e ≤ ds.length :=
  ⟨_, rfl, takeDigits_le 0 ds⟩

theorem wholeDigits_digits_lt (ds : List Char) : (wholeDigits ds).digits < UInt64.size :=
  takeDigits_lt (by decide) ds

/-- When no digit is left out, the number is all of them. -/
theorem takeDigits_all (h : (takeDigits n ds).2 = 0) : (takeDigits n ds).1 = Nat.ofDigitChars 10 ds n := by
  induction ds generalizing n with
  | nil => rfl
  | cons c ds ih =>
    rw [Nat.ofDigitChars_cons]
    rw [takeDigits] at h ⊢
    split
    · next hnext =>
      rw [if_pos hnext] at h
      exact ih h
    · next hnext =>
      rw [if_neg hnext] at h
      cases h

theorem wholeDigits_all (h : (wholeDigits ds).exponent = 0) : (wholeDigits ds).digits = digitsValue ds :=
  takeDigits_all (Int.ofNat_eq_zero.mp h)

/-! ### Digits and places -/

theorem number_digits (h : l.Proper) (htail : EndsRun Char.isDigit tail) :
    number negative (l.digits ++ tail) = afterDigits negative (wholeDigits l.digits) tail := by
  rcases h.leading with hzero | hhead
  · rw [hzero]
    cases tail with
    | nil => rfl
    | cons c tail =>
      have hc : c.isDigit = false := htail c rfl
      rw [List.singleton_append, number, hc, if_neg Bool.false_ne_true]
      rfl
  · obtain ⟨c, ds, hds⟩ := List.exists_cons_of_ne_nil h.digits_ne_nil
    have hc : c.isDigit := h.isDigit c (hds ▸ List.mem_cons_self)
    have htake := takeWhile_run h.isDigit htail
    have hdrop := dropWhile_run h.isDigit htail
    rw [hds] at hhead htake hdrop ⊢
    rw [List.cons_append] at htake hdrop ⊢
    rw [number, if_pos hc, htake, hdrop]
    intro _ _ hzero _
    exact hhead (by rw [hzero]; rfl)

section places

variable (hne : ds ≠ []) (hds : ∀ c ∈ ds, c.isDigit)
include hne hds

theorem fractionPart_plain (htail : EndsRun Char.isDigit tail)
    (hletter : EndsRun isExponentLetter tail) :
    fractionPart negative d (ds ++ tail) = floatNumber negative (withPlaces d ds) tail := by
  obtain ⟨p, ps, rfl⟩ := List.exists_cons_of_ne_nil hne
  unfold fractionPart
  rw [takeWhile_run hds htail, dropWhile_run hds htail]
  cases tail with
  | nil => rfl
  | cons c tail =>
    have hc : ¬ isExponentLetter c = true := by simp [hletter c rfl]
    exact if_neg hc

theorem fractionPart_letter :
    fractionPart negative d (ds ++ 'e' :: cs) = exponentPart negative (withPlaces d ds) cs := by
  have htail : EndsRun Char.isDigit ('e' :: cs) := endsRun_cons rfl
  obtain ⟨p, ps, rfl⟩ := List.exists_cons_of_ne_nil hne
  unfold fractionPart
  rw [takeWhile_run hds htail, dropWhile_run hds htail]
  exact if_pos rfl

end places

/-- A number without an exponent. -/
theorem number_plain (h : l.Proper) (htail : EndsRun Char.isDigit tail)
    (hpoint : tail.head? ≠ some '.') (hletter : EndsRun isExponentLetter tail) :
    number negative (l.unsigned ++ tail) =
      if l.places = [] then wholeNumber negative (wholeDigits l.digits) tail
      else floatNumber negative (held l) tail := by
  unfold unsigned
  split
  · rw [List.append_nil, number_digits h htail]
    cases tail with
    | nil => rfl
    | cons c tail =>
      have hc : c ≠ '.' := fun heq => hpoint (by rw [heq]; rfl)
      have hl : ¬ isExponentLetter c = true := by simp [hletter c rfl]
      rw [afterDigits, if_neg hc, if_neg hl]
  · next hplaces =>
    rw [List.append_assoc, List.cons_append, number_digits h (endsRun_cons rfl), afterDigits,
      if_pos rfl, fractionPart_plain hplaces h.isDigit_place htail hletter, held]

/-- A number with an exponent. -/
theorem number_scientific (h : l.Proper) :
    number negative (l.unsigned ++ 'e' :: cs) = exponentPart negative (held l) cs := by
  unfold unsigned
  split
  · next hplaces =>
    have hpoint : ¬ 'e' = '.' := by decide
    rw [List.append_nil, number_digits h (endsRun_cons rfl), afterDigits, if_neg hpoint,
      held_of_no_places hplaces]
    exact if_pos rfl
  · next hplaces =>
    rw [List.append_assoc, List.cons_append, number_digits h (endsRun_cons rfl), afterDigits,
      if_pos rfl, fractionPart_letter hplaces h.isDigit_place, held]

/-! ### Exponents -/

theorem exponentDigits_run {down : Bool} (hds : ∀ c ∈ ds, c.isDigit) (htail : EndsRun Char.isDigit tail)
    (hmax : Nat.ofDigitChars 10 ds n ≤ maxExponent) :
    exponentDigits negative d down n (ds ++ tail) =
      exponentDigits.finish negative d down (Nat.ofDigitChars 10 ds n) tail := by
  induction ds generalizing n with
  | nil =>
    cases tail with
    | nil => rfl
    | cons c tail =>
      have hc : c.isDigit = false := htail c rfl
      rw [List.nil_append, exponentDigits, hc, if_neg Bool.false_ne_true]
      rfl
  | cons c ds ih =>
    have hc : c.isDigit := hds c List.mem_cons_self
    rw [Nat.ofDigitChars_cons] at hmax ⊢
    have hnext : 10 * n + (c.toNat - 48) ≤ maxExponent := (le_ofDigitChars _ ds).trans hmax
    rw [List.cons_append, exponentDigits, if_pos hc]
    simp only [hnext, if_true]
    exact ih (fun c hc => hds c (List.mem_cons_of_mem _ hc)) hmax

/-- A signed exponent moves the decimal. -/
theorem exponentPart_chars {e : Int} (hmax : e.natAbs ≤ maxExponent)
    (htail : EndsRun Char.isDigit tail) :
    exponentPart negative d (exponentChars e ++ tail) =
      floatNumber negative ⟨d.digits, d.exponent + e⟩ tail := by
  have hrun (n : Nat) (down : Bool) (hn : n ≤ maxExponent) :
      exponentDigits negative d down 0 (digitChars n ++ tail) =
        exponentDigits.finish negative d down n tail := by
    have hvalue : Nat.ofDigitChars 10 (digitChars n) 0 = n := digitsValue_digitChars n
    rw [exponentDigits_run (fun c => isDigit_of_mem_digitChars) htail (hvalue.trans_le hn), hvalue]
  have hfirst (n : Nat) : ∃ c cs, digitChars n = c :: cs ∧ c.isDigit := by
    obtain ⟨c, cs, hcs⟩ := List.exists_cons_of_ne_nil (digitChars_ne_nil n)
    exact ⟨c, cs, hcs, isDigit_of_mem_digitChars (hcs ▸ List.mem_cons_self)⟩
  cases e with
  | ofNat n =>
    obtain ⟨c, cs, hcs, hc⟩ := hfirst n
    have hdigits := hrun n false hmax
    rw [hcs] at hdigits
    rw [exponentChars, hcs]
    show (if c.isDigit then exponentDigits negative d false 0 (c :: cs ++ tail) else _) = _
    rw [if_pos hc, hdigits]
    rfl
  | negSucc n =>
    obtain ⟨c, cs, hcs, hc⟩ := hfirst (n + 1)
    have hdigits := hrun (n + 1) true hmax
    rw [hcs] at hdigits
    rw [exponentChars, hcs]
    show (if c.isDigit then exponentDigits negative d true 0 (c :: cs ++ tail) else _) = _
    rw [if_pos hc, hdigits]
    rfl

end Markup.Json
