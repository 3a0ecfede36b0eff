import Markup.Number.Text
import Markup.Proofs.Number.Whole

/-!
# Number texts as literals

What is written for a decimal, plainly or with an exponent, is a literal: `Literal.ofChars?` finds its
sign, its digits, the places after the point and the power of ten again (`ofChars?_signed`,
`Number.ofChars?_plain`, `Number.ofChars?_scientific`). The literal has the exact value of the decimal
(`Decimal.value_plainLiteral`).
-/

namespace Markup

namespace Literal

variable {l : Literal} {c : Char} {cs : List Char} {s : Bool} {power : Int}

theorem sign_minus (hc : c.isDigit) :
    sign ((if s then ['-'] else []) ++ c :: cs) = (s, c :: cs) := by
  cases s with
  | true => rfl
  | false =>
    have hminus : c ≠ '-' := by
      rintro rfl
      cases hc
    have hplus : c ≠ '+' := by
      rintro rfl
      cases hc
    simp [sign, hminus, hplus]

theorem pointPart?_places (hplaces : ∀ c ∈ l.places, c.isDigit) (hcs : EndsRun Char.isDigit cs)
    (hpoint : cs.head? ≠ some '.') :
    pointPart? ((if l.places = [] then [] else '.' :: l.places) ++ cs) = some (l.places, cs) := by
  split
  · next hnil =>
    rw [hnil, List.nil_append]
    unfold pointPart?
    split
    · exact absurd rfl hpoint
    · rfl
  · next hne =>
    rw [List.cons_append, pointPart?, takeWhile_run hplaces hcs, dropWhile_run hplaces hcs, if_neg hne]

/-- The parts of a literal are found again, with a sign in front of it and a power of ten behind it. -/
theorem ofChars?_signed (h : l.Proper) (hcs : EndsRun Char.isDigit cs) (hpoint : cs.head? ≠ some '.')
    (hpower : powerPart? cs = some power) :
    ofChars? ((if s then ['-'] else []) ++ (l.unsigned ++ cs)) =
      some ⟨s, l.digits, l.places, power⟩ := by
  have hends : EndsRun Char.isDigit ((if l.places = [] then [] else '.' :: l.places) ++ cs) := by
    split
    · exact hcs
    · exact endsRun_cons rfl
  have hsign : sign ((if s then ['-'] else []) ++ (l.unsigned ++ cs)) = (s, l.unsigned ++ cs) := by
    obtain ⟨c, ds, hds⟩ := List.exists_cons_of_ne_nil h.digits_ne_nil
    have hc : c.isDigit := h.isDigit c (hds ▸ List.mem_cons_self)
    rw [unsigned, hds, List.cons_append, List.cons_append]
    exact sign_minus hc
  unfold ofChars?
  rw [hsign]
  dsimp only
  rw [unsigned, List.append_assoc, takeWhile_run h.isDigit hends, dropWhile_run h.isDigit hends,
    if_neg h.digits_ne_nil, pointPart?_places h.isDigit_place hcs hpoint]
  simp only [Option.bind_eq_bind, Option.bind_some, hpower]
  rfl

theorem powerPart?_exponentChars (e : Int) :
    powerPart? ('e' :: Decimal.exponentChars e) = some e := by
  have hdigits (n : Nat) : (Decimal.digitChars n).all Char.isDigit = true :=
    List.all_eq_true.mpr fun _ => Decimal.isDigit_of_mem_digitChars
  cases e with
  | ofNat n =>
    simp [powerPart?, Decimal.exponentChars, sign, hdigits, Decimal.digitChars_ne_nil,
      digitsValue_digitChars]
  | negSucc n =>
    simp [powerPart?, Decimal.exponentChars, sign, hdigits, Decimal.digitChars_ne_nil,
      digitsValue_digitChars, Int.negSucc_eq]

end Literal

namespace Decimal

/-- Written without an exponent, a decimal keeps its value. -/
theorem value_plainLiteral (d : Decimal) : d.plainLiteral.decimal.value = d.value := by
  rw [decimal_plainLiteral]
  rcases le_or_gt 0 d.exponent with he | he
  · rw [Int.min_eq_right he, Magnitude.value_of_exponent_nonneg he, value, zpow_zero, mul_one]
  · rw [Int.min_eq_left he.le, Int.toNat_of_nonpos he.le, Nat.pow_zero, Nat.mul_one]

end Decimal

namespace Number

open Literal

variable {s : Bool} {d : Decimal}

theorem toList_signed (negative : Bool) (body : List Char) :
    (signed negative body).toList = (if negative then ['-'] else []) ++ body := by
  cases negative <;> simp [signed]

/-- Written plainly, a decimal is a literal with its sign and value. -/
theorem ofChars?_plain (h : 0 < d.digits) : ∃ l, ofChars? (signed s d.plain).toList = some l ∧
    l.negative = s ∧ l.decimal.value = d.value := by
  have hread := ofChars?_signed (s := s) (Decimal.proper_plainLiteral h) endsRun_nil nofun rfl
  rw [List.append_nil, ← Decimal.plain_eq, ← toList_signed, ← d.power_plainLiteral] at hread
  exact ⟨_, hread, rfl, d.value_plainLiteral⟩

/-- So it is with an exponent. -/
theorem ofChars?_scientific (h : 0 < d.digits) : ∃ l,
    ofChars? (signed s d.scientific).toList = some l ∧ l.negative = s ∧ l.decimal.value = d.value := by
  have hends : EndsRun Char.isDigit ('e' :: Decimal.exponentChars d.leading) := endsRun_cons rfl
  have hread := ofChars?_signed (s := s) (Decimal.proper_scientificLiteral h) hends nofun
    (powerPart?_exponentChars d.leading)
  rw [← Decimal.scientific_eq, ← toList_signed] at hread
  exact ⟨_, hread, rfl, congrArg Decimal.value d.decimal_scientificLiteral⟩

end Number

end Markup
