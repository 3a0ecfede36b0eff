import Markup.Proofs.Value.Normal
import Markup.Proofs.Value.Spelling

/-!
# Two encoders of values

A value goes through JSON data without loss: what comes back is its normal form (`ofJson_toJson`). The
serialized text and the text embedded in markup are one text with two spellings of its numbers, and
they are equal exactly when no number of the value is spelled apart: `jsonText_serialized`.
-/

namespace Markup

namespace Number

open Value (isSpelling)

variable {s : Bool} {m : Magnitude} {d : Decimal} {c : Char}

/-! ### The characters of a spelling -/

theorem isSpelling_of_isDigit (hc : c.isDigit) : isSpelling c := by
  have hne : c ≠ ',' ∧ c ≠ ']' ∧ c ≠ '}' := by
    refine ⟨?_, ?_, ?_⟩ <;> rintro rfl <;> revert hc <;> decide
  simp [isSpelling, hne]

theorem isSpelling_digitChars {n : Nat} : ∀ c ∈ Decimal.digitChars n, isSpelling c := fun _ hc =>
  isSpelling_of_isDigit (Decimal.isDigit_of_mem_digitChars hc)

theorem isSpelling_unsigned {l : Literal} (h : l.Proper) : ∀ c ∈ l.unsigned, isSpelling c := by
  intro c hc
  rcases Literal.mem_unsigned h hc with hdigit | rfl
  · exact isSpelling_of_isDigit hdigit
  · rfl

theorem isSpelling_plain (h : 0 < d.digits) : ∀ c ∈ d.plain, isSpelling c := by
  rw [Decimal.plain_eq]
  exact isSpelling_unsigned (Decimal.proper_plainLiteral h)

theorem isSpelling_scientific (h : 0 < d.digits) : ∀ c ∈ d.scientific, isSpelling c := by
  have hexponent (e : Int) : ∀ c ∈ Decimal.exponentChars e, isSpelling c := by
    cases e <;> exact List.forall_mem_cons.mpr ⟨rfl, isSpelling_digitChars⟩
  rw [Decimal.scientific_eq, List.forall_mem_append, List.forall_mem_cons]
  exact ⟨isSpelling_unsigned (Decimal.proper_scientificLiteral h), rfl, hexponent _⟩

theorem isSpelling_signed {body : List Char} (h : ∀ c ∈ body, isSpelling c) :
    ∀ c ∈ (signed s body).toList, isSpelling c := by
  cases s
  · simpa [signed] using h
  · simpa [signed] using ⟨rfl, h⟩

theorem isSpelling_of_all {cs : List Char} (h : cs.all isSpelling = true) :
    ∀ c ∈ cs, isSpelling c := List.all_eq_true.mp h

theorem isSpelling_null : ∀ c ∈ "null".toList, isSpelling c := isSpelling_of_all rfl

theorem isSpelling_jsonToken (x : Number) : ∀ c ∈ x.jsonToken.toList, isSpelling c := by
  cases x with
  | nan => exact isSpelling_null
  | infinite s => exact isSpelling_null
  | finite s m =>
    simp only [jsonToken, isFinite, if_true, display]
    split
    · exact isSpelling_of_all rfl
    · next h =>
      have hpos := m.shortest_digits_pos .up (Bool.eq_false_of_not_eq_true h)
      split
      · exact isSpelling_signed (isSpelling_scientific hpos)
      · exact isSpelling_signed (isSpelling_plain hpos)

theorem isSpelling_toString (i : Int) : ∀ c ∈ (toString i).toList, isSpelling c := by
  cases i with
  | ofNat n =>
    show ∀ c ∈ (toString n).toList, isSpelling c
    rw [Nat.toString_eq_ofList_toDigits, String.toList_ofList]
    exact isSpelling_digitChars
  | negSucc n =>
    show ∀ c ∈ ("-" ++ toString (n + 1)).toList, isSpelling c
    rw [Nat.toString_eq_ofList_toDigits, String.toList_append]
    refine List.forall_mem_append.mpr ⟨isSpelling_of_all rfl, ?_⟩
    rw [String.toList_ofList]
    exact isSpelling_digitChars

theorem isSpelling_floatToken (x : Number) : ∀ c ∈ x.floatToken.toList, isSpelling c := by
  cases x with
  | nan => exact isSpelling_null
  | infinite s => exact isSpelling_null
  | finite s m =>
    refine isSpelling_signed ?_
    split
    · exact isSpelling_of_all rfl
    · next h =>
      have hpos := m.shortest_digits_pos .even (Bool.eq_false_of_not_eq_true h)
      dsimp only
      split
      · refine List.forall_mem_append.mpr ⟨isSpelling_plain hpos, ?_⟩
        split <;> exact isSpelling_of_all rfl
      · exact isSpelling_scientific hpos

theorem isSpelling_serialToken (x : Number) : ∀ c ∈ x.serialToken.toList, isSpelling c := by
  unfold serialToken Value.numberToJson
  split
  · exact isSpelling_toString _
  · split
    · exact isSpelling_floatToken x
    · exact isSpelling_null

end Number

namespace Value

open Number

/-! ### Through JSON data -/

theorem ofJson_numberToJson (x : Number) : ofJson (numberToJson x) = ofPlain x := by
  cases x with
  | nan => rfl
  | infinite s => rfl
  | finite s m =>
    by_cases hm : ∃ n < 2 ^ (53 : Nat), m.units = n * Magnitude.unit
    · obtain ⟨n, hn, hunits⟩ := hm
      rw [numberToJson, safeInteger?_of_whole hn hunits]
      dsimp only [ofJson]
      cases h : m.isZero with
      | true =>
        rw [Magnitude.isZero_iff] at h
        subst h
        have hzero : n = 0 := by
          rw [Magnitude.units_zero, eq_comm, Nat.mul_eq_zero] at hunits
          exact hunits.resolve_right (Nat.cast_pos.mp Magnitude.unit_pos).ne'
        subst hzero
        cases s <;> rfl
      | false =>
        rw [ofInt_signed (whole_pos h hunits) (Magnitude.magnitude?_of_units hunits), ofPlain_nonzero h]
    · have hnot : ∀ n < 2 ^ (53 : Nat), m.units ≠ n * Magnitude.unit := fun n hn heq => hm ⟨n, hn, heq⟩
      have hzero : m.isZero = false := by
        refine Bool.eq_false_of_not_eq_true fun hz => hnot 0 (Nat.two_pow_pos _) ?_
        rw [Magnitude.isZero_iff.mp hz, Magnitude.units_zero, Nat.zero_mul]
      rw [numberToJson, safeInteger?_eq_none hnot, ofPlain, hzero]
      rfl

mutual

/-- A value read back from its JSON data is its normal form. -/
theorem ofJson_toJson : (v : Value) → v.WellFormed → ofJson v.toJson = v.normal
  | null, _ => rfl
  | bool _, _ => rfl
  | number n, _ => ofJson_numberToJson n
  | text _, _ => rfl
  | list items, h => by rw [toJson, ofJson, normal, ofJsonItems_toJsonItems items h]
  | map entries, h => by
    have hkeys : (Entries.keys (normalEntries entries)).Nodup := by
      rw [keys_normalEntries]
      exact h.1
    rw [toJson, ofJson, normal, ofJsonEntries_toJsonEntries entries h.2,
      Entries.collect_of_nodup hkeys]
  | object _ v, h => by rw [toJson, normal, ofJson_toJson v h]

theorem ofJsonItems_toJsonItems :
    (vs : List Value) → WellFormedItems vs → ofJsonItems (toJsonItems vs) = normalItems vs
  | [], _ => rfl
  | v :: vs, h => by
    rw [toJsonItems, ofJsonItems, normalItems, ofJson_toJson v h.1, ofJsonItems_toJsonItems vs h.2]

theorem ofJsonEntries_toJsonEntries : (es : List (String × Value)) → WellFormedEntries es →
    ofJsonEntries (toJsonEntries es) = normalEntries es
  | [], _ => rfl
  | (k, v) :: es, h => by
    rw [toJsonEntries, ofJsonEntries, normalEntries, ofJson_toJson v h.1,
      ofJsonEntries_toJsonEntries es h.2]

end

/-- The two encoders agree on the data, and on the text up to the spelling of numbers: the texts are
equal exactly when no number of the value is spelled apart. -/
theorem jsonText_serialized (v : Value) (h : v.WellFormed) :
    ofJson v.toJson = v.normal ∧
    v.jsonText.toList = (v.spell fun n => n.jsonToken.toList) ∧
    v.serialized.toList = (v.spell fun n => n.serialToken.toList) ∧
    (∀ n : Number, n.jsonToken = n.serialToken ↔ ¬ n.SpelledApart) ∧
    (v.jsonText = v.serialized ↔ ∀ n ∈ v.numbers, ¬ n.SpelledApart) := by
  have hjson := toList_jsonText v
  have hserial : v.serialized.toList = _ := toList_serialized v
  refine ⟨ofJson_toJson v h, hjson, hserial, jsonToken_eq_serialToken_iff, ?_⟩
  rw [← String.toList_inj, hjson, hserial,
    spell_eq_iff isSpelling_jsonToken isSpelling_serialToken v]
  refine forall₂_congr fun n _ => ?_
  rw [String.toList_inj, jsonToken_eq_serialToken_iff]

/-- A value with an object, a number that is not finite and a zero with a sign. -/
def withObject : Value :=
  map [("a", list [number .nan, number (.finite true .zero), null]),
    ("b", object 1 (map [("c", number (.ofInt 7)), ("d", text "e")]))]

theorem jsonText_serialized_withObject :
    withObject.WellFormed ∧ withObject.jsonText = withObject.serialized ∧
    ofJson withObject.toJson = withObject.normal ∧ ∀ n ∈ withObject.numbers, ¬ n.SpelledApart := by
  have hwell : withObject.WellFormed := by
    simp [withObject, WellFormed, WellFormedItems, WellFormedEntries]
  have htext : withObject.jsonText = withObject.serialized := by decide +kernel
  obtain ⟨hdata, -, -, -, hiff⟩ := jsonText_serialized withObject hwell
  exact ⟨hwell, htext, hdata, hiff.mp htext⟩

/-- `1125899906842624.25`. -/
def quarter : Magnitude := ⟨2 ^ (52 : Nat) + 1, 1072, by decide, by decide, by decide⟩

/-- The size of a number does not tell alone: this one is half-way between its two shortest
decimals, and the texts differ. -/
theorem not_jsonText_eq_iff_inGap : ¬ ((number (.finite false quarter)).jsonText =
    (number (.finite false quarter)).serialized ↔
      ∀ n ∈ (number (.finite false quarter)).numbers, ¬ n.InGap) := by
  have hne : (number (.finite false quarter)).jsonText ≠
      (number (.finite false quarter)).serialized := by decide +kernel
  have hgap : ¬ quarter.InGap := by decide +kernel
  intro hiff
  exact hne (hiff.mpr fun n hn => List.mem_singleton.mp hn ▸ hgap)

end Value

end Markup
