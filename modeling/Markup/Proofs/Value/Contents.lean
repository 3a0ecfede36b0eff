import Markup.Proofs.Json.Grammar

/-!
# What a value holds, seen in its text

`Part u v`: the value `u` stands in `v`, at any depth and in projections too. A JSON text has a
quotation mark exactly when a text or a map with an entry is a part of the value
(`quote_mem_jsonText_iff`): only those are written with one, for the tokens of numbers hold none.
-/

namespace Markup

namespace Json.Grammar

/-- The characters of a number. -/
def IsNumberChar (c : Char) : Prop := c.isDigit ∨ c ∈ ['-', '+', '.', 'e', 'E']

variable {cs : List Char}

theorem Digits.isNumberChar (h : Digits cs) : ∀ c ∈ cs, IsNumberChar c := fun c hc =>
  .inl (h.2 c hc)

theorem Fraction.isNumberChar (h : Fraction cs) : ∀ c ∈ cs, IsNumberChar c := by
  cases h with
  | none => exact nofun
  | places digits => exact List.forall_mem_cons.mpr ⟨.inr (by decide), digits.isNumberChar⟩

theorem Exponent.isNumberChar (h : Exponent cs) : ∀ c ∈ cs, IsNumberChar c := by
  cases h with
  | none => exact nofun
  | power hletter hsign digits =>
    refine List.forall_mem_cons.mpr ⟨?_, List.forall_mem_append.mpr ⟨?_, digits.isNumberChar⟩⟩
    · rcases hletter with rfl | rfl <;> exact .inr (by decide)
    · rcases hsign with rfl | rfl | rfl <;> simp [IsNumberChar]

theorem NumberText.isNumberChar (h : NumberText cs) : ∀ c ∈ cs, IsNumberChar c := by
  obtain ⟨hsign, hwhole, hfraction, hexponent⟩ := h
  refine List.forall_mem_append.mpr ⟨?_, List.forall_mem_append.mpr ⟨hwhole.1.isNumberChar,
    List.forall_mem_append.mpr ⟨hfraction.isNumberChar, hexponent.isNumberChar⟩⟩⟩
  rcases hsign with rfl | rfl <;> simp [IsNumberChar]

theorem quote_notMem_jsonToken (n : Number) : '"' ∉ n.jsonToken.toList := by
  cases n with
  | nan => decide
  | infinite s => cases s <;> decide
  | finite s m =>
    intro h
    have hchar := (numberText_jsonToken s m).isNumberChar _ h
    revert hchar
    unfold IsNumberChar
    decide

end Json.Grammar

namespace Value

/-! ### Parts -/

/-- The value `u` stands in another, at any depth and in projections too. -/
inductive Part (u : Value) : Value → Prop where
  | self : Part u u
  | item {v : Value} {items : List Value} (mem : v ∈ items) (part : Part u v) :
    Part u (list items)
  | entry {k : String} {v : Value} {entries : List (String × Value)} (mem : (k, v) ∈ entries)
    (part : Part u v) : Part u (map entries)
  | projection {id : Nat} {v : Value} (part : Part u v) : Part u (object id v)

/-- A value that is written with a quotation mark itself: a text, or a map with an entry. -/
def IsWorded (v : Value) : Prop := (∃ s, v = text s) ∨ ∃ e es, v = map (e :: es)

theorem itemsHoldText_iff {vs : List Value} :
    itemsHoldText vs = true ↔ ∃ v ∈ vs, v.holdsText = true := by
  induction vs with
  | nil => simp [itemsHoldText]
  | cons v vs ih => simp [itemsHoldText, ih]

theorem Part.holdsText {u v : Value} (h : Part u v) (hu : u.IsWorded) : v.holdsText = true := by
  induction h with
  | self => rcases hu with ⟨s, rfl⟩ | ⟨e, es, rfl⟩ <;> rfl
  | item mem _ ih => exact itemsHoldText_iff.mpr ⟨_, mem, ih⟩
  | entry mem _ _ =>
    obtain ⟨e, es, rfl⟩ := List.exists_cons_of_ne_nil (List.ne_nil_of_mem mem)
    rfl
  | projection _ ih => exact ih

mutual

theorem exists_part : (v : Value) → v.holdsText = true → ∃ u, Part u v ∧ u.IsWorded
  | null, h | bool _, h | number _, h => absurd h Bool.false_ne_true
  | text s, _ => ⟨text s, .self, .inl ⟨s, rfl⟩⟩
  | list items, h => by
    obtain ⟨v, hv, u, hpart, hu⟩ := exists_part_item items h
    exact ⟨u, .item hv hpart, hu⟩
  | map [], h => absurd h Bool.false_ne_true
  | map (e :: es), _ => ⟨map (e :: es), .self, .inr ⟨e, es, rfl⟩⟩
  | object _ v, h => by
    obtain ⟨u, hpart, hu⟩ := exists_part v h
    exact ⟨u, .projection hpart, hu⟩

theorem exists_part_item : (vs : List Value) → itemsHoldText vs = true →
    ∃ v ∈ vs, ∃ u, Part u v ∧ u.IsWorded
  | [], h => absurd h Bool.false_ne_true
  | v :: vs, h => by
    rw [itemsHoldText, Bool.or_eq_true] at h
    rcases h with h | h
    · exact ⟨v, List.mem_cons_self, exists_part v h⟩
    · obtain ⟨w, hw, hu⟩ := exists_part_item vs h
      exact ⟨w, List.mem_cons_of_mem v hw, hu⟩

end

theorem holdsText_iff (v : Value) : v.holdsText = true ↔ ∃ u, Part u v ∧ u.IsWorded :=
  ⟨exists_part v, fun ⟨_, hpart, hu⟩ => hpart.holdsText hu⟩

/-! ### Quotation marks -/

theorem quote_mem_toList_quote (s : String) : '"' ∈ (Json.quote s).toList := by
  rw [Json.toList_quote]
  exact List.mem_cons_self

section spell

variable {num : Number → List Char}

mutual

/-- Where numbers are spelled without quotation marks, only texts and entries bring any. -/
theorem quote_mem_spell (hnum : ∀ n, '"' ∉ num n) : (v : Value) →
    ('"' ∈ v.spell num ↔ v.holdsText = true)
  | null | bool true | bool false => by
    rw [spell, holdsText]
    decide
  | number n => by
    rw [spell, holdsText]
    exact iff_of_false (hnum n) Bool.false_ne_true
  | text s => by
    rw [spell, holdsText]
    exact iff_of_true (quote_mem_toList_quote s) rfl
  | list items => by
    simp [spell, holdsText, quote_mem_spellItems hnum items true]
  | map [] => by
    rw [spell, spellEntries, holdsText]
    decide
  | map ((k, v) :: es) => by
    rw [spell, spellEntries_first, holdsText]
    refine iff_of_true ?_ rfl
    exact List.mem_cons_of_mem _ (List.mem_append_left _
      (List.mem_append_left _ (quote_mem_toList_quote k)))
  | object _ v => by
    rw [spell, holdsText]
    exact quote_mem_spell hnum v

theorem quote_mem_spellItems (hnum : ∀ n, '"' ∉ num n) : (vs : List Value) → (first : Bool) →
    ('"' ∈ spellItems num first vs ↔ itemsHoldText vs = true)
  | [], _ => by
    rw [spellItems, itemsHoldText]
    exact iff_of_false List.not_mem_nil Bool.false_ne_true
  | v :: vs, first => by
    have hseparator : '"' ∉ separator first := by cases first <;> decide
    rw [spellItems, itemsHoldText, List.mem_append, List.mem_append, Bool.or_eq_true,
      quote_mem_spell hnum v, quote_mem_spellItems hnum vs false]
    exact or_iff_right hseparator

end

end spell

/-- The JSON text of a value has a quotation mark exactly when a text or a map with an entry is a
part of it. -/
theorem quote_mem_jsonText_iff (v : Value) :
    '"' ∈ v.jsonText.toList ↔ ∃ u, Part u v ∧ u.IsWorded := by
  rw [toList_jsonText, quote_mem_spell Json.Grammar.quote_notMem_jsonToken v, holdsText_iff]

end Value

end Markup
