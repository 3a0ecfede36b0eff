import Markup.Proofs.Number.Tokens

/-!
# JSON texts up to the spelling of numbers

`Value.spell num v` is the JSON text of `v` with every number spelled by `num`. The text embedded in
markup and the serialized text are two such texts (`toList_jsonText`, `toList_serialized`). When the
spellings are made of characters that cannot end a value, the text determines them: `spell_eq_iff`.
-/

namespace Markup

open Number

namespace Value

/-- A comma before every item but the first. -/
def separator (first : Bool) : List Char := if first then [] else [',']

mutual

/-- The JSON text of a value, with numbers spelled by `num`. -/
def spell (num : Number → List Char) : Value → List Char
  | null => "null".toList
  | bool b => (if b then "true" else "false").toList
  | number n => num n
  | text s => (Json.quote s).toList
  | list items => '[' :: spellItems num true items ++ [']']
  | map entries => '{' :: spellEntries num true entries ++ ['}']
  | object _ v => spell num v

def spellItems (num : Number → List Char) : Bool → List Value → List Char
  | _, [] => []
  | first, v :: vs => separator first ++ (spell num v ++ spellItems num false vs)

def spellEntries (num : Number → List Char) : Bool → List (String × Value) → List Char
  | _, [] => []
  | first, (k, v) :: es =>
    separator first ++ ((Json.quote k).toList ++ ':' :: (spell num v ++ spellEntries num false es))

end

section spelled

variable (num : Number → List Char)

theorem spellItems_first (v : Value) (vs : List Value) :
    spellItems num true (v :: vs) = spell num v ++ spellItems num false vs := by
  rw [spellItems, separator, if_pos rfl, List.nil_append]

theorem spellItems_next (v : Value) (vs : List Value) :
    spellItems num false (v :: vs) = ',' :: spellItems num true (v :: vs) := by
  rw [spellItems_first, spellItems, separator, if_neg Bool.false_ne_true, List.singleton_append]

theorem spellEntries_first (k : String) (v : Value) (es : List (String × Value)) :
    spellEntries num true ((k, v) :: es) =
      (Json.quote k).toList ++ ':' :: (spell num v ++ spellEntries num false es) := by
  rw [spellEntries, separator, if_pos rfl, List.nil_append]

theorem spellEntries_next (e : String × Value) (es : List (String × Value)) :
    spellEntries num false (e :: es) = ',' :: spellEntries num true (e :: es) := by
  rw [spellEntries_first, spellEntries, separator, if_neg Bool.false_ne_true, List.singleton_append]

end spelled

/-! ### The two texts -/

/-- Texts with commas between them. -/
def joined (first : Bool) : List (List Char) → List Char
  | [] => []
  | cs :: css => separator first ++ (cs ++ joined false css)

theorem intercalate_comma (css : List (List Char)) : [','].intercalate css = joined true css := by
  cases css with
  | nil => rfl
  | cons cs css =>
    induction css generalizing cs with
    | nil => simp [joined, separator]
    | cons ds css ih =>
      rw [List.intercalate_cons_of_ne_nil (List.cons_ne_nil ds css), ih]
      simp [joined, separator]

mutual

theorem toList_jsonText : (v : Value) → v.jsonText.toList = v.spell fun n => n.jsonToken.toList
  | null => rfl
  | bool _ => rfl
  | number n => rfl
  | text _ => rfl
  | list items => by
    simp [jsonText, spell, intercalate_comma, joined_jsonItems]
  | map entries => by
    simp [jsonText, spell, intercalate_comma, joined_jsonEntries]
  | object _ v => by
    rw [jsonText, spell, toList_jsonText v]

theorem joined_jsonItems : (vs : List Value) → (first : Bool) →
    joined first ((jsonItems vs).map String.toList) = spellItems (fun n => n.jsonToken.toList) first vs
  | [], _ => rfl
  | v :: vs, first => by
    rw [jsonItems, List.map_cons, joined, spellItems, toList_jsonText v, joined_jsonItems vs]

theorem joined_jsonEntries : (es : List (String × Value)) → (first : Bool) →
    joined first ((jsonEntries es).map String.toList) =
      spellEntries (fun n => n.jsonToken.toList) first es
  | [], _ => rfl
  | (k, v) :: es, first => by
    simp [jsonEntries, joined, spellEntries, toList_jsonText v, joined_jsonEntries es]

end

mutual

theorem toList_serialized : (v : Value) →
    v.toJson.write.toList = v.spell fun n => n.serialToken.toList
  | null => rfl
  | bool _ => rfl
  | number n => rfl
  | text _ => rfl
  | list items => by
    simp [toJson, Json.write, spell, intercalate_comma, joined_writeItems]
  | map entries => by
    simp [toJson, Json.write, spell, intercalate_comma, joined_writeEntries]
  | object _ v => by
    rw [toJson, spell, toList_serialized v]

theorem joined_writeItems : (vs : List Value) → (first : Bool) →
    joined first ((Json.writeItems (toJsonItems vs)).map String.toList) =
      spellItems (fun n => n.serialToken.toList) first vs
  | [], _ => rfl
  | v :: vs, first => by
    rw [toJsonItems, Json.writeItems, List.map_cons, joined, spellItems, toList_serialized v,
      joined_writeItems vs]

theorem joined_writeEntries : (es : List (String × Value)) → (first : Bool) →
    joined first ((Json.writeEntries (toJsonEntries es)).map String.toList) =
      spellEntries (fun n => n.serialToken.toList) first es
  | [], _ => rfl
  | (k, v) :: es, first => by
    simp [toJsonEntries, Json.writeEntries, joined, spellEntries, toList_serialized v,
      joined_writeEntries es]

end

/-! ### What a text determines -/

/-- A character that can stand in a spelling: it cannot end a value. -/
def isSpelling (c : Char) : Bool := c ≠ ',' && c ≠ ']' && c ≠ '}'

theorem endsRun_bracket (cs : List Char) : EndsRun isSpelling (']' :: cs) := endsRun_cons rfl

theorem endsRun_brace (cs : List Char) : EndsRun isSpelling ('}' :: cs) := endsRun_cons rfl

section inj

variable {num num' : Number → List Char} {cs cs' : List Char}

theorem endsRun_spellItems (vs : List Value) (h : EndsRun isSpelling cs) :
    EndsRun isSpelling (spellItems num false vs ++ cs) := by
  cases vs with
  | nil => exact h
  | cons v vs =>
    rw [spellItems_next]
    exact endsRun_cons rfl

theorem endsRun_spellEntries (es : List (String × Value)) (h : EndsRun isSpelling cs) :
    EndsRun isSpelling (spellEntries num false es ++ cs) := by
  cases es with
  | nil => exact h
  | cons e es =>
    rw [spellEntries_next]
    exact endsRun_cons rfl

mutual

theorem spell_append_inj (hnum : ∀ n, ∀ c ∈ num n, isSpelling c)
    (hnum' : ∀ n, ∀ c ∈ num' n, isSpelling c) : (v : Value) → ∀ cs cs',
    EndsRun isSpelling cs → EndsRun isSpelling cs' → v.spell num ++ cs = v.spell num' ++ cs' →
    cs = cs' ∧ ∀ n ∈ v.numbers, num n = num' n
  | null => by
    intro cs cs' _ _ heq
    rw [spell, spell] at heq
    exact ⟨List.append_cancel_left heq, nofun⟩
  | bool b => by
    intro cs cs' _ _ heq
    rw [spell, spell] at heq
    exact ⟨List.append_cancel_left heq, nofun⟩
  | number n => by
    intro cs cs' h h' heq
    rw [spell, spell] at heq
    obtain ⟨htoken, hrest⟩ := run_inj (hnum n) (hnum' n) h h' heq
    rw [numbers, List.forall_mem_singleton]
    exact ⟨hrest, htoken⟩
  | text s => by
    intro cs cs' _ _ heq
    rw [spell, spell] at heq
    exact ⟨List.append_cancel_left heq, nofun⟩
  | list items => by
    intro cs cs' _ _ heq
    simp only [spell, List.cons_append, List.append_assoc, List.cons.injEq, true_and,
      List.nil_append] at heq
    obtain ⟨hrest, htokens⟩ :=
      spellItems_append_inj hnum hnum' items true _ _ (endsRun_bracket _) (endsRun_bracket _) heq
    exact ⟨(List.cons.inj hrest).2, htokens⟩
  | map entries => by
    intro cs cs' _ _ heq
    simp only [spell, List.cons_append, List.append_assoc, List.cons.injEq, true_and,
      List.nil_append] at heq
    obtain ⟨hrest, htokens⟩ :=
      spellEntries_append_inj hnum hnum' entries true _ _ (endsRun_brace _) (endsRun_brace _) heq
    exact ⟨(List.cons.inj hrest).2, htokens⟩
  | object _ v => by
    intro cs cs' h h' heq
    rw [spell, spell] at heq
    exact spell_append_inj hnum hnum' v cs cs' h h' heq

theorem spellItems_append_inj (hnum : ∀ n, ∀ c ∈ num n, isSpelling c)
    (hnum' : ∀ n, ∀ c ∈ num' n, isSpelling c) : (vs : List Value) →
    ∀ first cs cs', EndsRun isSpelling cs → EndsRun isSpelling cs' →
    spellItems num first vs ++ cs = spellItems num' first vs ++ cs' →
    cs = cs' ∧ ∀ n ∈ numbersOfItems vs, num n = num' n
  | [] => by
    intro first cs cs' _ _ heq
    rw [spellItems, spellItems] at heq
    exact ⟨heq, nofun⟩
  | v :: vs => by
    intro first cs cs' h h' heq
    simp only [spellItems, List.append_assoc, List.append_cancel_left_eq] at heq
    obtain ⟨hrest, hv⟩ :=
      spell_append_inj hnum hnum' v _ _ (endsRun_spellItems vs h) (endsRun_spellItems vs h') heq
    obtain ⟨hcs, hvs⟩ := spellItems_append_inj hnum hnum' vs false cs cs' h h' hrest
    rw [numbersOfItems, List.forall_mem_append]
    exact ⟨hcs, hv, hvs⟩

theorem spellEntries_append_inj (hnum : ∀ n, ∀ c ∈ num n, isSpelling c)
    (hnum' : ∀ n, ∀ c ∈ num' n, isSpelling c) :
    (es : List (String × Value)) → ∀ first cs cs', EndsRun isSpelling cs → EndsRun isSpelling cs' →
    spellEntries num first es ++ cs = spellEntries num' first es ++ cs' →
    cs = cs' ∧ ∀ n ∈ numbersOfEntries es, num n = num' n
  | [] => by
    intro first cs cs' _ _ heq
    rw [spellEntries, spellEntries] at heq
    exact ⟨heq, nofun⟩
  | (k, v) :: es => by
    intro first cs cs' h h' heq
    simp only [spellEntries, List.append_assoc, List.cons_append, List.append_cancel_left_eq,
      List.cons.injEq, true_and] at heq
    obtain ⟨hrest, hv⟩ :=
      spell_append_inj hnum hnum' v _ _ (endsRun_spellEntries es h) (endsRun_spellEntries es h') heq
    obtain ⟨hcs, hes⟩ := spellEntries_append_inj hnum hnum' es false cs cs' h h' hrest
    rw [numbersOfEntries, List.forall_mem_append]
    exact ⟨hcs, hv, hes⟩

end

end inj

section congr

variable {num num' : Number → List Char}

mutual

theorem spell_congr : (v : Value) → (∀ n ∈ v.numbers, num n = num' n) → v.spell num = v.spell num'
  | null, _ => by rw [spell, spell]
  | bool _, _ => by rw [spell, spell]
  | number n, h => by
    rw [numbers, List.forall_mem_singleton] at h
    rw [spell, spell, h]
  | text _, _ => by rw [spell, spell]
  | list items, h => by
    rw [numbers] at h
    rw [spell, spell, spellItems_congr items true h]
  | map entries, h => by
    rw [numbers] at h
    rw [spell, spell, spellEntries_congr entries true h]
  | object _ v, h => by
    rw [numbers] at h
    rw [spell, spell, spell_congr v h]

theorem spellItems_congr : (vs : List Value) → (first : Bool) →
    (∀ n ∈ numbersOfItems vs, num n = num' n) → spellItems num first vs = spellItems num' first vs
  | [], _, _ => rfl
  | v :: vs, first, h => by
    rw [numbersOfItems, List.forall_mem_append] at h
    rw [spellItems, spellItems, spell_congr v h.1, spellItems_congr vs false h.2]

theorem spellEntries_congr : (es : List (String × Value)) → (first : Bool) →
    (∀ n ∈ numbersOfEntries es, num n = num' n) →
    spellEntries num first es = spellEntries num' first es
  | [], _, _ => rfl
  | (k, v) :: es, first, h => by
    rw [numbersOfEntries, List.forall_mem_append] at h
    rw [spellEntries, spellEntries, spell_congr v h.1, spellEntries_congr es false h.2]

end

/-- Two ways to spell numbers give a value one text exactly when they spell its numbers alike. -/
theorem spell_eq_iff (hnum : ∀ n, ∀ c ∈ num n, isSpelling c)
    (hnum' : ∀ n, ∀ c ∈ num' n, isSpelling c) (v : Value) :
    v.spell num = v.spell num' ↔ ∀ n ∈ v.numbers, num n = num' n := by
  refine ⟨fun h => ?_, spell_congr v⟩
  have heq : v.spell num ++ [] = v.spell num' ++ [] := congrArg (· ++ []) h
  exact (spell_append_inj hnum hnum' v [] [] endsRun_nil endsRun_nil heq).2

end congr

end Value

end Markup
