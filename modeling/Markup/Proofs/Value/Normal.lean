import Markup.Attribute
import Markup.Proofs.Entries

/-!
# The normal form of a value

The JSON text of a value is that of its normal form (`jsonText_normal`), which nests as deep and has
the same keys. For a value without objects and numbers that are not finite, the normal form also has
the same text in markup, as an attribute, a class list and a style: `text_of_normalEntries`.

- `Value.mapNumbers`: a value with its numbers replaced.
- `Value.isPlain`: no object in the value, and no number that is not finite.
-/

namespace Markup

namespace Value

mutual

/-- The value with every number replaced, objects through their projections. -/
def mapNumbers (f : Number → Number) : Value → Value
  | null => null
  | bool b => bool b
  | number n => number (f n)
  | text s => text s
  | list items => list (mapNumbersOfItems f items)
  | map entries => map (mapNumbersOfEntries f entries)
  | object id v => object id (mapNumbers f v)

def mapNumbersOfItems (f : Number → Number) : List Value → List Value
  | [] => []
  | v :: vs => mapNumbers f v :: mapNumbersOfItems f vs

def mapNumbersOfEntries (f : Number → Number) : List (String × Value) → List (String × Value)
  | [] => []
  | (k, v) :: es => (k, mapNumbers f v) :: mapNumbersOfEntries f es

end

mutual

/-- Nothing changes exactly when no number of the value does. -/
theorem mapNumbers_eq_iff (f : Number → Number) :
    (v : Value) → (v.mapNumbers f = v ↔ ∀ n ∈ v.numbers, f n = n)
  | null => by simp [mapNumbers, numbers]
  | bool _ => by simp [mapNumbers, numbers]
  | number n => by simp [mapNumbers, numbers]
  | text _ => by simp [mapNumbers, numbers]
  | list items => by
    rw [mapNumbers, list.injEq, mapNumbersOfItems_eq_iff f items, numbers]
  | map entries => by
    rw [mapNumbers, map.injEq, mapNumbersOfEntries_eq_iff f entries, numbers]
  | object id v => by
    rw [mapNumbers, object.injEq, mapNumbers_eq_iff f v, numbers]
    exact and_iff_right rfl

theorem mapNumbersOfItems_eq_iff (f : Number → Number) :
    (vs : List Value) → (mapNumbersOfItems f vs = vs ↔ ∀ n ∈ numbersOfItems vs, f n = n)
  | [] => by simp [mapNumbersOfItems, numbersOfItems]
  | v :: vs => by
    rw [mapNumbersOfItems, List.cons.injEq, mapNumbers_eq_iff f v, mapNumbersOfItems_eq_iff f vs,
      numbersOfItems, List.forall_mem_append]

theorem mapNumbersOfEntries_eq_iff (f : Number → Number) :
    (es : List (String × Value)) →
      (mapNumbersOfEntries f es = es ↔ ∀ n ∈ numbersOfEntries es, f n = n)
  | [] => by simp [mapNumbersOfEntries, numbersOfEntries]
  | (k, v) :: es => by
    rw [mapNumbersOfEntries, List.cons.injEq, Prod.mk.injEq, mapNumbers_eq_iff f v,
      mapNumbersOfEntries_eq_iff f es, numbersOfEntries, List.forall_mem_append]
    exact and_congr_left fun _ => and_iff_right rfl

end

theorem keys_mapNumbersOfEntries (f : Number → Number) (es : List (String × Value)) :
    Entries.keys (mapNumbersOfEntries f es) = Entries.keys es := by
  induction es with
  | nil => rfl
  | cons e es ih => rw [mapNumbersOfEntries, Entries.keys_cons, Entries.keys_cons, ih]

theorem keys_normalEntries (es : List (String × Value)) :
    Entries.keys (normalEntries es) = Entries.keys es := by
  induction es with
  | nil => rfl
  | cons e es ih => rw [normalEntries, Entries.keys_cons, Entries.keys_cons, ih]

/-! ### Text and depth -/

theorem ofPlain_zero {s : Bool} {m : Magnitude} (h : m.isZero = true) :
    ofPlain (.finite s m) = number .zero := if_pos h

theorem ofPlain_nonzero {s : Bool} {m : Magnitude} (h : m.isZero = false) :
    ofPlain (.finite s m) = number (.finite s m) := if_neg (by simp [h])

theorem jsonText_ofPlain (n : Number) : (ofPlain n).jsonText = (number n).jsonText := by
  cases n with
  | nan => rfl
  | infinite s => rfl
  | finite s m =>
    cases h : m.isZero with
    | true =>
      rw [ofPlain_zero h]
      simp [jsonText, Number.isFinite, Number.display, h]
      rfl
    | false => rw [ofPlain_nonzero h]

mutual

/-- A value and its normal form have the same JSON text. -/
theorem jsonText_normal : (v : Value) → v.normal.jsonText = v.jsonText
  | null => rfl
  | bool _ => rfl
  | number n => jsonText_ofPlain n
  | text _ => rfl
  | list items => by rw [normal, jsonText, jsonText, jsonItems_normal items]
  | map entries => by rw [normal, jsonText, jsonText, jsonEntries_normal entries]
  | object _ v => by rw [normal, jsonText, jsonText_normal v]

theorem jsonItems_normal : (vs : List Value) → jsonItems (normalItems vs) = jsonItems vs
  | [] => rfl
  | v :: vs => by rw [normalItems, jsonItems, jsonItems, jsonText_normal v, jsonItems_normal vs]

theorem jsonEntries_normal :
    (es : List (String × Value)) → jsonEntries (normalEntries es) = jsonEntries es
  | [] => rfl
  | (k, v) :: es => by
    rw [normalEntries, jsonEntries, jsonEntries, jsonText_normal v, jsonEntries_normal es]

end

theorem depth_ofPlain (n : Number) : (ofPlain n).depth = 0 := by
  cases n with
  | nan => rfl
  | infinite s => rfl
  | finite s m =>
    cases h : m.isZero with
    | true => rw [ofPlain_zero h, depth]
    | false => rw [ofPlain_nonzero h, depth]

mutual

theorem depth_normal : (v : Value) → v.normal.depth = v.depth
  | null => rfl
  | bool _ => rfl
  | number n => depth_ofPlain n
  | text _ => rfl
  | list items => by rw [normal, depth, depth, depthItems_normal items]
  | map entries => by rw [normal, depth, depth, depthEntries_normal entries]
  | object _ v => by rw [normal, depth, depth_normal v]

theorem depthItems_normal : (vs : List Value) → depthItems (normalItems vs) = depthItems vs
  | [] => rfl
  | v :: vs => by rw [normalItems, depthItems, depthItems, depth_normal v, depthItems_normal vs]

theorem depthEntries_normal :
    (es : List (String × Value)) → depthEntries (normalEntries es) = depthEntries es
  | [] => rfl
  | (k, v) :: es => by
    rw [normalEntries, depthEntries, depthEntries, depth_normal v, depthEntries_normal es]

end

/-! ### Values that no text tells from their normal form -/

mutual

/-- No object in the value, and no number that is not finite. -/
def isPlain : Value → Bool
  | null | bool _ | text _ => true
  | number n => n.isFinite
  | list items => itemsArePlain items
  | map entries => entriesArePlain entries
  | object _ _ => false

def itemsArePlain : List Value → Bool
  | [] => true
  | v :: vs => isPlain v && itemsArePlain vs

def entriesArePlain : List (String × Value) → Bool
  | [] => true
  | (_, v) :: es => isPlain v && entriesArePlain es

end

/-- A finite number and its normal form: the same number, or both zero. -/
theorem ofPlain_cases {n : Number} (h : n.isFinite = true) :
    ofPlain n = number n ∨ ofPlain n = number .zero ∧ n.isZero = true := by
  cases n with
  | nan => cases h
  | infinite s => cases h
  | finite s m =>
    cases hz : m.isZero with
    | true => exact .inr ⟨ofPlain_zero hz, hz⟩
    | false => exact .inl (ofPlain_nonzero hz)

theorem display_of_isZero {n : Number} (h : n.isZero = true) : n.display = "0" := by
  cases n with
  | nan => cases h
  | infinite s => cases h
  | finite s m => exact if_pos h

theorem isTruthy_of_isZero {n : Number} (h : n.isZero = true) : (number n).isTruthy = false := by
  rw [isTruthy, h]
  rfl

theorem isNull_normal {v : Value} (h : v.isPlain = true) : v.normal.isNull = v.isNull := by
  cases v with
  | null | bool b | text s | list items | map entries => rfl
  | number n =>
    rcases ofPlain_cases h with heq | ⟨heq, -⟩
    · rw [normal, heq]
    · rw [normal, heq]
      rfl
  | object id v => cases h

theorem isTruthy_normal {v : Value} (h : v.isPlain = true) : v.normal.isTruthy = v.isTruthy := by
  cases v with
  | null | bool b | text s | list items | map entries => rfl
  | number n =>
    rcases ofPlain_cases h with heq | ⟨heq, hzero⟩ <;> rw [normal, heq]
    rw [isTruthy_of_isZero hzero]
    rfl
  | object id v => cases h

theorem display_ofPlain {n : Number} (h : n.isFinite = true) : (ofPlain n).display = n.display := by
  rcases ofPlain_cases h with heq | ⟨heq, hzero⟩
  · rw [heq, display]
  · rw [heq, display, display_of_isZero hzero]
    rfl

mutual

theorem display_normal : (v : Value) → v.isPlain = true → v.normal.display = v.display
  | null, _ => rfl
  | bool _, _ => rfl
  | number n, h => by rw [normal, display_ofPlain h, display]
  | text _, _ => rfl
  | list items, h => by rw [normal, display, display, displayItems_normal items h]
  | map entries, _ => rfl
  | object _ v, h => nomatch h

theorem displayItems_normal : (vs : List Value) → itemsArePlain vs = true →
    displayItems (normalItems vs) = displayItems vs
  | [], _ => rfl
  | v :: vs, h => by
    obtain ⟨hv, hvs⟩ := Bool.and_eq_true_iff.mp h
    rw [normalItems, displayItems, displayItems, isNull_normal hv, display_normal v hv,
      displayItems_normal vs hvs]

end

theorem chosenKeys_normal : (es : List (String × Value)) → entriesArePlain es = true →
    chosenKeys (normalEntries es) = chosenKeys es
  | [], _ => rfl
  | (k, v) :: es, h => by
    obtain ⟨hv, hes⟩ := Bool.and_eq_true_iff.mp h
    rw [normalEntries, chosenKeys, chosenKeys, isTruthy_normal hv, chosenKeys_normal es hes]

mutual

theorem classText_normal : (v : Value) → v.isPlain = true → v.normal.classText = v.classText
  | null, _ => rfl
  | bool _, _ => rfl
  | number n, h => by
    rcases ofPlain_cases h with heq | ⟨heq, hzero⟩ <;> rw [normal, heq]
    rw [classText, classText, isTruthy_of_isZero hzero]
    rfl
  | text _, _ => rfl
  | list items, h => by rw [normal, classText, classText, classItems_normal items h]
  | map entries, h => by rw [normal, classText, classText, chosenKeys_normal entries h]
  | object _ v, h => nomatch h

theorem classItems_normal : (vs : List Value) → itemsArePlain vs = true →
    classItems (normalItems vs) = classItems vs
  | [], _ => rfl
  | v :: vs, h => by
    obtain ⟨hv, hvs⟩ := Bool.and_eq_true_iff.mp h
    rw [normalItems, classItems, classItems, classText_normal v hv, classItems_normal vs hvs]

end

theorem declarations_normal : (es : List (String × Value)) → entriesArePlain es = true →
    (normalEntries es).map (fun e => declaration e.1 e.2.display) =
      es.map fun e => declaration e.1 e.2.display
  | [], _ => rfl
  | (k, v) :: es, h => by
    obtain ⟨hv, hes⟩ := Bool.and_eq_true_iff.mp h
    rw [normalEntries, List.map_cons, List.map_cons, declarations_normal es hes]
    dsimp only
    rw [display_normal v hv]

theorem indexedDeclarations_normal : (i : Nat) → (vs : List Value) → itemsArePlain vs = true →
    indexedDeclarations i (normalItems vs) = indexedDeclarations i vs
  | _, [], _ => rfl
  | i, v :: vs, h => by
    obtain ⟨hv, hvs⟩ := Bool.and_eq_true_iff.mp h
    rw [normalItems, indexedDeclarations, indexedDeclarations, display_normal v hv,
      indexedDeclarations_normal (i + 1) vs hvs]

theorem styleText_normal {v : Value} (h : v.isPlain = true) : v.normal.styleText = v.styleText := by
  cases v with
  | null | bool b | text s => rfl
  | number n =>
    have htruthy := isTruthy_normal h
    have hdisplay := display_normal (number n) h
    rcases ofPlain_cases h with heq | ⟨heq, -⟩ <;> rw [normal, heq] at htruthy hdisplay ⊢
    show (if (number .zero).isTruthy then (number .zero).display else "") =
      if (number n).isTruthy then (number n).display else ""
    rw [htruthy, hdisplay]
  | list items => rw [normal, styleText, styleText, indexedDeclarations_normal 0 items h]
  | map entries => exact congrArg String.join (declarations_normal entries h)
  | object id v => cases h

end Value

/-! ### Markup -/

/-- A number is written by its truth value and its JSON text. -/
theorem Attribute.of?_number {a b : Number} (key : String) (escaped terse : Bool)
    (htruthy : (Value.number a).isTruthy = (Value.number b).isTruthy)
    (hjson : (Value.number a).jsonText = (Value.number b).jsonText) :
    Attribute.of? key (.number a) escaped terse = Attribute.of? key (.number b) escaped terse := by
  simp only [Attribute.of?, Attribute.quoted, Attribute.projected, htruthy, hjson]

theorem Attribute.of?_normal {v : Value} (h : v.isPlain = true) (key : String) (escaped terse : Bool) :
    Attribute.of? key v.normal escaped terse = Attribute.of? key v escaped terse := by
  have hjson := v.jsonText_normal
  cases v with
  | null | bool b | text s => rfl
  | number n =>
    have htruthy := Value.isTruthy_normal h
    rcases Value.ofPlain_cases h with heq | ⟨heq, -⟩ <;>
      rw [Value.normal, heq] at hjson htruthy ⊢
    exact of?_number key escaped terse htruthy hjson
  | list items | map entries =>
    rw [Value.normal] at hjson ⊢
    simp only [of?, quoted, projected, hjson, Value.isTruthy]
    rfl
  | object id v => cases h

namespace AttributeMap

theorem shown_normal {v : Value} (h : v.isPlain = true) (key : String) (escaped terse : Bool) :
    Attribute.of? key (shown key v.normal) escaped terse =
      Attribute.of? key (shown key v) escaped terse := by
  unfold shown
  rw [Value.classText_normal v h, Value.styleText_normal h]
  split
  · rfl
  · split
    · rfl
    · exact Attribute.of?_normal h key escaped terse

/-- Entries in normal form are written as the entries themselves. -/
theorem text_of_normalEntries {m m' : AttributeMap} (h : m'.entries = Value.normalEntries m.entries)
    (hplain : Value.entriesArePlain m.entries = true) (terse : Bool) : m'.text terse = m.text terse := by
  have hwritten : (es : Entries Value) → Value.entriesArePlain es = true → (p : String → Bool) →
      ((Value.normalEntries es).filter (fun e => p e.1)).filterMap
          (fun e => Attribute.of? e.1 (shown e.1 e.2) false terse) =
        (es.filter fun e => p e.1).filterMap fun e => Attribute.of? e.1 (shown e.1 e.2) false terse := by
    intro es hes p
    induction es with
    | nil => rfl
    | cons e es ih =>
      obtain ⟨hv, hes⟩ := Bool.and_eq_true_iff.mp hes
      rw [Value.normalEntries, List.filter_cons, List.filter_cons]
      split
      · rw [List.filterMap_cons, List.filterMap_cons, ih hes]
        dsimp only
        rw [shown_normal hv]
      · exact ih hes
  have hattributes : m'.attributes terse = m.attributes terse := by
    unfold attributes
    rw [List.filterMap_append, List.filterMap_append, h]
    exact congr (congrArg _ (hwritten m.entries hplain (· == "class")))
      (hwritten m.entries hplain (· != "class"))
  rw [text, text, hattributes]

end AttributeMap

end Markup
