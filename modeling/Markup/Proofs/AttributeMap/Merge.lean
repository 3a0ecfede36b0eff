import Markup.AttributeMap.Merge
import Markup.Proofs.Entries

/-!
# Laws of merging

Merging treats each key on its own. `mergedValue? key` combines the values that the two sides give
a key; `get?_merge` and `keys_merge` say that a merge holds just these, the keys of the left side
first. A law of merging is then a law of `mergedValue?` and one of lists of keys.

Styles are the delicate part: a merged style is text that is read again as a style by the next
merge. That changes nothing, since joined declarations are closed (`IsClosed`).
-/

namespace Markup

/-! ### Closed declarations -/

/-- Nothing, or declarations that end with a semicolon. -/
def IsClosed (s : String) : Prop := s = "" ∨ s.toList.getLast? = some ';'

theorem closeDeclarations_of_isClosed {s : String} (h : IsClosed s) : closeDeclarations s = s :=
  if_pos h

theorem isClosed_closeDeclarations (s : String) : IsClosed (closeDeclarations s) := by
  unfold closeDeclarations
  split
  · assumption
  · exact .inr (by simp)

theorem IsClosed.append {s t : String} (hs : IsClosed s) (ht : IsClosed t) : IsClosed (s ++ t) := by
  rcases ht with rfl | ht
  · simpa using hs
  · refine .inr ?_
    rw [String.toList_append, List.getLast?_append, ht]
    rfl

theorem Value.styleText_text (s : String) : (Value.text s).styleText = s := by
  by_cases h : s = ""
  · simp [Value.styleText, Value.isTruthy, h]
  · simp [Value.styleText, Value.isTruthy, Value.display, h]

theorem isClosed_stylePart (v : Option Value) : IsClosed (stylePart v) := by
  cases v with
  | none => exact .inl rfl
  | some v => exact isClosed_closeDeclarations _

theorem stylePart_text {s : String} (h : IsClosed s) : stylePart (some (.text s)) = s := by
  rw [stylePart, Value.styleText_text, closeDeclarations_of_isClosed h]

/-! ### One key -/

/-- The value of a key after a value was laid over the one it had. -/
def laidValue (key : String) (old : Option Value) (value : Value) : Value :=
  if key = "class" then .list (classParts old ++ classParts (some value))
  else if key = "style" then .text (stylePart old ++ stylePart (some value))
  else value

/-- The value of a key in a merge, from its values on the two sides. -/
def mergedValue? (key : String) (a : Option Value) : Option Value → Option Value
  | none => a
  | some v => some (laidValue key a v)

@[simp] theorem mergedValue?_none (key : String) (a : Option Value) :
    mergedValue? key a none = a := rfl

@[simp] theorem mergedValue?_some (key : String) (a : Option Value) (v : Value) :
    mergedValue? key a (some v) = some (laidValue key a v) := rfl

theorem laidValue_class (a : Option Value) (v : Value) :
    laidValue "class" a v = .list (classParts a ++ classParts (some v)) := if_pos rfl

theorem laidValue_style (a : Option Value) (v : Value) :
    laidValue "style" a v = .text (stylePart a ++ stylePart (some v)) := by
  rw [laidValue, if_neg (by decide), if_pos rfl]

theorem laidValue_of_ne {key : String} (hc : key ≠ "class") (hs : key ≠ "style")
    (a : Option Value) (v : Value) : laidValue key a v = v := by
  rw [laidValue, if_neg hc, if_neg hs]

theorem classParts_mergedValue? (a b : Option Value) :
    classParts (mergedValue? "class" a b) = classParts a ++ classParts b := by
  cases b with
  | none => exact (List.append_nil _).symm
  | some v => rw [mergedValue?_some, laidValue_class, classParts]

theorem stylePart_mergedValue? (a b : Option Value) :
    stylePart (mergedValue? "style" a b) = stylePart a ++ stylePart b := by
  cases b with
  | none => simp [stylePart]
  | some v =>
    rw [mergedValue?_some, laidValue_style]
    exact stylePart_text ((isClosed_stylePart a).append (isClosed_stylePart (some v)))

/-- What `a` and `b` give to a class or a style is the same whether or not `b` has the key, so it
does not matter which of the two merges comes first. -/
theorem mergedValue?_assoc (key : String) (a b c : Option Value) :
    mergedValue? key (mergedValue? key a b) c = mergedValue? key a (mergedValue? key b c) := by
  cases c with
  | none => rfl
  | some v =>
    simp only [mergedValue?_some, Option.some.injEq]
    by_cases hc : key = "class"
    · subst hc
      have hb := classParts_mergedValue? b (some v)
      rw [mergedValue?_some] at hb
      rw [laidValue_class, laidValue_class, classParts_mergedValue?, hb, List.append_assoc]
    · by_cases hs : key = "style"
      · subst hs
        have hb := stylePart_mergedValue? b (some v)
        rw [mergedValue?_some] at hb
        rw [laidValue_style, laidValue_style, stylePart_mergedValue?, hb, String.append_assoc]
      · rw [laidValue_of_ne hc hs, laidValue_of_ne hc hs, laidValue_of_ne hc hs]

namespace AttributeMap

theorem has_iff_mem {m : AttributeMap} {key : String} : m.has key = true ↔ key ∈ m.keys :=
  Entries.get?_isSome_iff

/-! ### Keys and values of a merge -/

theorem lay_eq_insert (m : AttributeMap) (key : String) (value : Value) :
    m.lay key value = m.insert key (laidValue key (m.get? key) value) := by
  unfold lay laidValue
  split
  · rfl
  · split <;> rfl

theorem get?_lay_self (m : AttributeMap) (key : String) (value : Value) :
    (m.lay key value).get? key = some (laidValue key (m.get? key) value) := by
  rw [lay_eq_insert]
  exact Entries.get?_put_self ..

theorem get?_lay_of_ne (m : AttributeMap) {key other : String} (value : Value) (h : other ≠ key) :
    (m.lay key value).get? other = m.get? other := by
  rw [lay_eq_insert]
  exact Entries.get?_put_of_ne _ _ h

theorem keys_lay (m : AttributeMap) (key : String) (value : Value) :
    (m.lay key value).keys = if key ∈ m.keys then m.keys else m.keys ++ [key] := by
  rw [lay_eq_insert]
  exact Entries.keys_put ..

/-- The entries laid over a map, one after the other. -/
def layAll (m : AttributeMap) (es : Entries Value) : AttributeMap :=
  es.foldl (fun m e => m.lay e.1 e.2) m

theorem layAll_cons (m : AttributeMap) (e : String × Value) (es : Entries Value) :
    m.layAll (e :: es) = (m.lay e.1 e.2).layAll es := rfl

theorem get?_layAll {es : Entries Value} (hn : es.keys.Nodup) (m : AttributeMap) (key : String) :
    (m.layAll es).get? key = mergedValue? key (m.get? key) (Entries.get? es key) := by
  induction es generalizing m with
  | nil => rfl
  | cons e es ih =>
    rw [Entries.keys_cons, List.nodup_cons] at hn
    rw [layAll_cons, ih hn.2]
    by_cases hk : e.1 = key
    · subst hk
      have hnone : Entries.get? es e.1 = none := Entries.get?_eq_none_iff.mpr hn.1
      rw [get?_lay_self, hnone, Entries.get?_cons_self]
      rfl
    · rw [get?_lay_of_ne m e.2 (Ne.symm hk), Entries.get?_cons_of_ne es hk]

theorem keys_layAll {es : Entries Value} (hn : es.keys.Nodup) (m : AttributeMap) :
    (m.layAll es).keys = m.keys ++ (Entries.keys es).filter (· ∉ m.keys) := by
  induction es generalizing m with
  | nil => simp [layAll]
  | cons e es ih =>
    rw [Entries.keys_cons, List.nodup_cons] at hn
    rw [layAll_cons, ih hn.2, keys_lay, Entries.keys_cons]
    by_cases hk : e.1 ∈ m.keys
    · simp [hk]
    · have hrest : (Entries.keys es).filter (· ∉ m.keys ++ [e.1]) =
          (Entries.keys es).filter (· ∉ m.keys) := by
        refine List.filter_congr fun k h => ?_
        have hne : k ≠ e.1 := fun he => hn.1 (he ▸ h)
        simp [hne]
      rw [if_neg hk, hrest, List.filter_cons_of_pos (by simpa using hk)]
      simp

theorem get?_merge (a b : AttributeMap) (key : String) :
    (a.merge b).get? key = mergedValue? key (a.get? key) (b.get? key) :=
  get?_layAll b.nodup a key

theorem keys_merge (a b : AttributeMap) :
    (a.merge b).keys = a.keys ++ b.keys.filter (· ∉ a.keys) :=
  keys_layAll b.nodup a

theorem mem_keys_merge {a b : AttributeMap} {key : String} :
    key ∈ (a.merge b).keys ↔ key ∈ a.keys ∨ key ∈ b.keys := by
  rw [keys_merge, List.mem_append, List.mem_filter]
  by_cases h : key ∈ a.keys <;> simp [h]

/-- Maps with the same keys in the same order and the same values are the same. -/
theorem ext_get? {a b : AttributeMap} (hk : a.keys = b.keys) (hv : ∀ key, a.get? key = b.get? key) :
    a = b :=
  ext (Entries.ext_get? a.nodup hk fun key _ => hv key)

/-! ### Algebra -/

theorem merge_empty (a : AttributeMap) : a.merge empty = a := rfl

theorem keys_merge_assoc (a b c : AttributeMap) :
    ((a.merge b).merge c).keys = (a.merge (b.merge c)).keys := by
  have hc : c.keys.filter (· ∉ (a.merge b).keys) =
      (c.keys.filter (· ∉ b.keys)).filter (· ∉ a.keys) := by
    rw [List.filter_filter]
    refine List.filter_congr fun k _ => ?_
    simp [mem_keys_merge]
  rw [keys_merge (a.merge b), hc, keys_merge, keys_merge, keys_merge, List.filter_append,
    List.append_assoc]

theorem merge_assoc (a b c : AttributeMap) : (a.merge b).merge c = a.merge (b.merge c) := by
  refine ext_get? (keys_merge_assoc a b c) fun key => ?_
  rw [get?_merge, get?_merge, get?_merge, get?_merge, mergedValue?_assoc]

theorem foldl_merge (a b : AttributeMap) (ms : List AttributeMap) :
    ms.foldl merge (a.merge b) = a.merge (ms.foldl merge b) := by
  induction ms generalizing b with
  | nil => rfl
  | cons m ms ih => rw [List.foldl_cons, List.foldl_cons, merge_assoc, ih]

/-- The first map with all the others, themselves merged, laid over it. -/
theorem mergeList_cons (m : AttributeMap) (ms : List AttributeMap) :
    mergeList (m :: ms) = m.merge (mergeList ms) := by
  cases ms with
  | nil => rfl
  | cons n ms => exact foldl_merge m n ms

theorem mergeList_append (m : AttributeMap) (ms ns : List AttributeMap) :
    mergeList (m :: ms ++ ns) = (mergeList (m :: ms)).merge (mergeList ns) := by
  induction ms generalizing m with
  | nil => exact mergeList_cons m ns
  | cons n ms ih =>
    rw [List.cons_append, mergeList_cons, ih, mergeList_cons m, merge_assoc]

/-- Merging is associative, entry by entry and in the order of the keys. So a list of maps may be
cut anywhere after its first map and the parts merged on their own, and an empty map laid over
another leaves it as it is. -/
theorem merge_laws :
    (∀ a b c : AttributeMap, (a.merge b).merge c = a.merge (b.merge c)) ∧
    (∀ (m : AttributeMap) (ms ns : List AttributeMap),
      mergeList (m :: ms ++ ns) = (mergeList (m :: ms)).merge (mergeList ns)) ∧
    (∀ a : AttributeMap, a.merge empty = a) :=
  ⟨merge_assoc, mergeList_append, merge_empty⟩

end AttributeMap

end Markup
