import Markup.AttributeMap.Layers
import Markup.Proofs.AttributeMap.Merge
import Markup.Proofs.ClassList

/-!
# The text of merged maps

`AttributeMap.text_mergeList`: the text of a list of maps merged into one is the text that
`textOfAll` reads off the list. `text_eq` takes the text of a map apart into the segments of its
keys, and the rest follows the list from its first map on, by `mergeList_cons`: what the merged
map has under a key is, for a class, the class texts joined (`classPart_mergeList`), for a style,
the closed styles joined (`stylePart_mergeList`), and for any other key the last value
(`get?_mergeList`).
-/

namespace Markup

/-- The class text that a class value adds. -/
def classPart : Option Value → String
  | some v => v.classText
  | none => ""

theorem intercalate_classItems_classParts (v : Option Value) :
    " ".intercalate (Value.classItems (classParts v)) = classPart v := by
  cases v with
  | none => rfl
  | some v =>
    by_cases hl : ∃ items, v = .list items
    · obtain ⟨items, rfl⟩ := hl
      rw [classParts, classPart, Value.classText]
    · have hp : classParts (some v) = if v.isTruthy then [v] else [] := by
        cases v with
        | list items => exact absurd ⟨items, rfl⟩ hl
        | _ => rfl
      cases ht : v.isTruthy with
      | true =>
        rw [hp, ht, if_pos rfl, Value.classItems_cons, Value.classItems, List.append_nil]
        exact intercalate_word v.classText
      | false =>
        rw [hp, ht, classPart, Value.classText_of_falsy ht]
        rfl

theorem classPart_mergedValue? (a b : Option Value) :
    classPart (mergedValue? "class" a b) = spaced (classPart a) (classPart b) := by
  cases b with
  | none => exact (spaced_empty _).symm
  | some v =>
    rw [mergedValue?_some, laidValue_class]
    rw [← intercalate_classItems_classParts a, ← intercalate_classItems_classParts (some v)]
    rw [← intercalate_append_words (Value.empty_notMem_classItems _)
      (Value.empty_notMem_classItems _), ← Value.classItems_append]
    rw [classPart, Value.classText]

namespace AttributeMap

/-! ### Keys in the order of their first occurrence -/

theorem keysOfAll_cons (m : AttributeMap) (ms : List AttributeMap) :
    keysOfAll (m :: ms) = m.keys ++ (keysOfAll ms).filter (· ∉ m.keys) := by
  have hr : (ms.flatMap keys).removeAll m.keys = (ms.flatMap keys).filter (· ∉ m.keys) := by
    refine List.filter_congr fun k _ => ?_
    simp
  have hm : m.keys.Nodup := m.nodup
  rw [keysOfAll, List.flatMap_cons, List.eraseDups_append, eraseDups_of_nodup hm, hr,
    eraseDups_filter]
  rfl

theorem keys_mergeList (ms : List AttributeMap) : (mergeList ms).keys = keysOfAll ms := by
  induction ms with
  | nil => rfl
  | cons m ms ih => rw [mergeList_cons, keys_merge, ih, keysOfAll_cons]

/-! ### Values under one key -/

theorem get?_mergeList_cons (m : AttributeMap) (ms : List AttributeMap) (key : String) :
    (mergeList (m :: ms)).get? key = mergedValue? key (m.get? key) ((mergeList ms).get? key) := by
  rw [mergeList_cons, get?_merge]

theorem classTexts_cons (m : AttributeMap) (ms : List AttributeMap) :
    " ".intercalate (classTexts (m :: ms)) =
      spaced (classPart (m.get? "class")) (" ".intercalate (classTexts ms)) := by
  have hms : "" ∉ classTexts ms := by simp [classTexts]
  cases h : m.get? "class" with
  | none =>
    have e : classTexts (m :: ms) = classTexts ms := by simp [classTexts, h]
    rw [e, classPart, empty_spaced]
  | some v =>
    have e : classTexts (m :: ms) = [v.classText].filter (· ≠ "") ++ classTexts ms := by
      rw [classTexts, List.filterMap_cons_some (b := v.classText) (by rw [h]; rfl)]
      exact List.filter_append [v.classText] _
    rw [e, intercalate_append_words (by simp) hms, intercalate_word, classPart]

theorem classPart_mergeList (ms : List AttributeMap) :
    classPart ((mergeList ms).get? "class") = " ".intercalate (classTexts ms) := by
  induction ms with
  | nil => rfl
  | cons m ms ih => rw [get?_mergeList_cons, classPart_mergedValue?, ih, classTexts_cons]

theorem join_closedStyles_cons (m : AttributeMap) (ms : List AttributeMap) :
    String.join (closedStyles (m :: ms)) =
      stylePart (m.get? "style") ++ String.join (closedStyles ms) := by
  unfold closedStyles
  cases h : m.get? "style" with
  | none =>
    rw [List.filterMap_cons_none (by rw [h]; rfl), stylePart, String.empty_append]
  | some v =>
    rw [List.filterMap_cons_some (b := closeDeclarations v.styleText) (by rw [h]; rfl),
      String.join_cons, stylePart]

theorem stylePart_mergeList (ms : List AttributeMap) :
    stylePart ((mergeList ms).get? "style") = String.join (closedStyles ms) := by
  induction ms with
  | nil => rfl
  | cons m ms ih =>
    rw [get?_mergeList_cons, stylePart_mergedValue?, ih, join_closedStyles_cons]

theorem get?_mergeList {key : String} (hc : key ≠ "class") (hs : key ≠ "style")
    (ms : List AttributeMap) : (mergeList ms).get? key = lastValue? ms key := by
  induction ms with
  | nil => rfl
  | cons m ms ih =>
    have hl : lastValue? (m :: ms) key = (lastValue? ms key).or (m.get? key) := by
      simp [lastValue?, List.findSome?_append]
    rw [get?_mergeList_cons, ih, hl]
    cases lastValue? ms key with
    | none => rfl
    | some v => rw [mergedValue?_some, laidValue_of_ne hc hs, Option.some_or]

theorem mem_keys_mergeList {ms : List AttributeMap} {key : String} :
    key ∈ (mergeList ms).keys ↔ ms.any (·.has key) = true := by
  simp [keys_mergeList, keysOfAll, List.any_eq_true, has_iff_mem]

theorem styleText_mergeList (ms : List AttributeMap) :
    (((mergeList ms).get? "style").getD .null).styleText = styleTextOfAll ms := by
  cases ms with
  | nil => rfl
  | cons m ms =>
    rw [get?_mergeList_cons, styleTextOfAll]
    cases h : (mergeList ms).get? "style" with
    | none =>
      have hany : ms.any (·.has "style") = false := by
        rw [← Bool.not_eq_true, ← mem_keys_mergeList]
        exact Entries.get?_eq_none_iff.mp h
      rw [hany, mergedValue?_none]
      cases m.get? "style" <;> rfl
    | some v =>
      have hany : ms.any (·.has "style") = true := by
        rw [← mem_keys_mergeList, ← has_iff_mem, has, Entries.has]
        exact Option.isSome_of_eq_some h
      have hv := stylePart_mergeList ms
      rw [h] at hv
      rw [hany, if_pos rfl, mergedValue?_some, laidValue_style, Option.getD_some,
        Value.styleText_text, hv, join_closedStyles_cons]

/-! ### Text -/

/-- The text of a key with a value. -/
def segment (terse : Bool) (key : String) (value : Value) : String :=
  attributeText key (shown key value) false terse

theorem attributeText_eq (key : String) (value : Value) (escaped terse : Bool) :
    attributeText key value escaped terse =
      ((Attribute.of? key value escaped terse).map Attribute.write).getD "" := by
  unfold attributeText
  cases Attribute.of? key value escaped terse <;> rfl

theorem join_write {α : Type} (f : α → Option Attribute) (xs : List α) :
    String.join ((xs.filterMap f).map Attribute.write) =
      String.join (xs.map fun x => ((f x).map Attribute.write).getD "") := by
  induction xs with
  | nil => rfl
  | cons x xs ih =>
    rw [List.map_cons, String.join_cons, ← ih]
    cases h : f x with
    | none =>
      rw [List.filterMap_cons_none h, Option.map_none, Option.getD_none, String.empty_append]
    | some a =>
      rw [List.filterMap_cons_some h, List.map_cons, String.join_cons, Option.map_some,
        Option.getD_some]

theorem segment_class (terse : Bool) (v : Value) :
    segment terse "class" v = attributeText "class" (.text v.classText) false terse := rfl

/-- The class list of a map, and a segment for every other key. -/
theorem text_eq (m : AttributeMap) (terse : Bool) :
    m.text terse =
      attributeText "class" (.text (classPart (m.get? "class"))) false terse ++
        String.join ((m.keys.filter (· ≠ "class")).map fun key =>
          segment terse key ((m.get? key).getD .null)) := by
  have he : (fun e : String × Value => ((Attribute.of? e.1 (shown e.1 e.2) false terse).map
      Attribute.write).getD "") = fun e => segment terse e.1 e.2 := by
    funext e
    exact (attributeText_eq ..).symm
  rw [text, attributes, join_write, he, List.map_append, String.join_append]
  congr 1
  · have hget : m.entries.get? "class" = m.get? "class" := rfl
    rw [Entries.filter_key m.nodup, hget]
    cases m.get? "class" with
    | none => rfl
    | some v => simp [segment_class, classPart]
  · have hes := Entries.eq_map_keys m.nodup .null
    have hkeys : m.entries.keys = m.keys := rfl
    rw [hkeys] at hes
    have hf : (fun e : String × Value => e.1 != "class") ∘
        (fun key => (key, (m.entries.get? key).getD .null)) =
          fun key => decide (key ≠ "class") := by
      funext key
      by_cases h : key = "class" <;> simp [h]
    rw [hes, List.filter_map, List.map_map, hf]
    rfl

theorem segment_mergeList {key : String} (hc : key ≠ "class") (ms : List AttributeMap)
    (terse : Bool) :
    segment terse key (((mergeList ms).get? key).getD .null) = segmentOfAll ms terse key := by
  rw [segment, segmentOfAll, shown, if_neg hc]
  by_cases hs : key = "style"
  · subst hs
    rw [if_pos rfl, if_pos rfl, styleText_mergeList]
  · rw [if_neg hs, if_neg hs, get?_mergeList hc hs]

/-- The text of maps merged from the left is the text read off the list of maps. -/
theorem text_mergeList (ms : List AttributeMap) (terse : Bool) :
    (mergeList ms).text terse = textOfAll ms terse := by
  rw [text_eq, textOfAll, classPart_mergeList, keys_mergeList]
  congr 2
  refine List.map_congr_left fun key h => ?_
  have hc : key ≠ "class" := by simpa using (List.mem_filter.mp h).2
  exact segment_mergeList hc ms terse

end AttributeMap

end Markup
