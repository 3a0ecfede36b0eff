import Markup.ClassList

/-!
# Class texts as words

A class text is words with single spaces between them. `spaced` puts two such texts together, and
`intercalate_append_words` says that it does to texts what `++` does to their words; for any number
of texts, `intercalate_flatten_words` says it of `flatten` and `foldl_spaced` of a text that grows
part by part. The parts of a list are the class texts of its items that are not empty
(`classItems_eq_filter`).
-/

namespace Markup

/-- Two texts with a space between them. An empty one leaves no space. -/
def spaced (s t : String) : String :=
  if s = "" then t else if t = "" then s else s ++ " " ++ t

@[simp] theorem spaced_empty (s : String) : spaced s "" = s := by
  unfold spaced
  split
  · next h => exact h.symm
  · rfl

@[simp] theorem empty_spaced (t : String) : spaced "" t = t := if_pos rfl

theorem spaced_assoc (s t u : String) : spaced (spaced s t) u = spaced s (spaced t u) := by
  by_cases ht : t = ""
  · rw [ht, spaced_empty, empty_spaced]
  · by_cases hs : s = ""
    · rw [hs, empty_spaced, empty_spaced]
    · by_cases hu : u = ""
      · rw [hu, spaced_empty, spaced_empty]
      · simp [spaced, hs, ht, hu, String.append_assoc]

theorem intercalate_ne_empty {ws : List String} (hw : "" ∉ ws) (hn : ws ≠ []) :
    " ".intercalate ws ≠ "" := by
  cases ws with
  | nil => exact absurd rfl hn
  | cons w ws =>
    have hne : w ≠ "" := fun h => hw (h ▸ List.mem_cons_self)
    by_cases h : ws = []
    · rw [h, String.intercalate_singleton]
      exact hne
    · rw [String.intercalate_cons_of_ne_nil h]
      intro he
      simp [hne] at he

theorem intercalate_append_words {us vs : List String} (hu : "" ∉ us) (hv : "" ∉ vs) :
    " ".intercalate (us ++ vs) = spaced (" ".intercalate us) (" ".intercalate vs) := by
  by_cases h : us = []
  · rw [h, List.nil_append, String.intercalate_nil, empty_spaced]
  · by_cases h' : vs = []
    · rw [h', List.append_nil, String.intercalate_nil, spaced_empty]
    · rw [String.intercalate_append_of_ne_nil h h', spaced, if_neg (intercalate_ne_empty hu h),
        if_neg (intercalate_ne_empty hv h')]

theorem intercalate_word (s : String) : " ".intercalate ([s].filter (· ≠ "")) = s := by
  by_cases h : s = "" <;> simp [h]

/-- Groups of words, joined group by group and then together. -/
theorem intercalate_flatten_words {groups : List (List String)} (h : ∀ ws ∈ groups, "" ∉ ws) :
    " ".intercalate groups.flatten =
      " ".intercalate ((groups.map (" ".intercalate)).filter (· ≠ "")) := by
  induction groups with
  | nil => rfl
  | cons ws groups ih =>
    obtain ⟨hws, hgroups⟩ := List.forall_mem_cons.mp h
    have hflatten : "" ∉ groups.flatten := by simpa using fun ws hmem => hgroups ws hmem
    have hcons : ((ws :: groups).map (" ".intercalate)).filter (· ≠ "") =
        [" ".intercalate ws].filter (· ≠ "") ++ (groups.map (" ".intercalate)).filter (· ≠ "") :=
      List.filter_append [" ".intercalate ws] _
    rw [hcons, intercalate_append_words (by simp) (by simp), intercalate_word, ← ih hgroups,
      List.flatten_cons, intercalate_append_words hws hflatten]

/-- A text that grows part by part, with a space where it and the part are not empty. -/
theorem foldl_spaced (parts : List String) (s : String) :
    parts.foldl spaced s = spaced s (" ".intercalate (parts.filter (· ≠ ""))) := by
  induction parts generalizing s with
  | nil => exact (spaced_empty s).symm
  | cons part parts ih =>
    have hcons : (part :: parts).filter (· ≠ "") =
        [part].filter (· ≠ "") ++ parts.filter (· ≠ "") := List.filter_append [part] _
    rw [List.foldl_cons, ih, spaced_assoc, hcons, intercalate_append_words (by simp) (by simp),
      intercalate_word]

namespace Value

theorem classText_of_falsy {v : Value} (h : v.isTruthy = false) : v.classText = "" := by
  cases v with
  | null => rfl
  | bool b =>
    rw [isTruthy] at h
    rw [h]
    rfl
  | number n =>
    rw [classText, h]
    rfl
  | text s =>
    rw [classText]
    simpa [isTruthy] using h
  | list | map | object => cases h

theorem classItems_eq_filter (vs : List Value) :
    classItems vs = (vs.map classText).filter (· ≠ "") := by
  induction vs with
  | nil => rfl
  | cons v vs ih => by_cases h : v.classText = "" <;> simp [classItems, h, ih]

theorem classItems_append (us vs : List Value) :
    classItems (us ++ vs) = classItems us ++ classItems vs := by
  simp only [classItems_eq_filter, List.map_append, List.filter_append]

theorem classItems_cons (v : Value) (vs : List Value) :
    classItems (v :: vs) = [v.classText].filter (· ≠ "") ++ classItems vs := by
  rw [← List.singleton_append, classItems_append, classItems_eq_filter [v], List.map_singleton]

theorem empty_notMem_classItems (vs : List Value) : "" ∉ classItems vs := by
  rw [classItems_eq_filter]
  simp

/-- The text of a list, written from its first item on. -/
theorem classText_list (vs : List Value) :
    (list vs).classText = (vs.map classText).foldl spaced "" := by
  rw [classText, classItems_eq_filter, foldl_spaced, empty_spaced]

end Value

end Markup
