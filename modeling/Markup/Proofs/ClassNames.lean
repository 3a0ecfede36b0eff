import Mathlib.Logic.Relation
import Markup.Proofs.ClassList
import Markup.Proofs.Escape.Entities
import Markup.Proofs.Number.Digits

/-!
# Class names

The class text of a value is its class names with single spaces between them, however deep they
stand (`classText_eq`). A part is skipped for its empty text, and no name is empty
(`empty_notMem_classNames`), so that a part without text is one without names.

- `Flattens`: a list in a list taken apart, or an item without names left out, at any depth. Neither
  changes the names (`Flattens.classNames_eq`), so no number of such changes shows in the text.
- `flaggedNames`: the names of list items, each escaped as the flag at the place of its item says.
  Escaping goes through the spaces between names (`escape_intercalate`), so that escaping the text
  of an item escapes its names (`classTextEscaping_list`).
-/

namespace Markup

theorem Number.display_ne_empty (n : Number) : n.display ≠ "" := by
  have signed_ne_empty {negative : Bool} {body : List Char} (h : body ≠ []) :
      signed negative body ≠ "" := by cases negative <;> simp [signed, h]
  cases n with
  | nan => decide
  | infinite negative => exact signed_ne_empty (by decide)
  | finite negative m =>
    rw [display]
    split
    · decide
    · refine signed_ne_empty ?_
      split
      · exact Decimal.scientific_ne_nil _
      · exact Decimal.plain_ne_nil _

namespace Value

/-! ### Names -/

theorem chosenKeys_eq_map_filter (entries : List (String × Value)) :
    chosenKeys entries =
      (entries.filter fun (key, v) => key ≠ "" ∧ v.isTruthy).map Prod.fst := by
  induction entries with
  | nil => rfl
  | cons e entries ih =>
    by_cases h : e.1 ≠ "" ∧ e.2.isTruthy = true <;> simp [chosenKeys, h, ih]

theorem empty_notMem_chosenKeys (entries : List (String × Value)) :
    "" ∉ chosenKeys entries := by
  simp [chosenKeys_eq_map_filter]

theorem chosenKeys_append (ds es : List (String × Value)) :
    chosenKeys (ds ++ es) = chosenKeys ds ++ chosenKeys es := by
  simp only [chosenKeys_eq_map_filter, List.filter_append, List.map_append]

theorem classNames_number (n : Number) :
    (number n).classNames = if (number n).isTruthy then [n.display] else [] := by
  simp [classNames, display]

mutual

theorem empty_notMem_classNames : (v : Value) → "" ∉ v.classNames
  | list items => by rw [classNames]; exact empty_notMem_classNamesOfItems items
  | map entries => by rw [classNames]; exact empty_notMem_chosenKeys entries
  | object _ v => by rw [classNames]; exact empty_notMem_classNames v
  | null => by simp [classNames, isTruthy]
  | bool b => by cases b <;> simp [classNames, isTruthy, display]
  | number n => by
    rw [classNames_number]
    split
    · simp [n.display_ne_empty.symm]
    · simp
  | text s => by
    by_cases h : s = ""
    · simp [classNames, isTruthy, h]
    · simp [classNames, isTruthy, display, h, Ne.symm h]

theorem empty_notMem_classNamesOfItems : (vs : List Value) → "" ∉ classNamesOfItems vs
  | [] => by simp [classNamesOfItems]
  | v :: vs => by
    rw [classNamesOfItems, List.mem_append, not_or]
    exact ⟨empty_notMem_classNames v, empty_notMem_classNamesOfItems vs⟩

end

theorem classNamesOfItems_eq_flatMap (vs : List Value) :
    classNamesOfItems vs = vs.flatMap classNames := by
  induction vs with
  | nil => rfl
  | cons v vs ih => rw [classNamesOfItems, List.flatMap_cons, ih]

theorem classNamesOfItems_append (us vs : List Value) :
    classNamesOfItems (us ++ vs) = classNamesOfItems us ++ classNamesOfItems vs := by
  simp only [classNamesOfItems_eq_flatMap, List.flatMap_append]

mutual

/-- A class text is the class names of the value with spaces between them. -/
theorem classText_eq : (v : Value) → v.classText = " ".intercalate v.classNames
  | list items => by rw [classText, classNames, intercalate_classItems items]
  | map entries => by rw [classText, classNames]
  | object _ v => by rw [classText, classNames, classText_eq v]
  | null => rfl
  | bool b => by cases b <;> rfl
  | number n => by rw [classText, classNames_number]; split <;> simp
  | text s => by by_cases h : s = "" <;> simp [classText, classNames, isTruthy, display, h]

theorem intercalate_classItems : (vs : List Value) →
    " ".intercalate (classItems vs) = " ".intercalate (classNamesOfItems vs)
  | [] => rfl
  | v :: vs => by
    rw [classItems_cons, intercalate_append_words (by simp) (empty_notMem_classItems vs),
      intercalate_word, classText_eq v, intercalate_classItems vs, classNamesOfItems,
      intercalate_append_words (empty_notMem_classNames v) (empty_notMem_classNamesOfItems vs)]

end

/-! ### Flattening -/

/-- One change of lists at any depth that class names do not show. -/
inductive Flattens : Value → Value → Prop where
  /-- a list in a list gives its items to it -/
  | splice (us vs ws : List Value) :
    Flattens (list (us ++ list vs :: ws)) (list (us ++ (vs ++ ws)))
  /-- an item without names is left out -/
  | drop (us ws : List Value) {v : Value} (nameless : v.classNames = []) :
    Flattens (list (us ++ v :: ws)) (list (us ++ ws))
  | item (us ws : List Value) {v w : Value} (change : Flattens v w) :
    Flattens (list (us ++ v :: ws)) (list (us ++ w :: ws))
  | entry (ds es : List (String × Value)) {k : String} {v w : Value} (change : Flattens v w) :
    Flattens (map (ds ++ (k, v) :: es)) (map (ds ++ (k, w) :: es))
  | projection {id : Nat} {v w : Value} (change : Flattens v w) :
    Flattens (object id v) (object id w)

theorem Flattens.isTruthy_eq {v w : Value} (h : Flattens v w) : w.isTruthy = v.isTruthy := by
  cases h <;> rfl

theorem Flattens.classNames_eq {v w : Value} (h : Flattens v w) : w.classNames = v.classNames := by
  induction h with
  | splice us vs ws => simp only [classNames, classNamesOfItems_append, classNamesOfItems]
  | drop us ws nameless =>
    simp only [classNames, classNamesOfItems_append, classNamesOfItems, nameless, List.nil_append]
  | item us ws _ ih =>
    simp only [classNames, classNamesOfItems_append, classNamesOfItems, ih]
  | entry ds es change =>
    simp only [classNames, chosenKeys_append, chosenKeys, change.isTruthy_eq]
  | projection _ ih => rw [classNames, classNames, ih]

theorem classNames_of_flattened {v w : Value} (h : Relation.ReflTransGen Flattens v w) :
    w.classNames = v.classNames := by
  induction h with
  | refl => rfl
  | tail _ change ih => rw [change.classNames_eq, ih]

/-- A class text is the class names with single spaces between them, and these are where it can be
taken apart again if no name has a space of its own. A list is written part by part, and its text
stays the same however it is flattened. -/
theorem classText_flat (v : Value) :
    (∀ name ∈ v.classNames, name ≠ "") ∧
    v.classText = " ".intercalate v.classNames ∧
    (v.classNames ≠ [] → (∀ name ∈ v.classNames, ' ' ∉ name.toList) →
      v.classText.toList.splitOn ' ' = v.classNames.map String.toList) ∧
    (∀ vs, (list vs).classText = (vs.map classText).foldl spaced "") ∧
    ∀ w, Relation.ReflTransGen Flattens v w → w.classText = v.classText := by
  refine ⟨fun name h he => empty_notMem_classNames v (he ▸ h), classText_eq v, fun hne hspace => ?_,
    classText_list, fun w h => ?_⟩
  · rw [classText_eq, String.toList_intercalate]
    exact List.splitOn_intercalate ' ' (by simpa using hspace) (by simpa using hne)
  · rw [classText_eq, classText_eq, classNames_of_flattened h]

/-- Names in lists, in a map and in what an object stands for, between parts without any. -/
def nestedClasses : Value :=
  list [list [text "a", list [null]],
    map [("b", bool true), ("", bool true), ("c", number .zero)], text "",
    object 1 (list [list [], text "d"])]

theorem classText_flat_nestedClasses :
    nestedClasses.classNames = ["a", "b", "d"] ∧
    nestedClasses.classText.toList.splitOn ' ' = [['a'], ['b'], ['d']] ∧
    ∃ us, Relation.ReflTransGen Flattens nestedClasses (list (text "a" :: list [null] :: us)) ∧
      (list (text "a" :: list [null] :: us)).classText = nestedClasses.classText := by
  have hnames : nestedClasses.classNames = ["a", "b", "d"] := by decide
  obtain ⟨-, -, hsplit, -, hflat⟩ := classText_flat nestedClasses
  refine ⟨hnames, ?_, _, .single (.splice [] [text "a", list [null]] _), hflat _ ?_⟩
  · rw [hsplit (by rw [hnames]; decide) (by rw [hnames]; decide), hnames]
    decide
  · exact .single (.splice [] [text "a", list [null]] _)

/-! ### Flags -/

variable {flags : List Bool}

/-- A name, or a text of names, of the item at a place: escaped if the flag there is set. -/
def flagged (flags : List Bool) (place : Nat) (name : String) : String :=
  if flags[place]? = some true then escape name else name

/-- The names of the items, each escaped if the flag at the place of its item is set. -/
def flaggedNames (flags : List Bool) (items : List Value) : List String :=
  items.zipIdx.flatMap fun (v, place) => v.classNames.map (flagged flags place)

/-- Escaping goes through the spaces between words. -/
theorem escape_intercalate (ws : List String) :
    escape (" ".intercalate ws) = " ".intercalate (ws.map escape) := by
  have hspace : escape " " = " " := rfl
  induction ws with
  | nil => rfl
  | cons w ws ih =>
    by_cases h : ws = []
    · rw [h, String.intercalate_singleton, List.map_singleton, String.intercalate_singleton]
    · rw [String.intercalate_cons_of_ne_nil h, escape_append, escape_append, hspace, ih,
        List.map_cons, String.intercalate_cons_of_ne_nil (by simpa using h)]

theorem flagged_eq_empty_iff {place : Nat} {name : String} :
    flagged flags place name = "" ↔ name = "" := by
  unfold flagged
  split
  · exact escape_eq_empty_iff
  · rfl

theorem flagged_intercalate (place : Nat) (names : List String) :
    flagged flags place (" ".intercalate names) =
      " ".intercalate (names.map (flagged flags place)) := by
  unfold flagged
  split
  · exact escape_intercalate names
  · rw [List.map_id']

theorem classItemsEscaping_eq_filter (flags : List Bool) (items : List Value) (place : Nat) :
    classItemsEscaping items (flags.drop place) =
      ((items.zipIdx place).map fun (v, place) => flagged flags place v.classText).filter
        (· ≠ "") := by
  induction items generalizing place with
  | nil => rfl
  | cons v items ih =>
    have hhead : (if (flags.drop place).headD false then escape v.classText else v.classText) =
        flagged flags place v.classText := by
      rw [flagged, List.headD_eq_head?_getD, List.head?_drop]
      cases flags[place]? with
      | none => rfl
      | some flag => cases flag <;> rfl
    rw [classItemsEscaping, List.zipIdx_cons, List.map_cons, hhead, List.tail_drop, ih]
    by_cases h : v.classText = "" <;> simp [h, flagged_eq_empty_iff]

theorem classTextEscaping_list (items : List Value) :
    (list items).classTextEscaping flags = " ".intercalate (flaggedNames flags items) := by
  have hitems := classItemsEscaping_eq_filter flags items 0
  rw [List.drop_zero] at hitems
  have hwords : ∀ names ∈ items.zipIdx.map fun (v, place) =>
      v.classNames.map (flagged flags place), "" ∉ names := by
    intro names h
    obtain ⟨⟨v, place⟩, -, rfl⟩ := List.mem_map.mp h
    simpa [flagged_eq_empty_iff] using empty_notMem_classNames v
  rw [classTextEscaping, hitems, flaggedNames, List.flatMap_def, intercalate_flatten_words hwords,
    List.map_map]
  simp only [classText_eq, flagged_intercalate, Function.comp_def]

/-- With every flag set, every name is escaped. -/
theorem flaggedNames_of_all_set {items : List Value}
    (h : ∀ place < items.length, flags[place]? = some true) :
    flaggedNames flags items = (classNamesOfItems items).map escape := by
  have hflagged : ∀ p ∈ items.zipIdx,
      p.1.classNames.map (flagged flags p.2) = p.1.classNames.map escape := by
    intro p hp
    have hset := h p.2 (List.mem_zipIdx' hp).1
    exact List.map_congr_left fun name _ => if_pos hset
  calc flaggedNames flags items
      = items.zipIdx.flatMap fun p => p.1.classNames.map escape := List.flatMap_congr hflagged
    _ = (items.zipIdx.map Prod.fst).flatMap fun v => v.classNames.map escape := by
      rw [List.flatMap_map]
    _ = (classNamesOfItems items).map escape := by
      rw [List.zipIdx_map_fst, classNamesOfItems_eq_flatMap, List.map_flatMap]

/-- Flags go by the places of the items of a list, whatever is at the other places, and cover all
names of their item. With all of them set no reserved mark is left, and only lists heed them. -/
theorem classTextEscaping_flags (flags : List Bool) (items : List Value) :
    (list items).classTextEscaping flags = " ".intercalate (flaggedNames flags items) ∧
    ((∀ place < items.length, flags[place]? = some true) →
      (list items).classTextEscaping flags = escape (list items).classText ∧
      '"' ∉ ((list items).classTextEscaping flags).toList ∧
      '<' ∉ ((list items).classTextEscaping flags).toList ∧
      '>' ∉ ((list items).classTextEscaping flags).toList) ∧
    ∀ v : Value, (∀ vs, v ≠ list vs) → v.classTextEscaping flags = v.classText := by
  refine ⟨classTextEscaping_list items, fun hset => ?_, fun v hv => ?_⟩
  · have hescaped : (list items).classTextEscaping flags = escape (list items).classText := by
      rw [classTextEscaping_list, flaggedNames_of_all_set hset, ← escape_intercalate, classText_eq,
        classNames]
    have hinert := inert_escape (list items).classText
    rw [hescaped]
    exact ⟨rfl, hinert.quote, hinert.less, hinert.greater⟩
  · cases v with
    | list vs => exact absurd rfl (hv vs)
    | _ => rfl

/-- Items with marks, one of them without a name before one with two. -/
def markedClasses : List Value :=
  [text "<a>", list [text ""], list [text "<b>", map [("\"c\"", bool true)]]]

theorem classTextEscaping_flags_markedClasses :
    (list markedClasses).classTextEscaping [false, false, true] =
      "<a> &lt;b&gt; &quot;c&quot;" ∧
    (∀ place < markedClasses.length, [true, true, true, false][place]? = some true) ∧
    (list markedClasses).classTextEscaping [true, true, true, false] =
      "&lt;a&gt; &lt;b&gt; &quot;c&quot;" ∧
    (object 1 (list markedClasses)).classTextEscaping [true] = "<a> <b> \"c\"" := by
  have hset : ∀ place < markedClasses.length, [true, true, true, false][place]? = some true := by
    decide
  have hsome := (classTextEscaping_flags [false, false, true] markedClasses).1
  have hall := ((classTextEscaping_flags [true, true, true, false] markedClasses).2.1 hset).1
  have hnone := (classTextEscaping_flags [true] markedClasses).2.2
    (object 1 (list markedClasses)) nofun
  exact ⟨hsome.trans (by decide), hset, hall.trans (by decide), hnone.trans (by decide)⟩

end Value

end Markup
