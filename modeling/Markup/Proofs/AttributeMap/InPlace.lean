import Markup.Proofs.AttributeMap.History

/-!
# What a merge does

`Merges a b m` says of each key of `m` where it stands and what it holds, from `a` and `b` alone.
There is one such map, and it is the merge, however it is made: as a new map, by a change of `a`,
or by a change of a copy.

A change of `a` reads from the map that it changes, and while a class is joined the map holds
nothing under it. Each entry is still laid as by `lay` (`run_layInPlace`), so that the map after any
of the entries is `layAll` of them (`run_forM_layInPlace`), and of that the keys and the values are
known.
-/

namespace Markup

namespace AttributeMap

theorem insert_assign (m : AttributeMap) (key : String) (v w : Value) :
    (m.assign key v).insert key w = m.insert key w := by
  by_cases h : key ∈ m.keys
  · rw [assign_of_mem h]
    exact ext (Entries.put_put ..)
  · rw [assign_of_notMem h]

/-- Nothing under a key adds as much to a class as no key. -/
theorem classParts_getD (v : Option Value) : classParts (some (v.getD .null)) = classParts v := by
  cases v <;> rfl

/-! ### One entry, then any number -/

theorem run_layInPlace (m : AttributeMap) (key : String) (value : Value) :
    (layInPlace key value).run m = ((), m.lay key value) := by
  unfold layInPlace lay
  by_cases hc : key = "class"
  · rw [if_pos hc, if_pos hc]
    show ((), (m.assign key .null).insert key (.list
      (classParts (some ((m.get? key).getD .null)) ++ classParts (some value.copy)))) = _
    rw [insert_assign, classParts_getD, Value.copy_eq]
  · by_cases hs : key = "style"
    · rw [if_neg hc, if_neg hc, if_pos hs, if_pos hs]
      rfl
    · rw [if_neg hc, if_neg hc, if_neg hs, if_neg hs, Value.copy_eq]
      rfl

theorem run_forM_layInPlace (es : Entries Value) (m : AttributeMap) :
    (es.forM fun e => layInPlace e.1 e.2).run m = ((), m.layAll es) := by
  induction es generalizing m with
  | nil => rfl
  | cons e es ih =>
    rw [List.forM, StateT.run_bind, run_layInPlace, layAll_cons]
    exact ih (m.lay e.1 e.2)

theorem run_mergeInPlace (a b : AttributeMap) : (mergeInPlace b).run a = ((), a.merge b) :=
  run_forM_layInPlace b.entries a

theorem merged_eq_merge (a b : AttributeMap) : a.merged b = a.merge b := by
  rw [merged, run_mergeInPlace, copy_eq]

/-! ### Entry by entry -/

/-- What a value adds to a class: its items if it is a list, itself if it is anything else that is
truthy. -/
inductive AddsToClass : Option Value → List Value → Prop where
  | list {items : List Value} : AddsToClass (some (.list items)) items
  | word {v : Value} (other : ∀ items, v ≠ .list items) (truthy : v.isTruthy = true) :
    AddsToClass (some v) [v]
  | falsy {v : Value} (other : ∀ items, v ≠ .list items) (falsy : v.isTruthy = false) :
    AddsToClass (some v) []
  | absent : AddsToClass none []

/-- What a value adds to a style: its style text, closed. -/
inductive AddsToStyle : Option Value → String → Prop where
  | closed {v : Value} : AddsToStyle (some v) (closeDeclarations v.styleText)
  | absent : AddsToStyle none ""

theorem addsToClass_iff {v : Option Value} {items : List Value} :
    AddsToClass v items ↔ items = classParts v := by
  constructor
  · intro h
    cases h with
    | list | absent => rfl
    | word other truthy => rw [classParts.eq_2 _ other, truthy, if_pos rfl]
    | falsy other falsy =>
      rw [classParts.eq_2 _ other, falsy]
      rfl
  · rintro rfl
    cases v with
    | none => exact .absent
    | some v =>
      have hother (other : ∀ items, v ≠ .list items) : AddsToClass (some v) (classParts (some v)) := by
        rw [classParts.eq_2 _ other]
        cases h : v.isTruthy with
        | true => exact .word other h
        | false => exact .falsy other h
      cases v with
      | list items => exact .list
      | null | bool | number | text | map | object => exact hother (by simp)

theorem addsToStyle_iff {v : Option Value} {s : String} : AddsToStyle v s ↔ s = stylePart v := by
  refine ⟨fun h => by cases h <;> rfl, ?_⟩
  rintro rfl
  cases v with
  | none => exact .absent
  | some v => exact .closed

/-- The map `m` holds the keys of `a`, then those that only `b` has. What `b` does not name is as in
`a`. Of what it names, a class joins the items of both sides and a style their closed texts, and
anything else is as in `b`. -/
structure Merges (a b m : AttributeMap) : Prop where
  keys : m.keys = a.keys ++ b.keys.filter (· ∉ a.keys)
  untouched : ∀ key ∉ b.keys, m.get? key = a.get? key
  joined : "class" ∈ b.keys → ∃ xs ys, AddsToClass (a.get? "class") xs ∧
    AddsToClass (b.get? "class") ys ∧ m.get? "class" = some (.list (xs ++ ys))
  closed : "style" ∈ b.keys → ∃ s t, AddsToStyle (a.get? "style") s ∧
    AddsToStyle (b.get? "style") t ∧ m.get? "style" = some (.text (s ++ t)) ∧ IsClosed (s ++ t)
  others : ∀ key ∈ b.keys, key ≠ "class" → key ≠ "style" → m.get? key = b.get? key

theorem exists_get?_of_mem {m : AttributeMap} {key : String} (h : key ∈ m.keys) :
    ∃ v, m.get? key = some v :=
  Option.isSome_iff_exists.mp (Entries.get?_isSome_iff.mpr h)

theorem get?_merge_of_notMem (a : AttributeMap) {b : AttributeMap} {key : String}
    (h : key ∉ b.keys) : (a.merge b).get? key = a.get? key := by
  rw [get?_merge, show b.get? key = none from Entries.get?_eq_none_iff.mpr h, mergedValue?_none]

theorem merges_merge (a b : AttributeMap) : Merges a b (a.merge b) where
  keys := keys_merge a b
  untouched _ := get?_merge_of_notMem a
  joined h := by
    obtain ⟨v, hv⟩ := exists_get?_of_mem h
    refine ⟨_, _, addsToClass_iff.mpr rfl, addsToClass_iff.mpr rfl, ?_⟩
    rw [get?_merge, hv, mergedValue?_some, laidValue_class]
  closed h := by
    obtain ⟨v, hv⟩ := exists_get?_of_mem h
    refine ⟨_, _, addsToStyle_iff.mpr rfl, addsToStyle_iff.mpr rfl, ?_,
      (isClosed_stylePart _).append (isClosed_stylePart _)⟩
    rw [get?_merge, hv, mergedValue?_some, laidValue_style]
  others key h hc hs := by
    obtain ⟨v, hv⟩ := exists_get?_of_mem h
    rw [get?_merge, hv, mergedValue?_some, laidValue_of_ne hc hs]

/-- There is only one such map. -/
theorem Merges.unique {a b m n : AttributeMap} (hm : Merges a b m) (hn : Merges a b n) : m = n := by
  refine ext_get? (hm.keys.trans hn.keys.symm) fun key => ?_
  by_cases h : key ∈ b.keys
  · by_cases hc : key = "class"
    · subst hc
      obtain ⟨xs, ys, hxs, hys, hclass⟩ := hm.joined h
      obtain ⟨xs', ys', hxs', hys', hclass'⟩ := hn.joined h
      rw [addsToClass_iff] at hxs hys hxs' hys'
      rw [hclass, hclass', hxs, hys, hxs', hys']
    · by_cases hs : key = "style"
      · subst hs
        obtain ⟨s, t, hs, ht, hstyle, -⟩ := hm.closed h
        obtain ⟨s', t', hs', ht', hstyle', -⟩ := hn.closed h
        rw [addsToStyle_iff] at hs ht hs' ht'
        rw [hstyle, hstyle', hs, ht, hs', ht']
      · rw [hm.others key h hc hs, hn.others key h hc hs]
  · rw [hm.untouched key h, hn.untouched key h]

/-- The order of the entries laid over a map matters for its keys only. -/
theorem get?_merge_of_perm (a : AttributeMap) {b b' : AttributeMap} (h : b.entries.Perm b'.entries)
    (key : String) : (a.merge b).get? key = (a.merge b').get? key := by
  rw [get?_merge, get?_merge]
  exact congrArg (mergedValue? key (a.get? key)) (Entries.get?_of_perm b.nodup h key)

/-- A merge of `a` and `b` holds what `Merges` says and is the only map that does. In which order
`b` has its entries makes no difference to the value of any key. Laying `b` over `a` in place leaves
the merge in `a`, and laying it over a copy gives the merge as well. -/
theorem merge_entry_by_entry (a b : AttributeMap) :
    (∀ m, Merges a b m ↔ m = a.merge b) ∧
    (∀ b', b.entries.Perm b'.entries → ∀ key, (a.merge b).get? key = (a.merge b').get? key) ∧
    (mergeInPlace b).run a = ((), a.merge b) ∧
    a.merged b = a.merge b := by
  refine ⟨fun m => ⟨fun h => h.unique (merges_merge a b), ?_⟩, fun _ => get?_merge_of_perm a,
    run_mergeInPlace a b, merged_eq_merge a b⟩
  rintro rfl
  exact merges_merge a b

/-- A button with one class name and a style that is not closed. -/
def button : AttributeMap where
  entries := [("class", .text "a"), ("id", .text "x"), ("style", .text "color: red")]
  nodup := by decide

/-- What is laid over it. -/
def overlay : AttributeMap where
  entries := [("title", .null), ("class", .list [.text "b"]), ("id", .text "y"),
    ("style", .map [("margin", .number .zero)])]
  nodup := by decide

theorem merge_entry_by_entry_button :
    Merges button overlay (button.merge overlay) ∧
    (button.merge overlay).keys = ["class", "id", "style", "title"] ∧
    (button.merge overlay).get? "class" = some (.list [.text "a", .text "b"]) ∧
    (button.merge overlay).get? "style" = some (.text "color: red;margin:0;") ∧
    (∀ key, (button.merge overlay).get? key =
      (button.merge (ofList overlay.entries.reverse)).get? key) ∧
    ((mergeInPlace overlay).run button).2.get? "id" = some (.text "y") := by
  obtain ⟨hmerges, hperm, hrun, -⟩ := merge_entry_by_entry button overlay
  have h := (hmerges _).mpr rfl
  obtain ⟨xs, ys, hxs, hys, hclass⟩ := h.joined (by decide)
  obtain ⟨s, t, hs, ht, hstyle, -⟩ := h.closed (by decide)
  rw [addsToClass_iff] at hxs hys
  rw [addsToStyle_iff] at hs ht
  rw [hxs, hys] at hclass
  rw [hs, ht] at hstyle
  have htext : stylePart (button.get? "style") ++ stylePart (overlay.get? "style") =
      "color: red;margin:0;" := by decide
  rw [htext] at hstyle
  refine ⟨h, h.keys, hclass, hstyle, hperm _ ?_, ?_⟩
  · exact (List.reverse_perm overlay.entries).symm
  · rw [hrun]
    exact h.others "id" (by decide) (by decide) (by decide)

end AttributeMap

end Markup
