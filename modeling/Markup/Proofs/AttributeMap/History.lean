import Markup.AttributeMap.Edit
import Markup.Proofs.AttributeMap.Merge

/-!
# Histories of attribute maps

What holds of a map after any list of edits. Values are followed key by key: `Edit.leaves` says what
one edit makes of the value of a key, `lastWritten` folds that over a history, and `get?_run` says
that the map holds just this. Order is followed edit by edit: `keepsOrder_apply` says that an edit in
place leaves the keys that stay in their order and puts new ones behind them.

`AttributeMap.run_edits` states both of every map that a history reaches.
-/

namespace Markup

/-- `after` lists what is left of `before`, in the same order, and then what is new. -/
def KeepsOrder (before after : List String) : Prop :=
  ∃ added, after = before.filter (· ∈ after) ++ added ∧ ∀ key ∈ added, key ∉ before

theorem keepsOrder_append {before added : List String} (h : ∀ key ∈ added, key ∉ before) :
    KeepsOrder before (before ++ added) := by
  refine ⟨added, ?_, h⟩
  congr 1
  symm
  rw [List.filter_eq_self]
  intro key hk
  simp [hk]

theorem keepsOrder_filter (before : List String) (p : String → Bool) :
    KeepsOrder before (before.filter p) := by
  refine ⟨[], ?_, by simp⟩
  rw [List.append_nil]
  refine List.filter_congr fun key hk => ?_
  cases h : p key <;> simp [hk, h]

theorem KeepsOrder.refl (before : List String) : KeepsOrder before before := by
  have h := @keepsOrder_append before [] (by simp)
  rwa [List.append_nil] at h

namespace Edit

/-- What an edit leaves under a key that held `old`. -/
def leaves (key : String) (old : Option Value) : Edit → Option Value
  | collect pairs => Entries.get? pairs.reverse key
  | insert k value => if k = key then some value else old
  | assign k value => if k = key then old.map fun _ => value else old
  | erase k => if k = key then none else old
  | merge other => mergedValue? key old (other.get? key)
  | mergeList [] => none
  | mergeList (m :: ms) => ms.foldl (fun old m => mergedValue? key old (m.get? key)) (m.get? key)
  | replace other => other.get? key
  | reopen => old

/-- The keys that an edit names, if it changes the map in place. -/
def names? : Edit → Option (List String)
  | insert key _ | assign key _ | erase key => some [key]
  | merge other => some other.keys
  | collect _ | mergeList _ | replace _ | reopen => none

end Edit

namespace AttributeMap

/-- The value that a history last wrote to a key, if it has not dropped the key since. -/
def lastWritten (key : String) (edits : List Edit) : Option Value :=
  edits.foldl (fun old e => e.leaves key old) none

/-! ### Values after an edit -/

theorem get?_insert (m : AttributeMap) (k key : String) (value : Value) :
    (m.insert k value).get? key = if k = key then some value else m.get? key := by
  by_cases h : k = key
  · subst h
    rw [if_pos rfl]
    exact Entries.get?_put_self ..
  · rw [if_neg h]
    exact Entries.get?_put_of_ne _ _ (Ne.symm h)

theorem get?_erase (m : AttributeMap) (k key : String) :
    (m.erase k).get? key = if k = key then none else m.get? key := by
  by_cases h : k = key
  · subst h
    rw [if_pos rfl]
    exact Entries.get?_erase_self m.nodup k
  · rw [if_neg h]
    exact Entries.get?_erase_of_ne _ (Ne.symm h)

theorem assign_of_notMem {m : AttributeMap} {key : String} (h : key ∉ m.keys) (value : Value) :
    m.assign key value = m :=
  if_neg fun hk => h (has_iff_mem.mp hk)

theorem assign_of_mem {m : AttributeMap} {key : String} (h : key ∈ m.keys) (value : Value) :
    m.assign key value = m.insert key value :=
  if_pos (has_iff_mem.mpr h)

theorem erase_of_notMem {m : AttributeMap} {key : String} (h : key ∉ m.keys) : m.erase key = m :=
  ext (Entries.erase_of_notMem h)

theorem get?_assign (m : AttributeMap) (k key : String) (value : Value) :
    (m.assign k value).get? key =
      if k = key then (m.get? key).map fun _ => value else m.get? key := by
  by_cases hk : k ∈ m.keys
  · obtain ⟨v, hv⟩ := Option.isSome_iff_exists.mp (Entries.get?_isSome_iff.mpr hk)
    rw [assign_of_mem hk, get?_insert]
    by_cases h : k = key
    · subst h
      rw [if_pos rfl, if_pos rfl, show m.get? k = some v from hv]
      rfl
    · rw [if_neg h, if_neg h]
  · rw [assign_of_notMem hk]
    by_cases h : k = key
    · subst h
      rw [if_pos rfl, show m.get? k = none from Entries.get?_eq_none_iff.mpr hk]
      rfl
    · rw [if_neg h]

theorem ofList_toList (m : AttributeMap) : ofList m.toList = m :=
  ext (Entries.collect_of_nodup m.nodup)

theorem get?_foldl_merge (m : AttributeMap) (ms : List AttributeMap) (key : String) :
    (ms.foldl merge m).get? key =
      ms.foldl (fun old m => mergedValue? key old (m.get? key)) (m.get? key) := by
  induction ms generalizing m with
  | nil => rfl
  | cons n ms ih => rw [List.foldl_cons, List.foldl_cons, ih, get?_merge]

theorem get?_apply (m : AttributeMap) (e : Edit) (key : String) :
    (e.apply m).get? key = e.leaves key (m.get? key) := by
  cases e with
  | collect pairs => exact Entries.get?_collect pairs key
  | insert k value => exact get?_insert m k key value
  | assign k value => exact get?_assign m k key value
  | erase k => exact get?_erase m k key
  | merge other => exact get?_merge m other key
  | mergeList maps =>
    cases maps with
    | nil => rfl
    | cons first others => exact get?_foldl_merge first others key
  | replace other => rfl
  | reopen => rw [Edit.apply, ofList_toList, Edit.leaves]

theorem run_concat (m : AttributeMap) (edits : List Edit) (e : Edit) :
    m.run (edits ++ [e]) = e.apply (m.run edits) := by
  rw [run, run, List.foldl_append]
  rfl

theorem get?_run_eq_foldl (m : AttributeMap) (edits : List Edit) (key : String) :
    (m.run edits).get? key = edits.foldl (fun old e => e.leaves key old) (m.get? key) := by
  induction edits generalizing m with
  | nil => rfl
  | cons e edits ih =>
    have hrun : m.run (e :: edits) = (e.apply m).run edits := rfl
    rw [hrun, ih, get?_apply, List.foldl_cons]

/-- A map holds under a key what its history last wrote there. -/
theorem get?_run (edits : List Edit) (key : String) :
    (empty.run edits).get? key = lastWritten key edits :=
  get?_run_eq_foldl empty edits key

/-! ### Order after an edit -/

theorem keys_insert (m : AttributeMap) (key : String) (value : Value) :
    (m.insert key value).keys = if key ∈ m.keys then m.keys else m.keys ++ [key] :=
  Entries.keys_put ..

theorem keys_erase (m : AttributeMap) (key : String) :
    (m.erase key).keys = m.keys.filter (· ≠ key) :=
  Entries.keys_erase m.nodup key

theorem keepsOrder_insert (m : AttributeMap) (key : String) (value : Value) :
    KeepsOrder m.keys (m.insert key value).keys := by
  rw [keys_insert]
  split
  · exact .refl _
  · next h => exact keepsOrder_append (by simpa using h)

theorem keepsOrder_apply (m : AttributeMap) {e : Edit} {names : List String}
    (h : e.names? = some names) : KeepsOrder m.keys (e.apply m).keys := by
  cases e with
  | insert key value => exact keepsOrder_insert m key value
  | assign key value =>
    by_cases hk : key ∈ m.keys
    · rw [Edit.apply, assign_of_mem hk]
      exact keepsOrder_insert m key value
    · rw [Edit.apply, assign_of_notMem hk]
      exact .refl _
  | erase key =>
    rw [Edit.apply, keys_erase]
    exact keepsOrder_filter ..
  | merge other =>
    rw [Edit.apply, keys_merge]
    refine keepsOrder_append fun key hk => ?_
    simpa using (List.mem_filter.mp hk).2
  | collect | mergeList | replace | reopen => cases h

theorem leaves_of_notMem {e : Edit} {names : List String} (h : e.names? = some names)
    {key : String} (hk : key ∉ names) (old : Option Value) : e.leaves key old = old := by
  cases e with
  | insert k value | assign k value | erase k =>
    cases h
    have hne : k ≠ key := fun he => hk (he ▸ List.mem_singleton_self k)
    exact if_neg hne
  | merge other =>
    cases h
    have hnone : other.get? key = none := Entries.get?_eq_none_iff.mpr hk
    rw [Edit.leaves, hnone, mergedValue?_none]
  | collect | mergeList | replace | reopen => cases h

/-! ### Maps that a history reaches -/

/-- The views of a map agree: no key repeats, the pairs are the keys with what is found under them,
and a key is found exactly when it is there. -/
structure Coherent (m : AttributeMap) : Prop where
  nodup : m.keys.Nodup
  size : m.size = m.keys.length
  pairs : (m.toList.map fun e => (e.1, some e.2)) = m.keys.map fun key => (key, m.get? key)
  has_iff : ∀ key, m.has key = true ↔ key ∈ m.keys
  get?_isSome_iff : ∀ key, (m.get? key).isSome = true ↔ key ∈ m.keys

theorem coherent (m : AttributeMap) : m.Coherent where
  nodup := m.nodup
  size := (List.length_map ..).symm
  pairs := by
    have hkeys : m.keys = m.toList.map Prod.fst := rfl
    rw [hkeys, List.map_map]
    refine List.map_congr_left fun e he => ?_
    have hget : m.get? e.1 = some e.2 := Entries.get?_of_mem m.nodup he
    exact Prod.ext rfl hget.symm
  has_iff _ := has_iff_mem
  get?_isSome_iff _ := Entries.get?_isSome_iff

/-- A map after any history. Its views agree. An edit in place keeps the order of the keys that
stay, puts new ones behind them and touches only what it names. Inserting and erasing hand back the
value last written. What is not there can be neither assigned nor erased. A key put again stays
where it is, and one that was erased before moves to the end. -/
theorem run_edits (edits : List Edit) :
    (empty.run edits).Coherent ∧
    (∀ e names, Edit.names? e = some names →
      KeepsOrder (empty.run edits).keys (empty.run (edits ++ [e])).keys ∧
      ∀ key ∉ names, (empty.run (edits ++ [e])).get? key = (empty.run edits).get? key) ∧
    (∀ key value,
      (Edit.insert key value).returned (empty.run edits) = lastWritten key edits ∧
      (Edit.erase key).returned (empty.run edits) = lastWritten key edits) ∧
    (∀ key ∉ (empty.run edits).keys,
      empty.run (edits ++ [.erase key]) = empty.run edits ∧
      ∀ value, empty.run (edits ++ [.assign key value]) = empty.run edits) ∧
    (∀ key ∈ (empty.run edits).keys, ∀ value value',
      (empty.run (edits ++ [.insert key value])).keys = (empty.run edits).keys ∧
      (empty.run (edits ++ [.erase key, .insert key value'])).keys =
        (empty.run edits).keys.filter (· ≠ key) ++ [key]) := by
  refine ⟨coherent _, fun e names h => ⟨?_, fun key hk => ?_⟩, fun key value => ?_,
    fun key hk => ⟨?_, fun value => ?_⟩, fun key hk value value' => ⟨?_, ?_⟩⟩
  · rw [run_concat]
    exact keepsOrder_apply _ h
  · rw [run_concat, get?_apply, leaves_of_notMem h hk]
  · exact ⟨get?_run edits key, get?_run edits key⟩
  · rw [run_concat]
    exact erase_of_notMem hk
  · rw [run_concat]
    exact assign_of_notMem hk value
  · rw [run_concat]
    exact (keys_insert ..).trans (if_pos hk)
  · have hsplit : edits ++ [.erase key, .insert key value'] =
        (edits ++ [.erase key]) ++ [.insert key value'] := by
      rw [List.append_assoc]
      rfl
    rw [hsplit, run_concat, run_concat]
    refine (keys_insert ..).trans ?_
    rw [Edit.apply, keys_erase, if_neg (by simp)]

/-- Three keys, the last one from another map. -/
def threeKeys : List Edit :=
  [.insert "a" (.bool true), .collect [("a", .text "x"), ("b", .null), ("a", .text "y")],
    .merge (ofList [("b", .bool false), ("class", .text "c")])]

theorem run_edits_threeKeys :
    (empty.run threeKeys).keys = ["a", "b", "class"] ∧
    KeepsOrder ["a", "b", "class"] ["b", "class"] ∧
    (Edit.erase "a").returned (empty.run threeKeys) = some (.text "y") ∧
    empty.run (threeKeys ++ [.erase "id"]) = empty.run threeKeys ∧
    (empty.run (threeKeys ++ [.erase "a", .insert "a" .null])).keys = ["b", "class", "a"] := by
  obtain ⟨-, hlocal, hreturned, habsent, hmoved⟩ := run_edits threeKeys
  refine ⟨rfl, (hlocal (.erase "a") ["a"] rfl).1, (hreturned "a" .null).2.trans rfl,
    (habsent "id" ?_).1, (hmoved "a" ?_ .null .null).2.trans rfl⟩
  · show "id" ∉ ["a", "b", "class"]
    decide
  · show "a" ∈ ["a", "b", "class"]
    decide

end AttributeMap

end Markup
