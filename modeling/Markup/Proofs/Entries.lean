import Markup.Entries

/-!
# Entries by key

Entries without a repeated key hold no more than their keys in order and what `get?` finds under
each of them: `eq_map_keys` rebuilds them from that, and `ext_get?` compares two by it. Of pairs
put one after the other, `keys_collect` and `get?_collect` say that a key stands where it comes
first and has the value that comes last.
-/

namespace Markup

/-! ### Lists without repetitions -/

theorem eraseDups_of_nodup {ks : List String} (h : ks.Nodup) : ks.eraseDups = ks := by
  induction ks with
  | nil => rfl
  | cons k ks ih =>
    rw [List.nodup_cons] at h
    have hf : ks.filter (fun b => !b == k) = ks := by
      rw [List.filter_eq_self]
      intro b hb
      have hne : b ≠ k := fun e => h.1 (e ▸ hb)
      simpa using hne
    rw [List.eraseDups_cons, hf, ih h.2]

/-- Dropping keys and dropping repetitions may be done in either order. -/
theorem eraseDups_filter (p : String → Bool) (ks : List String) :
    (ks.filter p).eraseDups = ks.eraseDups.filter p := by
  match ks with
  | [] => rfl
  | k :: ks =>
    have hlen : (ks.filter fun b => !b == k).length < ks.length + 1 :=
      Nat.lt_succ_of_le (List.length_filter_le ..)
    have ih := eraseDups_filter p (ks.filter fun b => !b == k)
    rw [List.filter_filter] at ih
    rw [List.eraseDups_cons]
    cases hk : p k with
    | true =>
      rw [List.filter_cons_of_pos hk, List.filter_cons_of_pos hk, List.eraseDups_cons, ← ih,
        List.filter_filter]
      congr 3
      funext b
      exact Bool.and_comm ..
    | false =>
      -- a key that is dropped anyway need not be dropped again as a repetition
      have hf : ks.filter (fun b => p b && !b == k) = ks.filter p := by
        refine List.filter_congr fun b _ => ?_
        by_cases hb : b = k
        · simp [hb, hk]
        · simp [hb]
      rw [List.filter_cons_of_neg (by simp [hk]), List.filter_cons_of_neg (by simp [hk]), ← ih, hf]
  termination_by ks.length

namespace Entries

variable {α : Type}

theorem get?_cons_self (p : String × α) (es : Entries α) : get? (p :: es) p.1 = some p.2 := by
  simp [get?]

theorem get?_cons_of_ne {p : String × α} {key : String} (es : Entries α) (h : p.1 ≠ key) :
    get? (p :: es) key = get? es key := by
  simp [get?, h]

theorem get?_of_mem {es : Entries α} (hn : es.keys.Nodup) {p : String × α} (h : p ∈ es) :
    es.get? p.1 = some p.2 := by
  induction es with
  | nil => cases h
  | cons q es ih =>
    rw [keys_cons, List.nodup_cons] at hn
    rcases List.mem_cons.mp h with rfl | h
    · exact get?_cons_self ..
    · have hne : q.1 ≠ p.1 := fun e => hn.1 (e ▸ List.mem_map_of_mem (f := Prod.fst) h)
      rw [get?_cons_of_ne es hne, ih hn.2 h]

theorem mem_of_get? {es : Entries α} {key : String} {value : α} (h : es.get? key = some value) :
    (key, value) ∈ es := by
  induction es with
  | nil => cases h
  | cons p es ih =>
    by_cases hp : p.1 = key
    · subst hp
      rw [get?_cons_self, Option.some.injEq] at h
      exact h ▸ List.mem_cons_self
    · rw [get?_cons_of_ne es hp] at h
      exact List.mem_cons_of_mem _ (ih h)

theorem get?_isSome_iff {es : Entries α} {key : String} :
    (es.get? key).isSome ↔ key ∈ es.keys := by
  rw [Option.isSome_iff_ne_none, Ne, get?_eq_none_iff, Classical.not_not]

theorem get?_eq_some_iff {es : Entries α} (hn : es.keys.Nodup) {key : String} {value : α} :
    es.get? key = some value ↔ (key, value) ∈ es :=
  ⟨mem_of_get?, fun h => get?_of_mem hn h⟩

/-- What is found under a key does not depend on the order of the entries. -/
theorem get?_of_perm {as bs : Entries α} (hn : as.keys.Nodup) (h : as.Perm bs) (key : String) :
    as.get? key = bs.get? key := by
  have hb : bs.keys.Nodup := (h.map Prod.fst).nodup_iff.mp hn
  refine Option.ext fun value => ?_
  rw [get?_eq_some_iff hn, get?_eq_some_iff hb, h.mem_iff]

theorem length_keys (es : Entries α) : es.keys.length = es.length := List.length_map ..

/-- Of two values put under a key the second stays. -/
theorem put_put (es : Entries α) (key : String) (v w : α) :
    (es.put key v).put key w = es.put key w := by
  induction es with
  | nil => simp [put]
  | cons p es ih =>
    by_cases h : p.1 = key
    · simp [put, h]
    · simp [put, h, ih]

/-- Entries rebuilt from their keys. The value `d` stands in for a key that finds nothing, which
no key of the entries does. -/
theorem eq_map_keys {es : Entries α} (hn : es.keys.Nodup) (d : α) :
    es = es.keys.map fun key => (key, (es.get? key).getD d) := by
  have h : es.map (fun p => (p.1, (es.get? p.1).getD d)) = es.map id := by
    refine List.map_congr_left fun p hp => ?_
    rw [get?_of_mem hn hp]
    rfl
  rw [keys, List.map_map]
  exact (List.map_id es).symm.trans h.symm

theorem ext_get? {as bs : Entries α} (hn : as.keys.Nodup) (hk : as.keys = bs.keys)
    (hv : ∀ key ∈ as.keys, as.get? key = bs.get? key) : as = bs := by
  cases as with
  | nil =>
    rw [keys_nil] at hk
    exact (List.map_eq_nil_iff.mp hk.symm).symm
  | cons p as =>
    have ha := eq_map_keys hn p.2
    have hb := eq_map_keys (hk ▸ hn : bs.keys.Nodup) p.2
    rw [← hk] at hb
    refine (ha.trans (List.map_congr_left fun key h => ?_)).trans hb.symm
    rw [hv key h]

/-- The entries under one key: at most one. -/
theorem filter_key {es : Entries α} (hn : es.keys.Nodup) (key : String) :
    es.filter (·.1 == key) = (get? es key).toList.map (key, ·) := by
  induction es with
  | nil => rfl
  | cons p es ih =>
    obtain ⟨k, v⟩ := p
    rw [keys_cons, List.nodup_cons] at hn
    by_cases h : k = key
    · subst h
      have hnone : get? es k = none := get?_eq_none_iff.mpr hn.1
      rw [get?_cons_self, List.filter_cons_of_pos (by simp), ih hn.2, hnone]
      rfl
    · rw [get?_cons_of_ne es h, List.filter_cons_of_neg (by simpa using h), ih hn.2]

/-! ### Erasing -/

theorem erase_of_notMem {es : Entries α} {key : String} (h : key ∉ es.keys) :
    es.erase key = es := by
  induction es with
  | nil => rfl
  | cons p es ih =>
    rw [keys_cons, List.mem_cons, not_or] at h
    rw [erase, if_neg (Ne.symm h.1), ih h.2]

theorem keys_erase {es : Entries α} (hn : es.keys.Nodup) (key : String) :
    (es.erase key).keys = es.keys.filter (· ≠ key) := by
  induction es with
  | nil => rfl
  | cons p es ih =>
    rw [keys_cons, List.nodup_cons] at hn
    by_cases h : p.1 = key
    · have hrest : (keys es).filter (· ≠ key) = keys es := by
        rw [List.filter_eq_self]
        intro k hk
        have hne : k ≠ key := fun e => hn.1 (h ▸ e ▸ hk)
        simpa using hne
      rw [erase, if_pos h, keys_cons, List.filter_cons_of_neg (by simpa using h), hrest]
    · rw [erase, if_neg h, keys_cons, keys_cons, List.filter_cons_of_pos (by simpa using h),
        ih hn.2]

theorem get?_erase_self {es : Entries α} (hn : es.keys.Nodup) (key : String) :
    (es.erase key).get? key = none := by
  rw [get?_eq_none_iff, keys_erase hn]
  simp

theorem get?_erase_of_ne (es : Entries α) {key other : String} (h : other ≠ key) :
    (es.erase key).get? other = es.get? other := by
  induction es with
  | nil => rfl
  | cons p es ih =>
    by_cases hp : p.1 = key
    · rw [erase, if_pos hp, get?_cons_of_ne es (hp ▸ h.symm)]
    · rw [erase, if_neg hp, get?, get?, ih]

/-! ### Pairs put one after the other -/

/-- The pairs put into entries, one after the other. -/
def putAll (es : Entries α) (ps : List (String × α)) : Entries α :=
  ps.foldl (fun es p => es.put p.1 p.2) es

theorem putAll_cons (es : Entries α) (p : String × α) (ps : List (String × α)) :
    es.putAll (p :: ps) = (es.put p.1 p.2).putAll ps := rfl

theorem collect_eq_putAll (ps : List (String × α)) : collect ps = putAll [] ps := rfl

theorem keys_putAll (es : Entries α) (ps : List (String × α)) :
    (es.putAll ps).keys = es.keys ++ ((keys ps).filter (· ∉ es.keys)).eraseDups := by
  induction ps generalizing es with
  | nil => simp [putAll]
  | cons p ps ih =>
    rw [putAll_cons, ih, keys_put, keys_cons]
    by_cases h : p.1 ∈ es.keys
    · rw [if_pos h, List.filter_cons_of_neg (by simpa using h)]
    · have hrest : (keys ps).filter (· ∉ es.keys ++ [p.1]) =
          ((keys ps).filter (· ∉ es.keys)).filter (fun k => !k == p.1) := by
        rw [List.filter_filter]
        refine List.filter_congr fun k _ => ?_
        by_cases hk : k = p.1 <;> simp [hk]
      rw [if_neg h, List.filter_cons_of_pos (by simpa using h), List.eraseDups_cons, hrest,
        List.append_assoc, List.singleton_append]

theorem get?_append (es fs : Entries α) (key : String) :
    get? (es ++ fs) key = (get? es key).or (get? fs key) := by
  induction es with
  | nil => rfl
  | cons p es ih =>
    rw [List.cons_append, get?, get?, ih]
    split <;> simp

theorem get?_putAll (es : Entries α) (ps : List (String × α)) (key : String) :
    (es.putAll ps).get? key = (get? ps.reverse key).or (es.get? key) := by
  induction ps generalizing es with
  | nil => rfl
  | cons p ps ih =>
    rw [putAll_cons, ih, List.reverse_cons, get?_append, Option.or_assoc]
    congr 1
    by_cases h : p.1 = key
    · subst h
      rw [get?_put_self, get?_cons_self, Option.some_or]
    · rw [get?_put_of_ne es p.2 (Ne.symm h), get?_cons_of_ne _ h]
      rfl

/-- A key stands where it comes first. -/
theorem keys_collect (ps : List (String × α)) : (collect ps).keys = (keys ps).eraseDups := by
  have hf : (keys ps).filter (· ∉ keys ([] : Entries α)) = keys ps := by simp
  rw [collect_eq_putAll, keys_putAll, hf, keys_nil, List.nil_append]

/-- A key has the value that comes last. -/
theorem get?_collect (ps : List (String × α)) (key : String) :
    (collect ps).get? key = get? ps.reverse key := by
  rw [collect_eq_putAll, get?_putAll]
  exact Option.or_none

theorem get?_reverse {es : Entries α} (hn : es.keys.Nodup) (key : String) :
    get? es.reverse key = get? es key := by
  induction es with
  | nil => rfl
  | cons p es ih =>
    rw [keys_cons, List.nodup_cons] at hn
    rw [List.reverse_cons, get?_append, ih hn.2]
    by_cases h : p.1 = key
    · subst h
      rw [get?_eq_none_iff.mpr hn.1, Option.none_or, get?_cons_self, get?_cons_self]
    · rw [get?_cons_of_ne es h, get?_cons_of_ne _ h]
      exact Option.or_none

theorem collect_of_nodup {es : Entries α} (hn : es.keys.Nodup) : collect es = es := by
  refine ext_get? (nodup_collect es) ?_ fun key _ => ?_
  · rw [keys_collect, eraseDups_of_nodup hn]
  · rw [get?_collect, get?_reverse hn]

end Entries

end Markup
