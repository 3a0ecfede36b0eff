/-!
# Ordered entries

`Entries α` is a list of keys with values. A key stands where it was first put; putting it
again changes the value and not the place, and erasing it closes the gap.

- `Entries.put`, `Entries.erase`, `Entries.get?`: change and look up one key.
- `Entries.collect`: the entries of a list of pairs put one after the other.
-/

namespace Markup

/-- Keys with values, in the order of their first insertion. -/
abbrev Entries (α : Type) := List (String × α)

namespace Entries

variable {α : Type}

def keys (es : Entries α) : List String := es.map Prod.fst

/-- The value of a key. -/
def get? : Entries α → String → Option α
  | [], _ => none
  | (k, v) :: es, key => if k = key then some v else get? es key

def has (es : Entries α) (key : String) : Bool := (es.get? key).isSome

/-- Gives a key a value: in its place if it is there, at the end otherwise. -/
def put : Entries α → String → α → Entries α
  | [], key, value => [(key, value)]
  | (k, v) :: es, key, value =>
    if k = key then (k, value) :: es else (k, v) :: put es key value

/-- Drops a key. -/
def erase : Entries α → String → Entries α
  | [], _ => []
  | (k, v) :: es, key => if k = key then es else (k, v) :: erase es key

/-- The pairs put one after the other. -/
def collect (pairs : List (String × α)) : Entries α :=
  pairs.foldl (fun es p => es.put p.1 p.2) []

/-! ### Keys -/

@[simp] theorem keys_nil : keys ([] : Entries α) = [] := rfl

@[simp] theorem keys_cons (p : String × α) (es : Entries α) : keys (p :: es) = p.1 :: keys es := rfl

theorem keys_put (es : Entries α) (key : String) (value : α) :
    (es.put key value).keys = if key ∈ es.keys then es.keys else es.keys ++ [key] := by
  induction es with
  | nil => simp [put]
  | cons p es ih =>
    by_cases h : p.1 = key
    · simp [put, h]
    · have h' : ¬ key = p.1 := fun e => h e.symm
      simp only [put, h, ↓reduceIte, keys_cons, ih, List.mem_cons, h', false_or]
      split <;> simp

theorem nodup_put {es : Entries α} (h : es.keys.Nodup) (key : String) (value : α) :
    (es.put key value).keys.Nodup := by
  rw [keys_put]
  split
  · exact h
  · rename_i hk
    rw [List.nodup_append]
    exact ⟨h, by simp, fun a ha b hb => by
      rw [List.mem_singleton] at hb
      exact fun e => hk (hb ▸ e ▸ ha)⟩

theorem keys_erase_sublist (es : Entries α) (key : String) :
    (es.erase key).keys.Sublist es.keys := by
  induction es with
  | nil => simp [erase]
  | cons p es ih =>
    by_cases h : p.1 = key
    · simp [erase, h]
    · simpa [erase, h] using ih.cons_cons p.1

theorem nodup_erase {es : Entries α} (h : es.keys.Nodup) (key : String) :
    (es.erase key).keys.Nodup :=
  h.sublist (keys_erase_sublist es key)

theorem nodup_foldl_put {es : Entries α} (h : es.keys.Nodup) (pairs : List (String × α)) :
    (pairs.foldl (fun es p => es.put p.1 p.2) es).keys.Nodup := by
  induction pairs generalizing es with
  | nil => exact h
  | cons p ps ih => exact ih (nodup_put h p.1 p.2)

theorem nodup_collect (pairs : List (String × α)) : (collect pairs).keys.Nodup :=
  nodup_foldl_put (by simp : (keys ([] : Entries α)).Nodup) pairs

/-! ### Values -/

theorem get?_put_self (es : Entries α) (key : String) (value : α) :
    (es.put key value).get? key = some value := by
  induction es with
  | nil => simp [put, get?]
  | cons p es ih =>
    by_cases h : p.1 = key
    · simp [put, get?, h]
    · simp [put, get?, h, ih]

theorem get?_put_of_ne (es : Entries α) {key other : String} (value : α) (h : other ≠ key) :
    (es.put key value).get? other = es.get? other := by
  induction es with
  | nil => simp [put, get?, h.symm]
  | cons p es ih =>
    by_cases hp : p.1 = key
    · simp [put, get?, hp, h.symm]
    · simp [put, get?, hp, ih]

theorem get?_eq_none_iff {es : Entries α} {key : String} : es.get? key = none ↔ key ∉ es.keys := by
  induction es with
  | nil => simp [get?]
  | cons p es ih =>
    by_cases h : p.1 = key
    · simp [get?, h]
    · have h' : ¬ key = p.1 := fun e => h e.symm
      simp [get?, h, h', ih]

end Entries

end Markup
