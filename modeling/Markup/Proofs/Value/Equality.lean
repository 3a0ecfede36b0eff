import Mathlib.Data.List.Forall2
import Mathlib.Data.List.Perm.Subperm
import Markup.AttributeMap.Basic
import Markup.Escape
import Markup.Proofs.Number.Decimal
import Markup.Proofs.Value.Normal

/-!
# Equality of values

`Value.equal` is symmetric and transitive, but a value equals itself only if no not-a-number is
reached in it through lists and maps (`Reach`). An object equals itself whatever it projects to.

Maps are compared from one side, by their sizes and a lookup of each key of the first in the second.
Since no key repeats, the second then has no other keys (`keys_perm_of_subset`), so that the
comparison says the same from both sides: the maps have the same keys, with equal values
(`EqualByKey`). The order of the entries does not matter.

Equal values have the same text, if the same object does not project to two things (`SameObjects`).
`equal_laws` states all of this.
-/

namespace Markup

namespace Entries

variable {α : Type} {as bs : Entries α}

/-- If others have all the keys of some entries and are no more than these, the keys are the same. -/
theorem keys_perm_of_subset (ha : as.keys.Nodup) (hlen : as.length = bs.length)
    (hsub : ∀ key ∈ as.keys, key ∈ bs.keys) : as.keys.Perm bs.keys := by
  refine (ha.subperm hsub).perm_of_length_le ?_
  rw [length_keys, length_keys, hlen]

end Entries

namespace Number

/-- Numbers are equal if they are the same and not `nan`, or both are zero. -/
theorem equal_iff {a b : Number} :
    a.equal b = true ↔ (a = b ∧ a ≠ nan) ∨ (a.isZero = true ∧ b.isZero = true) := by
  cases a with
  | nan => cases b <;> simp [equal, isZero]
  | infinite s => cases b <;> simp [equal, isZero]
  | finite s m =>
    cases b with
    | nan | infinite t => simp [equal, isZero]
    | finite t n =>
      simp only [equal, isZero, Magnitude.isZero_iff, Bool.and_eq_true, Bool.or_eq_true,
        beq_iff_eq, finite.injEq]
      constructor
      · rintro ⟨rfl, rfl | rfl⟩ <;> simp
      · rintro (⟨⟨rfl, rfl⟩, -⟩ | ⟨rfl, rfl⟩) <;> simp

theorem equal_symm {a b : Number} (h : a.equal b = true) : b.equal a = true := by
  rw [equal_iff] at h ⊢
  rcases h with ⟨rfl, h⟩ | ⟨ha, hb⟩
  · exact .inl ⟨rfl, h⟩
  · exact .inr ⟨hb, ha⟩

theorem equal_trans {a b c : Number} (h : a.equal b = true) (h' : b.equal c = true) :
    a.equal c = true := by
  rw [equal_iff] at h h' ⊢
  rcases h with ⟨rfl, -⟩ | ⟨ha, hb⟩
  · exact h'
  · rcases h' with ⟨rfl, -⟩ | ⟨-, hc⟩
    · exact .inr ⟨ha, hb⟩
    · exact .inr ⟨ha, hc⟩

theorem equal_self_iff {a : Number} : a.equal a = true ↔ a ≠ nan := by
  rw [equal_iff]
  cases a <;> simp [isZero]

theorem display_of_equal {a b : Number} (h : a.equal b = true) : a.display = b.display := by
  rcases equal_iff.mp h with ⟨rfl, -⟩ | ⟨ha, hb⟩
  · rfl
  · rw [Value.display_of_isZero ha, Value.display_of_isZero hb]

end Number

namespace Value

/-- Induction on a value, with the items of lists and the entries of maps taken together. -/
@[elab_as_elim]
theorem induction {motive : Value → Prop} (null : motive null) (bool : ∀ b, motive (bool b))
    (number : ∀ n, motive (number n)) (text : ∀ s, motive (text s))
    (list : ∀ items, (∀ v ∈ items, motive v) → motive (list items))
    (map : ∀ entries, (∀ e ∈ entries, motive e.2) → motive (map entries))
    (object : ∀ id v, motive v → motive (object id v)) (v : Value) : motive v :=
  -- lists and entries have a motive each: that of values for all of them
  @Value.rec motive (fun items => ∀ v ∈ items, motive v) (fun entries => ∀ e ∈ entries, motive e.2)
    (fun e => motive e.2) null bool number text list map object
    (List.forall_mem_nil _) (fun _ _ hv hvs => List.forall_mem_cons.mpr ⟨hv, hvs⟩)
    (List.forall_mem_nil _) (fun _ _ he hes => List.forall_mem_cons.mpr ⟨he, hes⟩) (fun _ _ h => h) v

/-- The value `u` stands in another, inside lists and maps. What an object projects to is not
reached. -/
inductive Reach (u : Value) : Value → Prop where
  | self : Reach u u
  | item {v : Value} {items : List Value} (mem : v ∈ items) (reach : Reach u v) :
    Reach u (list items)
  | entry {k : String} {v : Value} {entries : List (String × Value)} (mem : (k, v) ∈ entries)
    (reach : Reach u v) : Reach u (map entries)

section Reach

variable {u v : Value}

@[simp] theorem reach_null_iff : Reach u null ↔ u = null :=
  ⟨fun h => by cases h; rfl, fun h => h ▸ .self⟩

@[simp] theorem reach_bool_iff {b : Bool} : Reach u (bool b) ↔ u = bool b :=
  ⟨fun h => by cases h; rfl, fun h => h ▸ .self⟩

@[simp] theorem reach_number_iff {n : Number} : Reach u (number n) ↔ u = number n :=
  ⟨fun h => by cases h; rfl, fun h => h ▸ .self⟩

@[simp] theorem reach_text_iff {s : String} : Reach u (text s) ↔ u = text s :=
  ⟨fun h => by cases h; rfl, fun h => h ▸ .self⟩

@[simp] theorem reach_object_iff {id : Nat} : Reach u (object id v) ↔ u = object id v :=
  ⟨fun h => by cases h; rfl, fun h => h ▸ .self⟩

@[simp] theorem reach_list_iff {items : List Value} :
    Reach u (list items) ↔ u = list items ∨ ∃ v ∈ items, Reach u v := by
  constructor
  · intro h
    cases h with
    | self => exact .inl rfl
    | item mem reach => exact .inr ⟨_, mem, reach⟩
  · rintro (rfl | ⟨v, mem, reach⟩)
    · exact .self
    · exact .item mem reach

@[simp] theorem reach_map_iff {entries : Entries Value} :
    Reach u (map entries) ↔ u = map entries ∨ ∃ e ∈ entries, Reach u e.2 := by
  constructor
  · intro h
    cases h with
    | self => exact .inl rfl
    | entry mem reach => exact .inr ⟨_, mem, reach⟩
  · rintro (rfl | ⟨e, mem, reach⟩)
    · exact .self
    · exact .entry mem reach

end Reach

/-- Entries with the same keys, and with equal values under each. -/
def EqualByKey (as bs : Entries Value) : Prop :=
  (∀ key, key ∈ as.keys ↔ key ∈ bs.keys) ∧
    ∀ key a b, as.get? key = some a → bs.get? key = some b → a.equal b = true

/-- An object of both values projects to one thing. -/
def SameObjects (a b : Value) : Prop :=
  ∀ id p q, Reach (object id p) a → Reach (object id q) b → p = q

/-! ### What a value equals -/

theorem equalItems_iff {as bs : List Value} :
    equalItems as bs = true ↔ List.Forall₂ (fun a b => a.equal b = true) as bs := by
  induction as generalizing bs with
  | nil => cases bs <;> simp [equalItems]
  | cons a as ih => cases bs <;> simp [equalItems, ih]

theorem agrees_iff {as bs : Entries Value} :
    agrees as bs = true ↔ ∀ e ∈ as, ∃ b, bs.get? e.1 = some b ∧ e.2.equal b = true := by
  induction as with
  | nil => simp [agrees]
  | cons e as ih =>
    rw [agrees, Bool.and_eq_true, ih, List.forall_mem_cons]
    refine and_congr_left' ?_
    cases bs.get? e.1 <;> simp

section

variable {v : Value}

theorem null_equal_iff : null.equal v = true ↔ v = null := by
  cases v with
  | null => exact iff_of_true rfl rfl
  | _ => exact iff_of_false Bool.false_ne_true nofun

theorem bool_equal_iff {b : Bool} : (bool b).equal v = true ↔ v = bool b := by
  cases v with
  | bool c =>
    show (b == c) = true ↔ _
    simp [@eq_comm _ b]
  | _ => exact iff_of_false Bool.false_ne_true nofun

theorem number_equal_iff {n : Number} :
    (number n).equal v = true ↔ ∃ m, v = number m ∧ n.equal m = true := by
  cases v with
  | number m =>
    show n.equal m = true ↔ _
    simp
  | _ => exact iff_of_false Bool.false_ne_true (by simp)

theorem text_equal_iff {s : String} : (text s).equal v = true ↔ v = text s := by
  cases v with
  | text t =>
    show (s == t) = true ↔ _
    simp [@eq_comm _ s]
  | _ => exact iff_of_false Bool.false_ne_true nofun

theorem list_equal_iff {as : List Value} :
    (list as).equal v = true ↔ ∃ bs, v = list bs ∧ List.Forall₂ (fun a b => a.equal b = true) as bs := by
  cases v with
  | list bs =>
    show equalItems as bs = true ↔ _
    simp [equalItems_iff]
  | _ => exact iff_of_false Bool.false_ne_true (by simp)

theorem map_equal_iff {as : Entries Value} :
    (map as).equal v = true ↔ ∃ bs, v = map bs ∧ as.length = bs.length ∧
      ∀ e ∈ as, ∃ b, Entries.get? bs e.1 = some b ∧ e.2.equal b = true := by
  cases v with
  | map bs =>
    show (as.length == bs.length && agrees as bs) = true ↔ _
    simp [agrees_iff]
  | _ => exact iff_of_false Bool.false_ne_true (by simp)

theorem object_equal_iff {id : Nat} {p : Value} :
    (object id p).equal v = true ↔ ∃ q, v = object id q := by
  cases v with
  | object id' q =>
    show (id == id') = true ↔ _
    simp [@eq_comm _ id]
  | _ => exact iff_of_false Bool.false_ne_true (by simp)

end

/-! ### Maps -/

variable {as bs : Entries Value}

theorem map_equal_map_iff : (map as).equal (map bs) = true ↔
    as.length = bs.length ∧ ∀ e ∈ as, ∃ b, bs.get? e.1 = some b ∧ e.2.equal b = true := by
  simp [map_equal_iff]

/-- The keys of a map equal to one without repeated keys are its keys. -/
theorem keys_perm_of_equal (ha : as.keys.Nodup) (h : (map as).equal (map bs) = true) :
    as.keys.Perm bs.keys := by
  obtain ⟨hlen, hall⟩ := map_equal_map_iff.mp h
  refine Entries.keys_perm_of_subset ha hlen fun key hkey => ?_
  obtain ⟨e, he, rfl⟩ := List.mem_map.mp hkey
  obtain ⟨b, hb, -⟩ := hall e he
  exact Entries.get?_isSome_iff.mp (Option.isSome_of_eq_some hb)

/-- The comparison from one side says the same as one that looks at both. -/
theorem map_equal_iff_equalByKey (ha : as.keys.Nodup) (hb : bs.keys.Nodup) :
    (map as).equal (map bs) = true ↔ EqualByKey as bs := by
  constructor
  · intro h
    refine ⟨fun key => (keys_perm_of_equal ha h).mem_iff, fun key a b hga hgb => ?_⟩
    obtain ⟨b', hgb', heq⟩ := (map_equal_map_iff.mp h).2 (key, a) (Entries.mem_of_get? hga)
    rw [hgb, Option.some.injEq] at hgb'
    rwa [hgb']
  · rintro ⟨hkeys, hvalues⟩
    have hperm : as.keys.Perm bs.keys := (List.perm_ext_iff_of_nodup ha hb).mpr hkeys
    have hlen := hperm.length_eq
    rw [Entries.length_keys, Entries.length_keys] at hlen
    refine map_equal_map_iff.mpr ⟨hlen, fun e he => ?_⟩
    have hkey : e.1 ∈ bs.keys := hperm.mem_iff.mp (List.mem_map_of_mem he)
    obtain ⟨b, hgb⟩ := Option.isSome_iff_exists.mp (Entries.get?_isSome_iff.mpr hkey)
    exact ⟨b, hgb, hvalues e.1 e.2 b (Entries.get?_of_mem ha he) hgb⟩

/-- The order of the entries does not matter. -/
theorem map_equal_of_perm {as' bs' : Entries Value} (ha : as.keys.Nodup) (hb : bs.keys.Nodup)
    (has : as.Perm as') (hbs : bs.Perm bs') :
    (map as).equal (map bs) = (map as').equal (map bs') := by
  have ha' : as'.keys.Nodup := (has.map Prod.fst).nodup_iff.mp ha
  have hb' : bs'.keys.Nodup := (hbs.map Prod.fst).nodup_iff.mp hb
  rw [Bool.eq_iff_iff, map_equal_iff_equalByKey ha hb, map_equal_iff_equalByKey ha' hb']
  simp only [EqualByKey, Entries.get?_of_perm ha has, Entries.get?_of_perm hb hbs,
    ← Entries.get?_isSome_iff]

/-! ### Symmetry and transitivity -/

theorem wellFormed_list_iff {items : List Value} :
    (list items).WellFormed ↔ ∀ v ∈ items, v.WellFormed := by
  rw [WellFormed]
  induction items with
  | nil => simp [WellFormedItems]
  | cons v vs ih => simp [WellFormedItems, ih]

theorem wellFormed_map_iff :
    (map as).WellFormed ↔ as.keys.Nodup ∧ ∀ e ∈ as, e.2.WellFormed := by
  rw [WellFormed]
  refine and_congr_right' ?_
  induction as with
  | nil => simp [WellFormedEntries]
  | cons e es ih => simp [WellFormedEntries, ih]

theorem equal_symm {a b : Value} (ha : a.WellFormed) (h : a.equal b = true) : b.equal a = true := by
  induction a using induction generalizing b with
  | null =>
    obtain rfl := null_equal_iff.mp h
    exact h
  | bool x =>
    obtain rfl := bool_equal_iff.mp h
    exact h
  | number n =>
    obtain ⟨m, rfl, h⟩ := number_equal_iff.mp h
    exact number_equal_iff.mpr ⟨n, rfl, Number.equal_symm h⟩
  | text s =>
    obtain rfl := text_equal_iff.mp h
    exact h
  | list as ih =>
    obtain ⟨bs, rfl, hall⟩ := list_equal_iff.mp h
    rw [wellFormed_list_iff] at ha
    rw [List.forall₂_iff_zip] at hall
    refine list_equal_iff.mpr ⟨as, rfl, .flip (List.forall₂_iff_zip.mpr ⟨hall.1, fun {a b} hab => ?_⟩)⟩
    have hmem := (List.of_mem_zip hab).1
    exact ih a hmem (ha a hmem) (hall.2 hab)
  | map as ih =>
    obtain ⟨bs, rfl, -⟩ := map_equal_iff.mp h
    obtain ⟨hn, ha⟩ := wellFormed_map_iff.mp ha
    have hnb : (Entries.keys bs).Nodup := (keys_perm_of_equal hn h).nodup_iff.mp hn
    obtain ⟨hkeys, hvalues⟩ := (map_equal_iff_equalByKey hn hnb).mp h
    refine (map_equal_iff_equalByKey hnb hn).mpr ⟨fun key => (hkeys key).symm, ?_⟩
    intro key b a hgb hga
    have hmem := Entries.mem_of_get? hga
    exact ih (key, a) hmem (ha (key, a) hmem) (hvalues key a b hga hgb)
  | object id p =>
    obtain ⟨q, rfl⟩ := object_equal_iff.mp h
    exact object_equal_iff.mpr ⟨p, rfl⟩

theorem equal_comm {a b : Value} (ha : a.WellFormed) (hb : b.WellFormed) :
    a.equal b = b.equal a :=
  Bool.eq_iff_iff.mpr ⟨equal_symm ha, equal_symm hb⟩

theorem forall₂_trans {as bs cs : List Value}
    (ih : ∀ a ∈ as, ∀ b c, a.equal b = true → b.equal c = true → a.equal c = true)
    (hab : List.Forall₂ (fun a b => a.equal b = true) as bs)
    (hbc : List.Forall₂ (fun b c => b.equal c = true) bs cs) :
    List.Forall₂ (fun a c => a.equal c = true) as cs := by
  induction hab generalizing cs with
  | nil => exact hbc
  | @cons a b as bs hab _ ihs =>
    cases hbc with
    | @cons _ c _ cs hbc hrest =>
      rw [List.forall_mem_cons] at ih
      exact .cons (ih.1 b c hab hbc) (ihs ih.2 hrest)

theorem equal_trans {a b c : Value} (h : a.equal b = true) (h' : b.equal c = true) :
    a.equal c = true := by
  induction a using induction generalizing b c with
  | null =>
    obtain rfl := null_equal_iff.mp h
    exact h'
  | bool x =>
    obtain rfl := bool_equal_iff.mp h
    exact h'
  | number n =>
    obtain ⟨m, rfl, h⟩ := number_equal_iff.mp h
    obtain ⟨l, rfl, h'⟩ := number_equal_iff.mp h'
    exact number_equal_iff.mpr ⟨l, rfl, Number.equal_trans h h'⟩
  | text s =>
    obtain rfl := text_equal_iff.mp h
    exact h'
  | list as ih =>
    obtain ⟨bs, rfl, hab⟩ := list_equal_iff.mp h
    obtain ⟨cs, rfl, hbc⟩ := list_equal_iff.mp h'
    exact list_equal_iff.mpr ⟨cs, rfl, forall₂_trans (fun a ha b c => ih a ha) hab hbc⟩
  | map as ih =>
    obtain ⟨bs, rfl, hlen, hab⟩ := map_equal_iff.mp h
    obtain ⟨cs, rfl, hlen', hbc⟩ := map_equal_iff.mp h'
    refine map_equal_iff.mpr ⟨cs, rfl, hlen.trans hlen', fun e he => ?_⟩
    obtain ⟨b, hgb, heb⟩ := hab e he
    obtain ⟨c, hgc, hbc⟩ := hbc (e.1, b) (Entries.mem_of_get? hgb)
    exact ⟨c, hgc, ih e he heb hbc⟩
  | object id p =>
    obtain ⟨q, rfl⟩ := object_equal_iff.mp h
    exact object_equal_iff.mpr (object_equal_iff.mp h')

/-! ### Values that equal themselves -/

/-- A value equals itself exactly if no not-a-number is reached in it. -/
theorem equal_self_iff {v : Value} (hv : v.WellFormed) :
    v.equal v = true ↔ ¬ Reach (number .nan) v := by
  induction v using induction with
  | null => simp [null_equal_iff]
  | bool b => simp [bool_equal_iff]
  | number n => simp [number_equal_iff, Number.equal_self_iff, @eq_comm _ Number.nan]
  | text s => simp [text_equal_iff]
  | list items ih =>
    rw [wellFormed_list_iff] at hv
    have hitems : (list items).equal (list items) = true ↔ ∀ v ∈ items, v.equal v = true := by
      simp [list_equal_iff, List.forall₂_same]
    rw [hitems]
    simp only [reach_list_iff, reduceCtorEq, false_or, not_exists, not_and]
    exact forall₂_congr fun v hmem => ih v hmem (hv v hmem)
  | map entries ih =>
    obtain ⟨hn, hv⟩ := wellFormed_map_iff.mp hv
    have hentries : (map entries).equal (map entries) = true ↔
        ∀ e ∈ entries, e.2.equal e.2 = true := by
      rw [map_equal_map_iff, and_iff_right rfl]
      refine forall₂_congr fun e hmem => ?_
      simp [Entries.get?_of_mem hn hmem]
    rw [hentries]
    simp only [reach_map_iff, reduceCtorEq, false_or, not_exists, not_and]
    exact forall₂_congr fun e hmem => ih e hmem (hv e hmem)
  | object id p => simp [object_equal_iff]

/-! ### Texts of equal values -/

theorem isNull_of_equal {a b : Value} (h : a.equal b = true) : a.isNull = b.isNull := by
  cases a <;> cases b <;> first | rfl | exact absurd h Bool.false_ne_true

theorem isTruthy_of_equal {a b : Value} (h : a.equal b = true) : a.isTruthy = b.isTruthy := by
  cases a with
  | null => rw [null_equal_iff.mp h]
  | bool x => rw [bool_equal_iff.mp h]
  | number n =>
    obtain ⟨m, rfl, h⟩ := number_equal_iff.mp h
    rcases Number.equal_iff.mp h with ⟨rfl, -⟩ | ⟨hn, hm⟩
    · rfl
    · rw [isTruthy_of_isZero hn, isTruthy_of_isZero hm]
  | text s => rw [text_equal_iff.mp h]
  | list as =>
    obtain ⟨bs, rfl, -⟩ := list_equal_iff.mp h
    rfl
  | map as =>
    obtain ⟨bs, rfl, -⟩ := map_equal_iff.mp h
    rfl
  | object id p =>
    obtain ⟨q, rfl⟩ := object_equal_iff.mp h
    rfl

theorem displayItems_congr {as bs : List Value}
    (h : List.Forall₂ (fun a b => a.isNull = b.isNull ∧ a.display = b.display) as bs) :
    displayItems as = displayItems bs := by
  induction h with
  | nil => rfl
  | cons h _ ih => rw [displayItems, displayItems, h.1, h.2, ih]

theorem display_of_equal {a b : Value} (hab : SameObjects a b) (h : a.equal b = true) :
    a.display = b.display := by
  induction a using induction generalizing b with
  | null => rw [null_equal_iff.mp h]
  | bool x => rw [bool_equal_iff.mp h]
  | number n =>
    obtain ⟨m, rfl, h⟩ := number_equal_iff.mp h
    rw [display, display, Number.display_of_equal h]
  | text s => rw [text_equal_iff.mp h]
  | list as ih =>
    obtain ⟨bs, rfl, hall⟩ := list_equal_iff.mp h
    rw [List.forall₂_iff_zip] at hall
    rw [display, display, displayItems_congr (List.forall₂_iff_zip.mpr ⟨hall.1, fun {a b} hmem => ?_⟩)]
    obtain ⟨ha, hb⟩ := List.of_mem_zip hmem
    have hsame : SameObjects a b := fun id p q hp hq => hab id p q (.item ha hp) (.item hb hq)
    exact ⟨isNull_of_equal (hall.2 hmem), ih a ha hsame (hall.2 hmem)⟩
  | map as =>
    obtain ⟨bs, rfl, -⟩ := map_equal_iff.mp h
    rfl
  | object id p =>
    obtain ⟨q, rfl⟩ := object_equal_iff.mp h
    rw [hab id p q .self .self]

/-! ### The laws -/

/-- Equality of values that repeat no key is symmetric and transitive, and holds of a value with
itself exactly if no not-a-number is reached in it. An object equals itself and nothing else. Maps
are equal exactly if they have the same keys with equal values, in whatever order. Equal values are
both truthy or both falsy and have the same texts, and a copy of a map equals the map exactly if the
map equals itself. -/
theorem equal_laws :
    (∀ a b : Value, a.WellFormed → b.WellFormed → a.equal b = b.equal a) ∧
    (∀ a b c : Value, a.equal b = true → b.equal c = true → a.equal c = true) ∧
    (∀ v : Value, v.WellFormed → (v.equal v = true ↔ ¬ Reach (number .nan) v)) ∧
    (∀ id p v, (object id p).equal v = true ↔ ∃ q, v = object id q) ∧
    (∀ as bs : Entries Value, as.keys.Nodup → bs.keys.Nodup →
      ((map as).equal (map bs) = true ↔ EqualByKey as bs) ∧
      ∀ as' bs', as.Perm as' → bs.Perm bs' →
        (map as).equal (map bs) = (map as').equal (map bs')) ∧
    (∀ a b : AttributeMap, (a.equal b = true ↔ EqualByKey a.entries b.entries) ∧
      ∀ a' b' : AttributeMap, a.entries.Perm a'.entries → b.entries.Perm b'.entries →
        a.equal b = a'.equal b') ∧
    (∀ a b : Value, a.equal b = true → a.isTruthy = b.isTruthy ∧
      (SameObjects a b → a.display = b.display ∧ a.escaped = b.escaped)) ∧
    (∀ m : AttributeMap, m.toValue.WellFormed →
      (m.equal m.copy = true ↔ ¬ Reach (number .nan) m.toValue)) := by
  refine ⟨fun _ _ => equal_comm, fun _ _ _ => equal_trans, fun _ => equal_self_iff,
    fun _ _ _ => object_equal_iff,
    fun as bs ha hb => ⟨map_equal_iff_equalByKey ha hb, fun _ _ => map_equal_of_perm ha hb⟩,
    fun a b => ⟨map_equal_iff_equalByKey a.nodup b.nodup,
      fun _ _ => map_equal_of_perm a.nodup b.nodup⟩,
    fun a b h => ⟨isTruthy_of_equal h, fun hsame => ?_⟩, fun m hm => ?_⟩
  · have hdisplay := display_of_equal hsame h
    exact ⟨hdisplay, congrArg escape hdisplay⟩
  · rw [m.copy_eq]
    exact equal_self_iff hm

/-- A zero, an object that projects to a not-a-number, and a text. -/
def plain : AttributeMap where
  entries := [("x", list [number .zero, object 7 (number .nan)]), ("y", text "<é>")]
  nodup := by decide

/-- The same in another order, with a sign on the zero. -/
def reordered : AttributeMap where
  entries := [("y", text "<é>"), ("x", list [number (.finite true .zero), object 7 (number .nan)])]
  nodup := by decide

theorem equal_laws_reordered :
    plain.toValue.WellFormed ∧ reordered.toValue.WellFormed ∧
    SameObjects plain.toValue reordered.toValue ∧
    plain.equal reordered = true ∧ reordered.equal plain = true ∧ plain.equal plain.copy = true ∧
    plain.toValue.escaped = reordered.toValue.escaped ∧
    ¬ (list [null, number .nan]).equal (list [null, number .nan]) = true := by
  obtain ⟨hsymm, -, hself, -, -, -, htexts, hcopy⟩ := equal_laws
  have hplain : plain.toValue.WellFormed := by
    simp [plain, AttributeMap.toValue, WellFormed, WellFormedItems, WellFormedEntries]
  have hreordered : reordered.toValue.WellFormed := by
    simp [reordered, AttributeMap.toValue, WellFormed, WellFormedItems, WellFormedEntries]
  have hsame : SameObjects plain.toValue reordered.toValue := by
    simp only [SameObjects, plain, reordered, AttributeMap.toValue]
    intro id p q hp hq
    simp at hp hq
    rw [hp.2, hq.2]
  have hequal : plain.equal reordered = true := by decide
  have hback : reordered.equal plain = true := (hsymm _ _ hreordered hplain).trans hequal
  have hreach : ¬ Reach (number .nan) plain.toValue := by
    simp [plain, AttributeMap.toValue, Number.zero]
  refine ⟨hplain, hreordered, hsame, hequal, hback, (hcopy plain hplain).mpr hreach,
    ((htexts _ _ hequal).2 hsame).2, ?_⟩
  rw [hself _ (by simp [WellFormed, WellFormedItems])]
  simp

end Value

end Markup
