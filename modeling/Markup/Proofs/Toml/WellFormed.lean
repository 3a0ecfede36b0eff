import Mathlib.Data.List.Nodup
import Markup.Toml.Document

/-!
# Well-formed documents

No table of a document repeats a key, and every integer is one of 64 bits. Both are kept by each way
a statement changes a table, for a change of a table inside keeps them outside (`Keeps.within?`,
`Keeps.underHeader?`, `Keeps.underKey?`), and so statements with well-formed items build up a
well-formed table (`build?_wellFormed`).
-/

namespace Markup.Toml

/-- The names of a table's keys. -/
def Table.names (t : Table) : List String := t.map fun e => e.1.name

/-- No table of the item repeats a key, and its integers are those of 64 bits. -/
inductive Item.WellFormed : Item → Prop where
  | text {span : Span} {s : String} : WellFormed (.text span s)
  | integer {span : Span} {n : Int} (low : -0x8000000000000000 ≤ n)
    (high : n < 0x8000000000000000) : WellFormed (.integer span n)
  | float {span : Span} {x : Number} : WellFormed (.float span x)
  | boolean {span : Span} {b : Bool} : WellFormed (.boolean span b)
  | dateTime {span : Span} : WellFormed (.dateTime span)
  | array {span : Span} {items : List Item} (all : ∀ item ∈ items, WellFormed item) :
    WellFormed (.array span items)
  | table {shape : Shape} {t : List (Key × Item)} (nodup : (Table.names t).Nodup)
    (items : ∀ e ∈ t, WellFormed e.2) : WellFormed (.table shape t)
  | tables {members : List (Span × List (Key × Item))}
    (nodup : ∀ m ∈ members, (Table.names m.2).Nodup)
    (items : ∀ m ∈ members, ∀ e ∈ m.2, WellFormed e.2) : WellFormed (.tables members)

structure Table.WellFormed (t : Table) : Prop where
  nodup : t.names.Nodup
  items : ∀ e ∈ t, e.2.WellFormed

theorem Item.wellFormed_table {shape : Shape} {t : Table} :
    (Item.table shape t).WellFormed ↔ t.WellFormed := by
  refine ⟨fun h => ?_, fun h => .table h.nodup h.items⟩
  cases h with
  | table nodup items => exact ⟨nodup, items⟩

theorem Item.wellFormed_tables {members : List (Span × Table)} :
    (Item.tables members).WellFormed ↔ ∀ m ∈ members, Table.WellFormed m.2 := by
  refine ⟨fun h => ?_, fun h => .tables (fun m hm => (h m hm).nodup) fun m hm => (h m hm).items⟩
  cases h with
  | tables nodup items => exact fun m hm => ⟨nodup m hm, items m hm⟩

/-! ### Tables -/

namespace Table

variable {t t' : Table} {key : Key} {item : Item} {name : String}

theorem exists_mem_of_get? (h : t.get? name = some item) :
    ∃ key, (key, item) ∈ t ∧ key.name = name := by
  obtain ⟨e, he, rfl⟩ := Option.map_eq_some_iff.mp h
  exact ⟨e.1, List.mem_of_find?_eq_some he, by simpa using List.find?_some he⟩

theorem get?_eq_none_iff : t.get? name = none ↔ name ∉ t.names := by
  simp [get?, names]

theorem get?_of_mem (h : t.names.Nodup) {e : Key × Item} (he : e ∈ t) :
    t.get? e.1.name = some e.2 := by
  cases hget : t.get? e.1.name with
  | none => exact absurd (List.mem_map_of_mem he) (get?_eq_none_iff.mp hget)
  | some item =>
    obtain ⟨key, hmem, hname⟩ := exists_mem_of_get? hget
    rw [List.inj_on_of_nodup_map h he hmem hname.symm]

theorem get?_cons (e : Key × Item) (t : Table) (name : String) :
    Table.get? (e :: t) name = if e.1.name = name then some e.2 else t.get? name := by
  unfold get?
  rw [List.find?_cons]
  by_cases h : e.1.name = name <;> simp [h]

theorem wellFormed_nil : WellFormed [] := ⟨List.nodup_nil, nofun⟩

theorem WellFormed.get? (h : t.WellFormed) (hitem : t.get? name = some item) :
    item.WellFormed := by
  obtain ⟨key, hmem, -⟩ := exists_mem_of_get? hitem
  exact h.items _ hmem

theorem WellFormed.add (h : t.WellFormed) (hnone : t.get? key.name = none)
    (hitem : item.WellFormed) : (t.add key item).WellFormed := by
  have hkey := get?_eq_none_iff.mp hnone
  constructor
  · show (t ++ [(key, item)]).names.Nodup
    rw [names, List.map_append, List.nodup_append]
    refine ⟨h.nodup, by simp, fun a ha b hb => ?_⟩
    rw [List.mem_singleton.mp hb]
    rintro rfl
    exact hkey ha
  · intro e he
    rcases List.mem_append.mp he with he | he
    · exact h.items e he
    · rw [List.mem_singleton.mp he]
      exact hitem

theorem WellFormed.set (h : t.WellFormed) (hitem : item.WellFormed) :
    (t.set name item).WellFormed := by
  constructor
  · have hnames : (t.set name item).names = t.names := by
      rw [Table.set, names, List.map_map]
      refine List.map_congr_left fun e _ => ?_
      simp only [Function.comp_apply]
      split <;> rfl
    rw [hnames]
    exact h.nodup
  · intro e he
    obtain ⟨e', he', rfl⟩ := List.mem_map.mp he
    split
    · exact hitem
    · exact h.items e' he'

theorem WellFormed.erase (h : t.WellFormed) (name : String) : (t.erase name).WellFormed :=
  ⟨h.nodup.sublist (List.filter_sublist.map _), fun e he => h.items e (List.mem_filter.mp he).1⟩

theorem get?_erase_self (t : Table) (name : String) : (t.erase name).get? name = none := by
  rw [get?_eq_none_iff, names, List.mem_map]
  rintro ⟨e, he, hname⟩
  exact absurd hname (by simpa using (List.mem_filter.mp he).2)

/-! ### Changes of tables -/

/-- The change leaves a well-formed table well-formed. -/
def Keeps (change : Table → Option Table) : Prop :=
  ∀ t t', t.WellFormed → change t = some t' → t'.WellFormed

variable {change : Table → Option Table}

theorem keeps_insert? (key : Key) (hitem : item.WellFormed) : Keeps (insert? key item) := by
  intro t t' ht h
  unfold insert? at h
  split at h
  · next hnone =>
    cases h
    exact ht.add hnone hitem
  · cases h

theorem keeps_open? (key : Key) (span : Span) : Keeps (open? key span) := by
  intro t t' ht h
  unfold open? at h
  split at h
  · next hnone =>
    cases h
    exact ht.add hnone (Item.wellFormed_table.mpr wellFormed_nil)
  · next sub hsub =>
    cases h
    have hitem := Item.wellFormed_table.mp (ht.get? hsub)
    exact (ht.erase key.name).add (get?_erase_self t key.name) (Item.wellFormed_table.mpr hitem)
  · cases h

theorem keeps_openNext? (key : Key) (span : Span) : Keeps (openNext? key span) := by
  intro t t' ht h
  unfold openNext? at h
  split at h
  · next hnone =>
    cases h
    exact ht.add hnone (Item.wellFormed_tables.mpr (List.forall_mem_singleton.mpr wellFormed_nil))
  · next members hmembers =>
    cases h
    have hitems := Item.wellFormed_tables.mp (ht.get? hmembers)
    exact ht.set (Item.wellFormed_tables.mpr
      (List.forall_mem_append.mpr ⟨hitems, List.forall_mem_singleton.mpr wellFormed_nil⟩))
  · cases h

theorem Keeps.changeLast? (hchange : Keeps change) {members members' : List (Span × Table)}
    (hmembers : ∀ m ∈ members, m.2.WellFormed) (h : changeLast? change members = some members') :
    ∀ m ∈ members', m.2.WellFormed := by
  induction members generalizing members' with
  | nil => cases h
  | cons m members ih =>
    obtain ⟨hm, hrest⟩ := List.forall_mem_cons.mp hmembers
    cases members with
    | nil =>
      obtain ⟨t', ht', h⟩ := Option.bind_eq_some_iff.mp h
      cases h
      exact List.forall_mem_singleton.mpr (hchange _ _ hm ht')
    | cons n members =>
      obtain ⟨rest', hrest', h⟩ := Option.bind_eq_some_iff.mp h
      cases h
      exact List.forall_mem_cons.mpr ⟨hm, ih hrest hrest'⟩

/-- A change of a table inside, in its place. -/
theorem WellFormed.setTable {shape shape' : Shape} {sub : Table} (ht : t.WellFormed)
    (hsub : t.get? name = some (.table shape sub)) (hchange : Keeps change)
    (h : (do return t.set name (.table shape' (← change sub))) = some t') : t'.WellFormed := by
  obtain ⟨sub', hsub', h⟩ := Option.bind_eq_some_iff.mp h
  cases h
  have hinner := hchange _ _ (Item.wellFormed_table.mp (ht.get? hsub)) hsub'
  exact ht.set (Item.wellFormed_table.mpr hinner)

/-- A change of the last of the tables under one name. -/
theorem WellFormed.setTables {members : List (Span × Table)} (ht : t.WellFormed)
    (hmembers : t.get? name = some (.tables members)) (hchange : Keeps change)
    (h : (do return t.set name (.tables (← Table.changeLast? change members))) = some t') :
    t'.WellFormed := by
  obtain ⟨members', hmembers', h⟩ := Option.bind_eq_some_iff.mp h
  cases h
  have hinner := hchange.changeLast? (Item.wellFormed_tables.mp (ht.get? hmembers)) hmembers'
  exact ht.set (Item.wellFormed_tables.mpr hinner)

/-- A new table that a change makes from nothing. -/
theorem WellFormed.addTable {shape : Shape} (ht : t.WellFormed) (hnone : t.get? key.name = none)
    (hchange : Keeps change) (h : (do return t.add key (.table shape (← change []))) = some t') :
    t'.WellFormed := by
  obtain ⟨sub', hsub', h⟩ := Option.bind_eq_some_iff.mp h
  cases h
  exact ht.add hnone (Item.wellFormed_table.mpr (hchange _ _ wellFormed_nil hsub'))

theorem Keeps.within? (hchange : Keeps change) (path : List Key) :
    Keeps (within? change path) := by
  induction path with
  | nil => exact hchange
  | cons k path ih =>
    intro t t' ht h
    unfold Table.within? at h
    split at h
    · next hsub => exact ht.setTable hsub ih h
    · next hmembers => exact ht.setTables hmembers ih h
    · cases h

theorem Keeps.underHeader? (hchange : Keeps change) (path : List Key) :
    Keeps (underHeader? change path) := by
  induction path with
  | nil => exact hchange
  | cons k path ih =>
    intro t t' ht h
    unfold Table.underHeader? at h
    split at h
    · next hnone => exact ht.addTable hnone ih h
    · cases h
    · next hsub _ => exact ht.setTable ‹_› ih h
    · next hmembers => exact ht.setTables hmembers ih h
    · cases h

theorem Keeps.underKey? (hchange : Keeps change) (path : List Key) :
    Keeps (underKey? change path) := by
  induction path with
  | nil => exact hchange
  | cons k path ih =>
    intro t t' ht h
    unfold Table.underKey? at h
    split at h
    · next hnone => exact ht.addTable hnone ih h
    · next hsub => exact ht.setTable hsub ih h
    · next hsub =>
      split at h
      · cases h
      · exact ht.setTable hsub ih h
    · next hmembers =>
      split at h
      · cases h
      · exact ht.setTables hmembers ih h
    · cases h

theorem keeps_assign? (path : List Key) (key : Key) (hitem : item.WellFormed) :
    Keeps (assign? path key item) := (keeps_insert? key hitem).underKey? path

end Table

/-! ### Documents -/

/-- What a statement brings is well-formed. -/
def Statement.WellFormed : Statement → Prop
  | assign _ _ item => item.WellFormed
  | header _ _ _ | nextHeader _ _ _ => True

theorem Draft.step?_wellFormed {d d' : Draft} {s : Statement} (hd : d.root.WellFormed)
    (hs : s.WellFormed) (h : d.step? s = some d') : d'.root.WellFormed := by
  cases s with
  | assign path key item =>
    obtain ⟨root, hroot, h⟩ := Option.bind_eq_some_iff.mp h
    cases h
    exact (Table.keeps_assign? path key hs).within? d.current _ _ hd hroot
  | header path key span =>
    obtain ⟨root, hroot, h⟩ := Option.bind_eq_some_iff.mp h
    cases h
    exact (Table.keeps_open? key span).underHeader? path _ _ hd hroot
  | nextHeader path key span =>
    obtain ⟨root, hroot, h⟩ := Option.bind_eq_some_iff.mp h
    cases h
    exact (Table.keeps_openNext? key span).underHeader? path _ _ hd hroot

theorem foldlM_step?_wellFormed {statements : List Statement} {d d' : Draft}
    (hd : d.root.WellFormed) (hs : ∀ s ∈ statements, s.WellFormed)
    (h : statements.foldlM Draft.step? d = some d') : d'.root.WellFormed := by
  induction statements generalizing d with
  | nil =>
    cases h
    exact hd
  | cons s statements ih =>
    obtain ⟨hfirst, hrest⟩ := List.forall_mem_cons.mp hs
    obtain ⟨d₁, hstep, h⟩ := Option.bind_eq_some_iff.mp h
    exact ih (Draft.step?_wellFormed hd hfirst hstep) hrest h

theorem withValues_wellFormed {statements : List Statement}
    (h : ∀ s ∈ statements, s.WellFormed) : ∀ s ∈ withValues statements, s.WellFormed := by
  induction statements with
  | nil => exact h
  | cons s statements ih =>
    obtain ⟨hfirst, hrest⟩ := List.forall_mem_cons.mp h
    cases s <;> exact List.forall_mem_cons.mpr ⟨hfirst, ih hrest⟩

/-- The table that well-formed statements build up. -/
theorem build?_wellFormed {statements : List Statement} {t : Table}
    (hs : ∀ s ∈ statements, s.WellFormed) (h : build? statements = some t) : t.WellFormed := by
  obtain ⟨d, hd, h⟩ := Option.bind_eq_some_iff.mp h
  cases h
  exact foldlM_step?_wellFormed Table.wellFormed_nil (withValues_wellFormed hs) hd

end Markup.Toml
