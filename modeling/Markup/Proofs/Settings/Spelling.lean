import Markup.Proofs.Settings.Contents
import Markup.Proofs.Toml.Contents

/-!
# Spellings of a settings document

Documents that say the same have the same contents (`alike_of_sayAlike`), for what stands in a table is
what is said of it. A table spelled in one way says the same as a table of the same entries spelled in
another (`sayAlike_of_spelling`), and so do documents that are put together from such tables
(`SayAlike.append`). All of it goes from what is said at a path to what is said further down.
-/

namespace Markup.Settings

open Toml

/-- Whatever one says the other says, up to how items are written. -/
def SaidIn (F F' : Facts) : Prop :=
  ∀ path x, F path x → ∃ x', F' path x' ∧ Option.Rel SameContents x x'

/-- Both say the same. -/
structure SayAlike (F F' : Facts) : Prop where
  left : SaidIn F F'
  right : SaidIn F' F

variable {F F' G G' : Facts} {item item' : Item} {t t' : Table} {name : String} {path : List String}
  {x x' : Option Item} {keys keys' : List Key}

/-! ### Facts -/

theorem saidIn_atRoot : SaidIn AtRoot AtRoot := by
  rintro path x ⟨rfl, rfl⟩
  exact ⟨none, ⟨rfl, rfl⟩, .none⟩

theorem SaidIn.congr (h : SaidIn F F') (hF : ∀ path x, G path x ↔ F path x)
    (hF' : ∀ path x, G' path x ↔ F' path x) : SaidIn G G' := by
  intro path x hG
  obtain ⟨x', hx', hsame⟩ := h path x ((hF path x).mp hG)
  exact ⟨x', (hF' path x').mpr hx', hsame⟩

theorem SaidIn.or (h : SaidIn F F') (h' : SaidIn G G') :
    SaidIn (fun path x => F path x ∨ G path x) fun path x => F' path x ∨ G' path x := by
  rintro path x (hF | hG)
  · obtain ⟨x', hx', hsame⟩ := h path x hF
    exact ⟨x', .inl hx', hsame⟩
  · obtain ⟨x', hx', hsame⟩ := h' path x hG
    exact ⟨x', .inr hx', hsame⟩

theorem SaidIn.below (h : SaidIn F F') (hnames : keys.map Key.name = keys'.map Key.name) :
    SaidIn (Below F keys) (Below F' keys') := by
  induction keys generalizing keys' with
  | nil =>
    cases keys' with
    | nil => exact h
    | cons => cases hnames
  | cons key keys ih =>
    cases keys' with
    | nil => cases hnames
    | cons key' keys' =>
      obtain ⟨hkey, hnames⟩ := List.cons.inj hnames
      rintro path x (hroot | ⟨rest, rfl, hrest⟩)
      · obtain ⟨x', hx', hsame⟩ := saidIn_atRoot path x hroot
        exact ⟨x', .inl hx', hsame⟩
      · obtain ⟨x', hx', hsame⟩ := ih hnames rest x hrest
        exact ⟨x', .inr ⟨rest, congrArg (· :: rest) hkey, hx'⟩, hsame⟩

theorem leaf_of_items? {items : List Item} (h : Given.items? item = some items) :
    item.leaf = some item := by
  cases item <;> first | rfl | cases h

/-- Items with the same contents hold the same. -/
theorem saidIn_of_sameContents (h : SameContents item item') : SaidIn item.Holds item'.Holds := by
  have hleaf {item item' : Item} (h : SameContents item item') (hitem : item.leaf = some item)
      (hitem' : item'.leaf = some item') : SaidIn item.Holds item'.Holds := by
    intro path x hholds
    obtain ⟨rfl, rfl⟩ := (Item.holds_of_leaf hitem).mp hholds
    exact ⟨some item', (Item.holds_of_leaf hitem').mpr ⟨rfl, rfl⟩, .some h⟩
  induction h with
  | text => exact hleaf .text rfl rfl
  | integer => exact hleaf .integer rfl rfl
  | float => exact hleaf .float rfl rfl
  | boolean => exact hleaf .boolean rfl rfl
  | dateTime => exact hleaf .dateTime rfl rfl
  | array left right length each _ =>
    exact hleaf (.array left right length each) (leaf_of_items? left) (leaf_of_items? right)
  | table names each ih =>
    intro path x hholds
    rw [Item.holds_table] at hholds
    cases path with
    | nil =>
      rw [Table.holds_nil] at hholds
      subst hholds
      exact ⟨none, (Item.holds_table _ _).mpr (Table.holds_nil.mpr rfl), .none⟩
    | cons name path =>
      obtain ⟨item, hitem, hholds⟩ := Table.holds_cons.mp hholds
      obtain ⟨item', hitem', -⟩ := Alike.get?_some ⟨names, each⟩ hitem
      obtain ⟨x', hx', hsame⟩ := ih name item item' hitem hitem' path x hholds
      exact ⟨x', (Item.holds_table _ _).mpr (Table.holds_cons.mpr ⟨item', hitem', hx'⟩), hsame⟩

/-! ### Contents -/

theorem exists_holds (item : Item) : item.Holds [] item.leaf := ⟨item, rfl, rfl⟩

theorem mem_names_iff_holds : name ∈ t.names ↔ ∃ x, t.Holds [name] x := by
  rw [← not_iff_not, ← Table.get?_eq_none_iff]
  constructor
  · rintro hnone ⟨x, hx⟩
    obtain ⟨item, hitem, -⟩ := Table.holds_cons.mp hx
    simp [hnone] at hitem
  · intro hno
    refine Option.eq_none_iff_forall_ne_some.mpr fun item hitem => hno ⟨item.leaf, ?_⟩
    exact Table.holds_cons.mpr ⟨item, hitem, exists_holds item⟩

theorem SaidIn.names (h : SaidIn t.Holds t'.Holds) (hname : name ∈ t.names) : name ∈ t'.names := by
  obtain ⟨x, hx⟩ := mem_names_iff_holds.mp hname
  obtain ⟨x', hx', -⟩ := h [name] x hx
  exact mem_names_iff_holds.mpr ⟨x', hx'⟩

theorem SaidIn.get? (h : SaidIn t.Holds t'.Holds) (hitem : t.get? name = some item)
    (hitem' : t'.get? name = some item') : SaidIn item.Holds item'.Holds := by
  intro path x hx
  obtain ⟨x', hx', hsame⟩ := h (name :: path) x ((Table.holds_of_get? hitem).mpr hx)
  exact ⟨x', (Table.holds_of_get? hitem').mp hx', hsame⟩

theorem SaidIn.inside {shape shape' : Shape}
    (h : SaidIn (Item.table shape t).Holds (Item.table shape' t').Holds) : SaidIn t.Holds t'.Holds :=
  h.congr (fun _ _ => (Item.holds_table shape t).symm) fun _ _ => (Item.holds_table shape' t').symm

theorem sameContents_of_leaf (hleaf : item.leaf = some item) (h : SaidIn item.Holds item'.Holds) :
    SameContents item item' := by
  obtain ⟨x', ⟨found, hfound, hx'⟩, hsame⟩ := h [] _ (exists_holds item)
  cases hfound
  rw [hleaf] at hsame
  cases hsame with
  | some hsame =>
    cases item' with
    | table => cases hx'
    | _ => exact Option.some.inj hx' ▸ hsame

theorem exists_table_of_saidIn {shape : Shape} (h : SaidIn (Item.table shape t).Holds item'.Holds) :
    ∃ shape' t', item' = .table shape' t' := by
  obtain ⟨x', ⟨found, hfound, hx'⟩, hsame⟩ := h [] _ (exists_holds _)
  cases hfound
  cases hsame
  cases item' with
  | table shape' t' => exact ⟨shape', t', rfl⟩
  | _ => cases hx'

/-- Items that hold the same have the same contents. -/
theorem sameContents_of_sayAlike (hitem : item.WellFormed) (h : SayAlike item.Holds item'.Holds) :
    SameContents item item' := by
  induction hitem generalizing item' with
  | text | integer | float | boolean | dateTime | array | tables =>
    exact sameContents_of_leaf rfl h.left
  | @table shape t nodup _ ih =>
    obtain ⟨shape', t', rfl⟩ := exists_table_of_saidIn h.left
    have hleft := h.left.inside
    have hright := h.right.inside
    refine .table (fun name => ⟨hleft.names, hright.names⟩) fun name x x' hx hx' => ?_
    obtain ⟨key, hmem, -⟩ := Table.exists_mem_of_get? hx
    exact ih _ hmem ⟨hleft.get? hx hx', hright.get? hx' hx⟩

/-- Documents that say the same have the same contents. -/
theorem alike_of_sayAlike (ht : t.WellFormed) (h : SayAlike t.Holds t'.Holds) : Alike t t' := by
  constructor
  · exact fun name => ⟨h.left.names, h.right.names⟩
  · intro name item item' hitem hitem'
    exact sameContents_of_sayAlike (ht.get? hitem) ⟨h.left.get? hitem hitem', h.right.get? hitem' hitem⟩

/-! ### Spellings -/

/-- The entries are the same up to how they are written. -/
structure SameEntry (e e' : List Key × Key × Item) : Prop where
  path : e.1.map Key.name = e'.1.map Key.name
  key : e.2.1.name = e'.2.1.name
  item : SameContents e.2.2 e'.2.2

/-- The entries are the same, in whatever order. -/
structure SameEntries (entries entries' : List (List Key × Key × Item)) : Prop where
  left : ∀ e ∈ entries, ∃ e' ∈ entries', SameEntry e e'
  right : ∀ e' ∈ entries', ∃ e ∈ entries, SameEntry e' e

variable {entries entries' : List (List Key × Key × Item)}
  {statements statements' others others' : List Statement}

theorem saidIn_listed (h : ∀ e ∈ entries, ∃ e' ∈ entries', SameEntry e e') :
    SaidIn (Listed entries) (Listed entries') := by
  rintro path x (hroot | ⟨e, he, hbelow⟩)
  · obtain ⟨x', hx', hsame⟩ := saidIn_atRoot path x hroot
    exact ⟨x', .inl hx', hsame⟩
  · obtain ⟨e', he', hentry⟩ := h e he
    have hnames : (e.1 ++ [e.2.1]).map Key.name = (e'.1 ++ [e'.2.1]).map Key.name := by
      simp [hentry.path, hentry.key]
    obtain ⟨x', hx', hsame⟩ := (saidIn_of_sameContents hentry.item).below hnames path x hbelow
    exact ⟨x', .inr ⟨e', he', hx'⟩, hsame⟩

/-- A table of the same entries says the same, in whatever way each is spelled. -/
theorem sayAlike_of_spelling {key key' : Key} (hentries : ∀ e ∈ entries, e.2.2.Holds.Plain)
    (hentries' : ∀ e ∈ entries', e.2.2.Holds.Plain) (hsame : SameEntries entries entries')
    (hnames : (keys ++ [key]).map Key.name = (keys' ++ [key']).map Key.name)
    (h : Spelling keys key entries statements) (h' : Spelling keys' key' entries' statements') :
    SayAlike (Told [] statements) (Told [] statements') where
  left := ((saidIn_listed hsame.left).below hnames).congr (fun _ _ => told_spelling hentries h)
    fun _ _ => told_spelling hentries' h'
  right := ((saidIn_listed hsame.right).below hnames.symm).congr
    (fun _ _ => told_spelling hentries' h') fun _ _ => told_spelling hentries h

/-- Documents of parts that say the same, in which no header of one part reaches into the next. -/
theorem SayAlike.append (h : SayAlike (Told [] statements) (Told [] statements'))
    (hothers : SayAlike (Told [] others) (Told [] others'))
    (hapart : statements.foldl Statement.next [] = [] ∨ Headed others)
    (hapart' : statements'.foldl Statement.next [] = [] ∨ Headed others') :
    SayAlike (Told [] (statements ++ others)) (Told [] (statements' ++ others')) where
  left := (h.left.or hothers.left).congr (fun _ _ => told_parts hapart) fun _ _ => told_parts hapart'
  right := (h.right.or hothers.right).congr (fun _ _ => told_parts hapart') fun _ _ => told_parts hapart

end Markup.Settings
