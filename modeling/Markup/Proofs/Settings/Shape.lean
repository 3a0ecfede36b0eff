import Markup.Proofs.Outcomes
import Markup.Proofs.Settings.Contents

/-!
# The shape that is read

A document is read entry by entry, and what a section or a setting of it comes to depends on the
entry of its own name only. A `Slot` says so of a single entry, and `Slot.of_readEntries` follows by
induction on the entries, of which no two have one name. Reading a well-formed document succeeds
exactly if it has the shape of `Fits`, with the settings of that shape (`ofTable_eq_ok_iff`).
-/

namespace Markup.Settings

open Toml

variable {item : Item} {t : Table} {key : Key} {g g' : Given}

namespace Given

/-! ### Values -/

theorem boolean_eq_ok_iff {b : Bool} : boolean item = .ok b ↔ IsBoolean item b := by
  refine ⟨fun h => ?_, fun ⟨_, h⟩ => by rw [h]; rfl⟩
  cases item <;> cases h
  exact ⟨_, rfl⟩

theorem text_eq_ok_iff {s : String} : text item = .ok s ↔ IsText item s := by
  refine ⟨fun h => ?_, fun ⟨_, h⟩ => by rw [h]; rfl⟩
  cases item <;> cases h
  exact ⟨_, rfl⟩

/-- An integer of a document that is not negative is a size: it has no more than 63 bits. -/
theorem size_eq_ok_iff {n : UInt64} (hitem : item.WellFormed) :
    size item = .ok n ↔ IsSize item n := by
  constructor
  · intro h
    unfold size at h
    split at h
    · next span z =>
      split at h
      · next hz =>
        cases h
        cases hitem with
        | integer low high =>
          refine ⟨span, congrArg (Item.integer span) ?_⟩
          rw [UInt64.toNat_ofNat']
          omega
      · cases h
    · cases h
  · rintro ⟨span, rfl⟩
    rw [size, if_pos (Int.natCast_nonneg _), Int.toNat_natCast, UInt64.ofNat_toNat]

theorem under_eq_ok_iff {α : Type} {result : Except Misfit α} {a : α} :
    under key result = .ok a ↔ result = .ok a := mapError_eq_ok_iff

/-! ### Entries -/

/-- Reads the entries of a table in their order. -/
def readEntries (field : Given → Key → Item → Except Misfit Given) (g : Given) (t : Table) :
    Except Misfit Given :=
  t.foldlM (fun g (key, item) => under key (field g key item)) g

variable {field : Given → Key → Item → Except Misfit Given}
  {positions : Given → List Item → Option Span → Except Misfit Given} {expected : String}

theorem readEntries_cons_eq_ok_iff :
    readEntries field g ((key, item) :: t) = .ok g' ↔
      ∃ g₁, field g key item = .ok g₁ ∧ readEntries field g₁ t = .ok g' := by
  unfold readEntries
  rw [List.foldlM_cons, bind_eq_ok_iff]
  simp only [under_eq_ok_iff]

/-- What every entry keeps is kept. -/
theorem readEntries_keeps {β : Type} {get : Given → β}
    (hkeeps : ∀ e ∈ t, ∀ g g', field g e.1 e.2 = .ok g' → get g' = get g)
    (h : readEntries field g t = .ok g') : get g' = get g := by
  induction t generalizing g with
  | nil =>
    cases h
    rfl
  | cons e t ih =>
    obtain ⟨hfirst, hothers⟩ := List.forall_mem_cons.mp hkeeps
    obtain ⟨g₁, hg₁, hrest⟩ := readEntries_cons_eq_ok_iff.mp h
    exact (ih hothers hrest).trans (hfirst _ _ hg₁)

/-- Only names that an entry may have occur. -/
theorem readEntries_names {P : String → Prop}
    (hnames : ∀ g g' key item, field g key item = .ok g' → P key.name)
    (h : readEntries field g t = .ok g') : ∀ e ∈ t, P e.1.name := by
  induction t generalizing g with
  | nil => exact nofun
  | cons e t ih =>
    obtain ⟨g₁, hfirst, hrest⟩ := readEntries_cons_eq_ok_iff.mp h
    exact List.forall_mem_cons.mpr ⟨hnames _ _ _ _ hfirst, ih hrest⟩

theorem readEntries_isOk (h : ∀ e ∈ t, ∀ g, ∃ g', field g e.1 e.2 = .ok g') (g : Given) :
    ∃ g', readEntries field g t = .ok g' := by
  induction t generalizing g with
  | nil => exact ⟨g, rfl⟩
  | cons e t ih =>
    obtain ⟨hfirst, hrest⟩ := List.forall_mem_cons.mp h
    obtain ⟨g₁, hg₁⟩ := hfirst g
    obtain ⟨g', hg'⟩ := ih hrest g₁
    exact ⟨g', readEntries_cons_eq_ok_iff.mpr ⟨g₁, hg₁, hg'⟩⟩

/-- A part of what is given, unset at first, that the entry of one name decides. -/
structure Slot {β : Type} (field : Given → Key → Item → Except Misfit Given) (name : String)
    (get : Given → β) (unset : β) (Is : Item → β → Prop) : Prop where
  own : ∀ g g' key item, key.name = name → item.WellFormed → get g = unset →
    field g key item = .ok g' → Is item (get g')
  other : ∀ g g' key item, key.name ≠ name → field g key item = .ok g' → get g' = get g

/-- What the table comes to in a slot. -/
theorem Slot.of_readEntries {β : Type} {name : String} {get : Given → β} {unset : β}
    {Is : Item → β → Prop} (slot : Slot field name get unset Is) (ht : t.WellFormed)
    (hg : get g = unset) (h : readEntries field g t = .ok g') :
    match t.get? name with
    | some item => Is item (get g')
    | none => get g' = unset := by
  induction t generalizing g with
  | nil =>
    cases h
    exact hg
  | cons e t ih =>
    obtain ⟨key, item⟩ := e
    obtain ⟨hkey, hnodup⟩ := List.nodup_cons.mp ht.nodup
    obtain ⟨hitem, hitems⟩ := List.forall_mem_cons.mp ht.items
    obtain ⟨g₁, hfirst, hrest⟩ := readEntries_cons_eq_ok_iff.mp h
    rw [Table.get?_cons]
    by_cases hname : key.name = name
    · -- no later entry has the name, and so none changes the slot
      have hlater : ∀ e ∈ t, ∀ g g', field g e.1 e.2 = .ok g' → get g' = get g := by
        intro e he g g' hfield
        refine slot.other _ _ _ _ ?_ hfield
        rintro rfl
        exact hkey (List.mem_map.mpr ⟨e, he, hname.symm⟩)
      rw [if_pos hname, readEntries_keeps hlater hrest]
      exact slot.own _ _ _ _ hname hitem hg hfirst
    · rw [if_neg hname]
      exact ih ⟨hnodup, hitems⟩ ((slot.other _ _ _ _ hname hfirst).trans hg) hrest

/-! ### Sections -/

theorem items?_wellFormed {items : List Item} (hitem : item.WellFormed)
    (h : items? item = some items) : ∀ x ∈ items, x.WellFormed := by
  cases item with
  | array span items =>
    cases h
    cases hitem with
    | array all => exact all
  | tables members =>
    cases h
    intro x hx
    obtain ⟨m, hm, rfl⟩ := List.mem_map.mp hx
    exact Item.wellFormed_table.mpr (Item.wellFormed_tables.mp hitem m hm)
  | text | integer | float | boolean | dateTime | table => cases h

/-- A section is a table or an array; no section may have the entry of a date-time. -/
theorem sectionOf_eq_ok_iff {P : String → Prop}
    (hnames : ∀ g g' key item, field g key item = .ok g' → P key.name) (hP : ¬ P dateTimeField) :
    sectionOf field positions expected g item = .ok g' ↔
      (∃ shape t, item = .table shape t ∧ readEntries field g t = .ok g') ∨
      (∃ items, items? item = some items ∧ positions g items item.span? = .ok g') := by
  have hno {α : Type} {P : α → Prop} : ¬ ∃ a, (none : Option α) = some a ∧ P a := by simp
  cases item with
  | table shape t =>
    refine ⟨fun h => .inl ⟨shape, t, rfl, h⟩, fun h => ?_⟩
    rcases h with ⟨_, _, heq, h⟩ | h
    · cases heq
      exact h
    · exact absurd h hno
  | dateTime span =>
    refine ⟨fun h => absurd (hnames _ _ _ _ h) hP, fun h => ?_⟩
    rcases h with ⟨_, _, heq, -⟩ | h
    · cases heq
    · exact absurd h hno
  | array | tables =>
    refine ⟨fun h => .inr ⟨_, rfl, h⟩, fun h => ?_⟩
    rcases h with ⟨_, _, heq, -⟩ | ⟨_, heq, h⟩
    · cases heq
    · cases heq
      exact h
  | text | integer | float | boolean =>
    refine ⟨nofun, fun h => ?_⟩
    rcases h with ⟨_, _, heq, -⟩ | h
    · cases heq
    · exact absurd h hno

theorem renderField_eq_ok_iff : renderField g key item = .ok g' ↔
    key.name = "terse" ∧ ∃ b, boolean item = .ok b ∧ g' = { g with terse := some b } := by
  unfold renderField
  split
  · next hname => rw [bind_pure_eq_ok_iff, and_iff_right hname]
  · next hname => simp [hname]

theorem errorsField_eq_ok_iff : errorsField g key item = .ok g' ↔
    (key.name = "context_lines" ∧
      ∃ n, size item = .ok n ∧ g' = { g with contextLines := some n }) ∨
    (key.name = "read_sources" ∧
      ∃ b, boolean item = .ok b ∧ g' = { g with readSources := some b }) ∨
    (key.name = "default_filename" ∧
      ∃ s, text item = .ok s ∧ g' = { g with defaultFilename := some s }) := by
  unfold errorsField
  by_cases hlines : key.name = "context_lines"
  · rw [if_pos hlines, bind_pure_eq_ok_iff]
    simp [hlines]
  · rw [if_neg hlines]
    by_cases hsources : key.name = "read_sources"
    · rw [if_pos hsources, bind_pure_eq_ok_iff]
      simp [hsources]
    · rw [if_neg hsources]
      by_cases hfilename : key.name = "default_filename"
      · rw [if_pos hfilename, bind_pure_eq_ok_iff]
        simp [hfilename]
      · rw [if_neg hfilename]
        simp [hlines, hsources, hfilename]

theorem itemAt_eq_ok_iff {items : List Item} {index : Nat} {span : Option Span}
    {expected : String} :
    itemAt items index span expected = .ok item ↔ items[index]? = some item := by
  unfold itemAt
  cases items[index]? <;> simp

theorem renderItems_eq_ok_iff {items : List Item} {span : Option Span} :
    renderItems g items span = .ok g' ↔
      ∃ first rest b, items = first :: rest ∧ boolean first = .ok b ∧
        g' = { g with terse := some b } := by
  simp only [renderItems, bind_eq_ok_iff, itemAt_eq_ok_iff]
  constructor
  · rintro ⟨first, hfirst, b, hb, h⟩
    cases h
    cases items with
    | nil => cases hfirst
    | cons x rest =>
      cases hfirst
      exact ⟨first, rest, b, rfl, hb, rfl⟩
  · rintro ⟨first, rest, b, rfl, hb, rfl⟩
    exact ⟨first, rfl, b, hb, rfl⟩

theorem errorsItems_eq_ok_iff {items : List Item} {span : Option Span} :
    errorsItems g items span = .ok g' ↔
      ∃ first second third rest n b s, items = first :: second :: third :: rest ∧
        size first = .ok n ∧ boolean second = .ok b ∧ text third = .ok s ∧
        g' = { g with
          contextLines := some n, readSources := some b, defaultFilename := some s } := by
  simp only [errorsItems, bind_eq_ok_iff, itemAt_eq_ok_iff]
  constructor
  · rintro ⟨first, hfirst, n, hn, second, hsecond, b, hb, third, hthird, s, hs, h⟩
    cases h
    match items with
    | [] | [_] | [_, _] => simp at hfirst hsecond hthird
    | _ :: _ :: _ :: rest =>
      cases hfirst
      cases hsecond
      cases hthird
      exact ⟨first, second, third, rest, n, b, s, rfl, hn, hb, hs, rfl⟩
  · rintro ⟨first, second, third, rest, n, b, s, rfl, hn, hb, hs, rfl⟩
    exact ⟨first, rfl, n, hn, second, rfl, b, hb, third, rfl, s, hs, rfl⟩

/-- Reads the section `render`. -/
abbrev renderSection (g : Given) (item : Item) : Except Misfit Given :=
  sectionOf renderField renderItems "struct TomlRender" g item

/-- Reads the section `errors`. -/
abbrev errorsSection (g : Given) (item : Item) : Except Misfit Given :=
  sectionOf errorsField errorsItems "struct TomlErrors" g item

theorem renderField_name (g g' : Given) (key : Key) (item : Item)
    (h : renderField g key item = .ok g') : key.name = "terse" := (renderField_eq_ok_iff.mp h).1

theorem errorsField_name (g g' : Given) (key : Key) (item : Item)
    (h : errorsField g key item = .ok g') :
    key.name ∈ ["context_lines", "read_sources", "default_filename"] := by
  rcases errorsField_eq_ok_iff.mp h with ⟨h, -⟩ | ⟨h, -⟩ | ⟨h, -⟩ <;> simp [h]

theorem renderSection_eq_ok_iff : renderSection g item = .ok g' ↔
    (∃ shape t, item = .table shape t ∧ readEntries renderField g t = .ok g') ∨
    (∃ items, items? item = some items ∧ renderItems g items item.span? = .ok g') :=
  sectionOf_eq_ok_iff (P := (· = "terse")) renderField_name (by decide)

theorem errorsSection_eq_ok_iff : errorsSection g item = .ok g' ↔
    (∃ shape t, item = .table shape t ∧ readEntries errorsField g t = .ok g') ∨
    (∃ items, items? item = some items ∧ errorsItems g items item.span? = .ok g') :=
  sectionOf_eq_ok_iff errorsField_name (by decide)

/-! ### Slots -/

theorem slot_terse :
    Slot renderField "terse" terse none fun item o => ∃ b, IsBoolean item b ∧ o = some b where
  own g g' key item _ _ _ h := by
    obtain ⟨-, b, hb, rfl⟩ := renderField_eq_ok_iff.mp h
    exact ⟨b, boolean_eq_ok_iff.mp hb, rfl⟩
  other g g' key item hname h := absurd (renderField_eq_ok_iff.mp h).1 hname

theorem slot_contextLines :
    Slot errorsField "context_lines" contextLines none
      fun item o => ∃ n, IsSize item n ∧ o = some n where
  own g g' key item hname hitem _ h := by
    rcases errorsField_eq_ok_iff.mp h with ⟨-, n, hn, rfl⟩ | ⟨hother, -⟩ | ⟨hother, -⟩
    · exact ⟨n, (size_eq_ok_iff hitem).mp hn, rfl⟩
    · exact absurd (hname.symm.trans hother) (by decide)
    · exact absurd (hname.symm.trans hother) (by decide)
  other g g' key item hname h := by
    rcases errorsField_eq_ok_iff.mp h with ⟨hown, -⟩ | ⟨-, b, -, rfl⟩ | ⟨-, s, -, rfl⟩
    · exact absurd hown hname
    · rfl
    · rfl

theorem slot_readSources :
    Slot errorsField "read_sources" readSources none
      fun item o => ∃ b, IsBoolean item b ∧ o = some b where
  own g g' key item hname _ _ h := by
    rcases errorsField_eq_ok_iff.mp h with ⟨hother, -⟩ | ⟨-, b, hb, rfl⟩ | ⟨hother, -⟩
    · exact absurd (hname.symm.trans hother) (by decide)
    · exact ⟨b, boolean_eq_ok_iff.mp hb, rfl⟩
    · exact absurd (hname.symm.trans hother) (by decide)
  other g g' key item hname h := by
    rcases errorsField_eq_ok_iff.mp h with ⟨-, n, -, rfl⟩ | ⟨hown, -⟩ | ⟨-, s, -, rfl⟩
    · rfl
    · exact absurd hown hname
    · rfl

theorem slot_defaultFilename :
    Slot errorsField "default_filename" defaultFilename none
      fun item o => ∃ s, IsText item s ∧ o = some s where
  own g g' key item hname _ _ h := by
    rcases errorsField_eq_ok_iff.mp h with ⟨hother, -⟩ | ⟨hother, -⟩ | ⟨-, s, hs, rfl⟩
    · exact absurd (hname.symm.trans hother) (by decide)
    · exact absurd (hname.symm.trans hother) (by decide)
    · exact ⟨s, text_eq_ok_iff.mp hs, rfl⟩
  other g g' key item hname h := by
    rcases errorsField_eq_ok_iff.mp h with ⟨-, n, -, rfl⟩ | ⟨-, b, -, rfl⟩ | ⟨hown, -⟩
    · rfl
    · rfl
    · exact absurd hown hname

/-- The settings of the section `errors`. -/
def errors (g : Given) : Option UInt64 × Option Bool × Option String :=
  (g.contextLines, g.readSources, g.defaultFilename)

theorem renderSection_keeps (h : renderSection g item = .ok g') : g'.errors = g.errors := by
  rcases renderSection_eq_ok_iff.mp h with ⟨_, t, -, h⟩ | ⟨items, -, h⟩
  · refine readEntries_keeps (fun e _ g g' hfield => ?_) h
    obtain ⟨-, b, -, rfl⟩ := renderField_eq_ok_iff.mp hfield
    rfl
  · obtain ⟨_, _, b, -, -, rfl⟩ := renderItems_eq_ok_iff.mp h
    rfl

theorem errorsSection_keeps (h : errorsSection g item = .ok g') : g'.terse = g.terse := by
  rcases errorsSection_eq_ok_iff.mp h with ⟨_, t, -, h⟩ | ⟨items, -, h⟩
  · refine readEntries_keeps (fun e _ g g' hfield => ?_) h
    rcases errorsField_eq_ok_iff.mp hfield with ⟨-, _, -, rfl⟩ | ⟨-, _, -, rfl⟩ | ⟨-, _, -, rfl⟩ <;>
      rfl
  · obtain ⟨_, _, _, _, _, _, _, -, -, -, -, rfl⟩ := errorsItems_eq_ok_iff.mp h
    rfl

theorem fitsRender_of_renderSection (hitem : item.WellFormed) (hg : g.terse = none)
    (h : renderSection g item = .ok g') : FitsRender item g'.terse := by
  rcases renderSection_eq_ok_iff.mp h with ⟨shape, t, rfl, h⟩ | ⟨items, hitems, h⟩
  · have ht := Item.wellFormed_table.mp hitem
    have hnames := readEntries_names (P := (· = "terse")) renderField_name h
    exact .inl ⟨shape, t, rfl, hnames, slot_terse.of_readEntries ht hg h⟩
  · obtain ⟨first, rest, b, rfl, hb, rfl⟩ := renderItems_eq_ok_iff.mp h
    exact .inr ⟨first, rest, b, hitems, boolean_eq_ok_iff.mp hb, rfl⟩

theorem fitsErrors_of_errorsSection (hitem : item.WellFormed) (hg : g.errors = (none, none, none))
    (h : errorsSection g item = .ok g') :
    FitsErrors item g'.contextLines g'.readSources g'.defaultFilename := by
  simp only [errors, Prod.mk.injEq] at hg
  obtain ⟨hlines, hsources, hfilename⟩ := hg
  rcases errorsSection_eq_ok_iff.mp h with ⟨shape, t, rfl, h⟩ | ⟨items, hitems, h⟩
  · have ht := Item.wellFormed_table.mp hitem
    exact .inl ⟨shape, t, rfl, readEntries_names errorsField_name h,
      slot_contextLines.of_readEntries ht hlines h, slot_readSources.of_readEntries ht hsources h,
      slot_defaultFilename.of_readEntries ht hfilename h⟩
  · obtain ⟨first, second, third, rest, n, b, s, rfl, hn, hb, hs, rfl⟩ :=
      errorsItems_eq_ok_iff.mp h
    have hfirst := items?_wellFormed hitem hitems first List.mem_cons_self
    exact .inr ⟨first, second, third, rest, n, b, s, hitems, (size_eq_ok_iff hfirst).mp hn,
      boolean_eq_ok_iff.mp hb, text_eq_ok_iff.mp hs, rfl, rfl, rfl⟩

theorem documentField_eq_ok_iff : documentField g key item = .ok g' ↔
    (key.name = "render" ∧ renderSection g item = .ok g') ∨
    (key.name = "errors" ∧ errorsSection g item = .ok g') := by
  unfold documentField
  by_cases hrender : key.name = "render"
  · rw [if_pos hrender]
    simp [hrender]
  · rw [if_neg hrender]
    by_cases herrors : key.name = "errors"
    · rw [if_pos herrors]
      simp [herrors]
    · rw [if_neg herrors]
      simp [hrender, herrors]

theorem documentField_name (g g' : Given) (key : Key) (item : Item)
    (h : documentField g key item = .ok g') : key.name ∈ ["render", "errors"] := by
  rcases documentField_eq_ok_iff.mp h with ⟨h, -⟩ | ⟨h, -⟩ <;> simp [h]

theorem slot_render : Slot documentField "render" terse none FitsRender where
  own g g' key item hname hitem hg h := by
    rcases documentField_eq_ok_iff.mp h with ⟨-, h⟩ | ⟨hother, -⟩
    · exact fitsRender_of_renderSection hitem hg h
    · exact absurd (hname.symm.trans hother) (by decide)
  other g g' key item hname h := by
    rcases documentField_eq_ok_iff.mp h with ⟨hown, -⟩ | ⟨-, h⟩
    · exact absurd hown hname
    · exact errorsSection_keeps h

theorem slot_errors :
    Slot documentField "errors" errors (none, none, none)
      fun item given => FitsErrors item given.1 given.2.1 given.2.2 where
  own g g' key item hname hitem hg h := by
    rcases documentField_eq_ok_iff.mp h with ⟨hother, -⟩ | ⟨-, h⟩
    · exact absurd (hname.symm.trans hother) (by decide)
    · exact fitsErrors_of_errorsSection hitem hg h
  other g g' key item hname h := by
    rcases documentField_eq_ok_iff.mp h with ⟨-, h⟩ | ⟨hown, -⟩
    · exact renderSection_keeps h
    · exact absurd hown hname

/-- A document that is read has the shape. -/
theorem fits_of_ofTable (ht : t.WellFormed) (h : ofTable t = .ok g) : Fits t g := by
  refine ⟨readEntries_names documentField_name h, slot_render.of_readEntries ht rfl h, ?_⟩
  have herrors := slot_errors.of_readEntries ht rfl h
  cases hitem : t.get? "errors" with
  | some item =>
    rw [hitem] at herrors
    exact herrors
  | none =>
    rw [hitem] at herrors
    simpa [errors] using herrors

/-! ### Every document of the shape is read -/

theorem gives_mem {α : Type} {Is : Item → α → Prop} {given : Option α} {e : Key × Item}
    (ht : t.WellFormed) (h : Gives t e.1.name Is given) (he : e ∈ t) : ∃ a, Is e.2 a := by
  rw [Gives, Table.get?_of_mem ht.nodup he] at h
  obtain ⟨a, ha, -⟩ := h
  exact ⟨a, ha⟩

theorem exists_renderSection {given : Option Bool} (hitem : item.WellFormed)
    (h : FitsRender item given) (g : Given) : ∃ g', renderSection g item = .ok g' := by
  rcases h with ⟨shape, t, rfl, hnames, hterse⟩ | ⟨first, rest, b, hitems, hb, -⟩
  · have ht := Item.wellFormed_table.mp hitem
    have hfields : ∀ e ∈ t, ∀ g, ∃ g', renderField g e.1 e.2 = .ok g' := by
      intro e he g
      obtain ⟨b, hb⟩ := gives_mem ht ((hnames e he).symm ▸ hterse) he
      exact ⟨_, renderField_eq_ok_iff.mpr ⟨hnames e he, b, boolean_eq_ok_iff.mpr hb, rfl⟩⟩
    obtain ⟨g', hg'⟩ := readEntries_isOk hfields g
    exact ⟨g', renderSection_eq_ok_iff.mpr (.inl ⟨shape, t, rfl, hg'⟩)⟩
  · refine ⟨{ g with terse := some b }, renderSection_eq_ok_iff.mpr (.inr ⟨_, hitems, ?_⟩)⟩
    exact renderItems_eq_ok_iff.mpr ⟨first, rest, b, rfl, boolean_eq_ok_iff.mpr hb, rfl⟩

theorem exists_errorsSection {lines : Option UInt64} {sources : Option Bool}
    {filename : Option String} (hitem : item.WellFormed)
    (h : FitsErrors item lines sources filename) (g : Given) :
    ∃ g', errorsSection g item = .ok g' := by
  rcases h with ⟨shape, t, rfl, hnames, hlines, hsources, hfilename⟩ |
    ⟨first, second, third, rest, n, b, s, hitems, hn, hb, hs, -⟩
  · have ht := Item.wellFormed_table.mp hitem
    have hfields : ∀ e ∈ t, ∀ g, ∃ g', errorsField g e.1 e.2 = .ok g' := by
      intro e he g
      have hname := hnames e he
      simp only [List.mem_cons, List.not_mem_nil, or_false] at hname
      rcases hname with hname | hname | hname
      · obtain ⟨n, hn⟩ := gives_mem ht (hname.symm ▸ hlines) he
        have hread := (size_eq_ok_iff (ht.items e he)).mpr hn
        exact ⟨_, errorsField_eq_ok_iff.mpr (.inl ⟨hname, n, hread, rfl⟩)⟩
      · obtain ⟨b, hb⟩ := gives_mem ht (hname.symm ▸ hsources) he
        have hread := boolean_eq_ok_iff.mpr hb
        exact ⟨_, errorsField_eq_ok_iff.mpr (.inr (.inl ⟨hname, b, hread, rfl⟩))⟩
      · obtain ⟨s, hs⟩ := gives_mem ht (hname.symm ▸ hfilename) he
        have hread := text_eq_ok_iff.mpr hs
        exact ⟨_, errorsField_eq_ok_iff.mpr (.inr (.inr ⟨hname, s, hread, rfl⟩))⟩
    obtain ⟨g', hg'⟩ := readEntries_isOk hfields g
    exact ⟨g', errorsSection_eq_ok_iff.mpr (.inl ⟨shape, t, rfl, hg'⟩)⟩
  · have hfirst := items?_wellFormed hitem hitems first List.mem_cons_self
    refine ⟨{ g with contextLines := some n, readSources := some b, defaultFilename := some s },
      errorsSection_eq_ok_iff.mpr (.inr ⟨_, hitems, ?_⟩)⟩
    exact errorsItems_eq_ok_iff.mpr ⟨first, second, third, rest, n, b, s, rfl,
      (size_eq_ok_iff hfirst).mpr hn, boolean_eq_ok_iff.mpr hb, text_eq_ok_iff.mpr hs, rfl⟩

theorem exists_ofTable (ht : t.WellFormed) (h : Fits t g) : ∃ g', ofTable t = .ok g' := by
  obtain ⟨hnames, hrender, herrors⟩ := h
  refine readEntries_isOk (fun e he g' => ?_) {}
  have hname := hnames e he
  have hget := Table.get?_of_mem ht.nodup he
  simp only [List.mem_cons, List.not_mem_nil, or_false] at hname
  rcases hname with hname | hname
  · rw [← hname, hget] at hrender
    obtain ⟨g₁, hg₁⟩ := exists_renderSection (ht.items e he) hrender g'
    exact ⟨g₁, documentField_eq_ok_iff.mpr (.inl ⟨hname, hg₁⟩)⟩
  · rw [← hname, hget] at herrors
    obtain ⟨g₁, hg₁⟩ := exists_errorsSection (ht.items e he) herrors g'
    exact ⟨g₁, documentField_eq_ok_iff.mpr (.inr ⟨hname, hg₁⟩)⟩

end Given

/-- A document is read exactly if it has the shape, and gives the settings of the shape. -/
theorem ofTable_eq_ok_iff (ht : t.WellFormed) : Given.ofTable t = .ok g ↔ Fits t g := by
  refine ⟨Given.fits_of_ofTable ht, fun h => ?_⟩
  obtain ⟨g', hg'⟩ := Given.exists_ofTable ht h
  rw [hg', h.unique (Given.fits_of_ofTable ht hg')]

end Markup.Settings
