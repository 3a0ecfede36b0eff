import Mathlib.Data.List.Forall2
import Markup.Proofs.Toml.WellFormed
import Markup.Settings.Shape

/-!
# What a settings document says

A document of the right shape gives one set of settings (`Fits.unique`), and gives the same as any
document that is `Alike`: wherever and however the parts of the two are written, and in whatever
order the entries of a table come (`Fits.of_alike`). Both go through the parts of the shape.
-/

namespace Markup.Settings

open Toml

/-! ### One shape -/

section

variable {item : Item} {t : Table}

theorem IsBoolean.unique {b b' : Bool} (h : IsBoolean item b) (h' : IsBoolean item b') :
    b = b' := by
  obtain ⟨_, rfl⟩ := h
  obtain ⟨_, heq⟩ := h'
  cases heq
  rfl

theorem IsText.unique {s s' : String} (h : IsText item s) (h' : IsText item s') : s = s' := by
  obtain ⟨_, rfl⟩ := h
  obtain ⟨_, heq⟩ := h'
  cases heq
  rfl

theorem IsSize.unique {n n' : UInt64} (h : IsSize item n) (h' : IsSize item n') : n = n' := by
  obtain ⟨_, rfl⟩ := h
  obtain ⟨_, heq⟩ := h'
  injection heq with _ heq
  exact UInt64.toNat_inj.mp (Int.ofNat.inj heq)

theorem Gives.unique {α : Type} {name : String} {Is : Item → α → Prop} {given given' : Option α}
    (h : Gives t name Is given) (h' : Gives t name Is given')
    (hIs : ∀ ⦃item a a'⦄, Is item a → Is item a' → a = a') : given = given' := by
  unfold Gives at h h'
  cases hget : t.get? name with
  | none =>
    rw [hget] at h h'
    exact h.trans h'.symm
  | some item =>
    rw [hget] at h h'
    obtain ⟨a, ha, rfl⟩ := h
    obtain ⟨a', ha', rfl⟩ := h'
    rw [hIs ha ha']

theorem FitsRender.unique {given given' : Option Bool} (h : FitsRender item given)
    (h' : FitsRender item given') : given = given' := by
  rcases h with ⟨shape, t, rfl, -, hterse⟩ | ⟨first, rest, b, hitems, hb, rfl⟩
  · rcases h' with ⟨_, _, heq, -, hterse'⟩ | ⟨_, _, _, hitems, -, -⟩
    · cases heq
      exact Gives.unique hterse hterse' fun _ _ _ => IsBoolean.unique
    · cases hitems
  · rcases h' with ⟨_, _, rfl, -, -⟩ | ⟨first', rest', b', hitems', hb', rfl⟩
    · cases hitems
    · rw [hitems] at hitems'
      cases hitems'
      rw [hb.unique hb']

theorem FitsErrors.unique {lines lines' : Option UInt64} {sources sources' : Option Bool}
    {filename filename' : Option String} (h : FitsErrors item lines sources filename)
    (h' : FitsErrors item lines' sources' filename') :
    lines = lines' ∧ sources = sources' ∧ filename = filename' := by
  rcases h with ⟨shape, t, rfl, -, hlines, hsources, hfilename⟩ |
    ⟨first, second, third, rest, n, b, s, hitems, hn, hb, hs, rfl, rfl, rfl⟩
  · rcases h' with ⟨_, _, heq, -, hlines', hsources', hfilename'⟩ |
      ⟨_, _, _, _, _, _, _, hitems, -⟩
    · cases heq
      exact ⟨Gives.unique hlines hlines' fun _ _ _ => IsSize.unique,
        Gives.unique hsources hsources' fun _ _ _ => IsBoolean.unique,
        Gives.unique hfilename hfilename' fun _ _ _ => IsText.unique⟩
    · cases hitems
  · rcases h' with ⟨_, _, rfl, -⟩ |
      ⟨first', second', third', rest', n', b', s', hitems', hn', hb', hs', rfl, rfl, rfl⟩
    · cases hitems
    · rw [hitems] at hitems'
      cases hitems'
      rw [hn.unique hn', hb.unique hb', hs.unique hs']
      exact ⟨rfl, rfl, rfl⟩

/-- A document gives the settings of one shape at most. -/
theorem Fits.unique {g g' : Given} (h : Fits t g) (h' : Fits t g') : g = g' := by
  obtain ⟨-, hrender, herrors⟩ := h
  obtain ⟨-, hrender', herrors'⟩ := h'
  have hterse : g.terse = g'.terse := by
    cases hget : t.get? "render" with
    | none =>
      rw [hget] at hrender hrender'
      exact hrender.trans hrender'.symm
    | some item =>
      rw [hget] at hrender hrender'
      exact hrender.unique hrender'
  have hothers : g.contextLines = g'.contextLines ∧ g.readSources = g'.readSources ∧
      g.defaultFilename = g'.defaultFilename := by
    cases hget : t.get? "errors" with
    | none =>
      rw [hget] at herrors herrors'
      exact ⟨herrors.1.trans herrors'.1.symm, herrors.2.1.trans herrors'.2.1.symm,
        herrors.2.2.trans herrors'.2.2.symm⟩
    | some item =>
      rw [hget] at herrors herrors'
      exact herrors.unique herrors'
  obtain ⟨hlines, hsources, hfilename⟩ := hothers
  cases g
  cases g'
  cases hterse
  cases hlines
  cases hsources
  cases hfilename
  rfl

end

/-! ### Contents -/

/-- The items have the same contents. Where things are written does not matter, nor how a table or
an array is, nor the order of the entries of a table. -/
inductive SameContents : Item → Item → Prop where
  | text {span span' : Span} {s : String} : SameContents (.text span s) (.text span' s)
  | integer {span span' : Span} {n : Int} : SameContents (.integer span n) (.integer span' n)
  | float {span span' : Span} {x : Number} : SameContents (.float span x) (.float span' x)
  | boolean {span span' : Span} {b : Bool} : SameContents (.boolean span b) (.boolean span' b)
  | dateTime {span span' : Span} : SameContents (.dateTime span) (.dateTime span')
  | array {item item' : Item} {items items' : List Item} (left : Given.items? item = some items)
    (right : Given.items? item' = some items') (length : items.length = items'.length)
    (each : ∀ (i : Nat) x x', items[i]? = some x → items'[i]? = some x' → SameContents x x') :
    SameContents item item'
  | table {shape shape' : Shape} {t t' : List (Key × Item)}
    (names : ∀ name, name ∈ Table.names t ↔ name ∈ Table.names t')
    (each : ∀ name x x', Table.get? t name = some x → Table.get? t' name = some x' →
      SameContents x x') :
    SameContents (.table shape t) (.table shape' t')

/-- The documents have the same contents. -/
structure Alike (t t' : Table) : Prop where
  names : ∀ name, name ∈ t.names ↔ name ∈ t'.names
  each : ∀ name x x', t.get? name = some x → t'.get? name = some x' → SameContents x x'

namespace SameContents

variable {item item' : Item}

theorem symm (h : SameContents item item') : SameContents item' item := by
  induction h with
  | text => exact .text
  | integer => exact .integer
  | float => exact .float
  | boolean => exact .boolean
  | dateTime => exact .dateTime
  | array left right length _ ih =>
    exact .array right left length.symm fun i x x' hx hx' => ih i x' x hx' hx
  | table names _ ih =>
    exact .table (fun name => (names name).symm) fun name x x' hx hx' => ih name x' x hx' hx

theorem isBoolean {b : Bool} (h : SameContents item item') (hb : IsBoolean item b) :
    IsBoolean item' b := by
  obtain ⟨_, rfl⟩ := hb
  cases h with
  | boolean => exact ⟨_, rfl⟩
  | array left => cases left

theorem isSize {n : UInt64} (h : SameContents item item') (hn : IsSize item n) :
    IsSize item' n := by
  obtain ⟨_, rfl⟩ := hn
  cases h with
  | integer => exact ⟨_, rfl⟩
  | array left => cases left

theorem isText {s : String} (h : SameContents item item') (hs : IsText item s) :
    IsText item' s := by
  obtain ⟨_, rfl⟩ := hs
  cases h with
  | text => exact ⟨_, rfl⟩
  | array left => cases left

theorem table_inv {shape : Shape} {t : Table} (h : SameContents (.table shape t) item') :
    ∃ shape' t', item' = .table shape' t' ∧ Alike t t' := by
  cases h with
  | table names each => exact ⟨_, _, rfl, names, each⟩
  | array left => cases left

theorem items_inv {x : Item} {rest : List Item} (h : SameContents item item')
    (hitems : Given.items? item = some (x :: rest)) :
    ∃ items', Given.items? item' = some items' ∧ List.Forall₂ SameContents (x :: rest) items' := by
  cases h with
  | array left right length each =>
    cases left.symm.trans hitems
    refine ⟨_, right, List.forall₂_iff_get.mpr ⟨length, fun i hi hi' => ?_⟩⟩
    exact each i _ _ (List.getElem?_eq_getElem hi) (List.getElem?_eq_getElem hi')
  | text | integer | float | boolean | dateTime | table => cases hitems

end SameContents

namespace Alike

variable {t t' : Table} {name : String}

theorem symm (h : Alike t t') : Alike t' t :=
  ⟨fun name => (h.names name).symm, fun name x x' hx hx' => (h.each name x' x hx' hx).symm⟩

theorem get?_none (h : Alike t t') (hnone : t.get? name = none) : t'.get? name = none := by
  rw [Table.get?_eq_none_iff] at hnone ⊢
  exact fun hname => hnone ((h.names name).mpr hname)

theorem get?_some (h : Alike t t') {item : Item} (hitem : t.get? name = some item) :
    ∃ item', t'.get? name = some item' ∧ SameContents item item' := by
  cases hitem' : t'.get? name with
  | none => exact absurd (h.symm.get?_none hitem') (by simp [hitem])
  | some item' => exact ⟨item', rfl, h.each name item item' hitem hitem'⟩

theorem forall_name {P : String → Prop} (h : Alike t t') (hP : ∀ e ∈ t, P e.1.name) :
    ∀ e ∈ t', P e.1.name := by
  intro e he
  obtain ⟨e', he', hname⟩ := List.mem_map.mp ((h.names _).mpr (List.mem_map_of_mem he))
  exact hname ▸ hP e' he'

/-- What is asked of the item of a key, or without it, is asked of the contents. -/
theorem match_get? {P : Item → Prop} {Q : Prop} (h : Alike t t')
    (hP : ∀ ⦃item item'⦄, SameContents item item' → P item → P item')
    (ht : match t.get? name with
      | some item => P item
      | none => Q) :
    match t'.get? name with
    | some item => P item
    | none => Q := by
  cases hitem : t.get? name with
  | none =>
    rw [hitem] at ht
    rw [h.get?_none hitem]
    exact ht
  | some item =>
    rw [hitem] at ht
    obtain ⟨item', hitem', hsame⟩ := h.get?_some hitem
    rw [hitem']
    exact hP hsame ht

theorem gives {α : Type} {Is : Item → α → Prop} {given : Option α} (h : Alike t t')
    (hIs : ∀ ⦃item item' a⦄, SameContents item item' → Is item a → Is item' a)
    (hgives : Gives t name Is given) : Gives t' name Is given :=
  h.match_get? (fun _ _ hsame ⟨a, ha, hgiven⟩ => ⟨a, hIs hsame ha, hgiven⟩) hgives

end Alike

theorem FitsRender.of_sameContents {item item' : Item} {given : Option Bool}
    (hsame : SameContents item item') (h : FitsRender item given) : FitsRender item' given := by
  rcases h with ⟨shape, t, rfl, hnames, hterse⟩ | ⟨first, rest, b, hitems, hb, hgiven⟩
  · obtain ⟨shape', t', rfl, halike⟩ := hsame.table_inv
    exact .inl ⟨shape', t', rfl, halike.forall_name (P := (· = "terse")) hnames,
      halike.gives (fun _ _ _ => SameContents.isBoolean) hterse⟩
  · obtain ⟨items', hitems', hall⟩ := hsame.items_inv hitems
    obtain ⟨first', rest', hfirst, -, rfl⟩ := List.forall₂_cons_left_iff.mp hall
    exact .inr ⟨first', rest', b, hitems', hfirst.isBoolean hb, hgiven⟩

theorem FitsErrors.of_sameContents {item item' : Item} {lines : Option UInt64}
    {sources : Option Bool} {filename : Option String} (hsame : SameContents item item')
    (h : FitsErrors item lines sources filename) : FitsErrors item' lines sources filename := by
  rcases h with ⟨shape, t, rfl, hnames, hlines, hsources, hfilename⟩ |
    ⟨first, second, third, rest, n, b, s, hitems, hn, hb, hs, hgiven⟩
  · obtain ⟨shape', t', rfl, halike⟩ := hsame.table_inv
    exact .inl ⟨shape', t', rfl, halike.forall_name hnames,
      halike.gives (fun _ _ _ => SameContents.isSize) hlines,
      halike.gives (fun _ _ _ => SameContents.isBoolean) hsources,
      halike.gives (fun _ _ _ => SameContents.isText) hfilename⟩
  · obtain ⟨items', hitems', hall⟩ := hsame.items_inv hitems
    obtain ⟨first', _, hfirst, htail, rfl⟩ := List.forall₂_cons_left_iff.mp hall
    obtain ⟨second', _, hsecond, htail', rfl⟩ := List.forall₂_cons_left_iff.mp htail
    obtain ⟨third', rest', hthird, -, rfl⟩ := List.forall₂_cons_left_iff.mp htail'
    exact .inr ⟨first', second', third', rest', n, b, s, hitems', hfirst.isSize hn,
      hsecond.isBoolean hb, hthird.isText hs, hgiven⟩

/-- The shape of a document is one of its contents. -/
theorem Fits.of_alike {t t' : Table} {g : Given} (halike : Alike t t') (h : Fits t g) :
    Fits t' g := by
  obtain ⟨hnames, hrender, herrors⟩ := h
  exact ⟨halike.forall_name hnames,
    halike.match_get? (fun _ _ hsame h => h.of_sameContents hsame) hrender,
    halike.match_get? (fun _ _ hsame h => h.of_sameContents hsame) herrors⟩

end Markup.Settings
