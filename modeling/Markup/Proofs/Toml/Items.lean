import Markup.Proofs.Toml.Grammar
import Markup.Proofs.Toml.WellFormed

/-!
# The items of a document

What holds of every scalar, and of arrays and tables in braces because it holds of their items, holds of
every value (`Grammar.Value.all`), by induction on how deep values nest. So every value of a document is
well-formed where integers are limited to 64 bits, and every such document is (`IsDocument.wellFormed`).
-/

namespace Markup.Toml

open Grammar

variable {α : Type} {s s' : Cursor} {item : Item} {limits : Limits} {P : Item → Prop}

namespace Grammar

theorem Separated.all {G : Production α} {mark : Char} {as : List α} {P : α → Prop}
    (hG : ∀ {s a s'}, G s a s' → P a) (h : Separated mark G s as s') : ∀ a ∈ as, P a := by
  induction h with
  | one only => exact List.forall_mem_singleton.mpr (hG only)
  | more first _ _ ih => exact List.forall_mem_cons.mpr ⟨hG first, ih⟩

variable {G : Production Item}

theorem Bracketed.all {items : List Item} (hG : ∀ {s item s'}, G s item s' → P item)
    (h : Bracketed G s items s') : ∀ item ∈ items, P item := by
  cases h with
  | empty => exact nofun
  | items _ each _ _ _ =>
    refine each.all fun hspaced => ?_
    cases hspaced with
    | intro _ value _ => exact hG value

theorem Braced.all {entries : List (List Key × Key × Item)}
    (hG : ∀ {s item s'}, G s item s' → P item) (h : Braced limits G s entries s') :
    ∀ e ∈ entries, P e.2.2 := by
  cases h with
  | empty => exact nofun
  | entries _ each _ _ =>
    refine each.all (P := fun e => P e.2.2) fun hentry => ?_
    cases hentry with
    | intro _ _ _ value _ => exact hG value

/-- What every value has, if scalars have it and the others have it from what is inside. -/
theorem Value.all (hscalar : ∀ {s item s'}, Scalar limits s item s' → P item)
    (harray : ∀ {span items}, (∀ item ∈ items, P item) → P (.array span items))
    (htable : ∀ {span t} {entries : List (List Key × Key × Item)}, (∀ e ∈ entries, P e.2.2) →
      entries.foldlM (fun t (path, k, v) => Table.assign? path k v t) [] = some t →
      P (.table (.braces span) t))
    (h : Value limits s item s') : P item := by
  obtain ⟨depth, -, h⟩ := h
  induction depth generalizing s item s' with
  | zero => exact hscalar h
  | succ depth ih =>
    cases h with
    | scalar scalar => exact hscalar scalar
    | array bracketed => exact harray (bracketed.all ih)
    | table braced build => exact htable (braced.all ih) build

/-- What holds of every value holds of the items that are assigned. -/
theorem Said.all {statement : Statement} {path : List Key} {k : Key}
    (hvalue : ∀ {s item s'}, Value limits s item s' → P item)
    (h : Said limits s statement s') (hassign : statement = .assign path k item) : P item := by
  cases h with
  | assign _ _ _ value =>
    cases hassign
    exact hvalue value
  | header | nextHeader => cases hassign

theorem Line.all {found : Option Statement} {path : List Key} {k : Key}
    (hvalue : ∀ {s item s'}, Value limits s item s' → P item)
    (h : Line limits s found s') (hassign : .assign path k item ∈ found) : P item := by
  cases h with
  | nothing => cases hassign
  | said _ said _ _ => exact said.all hvalue (Option.some.inj hassign)

theorem Lines.all {statements : List Statement} {path : List Key} {k : Key}
    (hvalue : ∀ {s item s'}, Value limits s item s' → P item)
    (h : Lines limits s statements) (hassign : .assign path k item ∈ statements) : P item := by
  induction h with
  | last line _ => exact line.all hvalue (Option.mem_toList.mp hassign)
  | more line _ _ ih =>
    rcases List.mem_append.mp hassign with hassign | hassign
    · exact line.all hvalue (Option.mem_toList.mp hassign)
    · exact ih hassign

end Grammar

/-- What holds of every value holds of every item that a document assigns. -/
theorem Says.all {text : String} {statements : List Statement} {path : List Key} {k : Key}
    (hvalue : ∀ {s item s'}, Value limits s item s' → P item) (h : Says limits text statements)
    (hassign : .assign path k item ∈ statements) : P item := by
  obtain ⟨_, _, -, hlines⟩ := h
  exact hlines.all hvalue hassign

/-! ### Well-formed documents -/

theorem foldlM_assign?_wellFormed {entries : List (List Key × Key × Item)} {t t' : Table}
    (ht : t.WellFormed) (hentries : ∀ e ∈ entries, e.2.2.WellFormed)
    (h : entries.foldlM (fun t (path, k, v) => Table.assign? path k v t) t = some t') :
    t'.WellFormed := by
  induction entries generalizing t with
  | nil =>
    cases h
    exact ht
  | cons e entries ih =>
    obtain ⟨hfirst, hrest⟩ := List.forall_mem_cons.mp hentries
    obtain ⟨t₁, hassign, h⟩ := Option.bind_eq_some_iff.mp h
    exact ih (Table.keeps_assign? e.1 e.2.1 hfirst _ _ ht hassign) hrest h

theorem Grammar.Scalar.wellFormed (h : Scalar .ofReader s item s') : item.WellFormed := by
  cases h with
  | text => exact .text
  | integer _ within => exact .integer within.1 within.2
  | decimal | special => exact .float
  | yes | no => exact .boolean
  | dateTime => exact .dateTime

theorem Grammar.Value.wellFormed (h : Value .ofReader s item s') : item.WellFormed :=
  h.all Scalar.wellFormed .array fun hentries hbuild =>
    Item.wellFormed_table.mpr (foldlM_assign?_wellFormed Table.wellFormed_nil hentries hbuild)

theorem Says.wellFormed {text : String} {statements : List Statement}
    (h : Says .ofReader text statements) : ∀ statement ∈ statements, statement.WellFormed := by
  intro statement hmem
  cases statement with
  | assign path k item => exact h.all Value.wellFormed hmem
  | header | nextHeader => trivial

/-- In a document no table repeats a key, and where they are limited to 64 bits every integer is one
of 64 bits. -/
theorem IsDocument.wellFormed {text : String} {t : Table} (h : IsDocument .ofReader text t) :
    t.WellFormed := by
  obtain ⟨statements, htext, hbuild⟩ := h
  exact build?_wellFormed htext.wellFormed hbuild

end Markup.Toml
