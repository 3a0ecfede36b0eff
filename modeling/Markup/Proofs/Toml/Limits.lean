import Markup.Proofs.Toml.Grammar

/-!
# Wider limits

A document within some limits is one within any wider ones (`IsDocument.mono`), and so a document of TOML
1.0 whatever the limits are. It goes from a production to those it is used in: only keys, integers and
floats have limits of their own, and arrays and tables in braces pass on those of their items
(`Nested.imp`). How deep a value may nest is a bound, and not an exact depth (`ValueWithin.mono`).
-/

namespace Markup.Toml

open Grammar

variable {α : Type} {s s' : Cursor} {item : Item} {limits limits' : Limits}

/-- Whatever the first limits allow, the second allow. -/
structure Limits.Le (limits limits' : Limits) : Prop where
  nesting : ∀ depth, limits.nesting depth → limits'.nesting depth
  keyParts : ∀ count, limits.keyParts count → limits'.keyParts count
  integer : ∀ n, limits.integer n → limits'.integer n
  decimal : ∀ x, limits.decimal x → limits'.decimal x

theorem Limits.Le.refl (limits : Limits) : limits.Le limits :=
  ⟨fun _ => id, fun _ => id, fun _ => id, fun _ => id⟩

theorem Limits.le_none (limits : Limits) : limits.Le .none :=
  ⟨fun _ _ => trivial, fun _ _ => trivial, fun _ _ => trivial, fun _ _ => trivial⟩

namespace Grammar

/-! ### Values -/

theorem Separated.imp {G H : Production α} {mark : Char} {as : List α}
    (hGH : ∀ {s a s'}, G s a s' → H s a s') (h : Separated mark G s as s') :
    Separated mark H s as s' := by
  induction h with
  | one only => exact .one (hGH only)
  | more first between _ ih => exact .more (hGH first) between ih

theorem DottedKey.mono {k : List Key × Key} (hle : limits.Le limits') (h : DottedKey limits s k s') :
    DottedKey limits' s k s' := by
  cases h with
  | intro parts few => exact .intro parts (hle.keyParts _ few)

theorem Scalar.mono (hle : limits.Le limits') (h : Scalar limits s item s') :
    Scalar limits' s item s' := by
  cases h with
  | text text => exact .text text
  | integer integer within => exact .integer integer (hle.integer _ within)
  | decimal decimal within => exact .decimal decimal (hle.decimal _ within)
  | special special => exact .special special
  | yes word => exact .yes word
  | no word => exact .no word
  | dateTime dateTime => exact .dateTime dateTime

variable {G H : Production Item}

theorem Bracketed.imp {items : List Item} (hGH : ∀ {s item s'}, G s item s' → H s item s')
    (h : Bracketed G s items s') : Bracketed H s items s' := by
  cases h with
  | empty opened gaps closed => exact .empty opened gaps closed
  | items opened each trailing gaps closed =>
    refine .items opened (each.imp fun hspaced => ?_) trailing gaps closed
    cases hspaced with
    | intro before value after => exact .intro before (hGH value) after

theorem Braced.imp {entries : List (List Key × Key × Item)} (hle : limits.Le limits')
    (hGH : ∀ {s item s'}, G s item s' → H s item s') (h : Braced limits G s entries s') :
    Braced limits' H s entries s' := by
  cases h with
  | empty opened blanks closed => exact .empty opened blanks closed
  | entries opened each blanks closed =>
    refine .entries opened (each.imp fun hentry => ?_) blanks closed
    cases hentry with
    | intro dotted equals before value after =>
      exact .intro (dotted.mono hle) equals before (hGH value) after

theorem Nested.imp (hle : limits.Le limits') (hGH : ∀ {s item s'}, G s item s' → H s item s')
    (h : Nested limits G s item s') : Nested limits' H s item s' := by
  cases h with
  | scalar scalar => exact .scalar (scalar.mono hle)
  | array bracketed => exact .array (bracketed.imp hGH)
  | table braced build => exact .table (braced.imp hle hGH) build

theorem ValueWithin.imp {depth : Nat} (hle : limits.Le limits')
    (h : ValueWithin limits depth s item s') : ValueWithin limits' depth s item s' := by
  induction depth generalizing s item s' with
  | zero => exact Scalar.mono hle h
  | succ depth ih => exact Nested.imp hle ih h

theorem ValueWithin.succ {depth : Nat} (h : ValueWithin limits depth s item s') :
    ValueWithin limits (depth + 1) s item s' := by
  induction depth generalizing s item s' with
  | zero => exact .scalar h
  | succ depth ih => exact Nested.imp (.refl limits) ih h

theorem ValueWithin.mono {depth depth' : Nat} (hdepth : depth ≤ depth')
    (h : ValueWithin limits depth s item s') : ValueWithin limits depth' s item s' := by
  induction hdepth with
  | refl => exact h
  | step _ ih => exact ih.succ

theorem Value.mono (hle : limits.Le limits') (h : Value limits s item s') :
    Value limits' s item s' := by
  obtain ⟨depth, hdepth, h⟩ := h
  exact ⟨depth, hle.nesting depth hdepth, h.imp hle⟩

/-! ### Documents -/

theorem Said.mono {statement : Statement} (hle : limits.Le limits')
    (h : Said limits s statement s') : Said limits' s statement s' := by
  cases h with
  | assign dotted equals blanks value =>
    exact .assign (dotted.mono hle) equals blanks (value.mono hle)
  | header opened dotted closed => exact .header opened (dotted.mono hle) closed
  | nextHeader opened dotted closed => exact .nextHeader opened (dotted.mono hle) closed

theorem Line.mono {found : Option Statement} (hle : limits.Le limits')
    (h : Line limits s found s') : Line limits' s found s' := by
  cases h with
  | nothing blanks comment => exact .nothing blanks comment
  | said before said after comment => exact .said before (said.mono hle) after comment

theorem Lines.mono {statements : List Statement} (hle : limits.Le limits')
    (h : Lines limits s statements) : Lines limits' s statements := by
  induction h with
  | last line ending => exact .last (line.mono hle) ending
  | more line newline _ ih => exact .more (line.mono hle) newline ih

end Grammar

theorem Says.mono {text : String} {statements : List Statement} (hle : limits.Le limits')
    (h : Says limits text statements) : Says limits' text statements := by
  obtain ⟨mark, start, hmark, hlines⟩ := h
  exact ⟨mark, start, hmark, hlines.mono hle⟩

/-- A document is one within any wider limits. -/
theorem IsDocument.mono {text : String} {t : Table} (hle : limits.Le limits')
    (h : IsDocument limits text t) : IsDocument limits' text t := by
  obtain ⟨statements, htext, hbuild⟩ := h
  exact ⟨statements, htext.mono hle, hbuild⟩

end Markup.Toml
