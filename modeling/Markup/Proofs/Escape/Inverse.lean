import Markup.Proofs.Escape.Entities

/-!
# Escaping and reading entities back

`escape_invertible`: reading entities back undoes escaping, and escaping undoes reading back exactly
on the inert texts, which are the texts that escaping gives. Such a text is taken apart as the
reader of entities takes it apart (`isEscaped_of_inert`): an entity in front, or a character that is
not reserved, since an inert text has no other `&`.
-/

namespace Markup

namespace Escape

variable {c : Char} {cs ds : List Char} {name : String}

theorem Inert.of_suffix (h : Inert cs) (hds : ds <:+ cs) : Inert ds where
  quote hmem := h.quote (hds.subset hmem)
  less hmem := h.less (hds.subset hmem)
  greater hmem := h.greater (hds.subset hmem)
  ampersand rest hrest := h.ampersand rest (hrest.trans hds)

theorem inert_of_isEscaped (h : IsEscaped cs) : Inert cs := by
  induction h with
  | nil => exact inert_nil
  | plain hc _ ih => exact ih.cons hc
  | entity hc _ ih => exact ih.entity hc

theorem Inert.of_append (ds : List Char) (h : Inert (ds ++ cs)) : Inert cs :=
  h.of_suffix (List.suffix_append ds cs)

theorem Inert.head_plain (h : Inert (c :: cs)) (hc : c ≠ '&') : entity? c = none := by
  have hquote : c ≠ '"' := fun he => h.quote (he ▸ List.mem_cons_self)
  have hless : c ≠ '<' := fun he => h.less (he ▸ List.mem_cons_self)
  have hgreater : c ≠ '>' := fun he => h.greater (he ▸ List.mem_cons_self)
  simp [entity?, hquote, hc, hless, hgreater]

theorem isEscaped_of_inert (h : Inert cs) : IsEscaped cs := by
  induction cs using unescapeChars.induct with
  | case1 cs ih => exact .entity (c := '"') rfl (ih (h.of_append "&quot;".toList))
  | case2 cs ih => exact .entity (c := '&') rfl (ih (h.of_append "&amp;".toList))
  | case3 cs ih => exact .entity (c := '<') rfl (ih (h.of_append "&lt;".toList))
  | case4 cs ih => exact .entity (c := '>') rfl (ih (h.of_append "&gt;".toList))
  | case5 c cs hquot hamp hlt hgt ih =>
    have hc : c ≠ '&' := by
      rintro rfl
      obtain ⟨name, hname, rest, hrest⟩ := h.ampersand cs (List.suffix_refl _)
      simp only [entities, List.mem_cons, List.not_mem_nil, or_false] at hname
      rcases hname with rfl | rfl | rfl | rfl
      · exact hquot rest rfl (List.cons.inj hrest).2.symm
      · exact hamp rest rfl (List.cons.inj hrest).2.symm
      · exact hlt rest rfl (List.cons.inj hrest).2.symm
      · exact hgt rest rfl (List.cons.inj hrest).2.symm
    exact .plain (h.head_plain hc) (ih (h.of_suffix (List.suffix_cons c cs)))
  | case6 => exact .nil

theorem isEscaped_iff_inert : IsEscaped cs ↔ Inert cs := ⟨inert_of_isEscaped, isEscaped_of_inert⟩

theorem substitute_unescapeChars (h : IsEscaped cs) :
    (unescapeChars cs).flatMap substituteChar = cs := by
  induction h with
  | nil => rfl
  | plain hc _ ih =>
    rw [unescapeChars_cons (ne_of_entity?_eq_none hc).2.1, List.flatMap_cons, ih, substituteChar,
      hc, List.singleton_append]
  | entity hc _ ih =>
    rw [unescapeChars_entity hc, List.flatMap_cons, ih, substituteChar, hc]

/-! ### Escaping twice -/

theorem length_entity (hc : entity? c = some name) : 1 < name.toList.length := by
  rcases eq_of_entity? hc with ⟨-, rfl⟩ | ⟨-, rfl⟩ | ⟨-, rfl⟩ | ⟨-, rfl⟩ <;> decide

theorem length_le_substitute (cs : List Char) : cs.length ≤ (cs.flatMap substituteChar).length := by
  induction cs with
  | nil => exact Nat.le_refl 0
  | cons c cs ih =>
    have hc : 1 ≤ (substituteChar c).length := by
      unfold substituteChar
      split
      · next hname => exact Nat.le_of_lt (length_entity hname)
      · exact Nat.le_refl 1
    rw [List.flatMap_cons, List.length_append, List.length_cons]
    omega

/-- Each entity makes the text longer, so that only a text without reserved characters stays. -/
theorem substitute_eq_self_iff :
    cs.flatMap substituteChar = cs ↔ ∀ c ∈ cs, entity? c = none := by
  refine ⟨fun h => ?_, flatMap_substituteChar_of_plain⟩
  induction cs with
  | nil => exact nofun
  | cons c cs ih =>
    rw [List.flatMap_cons, substituteChar] at h
    cases hc : entity? c with
    | some name =>
      have hlength := congrArg List.length h
      have hname := length_entity hc
      have hle := length_le_substitute cs
      simp only [hc, List.length_append, List.length_cons] at hlength
      omega
    | none =>
      rw [hc] at h
      exact List.forall_mem_cons.mpr ⟨hc, ih (List.cons.inj h).2⟩

end Escape

open Escape

theorem escape_unescape_of_inert {t : String} (h : Inert t.toList) : escape (unescape t) = t := by
  rw [escape_eq_substitute, substitute, unescape, String.toList_ofList,
    substitute_unescapeChars (isEscaped_iff_inert.mpr h), String.ofList_toList]

theorem escape_eq_self_iff {s : String} : escape s = s ↔ ∀ c ∈ s.toList, c ∉ reserved := by
  rw [← String.toList_inj, escape_eq_substitute, substitute, String.toList_ofList,
    substitute_eq_self_iff]
  simp only [entity?_eq_none_iff]

/-- Reading entities back undoes escaping. Escaping undoes reading back on the texts in which each
reserved character is the `&` of an entity, which are those that escaping gives, and a second time
it changes nothing only where the first time changed nothing. -/
theorem escape_invertible (s t : String) :
    unescape (escape s) = s ∧
    (escape s = escape t ↔ s = t) ∧
    (escape (unescape t) = t ↔ Inert t.toList) ∧
    ((∃ u, escape u = t) ↔ Inert t.toList) ∧
    (escape (escape s) = escape s ↔ ∀ c ∈ s.toList, c ∉ reserved) := by
  refine ⟨unescape_escape s, escape_inj, ⟨fun h => ?_, escape_unescape_of_inert⟩, ⟨?_, fun h => ?_⟩,
    escape_inj.trans escape_eq_self_iff⟩
  · exact h ▸ inert_escape (unescape t)
  · rintro ⟨u, rfl⟩
    exact inert_escape u
  · exact ⟨unescape t, escape_unescape_of_inert h⟩

end Markup
