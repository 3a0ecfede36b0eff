import Markup.Proofs.Escape.Pass

/-!
# Entities read back

What escaping writes holds no reserved character but the `&` of an entity (`inert_substitute`), and
reading the entities back from the left gives the text again, also one that held entities before
(`unescape_escape`).
-/

namespace Markup

namespace Escape

/-- The entities of the reserved characters. -/
def entities : List String := ["&quot;", "&amp;", "&lt;", "&gt;"]

/-- No reserved character of the text stands on its own: each is the `&` of an entity. -/
structure Inert (cs : List Char) : Prop where
  quote : '"' ∉ cs
  less : '<' ∉ cs
  greater : '>' ∉ cs
  ampersand : ∀ rest, '&' :: rest <:+ cs → ∃ name ∈ entities, name.toList <+: '&' :: rest

variable {c : Char} {cs : List Char} {name : String}

/-! ### What escaping writes -/

theorem inert_nil : Inert [] := by
  refine ⟨List.not_mem_nil, List.not_mem_nil, List.not_mem_nil, fun rest h => ?_⟩
  exact absurd (List.suffix_nil.mp h) (List.cons_ne_nil _ _)

/-- A character without an entity may stand in front. -/
theorem Inert.cons (hc : entity? c = none) (h : Inert cs) : Inert (c :: cs) := by
  obtain ⟨hquote, hamp, hless, hgreater⟩ := ne_of_entity?_eq_none hc
  refine ⟨List.not_mem_cons_of_ne_of_not_mem hquote.symm h.quote,
    List.not_mem_cons_of_ne_of_not_mem hless.symm h.less,
    List.not_mem_cons_of_ne_of_not_mem hgreater.symm h.greater, fun rest hrest => ?_⟩
  rcases List.suffix_cons_iff.mp hrest with heq | hsuffix
  · exact absurd (List.cons.inj heq).1.symm hamp
  · exact h.ampersand rest hsuffix

theorem Inert.append {word : List Char} (hword : ∀ c ∈ word, entity? c = none) (h : Inert cs) :
    Inert (word ++ cs) := by
  induction word with
  | nil => exact h
  | cons c word ih =>
    obtain ⟨hc, hword⟩ := List.forall_mem_cons.mp hword
    exact (ih hword).cons hc

/-- An entity may stand in front: past its `&` it holds no reserved character. -/
theorem Inert.entity (hc : entity? c = some name) (h : Inert cs) : Inert (name.toList ++ cs) := by
  obtain ⟨hmem, word, hname, hall⟩ : name ∈ entities ∧
      ∃ word, name.toList = '&' :: word ∧ word.all fun c => (entity? c).isNone := by
    rcases eq_of_entity? hc with ⟨-, rfl⟩ | ⟨-, rfl⟩ | ⟨-, rfl⟩ | ⟨-, rfl⟩ <;>
      exact ⟨by decide, _, rfl, by decide⟩
  have hword : ∀ c ∈ word, entity? c = none := fun c hc =>
    Option.isNone_iff_eq_none.mp (List.all_eq_true.mp hall c hc)
  have htail := h.append hword
  rw [hname, List.cons_append]
  refine ⟨List.not_mem_cons_of_ne_of_not_mem (by decide) htail.quote,
    List.not_mem_cons_of_ne_of_not_mem (by decide) htail.less,
    List.not_mem_cons_of_ne_of_not_mem (by decide) htail.greater, fun rest hrest => ?_⟩
  rcases List.suffix_cons_iff.mp hrest with heq | hsuffix
  · refine ⟨name, hmem, ?_⟩
    rw [heq, hname]
    exact List.prefix_append ('&' :: word) cs
  · exact htail.ampersand rest hsuffix

theorem inert_substitute (cs : List Char) : Inert (cs.flatMap substituteChar) := by
  induction cs with
  | nil => exact inert_nil
  | cons c cs ih =>
    rw [List.flatMap_cons, substituteChar]
    cases hc : entity? c with
    | some name => exact ih.entity hc
    | none => exact ih.cons hc

/-! ### Reading back -/

theorem unescapeChars_entity (hc : entity? c = some name) (cs : List Char) :
    unescapeChars (name.toList ++ cs) = c :: unescapeChars cs := by
  rcases eq_of_entity? hc with ⟨rfl, rfl⟩ | ⟨rfl, rfl⟩ | ⟨rfl, rfl⟩ | ⟨rfl, rfl⟩ <;> rfl

theorem unescapeChars_cons (hc : c ≠ '&') (cs : List Char) :
    unescapeChars (c :: cs) = c :: unescapeChars cs := by
  rw [unescapeChars] <;> rintro _ rfl <;> exact absurd rfl hc

theorem unescapeChars_substitute (cs : List Char) :
    unescapeChars (cs.flatMap substituteChar) = cs := by
  induction cs with
  | nil => rfl
  | cons c cs ih =>
    rw [List.flatMap_cons, substituteChar]
    cases hc : entity? c with
    | some name =>
      show unescapeChars (name.toList ++ cs.flatMap substituteChar) = _
      rw [unescapeChars_entity hc, ih]
    | none =>
      show unescapeChars (c :: cs.flatMap substituteChar) = _
      rw [unescapeChars_cons (ne_of_entity?_eq_none hc).2.1, ih]

end Escape

open Escape

theorem inert_escape (s : String) : Inert (escape s).toList := by
  rw [escape_eq_substitute, substitute, String.toList_ofList]
  exact inert_substitute s.toList

theorem unescape_escape (s : String) : unescape (escape s) = s := by
  rw [escape_eq_substitute, substitute, unescape, String.toList_ofList, unescapeChars_substitute,
    String.ofList_toList]

theorem escape_inj {s t : String} : escape s = escape t ↔ s = t := by
  refine ⟨fun h => ?_, congrArg escape⟩
  rw [← unescape_escape s, h, unescape_escape]

theorem escape_eq_empty_iff {s : String} : escape s = "" ↔ s = "" :=
  escape_inj (t := "")

end Markup
