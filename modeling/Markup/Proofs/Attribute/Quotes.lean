import Markup.Proofs.Attribute.Scan
import Markup.Proofs.Escape.Entities
import Markup.Proofs.Value.Contents

/-!
# Between the quotation marks

What one attribute says of its value. Escaped, its text is inert and the entities read back give
what the value says (`attributeText_escaped`). Unescaped, a JSON text goes between apostrophes
exactly if it holds a quotation mark, and reading the references to apostrophes back gives the JSON
text unless that held such a reference itself (`attributeText_unescaped`): a reference cannot come
about where replaced and other characters meet (`showApostrophes_hide`).
-/

namespace Markup

open Escape

namespace Attribute

/-- Nothing is written for the value: it is absent or `false`, or a falsy class list or style. -/
def IsLeftOut (key : String) (v : Value) : Prop :=
  v = .null ∨ v = .bool false ∨ (key = "class" ∨ key = "style") ∧ v.isTruthy = false

/-- What a value says in an attribute: a text itself, any other value its JSON text, and an object
what it stands for. -/
def said (v : Value) : String :=
  match projected v with
  | .text s => s
  | v => v.jsonText

variable {key : String} {v : Value} {escaped terse : Bool}

/-! ### What is written at all -/

theorem write_ne_empty (a : Attribute) : a.write ≠ "" := by
  intro h
  obtain ⟨cs, hcs⟩ := write_eq_cons a
  rw [h] at hcs
  cases hcs

theorem of?_leftOut (h : IsLeftOut key v) : of? key v escaped terse = none := by
  rcases h with rfl | rfl | ⟨hkey, hfalsy⟩
  · rfl
  · rfl
  · have hkey' : (key == "class" || key == "style") = true := by simpa using hkey
    cases v with
    | bool b =>
      cases hfalsy
      rfl
    | null => rfl
    | list | map | object => cases hfalsy
    | number n => simp [of?, hfalsy, hkey']
    | text s => simp [of?, hfalsy, hkey']

theorem of?_kept (h : ¬ IsLeftOut key v) (hv : v ≠ .bool true) :
    of? key v escaped terse = some ⟨key, some (quoted (projected v) escaped)⟩ := by
  simp only [IsLeftOut, not_or, not_and] at h
  obtain ⟨hnull, hfalse, hkey⟩ := h
  have hcondition : (!v.isTruthy && (key == "class" || key == "style")) = false := by
    cases hv : v.isTruthy with
    | true => rfl
    | false =>
      have hneither := fun hk => hkey hk hv
      simpa [not_or] using hneither
  cases v with
  | null => exact absurd rfl hnull
  | bool b => cases b <;> contradiction
  | _ => simp only [of?, hcondition, Bool.false_eq_true, if_false]

/-! ### References to apostrophes -/

/-- The reference to an apostrophe. -/
def reference : List Char := ['&', '#', '3', '9', ';']

/-- One character, an apostrophe as its reference. -/
def hideChar (c : Char) : List Char := if c = '\'' then reference else [c]

theorem toList_hideApostrophes (s : String) :
    (hideApostrophes s).toList = s.toList.flatMap hideChar := by
  rw [hideApostrophes, String.toList_ofList]
  rfl

theorem showApostrophes_reference (cs : List Char) :
    showApostrophes (reference ++ cs) = '\'' :: showApostrophes cs := rfl

theorem showApostrophes_cons {c : Char} {cs : List Char} (h : ¬ reference <+: c :: cs) :
    showApostrophes (c :: cs) = c :: showApostrophes cs := by
  rw [showApostrophes]
  rintro rest rfl rfl
  exact h (List.prefix_append reference rest)

theorem not_startsWith_reference {c : Char} {cs : List Char}
    (h : ∀ rest, c = '&' → cs = '#' :: '3' :: '9' :: ';' :: rest → False) :
    ¬ reference <+: c :: cs := by
  rintro ⟨rest, hrest⟩
  obtain ⟨rfl, rfl⟩ := List.cons.inj hrest
  exact h rest rfl rfl

/-- What a hidden text begins with, up to an ampersand, the text begins with itself. -/
theorem prefix_of_prefix_hide {word cs : List Char} (hword : '&' ∉ word)
    (h : word <+: cs.flatMap hideChar) : word <+: cs := by
  induction word generalizing cs with
  | nil => exact List.nil_prefix
  | cons w word ih =>
    rw [List.mem_cons, not_or] at hword
    cases cs with
    | nil => cases List.prefix_nil.mp h
    | cons c cs =>
      rw [List.flatMap_cons, hideChar] at h
      split at h
      · exact absurd (List.cons_prefix_cons.mp h).1.symm hword.1
      · rw [List.singleton_append] at h
        obtain ⟨hw, hrest⟩ := List.cons_prefix_cons.mp h
        exact List.cons_prefix_cons.mpr ⟨hw, ih hword.2 hrest⟩

/-- Hiding the apostrophes of a text leaves no trace once references are read back. -/
theorem showApostrophes_hide (cs : List Char) :
    showApostrophes (cs.flatMap hideChar) = showApostrophes cs := by
  induction cs using showApostrophes.induct with
  | case1 cs ih =>
    show showApostrophes (reference ++ cs.flatMap hideChar) = showApostrophes (reference ++ cs)
    rw [showApostrophes_reference, showApostrophes_reference, ih]
  | case2 c cs hc ih =>
    have hfront := not_startsWith_reference hc
    rw [showApostrophes_cons hfront, List.flatMap_cons, hideChar]
    split
    · next h => rw [showApostrophes_reference, ih, h]
    · -- the ampersand of a reference would be `c`, and the rest of it would stand after `c`
      have hhidden : ¬ reference <+: c :: cs.flatMap hideChar := by
        intro h
        obtain ⟨hc, hrest⟩ := List.cons_prefix_cons.mp h
        exact hfront (List.cons_prefix_cons.mpr ⟨hc, prefix_of_prefix_hide (by decide) hrest⟩)
      rw [List.singleton_append, showApostrophes_cons hhidden, ih]
  | case3 => rfl

theorem length_showApostrophes_le (cs : List Char) : (showApostrophes cs).length ≤ cs.length := by
  induction cs using showApostrophes.induct with
  | case1 cs ih =>
    rw [showApostrophes]
    simp only [List.length_cons]
    omega
  | case2 c cs hc ih =>
    rw [showApostrophes_cons (not_startsWith_reference hc)]
    exact Nat.succ_le_succ ih
  | case3 => exact Nat.le_refl 0

theorem showApostrophes_eq_self_iff (cs : List Char) :
    showApostrophes cs = cs ↔ ¬ reference <:+: cs := by
  induction cs using showApostrophes.induct with
  | case1 cs ih =>
    have hlength := length_showApostrophes_le cs
    refine iff_of_false (fun h => ?_) (not_not_intro (List.prefix_append reference cs).isInfix)
    have := congrArg List.length h
    rw [showApostrophes] at this
    simp only [List.length_cons] at this
    omega
  | case2 c cs hc ih =>
    have hfront := not_startsWith_reference hc
    rw [showApostrophes_cons hfront, List.infix_cons_iff, or_iff_right hfront, ← ih]
    exact ⟨fun h => (List.cons.inj h).2, fun h => by rw [h]⟩
  | case3 => exact iff_of_true rfl (by decide)

/-! ### Escaped and unescaped -/

theorem write_some (key : String) (q : Quoted) : write ⟨key, some q⟩ =
    " " ++ key ++ "=" ++ String.singleton q.mark ++ q.text ++ String.singleton q.mark := by
  cases q <;> simp [write, Quoted.mark, Quoted.text, String.append_assoc]

theorem quoted_escaped (v : Value) :
    quoted (projected v) true = .double (escape (said v)) := by
  unfold said
  cases projected v <;> rfl

end Attribute

open Attribute

theorem attributeText_eq_empty_iff {key : String} {v : Value} {escaped terse : Bool} :
    attributeText key v escaped terse = "" ↔ IsLeftOut key v := by
  unfold attributeText
  refine ⟨fun h => ?_, fun h => by rw [of?_leftOut h]⟩
  by_contra hkept
  by_cases hv : v = .bool true
  · subst hv
    exact write_ne_empty _ h
  · rw [of?_kept hkept hv] at h
    exact write_ne_empty _ h

/-- An escaped attribute cannot break out of its marks, and says all that its value says. -/
theorem attributeText_escaped (key : String) (v : Value) (terse : Bool) :
    (attributeText key v true terse = "" ↔ IsLeftOut key v) ∧
    attributeText key (.bool true) true terse =
      (if terse then " " ++ key else " " ++ key ++ "=\"" ++ key ++ "\"") ∧
    (¬ IsLeftOut key v → v ≠ .bool true → ∃ t,
      attributeText key v true terse = " " ++ key ++ "=\"" ++ t ++ "\"" ∧
        Inert t.toList ∧ unescape t = said v) := by
  refine ⟨attributeText_eq_empty_iff, by cases terse <;> rfl, fun hkept hv => ?_⟩
  refine ⟨escape (said v), ?_, inert_escape _, unescape_escape _⟩
  rw [attributeText, of?_kept hkept hv, quoted_escaped]
  rfl

/-- A value with both kinds of quotation marks, entities and an object. -/
def mixedValue : Value :=
  .list [.text "it's \"<b>\"", .map [("&amp;", .object 1 (.text "&#39;"))], .number .nan]

theorem attributeText_escaped_mixedValue :
    ¬ IsLeftOut "class" mixedValue ∧ mixedValue ≠ .bool true ∧
    ∃ t, attributeText "class" mixedValue true false = " class=\"" ++ t ++ "\"" ∧
      Inert t.toList ∧
      unescape t = "[\"it's \\\"<b>\\\"\",\x7b\"&amp;\":\"&#39;\"\x7d,null]" := by
  have hkept : ¬ IsLeftOut "class" mixedValue := by
    rintro (h | h | ⟨-, h⟩) <;> cases h
  obtain ⟨t, ht, hinert, hsaid⟩ :=
    (attributeText_escaped "class" mixedValue false).2.2 hkept nofun
  exact ⟨hkept, nofun, t, ht, hinert, hsaid.trans (by decide)⟩

/-- Unescaped, a value that is no text goes between apostrophes exactly if a text or a map with an
entry is a part of it. The marks hold what stands between them, and that is the JSON text, with
references for apostrophes if they are the marks; read back, it is the JSON text exactly if that
holds no reference. -/
theorem attributeText_unescaped {key : String} {v : Value} (hkept : ¬ IsLeftOut key v)
    (hbool : ∀ b, v ≠ .bool b) (htext : ∀ s, projected v ≠ .text s) (terse : Bool) :
    ∃ (mark : Char) (t : String), attributeText key v false terse =
        " " ++ key ++ "=" ++ String.singleton mark ++ t ++ String.singleton mark ∧
      (mark = '\'' ↔ ∃ u, Value.Part u (projected v) ∧ u.IsWorded) ∧
      (mark = '"' ↔ ¬ ∃ u, Value.Part u (projected v) ∧ u.IsWorded) ∧
      mark ∉ t.toList ∧
      (mark = '"' → t = (projected v).jsonText) ∧
      (mark = '\'' → (showApostrophes t.toList = (projected v).jsonText.toList ↔
        ¬ reference <:+: (projected v).jsonText.toList)) := by
  have hwritten : attributeText key v false terse =
      write ⟨key, some (quoted (projected v) false)⟩ := by
    rw [attributeText, of?_kept hkept (hbool true)]
  have hq : quoted (projected v) false = if '"' ∈ (projected v).jsonText.toList then
      .single (hideApostrophes (projected v).jsonText) else .double (projected v).jsonText := by
    cases hp : projected v with
    | text s => exact absurd hp (htext s)
    | _ => simp [quoted]
  have hmarks : '\'' ≠ '"' := by decide
  rw [hwritten, hq, ← Value.quote_mem_jsonText_iff]
  split
  · next hmem =>
    refine ⟨'\'', hideApostrophes (projected v).jsonText, ?_, iff_of_true rfl hmem,
      iff_of_false hmarks (not_not_intro hmem), AttributeMap.closes_hideApostrophes _,
      fun h => absurd h hmarks, fun _ => ?_⟩
    · exact write_some key (.single _)
    · rw [toList_hideApostrophes, showApostrophes_hide, showApostrophes_eq_self_iff]
  · next hmem =>
    exact ⟨'"', (projected v).jsonText, write_some key (.double _), iff_of_false hmarks.symm hmem,
      iff_of_true rfl hmem, hmem, fun _ => rfl, fun h => absurd h hmarks.symm⟩

/-- A list without a text in it, and one with both kinds of quotation marks. -/
theorem attributeText_unescaped_lists :
    attributeText "data-x" (.list [.bool true]) false true = " data-x=\"[true]\"" ∧
    ¬ IsLeftOut "data-x" mixedValue ∧ (∀ b, mixedValue ≠ .bool b) ∧
    (∀ s, projected mixedValue ≠ .text s) ∧
    ∃ t : String, attributeText "data-x" mixedValue false true = " data-x='" ++ t ++ "'" ∧
      '\'' ∉ t.toList ∧ showApostrophes t.toList ≠ mixedValue.jsonText.toList := by
  have hplain : ¬ IsLeftOut "data-x" (.list [.bool true]) := by
    rintro (h | h | ⟨-, h⟩) <;> cases h
  obtain ⟨mark, t, ht, -, hdouble, -, hjson, -⟩ := attributeText_unescaped hplain nofun nofun true
  have hmark : mark = '"' := by
    rw [hdouble, ← Value.quote_mem_jsonText_iff]
    decide
  refine ⟨?_, ?_⟩
  · rw [ht, hjson hmark, hmark]
    decide
  have hkept : ¬ IsLeftOut "data-x" mixedValue := by
    rintro (h | h | ⟨-, h⟩) <;> cases h
  have hworded : ∃ u, Value.Part u (projected mixedValue) ∧ u.IsWorded :=
    ⟨_, .item List.mem_cons_self .self, .inl ⟨_, rfl⟩⟩
  have hreference : reference <:+: (projected mixedValue).jsonText.toList := by decide
  obtain ⟨mark, t, ht, hsingle, -, hcloses, -, hshown⟩ :=
    attributeText_unescaped hkept nofun nofun true
  obtain rfl := hsingle.mpr hworded
  refine ⟨hkept, nofun, nofun, t, ht.trans ?_, hcloses, fun h => (hshown rfl).mp h hreference⟩
  rfl

end Markup
