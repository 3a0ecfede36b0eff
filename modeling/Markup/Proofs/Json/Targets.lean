import Markup.Json.Reader
import Markup.Proofs.Entries

/-!
# An object read as a map and as a value

A text that opens an object is read alike as an attribute map and as a value. `Json.Denotes` says
which value JSON data stands for, without reading a text: at every level a repeated key keeps its
first place and takes its last value. `AttributeMap.read_agrees` says that on such a text, and on a
blank one, both readers meet the same problem, or both give what the members of the object denote;
and that no other text is an attribute map.
-/

namespace Markup

namespace Json

/-- The value that JSON data stands for. A repeated key stands where it comes first and has the
value that comes last. -/
inductive Denotes : Json → Value → Prop where
  | null : Denotes .null .null
  | bool (b : Bool) : Denotes (.bool b) (.bool b)
  | integer (n : Int) : Denotes (.integer n) (.number (.ofInt n))
  | float (x : Number) : Denotes (.float x) (.number x)
  | text (s : String) : Denotes (.text s) (.text s)
  | array {items : List Json} {vs : List Value} (length : vs.length = items.length)
    (values : ∀ (i : Nat) j v, items[i]? = some j → vs[i]? = some v → Denotes j v) :
    Denotes (.array items) (.list vs)
  | object {members : List (String × Json)} {entries : List (String × Value)}
    (order : Entries.keys entries = (Entries.keys members).eraseDups)
    (values : ∀ key j v, Entries.get? members.reverse key = some j →
      Entries.get? entries key = some v → Denotes j v) :
    Denotes (.object members) (.map entries)

theorem ofJsonItems_eq_map (items : List Json) :
    Value.ofJsonItems items = items.map Value.ofJson := by
  induction items with
  | nil => rfl
  | cons j items ih => rw [Value.ofJsonItems, List.map_cons, ih]

theorem ofJsonEntries_eq_map (members : List (String × Json)) :
    Value.ofJsonEntries members = members.map fun e => (e.1, Value.ofJson e.2) := by
  induction members with
  | nil => rfl
  | cons e members ih => rw [Value.ofJsonEntries, List.map_cons, ih]

theorem get?_mapValues {α β : Type} (f : α → β) (es : Entries α) (key : String) :
    Entries.get? (es.map fun e => (e.1, f e.2)) key = (Entries.get? es key).map f := by
  induction es with
  | nil => rfl
  | cons e es ih =>
    rw [List.map_cons, Entries.get?, Entries.get?, ih]
    split <;> rfl

theorem keys_mapValues {α β : Type} (f : α → β) (es : Entries α) :
    Entries.keys (es.map fun e => (e.1, f e.2)) = Entries.keys es := by
  rw [Entries.keys, List.map_map]
  rfl

theorem denotes_array {items : List Json} (h : ∀ j ∈ items, Denotes j (Value.ofJson j)) :
    Denotes (.array items) (Value.ofJson (.array items)) := by
  rw [Value.ofJson, ofJsonItems_eq_map]
  refine .array (List.length_map ..) fun i j v hj hv => ?_
  rw [List.getElem?_map, hj, Option.map_some, Option.some.injEq] at hv
  exact hv ▸ h j (List.mem_of_getElem? hj)

theorem denotes_object {members : List (String × Json)}
    (h : ∀ e ∈ members, Denotes e.2 (Value.ofJson e.2)) :
    Denotes (.object members) (Value.ofJson (.object members)) := by
  rw [Value.ofJson, ofJsonEntries_eq_map]
  refine .object ?_ fun key j v hj hv => ?_
  · rw [Entries.keys_collect, keys_mapValues]
  · rw [Entries.get?_collect, ← List.map_reverse, get?_mapValues, hj, Option.map_some,
      Option.some.injEq] at hv
    have hmem := List.mem_reverse.mp (Entries.mem_of_get? hj)
    exact hv ▸ h _ hmem

mutual

theorem denotes_ofJson : (j : Json) → Denotes j (Value.ofJson j)
  | .null => .null
  | .bool b => .bool b
  | .integer n => .integer n
  | .float x => .float x
  | .text s => .text s
  | .array items => denotes_array (denotes_ofJson_item items)
  | .object members => denotes_object (denotes_ofJson_member members)

theorem denotes_ofJson_item : (items : List Json) → ∀ j ∈ items, Denotes j (Value.ofJson j)
  | [], _, h => nomatch h
  | j :: items, k, h => by
    rcases List.mem_cons.mp h with h | h
    · exact h ▸ denotes_ofJson j
    · exact denotes_ofJson_item items k h

theorem denotes_ofJson_member :
    (members : List (String × Json)) → ∀ e ∈ members, Denotes e.2 (Value.ofJson e.2)
  | [], _, h => nomatch h
  | (k, j) :: members, e, h => by
    rcases List.mem_cons.mp h with h | h
    · exact h ▸ denotes_ofJson j
    · exact denotes_ofJson_member members e h

end

/-- The text opens an object, or nothing is in it. -/
def OpensObject (s : String) : Prop :=
  skipBlank s.toList = [] ∨ (skipBlank s.toList).head? = some '{'

instance (s : String) : Decidable (OpensObject s) := inferInstanceAs (Decidable (_ ∨ _))

theorem notAnObject_ne_ok (v : Json) (rest : List Char) (es : List (String × Json)) :
    notAnObject v rest ≠ .ok es := by
  cases v <;> exact nofun

theorem wholeObject_blank {cs : List Char} (h : skipBlank cs = []) :
    wholeObject cs = stopAt .endInValue [] ∧ whole cs = stopAt .endInValue [] := by
  constructor
  · rw [wholeObject, h]
    rfl
  · rw [whole, wholeWithin, value, h]
    rfl

/-- Read as data, an object gives its members. -/
theorem whole_object {cs rest : List Char} (h : skipBlank cs = '{' :: rest) :
    whole cs = (wholeObject cs).map .object := by
  have hobject : wholeObject cs = (members (2 * cs.length + 1) (maxDepth - 1) true rest >>=
      fun p => ending p.2 >>= fun _ => pure p.1) := by
    rw [wholeObject, h]
    rfl
  have hwhole : whole cs = (members (2 * cs.length + 1) (maxDepth - 1) true rest >>=
      fun p => pure (object p.1, p.2)) >>= fun p => ending p.2 >>= fun _ => pure p.1 := by
    rw [whole, wholeWithin, value, h]
    rfl
  rw [hobject, hwhole]
  cases members (2 * cs.length + 1) (maxDepth - 1) true rest with
  | error stop => rfl
  | ok p =>
    show (ending p.2 >>= fun _ => pure (object p.1)) =
      Except.map object (ending p.2 >>= fun _ => pure p.1)
    cases ending p.2 <;> rfl

theorem wholeObject_other {cs : List Char} {c : Char} {rest : List Char}
    (h : skipBlank cs = c :: rest) (hc : c ≠ '{') (es : List (String × Json)) :
    wholeObject cs ≠ .ok es := by
  rw [wholeObject, h]
  split
  · next heq => exact absurd (List.cons.inj heq).1 hc
  · exact nofun
  · show (value 1 maxDepth _ >>= fun p => notAnObject p.1 p.2) ≠ _
    cases value 1 maxDepth (c :: rest) with
    | error stop => exact nofun
    | ok p => exact notAnObject_ne_ok p.1 p.2 es

end Json

namespace AttributeMap

open Json

/-- What both readers give for a text: the same problem, or what the same members denote. -/
inductive ReadsAlike (s : String) : Prop where
  | problem (e : ReadError) (asMap : read s = .error e) (asValue : Value.read s = .error e)
  | members (es : List (String × Json)) (m : AttributeMap) (asData : Json.read s = .ok (.object es))
    (asMap : read s = .ok m) (asValue : Value.read s = .ok m.toValue)
    (denotes : Denotes (.object es) m.toValue)

theorem readsAlike_of_whole {s : String}
    (h : whole s.toList = (wholeObject s.toList).map .object) : ReadsAlike s := by
  cases hw : wholeObject s.toList with
  | error stop =>
    rw [hw] at h
    refine .problem (stop.locate s.toList) ?_ ?_
    · rw [read, hw]
    · rw [Value.read, Json.read, h]
      rfl
  | ok es =>
    rw [hw] at h
    have hdata : Json.read s = .ok (.object es) := by
      rw [Json.read, h]
      rfl
    have hvalue : (AttributeMap.ofList (es.map fun e => (e.1, Value.ofJson e.2))).toValue =
        Value.ofJson (.object es) := by
      rw [Value.ofJson, ofJsonEntries_eq_map]
      rfl
    refine .members es _ hdata (by rw [read, hw]) ?_ ?_
    · rw [Value.read, hdata, hvalue]
      rfl
    · rw [hvalue]
      exact denotes_ofJson _

/-- A text that opens an object, or a blank one, is read alike as a map and as a value. No other
text is an attribute map. -/
theorem read_agrees :
    (∀ s, OpensObject s → ReadsAlike s) ∧ (∀ s, ¬ OpensObject s → ∃ e, read s = .error e) := by
  refine ⟨fun s h => ?_, fun s h => ?_⟩
  · rcases h with h | h
    · obtain ⟨hobject, hwhole⟩ := wholeObject_blank h
      exact readsAlike_of_whole (by rw [hobject, hwhole]; rfl)
    · obtain ⟨rest, hrest⟩ := List.head?_eq_some_iff.mp h
      exact readsAlike_of_whole (whole_object hrest)
  · cases hs : skipBlank s.toList with
    | nil => exact absurd (.inl hs) h
    | cons c rest =>
      have hc : c ≠ '{' := by
        rintro rfl
        exact h (.inr (by rw [hs]; rfl))
      cases hw : wholeObject s.toList with
      | error stop => exact ⟨stop.locate s.toList, by rw [read, hw]⟩
      | ok es => exact absurd hw (wholeObject_other hs hc es)

/-- An object that repeats a key, and holds another that does. -/
def repeatedKeys : String :=
  " \x7b\"a\":true,\"b\":\x7b\"x\":null,\"y\":false,\"x\":[]\x7d,\"a\":\"z\"\x7d"

theorem read_agrees_repeatedKeys :
    OpensObject repeatedKeys ∧ ReadsAlike repeatedKeys ∧
    (read repeatedKeys).toOption.map jsonText =
      some "\x7b\"a\":\"z\",\"b\":\x7b\"x\":[],\"y\":false\x7d\x7d" ∧
    ¬ OpensObject "[]" ∧ ∃ e, read "[]" = .error e := by
  have hopens : OpensObject repeatedKeys := by decide
  have hother : ¬ OpensObject "[]" := by decide
  exact ⟨hopens, read_agrees.1 repeatedKeys hopens, by decide +kernel, hother, read_agrees.2 "[]" hother⟩

end AttributeMap

end Markup
