import Markup.Proofs.Json.RoundTrip
import Markup.Proofs.Json.Targets

/-!
# Reading values and attribute maps back

The JSON text of a value is JSON, is the text of its normal form, and is read as that normal form with
every number reread, as long as at most 127 lists and maps stand inside one another: `ReadBack`, for a
value and for an attribute map, and `read_jsonText` for all of them. A number is reread as itself when
its text is short (`Number.Brief`), but not always, so that there are values whose text is not read as
their normal form: `not_read_jsonText_tiny`.
-/

namespace Markup

open Json

namespace Value

/-! ### Whole texts -/

theorem readsAs_whole {v : Value} (hwf : v.WellFormed) :
    ReadsAs ofJson (v.normal.mapNumbers Number.reread) v.depth maxDepth []
      (Json.value (2 * v.jsonText.toList.length + 2) maxDepth v.jsonText.toList) := by
  have hlen : (v.spell numberChars).length < 2 * (v.spell numberChars).length + 2 := by omega
  have hread := value_spell v hwf _ maxDepth [] hlen endsRun_nil
  rwa [List.append_nil, ← toList_jsonText] at hread

theorem read_of_depth_le {v : Value} (hwf : v.WellFormed) (hdepth : v.depth ≤ maxDepth) :
    Value.read v.jsonText = .ok (v.normal.mapNumbers Number.reread) := by
  have hread := readsAs_whole hwf
  rw [Value.read, Json.read, whole, wholeWithin]
  generalize Json.value _ _ _ = outcome at hread ⊢
  cases hread with
  | ok _ hmeaning =>
    rw [← hmeaning]
    rfl
  | tooDeep hdeep _ => omega

theorem read_of_lt_depth {v : Value} (hwf : v.WellFormed) (hdepth : maxDepth < v.depth) :
    ∃ e, Value.read v.jsonText = .error e ∧ e.problem = .tooDeep := by
  have hread := readsAs_whole hwf
  rw [Value.read, Json.read, whole, wholeWithin]
  generalize Json.value _ _ _ = outcome at hread ⊢
  cases hread with
  | ok hfits _ => omega
  | @tooDeep stop _ hproblem => exact ⟨stop.locate v.jsonText.toList, rfl, hproblem⟩

/-- What the JSON text of a value is, and what comes of reading it. -/
structure ReadBack (v : Value) : Prop where
  isJson : IsJson v.jsonText
  jsonText_normal : v.jsonText = v.normal.jsonText
  read : v.normal.depth ≤ 127 → Value.read v.jsonText = .ok (v.normal.mapNumbers Number.reread)
  tooDeep : 127 < v.normal.depth → ∃ e, Value.read v.jsonText = .error e ∧ e.problem = .tooDeep
  read_normal : Value.read v.jsonText = .ok v.normal ↔
    v.normal.depth ≤ 127 ∧ ∀ n ∈ v.normal.numbers, n.reread = n

theorem readBack {v : Value} (hwf : v.WellFormed) : v.ReadBack := by
  have hread := read_of_depth_le hwf
  have hdeep := read_of_lt_depth hwf
  rw [← depth_normal v] at hread hdeep
  refine ⟨v.isJson_jsonText, v.jsonText_normal.symm, hread, hdeep, ?_⟩
  rw [← mapNumbers_eq_iff]
  constructor
  · intro h
    have hdepth : v.normal.depth ≤ 127 := by
      by_contra hlt
      obtain ⟨e, he, -⟩ := hdeep (not_le.mp hlt)
      rw [he] at h
      cases h
    rw [hread hdepth] at h
    exact ⟨hdepth, Except.ok.inj h⟩
  · rintro ⟨hdepth, heq⟩
    rw [hread hdepth, heq]

end Value

namespace AttributeMap

/-- What the JSON text of an attribute map is, and what comes of reading it as a map. -/
structure ReadBack (m : AttributeMap) : Prop where
  isJson : IsJson m.jsonText
  jsonText_normal : m.jsonText = m.toValue.normal.jsonText
  read : m.toValue.normal.depth ≤ 127 → ∃ m', AttributeMap.read m.jsonText = .ok m' ∧
    m'.toValue = m.toValue.normal.mapNumbers Number.reread
  tooDeep : 127 < m.toValue.normal.depth →
    ∃ e, AttributeMap.read m.jsonText = .error e ∧ e.problem = .tooDeep
  text : Value.entriesArePlain m.entries = true →
    (∀ n ∈ m.toValue.normal.numbers, n.reread = n) →
    ∀ m', AttributeMap.read m.jsonText = .ok m' → ∀ terse, m'.text terse = m.text terse

theorem readsAlike_jsonText (m : AttributeMap) : ReadsAlike m.jsonText := by
  have hopens : skipBlank m.jsonText.toList =
      '{' :: (Value.spellEntries numberChars true m.entries ++ ['}']) := by
    rw [jsonText, toValue, Value.toList_jsonText, Value.spell, List.cons_append, skipBlank_cons rfl]
  exact readsAlike_of_whole (whole_object hopens)

theorem read_eq_ok {m : AttributeMap} {v : Value} (h : Value.read m.jsonText = .ok v) :
    ∃ m', AttributeMap.read m.jsonText = .ok m' ∧ m'.toValue = v := by
  cases m.readsAlike_jsonText with
  | problem e _ hvalue =>
    rw [hvalue] at h
    cases h
  | members es m' _ hmap hvalue _ =>
    rw [hvalue] at h
    exact ⟨m', hmap, Except.ok.inj h⟩

theorem read_eq_error {m : AttributeMap} {e : ReadError} (h : Value.read m.jsonText = .error e) :
    AttributeMap.read m.jsonText = .error e := by
  cases m.readsAlike_jsonText with
  | problem e' hmap hvalue =>
    rw [hvalue] at h
    rw [hmap, Except.error.inj h]
  | members es m' _ _ hvalue _ =>
    rw [hvalue] at h
    cases h

theorem readBack {m : AttributeMap} (hwf : m.toValue.WellFormed) : m.ReadBack := by
  have hvalue := Value.readBack hwf
  have hread : m.toValue.normal.depth ≤ 127 → ∃ m', AttributeMap.read m.jsonText = .ok m' ∧
      m'.toValue = m.toValue.normal.mapNumbers Number.reread :=
    fun hdepth => read_eq_ok (hvalue.read hdepth)
  have htooDeep : 127 < m.toValue.normal.depth →
      ∃ e, AttributeMap.read m.jsonText = .error e ∧ e.problem = .tooDeep := by
    intro hdepth
    obtain ⟨e, he, hproblem⟩ := hvalue.tooDeep hdepth
    exact ⟨e, read_eq_error he, hproblem⟩
  refine ⟨hvalue.isJson, hvalue.jsonText_normal, hread, htooDeep, ?_⟩
  intro hplain hnumbers m' hm' terse
  have hdepth : m.toValue.normal.depth ≤ 127 := by
    by_contra hlt
    obtain ⟨e, he, -⟩ := htooDeep (not_le.mp hlt)
    rw [he] at hm'
    cases hm'
  obtain ⟨m'', hm'', heq⟩ := hread hdepth
  rw [hm', Except.ok.injEq] at hm''
  rw [(Value.mapNumbers_eq_iff ..).mpr hnumbers, ← hm'', toValue, toValue, Value.normal,
    Value.map.injEq] at heq
  exact text_of_normalEntries heq hplain terse

end AttributeMap

namespace Value

/-- The text of every value and of every attribute map is JSON and reads back, and numbers with a short
text come back as they were. -/
theorem read_jsonText :
    (∀ v : Value, v.WellFormed → v.ReadBack) ∧
    (∀ m : AttributeMap, m.toValue.WellFormed → m.ReadBack) ∧
    ∀ n : Number, n.Brief → n.reread = n :=
  ⟨fun _ => readBack, fun _ => AttributeMap.readBack, fun _ => Number.reread_of_brief⟩

/-- `1.5`. -/
def oneAndHalf : Magnitude := ⟨3 * 2 ^ (51 : Nat), 1022, by decide, by decide, by decide⟩

/-- Attributes with a control character and quotation marks in a key, a zero with a sign, a fraction,
a large whole number and an empty map. -/
def oddities : AttributeMap where
  entries := [("a\"\x01\n\\", list [number (.finite true .zero), number (.finite true oneAndHalf)]),
    ("é", map [("b", number (.ofInt 9007199254740993)), ("c", text "\t😀/")]), ("d", map [])]
  nodup := by decide

/-- So many lists inside one more. -/
def nested : Nat → Value
  | 0 => list []
  | n + 1 => list [nested n]

theorem wellFormed_nested (n : Nat) : (nested n).WellFormed := by
  induction n with
  | zero => trivial
  | succ n ih => exact ⟨ih, trivial⟩

theorem depth_nested (n : Nat) : (nested n).depth = n + 1 := by
  induction n with
  | zero => rfl
  | succ n ih => simp [nested, depth, depthItems, ih]

theorem read_jsonText_oddities :
    oddities.toValue.WellFormed ∧
    (∃ m, AttributeMap.read oddities.jsonText = .ok m ∧ m.text false = oddities.text false) ∧
    (∃ e, Value.read (nested 127).jsonText = .error e ∧ e.problem = .tooDeep) ∧
    Value.read (number .nan).jsonText = .ok null ∧
    (Number.finite true oneAndHalf).Brief ∧
    (Number.finite true oneAndHalf).reread = .finite true oneAndHalf := by
  obtain ⟨hvalues, hmaps, hbriefs⟩ := read_jsonText
  have hwf : oddities.toValue.WellFormed := by
    simp [oddities, AttributeMap.toValue, WellFormed, WellFormedItems, WellFormedEntries]
  have hdepth : oddities.toValue.normal.depth ≤ 127 := by decide +kernel
  have hplain : entriesArePlain oddities.entries = true := by decide +kernel
  have hnumbers : ∀ n ∈ oddities.toValue.normal.numbers, n.reread = n := by decide +kernel
  have hback := hmaps oddities hwf
  obtain ⟨m, hm, -⟩ := hback.read hdepth
  have hdeep : 127 < (nested 127).normal.depth := by
    rw [depth_normal, depth_nested]
    omega
  have hbrief : (Number.finite true oneAndHalf).Brief := by decide +kernel
  have hreread := hbriefs (Number.finite true oneAndHalf) hbrief
  exact ⟨hwf, ⟨m, hm, hback.text hplain hnumbers m hm false⟩,
    (hvalues (nested 127) (wellFormed_nested 127)).tooDeep hdeep,
    (hvalues (number .nan) trivial).read (Nat.zero_le 127), hbrief, hreread⟩

/-- `1e-45`, whose text is scaled to a neighbour of it. -/
def tiny : Value := number (.ofDecimal false ⟨1, -45⟩)

theorem not_read_jsonText_tiny :
    tiny.WellFormed ∧ tiny.normal.depth ≤ 127 ∧ tiny.jsonText = "1e-45" ∧
    (Value.read tiny.jsonText).toOption.map jsonText = some "1.0000000000000001e-45" ∧
    Value.read tiny.jsonText ≠ .ok tiny.normal := by
  have htext : tiny.jsonText = "1e-45" := by decide +kernel
  have hread : (Value.read tiny.jsonText).toOption.map jsonText = some "1.0000000000000001e-45" := by
    decide +kernel
  refine ⟨trivial, ?_, htext, hread, fun h => ?_⟩
  · rw [depth_normal]
    exact Nat.zero_le 127
  · rw [h] at hread
    have htexts : tiny.normal.jsonText = "1.0000000000000001e-45" := Option.some.inj hread
    rw [jsonText_normal, htext] at htexts
    revert htexts
    decide

end Value

end Markup
