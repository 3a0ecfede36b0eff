import Markup.Proofs.Json.Grammar
import Markup.Proofs.Json.Reread

/-!
# Reading the text of a value back

The text of a value, with whatever may follow it, is read as the normal form of the value with its
numbers reread, unless it nests deeper than there is room: then the reader stops and says so. `ReadsAs`
puts the two outcomes together, and `value_spell` proves it by induction on the value, beside items and
members. The length of the text bounds the steps of the reader.
-/

namespace Markup.Json

open Value (spell spellItems spellEntries separator isSpelling)

variable {fuel room : Nat} {first : Bool} {c : Char} {cs rest : List Char}

/-- What comes of reading back something that nests `depth` deep: what it stands for, and the rest of
the text; or there is no room for it. -/
inductive ReadsAs {α β : Type} (meaning : α → β) (b : β) (depth room : Nat) (rest : List Char) :
    Except Stop (α × List Char) → Prop where
  | ok {a : α} (fits : depth ≤ room) (meaning_eq : meaning a = b) :
    ReadsAs meaning b depth room rest (.ok (a, rest))
  | tooDeep {stop : Stop} (deep : room < depth) (problem_eq : stop.problem = .tooDeep) :
    ReadsAs meaning b depth room rest (.error stop)

/-! ### Steps of the reader -/

theorem value_true : value (fuel + 1) room ("true".toList ++ rest) = .ok (bool true, rest) := by
  show value (fuel + 1) room ('t' :: 'r' :: 'u' :: 'e' :: rest) = _
  rw [value, skipBlank_cons rfl]
  rfl

theorem value_false : value (fuel + 1) room ("false".toList ++ rest) = .ok (bool false, rest) := by
  show value (fuel + 1) room ('f' :: 'a' :: 'l' :: 's' :: 'e' :: rest) = _
  rw [value, skipBlank_cons rfl]
  rfl

theorem value_quote (s : String) :
    value (fuel + 1) room ((quote s).toList ++ rest) = .ok (text s, rest) := by
  rw [toList_quote, List.cons_append, List.append_assoc, List.singleton_append, value,
    skipBlank_cons rfl]
  show (quotedText _ >>= fun p => .ok (text p.1, p.2)) = _
  rw [quotedText_quote]
  rfl

theorem value_array : value (fuel + 1) (room + 1) ('[' :: cs) =
    items fuel room true cs >>= fun p => .ok (array p.1, p.2) := by
  rw [value, skipBlank_cons rfl]
  rfl

theorem value_object : value (fuel + 1) (room + 1) ('{' :: cs) =
    members fuel room true cs >>= fun p => .ok (object p.1, p.2) := by
  rw [value, skipBlank_cons rfl]
  rfl

theorem value_array_tooDeep : value (fuel + 1) 0 ('[' :: cs) = stopOn .tooDeep ('[' :: cs) := by
  rw [value, skipBlank_cons rfl]
  rfl

theorem value_object_tooDeep : value (fuel + 1) 0 ('{' :: cs) = stopOn .tooDeep ('{' :: cs) := by
  rw [value, skipBlank_cons rfl]
  rfl

theorem items_close : items (fuel + 1) room first (']' :: rest) = .ok ([], rest) := by
  rw [items, skipBlank_cons rfl]
  rfl

theorem members_close : members (fuel + 1) room first ('}' :: rest) = .ok ([], rest) := by
  rw [members, skipBlank_cons rfl]
  rfl

/-- One item, and then the others. -/
theorem items_item (hblank : isBlank c = false) (hbracket : c ≠ ']') :
    items (fuel + 1) room first (separator first ++ c :: cs) =
      value fuel room (c :: cs) >>= fun p => items fuel room false p.2 >>= fun q =>
        .ok (p.1 :: q.1, q.2) := by
  cases first with
  | true =>
    rw [separator, if_pos rfl, List.nil_append, items, skipBlank_cons hblank]
    split
    · next heq => cases heq
    · next heq => exact absurd (List.cons.inj heq).1 hbracket
    · rfl
  | false =>
    have hstart : itemStart false (',' :: c :: cs) = .ok (c :: cs) := by
      rw [itemStart, if_neg Bool.false_ne_true, skipBlank_cons hblank]
      split
      · next heq => cases heq
      · next heq => exact absurd (List.cons.inj heq).1 hbracket
      · rfl
    rw [separator, if_neg Bool.false_ne_true, List.singleton_append, items, skipBlank_cons rfl]
    show (itemStart false (',' :: c :: cs) >>= _) = _
    rw [hstart]
    rfl

/-- One member, and then the others. -/
theorem members_member (k : String) :
    members (fuel + 1) room first (separator first ++ ((quote k).toList ++ ':' :: cs)) =
      value fuel room cs >>= fun p => members fuel room false p.2 >>= fun q =>
        .ok ((k, p.1) :: q.1, q.2) := by
  rw [toList_quote, List.cons_append, List.append_assoc, List.singleton_append]
  cases first with
  | true =>
    rw [separator, if_pos rfl, List.nil_append, members, skipBlank_cons rfl]
    show (quotedText _ >>= _) = _
    rw [quotedText_quote]
    rfl
  | false =>
    rw [separator, if_neg Bool.false_ne_true, List.singleton_append, members, skipBlank_cons rfl]
    show (quotedText _ >>= _) = _
    rw [quotedText_quote]
    rfl

/-! ### Outcomes -/

section outcomes

variable {α β γ δ ε ζ : Type} {depth depths : Nat} {tail : List Char}
  {outcome : Except Stop (α × List Char)} {others : List Char → Except Stop (γ × List Char)}

/-- What stands between brackets nests one deeper. -/
theorem ReadsAs.inside {meaning : α → β} {meaning' : γ → δ} {b : β} {b' : δ} {f : α → γ}
    (h : ReadsAs meaning b depth room rest outcome) (hmeaning : ∀ a, meaning a = b → meaning' (f a) = b') :
    ReadsAs meaning' b' (depth + 1) (room + 1) rest (outcome >>= fun p => .ok (f p.1, p.2)) := by
  cases h with
  | ok hfits ha => exact .ok (by omega) (hmeaning _ ha)
  | tooDeep hdeep hproblem => exact .tooDeep (by omega) hproblem

/-- One thing after the other nests as deep as the deeper one. -/
theorem ReadsAs.followed {meaning : α → β} {meanings : γ → δ} {meaning' : ε → ζ} {b : β} {bs : δ}
    {b' : ζ} {f : α → γ → ε} (h : ReadsAs meaning b depth room tail outcome)
    (hs : ReadsAs meanings bs depths room rest (others tail))
    (hmeaning : ∀ a as, meaning a = b → meanings as = bs → meaning' (f a as) = b') :
    ReadsAs meaning' b' (max depth depths) room rest
      (outcome >>= fun p => others p.2 >>= fun q => .ok (f p.1 q.1, q.2)) := by
  cases h with
  | tooDeep hdeep hproblem => exact .tooDeep (by omega) hproblem
  | ok hfits ha =>
    show ReadsAs _ _ _ _ _ (others tail >>= _)
    generalize others tail = outcomes at hs ⊢
    cases hs with
    | tooDeep hdeep hproblem => exact .tooDeep (by omega) hproblem
    | ok hfits' has => exact .ok (by omega) (hmeaning _ _ ha has)

variable {b : Value} {bs : List Value} {es : List (String × Value)}

theorem readsAs_array
    (h : ∀ room, ReadsAs Value.ofJsonItems bs depth room rest (items fuel room true cs)) :
    ReadsAs Value.ofJson (.list bs) (depth + 1) room rest (value (fuel + 1) room ('[' :: cs)) := by
  cases room with
  | zero =>
    rw [value_array_tooDeep]
    exact .tooDeep (Nat.succ_pos depth) rfl
  | succ room =>
    rw [value_array]
    exact (h room).inside fun vs hvs => by rw [Value.ofJson, hvs]

theorem readsAs_object (hnodup : (Entries.keys es).Nodup)
    (h : ∀ room, ReadsAs Value.ofJsonEntries es depth room rest (members fuel room true cs)) :
    ReadsAs Value.ofJson (.map es) (depth + 1) room rest (value (fuel + 1) room ('{' :: cs)) := by
  cases room with
  | zero =>
    rw [value_object_tooDeep]
    exact .tooDeep (Nat.succ_pos depth) rfl
  | succ room =>
    rw [value_object]
    exact (h room).inside fun ms hms => by rw [Value.ofJson, hms, Entries.collect_of_nodup hnodup]

theorem readsAs_item (hblank : isBlank c = false) (hbracket : c ≠ ']')
    (hv : ReadsAs Value.ofJson b depth room tail (value fuel room (c :: cs)))
    (hvs : ReadsAs Value.ofJsonItems bs depths room rest (items fuel room false tail)) :
    ReadsAs Value.ofJsonItems (b :: bs) (max depth depths) room rest
      (items (fuel + 1) room first (separator first ++ c :: cs)) := by
  rw [items_item hblank hbracket]
  exact hv.followed hvs fun j js hj hjs => by rw [Value.ofJsonItems, hj, hjs]

theorem readsAs_member (k : String)
    (hv : ReadsAs Value.ofJson b depth room tail (value fuel room cs))
    (hes : ReadsAs Value.ofJsonEntries es depths room rest (members fuel room false tail)) :
    ReadsAs Value.ofJsonEntries ((k, b) :: es) (max depth depths) room rest
      (members (fuel + 1) room first (separator first ++ ((quote k).toList ++ ':' :: cs))) := by
  rw [members_member]
  exact hv.followed (f := fun j ms => (k, j) :: ms) hes fun j ms hj hms => by
    rw [Value.ofJsonEntries, hj, hms]

end outcomes

/-! ### Values -/

open Value (mapNumbers mapNumbersOfItems mapNumbersOfEntries normalItems normalEntries WellFormed
  WellFormedItems WellFormedEntries depthItems depthEntries)

/-- A value of the grammar begins with a character of its own. -/
theorem exists_head_valueText (h : Grammar.ValueText cs) :
    ∃ c ds, cs = c :: ds ∧ isBlank c = false ∧ c ≠ ']' := by
  cases h with
  | null | true | false | emptyArray _ | array _ | emptyObject _ | object _ =>
    exact ⟨_, _, rfl, rfl, by decide⟩
  | text h =>
    cases h with
    | mk _ => exact ⟨_, _, rfl, rfl, by decide⟩
  | number h =>
    obtain ⟨hsign, ⟨⟨hne, hdigits⟩, -⟩, -, -⟩ := h
    rcases hsign with rfl | rfl
    · obtain ⟨c, ds, rfl⟩ := List.exists_cons_of_ne_nil hne
      have hc := hdigits c List.mem_cons_self
      exact ⟨c, _, rfl, isBlank_of_isDigit hc, isDigit_ne hc rfl⟩
    · exact ⟨_, _, rfl, rfl, by decide⟩

/-- The characters of a number in JSON text. -/
abbrev numberChars (n : Number) : List Char := n.jsonToken.toList

theorem exists_head_spell (v : Value) :
    ∃ c cs, v.spell numberChars = c :: cs ∧ isBlank c = false ∧ c ≠ ']' :=
  exists_head_valueText (Value.valueText_spell Grammar.valueText_jsonToken v)

theorem length_spell_pos (v : Value) : 0 < (v.spell numberChars).length := by
  obtain ⟨c, cs, hcs, -⟩ := exists_head_spell v
  rw [hcs]
  exact Nat.succ_pos cs.length

mutual

/-- The text of a value is read back as the normal form of the value with its numbers reread. -/
theorem value_spell : (v : Value) → v.WellFormed → ∀ fuel room rest,
    (v.spell numberChars).length < fuel → EndsRun isSpelling rest →
    ReadsAs Value.ofJson (v.normal.mapNumbers Number.reread) v.depth room rest
      (value fuel room (v.spell numberChars ++ rest))
  | .null => by
    intro _ fuel room rest hfuel hrest
    obtain ⟨fuel, rfl⟩ := Nat.exists_eq_succ_of_ne_zero (Nat.ne_zero_of_lt hfuel)
    rw [spell, value_null]
    exact .ok (Nat.zero_le room) rfl
  | .bool b => by
    intro _ fuel room rest hfuel hrest
    obtain ⟨fuel, rfl⟩ := Nat.exists_eq_succ_of_ne_zero (Nat.ne_zero_of_lt hfuel)
    rw [spell]
    cases b with
    | true =>
      rw [if_pos rfl, value_true]
      exact .ok (Nat.zero_le room) rfl
    | false =>
      rw [if_neg Bool.false_ne_true, value_false]
      exact .ok (Nat.zero_le room) rfl
  | .number n => by
    intro _ fuel room rest hfuel hrest
    obtain ⟨fuel, rfl⟩ := Nat.exists_eq_succ_of_ne_zero (Nat.ne_zero_of_lt hfuel)
    obtain ⟨j, hread, hvalue⟩ := value_jsonToken n hrest
    rw [spell, hread]
    exact .ok (Nat.zero_le room) hvalue
  | .text s => by
    intro _ fuel room rest hfuel hrest
    obtain ⟨fuel, rfl⟩ := Nat.exists_eq_succ_of_ne_zero (Nat.ne_zero_of_lt hfuel)
    rw [spell, value_quote]
    exact .ok (Nat.zero_le room) rfl
  | .list items => by
    intro hwf fuel room rest hfuel hrest
    obtain ⟨fuel, rfl⟩ := Nat.exists_eq_succ_of_ne_zero (Nat.ne_zero_of_lt hfuel)
    rw [WellFormed] at hwf
    rw [spell] at hfuel ⊢
    rw [Value.normal, mapNumbers, Value.depth, List.cons_append, List.cons_append, List.append_assoc]
    simp only [List.length_cons, List.length_append] at hfuel
    refine readsAs_array fun room => ?_
    exact items_spell items hwf true fuel room rest (by omega)
  | .map entries => by
    intro hwf fuel room rest hfuel hrest
    obtain ⟨fuel, rfl⟩ := Nat.exists_eq_succ_of_ne_zero (Nat.ne_zero_of_lt hfuel)
    rw [WellFormed] at hwf
    rw [spell] at hfuel ⊢
    rw [Value.normal, mapNumbers, Value.depth, List.cons_append, List.cons_append, List.append_assoc]
    simp only [List.length_cons, List.length_append] at hfuel
    have hnodup : (Entries.keys (mapNumbersOfEntries Number.reread (normalEntries entries))).Nodup := by
      rw [Value.keys_mapNumbersOfEntries, Value.keys_normalEntries]
      exact hwf.1
    refine readsAs_object hnodup fun room => ?_
    exact members_spell entries hwf.2 true fuel room rest (by omega)
  | .object _ v => by
    intro hwf fuel room rest hfuel hrest
    rw [WellFormed] at hwf
    rw [spell] at hfuel ⊢
    rw [Value.normal, Value.depth]
    exact value_spell v hwf fuel room rest hfuel hrest

theorem items_spell : (vs : List Value) → WellFormedItems vs → ∀ first fuel room rest,
    (spellItems numberChars first vs).length + 1 < fuel →
    ReadsAs Value.ofJsonItems (mapNumbersOfItems Number.reread (normalItems vs)) (depthItems vs) room
      rest (items fuel room first (spellItems numberChars first vs ++ ']' :: rest))
  | [] => by
    intro _ first fuel room rest hfuel
    obtain ⟨fuel, rfl⟩ := Nat.exists_eq_succ_of_ne_zero (Nat.ne_zero_of_lt hfuel)
    rw [spellItems, List.nil_append, items_close]
    exact .ok (Nat.zero_le room) rfl
  | v :: vs => by
    intro hwf first fuel room rest hfuel
    obtain ⟨fuel, rfl⟩ := Nat.exists_eq_succ_of_ne_zero (Nat.ne_zero_of_lt hfuel)
    obtain ⟨c, cs, hcs, hblank, hbracket⟩ := exists_head_spell v
    have hpos := length_spell_pos v
    rw [WellFormedItems] at hwf
    rw [spellItems] at hfuel ⊢
    simp only [List.length_append] at hfuel
    have hv := value_spell v hwf.1 fuel room (spellItems numberChars false vs ++ ']' :: rest) (by omega)
      (Value.endsRun_spellItems vs (Value.endsRun_bracket rest))
    have hvs := items_spell vs hwf.2 false fuel room rest (by omega)
    rw [hcs] at hv ⊢
    rw [normalItems, mapNumbersOfItems, depthItems, List.append_assoc, List.append_assoc]
    exact readsAs_item hblank hbracket hv hvs

theorem members_spell : (es : List (String × Value)) → WellFormedEntries es → ∀ first fuel room rest,
    (spellEntries numberChars first es).length + 1 < fuel →
    ReadsAs Value.ofJsonEntries (mapNumbersOfEntries Number.reread (normalEntries es))
      (depthEntries es) room rest
      (members fuel room first (spellEntries numberChars first es ++ '}' :: rest))
  | [] => by
    intro _ first fuel room rest hfuel
    obtain ⟨fuel, rfl⟩ := Nat.exists_eq_succ_of_ne_zero (Nat.ne_zero_of_lt hfuel)
    rw [spellEntries, List.nil_append, members_close]
    exact .ok (Nat.zero_le room) rfl
  | (k, v) :: es => by
    intro hwf first fuel room rest hfuel
    obtain ⟨fuel, rfl⟩ := Nat.exists_eq_succ_of_ne_zero (Nat.ne_zero_of_lt hfuel)
    rw [WellFormedEntries] at hwf
    rw [spellEntries] at hfuel ⊢
    simp only [List.length_append, List.length_cons] at hfuel
    have hv := value_spell v hwf.1 fuel room (spellEntries numberChars false es ++ '}' :: rest)
      (by omega) (Value.endsRun_spellEntries es (Value.endsRun_brace rest))
    have hes := members_spell es hwf.2 false fuel room rest (by omega)
    rw [normalEntries, mapNumbersOfEntries, depthEntries, List.append_assoc, List.append_assoc,
      List.cons_append, List.append_assoc]
    exact readsAs_member k hv hes

end

end Markup.Json
