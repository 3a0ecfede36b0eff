import Markup.Proofs.Toml.Keys
import Markup.Proofs.Toml.Scalars

/-!
# Values are read by the grammar

The scans for arrays and tables in braces against their productions, from what is known of their
items, and from that the scan for values by induction on how deep they may nest (`reads_value`). An item
is known by two things here: a value begins with a character that no gap and no closing mark begins
with (`IsValueStart`), and takes something.
-/

namespace Markup.Toml

open Grammar Scan

variable {α : Type} {s s₁ s₂ s₃ s₄ s' : Cursor} {c : Char} {u : Unit} {item : Item}

/-! ### First characters -/

/-- A character that a value may begin with. -/
def IsValueStart (c : Char) : Prop := IsMark c ∨ IsNumberStart c ∨ c ∈ ['t', 'f', '[', '\x7b']

instance : DecidablePred IsValueStart := fun _ => inferInstanceAs (Decidable (_ ∨ _))

theorem Grammar.Scalar.head? {limits : Limits} (h : Scalar limits s item s') :
    ∃ c, s.rest.head? = some c ∧ IsValueStart c ∧ c ≠ '[' ∧ c ≠ '\x7b' := by
  have hnumber (h : ∃ c, s.rest.head? = some c ∧ IsNumberStart c) :
      ∃ c, s.rest.head? = some c ∧ IsValueStart c ∧ c ≠ '[' ∧ c ≠ '\x7b' := by
    obtain ⟨c, hc, hstart⟩ := h
    refine ⟨c, hc, .inr (.inl hstart), ?_, ?_⟩ <;> rintro rfl <;> exact absurd hstart (by decide)
  cases h with
  | text text => rcases text.head? with h | h <;> exact ⟨_, h, by decide⟩
  | integer integer _ => exact hnumber integer.head?
  | decimal decimal _ => exact hnumber decimal.head?
  | special special => exact hnumber special.head?
  | yes word => exact ⟨_, word.head?, by decide⟩
  | no word => exact ⟨_, word.head?, by decide⟩
  | dateTime dateTime =>
    obtain ⟨c, hc, hdigit⟩ := dateTime.head?
    exact hnumber ⟨c, hc, .inl hdigit⟩

theorem Grammar.ValueWithin.head? {limits : Limits} {depth : Nat}
    (h : ValueWithin limits depth s item s') : ∃ c, s.rest.head? = some c ∧ IsValueStart c := by
  have hscalar (h : Scalar limits s item s') : ∃ c, s.rest.head? = some c ∧ IsValueStart c := by
    obtain ⟨c, hc, hstart, -⟩ := h.head?
    exact ⟨c, hc, hstart⟩
  cases depth with
  | zero => exact hscalar h
  | succ depth =>
    rcases h with scalar | bracketed | braced
    · exact hscalar scalar
    · cases bracketed with
      | empty opened | items opened => exact ⟨_, opened.head?, by decide⟩
    · cases braced with
      | empty opened | entries opened => exact ⟨_, opened.head?, by decide⟩

theorem not_isGap_of_isValueStart (h : IsValueStart c) : ¬ IsGap c := by
  rintro ((rfl | rfl) | rfl | rfl | rfl) <;> exact absurd h (by decide)

/-! ### What is around a value -/

theorem Grammar.Gaps.trans {u u' : Unit} (h : Gaps s u s₁) (h' : Gaps s₁ u' s') : Gaps s () s' := by
  induction h with
  | nil => exact h'
  | blank first _ ih => exact .blank first (ih h')
  | lineEnd comment newline _ ih => exact .lineEnd comment newline (ih h')

theorem Grammar.Blanks.trans {u u' : Unit} (h : Blanks s u s₁) (h' : Blanks s₁ u' s') :
    Blanks s () s' := by
  obtain ⟨cs, h⟩ := h
  obtain ⟨ds, h'⟩ := h'
  exact ⟨_, h.append h'⟩

/-- One or more of what may be followed by something that belongs to it. -/
theorem Grammar.Separated.extend {G : Production α} {mark : Char} {as : List α}
    (h : Separated mark G s as s₁) (hG : ∀ {s a}, G s a s₁ → G s a s') : Separated mark G s as s' := by
  induction h with
  | one only => exact .one (hG only)
  | more first between _ ih => exact .more first between (ih hG)

/-- A value may end in front of a gap and something that closes it. -/
theorem closes_of_gaps (h : Gaps s u s') (hc : s'.rest.head? = some c) (hclose : IsClose c) :
    Closes s := by
  obtain ⟨lines, s₁, hlines, hblanks⟩ := gaps_iff.mp h
  cases hlines with
  | nil =>
    refine ⟨s', hblanks, fun d hd => ?_⟩
    exact Option.some.inj (hc.symm.trans hd) ▸ hclose
  | cons hline _ =>
    obtain ⟨s₂, s₃, found, hblanks', hfound, hnewline⟩ := hline
    refine ⟨s₂, hblanks', fun d hd => ?_⟩
    cases hfound with
    | none =>
      rcases hnewline.head? with h | h <;> rw [← Option.some.inj (h.symm.trans hd)] <;> decide
    | some hcomment =>
      rw [← Option.some.inj (hcomment.head?.symm.trans hd)]
      decide

theorem closes_of_blanks (h : Blanks s u s') (hc : s'.rest.head? = some c) (hclose : IsClose c) :
    Closes s :=
  ⟨s', h, fun _ hd => Option.some.inj (hc.symm.trans hd) ▸ hclose⟩

/-! ### Arrays -/

/-- A place where an item of an array ends. -/
def EndsItem (s : Cursor) : Prop := s.rest.head? = some ',' ∨ s.rest.head? = some ']'

theorem EndsItem.ends {kind : Char → Prop} (h : EndsItem s) (hcomma : ¬ kind ',')
    (hclosed : ¬ kind ']') : Ends kind s := by
  rcases h with h | h
  · exact ends_of_head? h hcomma
  · exact ends_of_head? h hclosed

section

variable {scan : Scan Item} {G : Production Item}

/-- The scan reads values by the production. -/
structure ReadsValues (scan : Scan Item) (G : Production Item) : Prop where
  reads : Reads scan G Closes
  start : ∀ {s item s'}, G s item s' → ∃ c, s.rest.head? = some c ∧ IsValueStart c
  consumes : Consumes G

/-- What is read between two commas of an array. -/
def spaced (scan : Scan Item) : Scan Item := do
  gaps
  let v ← scan
  gaps
  return v

theorem reads_spaced (h : ReadsValues scan G) : Reads (spaced scan) (Spaced G) EndsItem := by
  refine ⟨fun {s item s'} hs => ?_, fun {s item s'} hG hends => ?_⟩
  · simp only [spaced, bind_eq_some_iff, pure_eq_some_iff] at hs
    obtain ⟨_, s₁, hbefore, _, s₂, hvalue, _, _, hafter, rfl, rfl⟩ := hs
    exact .intro (reads_gaps.sound hbefore) (h.reads.sound hvalue) (reads_gaps.sound hafter)
  · cases hG with
    | @intro _ s₁ s₂ _ _ before value after =>
      have hbefore : Ends IsGap s₁ := by
        obtain ⟨c, hc, hstart⟩ := h.start value
        exact ends_of_head? hc (not_isGap_of_isValueStart hstart)
      have hcloses : Closes s₂ := by
        rcases hends with hc | hc <;> exact closes_of_gaps after hc (by decide)
      have hafter : Ends IsGap s' := hends.ends (by decide) (by decide)
      simp only [spaced, bind_eq_some_iff, pure_eq_some_iff]
      exact ⟨(), s₁, reads_gaps.complete before hbefore, item, s₂, h.reads.complete value hcloses, (),
        s', reads_gaps.complete after hafter, rfl, rfl⟩

/-- Nothing is read in front of a gap and the end of an array. -/
theorem spaced_eq_none (h : ReadsValues scan G) (hgaps : Gaps s () s')
    (hc : s'.rest.head? = some ']') : spaced scan s = none := by
  refine (reads_spaced h).eq_none fun item s'' hspaced => ?_
  cases hspaced with
  | intro before value _ =>
    obtain ⟨d, hd, hstart⟩ := h.start value
    obtain ⟨-, rfl⟩ := reads_gaps.unique hgaps before (ends_of_head? hc (by decide))
      (ends_of_head? hd (not_isGap_of_isValueStart hstart))
    rw [← Option.some.inj (hc.symm.trans hd)] at hstart
    exact absurd hstart (by decide)

theorem Grammar.Gaps.length_le (h : Gaps s u s') : s'.rest.length ≤ s.rest.length := by
  obtain ⟨lines, s₁, hlines, hblanks⟩ := gaps_iff.mp h
  have := hlines.length_le consumes_blankLine
  have := hblanks.length_le
  omega

theorem consumes_spaced (hG : Consumes G) : Consumes (Spaced G) := by
  intro s item s' h
  cases h with
  | intro before value after =>
    have := before.length_le
    have := hG value
    have := after.length_le
    omega

/-- The items of an array, with the brackets around them. -/
def bracketed (scan : Scan Item) : Scan (List Item) := do
  exactly ['[']
  let items ← separated (exactly [',']) (spaced scan) <|> pure []
  let _ ← orNone (do require (items.length ≠ 0); exactly [','])
  gaps
  exactly [']']
  return items

theorem exact_trailing (items : List Item) :
    Exact (do require (items.length ≠ 0); exactly [','])
      fun s _ s' => items ≠ [] ∧ Word [','] s () s' := by
  refine exact_of_iff fun s _ s' => ?_
  simp only [bind_eq_some_iff, require_eq_some_iff, exactly_eq_some_iff, decide_eq_true_eq,
    ne_eq, List.length_eq_zero_iff]
  constructor
  · rintro ⟨_, _, ⟨hne, rfl⟩, hword⟩
    exact ⟨hne, hword⟩
  · rintro ⟨hne, hword⟩
    exact ⟨(), s, ⟨hne, rfl⟩, hword⟩

theorem reads_items (h : ReadsValues scan G) :
    Reads (separated (exactly [',']) (spaced scan)) (Separated ',' (Spaced G))
      fun s => EndsItem s ∧ (do let _ ← exactly [',']; spaced scan) s = none :=
  (reads_spaced h).separated (consumes_spaced h.consumes) fun hword => .inl hword.head?

theorem bracketed_of_empty (h : ReadsValues scan G) (opened : Word ['['] s () s₁)
    (gaps : Gaps s₁ () s₂) (closed : Word [']'] s₂ () s') : bracketed scan s = some ([], s') := by
  have hnone := spaced_eq_none h gaps closed.head?
  have hends : Ends IsGap s₂ := ends_of_head? closed.head? (by decide)
  have hno : (do require (([] : List Item).length ≠ 0); exactly [',']) s₁ = none :=
    (exact_trailing []).eq_none fun _ _ h => h.1 rfl
  simp only [bracketed, bind_eq_some_iff, orElse_eq_some_iff, pure_eq_some_iff, exactly_eq_some_iff]
  exact ⟨(), s₁, opened, [], s₁, .inr ⟨separated_of_none hnone, rfl, rfl⟩, none, s₁,
    orNone_eq_some_iff.mpr (.inr ⟨rfl, hno, rfl⟩), (), s₂, reads_gaps.complete gaps hends, (), s',
    closed, rfl, rfl⟩

theorem bracketed_of_items (h : ReadsValues scan G) {items : List Item}
    (opened : Word ['['] s () s₁) (each : Separated ',' (Spaced G) s₁ items s₂)
    (gaps : Gaps s₂ () s₃) (closed : Word [']'] s₃ () s') :
    bracketed scan s = some (items, s') := by
  have hends : Ends IsGap s₃ := ends_of_head? closed.head? (by decide)
  -- the gap before the closing bracket is read with the last item
  have hall : Separated ',' (Spaced G) s₁ items s₃ := each.extend fun hspaced => by
    cases hspaced with
    | intro before value after => exact .intro before value (after.trans gaps)
  have hcomma (u : Unit) (s'' : Cursor) : ¬ Word [','] s₃ u s'' := fun hword => by
    simpa using hword.head?.symm.trans closed.head?
  have hmore : (do let _ ← exactly [',']; spaced scan) s₃ = none :=
    bind_of_none ((exact_word _).eq_none hcomma)
  have hno : (do require (items.length ≠ 0); exactly [',']) s₃ = none :=
    (exact_trailing items).eq_none fun _ _ h => hcomma () _ h.2
  simp only [bracketed, bind_eq_some_iff, orElse_eq_some_iff, pure_eq_some_iff, exactly_eq_some_iff]
  exact ⟨(), s₁, opened, items, s₃,
    .inl ((reads_items h).complete hall ⟨.inr closed.head?, hmore⟩), none, s₃,
    orNone_eq_some_iff.mpr (.inr ⟨rfl, hno, rfl⟩), (), s₃, reads_gaps.complete .nil hends, (), s',
    closed, rfl, rfl⟩

theorem bracketed_of_trailing (h : ReadsValues scan G) {items : List Item}
    (opened : Word ['['] s () s₁) (each : Separated ',' (Spaced G) s₁ items s₂)
    (comma : Word [','] s₂ () s₃) (gaps : Gaps s₃ () s₄) (closed : Word [']'] s₄ () s') :
    bracketed scan s = some (items, s') := by
  have hends : Ends IsGap s₄ := ends_of_head? closed.head? (by decide)
  have hmore : (do let _ ← exactly [',']; spaced scan) s₂ = none :=
    bind_eq_none fun _ s₅ hword => by
      cases comma.unique (exactly_eq_some_iff.mp hword)
      exact spaced_eq_none h gaps closed.head?
  have hne : items ≠ [] := by
    obtain ⟨_, _, _, rfl, -⟩ := each.exists_many
    exact List.cons_ne_nil _ _
  have hyes : (do require (items.length ≠ 0); exactly [',']) s₂ = some ((), s₃) :=
    (exact_trailing items).iff.mpr ⟨hne, comma⟩
  simp only [bracketed, bind_eq_some_iff, orElse_eq_some_iff, pure_eq_some_iff, exactly_eq_some_iff]
  exact ⟨(), s₁, opened, items, s₂, .inl ((reads_items h).complete each ⟨.inl comma.head?, hmore⟩),
    some (), s₃, orNone_eq_some_iff.mpr (.inl ⟨_, rfl, hyes⟩), (), s₄,
    reads_gaps.complete gaps hends, (), s', closed, rfl, rfl⟩

theorem exact_bracketed (h : ReadsValues scan G) : Exact (bracketed scan) (Bracketed G) := by
  refine ⟨fun {s items s'} hs => ?_, fun {s items s'} hG _ => ?_⟩
  · simp only [bracketed, bind_eq_some_iff, orElse_eq_some_iff, pure_eq_some_iff,
      exactly_eq_some_iff] at hs
    obtain ⟨_, s₁, hopened, items, s₂, hfound, comma, s₃, hcomma, _, s₄, hgaps, _, _, hclosed, rfl,
      rfl⟩ := hs
    have hgaps := reads_gaps.sound hgaps
    have htrailing := (exact_trailing items).orNone.sound hcomma
    rcases hfound with hfound | ⟨-, rfl, rfl⟩
    · have hmaybe : Maybe (Word [',']) s₂ comma s₃ := by
        cases htrailing with
        | none => exact .none
        | some only => exact .some only.2
      exact .items hopened ((reads_items h).sound hfound) hmaybe hgaps hclosed
    · cases htrailing with
      | none => exact .empty hopened hgaps hclosed
      | some only => exact absurd rfl only.1
  · cases hG with
    | empty opened gaps closed => exact bracketed_of_empty h opened gaps closed
    | items opened each trailing gaps closed =>
      cases trailing with
      | none => exact bracketed_of_items h opened each gaps closed
      | some comma => exact bracketed_of_trailing h opened each comma gaps closed

/-! ### Tables in braces -/

/-- A place where an entry of a table in braces ends. -/
def EndsEntry (s : Cursor) : Prop := s.rest.head? = some ',' ∨ s.rest.head? = some '\x7d'

theorem reads_entry (h : ReadsValues scan G) :
    Reads (entry scan) (Entry .ofReader G) EndsEntry := by
  refine ⟨fun {s e s'} hs => ?_, fun {s e s'} hG hends => ?_⟩
  · simp only [entry, bind_eq_some_iff, exactly_eq_some_iff, pure_eq_some_iff] at hs
    obtain ⟨⟨path, k⟩, s₁, hkey, _, s₂, hequals, _, s₃, hbefore, v, s₄, hvalue, _, _, hafter, rfl,
      rfl⟩ := hs
    exact .intro (reads_key.sound hkey) hequals (reads_blanks.sound hbefore) (h.reads.sound hvalue)
      (reads_blanks.sound hafter)
  · cases hG with
    | @intro _ s₁ s₂ s₃ s₄ _ path k v dotted equals before value after =>
      have hkey : Ends (fun c => IsKeyChar c ∨ c = '.') s₁ := ends_of_head? equals.head? (by decide)
      have hbefore : Ends IsBlank s₃ := by
        obtain ⟨c, hc, hstart⟩ := h.start value
        exact ends_of_head? hc fun hblank => not_isGap_of_isValueStart hstart (.inl hblank)
      have hcloses : Closes s₄ := by
        rcases hends with hc | hc <;> exact closes_of_blanks after hc (by decide)
      have hafter : Ends IsBlank s' := by
        rcases hends with hc | hc <;> exact ends_of_head? hc (by decide)
      simp only [entry, bind_eq_some_iff, exactly_eq_some_iff, pure_eq_some_iff]
      exact ⟨(path, k), s₁, reads_key.complete dotted hkey, (), s₂, equals, (), s₃,
        reads_blanks.complete before hbefore, v, s₄, h.reads.complete value hcloses, (), s',
        reads_blanks.complete after hafter, rfl, rfl⟩

theorem consumes_entry (limits : Limits) (hG : Consumes G) : Consumes (Entry limits G) := by
  intro s e s' h
  cases h with
  | intro dotted equals before value after =>
    have := consumes_dottedKey limits dotted
    have := equals.length_lt
    have := before.length_le
    have := hG value
    have := after.length_le
    omega

/-- Nothing is read in front of blanks and the end of a table in braces. -/
theorem entry_eq_none (h : ReadsValues scan G) (hblanks : Blanks s () s')
    (hc : s'.rest.head? = some '\x7d') : entry scan s = none := by
  refine (reads_entry h).eq_none fun e s'' hentry => ?_
  cases hentry with
  | intro dotted _ _ _ _ =>
    cases dotted with
    | intro parts _ =>
      obtain ⟨_, _, _, -, hfirst, -⟩ := parts.exists_many
      cases hfirst with
      | intro before key _ =>
        obtain ⟨d, hd, hstart⟩ := key.head?
        cases hblanks.unique before (ends_of_head? hc (by decide))
          (ends_of_head? hd (not_isBlank_of_isKeyStart hstart))
        rw [← Option.some.inj (hc.symm.trans hd)] at hstart
        exact absurd hstart (by decide)

/-- The entries of a table, with the braces around them. -/
def braced (scan : Scan Item) : Scan (List (List Key × Key × Item)) := do
  exactly ['\x7b']
  let entries ← separated (exactly [',']) (entry scan) <|> pure []
  blanks
  exactly ['\x7d']
  return entries

theorem exact_braced (h : ReadsValues scan G) : Exact (braced scan) (Braced .ofReader G) := by
  have hentries := (reads_entry h).separated (consumes_entry _ h.consumes)
    fun hword => .inl hword.head?
  refine ⟨fun {s entries s'} hs => ?_, fun {s entries s'} hG _ => ?_⟩
  · simp only [braced, bind_eq_some_iff, orElse_eq_some_iff, pure_eq_some_iff,
      exactly_eq_some_iff] at hs
    obtain ⟨_, s₁, hopened, entries, s₂, hfound, _, s₃, hblanks, _, _, hclosed, rfl, rfl⟩ := hs
    have hblanks := reads_blanks.sound hblanks
    rcases hfound with hfound | ⟨-, rfl, rfl⟩
    · exact .entries hopened (hentries.sound hfound) hblanks hclosed
    · exact .empty hopened hblanks hclosed
  · simp only [braced, bind_eq_some_iff, orElse_eq_some_iff, pure_eq_some_iff, exactly_eq_some_iff]
    cases hG with
    | @empty _ s₁ s₂ _ opened blanks closed =>
      have hnone : separated (exactly [',']) (entry scan) s₁ = none :=
        separated_of_none (entry_eq_none h blanks closed.head?)
      have hends : Ends IsBlank s₂ := ends_of_head? closed.head? (by decide)
      exact ⟨(), s₁, opened, [], s₁, .inr ⟨hnone, rfl, rfl⟩, (), s₂, reads_blanks.complete blanks hends,
        (), s', closed, rfl, rfl⟩
    | @entries _ s₁ s₂ s₃ _ _ opened each blanks closed =>
      have hends : Ends IsBlank s₃ := ends_of_head? closed.head? (by decide)
      -- the blanks before the closing brace are read with the last entry
      have hall : Separated ',' (Entry .ofReader G) s₁ entries s₃ := each.extend fun hentry => by
        cases hentry with
        | intro dotted equals before value after =>
          exact .intro dotted equals before value (after.trans blanks)
      have hmore : (do let _ ← exactly [',']; entry scan) s₃ = none :=
        bind_of_none ((exact_word _).eq_none fun _ _ hword => by
          simpa using hword.head?.symm.trans closed.head?)
      exact ⟨(), s₁, opened, entries, s₃, .inl (hentries.complete hall ⟨.inr closed.head?, hmore⟩), (),
        s₃, reads_blanks.complete ⟨[], .nil⟩ hends, (), s', closed, rfl, rfl⟩

/-! ### Values -/

theorem exact_array (h : ReadsValues scan G) :
    Exact (array scan) fun s item s' =>
      ∃ items, Bracketed G s items s' ∧ item = .array (s.to s') items :=
  (exact_bracketed h).located

theorem exact_bracedTable (h : ReadsValues scan G) :
    Exact (bracedTable scan) fun s item s' => ∃ entries t, Braced .ofReader G s entries s' ∧
      entries.foldlM (fun t (path, k, v) => Table.assign? path k v t) [] = some t ∧
      item = .table (.braces (s.to s')) t := by
  have hdef : bracedTable scan = (do
      let found ← located (braced scan)
      let build := found.2.foldlM (fun t (path, k, v) => Table.assign? path k v t) ([] : Table)
      build.elim failure fun t => return .table (.braces found.1) t) := by
    refine congrArg (located (braced scan) >>= ·) (funext fun found => ?_)
    dsimp only
    cases found.2.foldlM (fun t (path, k, v) => Table.assign? path k v t) ([] : Table) <;> rfl
  refine exact_of_iff fun s item s' => ?_
  simp only [hdef, bind_eq_some_iff, located_eq_some_iff, (exact_braced h).iff]
  constructor
  · rintro ⟨⟨span, entries⟩, s₁, ⟨hbraced, rfl⟩, hs⟩
    cases hbuild : entries.foldlM (fun t (path, k, v) => Table.assign? path k v t) ([] : Table) with
    | none =>
      simp only [hbuild, Option.elim_none] at hs
      exact absurd hs not_failure
    | some t =>
      simp only [hbuild, Option.elim_some] at hs
      obtain ⟨rfl, rfl⟩ := pure_eq_some_iff.mp hs
      exact ⟨entries, t, hbraced, hbuild, rfl⟩
  · rintro ⟨entries, t, hbraced, hbuild, rfl⟩
    refine ⟨(s.to s', entries), s', ⟨hbraced, rfl⟩, ?_⟩
    simp only [hbuild, Option.elim_some]
    exact pure_eq_some_iff.mpr ⟨rfl, rfl⟩

theorem Grammar.Bracketed.head? {items : List Item} (h : Bracketed G s items s') :
    s.rest.head? = some '[' := by
  cases h with
  | empty opened | items opened => exact opened.head?

theorem Grammar.Braced.head? {limits : Limits} {entries : List (List Key × Key × Item)}
    (h : Braced limits G s entries s') : s.rest.head? = some '\x7b' := by
  cases h with
  | empty opened | entries opened => exact opened.head?

theorem reads_nested (h : ReadsValues scan G) :
    Reads (scalar <|> array scan <|> bracedTable scan) (Nested .ofReader G) Closes := by
  have harray := (exact_array h).reads Closes
  have htable := (exact_bracedTable h).reads Closes
  have hothers := harray.orElse htable fun ⟨_, hbracketed, _⟩ ⟨_, _, hbraced, _⟩ _ => by
    simpa using hbracketed.head?.symm.trans hbraced.head?
  refine (reads_scalar.orElse hothers fun hscalar hother _ => ?_).congr fun s item s' => ?_
  · obtain ⟨c, hc, -, hbracket, hbrace⟩ := hscalar.head?
    rcases hother with ⟨_, h, -⟩ | ⟨_, _, h, -⟩
    · exact hbracket (Option.some.inj (hc.symm.trans h.head?))
    · exact hbrace (Option.some.inj (hc.symm.trans h.head?))
  · constructor
    · rintro (hscalar | ⟨items, hbracketed, rfl⟩ | ⟨entries, t, hbraced, hbuild, rfl⟩)
      · exact .scalar hscalar
      · exact .array hbracketed
      · exact .table hbraced hbuild
    · intro hnested
      cases hnested with
      | scalar scalar => exact .inl scalar
      | array bracketed => exact .inr (.inl ⟨_, bracketed, rfl⟩)
      | table braced build => exact .inr (.inr ⟨_, _, braced, build, rfl⟩)

theorem consumes_scalar (limits : Limits) : Consumes (Scalar limits) := by
  intro s item s' h
  cases h with
  | text text => exact consumes_anyText text
  | integer integer _ => exact consumes_integer integer
  | decimal decimal _ => exact consumes_decimalFloat decimal
  | special special => exact consumes_specialFloat special
  | yes word | no word => exact word.length_lt
  | dateTime dateTime => exact consumes_dateTime dateTime

theorem consumes_nested (limits : Limits) (hG : Consumes G) : Consumes (Nested limits G) := by
  intro s item s' h
  cases h with
  | scalar scalar => exact consumes_scalar limits scalar
  | array bracketed =>
    cases bracketed with
    | empty opened gaps closed =>
      have := opened.length_lt
      have := gaps.length_le
      have := closed.length_lt
      omega
    | items opened each trailing gaps closed =>
      have := opened.length_lt
      have := each.length_lt (consumes_spaced hG)
      have := trailing.length_le fun hword => hword.length_lt
      have := gaps.length_le
      have := closed.length_lt
      omega
  | table braced _ =>
    cases braced with
    | empty opened blanks closed =>
      have := opened.length_lt
      have := blanks.length_le
      have := closed.length_lt
      omega
    | entries opened each blanks closed =>
      have := opened.length_lt
      have := each.length_lt (consumes_entry limits hG)
      have := blanks.length_le
      have := closed.length_lt
      omega

end

theorem consumes_valueWithin (limits : Limits) (depth : Nat) :
    Consumes (ValueWithin limits depth) := by
  induction depth with
  | zero => exact consumes_scalar limits
  | succ depth ih => exact consumes_nested limits ih

/-- A value is read by the grammar as deep as there is room. -/
theorem reads_value (room : Nat) : Reads (value room) (ValueWithin .ofReader room) Closes := by
  induction room with
  | zero => exact reads_scalar
  | succ room ih => exact reads_nested ⟨ih, ValueWithin.head?, consumes_valueWithin _ room⟩

end Markup.Toml
