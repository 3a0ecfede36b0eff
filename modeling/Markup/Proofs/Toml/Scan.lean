import Markup.Proofs.Toml.Grammar

/-!
# Scans against productions

`Scan.Reads scan G Stop`: what the scan finds the production `G` allows, and what `G` allows from one
place to another the scan finds, if it comes to a `Stop`. A scan takes as much as it can, so a stop is a
place where it cannot take more; a scan with an end of its own stops anywhere and is `Exact`. Scans are
put together by the equations of this module (`bind_eq_some_iff`, `orElse_eq_some_iff` and so on), and
repeated by `Reads.many`. The alternatives of a choice are told apart by the first character.
-/

namespace Markup.Toml

open Grammar

variable {α β : Type} {s s₁ s' : Cursor} {a : α} {G : Production α} {c : Char} {cs : List Char}

/-- A check of a few characters, for which no other characters are looked at. -/
theorem forall_mem_of_all {P : Char → Prop} [DecidablePred P] {cs : List Char}
    (h : cs.all (P ·) = true) : ∀ c ∈ cs, P c := by
  simpa using h

/-! ### Words and repetitions -/

namespace Grammar

theorem Word.head? (h : Word (c :: cs) s () s') : s.rest.head? = some c := by
  rw [h.1]
  rfl

theorem Single.head? {kind : Char → Prop} (h : Single kind s c s') : s.rest.head? = some c := h.2.head?

theorem word_nil_iff : Word [] s () s' ↔ s' = s := by
  obtain ⟨offset, rest⟩ := s
  obtain ⟨offset', rest'⟩ := s'
  simp only [Word, Text.byteSize, List.nil_append, Nat.add_zero, Cursor.mk.injEq]
  exact ⟨fun h => ⟨h.2, h.1.symm⟩, fun h => ⟨h.2.symm, h.1⟩⟩

theorem word_cons_iff :
    Word (c :: cs) s () s' ↔ ∃ s₁, Word [c] s () s₁ ∧ Word cs s₁ () s' := by
  simp only [Word, Text.byteSize, Nat.add_zero, List.cons_append, List.nil_append]
  constructor
  · rintro ⟨hrest, hoffset⟩
    exact ⟨⟨s.offset + c.utf8Size, cs ++ s'.rest⟩, ⟨hrest, rfl⟩, rfl, by rw [hoffset, Nat.add_assoc]⟩
  · rintro ⟨s₁, ⟨hrest, hoffset⟩, hrest', hoffset'⟩
    rw [hrest, hrest', hoffset', hoffset, Nat.add_assoc]
    exact ⟨rfl, rfl⟩

theorem word_append_iff {ds : List Char} :
    Word (cs ++ ds) s () s' ↔ ∃ s₁, Word cs s () s₁ ∧ Word ds s₁ () s' := by
  induction cs generalizing s with
  | nil => simp [word_nil_iff]
  | cons c cs ih =>
    rw [List.cons_append, word_cons_iff]
    constructor
    · rintro ⟨s₁, hc, hothers⟩
      obtain ⟨s₂, hcs, hds⟩ := ih.mp hothers
      exact ⟨s₂, word_cons_iff.mpr ⟨s₁, hc, hcs⟩, hds⟩
    · rintro ⟨s₂, hcs, hds⟩
      obtain ⟨s₁, hc, hcs⟩ := word_cons_iff.mp hcs
      exact ⟨s₁, hc, ih.mpr ⟨s₂, hcs, hds⟩⟩

theorem Word.length (h : Word cs s () s') : s.rest.length = cs.length + s'.rest.length := by
  rw [h.1, List.length_append]

theorem Word.length_lt (h : Word (c :: cs) s () s') : s'.rest.length < s.rest.length := by
  rw [h.length, List.length_cons]
  omega

/-- Where a word ends is settled by where it begins. -/
theorem Word.unique {s'' : Cursor} (h : Word cs s () s') (h' : Word cs s () s'') : s' = s'' := by
  have hrest := List.append_cancel_left (h.1.symm.trans h'.1)
  have hoffset := h.2.trans h'.2.symm
  cases s'
  cases s''
  cases hrest
  cases hoffset
  rfl

/-- Every reading takes something. -/
def Consumes (G : Production α) : Prop :=
  ∀ {s a s'}, G s a s' → s'.rest.length < s.rest.length

theorem consumes_single (kind : Char → Prop) : Consumes (Single kind) := by
  intro s c s' h
  rw [h.2.length]
  simp

namespace Many

theorem append {s₂ : Cursor} {as as' : List α} (h : Many G s as s₁) (h' : Many G s₁ as' s₂) :
    Many G s (as ++ as') s₂ := by
  induction h with
  | nil => exact h'
  | cons first _ ih => exact .cons first (ih h')

theorem length_le (hG : Consumes G) {as : List α} (h : Many G s as s') :
    as.length + s'.rest.length ≤ s.rest.length := by
  induction h with
  | nil => simp
  | cons first _ ih =>
    have := hG first
    rw [List.length_cons]
    omega

/-- Where each part begins, and the end too, a repetition begins. -/
theorem start {P : Cursor → Prop} {as : List α} (h : Many G s as s') (hend : P s')
    (hstart : ∀ {s a s'}, G s a s' → P s) : P s := by
  cases h with
  | nil => exact hend
  | cons first _ => exact hstart first

/-- What is not empty begins as its first part does. -/
theorem exists_first {as : List α} (h : Many G s as s') (hne : as ≠ []) :
    ∃ a s₁, G s a s₁ := by
  cases h with
  | nil => exact absurd rfl hne
  | cons first _ => exact ⟨_, _, first⟩

end Many

/-- One or more is a first, and others after a mark each. -/
theorem Separated.exists_many {mark : Char} {as : List α} (h : Separated mark G s as s') :
    ∃ a s₁ others, as = a :: others ∧ G s a s₁ ∧
      Many (fun s a s' => ∃ s₁, Word [mark] s () s₁ ∧ G s₁ a s') s₁ others s' := by
  induction h with
  | one only => exact ⟨_, _, [], rfl, only, .nil⟩
  | more first between _ ih =>
    obtain ⟨a, s₁, others, rfl, ha, hothers⟩ := ih
    exact ⟨_, _, _, rfl, first, .cons ⟨_, between, ha⟩ hothers⟩

theorem Separated.of_many {mark : Char} {others : List α} (first : G s a s₁)
    (h : Many (fun s a s' => ∃ s₁, Word [mark] s () s₁ ∧ G s₁ a s') s₁ others s') :
    Separated mark G s (a :: others) s' := by
  induction h generalizing s a with
  | nil => exact .one first
  | cons hfirst _ ih =>
    obtain ⟨s₂, hmark, hnext⟩ := hfirst
    exact .more first hmark (ih hnext)

theorem Separated.length_lt {mark : Char} {as : List α}
    (h : Separated mark G s as s') (hG : Consumes G) : s'.rest.length < s.rest.length := by
  induction h with
  | one only => exact hG only
  | more first between _ ih =>
    have := hG first
    have := between.length
    omega

/-- What may be left out takes nothing or something. -/
theorem Maybe.length_le (hG : Consumes G) {found : Option α} (h : Maybe G s found s') :
    s'.rest.length ≤ s.rest.length := by
  cases h with
  | none => exact Nat.le_refl _
  | some only => exact Nat.le_of_lt (hG only)

end Grammar

/-- The text does not go on with a character of a kind. -/
def Ends (kind : Char → Prop) (s : Cursor) : Prop := ∀ c ∈ s.rest.head?, ¬ kind c

theorem ends_of_head? {kind : Char → Prop} (h : s.rest.head? = some c) (hc : ¬ kind c) :
    Ends kind s := by
  intro c' hc'
  rw [h] at hc'
  exact Option.mem_some_iff.mp hc' ▸ hc

theorem ends_of_rest {kind : Char → Prop} (h : s.rest = []) : Ends kind s := by
  intro c hc
  rw [h] at hc
  cases hc

theorem Ends.mono {kind kind' : Char → Prop} (h : Ends kind s) (himp : ∀ c, kind' c → kind c) :
    Ends kind' s := fun c hc hkind => h c hc (himp c hkind)

namespace Scan

variable {scan other : Scan α} {b : β} {r : α × Cursor} {Stop Stop' : Cursor → Prop}

/-! ### Equations -/

theorem bind_eq_some_iff {f : α → Scan β} :
    (scan >>= f) s = some (b, s') ↔ ∃ a s₁, scan s = some (a, s₁) ∧ f a s₁ = some (b, s') := by
  refine Option.bind_eq_some_iff.trans ⟨fun ⟨⟨a, s₁⟩, h⟩ => ⟨a, s₁, h⟩, fun ⟨a, s₁, h⟩ => ?_⟩
  exact ⟨(a, s₁), h⟩

theorem bind_eq_none {f : α → Scan β} (h : ∀ a s₁, scan s = some (a, s₁) → f a s₁ = none) :
    (scan >>= f) s = none := by
  cases hb : (scan >>= f) s with
  | none => rfl
  | some x =>
    obtain ⟨a, s₁, ha, hf⟩ := bind_eq_some_iff.mp hb
    exact absurd hf (by simp [h a s₁ ha])

theorem bind_of_none {f : α → Scan β} (h : scan s = none) : (scan >>= f) s = none :=
  bind_eq_none fun _ _ ha => absurd ha (by simp [h])

theorem pure_eq_some_iff {a' : α} : (pure a : Scan α) s = some (a', s') ↔ a' = a ∧ s' = s := by
  constructor
  · intro h
    cases h
    exact ⟨rfl, rfl⟩
  · rintro ⟨rfl, rfl⟩
    rfl

theorem map_eq_some_iff {f : α → β} :
    (f <$> scan) s = some (b, s') ↔ ∃ a, scan s = some (a, s') ∧ b = f a := by
  refine (bind_eq_some_iff (f := fun a => pure (f a))).trans ?_
  simp only [pure_eq_some_iff]
  constructor
  · rintro ⟨a, s₁, h, rfl, rfl⟩
    exact ⟨a, h, rfl⟩
  · rintro ⟨a, h, rfl⟩
    exact ⟨a, s', h, rfl, rfl⟩

theorem orElse_eq_some_iff :
    (scan <|> other) s = some r ↔ scan s = some r ∨ scan s = none ∧ other s = some r := by
  change (scan s).orElse (fun _ => other s) = some r ↔ _
  cases h : scan s <;> simp

theorem not_failure : ¬ (failure : Scan α) s = some r := nofun

theorem require_eq_some_iff {condition : Bool} {u : Unit} :
    require condition s = some (u, s') ↔ condition = true ∧ s' = s := by
  unfold require
  cases condition with
  | true => exact pure_eq_some_iff.trans (by simp)
  | false => simpa using not_failure

theorem located_eq_some_iff {x : Span × α} :
    located scan s = some (x, s') ↔ scan s = some (x.2, s') ∧ x.1 = s.to s' := by
  refine Option.bind_eq_some_iff.trans ⟨fun ⟨⟨a, s₁⟩, h, heq⟩ => ?_, fun ⟨h, heq⟩ => ?_⟩
  · cases heq
    exact ⟨h, rfl⟩
  · refine ⟨(x.2, s'), h, ?_⟩
    obtain ⟨span, a⟩ := x
    cases heq
    rfl

theorem orNone_eq_some_iff {found : Option α} :
    orNone scan s = some (found, s') ↔
      (∃ a, found = some a ∧ scan s = some (a, s')) ∨ found = none ∧ scan s = none ∧ s' = s := by
  unfold orNone
  rw [orElse_eq_some_iff, map_eq_some_iff, pure_eq_some_iff]
  refine or_congr (exists_congr fun a => and_comm) ?_
  have hnone : (some <$> scan) s = none ↔ scan s = none := by
    change (scan s).bind _ = none ↔ _
    cases scan s <;> simp
  rw [hnone, and_left_comm]

theorem ending_eq_some_iff {u : Unit} : ending s = some (u, s') ↔ s.rest = [] ∧ s' = s := by
  unfold ending
  split
  · next h => simp [h, eq_comm]
  · next h => simp [h]

/-! ### Readings -/

/-- The scan finds what the production allows, and all that it allows up to a stop. -/
structure Reads (scan : Scan α) (G : Production α) (Stop : Cursor → Prop) : Prop where
  sound : ∀ {s a s'}, scan s = some (a, s') → G s a s'
  complete : ∀ {s a s'}, G s a s' → Stop s' → scan s = some (a, s')

/-- The scan finds exactly what the production allows. -/
abbrev Exact (scan : Scan α) (G : Production α) : Prop := Reads scan G fun _ => True

theorem Exact.iff (h : Exact scan G) : scan s = some (a, s') ↔ G s a s' :=
  ⟨h.sound, fun hG => h.complete hG trivial⟩

theorem exact_of_iff (h : ∀ s a s', scan s = some (a, s') ↔ G s a s') : Exact scan G :=
  ⟨fun hs => (h _ _ _).mp hs, fun hG _ => (h _ _ _).mpr hG⟩

theorem Reads.mono (h : Reads scan G Stop) (himp : ∀ s, Stop' s → Stop s) :
    Reads scan G Stop' := ⟨h.sound, fun hG hstop => h.complete hG (himp _ hstop)⟩

theorem Reads.eq_none (h : Reads scan G Stop) (hno : ∀ a s', ¬ G s a s') : scan s = none := by
  cases hs : scan s with
  | none => rfl
  | some x => exact absurd (h.sound hs) (hno _ _)

theorem Exact.reads (h : Exact scan G) (Stop : Cursor → Prop) : Reads scan G Stop :=
  h.mono fun _ _ => trivial

theorem Reads.congr {H : Production α} (h : Reads scan G Stop) (hiff : ∀ s a s', G s a s' ↔ H s a s') :
    Reads scan H Stop :=
  ⟨fun hs => (hiff _ _ _).mp (h.sound hs), fun hH => h.complete ((hiff _ _ _).mpr hH)⟩

/-- A choice between two productions that do not begin at one place. -/
theorem Reads.orElse {H : Production α} (h : Reads scan G Stop) (h' : Reads other H Stop)
    (hne : ∀ {s a s₁ b s₂}, G s a s₁ → H s b s₂ → Stop s₂ → False) :
    Reads (scan <|> other) (fun s a s' => G s a s' ∨ H s a s') Stop := by
  refine ⟨fun hs => ?_, fun hGH hstop => ?_⟩
  · rcases orElse_eq_some_iff.mp hs with hs | ⟨-, hs⟩
    · exact .inl (h.sound hs)
    · exact .inr (h'.sound hs)
  · rcases hGH with hG | hH
    · exact orElse_eq_some_iff.mpr (.inl (h.complete hG hstop))
    · exact orElse_eq_some_iff.mpr
        (.inr ⟨h.eq_none fun _ _ hG => hne hG hH hstop, h'.complete hH hstop⟩)

/-- What is found, put together with where it is. -/
theorem Reads.located {f : Span → α → β} (h : Reads scan G Stop) :
    Reads (do let (span, a) ← located scan; return f span a)
      (fun s b s' => ∃ a, G s a s' ∧ b = f (s.to s') a) Stop := by
  refine ⟨fun {s b s'} hs => ?_, fun {s b s'} hG hstop => ?_⟩
  · simp only [bind_eq_some_iff, located_eq_some_iff, pure_eq_some_iff] at hs
    obtain ⟨⟨span, a⟩, _, ⟨ha, rfl⟩, rfl, rfl⟩ := hs
    exact ⟨a, h.sound ha, rfl⟩
  · obtain ⟨a, ha, rfl⟩ := hG
    simp only [bind_eq_some_iff, located_eq_some_iff, pure_eq_some_iff]
    exact ⟨(s.to s', a), s', ⟨h.complete ha hstop, rfl⟩, rfl, rfl⟩

/-- What stands up to a stop is settled by where it begins. -/
theorem Reads.unique {b : α} {s'' : Cursor} (h : Reads scan G Stop) (ha : G s a s') (hb : G s b s'')
    (hstop : Stop s') (hstop' : Stop s'') : a = b ∧ s' = s'' := by
  have heq := (h.complete ha hstop).symm.trans (h.complete hb hstop')
  cases heq
  exact ⟨rfl, rfl⟩

theorem Exact.not_of_none (h : Exact scan G) (hnone : scan s = none) : ¬ G s a s' := by
  intro hG
  rw [h.iff.mpr hG] at hnone
  cases hnone

theorem exact_char {wanted : Char → Bool} {kind : Char → Prop}
    (hkind : ∀ c, wanted c = true ↔ kind c) : Exact (char wanted) (Single kind) := by
  refine exact_of_iff fun s c s' => ?_
  obtain ⟨offset, rest⟩ := s
  obtain ⟨offset', rest'⟩ := s'
  cases rest with
  | nil => simp [char, Single, Word]
  | cons d rest =>
    rw [Single, ← hkind]
    by_cases hd : wanted d
    · simp only [char, hd, if_true, Option.some.injEq, Prod.mk.injEq, Cursor.mk.injEq, Word,
        Text.byteSize, Nat.add_zero, List.cons_append, List.nil_append, List.cons.injEq]
      constructor
      · rintro ⟨rfl, rfl, rfl⟩
        exact ⟨hd, ⟨rfl, rfl⟩, rfl⟩
      · rintro ⟨-, ⟨rfl, rfl⟩, rfl⟩
        exact ⟨rfl, rfl, rfl⟩
    · simp only [char, hd, Bool.false_eq_true, if_false, Word, List.cons_append, List.nil_append,
        List.cons.injEq, reduceCtorEq, false_iff, not_and]
      rintro hc ⟨rfl, -⟩
      exact absurd hc hd

theorem exact_word (cs : List Char) : Exact (exactly cs) (Word cs) := by
  refine exact_of_iff fun s _ s' => ?_
  induction cs generalizing s with
  | nil =>
    rw [word_nil_iff, exactly, pure_eq_some_iff]
    simp
  | cons c cs ih =>
    have hchar : Exact (char (· = c)) (Single (· = c)) := exact_char fun _ => decide_eq_true_iff
    rw [word_cons_iff, exactly, bind_eq_some_iff]
    simp only [hchar.iff, ih, Single]
    constructor
    · rintro ⟨_, s₁, ⟨rfl, hc⟩, hcs⟩
      exact ⟨s₁, hc, hcs⟩
    · rintro ⟨s₁, hc, hcs⟩
      exact ⟨c, s₁, ⟨rfl, hc⟩, hcs⟩

theorem exactly_eq_some_iff {u : Unit} : exactly cs s = some (u, s') ↔ Word cs s () s' :=
  (exact_word cs).iff

theorem exact_times {wanted : Char → Bool} {kind : Char → Prop}
    (hkind : ∀ c, wanted c = true ↔ kind c) (count : Nat) :
    Exact (times wanted count) fun s cs s' => cs.length = count ∧ Many (Single kind) s cs s' := by
  refine exact_of_iff fun s cs s' => ?_
  induction count generalizing s cs with
  | zero =>
    rw [times, pure_eq_some_iff, List.length_eq_zero_iff]
    refine and_congr_right fun hcs => ?_
    subst hcs
    refine ⟨fun h => h ▸ .nil, fun h => ?_⟩
    cases h
    rfl
  | succ count ih =>
    simp only [times, bind_eq_some_iff, pure_eq_some_iff, (exact_char hkind).iff]
    constructor
    · rintro ⟨c, s₁, hc, cs, _, hcs, rfl, rfl⟩
      obtain ⟨hlength, hcs⟩ := (ih _ _).mp hcs
      exact ⟨by rw [List.length_cons, hlength], .cons hc hcs⟩
    · rintro ⟨hlength, h⟩
      cases h with
      | nil => cases hlength
      | cons hc hcs =>
        exact ⟨_, _, hc, _, _, (ih _ _).mpr ⟨Nat.succ.inj hlength, hcs⟩, rfl, rfl⟩

theorem chars_cons {wanted : Char → Bool} {kind : Char → Prop}
    (hkind : ∀ c, wanted c = true ↔ kind c) (h : Single kind s c s₁) :
    chars wanted s = (chars wanted s₁).map fun x => (c :: x.1, x.2) := by
  obtain ⟨hc, hrest, hoffset⟩ := h
  rw [Text.byteSize, Text.byteSize, Nat.add_zero] at hoffset
  simp [chars, hrest, hoffset, (hkind c).mpr hc, Text.byteSize, Nat.add_assoc]

theorem chars_of_ends {wanted : Char → Bool} {kind : Char → Prop}
    (hkind : ∀ c, wanted c = true ↔ kind c) (h : Ends kind s) : chars wanted s = some ([], s) := by
  obtain ⟨offset, rest⟩ := s
  cases rest with
  | nil => rfl
  | cons c rest =>
    have hc : ¬ wanted c = true := fun hc => h c rfl ((hkind c).mp hc)
    simp [chars, hc, Text.byteSize]

theorem chars_eq_some_iff {wanted : Char → Bool} {kind : Char → Prop}
    (hkind : ∀ c, wanted c = true ↔ kind c) :
    chars wanted s = some (cs, s') ↔ Many (Single kind) s cs s' ∧ Ends kind s' := by
  constructor
  · intro h
    obtain ⟨offset, rest⟩ := s
    induction rest generalizing offset cs with
    | nil =>
      cases h
      exact ⟨.nil, ends_of_rest rfl⟩
    | cons c rest ih =>
      by_cases hc : kind c
      · have hfirst : Single kind ⟨offset, c :: rest⟩ c ⟨offset + c.utf8Size, rest⟩ := ⟨hc, rfl, rfl⟩
        rw [chars_cons hkind hfirst, Option.map_eq_some_iff] at h
        obtain ⟨⟨others, s₂⟩, hothers, heq⟩ := h
        cases heq
        obtain ⟨hmany, hends⟩ := ih _ hothers
        exact ⟨.cons hfirst hmany, hends⟩
      · have hends : Ends kind ⟨offset, c :: rest⟩ := ends_of_head? rfl hc
        rw [chars_of_ends hkind hends] at h
        cases h
        exact ⟨.nil, hends⟩
  · rintro ⟨hmany, hends⟩
    induction hmany with
    | nil => exact chars_of_ends hkind hends
    | cons first _ ih => rw [chars_cons hkind first, ih hends, Option.map_some]

theorem reads_chars {wanted : Char → Bool} {kind : Char → Prop}
    (hkind : ∀ c, wanted c = true ↔ kind c) :
    Reads (chars wanted) (Many (Single kind)) (Ends kind) :=
  ⟨fun h => ((chars_eq_some_iff hkind).mp h).1, fun h hends => (chars_eq_some_iff hkind).mpr ⟨h, hends⟩⟩

/-! ### Repetition -/

theorem upTo_of_none {limit : Nat} (h : scan s = none) : upTo scan limit s = some ([], s) := by
  cases limit with
  | zero => rfl
  | succ limit =>
    have hnone : orNone scan s = some (none, s) := orNone_eq_some_iff.mpr (.inr ⟨rfl, h, rfl⟩)
    exact bind_eq_some_iff.mpr ⟨none, s, hnone, rfl⟩

theorem upTo_of_some {limit : Nat} {as : List α} (h : scan s = some (a, s₁)) :
    upTo scan (limit + 1) s = some (as, s') ↔
      ∃ others, as = a :: others ∧ upTo scan limit s₁ = some (others, s') := by
  have hsome : orNone scan s = some (some a, s₁) := orNone_eq_some_iff.mpr (.inl ⟨a, rfl, h⟩)
  rw [upTo, bind_eq_some_iff]
  constructor
  · rintro ⟨found, s₂, hfound, h⟩
    cases hsome.symm.trans hfound
    obtain ⟨others, s₃, hothers, h⟩ := bind_eq_some_iff.mp h
    obtain ⟨rfl, rfl⟩ := pure_eq_some_iff.mp h
    exact ⟨others, rfl, hothers⟩
  · rintro ⟨others, rfl, h⟩
    exact ⟨_, _, hsome, bind_eq_some_iff.mpr ⟨others, s', h, pure_eq_some_iff.mpr ⟨rfl, rfl⟩⟩⟩

/-- A repeated scan goes on until it fails, for each time it takes something. -/
theorem upTo_sound {limit : Nat} {as : List α} (hsound : ∀ {s a s'}, scan s = some (a, s') → G s a s')
    (hG : Consumes G) (hlimit : s.rest.length ≤ limit) (h : upTo scan limit s = some (as, s')) :
    Many G s as s' ∧ scan s' = none := by
  induction limit generalizing s as with
  | zero =>
    cases h
    refine ⟨.nil, ?_⟩
    cases hs : scan s' with
    | none => rfl
    | some x =>
      have := hG (hsound hs)
      omega
  | succ limit ih =>
    cases hs : scan s with
    | none =>
      rw [upTo_of_none hs] at h
      cases h
      exact ⟨.nil, hs⟩
    | some x =>
      obtain ⟨others, rfl, hothers⟩ := (upTo_of_some hs).mp h
      have hfirst := hsound hs
      have := hG hfirst
      obtain ⟨hmany, hnone⟩ := ih (by omega) hothers
      exact ⟨.cons hfirst hmany, hnone⟩

theorem many_sound {as : List α} (hsound : ∀ {s a s'}, scan s = some (a, s') → G s a s')
    (hG : Consumes G) (h : many scan s = some (as, s')) : Many G s as s' ∧ scan s' = none :=
  upTo_sound hsound hG (Nat.le_refl _) h

/-- A scan that is repeated until it fails, where every reading begins at a stop. -/
theorem Reads.many (h : Reads scan G Stop) (hG : Consumes G)
    (hstop : ∀ {s a s'}, G s a s' → Stop s) :
    Reads (many scan) (Many G) fun s => Stop s ∧ scan s = none := by
  refine ⟨fun hs => (many_sound h.sound hG hs).1, fun {s as s'} hmany hend => ?_⟩
  have hlength := hmany.length_le hG
  rw [Scan.many]
  generalize s.rest.length = limit at hlength
  induction hmany generalizing limit with
  | nil => exact upTo_of_none hend.2
  | cons first others ih =>
    obtain ⟨limit, rfl⟩ : ∃ n, limit = n + 1 := ⟨limit - 1, by simp at hlength; omega⟩
    have hnext := others.start hend.1 hstop
    refine (upTo_of_some (h.complete first hnext)).mpr ⟨_, rfl, ih hend limit ?_⟩
    rw [List.length_cons] at hlength
    omega

/-- An exact scan that is repeated takes as much as there is. -/
theorem Exact.many_eq_some_iff (h : Exact scan G) (hG : Consumes G) {as : List α} :
    many scan s = some (as, s') ↔ Many G s as s' ∧ ∀ a s'', ¬ G s' a s'' := by
  constructor
  · intro hs
    obtain ⟨hmany, hnone⟩ := many_sound h.sound hG hs
    exact ⟨hmany, fun a s'' => h.not_of_none hnone⟩
  · rintro ⟨hmany, hno⟩
    exact (h.many hG fun _ => trivial).complete hmany ⟨trivial, h.eq_none hno⟩

/-- One or more with a mark between them, each of which ends where a mark may stand. -/
theorem Reads.separated {mark : Char} (h : Reads scan G Stop) (hG : Consumes G)
    (hmark : ∀ {s s'}, Word [mark] s () s' → Stop s) :
    Reads (separated (exactly [mark]) scan) (Separated mark G)
      fun s => Stop s ∧ (do let _ ← exactly [mark]; scan) s = none := by
  have hnext : Reads (do let _ ← exactly [mark]; scan)
      (fun s a s' => ∃ s₁, Word [mark] s () s₁ ∧ G s₁ a s') Stop := by
    refine ⟨fun hs => ?_, fun ⟨s₁, hword, hG⟩ hstop => ?_⟩
    · obtain ⟨_, s₁, hword, ha⟩ := bind_eq_some_iff.mp hs
      exact ⟨s₁, exactly_eq_some_iff.mp hword, h.sound ha⟩
    · exact bind_eq_some_iff.mpr ⟨(), s₁, exactly_eq_some_iff.mpr hword, h.complete hG hstop⟩
  have hconsumes : Consumes fun s a s' => ∃ s₁, Word [mark] s () s₁ ∧ G s₁ a s' := by
    rintro s a s' ⟨s₁, hword, ha⟩
    have := hword.length
    have := hG ha
    omega
  have hothers := hnext.many hconsumes fun ⟨_, hword, _⟩ => hmark hword
  refine ⟨fun hs => ?_, fun hG hstop => ?_⟩
  · simp only [Scan.separated, bind_eq_some_iff, pure_eq_some_iff] at hs
    obtain ⟨a, s₁, ha, others, _, hmany, rfl, rfl⟩ := hs
    exact .of_many (h.sound ha) (hothers.sound hmany)
  · obtain ⟨a, s₁, others, rfl, ha, hmany⟩ := hG.exists_many
    have hs₁ := hmany.start hstop.1 fun ⟨_, hword, _⟩ => hmark hword
    simp only [Scan.separated, bind_eq_some_iff, pure_eq_some_iff]
    exact ⟨a, s₁, h.complete ha hs₁, others, _, hothers.complete hmany hstop, rfl, rfl⟩

theorem separated_of_none {between : Scan β} (h : scan s = none) : separated between scan s = none :=
  bind_of_none h

theorem Reads.orNone (h : Reads scan G Stop) :
    Reads (orNone scan) (Maybe G) fun s => Stop s ∧ scan s = none := by
  constructor
  · intro s found s' hs
    rcases orNone_eq_some_iff.mp hs with ⟨a, rfl, ha⟩ | ⟨rfl, -, rfl⟩
    · exact .some (h.sound ha)
    · exact .none
  · intro s found s' hG hstop
    cases hG with
    | none => exact orNone_eq_some_iff.mpr (.inr ⟨rfl, hstop.2, rfl⟩)
    | some only => exact orNone_eq_some_iff.mpr (.inl ⟨_, rfl, h.complete only hstop.1⟩)

end Scan

end Markup.Toml
