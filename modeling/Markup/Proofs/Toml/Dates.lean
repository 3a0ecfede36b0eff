import Markup.Proofs.Toml.Numbers

/-!
# Dates and times are read by the grammar

The scans for dates and times against their productions, and what tells a date or a time from a number:
the character after its first digits (`DigitsEnd`), for a number has no dash and no colon there.
-/

namespace Markup.Toml

open Grammar Scan

variable {s s₁ s' : Cursor} {c : Char} {ds : List Char} {count low high n : Nat} {u : Unit}

theorem exact_bounded : Exact (bounded count low high) (Bounded count low high) := by
  refine exact_of_iff fun s n s' => ?_
  simp only [bounded, bind_eq_some_iff, require_eq_some_iff, pure_eq_some_iff, Bool.and_eq_true,
    decide_eq_true_eq, (exact_times (fun _ => isDigit_iff) count).iff]
  constructor
  · rintro ⟨ds, _, ⟨hlength, hds⟩, _, _, ⟨⟨hlow, hhigh⟩, rfl⟩, rfl, rfl⟩
    exact .intro hlength hds hlow hhigh
  · intro h
    cases h with
    | intro length digits least most =>
      exact ⟨_, s', ⟨length, digits⟩, (), s', ⟨⟨least, most⟩, rfl⟩, rfl, rfl⟩

theorem exact_date : Exact date Date := by
  refine exact_of_iff fun s _ s' => ?_
  simp only [date, bind_eq_some_iff, exactly_eq_some_iff, pure_eq_some_iff, exact_bounded.iff]
  constructor
  · rintro ⟨y, s₁, hyear, _, s₂, hdash, m, s₃, hmonth, _, s₄, hdash', d, _, hday, -, rfl⟩
    exact .intro hyear hdash hmonth hdash' hday
  · intro h
    cases h with
    | intro year dash month dash' day =>
      exact ⟨_, _, year, (), _, dash, _, _, month, (), _, dash', _, s', day, trivial, rfl⟩

theorem reads_fraction : Reads (do exactly ['.']; time.many1Digits) Fraction (Ends IsDigit) := by
  refine ⟨fun {s _ s'} h => ?_, fun {s _ s'} h hends => ?_⟩
  · simp only [time.many1Digits, bind_eq_some_iff, exactly_eq_some_iff, require_eq_some_iff,
      decide_eq_true_eq, chars_eq_some_iff fun _ => isDigit_iff] at h
    obtain ⟨_, s₁, hpoint, ds, _, ⟨hds, -⟩, hne, rfl⟩ := h
    exact .intro hpoint hne hds
  · cases h with
    | intro point some digits =>
      simp only [time.many1Digits, bind_eq_some_iff, exactly_eq_some_iff, require_eq_some_iff,
        decide_eq_true_eq, chars_eq_some_iff fun _ => isDigit_iff]
      exact ⟨(), _, point, _, s', ⟨digits, hends⟩, some, rfl⟩

/-- A digit or a point. -/
def IsSecond (c : Char) : Prop := IsDigit c ∨ c = '.'

instance : DecidablePred IsSecond := fun _ => inferInstanceAs (Decidable (_ ∨ _))

theorem reads_time : Reads time Time (Ends IsSecond) := by
  refine ⟨fun {s _ s'} h => ?_, fun {s _ s'} h hends => ?_⟩
  · simp only [time, bind_eq_some_iff, exactly_eq_some_iff, pure_eq_some_iff,
      exact_bounded.iff] at h
    obtain ⟨h, s₁, hhour, _, s₂, hcolon, m, s₃, hminute, _, s₄, hcolon', sec, s₅, hsecond, found, _,
      hfound, -, rfl⟩ := h
    exact .intro hhour hcolon hminute hcolon' hsecond (reads_fraction.orNone.sound hfound)
  · cases h with
    | intro hour colon minute colon' second fraction =>
      simp only [time, bind_eq_some_iff, exactly_eq_some_iff, pure_eq_some_iff, exact_bounded.iff]
      refine ⟨_, _, hour, (), _, colon, _, _, minute, (), _, colon', _, _, second, _, s',
        reads_fraction.orNone.complete fraction ⟨hends.mono fun _ => .inl, ?_⟩, trivial, rfl⟩
      exact bind_of_none ((exact_word _).eq_none fun _ _ hpoint => hends _ hpoint.head? (.inr rfl))

theorem Grammar.Bounded.exists_first (h : Bounded count low high s n s') (hcount : 0 < count) :
    ∃ c, s.rest.head? = some c ∧ IsDigit c := by
  cases h with
  | intro length digits _ _ =>
    obtain ⟨c, _, hc⟩ := digits.exists_first (List.length_pos_iff.mp (length ▸ hcount))
    exact ⟨c, hc.head?, hc.1⟩

theorem Grammar.Time.head? (h : Time s u s') : ∃ c, s.rest.head? = some c ∧ IsDigit c := by
  cases h with
  | intro hour => exact hour.exists_first (by decide)

theorem Grammar.Date.head? (h : Date s u s') : ∃ c, s.rest.head? = some c ∧ IsDigit c := by
  cases h with
  | intro year => exact year.exists_first (by decide)

theorem Grammar.DateTime.head? (h : DateTime s u s') : ∃ c, s.rest.head? = some c ∧ IsDigit c := by
  cases h with
  | date date => exact date.head?
  | time time => exact time.head?
  | both date => exact date.head?

theorem exact_zone : Exact zone Zone := by
  refine exact_of_iff fun s _ s' => ?_
  have huniversal : Exact (char fun c => c = 'Z' || c = 'z') (Single fun c => c = 'Z' ∨ c = 'z') :=
    exact_char fun c => by simp
  have hsign : Exact (char fun c => c = '+' || c = '-') (Single fun c => c = '+' ∨ c = '-') :=
    exact_char fun c => by simp
  simp only [zone, orElse_eq_some_iff, bind_eq_some_iff, exactly_eq_some_iff, pure_eq_some_iff,
    exact_bounded.iff, huniversal.iff, hsign.iff]
  constructor
  · rintro (⟨c, _, hc, -, rfl⟩ | ⟨-, c, s₁, hc, h, s₂, hhour, _, s₃, hcolon, m, _, hminute, -, rfl⟩)
    · exact .universal hc
    · exact .shifted hc hhour hcolon hminute
  · intro h
    cases h with
    | universal one => exact .inl ⟨_, s', one, trivial, rfl⟩
    | shifted sign hour colon minute =>
      refine .inr ⟨bind_of_none (huniversal.eq_none fun c _ hc => ?_), _, _, sign, _, _, hour, (), _,
        colon, _, s', minute, trivial, rfl⟩
      have hkind := sign.1
      rw [← Option.some.inj (hc.head?.symm.trans sign.head?)] at hkind
      rcases hc.1 with rfl | rfl <;> simp at hkind

theorem Grammar.Zone.head? (h : Zone s u s') :
    ∃ c, s.rest.head? = some c ∧ c ∈ ['Z', 'z', '+', '-'] := by
  cases h with
  | universal one =>
    refine ⟨_, one.head?, ?_⟩
    rcases one.1 with rfl | rfl <;> decide
  | shifted sign =>
    refine ⟨_, sign.head?, ?_⟩
    rcases sign.1 with rfl | rfl <;> decide

theorem not_isSecond_of_zone : ∀ c ∈ ['Z', 'z', '+', '-'], ¬ IsSecond c :=
  forall_mem_of_all (by decide)

/-! ### The first digits -/

/-- A place where the digits that come first end, of which there is one at least. -/
def DigitsEnd (s s₁ : Cursor) : Prop :=
  ∃ ds, ds ≠ [] ∧ Many (Single IsDigit) s ds s₁ ∧ Ends IsDigit s₁

theorem DigitsEnd.unique (h : DigitsEnd s s₁) (h' : DigitsEnd s s') : s₁ = s' := by
  obtain ⟨_, -, hmany, hends⟩ := h
  obtain ⟨_, -, hmany', hends'⟩ := h'
  have hreads : Reads (chars Char.isDigit) (Many (Single IsDigit)) (Ends IsDigit) :=
    reads_chars fun _ => isDigit_iff
  exact (hreads.unique hmany hmany' hends hends').2

theorem Grammar.Bounded.digitsEnd (h : Bounded count low high s n s₁) (hcount : 0 < count)
    (hc : s₁.rest.head? = some c) (hno : ¬ IsDigit c) : DigitsEnd s s₁ := by
  cases h with
  | intro length digits _ _ =>
    exact ⟨_, List.length_pos_iff.mp (length ▸ hcount), digits, ends_of_head? hc hno⟩

theorem Grammar.Date.digitsEnd (h : Date s u s') :
    ∃ s₁, DigitsEnd s s₁ ∧ s₁.rest.head? = some '-' := by
  cases h with
  | intro year dash => exact ⟨_, year.digitsEnd (by decide) dash.head? (by decide), dash.head?⟩

theorem Grammar.Time.digitsEnd (h : Time s u s') :
    ∃ s₁, DigitsEnd s s₁ ∧ s₁.rest.head? = some ':' := by
  cases h with
  | intro hour colon => exact ⟨_, hour.digitsEnd (by decide) colon.head? (by decide), colon.head?⟩

theorem Grammar.DateTime.digitsEnd (h : DateTime s u s') :
    ∃ s₁ c, DigitsEnd s s₁ ∧ s₁.rest.head? = some c ∧ (c = '-' ∨ c = ':') := by
  cases h with
  | date date | both date =>
    obtain ⟨s₁, hend, hc⟩ := date.digitsEnd
    exact ⟨s₁, _, hend, hc, .inl rfl⟩
  | time time =>
    obtain ⟨s₁, hend, hc⟩ := time.digitsEnd
    exact ⟨s₁, _, hend, hc, .inr rfl⟩

/-- Digits with underscores between them, up to the first underscore. -/
theorem digits_of_nextDigits (h : Many (NextDigit IsDigit) s ds s') (hends : Ends IsDigit s') :
    ∃ s₁ ds, Many (Single IsDigit) s ds s₁ ∧ Ends IsDigit s₁ ∧
      (s₁ = s' ∨ s₁.rest.head? = some '_') := by
  induction h with
  | nil => exact ⟨_, [], .nil, hends, .inl rfl⟩
  | cons first _ ih =>
    cases first with
    | plain one =>
      obtain ⟨s₁, ds, hmany, hend, hat⟩ := ih hends
      exact ⟨s₁, _, .cons one hmany, hend, hat⟩
    | underscored underscore _ =>
      exact ⟨_, [], .nil, ends_of_head? underscore.head? (by decide), .inr underscore.head?⟩

/-- The digits of a number that come first end with it or at an underscore. -/
theorem Grammar.Whole.digitsEnd (h : Whole s ds s') (hends : Ends IsDigit s') :
    ∃ s₁, DigitsEnd s s₁ ∧ (s₁ = s' ∨ s₁.rest.head? = some '_') := by
  cases h with
  | zero word =>
    exact ⟨s', ⟨['0'], by simp, .cons ⟨by decide, word⟩ .nil, hends⟩, .inl rfl⟩
  | digits digits _ =>
    cases digits with
    | intro first others =>
      obtain ⟨s₁, ds, hmany, hend, hat⟩ := digits_of_nextDigits others hends
      exact ⟨s₁, ⟨_, by simp, .cons first hmany, hend⟩, hat⟩

/-- A number is no date: no dash or colon comes after its first digits. -/
theorem not_dateTime_of_whole {negative : Bool} {s₂ s'' : Cursor} (hsign : Sign s negative s₁)
    (hwhole : Whole s₁ ds s₂)
    (hnext : Ends (fun c => IsNumeral c ∨ c = '-' ∨ c = ':') s₂) : ¬ DateTime s u s'' := by
  intro h
  cases hsign with
  | plus word | minus word =>
    obtain ⟨c, hc, hdigit⟩ := h.head?
    rw [← Option.some.inj (word.head?.symm.trans hc)] at hdigit
    exact absurd hdigit (by decide)
  | none =>
    obtain ⟨s₃, hend, hat⟩ := hwhole.digitsEnd (hnext.mono fun _ h => .inl (.inl h))
    obtain ⟨s₄, c, hend', hc, hmark⟩ := h.digitsEnd
    cases hend.unique hend'
    rcases hat with rfl | hunderscore
    · exact hnext c hc (.inr hmark)
    · rw [← Option.some.inj (hunderscore.symm.trans hc)] at hmark
      exact absurd hmark (by decide)

/-! ### Dates with times -/

/-- A time after a date. -/
def TimePart : Production (Option Unit) := fun s found s' =>
  ∃ c s₁ s₂, Single (fun c => c = 'T' ∨ c = 't' ∨ c = ' ') s c s₁ ∧ Time s₁ () s₂ ∧
    Maybe Zone s₂ found s'

theorem reads_timePart :
    Reads (do
      let _ ← char fun c => c = 'T' || c = 't' || c = ' '
      time
      orNone zone) TimePart Closes := by
  have hbetween : Exact (char fun c => c = 'T' || c = 't' || c = ' ')
      (Single fun c => c = 'T' ∨ c = 't' ∨ c = ' ') := exact_char fun c => by simp [or_assoc]
  refine ⟨fun {s found s'} h => ?_, fun {s found s'} h hcloses => ?_⟩
  · simp only [bind_eq_some_iff, hbetween.iff] at h
    obtain ⟨c, s₁, hc, _, s₂, htime, hzone⟩ := h
    exact ⟨c, s₁, s₂, hc, reads_time.sound htime, exact_zone.orNone.sound hzone⟩
  · obtain ⟨c, s₁, s₂, hc, htime, hzone⟩ := h
    have hnozone : zone s' = none := exact_zone.eq_none fun _ _ h => by
      obtain ⟨c, hc, hmem⟩ := h.head?
      exact forall_close (P := (· ∉ ['Z', 'z', '+', '-'])) (by decide) c (hcloses.head? hc) hmem
    have hends : Ends IsSecond s₂ := by
      cases hzone with
      | none => exact hcloses.ends (forall_close (by decide))
      | some only =>
        obtain ⟨c, hc, hmem⟩ := only.head?
        exact ends_of_head? hc (not_isSecond_of_zone c hmem)
    simp only [bind_eq_some_iff, hbetween.iff]
    exact ⟨c, s₁, hc, (), s₂, reads_time.complete htime hends,
      exact_zone.orNone.complete hzone ⟨trivial, hnozone⟩⟩

theorem Closes.not_timePart {found : Option Unit} (h : Closes s) : ¬ TimePart s found s' := by
  rintro ⟨c, s₁, s₂, hc, htime, -⟩
  obtain ⟨d, hd, hdigit⟩ := htime.head?
  have hafter : Closes s₁ := by
    obtain ⟨s₃, ⟨cs, hcs⟩, hclose⟩ := h
    cases hcs with
    | nil =>
      have hkind := hclose c hc.head?
      rcases hc.1 with rfl | rfl | rfl <;> exact absurd hkind (by decide)
    | cons first others =>
      have heq : c = _ := Option.some.inj (hc.head?.symm.trans first.head?)
      subst heq
      cases hc.2.unique first.2
      exact ⟨s₃, ⟨_, others⟩, hclose⟩
  exact forall_close (P := fun c => ¬ IsDigit c) (by decide) d (hafter.head? hd) hdigit

theorem reads_dateTime : Reads dateTime DateTime Closes := by
  have htime : Reads time Time Closes :=
    reads_time.mono fun s hcloses => hcloses.ends (forall_close (by decide))
  have hdate : Reads (do
        date
        let _ ← orNone (do
          let _ ← char fun c => c = 'T' || c = 't' || c = ' '
          time
          orNone zone))
      (fun s _ s' => ∃ s₁ found, Date s () s₁ ∧ Maybe TimePart s₁ found s') Closes := by
    refine ⟨fun {s _ s'} h => ?_, fun {s _ s'} h hcloses => ?_⟩
    · simp only [bind_eq_some_iff, pure_eq_some_iff, exact_date.iff] at h
      obtain ⟨_, s₁, hdate, found, _, hfound, -, rfl⟩ := h
      exact ⟨s₁, found, hdate, reads_timePart.orNone.sound hfound⟩
    · obtain ⟨s₁, found, hdate, hfound⟩ := h
      have hno := reads_timePart.eq_none fun _ _ => hcloses.not_timePart
      simp only [bind_eq_some_iff, pure_eq_some_iff, exact_date.iff]
      exact ⟨(), s₁, hdate, found, s', reads_timePart.orNone.complete hfound ⟨hcloses, hno⟩, trivial,
        rfl⟩
  refine (hdate.orElse htime fun ⟨_, _, hd, _⟩ ht _ => ?_).congr fun s _ s' => ?_
  · obtain ⟨s₁, hend, hdash⟩ := hd.digitsEnd
    obtain ⟨s₂, hend', hcolon⟩ := ht.digitsEnd
    cases hend.unique hend'
    simpa using hdash.symm.trans hcolon
  · constructor
    · rintro (⟨s₁, found, hdate, hfound⟩ | htime)
      · cases hfound with
        | none => exact .date hdate
        | some only =>
          obtain ⟨c, s₂, s₃, hc, htime, hzone⟩ := only
          exact .both hdate hc htime hzone
      · exact .time htime
    · intro h
      cases h with
      | date date => exact .inl ⟨s', none, date, .none⟩
      | time time => exact .inr time
      | both date between time zone =>
        exact .inl ⟨_, _, date, .some ⟨_, _, _, between, time, zone⟩⟩

/-! ### Lengths -/

theorem Grammar.Bounded.length_lt (h : Bounded count low high s n s') (hcount : 0 < count) :
    s'.rest.length < s.rest.length := by
  cases h with
  | intro length digits _ _ =>
    have := digits.length_le (consumes_single _)
    omega

theorem consumes_date : Consumes Date := by
  intro s _ s' h
  cases h with
  | intro year dash month dash' day =>
    have := year.length_lt (by decide)
    have := dash.length_lt
    have := month.length_lt (by decide)
    have := dash'.length_lt
    have := day.length_lt (by decide)
    omega

theorem consumes_fraction : Consumes Fraction := by
  intro s _ s' h
  cases h with
  | intro point _ digits =>
    have := point.length_lt
    have := digits.length_le (consumes_single _)
    omega

theorem consumes_time : Consumes Time := by
  intro s _ s' h
  cases h with
  | intro hour colon minute colon' second fraction =>
    have := hour.length_lt (by decide)
    have := colon.length_lt
    have := minute.length_lt (by decide)
    have := colon'.length_lt
    have := second.length_lt (by decide)
    have := fraction.length_le consumes_fraction
    omega

theorem consumes_zone : Consumes Zone := by
  intro s _ s' h
  cases h with
  | universal one => exact consumes_single _ one
  | shifted sign hour colon minute =>
    have := consumes_single _ sign
    have := hour.length_lt (by decide)
    have := colon.length_lt
    have := minute.length_lt (by decide)
    omega

theorem consumes_dateTime : Consumes DateTime := by
  intro s _ s' h
  cases h with
  | date date => exact consumes_date date
  | time time => exact consumes_time time
  | both date between time zone =>
    have := consumes_date date
    have := consumes_single _ between
    have := consumes_time time
    have := zone.length_le consumes_zone
    omega

end Markup.Toml
