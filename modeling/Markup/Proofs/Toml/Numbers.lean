import Markup.Proofs.Toml.Texts

/-!
# Numbers and dates are read by the grammar

The scans for integers, floats, dates and times against their productions. A number may begin like a
longer one and a date like an integer, so each is read up to a place where a value may end (`Closes`),
and the kinds are told apart by the character after their first digits (`DigitsEnd`).
-/

namespace Markup.Toml

open Grammar Scan

variable {s s₁ s₂ s' : Cursor} {c : Char} {ds : List Char} {n : Int} {x : Number}

/-! ### Where values end -/

/-- A character that may follow a value and the blanks after it. -/
def IsClose (c : Char) : Prop :=
  c = '#' ∨ c = '\n' ∨ c = '\r' ∨ c = ',' ∨ c = ']' ∨ c = '\x7d'

instance : DecidablePred IsClose := fun _ => inferInstanceAs (Decidable (_ ∨ _))

/-- A place where a value may end: there are only blanks before something that closes it. -/
def Closes (s : Cursor) : Prop := ∃ s₁, Blanks s () s₁ ∧ ∀ c ∈ s₁.rest.head?, IsClose c

/-- What is next where a value ends is a blank or closes it. -/
theorem Closes.head? (h : Closes s) (hc : s.rest.head? = some c) : IsBlank c ∨ IsClose c := by
  obtain ⟨s₁, hblanks, hclose⟩ := h
  rcases hblanks.head? with rfl | ⟨d, hd, hblank⟩
  · exact .inr (hclose c hc)
  · exact .inl (Option.some.inj (hd.symm.trans hc) ▸ hblank)

theorem Closes.ends {kind : Char → Prop} (h : Closes s)
    (hkind : ∀ c, IsBlank c ∨ IsClose c → ¬ kind c) : Ends kind s :=
  fun c hc => hkind c (h.head? hc)

/-- What holds of the few characters that may stand where a value ends. -/
theorem forall_close {P : Char → Prop} [DecidablePred P]
    (h : [' ', '\t', '#', '\n', '\r', ',', ']', '\x7d'].all (P ·) = true) (c : Char)
    (hc : IsBlank c ∨ IsClose c) : P c := by
  refine forall_mem_of_all h c ?_
  rcases hc with (rfl | rfl) | rfl | rfl | rfl | rfl | rfl | rfl <;> decide

/-- A digit or an underscore. -/
def IsNumeral (c : Char) : Prop := IsDigit c ∨ c = '_'

instance : DecidablePred IsNumeral := fun _ => inferInstanceAs (Decidable (_ ∨ _))

theorem not_isNumeral_of_close : ∀ c, IsBlank c ∨ IsClose c → ¬ IsNumeral c :=
  forall_close (by decide)

/-! ### Digits -/

section

variable {wanted : Char → Bool} {kind : Char → Prop}

theorem exact_nextDigit (hkind : ∀ c, wanted c = true ↔ kind c) (hno : ¬ kind '_') :
    Exact (char wanted <|> (do exactly ['_']; char wanted)) (NextDigit kind) := by
  refine exact_of_iff fun s d s' => ?_
  simp only [orElse_eq_some_iff, bind_eq_some_iff, exactly_eq_some_iff, (exact_char hkind).iff]
  constructor
  · rintro (h | ⟨-, _, s₁, hword, h⟩)
    · exact .plain h
    · exact .underscored hword h
  · intro h
    cases h with
    | plain one => exact .inl one
    | underscored underscore one =>
      refine .inr ⟨(exact_char hkind).eq_none fun c _ hone => hno ?_, (), _, underscore, one⟩
      exact Option.some.inj (hone.head?.symm.trans underscore.head?) ▸ hone.1

theorem consumes_nextDigit : Consumes (NextDigit kind) := by
  intro s d s' h
  cases h with
  | plain one => exact consumes_single _ one
  | underscored underscore one =>
    have := underscore.length_lt
    have := consumes_single _ one
    omega

theorem Grammar.NextDigit.head? (h : NextDigit kind s c s') :
    ∃ c, s.rest.head? = some c ∧ (kind c ∨ c = '_') := by
  cases h with
  | plain one => exact ⟨_, one.head?, .inl one.1⟩
  | underscored underscore _ => exact ⟨_, underscore.head?, .inr rfl⟩

theorem reads_digitRun (hkind : ∀ c, wanted c = true ↔ kind c) (hno : ¬ kind '_') :
    Reads (digitRun wanted) (Digits kind) (Ends fun c => kind c ∨ c = '_') := by
  have hmany {s s' : Cursor} {ds : List Char} :
      many _ s = some (ds, s') ↔ Many (NextDigit kind) s ds s' ∧ ∀ d s'', ¬ NextDigit kind s' d s'' :=
    (exact_nextDigit hkind hno).many_eq_some_iff consumes_nextDigit
  refine ⟨fun {s ds s'} h => ?_, fun {s ds s'} h hends => ?_⟩
  · simp only [digitRun, bind_eq_some_iff, pure_eq_some_iff, (exact_char hkind).iff, hmany] at h
    obtain ⟨d, s₁, hfirst, ds, _, ⟨hothers, -⟩, rfl, rfl⟩ := h
    exact .intro hfirst hothers
  · cases h with
    | intro first others =>
      simp only [digitRun, bind_eq_some_iff, pure_eq_some_iff, (exact_char hkind).iff, hmany]
      refine ⟨_, _, first, _, s', ⟨others, fun d s'' h => ?_⟩, rfl, rfl⟩
      obtain ⟨c, hc, hnext⟩ := h.head?
      exact hends c hc hnext

theorem Grammar.Digits.head? (h : Digits kind s ds s') : s.rest.head? = ds.head? := by
  cases h with
  | intro first _ => exact first.head?

theorem Grammar.Digits.exists_head? (h : Digits kind s ds s') :
    ∃ c, s.rest.head? = some c ∧ kind c := by
  cases h with
  | intro first _ => exact ⟨_, first.head?, first.1⟩

theorem consumes_digits : Consumes (Digits kind) := by
  intro s ds s' h
  cases h with
  | intro first others =>
    have := consumes_single _ first
    have := others.length_le consumes_nextDigit
    omega

end

theorem reads_decimalRun : Reads (digitRun Char.isDigit) (Digits IsDigit) (Ends IsNumeral) :=
  reads_digitRun (fun _ => isDigit_iff) (by simp [IsDigit])

/-- Digits, unless a zero comes first. -/
def nonzeroRun : Scan (List Char) := do
  match ← peek with
  | some c => require (c ≠ '0')
  | none => failure
  digitRun Char.isDigit

theorem nonzeroRun_eq_some_iff :
    nonzeroRun s = some (ds, s') ↔
      s.rest.head? ≠ some '0' ∧ digitRun Char.isDigit s = some (ds, s') := by
  have hpeek {found : Option Char} {s₁ : Cursor} :
      peek s = some (found, s₁) ↔ s.rest.head? = found ∧ s = s₁ := by
    simp [peek]
  simp only [nonzeroRun, bind_eq_some_iff, hpeek]
  constructor
  · rintro ⟨found, _, ⟨rfl, rfl⟩, h⟩
    cases hhead : s.rest.head? with
    | none =>
      rw [hhead] at h
      obtain ⟨_, _, hfailure, -⟩ := bind_eq_some_iff.mp h
      exact absurd hfailure not_failure
    | some c =>
      rw [hhead] at h
      obtain ⟨_, _, hrequire, hrun⟩ := bind_eq_some_iff.mp h
      obtain ⟨hc, rfl⟩ := require_eq_some_iff.mp hrequire
      exact ⟨by simpa using hc, hrun⟩
  · rintro ⟨hhead, hrun⟩
    obtain ⟨c, hc, -⟩ := (reads_decimalRun.sound hrun).exists_head?
    refine ⟨some c, s, ⟨hc, rfl⟩, bind_eq_some_iff.mpr ⟨(), s, require_eq_some_iff.mpr ⟨?_, rfl⟩, hrun⟩⟩
    simpa [hc] using hhead

theorem reads_decimalDigits : Reads decimalDigits Whole (Ends IsNumeral) := by
  have hdef : decimalDigits = (nonzeroRun <|> do return [← char (· = '0')]) := rfl
  have hzero : Exact (char (· = '0')) (Single (· = '0')) := exact_char fun _ => decide_eq_true_iff
  refine ⟨fun {s ds s'} h => ?_, fun {s ds s'} h hends => ?_⟩
  · simp only [hdef, orElse_eq_some_iff, nonzeroRun_eq_some_iff, bind_eq_some_iff, pure_eq_some_iff,
      hzero.iff] at h
    rcases h with ⟨hhead, h⟩ | ⟨-, c, _, ⟨rfl, hword⟩, rfl, rfl⟩
    · have hdigits := reads_decimalRun.sound h
      exact .digits hdigits (hdigits.head? ▸ hhead)
    · exact .zero hword
  · simp only [hdef, orElse_eq_some_iff, nonzeroRun_eq_some_iff, bind_eq_some_iff, pure_eq_some_iff,
      hzero.iff]
    cases h with
    | zero word =>
      refine .inr ⟨?_, '0', s', ⟨rfl, word⟩, rfl, rfl⟩
      cases hrun : nonzeroRun s with
      | none => rfl
      | some x => exact absurd word.head? (nonzeroRun_eq_some_iff.mp hrun).1
    | digits digits first =>
      exact .inl ⟨digits.head? ▸ first, reads_decimalRun.complete digits hends⟩

theorem Grammar.Whole.head? (h : Whole s ds s') : ∃ c, s.rest.head? = some c ∧ IsDigit c := by
  cases h with
  | zero word => exact ⟨_, word.head?, by simp [IsDigit]⟩
  | digits digits _ => exact digits.exists_head?

theorem consumes_whole : Consumes Whole := by
  intro s ds s' h
  cases h with
  | zero word => exact word.length_lt
  | digits digits _ => exact consumes_digits digits

/-! ### Integers -/

def IsSign (c : Char) : Prop := c = '+' ∨ c = '-'

theorem reads_sign : Reads sign Sign (Ends IsSign) := by
  refine ⟨fun {s negative s'} h => ?_, fun {s negative s'} h hends => ?_⟩
  · simp only [sign, orElse_eq_some_iff, bind_eq_some_iff, exactly_eq_some_iff, pure_eq_some_iff] at h
    rcases h with ⟨_, _, hword, rfl, rfl⟩ | ⟨-, ⟨_, _, hword, rfl, rfl⟩ | ⟨-, rfl, rfl⟩⟩
    · exact .plus hword
    · exact .minus hword
    · exact .none
  · simp only [sign, orElse_eq_some_iff, bind_eq_some_iff, exactly_eq_some_iff, pure_eq_some_iff]
    have hplus (hno : s.rest.head? ≠ some '+') : exactly ['+'] s = none :=
      (exact_word _).eq_none fun _ _ hword => hno hword.head?
    cases h with
    | plus word => exact .inl ⟨(), s', word, rfl, rfl⟩
    | minus word =>
      exact .inr ⟨bind_of_none (hplus (by simp [word.head?])), .inl ⟨(), s', word, rfl, rfl⟩⟩
    | none =>
      refine .inr ⟨bind_of_none (hplus fun h => hends _ h (.inl rfl)), .inr
        ⟨bind_of_none ((exact_word _).eq_none fun _ _ hword => ?_), rfl, rfl⟩⟩
      exact hends _ hword.head? (.inr rfl)

theorem Grammar.Sign.length_le {negative : Bool} (h : Sign s negative s') :
    s'.rest.length ≤ s.rest.length := by
  cases h with
  | none => exact Nat.le_refl _
  | plus word | minus word => exact Nat.le_of_lt word.length_lt

theorem ends_isSign_of_isDigit (h : ∃ c, s.rest.head? = some c ∧ IsDigit c) : Ends IsSign s := by
  obtain ⟨c, hc, hdigit⟩ := h
  refine ends_of_head? hc ?_
  rintro (rfl | rfl) <;> simp [IsDigit] at hdigit

theorem inRange_eq_some_iff {m : Int} :
    inRange n s = some (m, s') ↔ Limits.ofReader.integer n ∧ m = n ∧ s' = s := by
  simp only [inRange, bind_eq_some_iff, require_eq_some_iff, pure_eq_some_iff]
  constructor
  · rintro ⟨_, _, ⟨hn, rfl⟩, rfl, rfl⟩
    exact ⟨by simpa [Limits.ofReader] using hn, rfl, rfl⟩
  · rintro ⟨hn, rfl, rfl⟩
    exact ⟨(), s', ⟨by simpa [Limits.ofReader] using hn, rfl⟩, rfl, rfl⟩

/-- An integer in a base. -/
def Based (letter : Char) (base : Nat) (kind : Char → Prop) : Production Int := fun s n s' =>
  ∃ s₁ ds, Word ['0', letter] s () s₁ ∧ Digits kind s₁ ds s' ∧ n = digitsValue base ds ∧
    Limits.ofReader.integer n

theorem reads_basedInteger {letter : Char} {base : Nat} {wanted : Char → Bool} {kind : Char → Prop}
    (hkind : ∀ c, wanted c = true ↔ kind c) (hclose : ∀ c, IsBlank c ∨ IsClose c → ¬ kind c)
    (hno : ¬ kind '_') :
    Reads (basedInteger letter base wanted) (Based letter base kind) Closes := by
  have hrun := reads_digitRun hkind hno
  refine ⟨fun {s n s'} h => ?_, fun {s n s'} h hcloses => ?_⟩
  · simp only [basedInteger, bind_eq_some_iff, exactly_eq_some_iff, inRange_eq_some_iff] at h
    obtain ⟨_, s₁, hword, ds, _, hds, hn, rfl, rfl⟩ := h
    exact ⟨s₁, ds, hword, hrun.sound hds, rfl, hn⟩
  · obtain ⟨s₁, ds, hword, hds, rfl, hn⟩ := h
    simp only [basedInteger, bind_eq_some_iff, exactly_eq_some_iff, inRange_eq_some_iff]
    refine ⟨(), s₁, hword, ds, s', hrun.complete hds (hcloses.ends fun c hc => ?_), hn, rfl, rfl⟩
    rintro (h | rfl)
    · exact hclose c hc h
    · exact not_isNumeral_of_close _ hc (.inr rfl)

/-- A decimal integer. -/
def Plain : Production Int := fun s n s' =>
  ∃ negative s₁ ds, Sign s negative s₁ ∧ Whole s₁ ds s' ∧ n = signed negative ds ∧
    Limits.ofReader.integer n

theorem reads_decimalInteger : Reads decimalInteger Plain Closes := by
  refine ⟨fun {s n s'} h => ?_, fun {s n s'} h hcloses => ?_⟩
  · simp only [decimalInteger, bind_eq_some_iff, inRange_eq_some_iff] at h
    obtain ⟨negative, s₁, hsign, ds, _, hds, hn, rfl, rfl⟩ := h
    exact ⟨negative, s₁, ds, reads_sign.sound hsign, reads_decimalDigits.sound hds, rfl, hn⟩
  · obtain ⟨negative, s₁, ds, hsign, hds, rfl, hn⟩ := h
    simp only [decimalInteger, bind_eq_some_iff, inRange_eq_some_iff]
    exact ⟨negative, s₁, reads_sign.complete hsign (ends_isSign_of_isDigit hds.head?), ds, s',
      reads_decimalDigits.complete hds (hcloses.ends not_isNumeral_of_close), hn, rfl, rfl⟩

/-- A zero with a letter after it is no decimal integer. -/
theorem not_plain_of_letter (hword : Word ['0', c] s () s₁) (hc : ¬ (IsBlank c ∨ IsClose c))
    (hplain : Plain s n s') : ¬ Closes s' := by
  intro hcloses
  obtain ⟨negative, s₂, ds, hsign, hds, -, -⟩ := hplain
  obtain ⟨s₃, hzero, hletter⟩ := word_cons_iff.mp hword
  cases hsign with
  | plus word | minus word => simpa using word.head?.symm.trans hword.head?
  | none =>
    cases hds with
    | zero word =>
      cases word.unique hzero
      exact hc (hcloses.head? hletter.head?)
    | digits digits first => exact first (digits.head?.symm.trans hword.head?)

theorem reads_integer :
    Reads integer (fun s n s' => Integer s n s' ∧ Limits.ofReader.integer n) Closes := by
  have hhex : Reads (basedInteger 'x' 16 isHexDigit) (Based 'x' 16 IsHexDigit) Closes :=
    reads_basedInteger (fun _ => isHexDigit_iff) (forall_close (by decide)) (by decide)
  have hoctal : Reads (basedInteger 'o' 8 fun c => '0' ≤ c && c ≤ '7') (Based 'o' 8 IsOctalDigit)
      Closes :=
    reads_basedInteger (fun c => by simp [IsOctalDigit]) (forall_close (by decide)) (by decide)
  have hbinary : Reads (basedInteger 'b' 2 fun c => c = '0' || c = '1') (Based 'b' 2 IsBinaryDigit)
      Closes :=
    reads_basedInteger (fun c => by simp [IsBinaryDigit]) (forall_close (by decide)) (by decide)
  have hletter {s s₁ s₂ : Cursor} {c d : Char} (hc : Word ['0', c] s () s₁)
      (hd : Word ['0', d] s () s₂) : c = d := by
    have h := hc.1.symm.trans hd.1
    simp only [List.cons_append, List.cons.injEq] at h
    exact h.2.1
  have hsmall := hbinary.orElse reads_decimalInteger fun ⟨_, _, hword, _⟩ hplain =>
    not_plain_of_letter hword (by decide) hplain
  have hmiddle := hoctal.orElse hsmall fun ⟨_, _, hword, _⟩ h hcloses => by
    rcases h with ⟨_, _, hword', -⟩ | hplain
    · exact absurd (hletter hword hword') (by decide)
    · exact not_plain_of_letter hword (by decide) hplain hcloses
  refine (hhex.orElse hmiddle fun ⟨_, _, hword, _⟩ h hcloses => ?_).congr fun s n s' => ?_
  · rcases h with ⟨_, _, hword', -⟩ | ⟨_, _, hword', -⟩ | hplain
    · exact absurd (hletter hword hword') (by decide)
    · exact absurd (hletter hword hword') (by decide)
    · exact not_plain_of_letter hword (by decide) hplain hcloses
  · constructor
    · rintro (⟨s₁, ds, hword, hds, rfl, hn⟩ | ⟨s₁, ds, hword, hds, rfl, hn⟩ |
        ⟨s₁, ds, hword, hds, rfl, hn⟩ | ⟨negative, s₁, ds, hsign, hds, rfl, hn⟩)
      · exact ⟨.hex hword hds, hn⟩
      · exact ⟨.octal hword hds, hn⟩
      · exact ⟨.binary hword hds, hn⟩
      · exact ⟨.decimal hsign hds, hn⟩
    · rintro ⟨h, hn⟩
      cases h with
      | hex base digits => exact .inl ⟨_, _, base, digits, rfl, hn⟩
      | octal base digits => exact .inr (.inl ⟨_, _, base, digits, rfl, hn⟩)
      | binary base digits => exact .inr (.inr (.inl ⟨_, _, base, digits, rfl, hn⟩))
      | decimal sign digits => exact .inr (.inr (.inr ⟨_, _, _, sign, digits, rfl, hn⟩))

theorem consumes_integer : Consumes Integer := by
  intro s n s' h
  cases h with
  | decimal sign digits =>
    have := sign.length_le
    have := consumes_whole digits
    omega
  | hex base digits | octal base digits | binary base digits =>
    have := base.length_lt
    have := consumes_digits digits
    omega

/-! ### Floats -/

theorem reads_exponent : Reads exponent Exponent (Ends IsNumeral) := by
  have hmark : Exact (char fun c => c = 'e' || c = 'E') (Single fun c => c = 'e' ∨ c = 'E') :=
    exact_char fun c => by simp
  refine ⟨fun {s n s'} h => ?_, fun {s n s'} h hends => ?_⟩
  · simp only [exponent, bind_eq_some_iff, pure_eq_some_iff, hmark.iff] at h
    obtain ⟨letter, s₁, hletter, negative, s₂, hsign, ds, _, hds, rfl, rfl⟩ := h
    exact .intro hletter (reads_sign.sound hsign) (reads_decimalRun.sound hds)
  · cases h with
    | @intro _ s₁ s₂ _ letter negative ds mark hsign digits =>
      have hends₂ := ends_isSign_of_isDigit digits.exists_head?
      simp only [exponent, bind_eq_some_iff, pure_eq_some_iff, hmark.iff]
      exact ⟨letter, s₁, mark, negative, s₂, reads_sign.complete hsign hends₂, ds, s',
        reads_decimalRun.complete digits hends, rfl, rfl⟩

theorem Grammar.Exponent.head? (h : Exponent s n s') :
    ∃ c, s.rest.head? = some c ∧ (c = 'e' ∨ c = 'E') := by
  cases h with
  | intro mark _ _ => exact ⟨_, mark.head?, mark.1⟩

theorem consumes_exponent : Consumes Exponent := by
  intro s n s' h
  cases h with
  | intro mark sign digits =>
    have := consumes_single _ mark
    have := sign.length_le
    have := consumes_digits digits
    omega

/-- What follows the whole part of a decimal: an exponent, or places and perhaps an exponent. -/
inductive AfterWhole : Production (List Char × Int) where
  | exponent {s s' : Cursor} {power : Int} (exponent : Exponent s power s') :
    AfterWhole s ([], power) s'
  | fraction {s s₁ s₂ s' : Cursor} {places : List Char} {power : Option Int}
    (point : Word ['.'] s () s₁) (fraction : Digits IsDigit s₁ places s₂)
    (exponent : Maybe Exponent s₂ power s') : AfterWhole s (places, power.getD 0) s'

/-- What is read after the whole part of a decimal. -/
def afterWhole : Scan (List Char × Int) :=
  (do return ([], ← exponent)) <|>
  (do
    exactly ['.']
    let places ← digitRun Char.isDigit
    return (places, (← orNone exponent).getD 0))

theorem Closes.exponent_eq_none (h : Closes s) : exponent s = none := by
  refine reads_exponent.eq_none fun n s' hexponent => ?_
  obtain ⟨c, hc, hletter⟩ := hexponent.head?
  exact forall_close (P := fun c => ¬ (c = 'e' ∨ c = 'E')) (by decide) c (h.head? hc) hletter

theorem reads_afterWhole : Reads afterWhole AfterWhole Closes := by
  refine ⟨fun {s x s'} h => ?_, fun {s x s'} h hcloses => ?_⟩
  · simp only [afterWhole, orElse_eq_some_iff, bind_eq_some_iff, exactly_eq_some_iff,
      pure_eq_some_iff] at h
    rcases h with ⟨power, _, hpower, rfl, rfl⟩ |
      ⟨-, _, s₁, hpoint, places, s₂, hplaces, power, _, hpower, rfl, rfl⟩
    · exact .exponent (reads_exponent.sound hpower)
    · exact .fraction hpoint (reads_decimalRun.sound hplaces) (reads_exponent.orNone.sound hpower)
  · have hends : Ends IsNumeral s' := hcloses.ends not_isNumeral_of_close
    simp only [afterWhole, orElse_eq_some_iff, bind_eq_some_iff, exactly_eq_some_iff,
      pure_eq_some_iff]
    cases h with
    | exponent hexponent =>
      exact .inl ⟨_, s', reads_exponent.complete hexponent hends, rfl, rfl⟩
    | @fraction _ s₁ s₂ _ places power point fraction hexponent =>
      have hplaces : Ends IsNumeral s₂ := by
        cases hexponent with
        | none => exact hends
        | some only =>
          obtain ⟨c, hc, hletter⟩ := only.head?
          refine ends_of_head? hc ?_
          rcases hletter with rfl | rfl <;> decide
      refine .inr ⟨bind_of_none (reads_exponent.eq_none fun _ _ hno => ?_), (), s₁, point, places, s₂,
        reads_decimalRun.complete fraction hplaces, power, s',
        reads_exponent.orNone.complete hexponent ⟨hends, hcloses.exponent_eq_none⟩, rfl, rfl⟩
      obtain ⟨c, hc, hletter⟩ := hno.head?
      rw [Option.some.inj (hc.symm.trans point.head?)] at hletter
      simp at hletter

theorem decimal_iff :
    DecimalFloat s x s' ↔ ∃ negative s₁ whole s₂ places power, Sign s negative s₁ ∧ Whole s₁ whole s₂ ∧
      AfterWhole s₂ (places, power) s' ∧ x = Literal.number ⟨negative, whole, places, power⟩ := by
  constructor
  · intro h
    cases h with
    | exponent sign digits exponent =>
      exact ⟨_, _, _, _, _, _, sign, digits, .exponent exponent, rfl⟩
    | fraction sign digits point fraction exponent =>
      exact ⟨_, _, _, _, _, _, sign, digits, .fraction point fraction exponent, rfl⟩
  · rintro ⟨negative, s₁, whole, s₂, places, power, hsign, hwhole, h, rfl⟩
    cases h with
    | exponent hexponent => exact .exponent hsign hwhole hexponent
    | fraction point fraction hexponent => exact .fraction hsign hwhole point fraction hexponent

theorem AfterWhole.head? {places : List Char × Int} (h : AfterWhole s places s') :
    ∃ c, s.rest.head? = some c ∧ (c = 'e' ∨ c = 'E' ∨ c = '.') := by
  cases h with
  | exponent hexponent =>
    obtain ⟨c, hc, hletter⟩ := hexponent.head?
    exact ⟨c, hc, hletter.imp_right .inl⟩
  | fraction point _ _ => exact ⟨'.', point.head?, .inr (.inr rfl)⟩

theorem reads_decimalFloat :
    Reads decimalFloat (fun s x s' => DecimalFloat s x s' ∧ Limits.ofReader.decimal x) Closes := by
  have hdef : decimalFloat = (do
      let negative ← sign
      let whole ← decimalDigits
      let after ← afterWhole
      let x := Literal.number ⟨negative, whole, after.1, after.2⟩
      require (x ≠ .infinite false)
      return x) := rfl
  refine ⟨fun {s x s'} h => ?_, fun {s x s'} h hcloses => ?_⟩
  · simp only [hdef, bind_eq_some_iff, require_eq_some_iff, pure_eq_some_iff, decide_eq_true_eq] at h
    obtain ⟨negative, s₁, hsign, whole, s₂, hwhole, ⟨places, power⟩, s₃, hafter, _, _, ⟨hx, rfl⟩, rfl,
      rfl⟩ := h
    exact ⟨decimal_iff.mpr ⟨negative, s₁, whole, s₂, places, power, reads_sign.sound hsign,
      reads_decimalDigits.sound hwhole, reads_afterWhole.sound hafter, rfl⟩, hx⟩
  · obtain ⟨hdecimal, hx⟩ := h
    obtain ⟨negative, s₁, whole, s₂, places, power, hsign, hwhole, hafter, rfl⟩ :=
      decimal_iff.mp hdecimal
    have hends : Ends IsNumeral s₂ := by
      obtain ⟨c, hc, hletter⟩ := hafter.head?
      refine ends_of_head? hc ?_
      rcases hletter with rfl | rfl | rfl <;> decide
    simp only [hdef, bind_eq_some_iff, require_eq_some_iff, pure_eq_some_iff, decide_eq_true_eq]
    exact ⟨negative, s₁, reads_sign.complete hsign (ends_isSign_of_isDigit hwhole.head?), whole, s₂,
      reads_decimalDigits.complete hwhole hends, (places, power), s',
      reads_afterWhole.complete hafter hcloses, (), s', ⟨hx, rfl⟩, rfl, rfl⟩

theorem exact_specialFloat : Exact specialFloat SpecialFloat := by
  refine exact_of_iff fun s x s' => ?_
  simp only [specialFloat, orElse_eq_some_iff, bind_eq_some_iff, exactly_eq_some_iff,
    pure_eq_some_iff]
  have hsign {s₁ : Cursor} {negative : Bool} (h : Sign s negative s₁)
      (hhead : s₁.rest.head? = some 'i' ∨ s₁.rest.head? = some 'n') :
      sign s = some (negative, s₁) := by
    refine reads_sign.complete h ?_
    rcases hhead with h | h <;> exact ends_of_head? h (by simp [IsSign])
  constructor
  · rintro ⟨negative, s₁, hsign, ⟨_, _, hword, rfl, rfl⟩ | ⟨-, _, _, hword, rfl, rfl⟩⟩
    · exact .infinite (reads_sign.sound hsign) hword
    · exact .nan (reads_sign.sound hsign) hword
  · intro h
    cases h with
    | infinite sign word =>
      exact ⟨_, _, hsign sign (.inl word.head?), .inl ⟨(), s', word, rfl, rfl⟩⟩
    | nan sign word =>
      refine ⟨_, _, hsign sign (.inr word.head?), .inr ⟨bind_of_none ?_, (), s', word, rfl, rfl⟩⟩
      exact (exact_word _).eq_none fun _ _ hinf => by simpa using hinf.head?.symm.trans word.head?

theorem consumes_decimalFloat : Consumes DecimalFloat := by
  intro s x s' h
  cases h with
  | exponent sign digits exponent =>
    have := sign.length_le
    have := consumes_whole digits
    have := consumes_exponent exponent
    omega
  | fraction sign digits point fraction exponent =>
    have := sign.length_le
    have := consumes_whole digits
    have := point.length_lt
    have := consumes_digits fraction
    have := exponent.length_le consumes_exponent
    omega

theorem consumes_specialFloat : Consumes SpecialFloat := by
  intro s x s' h
  cases h with
  | infinite sign word | nan sign word =>
    have := sign.length_le
    have := word.length_lt
    omega

end Markup.Toml
