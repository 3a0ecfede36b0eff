import Markup.Proofs.Toml.Dates

/-!
# Scalars are read by the grammar

The scan for values that are neither arrays nor tables against its production. No two kinds of scalars
begin at one place: a text, a truth value and a float by its name are known by their first character,
and what comes after the whole part of a number is not the same for integers, floats and dates
(`Integer.whole`).
-/

namespace Markup.Toml

open Grammar Scan

variable {s s₁ s' : Cursor} {c : Char} {cs ds : List Char} {n : Int} {x : Number} {u : Unit}

/-! ### Numbers apart -/

/-- A character by which a number goes on, or a date or a time. -/
def IsContinued (c : Char) : Prop := IsNumeral c ∨ c ∈ ['-', ':', 'e', 'E', '.']

instance : DecidablePred IsContinued := fun _ => inferInstanceAs (Decidable (_ ∨ _))

/-- The whole part of an integer, a zero before the letter of a base included. -/
theorem Grammar.Integer.whole (h : Integer s n s') (hcloses : Closes s') :
    ∃ negative s₁ ds s₂, Sign s negative s₁ ∧ Whole s₁ ds s₂ ∧ Ends IsContinued s₂ := by
  have hbased {c : Char} {s₁ : Cursor} (hword : Word ['0', c] s () s₁) (hc : ¬ IsContinued c) :
      ∃ negative s₁ ds s₂, Sign s negative s₁ ∧ Whole s₁ ds s₂ ∧ Ends IsContinued s₂ := by
    obtain ⟨s₂, hzero, hletter⟩ := word_cons_iff.mp hword
    exact ⟨false, s, ['0'], s₂, .none, .zero hzero, ends_of_head? hletter.head? hc⟩
  cases h with
  | decimal sign digits =>
    exact ⟨_, _, _, s', sign, digits, hcloses.ends (forall_close (by decide))⟩
  | hex base _ => exact hbased base (by decide)
  | octal base _ => exact hbased base (by decide)
  | binary base _ => exact hbased base (by decide)

theorem Grammar.DecimalFloat.whole (h : DecimalFloat s x s') :
    ∃ negative s₁ ds s₂ c, Sign s negative s₁ ∧ Whole s₁ ds s₂ ∧ s₂.rest.head? = some c ∧
      (c = 'e' ∨ c = 'E' ∨ c = '.') := by
  obtain ⟨negative, s₁, ds, s₂, places, power, hsign, hwhole, hafter, -⟩ := decimal_iff.mp h
  obtain ⟨c, hc, hletter⟩ := hafter.head?
  exact ⟨negative, s₁, ds, s₂, c, hsign, hwhole, hc, hletter⟩

theorem Grammar.SpecialFloat.sign (h : SpecialFloat s x s') :
    ∃ negative s₁ c, Sign s negative s₁ ∧ s₁.rest.head? = some c ∧ (c = 'i' ∨ c = 'n') := by
  cases h with
  | infinite sign word => exact ⟨_, _, _, sign, word.head?, .inl rfl⟩
  | nan sign word => exact ⟨_, _, _, sign, word.head?, .inr rfl⟩

/-- What comes after a sign is settled if it is no sign. -/
theorem Grammar.Sign.unique {negative negative' : Bool} (h : Sign s negative s₁)
    (h' : Sign s negative' s') (hends : Ends IsSign s₁) (hends' : Ends IsSign s') : s₁ = s' :=
  (reads_sign.unique h h' hends hends').2

theorem not_integer_of_decimalFloat {s'' : Cursor} (hfloat : DecimalFloat s x s'')
    (hcloses : Closes s') : ¬ Integer s n s' := by
  intro hinteger
  obtain ⟨_, _, _, s₂, hsign, hwhole, hends⟩ := hinteger.whole hcloses
  obtain ⟨_, _, _, s₃, c, hsign', hwhole', hc, hletter⟩ := hfloat.whole
  cases hsign.unique hsign' (ends_isSign_of_isDigit hwhole.head?)
    (ends_isSign_of_isDigit hwhole'.head?)
  have hnumeral : Ends IsNumeral s₃ := by
    refine ends_of_head? hc ?_
    rcases hletter with rfl | rfl | rfl <;> decide
  obtain ⟨-, rfl⟩ := reads_decimalDigits.unique hwhole hwhole' (hends.mono fun _ => .inl) hnumeral
  refine hends c hc (.inr ?_)
  rcases hletter with rfl | rfl | rfl <;> decide

/-- A float by its name has no digit where a number has its first. -/
theorem not_whole_of_specialFloat {s₂ : Cursor} {negative : Bool} (hfloat : SpecialFloat s x s')
    (hsign : Sign s negative s₁) : ¬ Whole s₁ ds s₂ := by
  intro hwhole
  obtain ⟨_, s₃, c, hsign', hc, hletter⟩ := hfloat.sign
  have hends : Ends IsSign s₃ := by
    refine ends_of_head? hc ?_
    rcases hletter with rfl | rfl <;> simp [IsSign]
  cases hsign.unique hsign' (ends_isSign_of_isDigit hwhole.head?) hends
  obtain ⟨d, hd, hdigit⟩ := hwhole.head?
  rw [← Option.some.inj (hc.symm.trans hd)] at hdigit
  rcases hletter with rfl | rfl <;> exact absurd hdigit (by decide)

theorem not_dateTime_of_integer {s'' : Cursor} (hinteger : Integer s n s') (hcloses : Closes s') :
    ¬ DateTime s u s'' := by
  obtain ⟨_, _, _, _, hsign, hwhole, hends⟩ := hinteger.whole hcloses
  refine not_dateTime_of_whole hsign hwhole (hends.mono fun c hc => ?_)
  rcases hc with h | rfl | rfl
  · exact .inl h
  · exact .inr (by decide)
  · exact .inr (by decide)

theorem not_dateTime_of_decimalFloat {s'' : Cursor} (hfloat : DecimalFloat s x s') :
    ¬ DateTime s u s'' := by
  obtain ⟨_, _, _, _, c, hsign, hwhole, hc, hletter⟩ := hfloat.whole
  refine not_dateTime_of_whole hsign hwhole (ends_of_head? hc ?_)
  rcases hletter with rfl | rfl | rfl <;> decide

theorem not_dateTime_of_specialFloat {s'' : Cursor} (hfloat : SpecialFloat s x s') :
    ¬ DateTime s u s'' := by
  intro h
  obtain ⟨d, hd, hdigit⟩ := h.head?
  obtain ⟨_, _, c, hsign, hc, hletter⟩ := hfloat.sign
  cases hsign with
  | plus word | minus word =>
    rw [← Option.some.inj (word.head?.symm.trans hd)] at hdigit
    exact absurd hdigit (by decide)
  | none =>
    rw [← Option.some.inj (hc.symm.trans hd)] at hdigit
    rcases hletter with rfl | rfl <;> exact absurd hdigit (by decide)

/-! ### First characters -/

/-- A character that a number, a date or a float by its name may begin with. -/
def IsNumberStart (c : Char) : Prop := IsDigit c ∨ c ∈ ['+', '-', 'i', 'n']

instance : DecidablePred IsNumberStart := fun _ => inferInstanceAs (Decidable (_ ∨ _))

/-- What comes first is a sign, or what comes after it. -/
theorem Grammar.Sign.head? {negative : Bool} (h : Sign s negative s₁) (hc : s₁.rest.head? = some c)
    (hkind : IsNumberStart c) : ∃ c, s.rest.head? = some c ∧ IsNumberStart c := by
  cases h with
  | plus word => exact ⟨_, word.head?, by decide⟩
  | minus word => exact ⟨_, word.head?, by decide⟩
  | none => exact ⟨c, hc, hkind⟩

theorem Grammar.DecimalFloat.head? (h : DecimalFloat s x s') :
    ∃ c, s.rest.head? = some c ∧ IsNumberStart c := by
  obtain ⟨_, _, _, _, _, hsign, hwhole, -⟩ := h.whole
  obtain ⟨c, hc, hdigit⟩ := hwhole.head?
  exact hsign.head? hc (.inl hdigit)

theorem Grammar.SpecialFloat.head? (h : SpecialFloat s x s') :
    ∃ c, s.rest.head? = some c ∧ IsNumberStart c := by
  obtain ⟨_, _, c, hsign, hc, hletter⟩ := h.sign
  refine hsign.head? hc (.inr ?_)
  rcases hletter with rfl | rfl <;> decide

theorem Grammar.Integer.head? (h : Integer s n s') :
    ∃ c, s.rest.head? = some c ∧ IsNumberStart c := by
  cases h with
  | decimal sign digits =>
    obtain ⟨c, hc, hdigit⟩ := digits.head?
    exact sign.head? hc (.inl hdigit)
  | hex base _ | octal base _ | binary base _ => exact ⟨_, base.head?, by decide⟩

/-! ### Scalars -/

theorem reads_text :
    Reads (do let (span, said) ← located anyText; return Item.text span said)
      (fun s item s' => ∃ cs, AnyText s cs s' ∧ item = .text (s.to s') (String.ofList cs)) Closes := by
  have htext : Reads anyText (fun s said s' => ∃ cs, AnyText s cs s' ∧ said = String.ofList cs)
      Closes := by
    refine ⟨fun {s said s'} h => ?_, fun {s said s'} h hcloses => ?_⟩
    · simp only [anyText, bind_eq_some_iff, pure_eq_some_iff] at h
      obtain ⟨cs, _, hcs, rfl, rfl⟩ := h
      exact ⟨cs, reads_anyText.sound hcs, rfl⟩
    · obtain ⟨cs, hcs, rfl⟩ := h
      have hends : Ends IsMark s' := hcloses.ends (forall_close (by decide))
      simp only [anyText, bind_eq_some_iff, pure_eq_some_iff]
      exact ⟨cs, s', reads_anyText.complete hcs hends, rfl, rfl⟩
  refine htext.located.congr fun s item s' => ?_
  constructor
  · rintro ⟨_, ⟨cs, hcs, rfl⟩, rfl⟩
    exact ⟨cs, hcs, rfl⟩
  · rintro ⟨cs, hcs, rfl⟩
    exact ⟨_, ⟨cs, hcs, rfl⟩, rfl⟩

/-- A float, by its name or not. -/
def AnyFloat : Production Number := fun s x s' =>
  (DecimalFloat s x s' ∧ Limits.ofReader.decimal x) ∨ SpecialFloat s x s'

theorem reads_float : Reads (decimalFloat <|> specialFloat) AnyFloat Closes := by
  have hspecial : Reads specialFloat SpecialFloat Closes := exact_specialFloat.reads _
  refine reads_decimalFloat.orElse hspecial fun ⟨hdecimal, _⟩ h _ => ?_
  obtain ⟨_, _, _, _, _, hsign, hwhole, -⟩ := hdecimal.whole
  exact not_whole_of_specialFloat h hsign hwhole

theorem AnyFloat.head? (h : AnyFloat s x s') : ∃ c, s.rest.head? = some c ∧ IsNumberStart c := by
  rcases h with ⟨h, -⟩ | h
  · exact h.head?
  · exact h.head?

theorem AnyFloat.not_integer (h : AnyFloat s x s₁) (hcloses : Closes s') : ¬ Integer s n s' := by
  rcases h with ⟨h, -⟩ | h
  · exact not_integer_of_decimalFloat h hcloses
  · intro hinteger
    obtain ⟨_, _, _, _, hsign, hwhole, -⟩ := hinteger.whole hcloses
    exact not_whole_of_specialFloat h hsign hwhole

theorem AnyFloat.not_dateTime (h : AnyFloat s x s') : ¬ DateTime s u s₁ := by
  rcases h with ⟨h, -⟩ | h
  · exact not_dateTime_of_decimalFloat h
  · exact not_dateTime_of_specialFloat h

/-- The word of a truth value. -/
def truthWord : Bool → List Char
  | true => ['t', 'r', 'u', 'e']
  | false => ['f', 'a', 'l', 's', 'e']

theorem truthWord_head? {b : Bool} (h : Word (truthWord b) s u s') :
    s.rest.head? = some (if b then 't' else 'f') := by
  cases b <;> exact h.head?

/-- A truth value is told from what begins like a number by its first character. -/
theorem not_truthWord {b : Bool} {s'' : Cursor} (h : ∃ c, s.rest.head? = some c ∧ IsNumberStart c) :
    ¬ Word (truthWord b) s u s'' := by
  intro hword
  obtain ⟨c, hc, hstart⟩ := h
  rw [← Option.some.inj ((truthWord_head? hword).symm.trans hc)] at hstart
  cases b <;> exact absurd hstart (by decide)

theorem not_start_of_text (h : AnyText s cs s') (hc : s.rest.head? = some c) :
    ¬ (IsNumberStart c ∨ c = 't' ∨ c = 'f') := by
  rcases h.head? with h | h <;> rw [← Option.some.inj (h.symm.trans hc)] <;> decide

/-- The scalars in the order in which the scan tries them. -/
theorem scalar_iff {item : Item} : Scalar .ofReader s item s' ↔
    (∃ cs, AnyText s cs s' ∧ item = .text (s.to s') (String.ofList cs)) ∨
    (∃ u, DateTime s u s' ∧ item = .dateTime (s.to s')) ∨
    (∃ x, AnyFloat s x s' ∧ item = .float (s.to s') x) ∨
    (∃ n, (Integer s n s' ∧ Limits.ofReader.integer n) ∧ item = .integer (s.to s') n) ∨
    (∃ u, Word (truthWord true) s u s' ∧ item = .boolean (s.to s') true) ∨
    (∃ u, Word (truthWord false) s u s' ∧ item = .boolean (s.to s') false) := by
  constructor
  · intro h
    cases h with
    | text text => exact .inl ⟨_, text, rfl⟩
    | dateTime dateTime => exact .inr (.inl ⟨(), dateTime, rfl⟩)
    | decimal decimal within => exact .inr (.inr (.inl ⟨_, .inl ⟨decimal, within⟩, rfl⟩))
    | special special => exact .inr (.inr (.inl ⟨_, .inr special, rfl⟩))
    | integer integer within => exact .inr (.inr (.inr (.inl ⟨_, ⟨integer, within⟩, rfl⟩)))
    | yes word => exact .inr (.inr (.inr (.inr (.inl ⟨(), word, rfl⟩))))
    | no word => exact .inr (.inr (.inr (.inr (.inr ⟨(), word, rfl⟩))))
  · rintro (⟨cs, htext, rfl⟩ | ⟨_, hdate, rfl⟩ | ⟨x, ⟨hfloat, hx⟩ | hfloat, rfl⟩ |
      ⟨n, ⟨hinteger, hn⟩, rfl⟩ | ⟨_, hword, rfl⟩ | ⟨_, hword, rfl⟩)
    · exact .text htext
    · exact .dateTime hdate
    · exact .decimal hfloat hx
    · exact .special hfloat
    · exact .integer hinteger hn
    · exact .yes hword
    · exact .no hword

theorem reads_scalar : Reads scalar (Scalar .ofReader) Closes := by
  have hword (b : Bool) : Reads (exactly (truthWord b)) (Word (truthWord b)) Closes :=
    (exact_word _).reads _
  have hyes := (hword true).located (f := fun span _ => Item.boolean span true)
  have hno := (hword false).located (f := fun span _ => Item.boolean span false)
  have hinteger := reads_integer.located (f := Item.integer)
  have hfloat := reads_float.located (f := Item.float)
  have hdateTime := reads_dateTime.located (f := fun span _ => Item.dateTime span)
  have hbooleans := hyes.orElse hno fun ⟨_, hyes, _⟩ ⟨_, hno, _⟩ _ => by
    simpa using (truthWord_head? hyes).symm.trans (truthWord_head? hno)
  have hintegers := hinteger.orElse hbooleans fun ⟨_, ⟨h, _⟩, _⟩ hother _ => by
    rcases hother with ⟨_, hword, -⟩ | ⟨_, hword, -⟩ <;> exact not_truthWord h.head? hword
  have hnumbers := hfloat.orElse hintegers fun ⟨_, h, _⟩ hother hcloses => by
    rcases hother with ⟨_, ⟨hinteger, -⟩, -⟩ | ⟨_, hword, -⟩ | ⟨_, hword, -⟩
    · exact h.not_integer hcloses hinteger
    · exact not_truthWord h.head? hword
    · exact not_truthWord h.head? hword
  have hdates := hdateTime.orElse hnumbers fun ⟨_, h, _⟩ hother hcloses => by
    obtain ⟨c, hc, hdigit⟩ := h.head?
    rcases hother with ⟨_, hfloat, -⟩ | ⟨_, ⟨hinteger, -⟩, -⟩ | ⟨_, hword, -⟩ | ⟨_, hword, -⟩
    · exact hfloat.not_dateTime h
    · exact not_dateTime_of_integer hinteger hcloses h
    · exact not_truthWord ⟨c, hc, .inl hdigit⟩ hword
    · exact not_truthWord ⟨c, hc, .inl hdigit⟩ hword
  refine (reads_text.orElse hdates fun ⟨_, htext, _⟩ hother _ => ?_).congr fun _ _ _ => scalar_iff.symm
  rcases hother with ⟨_, h, -⟩ | ⟨_, h, -⟩ | ⟨_, ⟨h, -⟩, -⟩ | ⟨_, h, -⟩ | ⟨_, h, -⟩
  · obtain ⟨c, hc, hdigit⟩ := h.head?
    exact not_start_of_text htext hc (.inl (.inl hdigit))
  · obtain ⟨c, hc, hstart⟩ := h.head?
    exact not_start_of_text htext hc (.inl hstart)
  · obtain ⟨c, hc, hstart⟩ := h.head?
    exact not_start_of_text htext hc (.inl hstart)
  · exact not_start_of_text htext (truthWord_head? h) (.inr (.inl rfl))
  · exact not_start_of_text htext (truthWord_head? h) (.inr (.inr rfl))

end Markup.Toml
