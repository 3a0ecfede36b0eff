import Markup.Proofs.Toml.Texts

/-!
# Keys are read by the grammar

The scans for keys against their productions. A key takes the blanks around its parts, so it ends where
neither a blank nor a character of a key comes next.
-/

namespace Markup.Toml

open Grammar Scan

variable {s s' : Cursor} {c : Char} {cs : List Char}

theorem reads_bareKey :
    Reads bareKey (fun s cs s' => cs ≠ [] ∧ Many (Single IsBareKeyChar) s cs s')
      (Ends IsBareKeyChar) := by
  refine ⟨fun h => ?_, fun ⟨hne, hcs⟩ hends => ?_⟩
  · simp only [bareKey, bind_eq_some_iff, require_eq_some_iff, pure_eq_some_iff, decide_eq_true_eq,
      chars_eq_some_iff fun _ => isBareKeyChar_iff] at h
    obtain ⟨cs, s₁, ⟨hcs, -⟩, _, _, ⟨hne, rfl⟩, rfl, rfl⟩ := h
    exact ⟨hne, hcs⟩
  · simp only [bareKey, bind_eq_some_iff, require_eq_some_iff, pure_eq_some_iff, decide_eq_true_eq,
      chars_eq_some_iff fun _ => isBareKeyChar_iff]
    exact ⟨_, _, ⟨hcs, hends⟩, (), _, ⟨hne, rfl⟩, rfl, rfl⟩

/-- A character that a part of a key may begin with. -/
def IsKeyStart (c : Char) : Prop := IsMark c ∨ IsBareKeyChar c

instance : DecidablePred IsKeyStart := fun _ => inferInstanceAs (Decidable (_ ∨ _))

theorem Grammar.SimpleKey.head? (h : SimpleKey s cs s') :
    ∃ c, s.rest.head? = some c ∧ IsKeyStart c := by
  cases h with
  | bare some chars =>
    obtain ⟨c, _, hc⟩ := chars.exists_first some
    exact ⟨c, hc.head?, .inr hc.1⟩
  | basic text => exact ⟨_, text.head?, .inl (.inl rfl)⟩
  | literal text => exact ⟨_, text.head?, .inl (.inr rfl)⟩

theorem reads_simpleKey :
    Reads (basicText <|> literalText <|> bareKey) SimpleKey (Ends IsBareKeyChar) := by
  have hbasic : Reads basicText BasicText (Ends IsBareKeyChar) := exact_basicText.reads _
  have hliteral : Reads literalText LiteralText (Ends IsBareKeyChar) := exact_literalText.reads _
  -- no mark may stand in a key that is not quoted
  have hmark {s s' : Cursor} {cs : List Char} {c : Char} (hc : s.rest.head? = some c) (hm : IsMark c)
      (h : cs ≠ [] ∧ Many (Single IsBareKeyChar) s cs s') : False := by
    obtain ⟨d, _, hd⟩ := h.2.exists_first h.1
    have hbare := hd.1
    rw [Option.some.inj (hd.head?.symm.trans hc)] at hbare
    rcases hm with rfl | rfl <;> revert hbare <;> simp [IsBareKeyChar, IsDigit]
  have hothers := hliteral.orElse reads_bareKey fun hone h _ => hmark hone.head? (.inr rfl) h
  refine (hbasic.orElse hothers fun hone h _ => ?_).congr fun s cs s' => ?_
  · rcases h with h | h
    · simpa using hone.head?.symm.trans h.head?
    · exact hmark hone.head? (.inl rfl) h
  · constructor
    · rintro (h | h | ⟨hne, h⟩)
      · exact .basic h
      · exact .literal h
      · exact .bare hne h
    · intro h
      cases h with
      | basic text => exact .inl text
      | literal text => exact .inr (.inl text)
      | bare some chars => exact .inr (.inr ⟨some, chars⟩)

theorem consumes_simpleKey : Consumes SimpleKey := by
  intro s cs s' h
  cases h with
  | bare some chars =>
    have := chars.length_le (consumes_single _)
    have := List.length_pos_iff.mpr some
    omega
  | basic text => exact consumes_basicText text
  | literal text => exact consumes_literalText text

theorem consumes_keyPart : Consumes KeyPart := by
  intro s k s' h
  cases h with
  | intro before key after =>
    have := before.length_le
    have := consumes_simpleKey key
    have := after.length_le
    omega

/-- A character that a key may go on with. -/
def IsKeyChar (c : Char) : Prop := IsBareKeyChar c ∨ IsBlank c

instance : DecidablePred IsKeyChar := fun _ => inferInstanceAs (Decidable (_ ∨ _))

theorem not_isBlank_of_isKeyStart (h : IsKeyStart c) : ¬ IsBlank c := by
  rintro (rfl | rfl) <;> simp [IsKeyStart, IsMark, IsBareKeyChar, IsDigit] at h

theorem reads_keyPart : Reads simpleKey KeyPart (Ends IsKeyChar) := by
  refine ⟨fun {s k s'} h => ?_, fun {s k s'} h hends => ?_⟩
  · simp only [simpleKey, bind_eq_some_iff, located_eq_some_iff, pure_eq_some_iff] at h
    obtain ⟨_, s₁, hbefore, ⟨span, cs⟩, s₂, ⟨hkey, rfl⟩, _, s₃, hafter, rfl, rfl⟩ := h
    exact .intro (reads_blanks.sound hbefore) (reads_simpleKey.sound hkey) (reads_blanks.sound hafter)
  · cases h with
    | @intro _ s₁ s₂ _ cs before key after =>
      have hbefore : Ends IsBlank s₁ := by
        obtain ⟨c, hc, hstart⟩ := key.head?
        exact ends_of_head? hc (not_isBlank_of_isKeyStart hstart)
      have hbare : Ends IsBareKeyChar s₂ := by
        rcases after.head? with rfl | ⟨c, hc, hblank⟩
        · exact hends.mono fun _ => .inl
        · refine ends_of_head? hc ?_
          rcases hblank with rfl | rfl <;> simp [IsBareKeyChar, IsDigit]
      simp only [simpleKey, bind_eq_some_iff, located_eq_some_iff, pure_eq_some_iff]
      exact ⟨(), s₁, reads_blanks.complete before hbefore, (s₁.to s₂, cs), s₂,
        ⟨reads_simpleKey.complete key hbare, rfl⟩, (), s',
        reads_blanks.complete after (hends.mono fun _ => .inr), rfl, rfl⟩

theorem reads_key :
    Reads key (DottedKey .ofReader) (Ends fun c => IsKeyChar c ∨ c = '.') := by
  have hdot {s s' : Cursor} (hword : Word ['.'] s () s') : Ends IsKeyChar s :=
    ends_of_head? hword.head? (by simp [IsKeyChar, IsBareKeyChar, IsBlank, IsDigit])
  have hparts := reads_keyPart.separated consumes_keyPart hdot
  refine ⟨fun {s k s'} h => ?_, fun {s k s'} h hends => ?_⟩
  · simp only [key, bind_eq_some_iff, require_eq_some_iff, decide_eq_true_eq] at h
    obtain ⟨parts, s₁, hparts', _, _, ⟨hfew, rfl⟩, h⟩ := h
    cases hlast : parts.getLast? with
    | none =>
      rw [hlast] at h
      exact absurd h not_failure
    | some last =>
      rw [hlast] at h
      obtain ⟨rfl, rfl⟩ := pure_eq_some_iff.mp h
      obtain ⟨path, rfl⟩ := List.getLast?_eq_some_iff.mp hlast
      rw [List.length_append, List.length_singleton] at hfew
      rw [List.dropLast_concat]
      exact .intro (hparts.sound hparts') hfew
  · cases h with
    | @intro _ _ path last parts few =>
      have hmark : (do let _ ← exactly ['.']; simpleKey) s' = none :=
        bind_of_none ((exact_word _).eq_none fun _ _ hword => hends _ hword.head? (.inr rfl))
      simp only [key, bind_eq_some_iff, require_eq_some_iff, decide_eq_true_eq]
      refine ⟨path ++ [last], s', hparts.complete parts ⟨hends.mono fun _ => .inl, hmark⟩, (), s',
        ⟨?_, rfl⟩, ?_⟩
      · rw [List.length_append, List.length_singleton]
        exact few
      · simp only [List.getLast?_concat, List.dropLast_concat]
        exact pure_eq_some_iff.mpr ⟨rfl, rfl⟩

/-- A key begins with a blank or with its first part. -/
theorem Grammar.DottedKey.head? {limits : Limits} {k : List Key × Key} (h : DottedKey limits s k s') :
    ∃ c, s.rest.head? = some c ∧ (IsBlank c ∨ IsKeyStart c) := by
  cases h with
  | intro parts _ =>
    obtain ⟨_, _, _, -, hfirst, -⟩ := parts.exists_many
    cases hfirst with
    | intro before key _ =>
      rcases before.head? with rfl | ⟨c, hc, hblank⟩
      · obtain ⟨c, hc, hstart⟩ := key.head?
        exact ⟨c, hc, .inr hstart⟩
      · exact ⟨c, hc, .inl hblank⟩

theorem consumes_dottedKey (limits : Limits) : Consumes (DottedKey limits) := by
  intro s k s' h
  cases h with
  | intro parts _ => exact parts.length_lt consumes_keyPart

end Markup.Toml
