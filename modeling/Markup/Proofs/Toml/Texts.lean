import Markup.Proofs.Toml.Scan

/-!
# Texts and keys are read by the grammar

The scans for blanks, line ends, comments, texts and keys against their productions. All but blanks,
comments and keys that are not quoted have an end of their own; a text over several lines must not be
followed by one more of its marks. That a repetition ends where its production does is seen from the
character that comes next.
-/

namespace Markup.Toml

open Grammar Scan

variable {s s' : Cursor} {c : Char} {cs : List Char}

/-! ### Kinds of characters -/

theorem isBlank_iff : isBlank c = true ↔ IsBlank c := by simp [isBlank, IsBlank]

theorem isCommentChar_iff : isCommentChar c = true ↔ IsPrinted c := by
  simp [isCommentChar, IsPrinted]

theorem isBasicChar_iff : isBasicChar c = true ↔ IsPrinted c ∧ c ≠ '"' ∧ c ≠ '\\' := by
  simp [isBasicChar, isCommentChar_iff, and_assoc]

theorem isLiteralChar_iff : isLiteralChar c = true ↔ IsPrinted c ∧ c ≠ '\'' := by
  simp [isLiteralChar, isCommentChar_iff]

theorem isDigit_iff : c.isDigit = true ↔ IsDigit c := by
  simp [Char.isDigit, IsDigit, Char.le_def]

theorem isHexDigit_iff : isHexDigit c = true ↔ IsHexDigit c := by
  simp [isHexDigit, IsHexDigit, isDigit_iff, or_assoc]

theorem isBareKeyChar_iff : isBareKeyChar c = true ↔ IsBareKeyChar c := by
  have hupper : c.isUpper = true ↔ 'A' ≤ c ∧ c ≤ 'Z' := decide_eq_true_iff
  have hlower : c.isLower = true ↔ 'a' ≤ c ∧ c ≤ 'z' :=
    (Bool.and_eq_true _ _).to_iff.trans (and_congr decide_eq_true_iff decide_eq_true_iff)
  have halphanum : c.isAlphanum = (c.isUpper || c.isLower || c.isDigit) := rfl
  simp [isBareKeyChar, IsBareKeyChar, halphanum, hupper, hlower, isDigit_iff, or_assoc]

/-! ### Blanks, line ends and comments -/

theorem blanks_eq_some_iff {u : Unit} :
    blanks s = some (u, s') ↔ Blanks s () s' ∧ Ends IsBlank s' := by
  simp only [blanks, bind_eq_some_iff, pure_eq_some_iff, chars_eq_some_iff fun _ => isBlank_iff, Blanks]
  constructor
  · rintro ⟨cs, _, ⟨hcs, hends⟩, -, rfl⟩
    exact ⟨⟨cs, hcs⟩, hends⟩
  · rintro ⟨⟨cs, hcs⟩, hends⟩
    exact ⟨cs, s', ⟨hcs, hends⟩, trivial, rfl⟩

theorem reads_blanks : Reads blanks Blanks (Ends IsBlank) :=
  ⟨fun h => (blanks_eq_some_iff.mp h).1, fun h hends => blanks_eq_some_iff.mpr ⟨h, hends⟩⟩

theorem Grammar.Newline.head? {u : Unit} (h : Newline s u s') :
    s.rest.head? = some '\n' ∨ s.rest.head? = some '\r' := by
  cases h with
  | lf word => exact .inl word.head?
  | crlf word => exact .inr word.head?

theorem consumes_newline : Consumes Newline := by
  intro s _ s' h
  cases h with
  | lf word | crlf word =>
    rw [word.length]
    simp

theorem consumes_comment : Consumes Comment := by
  intro s _ s' h
  cases h with
  | intro hash said =>
    have := hash.length_lt
    have := said.length_le (consumes_single _)
    omega

theorem exact_newline : Exact newline Newline := by
  refine exact_of_iff fun s _ s' => ?_
  rw [newline, orElse_eq_some_iff, exactly_eq_some_iff, exactly_eq_some_iff]
  constructor
  · rintro (h | ⟨-, h⟩)
    · exact .lf h
    · exact .crlf h
  · intro h
    cases h with
    | lf word => exact .inl word
    | crlf word =>
      refine .inr ⟨(exact_word _).eq_none fun _ _ hlf => ?_, word⟩
      simpa using hlf.head?.symm.trans word.head?

theorem reads_comment : Reads comment Comment (Ends IsPrinted) := by
  constructor
  · intro s _ s' h
    simp only [comment, bind_eq_some_iff, exactly_eq_some_iff, pure_eq_some_iff,
      chars_eq_some_iff fun _ => isCommentChar_iff] at h
    obtain ⟨_, s₁, hhash, cs, _, ⟨hcs, -⟩, -, rfl⟩ := h
    exact .intro hhash hcs
  · intro s _ s' h hends
    cases h with
    | intro hash said =>
      simp only [comment, bind_eq_some_iff, exactly_eq_some_iff, pure_eq_some_iff,
        chars_eq_some_iff fun _ => isCommentChar_iff]
      exact ⟨(), _, hash, _, _, ⟨said, hends⟩, trivial, rfl⟩

theorem Grammar.Comment.head? {u : Unit} (h : Comment s u s') : s.rest.head? = some '#' := by
  cases h with
  | intro hash _ => exact hash.head?

theorem Grammar.Blanks.head? {u : Unit} (h : Blanks s u s') :
    s' = s ∨ ∃ c, s.rest.head? = some c ∧ IsBlank c := by
  obtain ⟨cs, h⟩ := h
  cases h with
  | nil => exact .inl rfl
  | cons first _ => exact .inr ⟨_, first.head?, first.1⟩

theorem Grammar.Blanks.length_le {u : Unit} (h : Blanks s u s') : s'.rest.length ≤ s.rest.length := by
  obtain ⟨cs, h⟩ := h
  have := h.length_le (consumes_single _)
  omega

/-- Blanks reach to one place that is not blank at most. -/
theorem Grammar.Blanks.unique {s'' : Cursor} (h : Blanks s () s') (h' : Blanks s () s'')
    (hends : Ends IsBlank s') (hends' : Ends IsBlank s'') : s' = s'' :=
  (reads_blanks.unique h h' hends hends').2

/-- A line end, with blanks and a comment before it. -/
def BlankLine : Production Unit := fun s _ s' =>
  ∃ s₁ s₂ found, Blanks s () s₁ ∧ Maybe Comment s₁ found s₂ ∧ Newline s₂ () s'

theorem ends_of_newline {kind : Char → Prop} {u : Unit} (h : Newline s u s') (hlf : ¬ kind '\n')
    (hcr : ¬ kind '\r') : Ends kind s := by
  rcases h.head? with h | h
  · exact ends_of_head? h hlf
  · exact ends_of_head? h hcr

theorem comment_eq_none (h : s.rest.head? ≠ some '#') : comment s = none :=
  reads_comment.eq_none fun _ _ hcomment => h hcomment.head?

/-- A comment that may be left out, in front of what is not one. -/
theorem orNone_comment_eq_some_iff {found : Option Unit} (hends : Ends IsPrinted s') :
    orNone comment s = some (found, s') ↔ Maybe Comment s found s' := by
  refine ⟨reads_comment.orNone.sound, fun h => reads_comment.orNone.complete h ⟨hends, ?_⟩⟩
  refine comment_eq_none fun hhash => hends _ hhash ?_
  exact .inr (by decide)

theorem exact_blankLine :
    Exact (do blanks; let _ ← orNone comment; newline) BlankLine := by
  refine exact_of_iff fun s _ s' => ?_
  simp only [bind_eq_some_iff, blanks_eq_some_iff, exact_newline.iff]
  constructor
  · rintro ⟨_, s₁, ⟨hblanks, -⟩, found, s₂, hfound, hnewline⟩
    exact ⟨s₁, s₂, found, hblanks, reads_comment.orNone.sound hfound, hnewline⟩
  · rintro ⟨s₁, s₂, found, hblanks, hfound, hnewline⟩
    have hends : Ends IsBlank s₁ := by
      cases hfound with
      | none => exact ends_of_newline hnewline (by simp [IsBlank]) (by simp [IsBlank])
      | some hcomment => exact ends_of_head? hcomment.head? (by simp [IsBlank])
    have hprinted : Ends IsPrinted s₂ :=
      ends_of_newline hnewline (by simp [IsPrinted]) (by simp [IsPrinted])
    exact ⟨(), s₁, ⟨hblanks, hends⟩, found, s₂,
      (orNone_comment_eq_some_iff hprinted).mpr hfound, hnewline⟩

theorem consumes_blankLine : Consumes BlankLine := by
  rintro s _ s' ⟨s₁, s₂, found, hblanks, hfound, hnewline⟩
  have := hblanks.length_le
  have := hfound.length_le consumes_comment
  have := consumes_newline hnewline
  omega

/-- A character that may stand in a gap between values. -/
def IsGap (c : Char) : Prop := IsBlank c ∨ c = '#' ∨ c = '\n' ∨ c = '\r'

instance : DecidablePred IsGap := fun _ => inferInstanceAs (Decidable (_ ∨ _))

theorem Grammar.Gaps.of_blanks {s₁ : Cursor} (h : Blanks s () s₁) (hgaps : Gaps s₁ () s') :
    Gaps s () s' := by
  obtain ⟨cs, h⟩ := h
  induction h with
  | nil => exact hgaps
  | cons first _ ih => exact .blank first (ih hgaps)

/-- A gap is a number of lines with nothing to say, and blanks. -/
theorem gaps_iff {u : Unit} :
    Gaps s u s' ↔ ∃ lines s₁, Many BlankLine s lines s₁ ∧ Blanks s₁ () s' := by
  constructor
  · intro h
    induction h with
    | nil => exact ⟨[], _, .nil, [], .nil⟩
    | blank first _ ih =>
      obtain ⟨lines, s₁, hlines, cs, hcs⟩ := ih
      cases hlines with
      | nil => exact ⟨[], _, .nil, _, .cons first hcs⟩
      | cons hline hlines =>
        obtain ⟨s₂, s₃, found, ⟨ds, hds⟩, hfound, hnewline⟩ := hline
        have hfirst : BlankLine _ () _ := ⟨s₂, s₃, found, ⟨_, .cons first hds⟩, hfound, hnewline⟩
        exact ⟨_, _, .cons hfirst hlines, cs, hcs⟩
    | lineEnd comment newline _ ih =>
      obtain ⟨lines, s₁, hlines, hblanks⟩ := ih
      exact ⟨() :: lines, s₁, .cons ⟨_, _, _, ⟨[], .nil⟩, comment, newline⟩ hlines, hblanks⟩
  · rintro ⟨lines, s₁, hlines, hblanks⟩
    induction hlines with
    | nil => exact .of_blanks hblanks .nil
    | cons hline _ ih =>
      obtain ⟨s₂, s₃, found, hblanks', hfound, hnewline⟩ := hline
      exact .of_blanks hblanks' (.lineEnd hfound hnewline (ih hblanks))

theorem reads_gaps : Reads gaps Gaps (Ends IsGap) := by
  constructor
  · intro s _ s' h
    simp only [gaps, bind_eq_some_iff, blanks_eq_some_iff] at h
    obtain ⟨lines, s₁, hlines, hblanks, -⟩ := h
    obtain ⟨hmany, -⟩ := (exact_blankLine.many_eq_some_iff consumes_blankLine).mp hlines
    exact gaps_iff.mpr ⟨lines, s₁, hmany, hblanks⟩
  · intro s _ s' h hends
    obtain ⟨lines, s₁, hlines, hblanks⟩ := gaps_iff.mp h
    have hblank : Ends IsBlank s' := hends.mono fun c => .inl
    simp only [gaps, bind_eq_some_iff, blanks_eq_some_iff]
    refine ⟨lines, s₁, (exact_blankLine.many_eq_some_iff consumes_blankLine).mpr ⟨hlines, ?_⟩,
      hblanks, hblank⟩
    rintro _ s'' ⟨s₂, s₃, found, hblanks', hfound, hnewline⟩
    -- the blanks of one more line would be those in front of the stop
    have hgap : ∃ c, s₂.rest.head? = some c ∧ ¬ IsBlank c ∧ IsGap c := by
      cases hfound with
      | none =>
        rcases hnewline.head? with h | h <;> exact ⟨_, h, by simp [IsBlank], by simp [IsGap]⟩
      | some hcomment => exact ⟨_, hcomment.head?, by simp [IsBlank], by simp [IsGap]⟩
    obtain ⟨c, hc, hblankc, hgapc⟩ := hgap
    cases hblanks.unique hblanks' hblank (ends_of_head? hc hblankc)
    exact hends c hc hgapc

/-! ### Texts -/

theorem charByNumber_eq_some_iff {count : Nat} :
    charByNumber count s = some (c, s') ↔
      ∃ ds, ds.length = count ∧ Many (Single IsHexDigit) s ds s' ∧
        (digitsValue 16 ds).isValidChar ∧ c = .ofNat (digitsValue 16 ds) := by
  simp only [charByNumber, bind_eq_some_iff, pure_eq_some_iff, require_eq_some_iff,
    (exact_times (fun _ => isHexDigit_iff) count).iff, decide_eq_true_eq]
  constructor
  · rintro ⟨ds, _, ⟨hlength, hds⟩, _, _, ⟨hvalid, rfl⟩, rfl, rfl⟩
    exact ⟨ds, hlength, hds, hvalid, rfl⟩
  · rintro ⟨ds, hlength, hds, hvalid, rfl⟩
    exact ⟨ds, s', ⟨hlength, hds⟩, (), s', ⟨hvalid, rfl⟩, rfl, rfl⟩

theorem exact_escape : Exact escape Escape := by
  refine exact_of_iff fun s c s' => ?_
  have hany : Exact (char fun _ => true) (Single fun _ => True) := exact_char fun _ => by simp
  simp only [escape, bind_eq_some_iff, exactly_eq_some_iff, hany.iff]
  constructor
  · rintro ⟨_, s₁, hslash, letter, s₂, ⟨-, hletter⟩, h⟩
    have hword : Word ['\\', letter] s () s₂ := word_cons_iff.mpr ⟨s₁, hslash, hletter⟩
    have hshort {c' : Char} (h : (pure c' : Scan Char) s₂ = some (c, s'))
        (hknown : (letter, c') ∈ shortEscapes) : Escape s c s' := by
      obtain ⟨rfl, rfl⟩ := pure_eq_some_iff.mp h
      exact .short hknown hword
    have hnumber {count : Nat} (h : charByNumber count s₂ = some (c, s'))
        (hcount : letter = 'u' ∧ count = 4 ∨ letter = 'U' ∧ count = 8) : Escape s c s' := by
      obtain ⟨ds, hlength, hds, hvalid, rfl⟩ := charByNumber_eq_some_iff.mp h
      exact .number (hlength ▸ hcount) hword hds hvalid
    iterate 7
      split at h
      · next heq => exact hshort h (by simp [shortEscapes, heq])
    split at h
    · next heq => exact hnumber h (.inl ⟨heq, rfl⟩)
    split at h
    · next heq => exact hnumber h (.inr ⟨heq, rfl⟩)
    · exact absurd h not_failure
  · intro h
    cases h with
    | short known word =>
      obtain ⟨s₁, hslash, hletter⟩ := word_cons_iff.mp word
      refine ⟨(), s₁, hslash, _, s', ⟨trivial, hletter⟩, ?_⟩
      simp only [shortEscapes, List.mem_cons, Prod.mk.injEq, List.not_mem_nil, or_false] at known
      rcases known with ⟨rfl, rfl⟩ | ⟨rfl, rfl⟩ | ⟨rfl, rfl⟩ | ⟨rfl, rfl⟩ | ⟨rfl, rfl⟩ |
        ⟨rfl, rfl⟩ | ⟨rfl, rfl⟩ <;> rfl
    | number count word digits scalar =>
      obtain ⟨s₁, hslash, hletter⟩ := word_cons_iff.mp word
      refine ⟨(), s₁, hslash, _, _, ⟨trivial, hletter⟩, ?_⟩
      rcases count with ⟨rfl, hcount⟩ | ⟨rfl, hcount⟩
      · exact charByNumber_eq_some_iff.mpr ⟨_, hcount, digits, scalar, rfl⟩
      · exact charByNumber_eq_some_iff.mpr ⟨_, hcount, digits, scalar, rfl⟩

theorem Grammar.Escape.head? (h : Escape s c s') : s.rest.head? = some '\\' := by
  cases h with
  | short _ word => exact word.head?
  | number _ word _ _ => exact word.head?

theorem consumes_escape : Consumes Escape := by
  intro s c s' h
  cases h with
  | short _ word =>
    rw [word.length]
    simp
  | number _ word digits _ =>
    have := digits.length_le (consumes_single _)
    rw [word.length]
    simp only [List.length_cons, List.length_nil]
    omega

theorem exact_basicChar : Exact (char isBasicChar <|> escape) BasicChar := by
  refine exact_of_iff fun s c s' => ?_
  have hplain : Exact (char isBasicChar) (Single fun c => IsPrinted c ∧ c ≠ '"' ∧ c ≠ '\\') :=
    exact_char fun _ => isBasicChar_iff
  rw [orElse_eq_some_iff, hplain.iff, exact_escape.iff]
  constructor
  · rintro (h | ⟨-, h⟩)
    · exact .plain h
    · exact .escape h
  · intro h
    cases h with
    | plain one => exact .inl one
    | escape hescape =>
      refine .inr ⟨hplain.eq_none fun c s₁ hone => ?_, hescape⟩
      have hslash := hone.head?.symm.trans hescape.head?
      exact hone.1.2.2 (Option.some.inj hslash)

theorem consumes_basicChar : Consumes BasicChar := by
  intro s c s' h
  cases h with
  | plain one => exact consumes_single _ one
  | escape hescape => exact consumes_escape hescape

theorem exact_basicText : Exact basicText BasicText := by
  refine exact_of_iff fun s cs s' => ?_
  simp only [basicText, bind_eq_some_iff, exactly_eq_some_iff, pure_eq_some_iff,
    exact_basicChar.many_eq_some_iff consumes_basicChar]
  constructor
  · rintro ⟨_, s₁, hopened, cs, s₂, ⟨hchars, -⟩, _, _, hclosed, rfl, rfl⟩
    exact .intro hopened hchars hclosed
  · intro h
    cases h with
    | intro opened chars closed =>
      refine ⟨(), _, opened, cs, _, ⟨chars, fun c s₁ hchar => ?_⟩, (), s', closed, rfl, rfl⟩
      cases hchar with
      | plain one =>
        have hmark := one.head?.symm.trans closed.head?
        exact one.1.2.1 (Option.some.inj hmark)
      | escape hescape =>
        have hmark := hescape.head?.symm.trans closed.head?
        simp at hmark

theorem consumes_basicText : Consumes BasicText := by
  intro s cs s' h
  cases h with
  | intro opened chars closed =>
    have := opened.length_lt
    have := chars.length_le consumes_basicChar
    have := closed.length_lt
    omega

theorem consumes_literalText : Consumes LiteralText := by
  intro s cs s' h
  cases h with
  | intro opened chars closed =>
    have := opened.length_lt
    have := chars.length_le (consumes_single _)
    have := closed.length_lt
    omega

theorem exact_literalText : Exact literalText LiteralText := by
  refine exact_of_iff fun s cs s' => ?_
  simp only [literalText, bind_eq_some_iff, exactly_eq_some_iff, pure_eq_some_iff,
    chars_eq_some_iff fun _ => isLiteralChar_iff]
  constructor
  · rintro ⟨_, s₁, hopened, cs, s₂, ⟨hchars, -⟩, _, _, hclosed, rfl, rfl⟩
    exact .intro hopened hchars hclosed
  · intro h
    cases h with
    | intro opened chars closed =>
      have hends : Ends (fun c => IsPrinted c ∧ c ≠ '\'') _ := ends_of_head? closed.head? (by simp)
      exact ⟨(), _, opened, cs, _, ⟨chars, hends⟩, (), s', closed, rfl, rfl⟩

/-! ### Texts over several lines -/

theorem exact_space : Exact (newline <|> (do let _ ← char isBlank)) Space := by
  refine exact_of_iff fun s _ s' => ?_
  have hblank : Exact (char isBlank) (Single IsBlank) := exact_char fun _ => isBlank_iff
  simp only [orElse_eq_some_iff, bind_eq_some_iff, pure_eq_some_iff, exact_newline.iff, hblank.iff]
  constructor
  · rintro (h | ⟨-, c, _, h, -, rfl⟩)
    · exact .newline h
    · exact .blank h
  · intro h
    cases h with
    | newline hnewline => exact .inl hnewline
    | blank one =>
      refine .inr ⟨exact_newline.eq_none fun _ s₁ hnewline => ?_, _, s', one, trivial, rfl⟩
      have hc := one.1
      rcases hnewline.head? with h | h <;> rw [Option.some.inj (one.head?.symm.trans h)] at hc <;>
        simp [IsBlank] at hc

theorem consumes_space : Consumes Space := by
  intro s _ s' h
  cases h with
  | blank one => exact consumes_single _ one
  | newline hnewline => exact consumes_newline hnewline

theorem exact_joinedLines : Exact joinedLines JoinedLines := by
  refine exact_of_iff fun s _ s' => ?_
  simp only [joinedLines, bind_eq_some_iff, exactly_eq_some_iff, pure_eq_some_iff, blanks_eq_some_iff,
    exact_newline.iff, exact_space.many_eq_some_iff consumes_space]
  constructor
  · rintro ⟨_, s₁, hslash, _, s₂, ⟨hblanks, -⟩, _, s₃, hnewline, spaces, _, ⟨hspaces, hall⟩, -, rfl⟩
    exact .intro hslash hblanks hnewline hspaces fun s'' => hall () s''
  · intro h
    cases h with
    | intro slash blanks newline space all =>
      have hends : Ends IsBlank _ := ends_of_newline newline (by simp [IsBlank]) (by simp [IsBlank])
      exact ⟨(), _, slash, (), _, ⟨blanks, hends⟩, (), _, newline, _, s',
        ⟨space, fun _ => all⟩, trivial, rfl⟩

theorem Grammar.JoinedLines.head? {u : Unit} (h : JoinedLines s u s') :
    s.rest.head? = some '\\' := by
  cases h with
  | intro slash => exact slash.head?

/-- What an escape begins with is not a backslash at the end of a line. -/
theorem not_joinedLines_of_escape {u : Unit} {s'' : Cursor} (h : Escape s c s') :
    ¬ JoinedLines s u s'' := by
  rintro ⟨slash, blanks, newline, -, -⟩
  obtain ⟨letter, s₁, hword, hletter⟩ : ∃ letter s₁, Word ['\\', letter] s () s₁ ∧
      (¬ IsBlank letter ∧ letter ≠ '\n' ∧ letter ≠ '\r') := by
    cases h with
    | short known word =>
      refine ⟨_, _, word, ?_⟩
      simp only [shortEscapes, List.mem_cons, Prod.mk.injEq, List.not_mem_nil, or_false] at known
      rcases known with ⟨rfl, -⟩ | ⟨rfl, -⟩ | ⟨rfl, -⟩ | ⟨rfl, -⟩ | ⟨rfl, -⟩ | ⟨rfl, -⟩ | ⟨rfl, -⟩ <;>
        simp [IsBlank]
    | number count word _ _ =>
      refine ⟨_, _, word, ?_⟩
      rcases count with ⟨rfl, -⟩ | ⟨rfl, -⟩ <;> simp [IsBlank]
  obtain ⟨s₂, hslash, hnext⟩ := word_cons_iff.mp hword
  cases hslash.unique slash
  rcases blanks.head? with rfl | ⟨c, hc, hblank⟩
  · rcases newline.head? with h | h
    · exact hletter.2.1 (Option.some.inj (hnext.head?.symm.trans h))
    · exact hletter.2.2 (Option.some.inj (hnext.head?.symm.trans h))
  · exact hletter.1 (Option.some.inj (hnext.head?.symm.trans hc) ▸ hblank)

section

variable {mark : Char}

theorem exact_linesPiece : Exact (linesPiece mark) (LinesPiece mark) := by
  refine exact_of_iff fun s cs s' => ?_
  have hplain : Exact (char fun c => isCommentChar c && c ≠ mark && (c ≠ '\\' || mark = '\''))
      (Single fun c => IsPrinted c ∧ c ≠ mark ∧ (c = '\\' → mark = '\'')) :=
    exact_char fun c => by simp [isCommentChar_iff, and_assoc, Decidable.imp_iff_not_or]
  simp only [linesPiece, orElse_eq_some_iff, bind_eq_some_iff, pure_eq_some_iff, require_eq_some_iff,
    hplain.iff, exact_newline.iff, exact_joinedLines.iff, exact_escape.iff, decide_eq_true_eq]
  constructor
  · rintro (⟨c, _, hone, rfl, rfl⟩ | ⟨-, ⟨_, _, hnewline, rfl, rfl⟩ | ⟨-, _, _, ⟨hquoted, rfl⟩, h⟩⟩)
    · exact .plain hone
    · exact .newline hnewline
    · rcases h with ⟨_, _, hjoined, rfl, rfl⟩ | ⟨-, c, _, hescape, rfl, rfl⟩
      · exact .joined hquoted hjoined
      · exact .escape hquoted hescape
  · intro h
    -- a plain character is neither a line end nor a backslash that escapes
    have hno (c' : Char) (hc : s.rest.head? = some c')
        (hne : ¬ (IsPrinted c' ∧ c' ≠ mark ∧ (c' = '\\' → mark = '\''))) :
        (char fun c => isCommentChar c && c ≠ mark && (c ≠ '\\' || mark = '\'')) s = none :=
      hplain.eq_none fun d _ hone => hne (Option.some.inj (hone.head?.symm.trans hc) ▸ hone.1)
    have hnoNewline (hc : s.rest.head? = some '\\') : newline s = none :=
      exact_newline.eq_none fun _ _ hnewline => by
        rcases hnewline.head? with h | h <;> simp [hc] at h
    cases h with
    | plain one => exact .inl ⟨_, s', one, rfl, rfl⟩
    | newline hnewline =>
      refine .inr ⟨bind_of_none ?_, .inl ⟨(), s', hnewline, rfl, rfl⟩⟩
      rcases hnewline.head? with h | h <;> exact hno _ h (by simp [IsPrinted])
    | escape quoted hescape =>
      refine .inr ⟨bind_of_none (hno _ hescape.head? (by simp [quoted])), .inr
        ⟨bind_of_none (hnoNewline hescape.head?), (), s, ⟨quoted, rfl⟩, .inr
          ⟨bind_of_none ?_, _, s', hescape, rfl, rfl⟩⟩⟩
      exact exact_joinedLines.eq_none fun _ _ => not_joinedLines_of_escape hescape
    | joined quoted joined =>
      exact .inr ⟨bind_of_none (hno _ joined.head? (by simp [quoted])), .inr
        ⟨bind_of_none (hnoNewline joined.head?), (), s, ⟨quoted, rfl⟩, .inl
          ⟨(), s', joined, rfl, rfl⟩⟩⟩

theorem Grammar.LinesPiece.head?_ne (hmark : mark = '"' ∨ mark = '\'')
    (h : LinesPiece mark s cs s') : s.rest.head? ≠ some mark := by
  intro hhead
  cases h with
  | plain one => exact one.1.2.1 (Option.some.inj (one.head?.symm.trans hhead))
  | newline hnewline =>
    rcases hnewline.head? with h | h <;> rw [hhead] at h <;> cases h <;> simp at hmark
  | escape quoted hescape =>
    cases quoted
    cases hhead.symm.trans hescape.head?
  | joined quoted joined =>
    cases quoted
    cases hhead.symm.trans joined.head?

theorem consumes_linesPiece : Consumes (LinesPiece mark) := by
  intro s cs s' h
  cases h with
  | plain one => exact consumes_single _ one
  | newline hnewline => exact consumes_newline hnewline
  | escape _ hescape => exact consumes_escape hescape
  | joined _ joined =>
    cases joined with
    | intro slash blanks newline space _ =>
      have := slash.length_lt
      have := blanks.length_le
      have := consumes_newline newline
      have := space.length_le consumes_space
      omega

theorem consumes_linesPart : Consumes (LinesPart mark) := by
  intro s cs s' h
  cases h with
  | intro _ marks piece =>
    have := consumes_linesPiece piece
    have := marks.length
    omega

/-- The mark is next after some marks if more than those stand there. -/
theorem head?_of_marks (count more : Nat) {s₁ : Cursor} (h : Word (List.replicate more mark) s () s')
    (h₁ : Word (List.replicate count mark) s () s₁) (hlt : count < more) :
    s₁.rest.head? = some mark := by
  obtain ⟨rest, rfl⟩ : ∃ n, more = count + (n + 1) := ⟨more - count - 1, by omega⟩
  rw [← List.replicate_append_replicate, word_append_iff] at h
  obtain ⟨s₂, hcount, hrest⟩ := h
  cases hcount.unique h₁
  rw [List.replicate_succ] at hrest
  exact hrest.head?

theorem exact_linesPart (hmark : mark = '"' ∨ mark = '\'') :
    Exact (linesPiece mark <|> linesMarks mark) (LinesPart mark) := by
  refine exact_of_iff fun s cs s' => ?_
  simp only [linesMarks, orElse_eq_some_iff, bind_eq_some_iff, pure_eq_some_iff, exactly_eq_some_iff,
    exact_linesPiece.iff]
  constructor
  · rintro (h | ⟨-, marks, s₁, hmarks, cs, _, hpiece, rfl, rfl⟩)
    · exact .intro (Nat.zero_le 2) (word_nil_iff.mpr rfl) h
    · rcases hmarks with ⟨_, _, hword, rfl, rfl⟩ | ⟨-, _, _, hword, rfl, rfl⟩
      · exact .intro (Nat.le_refl 2) hword hpiece
      · exact .intro (Nat.le_succ 1) hword hpiece
  · intro h
    cases h with
    | @intro _ s₁ _ count cs few marks piece =>
      have hnext := piece.head?_ne hmark
      have hnone (hcount : 0 < count) : linesPiece mark s = none :=
        exact_linesPiece.eq_none fun _ _ h => h.head?_ne hmark
          (head?_of_marks 0 count marks (word_nil_iff.mpr rfl) hcount)
      obtain rfl | rfl | rfl : count = 0 ∨ count = 1 ∨ count = 2 := by omega
      · cases word_nil_iff.mp marks
        exact .inl piece
      · refine .inr ⟨hnone Nat.one_pos, [mark], s₁, .inr ⟨bind_of_none ?_, (), s₁, marks, rfl, rfl⟩,
          cs, s', piece, rfl, rfl⟩
        exact (exact_word _).eq_none fun _ s₂ htwo =>
          hnext (head?_of_marks 1 2 htwo marks Nat.one_lt_two)
      · exact .inr ⟨hnone Nat.two_pos, [mark, mark], s₁, .inl ⟨(), s₁, marks, rfl, rfl⟩, cs, s', piece,
          rfl, rfl⟩

theorem trimmed_iff : (∃ found, orNone newline s = some (found, s')) ↔ Trimmed s () s' := by
  constructor
  · rintro ⟨found, h⟩
    rcases orNone_eq_some_iff.mp h with ⟨_, -, h⟩ | ⟨-, hnone, rfl⟩
    · exact .newline (exact_newline.iff.mp h)
    · exact .nothing fun _ => exact_newline.not_of_none hnone
  · intro h
    cases h with
    | newline hnewline =>
      exact ⟨_, orNone_eq_some_iff.mpr (.inl ⟨(), rfl, exact_newline.iff.mpr hnewline⟩)⟩
    | nothing none =>
      exact ⟨_, orNone_eq_some_iff.mpr (.inr ⟨rfl, exact_newline.eq_none fun _ => none, rfl⟩)⟩

/-- The marks at the end of a text over several lines, the closing ones among them. -/
def closing (mark : Char) : Scan (List Char) :=
  (do exactly [mark, mark, mark, mark, mark]; return [mark, mark]) <|>
  (do exactly [mark, mark, mark, mark]; return [mark]) <|>
  (do exactly [mark, mark, mark]; return [])

/-- Three marks that close a text, with some of its own before them. -/
def Closing (mark : Char) : Production (List Char) := fun s cs s' =>
  ∃ count ≤ 2, cs = List.replicate count mark ∧ Word (List.replicate (count + 3) mark) s () s'

theorem reads_closing : Reads (closing mark) (Closing mark) (Ends (· = mark)) := by
  refine ⟨fun {s cs s'} h => ?_, fun {s cs s'} h hends => ?_⟩ <;>
    simp only [closing, orElse_eq_some_iff, bind_eq_some_iff, pure_eq_some_iff,
      exactly_eq_some_iff] at *
  · rcases h with ⟨_, _, h, rfl, rfl⟩ | ⟨-, ⟨_, _, h, rfl, rfl⟩ | ⟨-, _, _, h, rfl, rfl⟩⟩
    · exact ⟨2, Nat.le_refl 2, rfl, h⟩
    · exact ⟨1, Nat.le_succ 1, rfl, h⟩
    · exact ⟨0, Nat.zero_le 2, rfl, h⟩
  · obtain ⟨count, few, rfl, h⟩ := h
    -- more marks than there are would put one at the end
    have hnone (more : Nat) (hlt : count + 3 < more) :
        exactly (List.replicate more mark) s = none :=
      (exact_word _).eq_none fun _ _ hmore => hends mark (head?_of_marks _ _ hmore h hlt) rfl
    obtain rfl | rfl | rfl : count = 0 ∨ count = 1 ∨ count = 2 := by omega
    · exact .inr ⟨bind_of_none (hnone 5 (by decide)), .inr
        ⟨bind_of_none (hnone 4 (by decide)), (), s', h, rfl, rfl⟩⟩
    · exact .inr ⟨bind_of_none (hnone 5 (by decide)), .inl ⟨(), s', h, rfl, rfl⟩⟩
    · exact .inl ⟨(), s', h, rfl, rfl⟩

/-- The marks that close a text are no part of it: three stand where one begins. -/
theorem Closing.not_linesPart {s'' : Cursor} {ds : List Char} (hmark : mark = '"' ∨ mark = '\'')
    (h : Closing mark s cs s') : ¬ LinesPart mark s ds s'' := by
  rintro ⟨few, marks, piece⟩
  obtain ⟨count, -, -, hclosing⟩ := h
  exact piece.head?_ne hmark (head?_of_marks _ _ hclosing marks (by omega))

theorem reads_linesText (hmark : mark = '"' ∨ mark = '\'') :
    Reads (linesText mark) (LinesText mark) (Ends (· = mark)) := by
  have hdef : linesText mark = (do
      exactly [mark, mark, mark]
      let _ ← orNone newline
      let pieces ← many (linesPiece mark <|> linesMarks mark)
      let last ← closing mark
      return pieces.flatten ++ last) := rfl
  refine ⟨fun {s cs s'} h => ?_, fun {s cs s'} h hends => ?_⟩
  · simp only [hdef, bind_eq_some_iff, pure_eq_some_iff, exactly_eq_some_iff,
      (exact_linesPart hmark).many_eq_some_iff consumes_linesPart] at h
    obtain ⟨_, s₁, hopened, found, s₂, hfound, parts, s₃, ⟨hparts, -⟩, last, _, hlast, rfl, rfl⟩ := h
    obtain ⟨count, few, rfl, hclosing⟩ := reads_closing.sound hlast
    rw [← List.replicate_append_replicate, word_append_iff] at hclosing
    obtain ⟨s₄, hmarks, hclosed⟩ := hclosing
    exact .intro hopened (trimmed_iff.mp ⟨found, hfound⟩) hparts few hmarks hclosed
  · cases h with
    | @intro _ s₁ s₂ s₃ s₄ _ parts count opened trimmed body few marks closed =>
      obtain ⟨found, hfound⟩ := trimmed_iff.mpr trimmed
      have hclosing : Closing mark s₃ (List.replicate count mark) s' := by
        refine ⟨count, few, rfl, ?_⟩
        rw [← List.replicate_append_replicate, word_append_iff]
        exact ⟨s₄, marks, closed⟩
      simp only [hdef, bind_eq_some_iff, pure_eq_some_iff, exactly_eq_some_iff,
        (exact_linesPart hmark).many_eq_some_iff consumes_linesPart]
      exact ⟨(), s₁, opened, found, s₂, hfound, parts, s₃,
        ⟨body, fun _ _ => hclosing.not_linesPart hmark⟩, _, s',
        reads_closing.complete hclosing hends, rfl, rfl⟩

theorem consumes_linesText : Consumes (LinesText mark) := by
  intro s cs s' h
  cases h with
  | intro opened trimmed body _ marks closed =>
    have := opened.length_lt
    have := body.length_le consumes_linesPart
    have := marks.length
    have := closed.length_lt
    cases trimmed with
    | newline hnewline =>
      have := consumes_newline hnewline
      omega
    | nothing => omega

theorem Grammar.LinesText.word (h : LinesText mark s cs s') :
    ∃ s₁, Word [mark, mark, mark] s () s₁ := by
  cases h with
  | intro opened => exact ⟨_, opened⟩

/-- A text on one line, empty or not, does not begin with three marks. -/
theorem not_linesText_of_closed {α : Type} {G : Production α} {as : List α} {s₁ s₂ s'' : Cursor}
    (opened : Word [mark] s () s₁) (chars : Many G s₁ as s₂) (closed : Word [mark] s₂ () s')
    (hG : ∀ {s a s'}, G s a s' → s.rest.head? ≠ some mark) (hends : Ends (· = mark) s') :
    ¬ LinesText mark s cs s'' := by
  intro h
  obtain ⟨s₃, hword⟩ := h.word
  cases chars with
  | nil =>
    have hboth : Word [mark, mark] s () s' := word_cons_iff.mpr ⟨s₁, opened, closed⟩
    exact hends mark (head?_of_marks 2 3 hword hboth (by decide)) rfl
  | cons first _ => exact hG first (head?_of_marks 1 3 hword opened (by decide))

theorem Grammar.BasicChar.head?_ne (h : BasicChar s c s') : s.rest.head? ≠ some '"' := by
  intro hhead
  cases h with
  | plain one => exact one.1.2.1 (Option.some.inj (one.head?.symm.trans hhead))
  | escape hescape => cases hhead.symm.trans hescape.head?

theorem Grammar.BasicText.head? (h : BasicText s cs s') : s.rest.head? = some '"' := by
  cases h with
  | intro opened => exact opened.head?

theorem Grammar.LiteralText.head? (h : LiteralText s cs s') : s.rest.head? = some '\'' := by
  cases h with
  | intro opened => exact opened.head?

theorem Grammar.LinesText.head? (h : LinesText mark s cs s') : s.rest.head? = some mark := by
  obtain ⟨_, hword⟩ := h.word
  exact hword.head?

theorem Grammar.AnyText.head? (h : AnyText s cs s') :
    s.rest.head? = some '"' ∨ s.rest.head? = some '\'' := by
  cases h with
  | basic text => exact .inl text.head?
  | basicLines text => exact .inl text.head?
  | literal text => exact .inr text.head?
  | literalLines text => exact .inr text.head?

theorem consumes_anyText : Consumes AnyText := by
  intro s cs s' h
  cases h with
  | basic text => exact consumes_basicText text
  | basicLines text | literalLines text => exact consumes_linesText text
  | literal text => exact consumes_literalText text

/-- A character that marks where a text begins and ends. -/
def IsMark (c : Char) : Prop := c = '"' ∨ c = '\''

instance : DecidablePred IsMark := fun _ => inferInstanceAs (Decidable (_ ∨ _))

theorem reads_anyText :
    Reads (linesText '"' <|> basicText <|> linesText '\'' <|> literalText) AnyText (Ends IsMark) := by
  have hbasicLines : Reads (linesText '"') (LinesText '"') (Ends IsMark) :=
    (reads_linesText (.inl rfl)).mono fun _ h => h.mono fun _ => .inl
  have hliteralLines : Reads (linesText '\'') (LinesText '\'') (Ends IsMark) :=
    (reads_linesText (.inr rfl)).mono fun _ h => h.mono fun _ => .inr
  have hbasic : Reads basicText BasicText (Ends IsMark) := exact_basicText.reads _
  have hliteral : Reads literalText LiteralText (Ends IsMark) := exact_literalText.reads _
  have happ := hliteralLines.orElse hliteral fun hlines hone hends => by
    cases hone with
    | intro opened chars closed =>
      exact not_linesText_of_closed opened chars closed
        (fun hc hhead => hc.1.2 (Option.some.inj (hc.head?.symm.trans hhead)))
        (hends.mono fun _ => .inr) hlines
  have hothers := hbasic.orElse happ fun hone h _ => by
    rcases h with h | h <;> simpa using hone.head?.symm.trans h.head?
  refine (hbasicLines.orElse hothers fun hlines h hends => ?_).congr fun s cs s' => ?_
  · rcases h with hone | h | h
    · cases hone with
      | intro opened chars closed =>
        exact not_linesText_of_closed opened chars closed BasicChar.head?_ne
          (hends.mono fun _ => .inl) hlines
    · simpa using hlines.head?.symm.trans h.head?
    · simpa using hlines.head?.symm.trans h.head?
  · constructor
    · rintro (h | h | h | h)
      · exact .basicLines h
      · exact .basic h
      · exact .literalLines h
      · exact .literal h
    · intro h
      cases h with
      | basicLines text => exact .inl text
      | basic text => exact .inr (.inl text)
      | literalLines text => exact .inr (.inr (.inl text))
      | literal text => exact .inr (.inr (.inr text))

end

end Markup.Toml
