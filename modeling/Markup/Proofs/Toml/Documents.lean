import Markup.Proofs.Toml.Limits
import Markup.Proofs.Toml.Values

/-!
# Documents are read by the grammar

The scans for statements and lines against their productions, and from that the reader as a whole:
`read?` finds exactly the documents within `Limits.ofReader` (`read?_eq_some_iff`). A scan takes the
blanks in front of a line with the line before, so the lines of the grammar are put together anew
(`lines_iff`), by induction on them in one direction and on what was scanned in the other.
-/

namespace Markup.Toml

open Grammar Scan

variable {s s₁ s' : Cursor} {c : Char} {u : Unit} {item : Item}

/-! ### Values of any depth -/

/-- The values that are read are those within the limits. -/
theorem reads_anyValue : Reads (value maxNesting) (Value .ofReader) Closes := by
  refine (reads_value maxNesting).congr fun s item s' => ⟨fun h => ⟨maxNesting, Nat.le_refl _, h⟩, ?_⟩
  rintro ⟨depth, hdepth, h⟩
  exact h.mono hdepth

theorem Grammar.Value.head? {limits : Limits} (h : Value limits s item s') :
    ∃ c, s.rest.head? = some c ∧ IsValueStart c := by
  obtain ⟨_, -, h⟩ := h
  exact h.head?

/-! ### Statements -/

/-- The end of a line or of the text. -/
inductive Break : Production Unit where
  | newline {s s' : Cursor} (newline : Newline s () s') : Break s () s'
  | ending {s : Cursor} (ending : s.rest = []) : Break s () s

theorem exact_break : Exact (newline <|> ending) Break := by
  refine exact_of_iff fun s _ s' => ?_
  simp only [orElse_eq_some_iff, exact_newline.iff, ending_eq_some_iff]
  constructor
  · rintro (h | ⟨-, hrest, rfl⟩)
    · exact .newline h
    · exact .ending hrest
  · intro h
    cases h with
    | newline hnewline => exact .inl hnewline
    | ending hrest =>
      refine .inr ⟨exact_newline.eq_none fun _ _ hnewline => ?_, hrest, rfl⟩
      rcases hnewline.head? with h | h <;> simp [hrest] at h

theorem Break.ends {kind : Char → Prop} (h : Break s u s') (hlf : ¬ kind '\n') (hcr : ¬ kind '\r') :
    Ends kind s := by
  cases h with
  | newline hnewline => exact ends_of_newline hnewline hlf hcr
  | ending hrest => exact ends_of_rest hrest

/-- What may follow a statement on its line, up to the next. -/
def LineEnd : Production Unit := fun s _ s' =>
  ∃ s₁ s₂ found, Blanks s () s₁ ∧ Maybe Comment s₁ found s₂ ∧ Break s₂ () s'

theorem exact_lineEnd : Exact lineEnd LineEnd := by
  refine exact_of_iff fun s _ s' => ?_
  simp only [lineEnd, bind_eq_some_iff, blanks_eq_some_iff, exact_break.iff]
  constructor
  · rintro ⟨_, s₁, ⟨hblanks, -⟩, found, s₂, hfound, hbreak⟩
    exact ⟨s₁, s₂, found, hblanks, reads_comment.orNone.sound hfound, hbreak⟩
  · rintro ⟨s₁, s₂, found, hblanks, hfound, hbreak⟩
    have hends : Ends IsBlank s₁ := by
      cases hfound with
      | none => exact hbreak.ends (by decide) (by decide)
      | some hcomment => exact ends_of_head? hcomment.head? (by decide)
    have hprinted : Ends IsPrinted s₂ := hbreak.ends (by decide) (by decide)
    exact ⟨(), s₁, ⟨hblanks, hends⟩, found, s₂, (orNone_comment_eq_some_iff hprinted).mpr hfound, hbreak⟩

/-- A value may end in front of what ends its line. -/
theorem LineEnd.closes (h : LineEnd s u s') : Closes s := by
  obtain ⟨s₁, s₂, found, hblanks, hfound, hbreak⟩ := h
  refine ⟨s₁, hblanks, fun c hc => ?_⟩
  cases hfound with
  | some hcomment => exact .inl (Option.some.inj (hc.symm.trans hcomment.head?))
  | none =>
    cases hbreak with
    | newline hnewline =>
      rcases hnewline.head? with h | h <;> rw [← Option.some.inj (h.symm.trans hc)] <;> decide
    | ending hrest => simp [hrest] at hc

/-- A statement with the end of its line. -/
def Ended : Production Statement := fun s statement s' =>
  ∃ s₁, Said .ofReader s statement s₁ ∧ LineEnd s₁ () s'

/-- A line with a key between marks. -/
inductive HeaderLine (opened closed : List Char) (f : List Key → Key → Span → Statement) :
    Production Statement where
  | intro {s s₁ s₂ s₃ s' : Cursor} {path : List Key} {k : Key} (begins : Word opened s () s₁)
    (dotted : DottedKey .ofReader s₁ (path, k) s₂) (ends : Word closed s₂ () s₃)
    (lineEnd : LineEnd s₃ () s') : HeaderLine opened closed f s (f path k (s.to s₃)) s'

theorem exact_headerLine (opened closed : List Char)
    (hclosed : closed.head? = some ']') (f : List Key → Key → Span → Statement) :
    Exact (do
      let (span, path, k) ← located do
        exactly opened
        let k ← key
        exactly closed
        return k
      lineEnd
      return f path k span) (HeaderLine opened closed f) := by
  refine exact_of_iff fun s statement s' => ?_
  simp only [bind_eq_some_iff, located_eq_some_iff, exactly_eq_some_iff, pure_eq_some_iff,
    exact_lineEnd.iff]
  constructor
  · rintro ⟨⟨span, path, k⟩, s₃, ⟨⟨_, s₁, hopened, _, s₂, hkey, _, _, hword, rfl, rfl⟩, rfl⟩, _, _,
      hend, rfl, rfl⟩
    exact .intro hopened (reads_key.sound hkey) hword hend
  · intro h
    cases h with
    | @intro _ s₁ s₂ s₃ _ path k begins dotted ends lineEnd =>
      have hends : Ends (fun c => IsKeyChar c ∨ c = '.') s₂ := by
        cases closed with
        | nil => cases hclosed
        | cons c _ =>
          cases hclosed
          exact ends_of_head? ends.head? (by decide)
      exact ⟨(s.to s₃, path, k), s₃, ⟨⟨(), s₁, begins, (path, k), s₂, reads_key.complete dotted hends,
        (), s₃, ends, rfl, rfl⟩, rfl⟩, (), s', lineEnd, rfl, rfl⟩

/-- A line with an assignment. -/
inductive AssignmentLine : Production Statement where
  | intro {s s₁ s₂ s₃ s₄ s' : Cursor} {path : List Key} {k : Key} {v : Item}
    (dotted : DottedKey .ofReader s (path, k) s₁) (equals : Word ['='] s₁ () s₂)
    (blanks : Blanks s₂ () s₃) (value : Value .ofReader s₃ v s₄) (lineEnd : LineEnd s₄ () s') :
    AssignmentLine s (.assign path k v) s'

theorem exact_assignment : Exact assignment AssignmentLine := by
  refine exact_of_iff fun s statement s' => ?_
  simp only [assignment, bind_eq_some_iff, exactly_eq_some_iff, pure_eq_some_iff, exact_lineEnd.iff]
  constructor
  · rintro ⟨⟨path, k⟩, s₁, hkey, _, s₂, hequals, _, s₃, hblanks, v, s₄, hvalue, _, _, hend, rfl, rfl⟩
    exact .intro (reads_key.sound hkey) hequals (reads_blanks.sound hblanks)
      (reads_anyValue.sound hvalue) hend
  · intro h
    cases h with
    | @intro _ s₁ s₂ s₃ s₄ _ path k v dotted equals blanks value lineEnd =>
      have hkey : Ends (fun c => IsKeyChar c ∨ c = '.') s₁ := ends_of_head? equals.head? (by decide)
      have hblanks : Ends IsBlank s₃ := by
        obtain ⟨c, hc, hstart⟩ := value.head?
        exact ends_of_head? hc fun hblank => not_isGap_of_isValueStart hstart (.inl hblank)
      exact ⟨(path, k), s₁, reads_key.complete dotted hkey, (), s₂, equals, (), s₃,
        reads_blanks.complete blanks hblanks, v, s₄, reads_anyValue.complete value lineEnd.closes, (),
        s', lineEnd, rfl, rfl⟩

/-- No key begins with a bracket. -/
theorem not_dottedKey_of_bracket {limits : Limits} {k : List Key × Key}
    (h : s.rest.head? = some '[') : ¬ DottedKey limits s k s' := by
  intro hkey
  obtain ⟨c, hc, hstart⟩ := hkey.head?
  rw [← Option.some.inj (h.symm.trans hc)] at hstart
  exact absurd hstart (by decide)

theorem exact_statement : Exact (nextHeader <|> header <|> assignment) Ended := by
  have hnext := exact_headerLine ['[', '['] [']', ']'] rfl Statement.nextHeader
  have hheader := exact_headerLine ['['] [']'] rfl Statement.header
  have hothers := hheader.orElse exact_assignment fun hline hassign _ => by
    cases hline with
    | intro begins =>
      cases hassign with
      | intro dotted => exact not_dottedKey_of_bracket begins.head? dotted
  refine (hnext.orElse hothers fun hline hother _ => ?_).congr fun s statement s' => ?_
  · cases hline with
    | intro begins =>
      obtain ⟨s₁, hbracket, hsecond⟩ := word_cons_iff.mp begins
      rcases hother with hline | hassign
      · cases hline with
        | intro begins dotted =>
          cases begins.unique hbracket
          exact not_dottedKey_of_bracket hsecond.head? dotted
      · cases hassign with
        | intro dotted => exact not_dottedKey_of_bracket hbracket.head? dotted
  · constructor
    · rintro (h | h | h)
      · cases h with
        | intro begins dotted ends lineEnd => exact ⟨_, .nextHeader begins dotted ends, lineEnd⟩
      · cases h with
        | intro begins dotted ends lineEnd => exact ⟨_, .header begins dotted ends, lineEnd⟩
      · cases h with
        | intro dotted equals blanks value lineEnd =>
          exact ⟨_, .assign dotted equals blanks value, lineEnd⟩
    · rintro ⟨s₁, hsaid, hend⟩
      cases hsaid with
      | nextHeader opened dotted closed => exact .inl (.intro opened dotted closed hend)
      | header opened dotted closed => exact .inr (.inl (.intro opened dotted closed hend))
      | assign dotted equals blanks value =>
        exact .inr (.inr (.intro dotted equals blanks value hend))

/-! ### Lines -/

/-- A line without the blanks in front of it, up to the next. -/
inductive Content : Production (Option Statement) where
  | comment {s s₁ s' : Cursor} (comment : Comment s () s₁) (ended : Break s₁ () s') :
    Content s none s'
  | newline {s s' : Cursor} (newline : Newline s () s') : Content s none s'
  | ended {s s' : Cursor} {statement : Statement} (ended : Ended s statement s') :
    Content s (some statement) s'

/-- A character that a statement may begin with. -/
def IsStatementStart (c : Char) : Prop := IsBlank c ∨ IsKeyStart c ∨ c = '['

instance : DecidablePred IsStatementStart := fun _ => inferInstanceAs (Decidable (_ ∨ _))

theorem Grammar.Said.head? {limits : Limits} {statement : Statement}
    (h : Said limits s statement s') : ∃ c, s.rest.head? = some c ∧ IsStatementStart c := by
  cases h with
  | header opened _ _ | nextHeader opened _ _ => exact ⟨_, opened.head?, by decide⟩
  | assign dotted _ _ _ =>
    obtain ⟨c, hc, hstart⟩ := dotted.head?
    exact ⟨c, hc, hstart.imp_right .inl⟩

/-- A line as it is scanned, with the blanks in front of the next. -/
def ScannedLine : Production (Option Statement) := fun s found s' =>
  ∃ s₁, Content s found s₁ ∧ Blanks s₁ () s' ∧ Ends IsBlank s'

theorem exact_commentLine :
    Exact (do comment; (newline <|> ending); return (none : Option Statement))
      fun s found s' => found = none ∧ ∃ s₁, Comment s () s₁ ∧ Break s₁ () s' := by
  refine exact_of_iff fun s found s' => ?_
  simp only [bind_eq_some_iff, pure_eq_some_iff, exact_break.iff]
  constructor
  · rintro ⟨_, s₁, hcomment, _, _, hbreak, rfl, rfl⟩
    exact ⟨rfl, s₁, reads_comment.sound hcomment, hbreak⟩
  · rintro ⟨rfl, s₁, hcomment, hbreak⟩
    have hends : Ends IsPrinted s₁ := hbreak.ends (by decide) (by decide)
    exact ⟨(), s₁, reads_comment.complete hcomment hends, (), s', hbreak, rfl, rfl⟩

theorem exact_emptyLine :
    Exact (do newline; return (none : Option Statement))
      fun s found s' => found = none ∧ Newline s () s' := by
  refine exact_of_iff fun s found s' => ?_
  simp only [bind_eq_some_iff, pure_eq_some_iff, exact_newline.iff]
  constructor
  · rintro ⟨_, _, hnewline, rfl, rfl⟩
    exact ⟨rfl, hnewline⟩
  · rintro ⟨rfl, hnewline⟩
    exact ⟨(), s', hnewline, rfl, rfl⟩

theorem exact_content :
    Exact ((do comment; (newline <|> ending); return none) <|> (do newline; return none) <|>
      (some <$> (nextHeader <|> header <|> assignment))) Content := by
  have hstatement : Exact (some <$> (nextHeader <|> header <|> assignment))
      fun s found s' => ∃ statement, found = some statement ∧ Ended s statement s' := by
    refine exact_of_iff fun s found s' => ?_
    rw [map_eq_some_iff]
    simp only [exact_statement.iff, and_comm]
  have hothers := exact_emptyLine.orElse hstatement fun ⟨_, h⟩ ⟨_, _, _, hsaid, _⟩ _ => by
    obtain ⟨c, hc, hstart⟩ := hsaid.head?
    rcases h.head? with h | h <;> rw [← Option.some.inj (h.symm.trans hc)] at hstart <;>
      exact absurd hstart (by decide)
  refine (exact_commentLine.orElse hothers fun ⟨_, _, h, _⟩ hother _ => ?_).congr
    fun s found s' => ?_
  · rcases hother with ⟨-, hnewline⟩ | ⟨_, -, _, hsaid, -⟩
    · rcases hnewline.head? with hc | hc <;> simpa using h.head?.symm.trans hc
    · obtain ⟨c, hc, hstart⟩ := hsaid.head?
      rw [← Option.some.inj (h.head?.symm.trans hc)] at hstart
      exact absurd hstart (by decide)
  · constructor
    · rintro (⟨rfl, s₁, hcomment, hbreak⟩ | ⟨rfl, hnewline⟩ | ⟨statement, rfl, hended⟩)
      · exact .comment hcomment hbreak
      · exact .newline hnewline
      · exact .ended hended
    · intro h
      cases h with
      | comment comment ended => exact .inl ⟨rfl, _, comment, ended⟩
      | newline hnewline => exact .inr (.inl ⟨rfl, hnewline⟩)
      | ended ended => exact .inr (.inr ⟨_, rfl, ended⟩)

theorem exact_line : Exact line ScannedLine := by
  refine exact_of_iff fun s found s' => ?_
  simp only [line, bind_eq_some_iff, pure_eq_some_iff, exact_content.iff, blanks_eq_some_iff]
  constructor
  · rintro ⟨found, s₁, hcontent, _, _, ⟨hblanks, hends⟩, rfl, rfl⟩
    exact ⟨s₁, hcontent, hblanks, hends⟩
  · rintro ⟨s₁, hcontent, hblanks, hends⟩
    exact ⟨found, s₁, hcontent, (), s', ⟨hblanks, hends⟩, rfl, rfl⟩

/-! ### Lengths -/

theorem Break.length_le (h : Break s u s') : s'.rest.length ≤ s.rest.length := by
  cases h with
  | newline hnewline => exact Nat.le_of_lt (consumes_newline hnewline)
  | ending => exact Nat.le_refl _

theorem consumes_said (limits : Limits) : Consumes (Said limits) := by
  intro s statement s' h
  cases h with
  | assign dotted equals blanks value =>
    obtain ⟨depth, -, hvalue⟩ := value
    have := consumes_dottedKey limits dotted
    have := equals.length_lt
    have := blanks.length_le
    have := consumes_valueWithin limits depth hvalue
    omega
  | header opened dotted closed | nextHeader opened dotted closed =>
    have := opened.length_lt
    have := consumes_dottedKey limits dotted
    have := closed.length_lt
    omega

theorem consumes_scannedLine : Consumes ScannedLine := by
  rintro s found s' ⟨s₁, hcontent, hblanks, -⟩
  have := hblanks.length_le
  cases hcontent with
  | comment comment ended =>
    have := consumes_comment comment
    have := ended.length_le
    omega
  | newline hnewline =>
    have := consumes_newline hnewline
    omega
  | ended ended =>
    obtain ⟨s₂, hsaid, s₃, s₄, _, hbefore, hfound, hbreak⟩ := ended
    have := consumes_said _ hsaid
    have := hbefore.length_le
    have := hfound.length_le consumes_comment
    have := hbreak.length_le
    omega

/-! ### Documents -/

/-- A key takes the blanks in front of it or leaves them. -/
theorem Grammar.DottedKey.exists_blanks {limits : Limits} {k : List Key × Key}
    (h : DottedKey limits s k s') :
    ∃ s₁, Blanks s () s₁ ∧ Ends IsBlank s₁ ∧ DottedKey limits s₁ k s' := by
  have hpart {k : Key} {s' : Cursor} (h : KeyPart s k s') :
      ∃ s₁, Blanks s () s₁ ∧ Ends IsBlank s₁ ∧ KeyPart s₁ k s' := by
    cases h with
    | intro before key after =>
      obtain ⟨c, hc, hstart⟩ := key.head?
      exact ⟨_, before, ends_of_head? hc (not_isBlank_of_isKeyStart hstart),
        .intro ⟨[], .nil⟩ key after⟩
  cases h with
  | @intro _ _ path key parts few =>
    suffices h : ∃ s₁, Blanks s () s₁ ∧ Ends IsBlank s₁ ∧
        Separated '.' KeyPart s₁ (path ++ [key]) s' by
      obtain ⟨s₁, hblanks, hends, hparts⟩ := h
      exact ⟨s₁, hblanks, hends, .intro hparts few⟩
    generalize path ++ [key] = all at parts
    cases parts with
    | one only =>
      obtain ⟨s₁, hblanks, hends, honly⟩ := hpart only
      exact ⟨s₁, hblanks, hends, .one honly⟩
    | more first between others =>
      obtain ⟨s₁, hblanks, hends, hfirst⟩ := hpart first
      exact ⟨s₁, hblanks, hends, .more hfirst between others⟩

theorem Grammar.Said.exists_blanks {limits : Limits} {statement : Statement}
    (h : Said limits s statement s') :
    ∃ s₁, Blanks s () s₁ ∧ Ends IsBlank s₁ ∧ Said limits s₁ statement s' := by
  cases h with
  | assign dotted equals blanks value =>
    obtain ⟨s₁, hblanks, hends, hdotted⟩ := dotted.exists_blanks
    exact ⟨s₁, hblanks, hends, .assign hdotted equals blanks value⟩
  | header opened dotted closed =>
    exact ⟨s, ⟨[], .nil⟩, ends_of_head? opened.head? (by decide), .header opened dotted closed⟩
  | nextHeader opened dotted closed =>
    exact ⟨s, ⟨[], .nil⟩, ends_of_head? opened.head? (by decide), .nextHeader opened dotted closed⟩

/-- The scan of a line, from the line of the grammar. Only at the end of the text there is nothing to
scan on a line with nothing to say. -/
theorem content_of_line {found : Option Statement} (hline : Line .ofReader s found s₁)
    (hbreak : Break s₁ () s') :
    ∃ s₂, Blanks s () s₂ ∧ Ends IsBlank s₂ ∧
      (Content s₂ found s' ∨ found = none ∧ s₂ = s' ∧ s₁.rest = []) := by
  cases hline with
  | nothing blanks comment =>
    cases comment with
    | none =>
      refine ⟨s₁, blanks, hbreak.ends (by decide) (by decide), ?_⟩
      cases hbreak with
      | newline hnewline => exact .inl (.newline hnewline)
      | ending ending => exact .inr ⟨rfl, rfl, ending⟩
    | some only =>
      exact ⟨_, blanks, ends_of_head? only.head? (by decide), .inl (.comment only hbreak)⟩
  | said before said after comment =>
    obtain ⟨s₂, hblanks, hends, hsaid⟩ := said.exists_blanks
    exact ⟨s₂, before.trans hblanks, hends, .inl (.ended ⟨_, hsaid, _, _, _, after, comment, hbreak⟩)⟩

theorem line_of_content {found : Option Statement} (hblanks : Blanks s () s₁)
    (h : Content s₁ found s') : ∃ s₂, Line .ofReader s found s₂ ∧ Break s₂ () s' := by
  cases h with
  | comment comment ended => exact ⟨_, .nothing hblanks (.some comment), ended⟩
  | newline hnewline => exact ⟨s₁, .nothing hblanks .none, .newline hnewline⟩
  | ended ended =>
    obtain ⟨_, hsaid, _, s₂, _, hafter, hfound, hbreak⟩ := ended
    exact ⟨s₂, .said hblanks hsaid hafter hfound, hbreak⟩

theorem filterMap_id_cons {α : Type} (found : Option α) (others : List (Option α)) :
    (found :: others).filterMap id = found.toList ++ others.filterMap id := by
  cases found <;> rfl

/-- Lines up to the end of the text, as they are scanned. -/
def ScannedLines (s : Cursor) (statements : List Statement) : Prop :=
  ∃ lines s', Many ScannedLine s lines s' ∧ s'.rest = [] ∧ lines.filterMap id = statements

theorem scannedLines_of_lines {statements : List Statement} (h : Lines .ofReader s statements) :
    ∃ s₁, Blanks s () s₁ ∧ Ends IsBlank s₁ ∧ ScannedLines s₁ statements := by
  induction h with
  | @last s s' found line ending =>
    obtain ⟨s₁, hblanks, hends, hcontent | ⟨rfl, rfl, -⟩⟩ := content_of_line line (.ending ending)
    · have hfirst : ScannedLine s₁ found s' := ⟨s', hcontent, ⟨[], .nil⟩, ends_of_rest ending⟩
      exact ⟨s₁, hblanks, hends, [found], s', .cons hfirst .nil, ending,
        (filterMap_id_cons found []).trans (List.append_nil _)⟩
    · exact ⟨s₁, hblanks, hends, [], s₁, .nil, ending, rfl⟩
  | @more s s₂ s₃ found _ line newline _ ih =>
    obtain ⟨s₄, hblanks', hends', lines, s', hlines, hrest, rfl⟩ := ih
    obtain ⟨s₁, hblanks, hends, hcontent | ⟨-, -, hno⟩⟩ := content_of_line line (.newline newline)
    · have hfirst : ScannedLine s₁ found s₄ := ⟨s₃, hcontent, hblanks', hends'⟩
      exact ⟨s₁, hblanks, hends, found :: lines, s', .cons hfirst hlines, hrest,
        filterMap_id_cons found lines⟩
    · rcases newline.head? with h | h <;> simp [hno] at h

theorem lines_of_many {lines : List (Option Statement)} (h : Many ScannedLine s₁ lines s')
    (hrest : s'.rest = []) (hblanks : Blanks s () s₁) : Lines .ofReader s (lines.filterMap id) := by
  induction h generalizing s with
  | nil => exact .last (.nothing hblanks .none) hrest
  | @cons _ s₃ _ found others first hothers ih =>
    obtain ⟨s₂, hcontent, hafter, -⟩ := first
    obtain ⟨s₄, hline, hbreak⟩ := line_of_content hblanks hcontent
    rw [filterMap_id_cons]
    cases hbreak with
    | newline hnewline => exact .more hline hnewline (ih hrest hafter)
    | ending ending =>
      -- nothing is scanned after the end of the text
      have hnil : others = [] := by
        have hlength := hothers.length_le consumes_scannedLine
        have hafter := hafter.length_le
        rw [ending, List.length_nil] at hafter
        exact List.length_eq_zero_iff.mp (by omega)
      rw [hnil, List.filterMap_nil, List.append_nil]
      exact .last hline ending

theorem lines_iff {statements : List Statement} :
    Lines .ofReader s statements ↔
      ∃ s₁, Blanks s () s₁ ∧ Ends IsBlank s₁ ∧ ScannedLines s₁ statements := by
  refine ⟨scannedLines_of_lines, ?_⟩
  rintro ⟨s₁, hblanks, -, lines, s', hlines, hrest, rfl⟩
  exact lines_of_many hlines hrest hblanks

/-- No line begins with a byte order mark. -/
theorem char_mark_eq_none {statements : List Statement} (h : Lines .ofReader s statements) :
    char (· = '\ufeff') s = none := by
  have hmark : Exact (char (· = '\ufeff')) (Single (· = '\ufeff')) :=
    exact_char fun _ => decide_eq_true_iff
  refine hmark.eq_none fun c s' hone => ?_
  have hc := hone.head?
  rw [hone.1] at hc
  obtain ⟨s₁, hblanks, -, lines, s₂, hlines, hrest, -⟩ := lines_iff.mp h
  rcases hblanks.head? with rfl | ⟨d, hd, hblank⟩
  · cases hlines with
    | nil => simp [hrest] at hc
    | cons first _ =>
      obtain ⟨_, hcontent, -⟩ := first
      cases hcontent with
      | comment comment _ => simpa using hc.symm.trans comment.head?
      | newline hnewline => rcases hnewline.head? with h | h <;> simpa using hc.symm.trans h
      | ended ended =>
        obtain ⟨_, hsaid, -⟩ := ended
        obtain ⟨d, hd, hstart⟩ := hsaid.head?
        rw [← Option.some.inj (hc.symm.trans hd)] at hstart
        exact absurd hstart (by decide)
  · rw [← Option.some.inj (hc.symm.trans hd)] at hblank
    exact absurd hblank (by decide)

theorem statements_iff {text : String} {found : List Statement} :
    (∃ s', statements ⟨0, text.toList⟩ = some (found, s')) ↔ Says .ofReader text found := by
  have hmark : Exact (char (· = '\ufeff')) (Single (· = '\ufeff')) :=
    exact_char fun _ => decide_eq_true_iff
  simp only [statements, bind_eq_some_iff, pure_eq_some_iff, blanks_eq_some_iff, ending_eq_some_iff,
    exact_line.many_eq_some_iff consumes_scannedLine, Says, lines_iff]
  constructor
  · rintro ⟨s', mark, start, hfound, _, s₁, ⟨hblanks, hends⟩, lines, s₂, ⟨hlines, -⟩, _, _, ⟨hrest, -⟩,
      rfl, -⟩
    exact ⟨mark, start, hmark.orNone.sound hfound, s₁, hblanks, hends, lines, s₂, hlines, hrest, rfl⟩
  · rintro ⟨mark, start, hfound, s₁, hblanks, hends, lines, s₂, hlines, hrest, rfl⟩
    have hstart : Lines .ofReader start (lines.filterMap id) := lines_of_many hlines hrest hblanks
    have hstop (found : Option Statement) (s' : Cursor) : ¬ ScannedLine s₂ found s' := fun h => by
      have := consumes_scannedLine h
      simp [hrest] at this
    exact ⟨s₂, mark, start, hmark.orNone.complete hfound ⟨trivial, char_mark_eq_none hstart⟩, (), s₁,
      ⟨hblanks, hends⟩, lines, s₂, ⟨hlines, hstop⟩, (), s₂, ⟨hrest, rfl⟩, rfl, rfl⟩

/-- The reader finds exactly the documents within its limits, and the table that each builds up. -/
theorem read?_eq_some_iff {text : String} {t : Table} :
    read? text = some t ↔ IsDocument .ofReader text t := by
  have hread : read? text = some t ↔ ∃ found, (∃ s', statements ⟨0, text.toList⟩ = some (found, s')) ∧
      build? found = some t := by
    refine Option.bind_eq_some_iff.trans ⟨?_, ?_⟩
    · rintro ⟨⟨found, s'⟩, hfound, hbuild⟩
      exact ⟨found, ⟨s', hfound⟩, hbuild⟩
    · rintro ⟨found, ⟨s', hfound⟩, hbuild⟩
      exact ⟨(found, s'), hfound, hbuild⟩
  simp only [hread, statements_iff, IsDocument]

/-- Every document that is read is one of TOML 1.0. -/
theorem isDocument_of_read? {text : String} {t : Table} (h : read? text = some t) :
    IsDocument .none text t := (read?_eq_some_iff.mp h).mono (Limits.le_none _)

end Markup.Toml
