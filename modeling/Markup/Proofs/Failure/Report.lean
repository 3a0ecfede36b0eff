import Markup.Failure.Report
import Markup.Proofs.Text.Breaks
import Markup.Proofs.Text.Lines

/-!
# What a report points at

A report finds its line by bytes among the lines between newlines, and takes the same figures for
characters among the displayed lines. `Report.of?_pointsAt` says when the two lead to one line:
exactly if no other break than a newline stands before the line and its label, moved by the bytes
that the text has beyond one for each character, still lies on the displayed line that begins with
it (`Aligned`). So it does in a text of one-byte characters. In `accented` it does not: two letters
of two bytes on the first line move the label of the second to the third.

The proof cuts the text before the line, where a displayed line ends as well
(`Text.displayLines_append`), and follows `Snippet.lineAt?` over the part before the cut
(`Snippet.lineAt?_append`) and over the displayed line behind it (`Snippet.lineAt?_cons`).
-/

namespace Markup

open Text

namespace Snippet

variable {char index offset : Nat} {l : List Char} {ls as bs : List (List Char)}

/-! ### The displayed line of a character -/

theorem lineAt?_ne_none (h : offset ≤ char) (hb : bs ≠ []) :
    lineAt? char index offset bs ≠ none := by
  cases bs with
  | nil => exact absurd rfl hb
  | cons l ls =>
    rw [lineAt?, if_neg (by omega)]
    cases lineAt? char (index + 1) (offset + l.length) ls <;> nofun

theorem lineAt?_cons (h : offset ≤ char) :
    lineAt? char index offset (l :: ls) =
      if char < offset + l.length ∨ ls = [] then some (index, offset, l)
      else lineAt? char (index + 1) (offset + l.length) ls := by
  rw [lineAt?, if_neg (by omega)]
  split
  · next hc =>
    have hnone : lineAt? char (index + 1) (offset + l.length) ls = none := by
      cases ls with
      | nil => rfl
      | cons m ms =>
        rw [lineAt?, if_pos (hc.resolve_right (List.cons_ne_nil m ms))]
    rw [hnone, Option.none_or]
  · next hc =>
    rw [not_or] at hc
    have hfurther : lineAt? char (index + 1) (offset + l.length) ls ≠ none :=
      lineAt?_ne_none (Nat.le_of_not_lt hc.1) hc.2
    obtain ⟨x, hx⟩ := Option.ne_none_iff_exists'.mp hfurther
    rw [hx, Option.some_or]

/-- The displayed lines that end at or before a character are passed over. -/
theorem lineAt?_append (hb : bs ≠ []) (h : offset + as.flatten.length ≤ char) :
    lineAt? char index offset (as ++ bs) =
      lineAt? char (index + as.length) (offset + as.flatten.length) bs := by
  induction as generalizing index offset with
  | nil => rfl
  | cons a as ih =>
    rw [List.flatten_cons, List.length_append] at h
    rw [List.cons_append, lineAt?_cons (by omega), if_neg, ih (by omega), List.flatten_cons,
      List.length_append, List.length_cons]
    · congr 1 <;> omega
    · rw [not_or]
      exact ⟨by omega, by simp [hb]⟩

/-- A character behind the last displayed line is put on that line. -/
theorem lineAt?_last (h : as.flatten.length ≤ char) :
    lineAt? char 0 0 (as ++ [l]) = some (as.length, as.flatten.length, l) := by
  rw [lineAt?_append (List.cons_ne_nil l []) (by omega), lineAt?_cons (by omega), if_pos (.inr rfl),
    Nat.zero_add, Nat.zero_add]

theorem index_le_of_lineAt? {j o : Nat} (h : lineAt? char index offset ls = some (j, o, l)) :
    index ≤ j := by
  induction ls generalizing index offset with
  | nil => cases h
  | cons m ms ih =>
    rw [lineAt?] at h
    split at h
    · cases h
    · rcases Option.or_eq_some_iff.mp h with h | ⟨-, h⟩
      · have := ih h
        omega
      · cases h
        exact Nat.le_refl _

/-- A label within the text stands on the displayed line of its first character. -/
theorem of?_eq_some {source chars : List Char} {start stop i o : Nat}
    (h : start ≤ source.length) (h' : stop ≤ source.length + 1)
    (hl : lineAt? start 0 0 (displayLines source) = some (i, o, chars)) :
    of? source start stop = some
      { number := i + 1
        chars := withoutTrailingSpace chars
        length := chars.length
        start := start - o
        stop := stop - o
        middle := (start + stop) / 2 - o } := by
  rw [of?, if_neg (by omega), hl]
  rfl

theorem exists_lineAt?_of_of? {source : List Char} {start stop : Nat} {s : Snippet}
    (h : of? source start stop = some s) :
    start ≤ source.length ∧ ∃ i o chars,
      lineAt? start 0 0 (displayLines source) = some (i, o, chars) ∧
      s.number = i + 1 ∧ s.chars = withoutTrailingSpace chars ∧ s.length = chars.length ∧
      s.stop = stop - o := by
  rw [of?] at h
  split at h
  · cases h
  · next hle =>
    obtain ⟨⟨i, o, chars⟩, hl, rfl⟩ := Option.map_eq_some_iff.mp h
    exact ⟨by omega, i, o, chars, hl, rfl, rfl, rfl, rfl⟩

/-- The snippet has the number of the line and shows it, which it does if its label does not reach
beyond it. -/
structure Shows (s : Snippet) (number : Nat) (line : List Char) : Prop where
  number : s.number = number
  stop : s.stop ≤ s.length
  chars : s.chars = withoutTrailingSpace line

end Snippet

namespace Report

/-- The label of a line is on the displayed line that begins with it: no break but the newlines
stands before the line, and the label, which is as far from the start of the text in characters as
the line is in bytes, does not go beyond that displayed line. -/
structure Aligned (before line after : List Char) : Prop where
  breaks : (displayLines before).length = before.count '\n'
  fits : ∃ shown others, displayLines (line ++ after) = shown :: others ∧
    byteSize (before ++ line) ≤ (before ++ shown).length ∧
    (byteSize before < (before ++ shown).length ∨ others = [])

/-- The empty line behind a last newline is not displayed. The displayed line before it is as good
if it is blank and has its number, which it has after one break that is not a newline. -/
structure BlankEnd (before line after : List Char) : Prop where
  last : line ++ after = []
  bytes : byteSize before = before.length
  blank : ∃ others shown, displayLines before = others ++ [shown] ∧
    others.length = before.count '\n' ∧ withoutTrailingSpace shown = []

section Label

variable {cs before line after : List Char} {n : Nat}

theorem displayLines_lineAt (h : LineAt cs n before line after) :
    displayLines cs = displayLines before ++ displayLines (line ++ after) := by
  rw [h.text, displayLines_append h.getLast?_before]

/-- The character that a line begins with in bytes does not stand before the line, so that the
displayed lines before the line are passed over. -/
theorem lineAt?_past (h : LineAt cs n before line after) (hne : line ++ after ≠ []) :
    Snippet.lineAt? (byteSize before) 0 0 (displayLines cs) =
      Snippet.lineAt? (byteSize before) (displayLines before).length before.length
        (displayLines (line ++ after)) := by
  have hpast : 0 + (displayLines before).flatten.length ≤ byteSize before := by
    rw [flatten_displayLines, Nat.zero_add]
    exact length_le_byteSize before
  rw [displayLines_lineAt h, Snippet.lineAt?_append (displayLines_ne_nil hne) hpast,
    flatten_displayLines, Nat.zero_add, Nat.zero_add]

theorem shows_of_aligned (h : LineAt cs n before line after) (ha : Aligned before line after) :
    ∃ s, Snippet.of? cs (byteSize before) (byteSize before + byteSize line) = some s ∧
      s.Shows n line := by
  obtain ⟨hb, shown, others, hd, hfit, hlast⟩ := ha
  have hcount := h.count_newline
  have hflat := length_flatten_of_displayLines hd
  rw [List.flatten_cons, List.length_append] at hflat
  have hlen : cs.length = before.length + (line ++ after).length := by
    rw [h.text, List.length_append]
  rw [byteSize_append, List.length_append] at hfit
  rw [List.length_append] at hlast
  have hbefore := length_le_byteSize before
  have hline := length_le_byteSize line
  have hat : Snippet.lineAt? (byteSize before) 0 0 (displayLines cs) =
      some (n - 1, before.length, shown) := by
    have hne : line ++ after ≠ [] := by
      intro he
      rw [he] at hd
      cases hd
    rw [lineAt?_past h hne, hd, Snippet.lineAt?_cons hbefore, if_pos hlast, hb]
    congr 2
    omega
  refine ⟨_, Snippet.of?_eq_some (by omega) (by omega) hat, ?_, ?_, ?_⟩
  · show n - 1 + 1 = n
    omega
  · show byteSize before + byteSize line - before.length ≤ shown.length
    omega
  · exact withoutTrailingSpace_head h.newline_notMem h.head?_after hd (by omega)

theorem aligned_of_shows (h : LineAt cs n before line after) (hne : line ++ after ≠ [])
    {s : Snippet} (hs : Snippet.of? cs (byteSize before) (byteSize before + byteSize line) = some s)
    (hn : s.Shows n line) : Aligned before line after := by
  obtain ⟨-, i, o, chars, hat, hnumber, -, hlength, hstop⟩ := Snippet.exists_lineAt?_of_of? hs
  have hcount := h.count_newline
  have hle := count_newline_le before
  have hi : i + 1 = n := hnumber.symm.trans hn.number
  rw [lineAt?_past h hne] at hat
  cases hd : displayLines (line ++ after) with
  | nil => exact absurd hd (displayLines_ne_nil hne)
  | cons shown others =>
    rw [hd, Snippet.lineAt?_cons (length_le_byteSize before)] at hat
    split at hat
    · next hlast =>
      cases hat
      have hend := hn.stop
      rw [hstop, hlength] at hend
      refine ⟨by omega, chars, others, hd, ?_, ?_⟩
      · rw [byteSize_append, List.length_append]
        omega
      · rwa [List.length_append]
    · -- a line further on has too great a number
      have := Snippet.index_le_of_lineAt? hat
      omega

theorem blankEnd_iff (h : LineAt cs n before line after) (hnil : line ++ after = []) :
    (∃ s, Snippet.of? cs (byteSize before) (byteSize before + byteSize line) = some s ∧
      s.Shows n line) ↔ BlankEnd before line after := by
  obtain ⟨rfl, rfl⟩ := List.append_eq_nil_iff.mp hnil
  have hcs : cs = before := by simpa using h.text
  have hcount := h.count_newline
  have hle := length_le_byteSize before
  subst hcs
  constructor
  · rintro ⟨s, hs, hn⟩
    obtain ⟨hin, i, o, chars, hat, hnumber, hchars, -, -⟩ := Snippet.exists_lineAt?_of_of? hs
    have hbytes : byteSize cs = cs.length := by omega
    rcases List.eq_nil_or_concat (displayLines cs) with hd | ⟨others, shown, hd⟩
    · rw [hd] at hat
      cases hat
    · rw [List.concat_eq_append] at hd
      have hflat := length_flatten_of_displayLines hd
      rw [List.flatten_append, List.length_append] at hflat
      rw [hd, Snippet.lineAt?_last (by omega)] at hat
      cases hat
      have hi : others.length + 1 = n := hnumber.symm.trans hn.number
      exact ⟨rfl, hbytes, others, chars, hd, by omega, hchars.symm.trans hn.chars⟩
  · rintro ⟨-, hbytes, others, shown, hd, hothers, hblank⟩
    have hflat := length_flatten_of_displayLines hd
    rw [List.flatten_append, List.length_append, List.flatten_singleton] at hflat
    have hat : Snippet.lineAt? (byteSize cs) 0 0 (displayLines cs) =
        some (others.length, others.flatten.length, shown) := by
      rw [hd, Snippet.lineAt?_last (by omega)]
    refine ⟨_, Snippet.of?_eq_some (by omega) (by simp only [byteSize]; omega) hat, ?_, ?_, hblank⟩
    · show others.length + 1 = n
      omega
    · show byteSize cs + byteSize [] - others.flatten.length ≤ shown.length
      simp only [byteSize]
      omega

/-- A text of one-byte characters up to the end of a line leads to the line, unless another break
than a newline stands in it or the line is the empty one at the end of the text. -/
theorem aligned_of_byteSize_eq (hbytes : byteSize (before ++ line) = (before ++ line).length)
    (hbreaks : (displayLines before).length = before.count '\n')
    (hline : ∀ c ∈ line.dropLast, isBreak c = false) (hne : line ++ after ≠ []) :
    Aligned before line after := by
  obtain ⟨shown, others, hd⟩ := List.exists_cons_of_ne_nil (displayLines_ne_nil hne)
  have hle := length_le_head hline hd
  have hpos := List.length_pos_iff.mpr (ne_nil_of_displayLines hd)
  have hbefore := length_le_byteSize before
  have hl := length_le_byteSize line
  rw [byteSize_append, List.length_append] at hbytes
  refine ⟨hbreaks, shown, others, hd, ?_, .inl ?_⟩
  · rw [byteSize_append, List.length_append]
    omega
  · rw [List.length_append]
    omega

end Label

variable {e : RenderError} {source : String} {L : UInt64} {before line after : List Char}

theorem of?_lineAt (he : e.line = some L) (h : LineAt source.toList L.toNat before line after) :
    of? e source = some
      { detail := e.detail
        name := e.path.getD "template"
        snippet := Snippet.of? source.toList (byteSize before) (byteSize before + byteSize line) } := by
  unfold of?
  rw [he]
  show ((spanOfLine? source L.toNat).bind _) = _
  rw [h.spanOfLine?]
  rfl

theorem of?_eq_none_iff :
    of? e source = none ↔
      ∀ L, e.line = some L → ¬ (1 ≤ L.toNat ∧ L.toNat ≤ (lines source).length) := by
  constructor
  · intro h L he hL
    obtain ⟨before, line, after, hline⟩ := exists_lineAt_iff.mpr hL
    rw [of?_lineAt he hline] at h
    cases h
  · intro h
    unfold of?
    cases he : e.line with
    | none => rfl
    | some L =>
      show ((spanOfLine? source L.toNat).bind _) = none
      rw [spanOfLine?_eq_none_iff.mpr (h L he)]
      rfl

/-- The report names the line by its number and shows it. -/
def PointsAt (r : Report) (number : Nat) (line : List Char) : Prop :=
  ∃ s, r.snippet = some s ∧ s.Shows number line

/-- There is a report exactly if the error has a line and the source has that line, which is then
also the one that a window around it marks. The report points at it exactly if its label is on the
displayed line that begins with it, or if a blank displayed line stands for it at the end of the
text. So it does if the text up to the end of the line has one byte for each character and no break
but the newlines. -/
theorem of?_pointsAt (e : RenderError) (source : String) :
    (of? e source = none ↔
      ∀ L, e.line = some L → ¬ (1 ≤ L.toNat ∧ L.toNat ≤ (lines source).length)) ∧
    ∀ L, e.line = some L → 1 ≤ L.toNat → L.toNat ≤ (lines source).length →
      ∃ before line after, LineAt source.toList L.toNat before line after ∧
        (lines source)[L.toNat - 1]? = some (String.ofList line) ∧
        (∀ context : UInt64, 1 ≤ context.toNat →
          Marks (window source L context) L.toNat (String.ofList line)) ∧
        ∃ r, of? e source = some r ∧
          (r.PointsAt L.toNat line ↔ Aligned before line after ∨ BlankEnd before line after) ∧
          (byteSize (before ++ line) = (before ++ line).length →
            (displayLines before).length = before.count '\n' →
            (∀ c ∈ line.dropLast, isBreak c = false) → line ++ after ≠ [] →
              r.PointsAt L.toNat line) := by
  refine ⟨of?_eq_none_iff, fun L he h1 hL => ?_⟩
  obtain ⟨before, line, after, h⟩ := exists_lineAt_iff.mpr ⟨h1, hL⟩
  refine ⟨before, line, after, h, h.getElem?_lines, fun _ hc => h.marks_window hc, _,
    of?_lineAt he h, ?_, fun hbytes hbreaks hline hne => ?_⟩
  · by_cases hne : line ++ after = []
    · have hnot : ¬ Aligned before line after := by
        rintro ⟨-, shown, others, hd, -⟩
        rw [hne] at hd
        cases hd
      rw [or_iff_right hnot]
      exact blankEnd_iff h hne
    · have hnot : ¬ BlankEnd before line after := fun hb => hne hb.last
      rw [or_iff_left hnot]
      constructor
      · rintro ⟨s, hs, hn⟩
        exact aligned_of_shows h hne hs hn
      · exact shows_of_aligned h
  · exact shows_of_aligned h (aligned_of_byteSize_eq hbytes hbreaks hline hne)

/-- Two letters of two bytes, and three lines of one letter. -/
def accented : String := "éé\na\nb\nc"

/-- The report of an error on the second line points at the third. -/
theorem not_pointsAt_accented :
    (lines accented)[1]? = some "a" ∧
      ∃ r, of? { RenderError.ofMessage "boom" with line := some 2 } accented = some r ∧
        r.PointsAt 3 ['b'] ∧ ¬ r.PointsAt 2 ['a'] := by
  refine ⟨by decide, _, rfl, ⟨_, rfl, ⟨by decide, by decide, by decide⟩⟩, ?_⟩
  rintro ⟨s, hs, hn⟩
  cases hs
  cases hn.number

end Report

end Markup
