import Markup.Proofs.Text.Marked

/-!
# The bytes of a line

A line of a text has a span exactly if the text has the line, and the bytes of the span are those of
the line: it is cut out between characters, behind the newline before it and in front of the one after
it (`LineAt.isSpan`). The span of the next line begins one byte further on (`spans_next`).

`spanOfLine?_exact` puts this together, with the row of the line in a window around it: offsets of
bytes and numbers of rows tell the same lines apart.
-/

namespace Markup.Text

/-- The bytes from `start` to `stop` of a text are a line of it: whole characters, and what is next to
them is a newline or nothing. -/
structure IsSpan (s line : String) (start stop : Nat) : Prop where
  le : start ≤ stop
  within : stop ≤ s.utf8ByteSize
  valid_start : String.Pos.Raw.IsValid s ⟨start⟩
  valid_stop : String.Pos.Raw.IsValid s ⟨stop⟩
  before : start = 0 ∨ s.toByteArray.extract (start - 1) start = "\n".toByteArray
  after : stop = s.utf8ByteSize ∨ s.toByteArray.extract stop (stop + 1) = "\n".toByteArray
  bytes : s.toByteArray.extract start stop = line.toByteArray

/-- The bytes between what stands before a part of a text and after it are those of the part. -/
theorem extract_part {s : String} {before part after : List Char}
    (h : s.toList = before ++ (part ++ after)) :
    s.toByteArray.extract (byteSize before) (byteSize before + byteSize part) =
      (String.ofList part).toByteArray := by
  have hs : s = String.ofList before ++ (String.ofList part ++ String.ofList after) := by
    rw [← String.ofList_append, ← String.ofList_append, ← h, String.ofList_toList]
  have hbefore := String.size_toByteArray (s := String.ofList before)
  have hpart := String.size_toByteArray (s := String.ofList part)
  rw [utf8ByteSize_ofList] at hbefore hpart
  rw [hs, String.toByteArray_append, String.toByteArray_append]
  exact (ByteArray.extract_append_size_add' (i := 0) hbefore.symm).trans
    (ByteArray.extract_append_eq_left hpart.symm)

namespace LineAt

variable {s : String} {before line after : List Char} {n : Nat}

theorem isSpan (h : LineAt s.toList n before line after) :
    IsSpan s (String.ofList line) (byteSize before) (byteSize before + byteSize line) := by
  have htext := h.text
  have hnewline : byteSize ['\n'] = 1 := rfl
  have hsize : s.utf8ByteSize = byteSize before + (byteSize line + byteSize after) := by
    rw [← byteSize_append, ← byteSize_append, ← htext, ← utf8ByteSize_ofList, String.ofList_toList]
  have hstop := isValid_byteSize (htext.trans (List.append_assoc ..).symm)
  rw [byteSize_append] at hstop
  refine ⟨by omega, by omega, isValid_byteSize htext, hstop, ?_, ?_, extract_part htext⟩
  · -- what stands before the line ends in a newline
    rcases List.eq_nil_or_concat before with rfl | ⟨front, c, rfl⟩
    · exact .inl rfl
    · right
      rw [List.concat_eq_append] at htext ⊢
      obtain rfl : c = '\n' := h.getLast?_before c (by simp)
      rw [List.append_assoc] at htext
      have hpart := extract_part htext
      rw [byteSize_append, hnewline, Nat.add_sub_cancel]
      exact hpart
  · cases after with
    | nil =>
      left
      rw [hsize]
      rfl
    | cons c rest =>
      right
      obtain rfl : c = '\n' := h.head?_after c rfl
      have htail : s.toList = (before ++ line) ++ (['\n'] ++ rest) :=
        htext.trans (List.append_assoc ..).symm
      have hpart := extract_part htail
      rw [byteSize_append, hnewline] at hpart
      exact hpart

end LineAt

/-- Between the spans of two consecutive lines there is one byte. -/
theorem spans_next {start i a b c d : Nat} {ls : List (List Char)}
    (h : (spans start ls)[i]? = some (a, b)) (hnext : (spans start ls)[i + 1]? = some (c, d)) :
    c = b + 1 := by
  induction ls generalizing start i with
  | nil => cases h
  | cons l ls ih =>
    rw [spans] at h hnext
    rw [List.getElem?_cons_succ] at hnext
    cases i with
    | zero =>
      cases ls with
      | nil => cases hnext
      | cons l' ls =>
        cases h
        cases hnext
        rfl
    | succ i => exact ih h hnext

/-- The span of a line, for every number. There is one exactly if the text has the line, and its bytes
are the line that a window around it marks. The span of the next line begins one byte behind it. -/
theorem spanOfLine?_exact (s : String) (n : Nat) :
    ((spanOfLine? s n).isSome ↔ 1 ≤ n ∧ n ≤ (lines s).length) ∧
    ∀ start stop, spanOfLine? s n = some (start, stop) →
      ∃ line, (lines s)[n - 1]? = some line ∧ IsSpan s line start stop ∧
        (∀ number context : UInt64, number.toNat = n → context ≠ 0 →
          (lines (window s number context)).filter isMarked =
            ["  > " ++ toString n ++ "| " ++ line]) ∧
        ∀ start' stop', spanOfLine? s (n + 1) = some (start', stop') → start' = stop + 1 := by
  have hsome : (spanOfLine? s n).isSome ↔ 1 ≤ n ∧ n ≤ (lines s).length := by
    rw [← Option.ne_none_iff_isSome, ne_eq, spanOfLine?_eq_none_iff, Decidable.not_not]
  refine ⟨hsome, fun start stop hspan => ?_⟩
  have hn := hsome.mp (Option.isSome_of_eq_some hspan)
  obtain ⟨before, line, after, hline⟩ := exists_lineAt_iff.mpr hn
  have hget := hline.getElem?_lines
  have hbytes := hline.isSpan
  rw [hline.spanOfLine?, Option.some.injEq, Prod.mk.injEq] at hspan
  obtain ⟨rfl, rfl⟩ := hspan
  refine ⟨String.ofList line, hget, hbytes, ?_, fun start' stop' hnext => ?_⟩
  · rintro number context rfl hc
    rw [filter_isMarked_window hn.1 hget hc, numberedLine_self]
  · have hspan := hline.spanOfLine?
    obtain ⟨k, rfl⟩ : ∃ k, n = k + 1 := ⟨n - 1, by omega⟩
    exact spans_next hspan hnext

/-- The third line of a text that ends with a newline, behind one with a letter of two bytes and an
empty one. -/
theorem spanOfLine?_exact_third :
    spanOfLine? "né\n\nöl\n" 3 = some (5, 8) ∧ IsSpan "né\n\nöl\n" "öl" 5 8 ∧
    (lines (window "né\n\nöl\n" 3 1)).filter isMarked = ["  > 3| öl"] ∧
    ∃ start stop, spanOfLine? "né\n\nöl\n" 4 = some (start, stop) ∧ start = 8 + 1 := by
  have hspan : spanOfLine? "né\n\nöl\n" 3 = some (5, 8) := by decide
  have hnext : spanOfLine? "né\n\nöl\n" 4 = some (9, 9) := by decide
  obtain ⟨line, hline, hbytes, hmarked, hstart⟩ := (spanOfLine?_exact "né\n\nöl\n" 3).2 5 8 hspan
  obtain rfl : "öl" = line := Option.some.inj hline
  exact ⟨hspan, hbytes, hmarked 3 1 rfl (by decide), 9, 9, hnext, hstart 9 9 hnext⟩

end Markup.Text
