import Markup.Proofs.Text.Window

/-!
# The marked row of a window

A row of a window begins with the mark of its line or with as much space (`isMarked`). No row has a
newline of its own, so the lines that one reads of a window are its rows (`lines_joined`), and only the
one with the number of the line is marked (`filter_isMarked_numberedLines`).

That row is in the window exactly if some lines around it are asked for: the lines shown are those
after `line - context`, so with `context = 0` even the line itself is left out
(`filter_isMarked_window`, `window_zero`).
-/

namespace Markup

namespace Text

/-- A row begins with the mark of a failing line. -/
def isMarked (row : String) : Bool := "  > ".toList.isPrefixOf row.toList

theorem isMarked_numberedLine (marked number : Nat) (line : String) :
    isMarked (numberedLine marked number line) = decide (number = marked) := by
  unfold isMarked numberedLine
  split
  · next h => simp [h]
  · next h => simp [h, List.isPrefixOf]

/-- Of consecutive rows one is marked, if the number is among theirs. -/
theorem filter_isMarked_numberedLines (marked number : Nat) (xs : List String) :
    (numberedLines marked number xs).filter isMarked =
      (if number ≤ marked then xs[marked - number]? else none).toList.map
        (numberedLine marked marked) := by
  induction xs generalizing number with
  | nil => simp [numberedLines]
  | cons x xs ih =>
    rw [numberedLines, List.filter_cons, isMarked_numberedLine, ih]
    rcases Nat.lt_trichotomy number marked with h | rfl | h
    · have hplace : marked - number = marked - (number + 1) + 1 := by omega
      rw [if_pos (by omega : number + 1 ≤ marked), if_pos (by omega : number ≤ marked), hplace,
        List.getElem?_cons_succ]
      simp [Nat.ne_of_lt h]
    · rw [if_neg (Nat.not_succ_le_self number), if_pos (Nat.le_refl number), Nat.sub_self]
      simp
    · rw [if_neg (by omega : ¬ number + 1 ≤ marked), if_neg (by omega : ¬ number ≤ marked)]
      simp [Nat.ne_of_gt h]

/-! ### Rows as lines -/

theorem newline_notMem_lines {s line : String} (h : line ∈ lines s) : '\n' ∉ line.toList := by
  obtain ⟨i, hi, rfl⟩ := List.mem_iff_getElem.mp h
  obtain ⟨before, line, after, hline⟩ := exists_lineAt_iff.mpr ⟨Nat.succ_pos i, hi⟩
  have hget := hline.getElem?_lines
  rw [Nat.succ_sub_one, List.getElem?_eq_getElem hi, Option.some.injEq] at hget
  rw [hget, String.toList_ofList]
  exact hline.newline_notMem

theorem newline_notMem_toDigits (n : Nat) : '\n' ∉ Nat.toDigits 10 n := by
  intro h
  have hdigit := Nat.isDigit_of_mem_toDigits (by decide) (by decide) h
  revert hdigit
  decide

theorem newline_notMem_numberedLine (marked number : Nat) {line : String}
    (h : '\n' ∉ line.toList) : '\n' ∉ (numberedLine marked number line).toList := by
  have hnumber := newline_notMem_toDigits number
  unfold numberedLine
  split <;> simp [h, hnumber]

theorem lines_intercalate {rows : List String} (h : ∀ row ∈ rows, '\n' ∉ row.toList)
    (hne : rows ≠ []) : lines ("\n".intercalate rows) = rows := by
  have hsplit : (("\n".intercalate rows).toList).splitOn '\n' = rows.map String.toList := by
    rw [String.toList_intercalate]
    exact List.splitOn_intercalate '\n' (by simpa using h) (by simpa using hne)
  rw [lines, hsplit, List.map_map]
  simp

/-! ### The marked row of a window -/

/-- No row of a window has a newline of its own, so that its lines are its rows. -/
theorem lines_joined {s : String} {xs : List String} (hxs : ∀ x ∈ xs, x ∈ lines s)
    {marked number : Nat} (hne : xs ≠ []) :
    lines ("\n".intercalate (numberedLines marked number xs)) = numberedLines marked number xs := by
  rw [numberedLines_eq_map]
  refine lines_intercalate (fun row hrow => ?_) (by simpa using hne)
  obtain ⟨x, hx, rfl⟩ := List.mem_map.mp hrow
  exact newline_notMem_numberedLine _ _ (newline_notMem_lines (hxs x.1 (List.fst_mem_of_mem_zipIdx hx)))

theorem window_zero (s : String) (line : UInt64) : window s line 0 = "" := by
  have hsum := toNat_saturatingAdd line 0
  have hline := line.toNat_lt_size
  rw [UInt64.toNat_zero] at hsum
  have hstart : min (line.toNat - 0) (min (lines s).length (saturatingAdd line 0).toNat) =
      min (lines s).length (saturatingAdd line 0).toNat := by omega
  unfold window
  dsimp only
  rw [UInt64.toNat_zero, hstart, List.drop_eq_nil_of_le (List.length_take_le ..)]
  rfl

/-- With some lines around it, the failing line is in its window and marked, and no other line is. -/
theorem filter_isMarked_window {s line : String} {number context : UInt64}
    (h1 : 1 ≤ number.toNat) (hline : (lines s)[number.toNat - 1]? = some line)
    (hc : context ≠ 0) :
    (lines (window s number context)).filter isMarked =
      [numberedLine number.toNat number.toNat line] := by
  have hsum := toNat_saturatingAdd number context
  have hsize := number.toNat_lt_size
  have hpos : context.toNat ≠ 0 := fun h => hc (UInt64.toNat_inj.mp h)
  obtain ⟨hlen, -⟩ := List.getElem?_eq_some_iff.mp hline
  unfold window
  dsimp only
  generalize hstop : min (lines s).length (saturatingAdd number context).toNat = stop
  generalize hstart : min (number.toNat - context.toNat) stop = start
  have hplace : (((lines s).take stop).drop start)[number.toNat - (start + 1)]? = some line := by
    have hsame : start + (number.toNat - (start + 1)) = number.toNat - 1 := by omega
    rw [List.getElem?_drop, hsame, List.getElem?_take_of_lt (by omega), hline]
  have hne : ((lines s).take stop).drop start ≠ [] := by
    intro h
    rw [h] at hplace
    cases hplace
  rw [lines_joined (fun x hx => List.mem_of_mem_take (List.mem_of_mem_drop hx)) hne,
    filter_isMarked_numberedLines, if_pos (by omega), hplace]
  rfl

end Text

end Markup
