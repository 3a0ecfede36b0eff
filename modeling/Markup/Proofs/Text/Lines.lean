import Markup.Text.Lines

/-!
# Lines of a text by number

`LineAt cs n before line after`: the line of a text with a number, between what stands before it
and after it. There is one exactly for the numbers from one to the number of lines
(`exists_lineAt_iff`). It is the line that `lines` has at that place, its span is the bytes of it
(`LineAt.spanOfLine?`), and it is the one that a window around it marks (`LineAt.marks_window`).
-/

namespace Markup.Text

theorem byteSize_append (as bs : List Char) : byteSize (as ++ bs) = byteSize as + byteSize bs := by
  induction as with
  | nil => simp [byteSize]
  | cons a as ih => simp only [List.cons_append, byteSize, ih]; omega

theorem length_le_byteSize (cs : List Char) : cs.length ≤ byteSize cs := by
  induction cs with
  | nil => exact Nat.le_refl 0
  | cons c cs ih =>
    have := c.utf8Size_pos
    simp only [List.length_cons, byteSize]
    omega

theorem utf8ByteSize_ofList (cs : List Char) : (String.ofList cs).utf8ByteSize = byteSize cs := by
  induction cs with
  | nil => rfl
  | cons c cs ih =>
    rw [String.ofList_cons, String.utf8ByteSize_append, String.utf8ByteSize_singleton, ih, byteSize]

/-- The size of what stands before a character is a position in the text. -/
theorem isValid_byteSize {s : String} {before after : List Char}
    (h : s.toList = before ++ after) : String.Pos.Raw.IsValid s ⟨byteSize before⟩ := by
  refine String.Pos.Raw.isValid_iff_exists_append.mpr
    ⟨String.ofList before, String.ofList after, ?_, ?_⟩
  · rw [← String.ofList_append, ← h, String.ofList_toList]
  · rw [← utf8ByteSize_ofList]
    rfl

/-- The line of a text with a number, and what stands before and after it. -/
inductive LineAt : List Char → Nat → List Char → List Char → List Char → Prop where
  | first {line after : List Char} : '\n' ∉ line → (∀ c ∈ after.head?, c = '\n') →
    LineAt (line ++ after) 1 [] line after
  | later {l cs before line after : List Char} {n : Nat} : '\n' ∉ l →
    LineAt cs n before line after → LineAt (l ++ '\n' :: cs) (n + 1) (l ++ '\n' :: before) line after

namespace LineAt

variable {cs before line after : List Char} {n : Nat}

theorem pos (h : LineAt cs n before line after) : 1 ≤ n := by
  cases h <;> omega

theorem text (h : LineAt cs n before line after) : cs = before ++ (line ++ after) := by
  induction h with
  | first => rfl
  | later _ _ ih => rw [ih, List.append_assoc, List.cons_append]

theorem count_newline (h : LineAt cs n before line after) : before.count '\n' + 1 = n := by
  induction h with
  | first => rfl
  | later hl _ ih =>
    rw [List.count_append, List.count_eq_zero.mpr hl, List.count_cons_self]
    omega

/-- What stands before a line is nothing or ends in a newline. -/
theorem getLast?_before (h : LineAt cs n before line after) :
    ∀ c ∈ before.getLast?, c = '\n' := by
  induction h with
  | first => simp
  | @later l cs before line after n hl _ ih =>
    intro c hc
    rw [List.getLast?_append, List.getLast?_cons, Option.some_or] at hc
    cases hb : before.getLast? with
    | none =>
      rw [hb] at hc
      exact (Option.some.inj hc).symm
    | some b =>
      rw [hb] at hc
      cases hc
      exact ih b hb

theorem newline_notMem (h : LineAt cs n before line after) : '\n' ∉ line := by
  induction h with
  | first hl => exact hl
  | later _ _ ih => exact ih

theorem head?_after (h : LineAt cs n before line after) : ∀ c ∈ after.head?, c = '\n' := by
  induction h with
  | first _ ha => exact ha
  | later _ _ ih => exact ih

/-- The pieces of a text between newlines, taken apart at the line. -/
theorem splitOn_eq (h : LineAt cs n before line after) :
    ∃ pre post, cs.splitOn '\n' = pre ++ line :: post ∧ pre.length + 1 = n := by
  induction h with
  | @first line after hl ha =>
    cases after with
    | nil => exact ⟨[], [], by simpa using List.splitOn_eq_singleton hl, rfl⟩
    | cons c after =>
      rw [ha c rfl, List.splitOn_append_cons_self_of_not_mem hl]
      exact ⟨[], _, rfl, rfl⟩
  | later hl _ ih =>
    obtain ⟨pre, post, he, hn⟩ := ih
    rw [List.splitOn_append_cons_self_of_not_mem hl, he]
    exact ⟨_ :: pre, post, rfl, by simp [hn]⟩

end LineAt

theorem exists_lineAt {cs : List Char} {n : Nat} (h1 : 1 ≤ n)
    (hn : n ≤ (cs.splitOn '\n').length) : ∃ before line after, LineAt cs n before line after := by
  induction n generalizing cs with
  | zero => omega
  | succ n ih =>
    by_cases hmem : '\n' ∈ cs
    · obtain ⟨l, cs', rfl, hl⟩ := List.eq_append_cons_of_mem hmem
      cases n with
      | zero => exact ⟨[], l, '\n' :: cs', .first hl (by simp)⟩
      | succ n =>
        rw [List.splitOn_append_cons_self_of_not_mem hl, List.length_cons] at hn
        have hrest : n + 1 ≤ (cs'.splitOn '\n').length := by omega
        obtain ⟨before, line, after, h⟩ := ih (by omega) hrest
        exact ⟨_, line, after, .later hl h⟩
    · rw [List.splitOn_eq_singleton hmem, List.length_singleton] at hn
      obtain rfl : n = 0 := by omega
      have hall : LineAt (cs ++ []) 1 [] cs [] := .first hmem (by simp)
      rw [List.append_nil] at hall
      exact ⟨[], cs, [], hall⟩

theorem exists_lineAt_iff {s : String} {n : Nat} :
    (∃ before line after, LineAt s.toList n before line after) ↔
      1 ≤ n ∧ n ≤ (lines s).length := by
  unfold lines
  rw [List.length_map]
  constructor
  · rintro ⟨before, line, after, h⟩
    obtain ⟨pre, post, he, hn⟩ := h.splitOn_eq
    rw [he]
    simp only [List.length_append, List.length_cons]
    omega
  · rintro ⟨h1, hn⟩
    exact exists_lineAt h1 hn

theorem LineAt.getElem?_lines {s : String} {before line after : List Char} {n : Nat}
    (h : LineAt s.toList n before line after) :
    (lines s)[n - 1]? = some (String.ofList line) := by
  obtain ⟨pre, post, he, hn⟩ := h.splitOn_eq
  subst hn
  rw [Nat.add_sub_cancel, lines, he, List.getElem?_map,
    List.getElem?_append_right (Nat.le_refl _), Nat.sub_self]
  rfl

/-! ### Spans -/

theorem length_spans (start : Nat) (ls : List (List Char)) : (spans start ls).length = ls.length := by
  induction ls generalizing start with
  | nil => rfl
  | cons l ls ih => rw [spans, List.length_cons, ih, List.length_cons]

theorem LineAt.getElem?_spans {cs before line after : List Char} {n : Nat}
    (h : LineAt cs n before line after) (start : Nat) :
    (spans start (cs.splitOn '\n'))[n - 1]? =
      some (start + byteSize before, start + byteSize before + byteSize line) := by
  induction h generalizing start with
  | @first line after hl ha =>
    obtain ⟨pre, post, he, hn⟩ := (LineAt.first hl ha).splitOn_eq
    obtain rfl : pre = [] := List.eq_nil_of_length_eq_zero (by omega)
    rw [he]
    rfl
  | @later l cs before line after n hl h ih =>
    have hpos := h.pos
    obtain ⟨n, rfl⟩ : ∃ m, n = m + 1 := ⟨n - 1, by omega⟩
    rw [List.splitOn_append_cons_self_of_not_mem hl, spans]
    rw [Nat.add_sub_cancel, List.getElem?_cons_succ]
    have := ih (start + byteSize l + 1)
    rw [Nat.add_sub_cancel] at this
    rw [this, byteSize_append, byteSize]
    have hnl : Char.utf8Size '\n' = 1 := rfl
    simp only [hnl, Option.some.injEq, Prod.mk.injEq]
    omega

theorem LineAt.spanOfLine? {s : String} {before line after : List Char} {n : Nat}
    (h : LineAt s.toList n before line after) :
    spanOfLine? s n = some (byteSize before, byteSize before + byteSize line) := by
  have hpos := h.pos
  unfold Text.spanOfLine?
  rw [if_neg (by omega), h.getElem?_spans 0, Nat.zero_add]

theorem spanOfLine?_eq_none_iff {s : String} {n : Nat} :
    spanOfLine? s n = none ↔ ¬ (1 ≤ n ∧ n ≤ (lines s).length) := by
  unfold spanOfLine? lines
  split
  · next h => simp [h]
  · next h =>
    rw [List.getElem?_eq_none_iff, length_spans, List.length_map]
    omega

/-! ### Windows -/

theorem toNat_saturatingAdd (a b : UInt64) :
    (saturatingAdd a b).toNat = min (a.toNat + b.toNat) (UInt64.size - 1) := by
  unfold saturatingAdd
  split
  · next h =>
    rw [UInt64.toNat_add]
    have : UInt64.size = 2 ^ 64 := rfl
    omega
  · next h =>
    have : (UInt64.ofNat (UInt64.size - 1)).toNat = UInt64.size - 1 := rfl
    omega

theorem numberedLine_self (number : Nat) (line : String) :
    numberedLine number number line = "  > " ++ toString number ++ "| " ++ line := by
  rw [numberedLine, if_pos rfl]

theorem numberedLine_of_ne {marked number : Nat} (h : number ≠ marked) (line : String) :
    numberedLine marked number line = "    " ++ toString number ++ "| " ++ line := by
  rw [numberedLine, if_neg h]

theorem numberedLines_append (marked number : Nat) (xs ys : List String) :
    numberedLines marked number (xs ++ ys) =
      numberedLines marked number xs ++ numberedLines marked (number + xs.length) ys := by
  induction xs generalizing number with
  | nil => rfl
  | cons x xs ih =>
    rw [List.cons_append, numberedLines, ih, numberedLines, List.cons_append, List.length_cons]
    congr 3
    omega

theorem mem_numberedLines {marked number : Nat} {xs : List String} {row : String}
    (h : row ∈ numberedLines marked number xs) :
    ∃ k x, number ≤ k ∧ k < number + xs.length ∧ row = numberedLine marked k x := by
  induction xs generalizing number with
  | nil => cases h
  | cons x xs ih =>
    rcases List.mem_cons.mp h with rfl | h
    · exact ⟨number, x, by omega, by simp, rfl⟩
    · obtain ⟨k, y, h1, h2, rfl⟩ := ih h
      refine ⟨k, y, by omega, ?_, rfl⟩
      simp only [List.length_cons]
      omega

/-- The lines around a line that is one of them: some before it, the line and some after it. -/
theorem take_drop_around {α : Type} {pre post : List α} {x : α} {start stop : Nat}
    (h1 : start ≤ pre.length) (h2 : pre.length < stop) :
    ((pre ++ x :: post).take stop).drop start =
      pre.drop start ++ x :: post.take (stop - (pre.length + 1)) := by
  obtain ⟨k, rfl⟩ : ∃ k, stop = pre.length + (k + 1) := ⟨stop - (pre.length + 1), by omega⟩
  rw [List.take_length_add_append, List.take_succ_cons, List.drop_append_of_le_length h1]
  congr 3
  omega

/-- One row is marked: that of the line with the number. -/
def Marks (rows : String) (number : Nat) (line : String) : Prop :=
  ∃ front back, rows = "\n".intercalate
      (front ++ ("  > " ++ toString number ++ "| " ++ line) :: back) ∧
    ∀ row ∈ front ++ back, ∃ k other, k ≠ number ∧ row = "    " ++ toString k ++ "| " ++ other

theorem LineAt.marks_window {s : String} {line context : UInt64} {before text after : List Char}
    (h : LineAt s.toList line.toNat before text after) (hc : 1 ≤ context.toNat) :
    Marks (window s line context) line.toNat (String.ofList text) := by
  obtain ⟨pre, post, he, hn⟩ := h.splitOn_eq
  have hall : lines s = pre.map String.ofList ++ String.ofList text :: post.map String.ofList := by
    rw [lines, he, List.map_append, List.map_cons]
  have hsat := toNat_saturatingAdd line context
  have hsize : line.toNat < UInt64.size := line.toNat_lt
  have hlen : (lines s).length = pre.length + (post.length + 1) := by simp [hall]
  have hstop : pre.length < min (lines s).length (saturatingAdd line context).toNat := by omega
  have hstart : min (line.toNat - context.toNat)
      (min (lines s).length (saturatingAdd line context).toNat) ≤ pre.length := by omega
  unfold Marks window
  dsimp only
  generalize min (lines s).length (saturatingAdd line context).toNat = stop at hstop hstart
  generalize hg : min (line.toNat - context.toNat) stop = start at hstart
  rw [hall, take_drop_around (by simpa using hstart) (by simpa using hstop),
    numberedLines_append, numberedLines]
  have hnum : start + 1 + ((pre.map String.ofList).drop start).length = line.toNat := by
    simp only [List.length_drop, List.length_map]
    omega
  rw [hnum, numberedLine_self]
  refine ⟨_, _, rfl, fun row hrow => ?_⟩
  -- the rows in front have smaller numbers, those behind greater ones
  rcases List.mem_append.mp hrow with hrow | hrow
  · obtain ⟨k, other, -, hk, rfl⟩ := mem_numberedLines hrow
    exact ⟨k, other, by omega, numberedLine_of_ne (by omega) other⟩
  · obtain ⟨k, other, hk, -, rfl⟩ := mem_numberedLines hrow
    exact ⟨k, other, by omega, numberedLine_of_ne (by omega) other⟩

end Markup.Text
