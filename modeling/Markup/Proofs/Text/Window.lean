import Markup.Proofs.Text.Lines

/-!
# Windows around a line

A window has the lines whose numbers are in a range around that of the marked one (`Around`), in
their order. The bounds of the range are integers: the lower one may be below the first line and the
upper one beyond the last or beyond any size, and the window then ends where the text does
(`window_eq_rows`).

Of the numbers that are computed for a window, none is too large and no range is outside of the
lines (`window?_eq_some`). The sums that could be too large are cut at the largest size, which no
text has more lines than.
-/

namespace Markup.Text

/-- The line numbers around a line: those after `line - context` up to `line + context`. -/
def Around (line context : UInt64) (number : Nat) : Prop :=
  (line.toNat : Int) - context.toNat < number ∧ (number : Int) ≤ line.toNat + context.toNat

instance (line context : UInt64) : DecidablePred (Around line context) :=
  fun _ => inferInstanceAs (Decidable (_ ∧ _))

/-! ### Rows -/

theorem numberedLines_eq_map (marked number : Nat) (xs : List String) :
    numberedLines marked number xs =
      (xs.zipIdx number).map fun x => numberedLine marked x.2 x.1 := by
  induction xs generalizing number with
  | nil => rfl
  | cons x xs ih => rw [numberedLines, ih, List.zipIdx_cons, List.map_cons]

theorem numberedLine_ne_empty (marked number : Nat) (line : String) :
    numberedLine marked number line ≠ "" := by
  intro h
  have hlen := congrArg String.length h
  unfold numberedLine at hlen
  split at hlen <;> simp at hlen

/-- Rows that are joined make an empty text only if there are none. -/
theorem intercalate_eq_empty_iff {rows : List String} (h : ∀ row ∈ rows, row ≠ "") :
    "\n".intercalate rows = "" ↔ rows = [] := by
  cases rows with
  | nil => simp
  | cons row rows =>
    have hrow := h row List.mem_cons_self
    cases rows with
    | nil => simpa using hrow
    | cons next rows => simp [String.intercalate_cons_cons]

/-- The numbered elements of a list with numbers in a range are one part of the list. -/
theorem filter_zipIdx {α : Type} (xs : List α) (start stop : Nat) (h : start ≤ stop)
    (hstop : stop ≤ xs.length) (p : α × Nat → Bool)
    (hp : ∀ x ∈ xs.zipIdx 1, p x = true ↔ start < x.2 ∧ x.2 ≤ stop) :
    (xs.zipIdx 1).filter p = ((xs.take stop).drop start).zipIdx (start + 1) := by
  -- the list is what comes before the part, the part, and what comes behind it
  have hsplit : xs = (xs.take start ++ (xs.take stop).drop start) ++ xs.drop stop := by
    have hstart : xs.take start = (xs.take stop).take start := by rw [List.take_take, Nat.min_eq_left h]
    rw [hstart, List.take_append_drop, List.take_append_drop]
  have hfront : (xs.take start).length = start := by rw [List.length_take]; omega
  have hpart : ((xs.take stop).drop start).length = stop - start := by
    rw [List.length_drop, List.length_take]; omega
  generalize xs.take start = front at hsplit hfront
  generalize (xs.take stop).drop start = part at hsplit hpart ⊢
  generalize xs.drop stop = back at hsplit
  subst hsplit
  rw [List.zipIdx_append, List.zipIdx_append, List.length_append, hfront, hpart] at hp ⊢
  have hnone : (front.zipIdx 1).filter p = [] := by
    rw [List.filter_eq_nil_iff]
    intro x hx
    have := List.snd_lt_add_of_mem_zipIdx hx
    rw [hp x (by simp [hx])]
    omega
  have hall : (part.zipIdx (1 + start)).filter p = part.zipIdx (1 + start) := by
    rw [List.filter_eq_self]
    intro x hx
    have := List.le_snd_of_mem_zipIdx hx
    have := List.snd_lt_add_of_mem_zipIdx hx
    rw [hp x (by simp [hx])]
    omega
  have hrest : (back.zipIdx (1 + (start + (stop - start)))).filter p = [] := by
    rw [List.filter_eq_nil_iff]
    intro x hx
    have := List.le_snd_of_mem_zipIdx hx
    rw [hp x (by simp [hx])]
    omega
  rw [List.filter_append, List.filter_append, hnone, hall, hrest, List.nil_append, List.append_nil,
    Nat.add_comm]

/-- The numbered lines around a line. -/
def linesAround (s : String) (line context : UInt64) : List (String × Nat) :=
  ((lines s).zipIdx 1).filter fun x => Around line context x.2

/-- A window has the lines around its line and no others. A text with no more lines than a size can
tell has none beyond the largest size, where the upper bound is cut. -/
theorem window_eq_rows {s : String} (hs : (lines s).length < UInt64.size) (line context : UInt64) :
    window s line context =
      "\n".intercalate ((linesAround s line context).map fun x =>
        numberedLine line.toNat x.2 x.1) := by
  have hsum := toNat_saturatingAdd line context
  unfold window linesAround
  dsimp only
  generalize hstop : min (lines s).length (saturatingAdd line context).toNat = stop
  generalize hstart : min (line.toNat - context.toNat) stop = start
  rw [filter_zipIdx (lines s) start stop (by omega) (by omega) _ ?_,
    numberedLines_eq_map]
  intro x hx
  have := List.le_snd_of_mem_zipIdx hx
  have := List.snd_lt_add_of_mem_zipIdx hx
  rw [decide_eq_true_iff]
  unfold Around
  omega

/-! ### Sizes -/

theorem checkedAdd?_eq_some {a b : UInt64} (h : a.toNat + b.toNat < UInt64.size) :
    checkedAdd? a b = some (a + b) ∧ (a + b).toNat = a.toNat + b.toNat :=
  ⟨if_pos h, by rw [UInt64.toNat_add]; exact Nat.mod_eq_of_lt h⟩

theorem toNat_saturatingSub (a b : UInt64) :
    (saturatingSub a b).toNat = a.toNat - b.toNat := by
  unfold saturatingSub
  split
  · next h => exact UInt64.toNat_sub_of_le a b h
  · next h =>
    rw [UInt64.le_iff_toNat_le] at h
    rw [UInt64.toNat_zero]
    omega

theorem toNat_min (a b : UInt64) : (min a b).toNat = min a.toNat b.toNat := by
  have h : min a b = if a ≤ b then a else b := rfl
  rw [h]
  simp only [UInt64.le_iff_toNat_le]
  split <;> omega

/-- The numbers of rows are sizes as long as that of the last one is. -/
theorem numberedLines?_eq_some (line start i : UInt64) (xs : List String)
    (h : start.toNat + i.toNat + xs.length < UInt64.size) :
    numberedLines? line start i xs =
      some (numberedLines line.toNat (start.toNat + i.toNat + 1) xs) := by
  induction xs generalizing i with
  | nil => rfl
  | cons x xs ih =>
    rw [List.length_cons] at h
    obtain ⟨hplace, hplaceNat⟩ := checkedAdd?_eq_some (a := start) (b := i) (by omega)
    obtain ⟨hnumber, hnumberNat⟩ := checkedAdd?_eq_some (a := start + i) (b := 1)
      (by rw [hplaceNat, UInt64.toNat_one]; omega)
    obtain ⟨hnext, hnextNat⟩ := checkedAdd?_eq_some (a := i) (b := 1)
      (by rw [UInt64.toNat_one]; omega)
    rw [UInt64.toNat_one] at hnumberNat hnextNat
    have hrest := ih (i + 1) (by omega)
    rw [hnextNat, ← Nat.add_assoc] at hrest
    simp only [numberedLines?, hplace, hnumber, hnext, hrest, Option.bind_eq_bind, Option.bind_some]
    rw [numberedLines, hnumberNat, hplaceNat]
    rfl

theorem window?_eq_some {s : String} (hs : (lines s).length < UInt64.size)
    (line context : UInt64) : window? s line context = some (window s line context) := by
  have hsize : size? (lines s).length = some (.ofNat (lines s).length) := if_pos hs
  have hcount : (UInt64.ofNat (lines s).length).toNat = (lines s).length :=
    UInt64.toNat_ofNat_of_lt' hs
  have hstop := toNat_min (.ofNat (lines s).length) (saturatingAdd line context)
  rw [hcount] at hstop
  have hstart := toNat_min (saturatingSub line context)
    (min (.ofNat (lines s).length) (saturatingAdd line context))
  rw [hstop, toNat_saturatingSub] at hstart
  unfold window? window
  simp only [hsize, Option.bind_eq_bind, Option.bind_some]
  generalize min (UInt64.ofNat (lines s).length) (saturatingAdd line context) = stop at *
  generalize min (saturatingSub line context) stop = start at *
  have hbetween : between? (lines s) start stop =
      some (((lines s).take stop.toNat).drop start.toNat) := by
    refine if_pos ⟨?_, by omega⟩
    rw [UInt64.le_iff_toNat_le]
    omega
  have hlength : start.toNat + (0 : UInt64).toNat +
      (((lines s).take stop.toNat).drop start.toNat).length < UInt64.size := by
    rw [UInt64.toNat_zero, List.length_drop, List.length_take]
    omega
  rw [hbetween, Option.bind_some, numberedLines?_eq_some line start 0 _ hlength, UInt64.toNat_zero,
    Nat.add_zero, ← hstart, ← hstop]
  rfl

/-! ### Windows, exactly -/

/-- For every line and every distance, a window is computed without a sum or a range that is too
large. It has the lines around its line in the order of their numbers, each behind its number and
the mark of the line or as much space, and is empty if there are none. That the lines of the text
can be counted is true of any text in memory. -/
theorem window_exact {s : String} (hs : (lines s).length < UInt64.size) (line context : UInt64) :
    window? s line context = some (window s line context) ∧
    window s line context = "\n".intercalate
      ((((lines s).zipIdx 1).filter fun x => Around line context x.2).map fun x =>
        (if x.2 = line.toNat then "  > " else "    ") ++ toString x.2 ++ "| " ++ x.1) ∧
    (window s line context = "" ↔
      ∀ number, 1 ≤ number → number ≤ (lines s).length → ¬ Around line context number) := by
  refine ⟨window?_eq_some hs line context, window_eq_rows hs line context, ?_⟩
  have hrows : ∀ row ∈ (linesAround s line context).map (fun x => numberedLine line.toNat x.2 x.1),
      row ≠ "" := by
    intro row hrow
    obtain ⟨x, -, rfl⟩ := List.mem_map.mp hrow
    exact numberedLine_ne_empty _ _ _
  rw [window_eq_rows hs, intercalate_eq_empty_iff hrows, List.map_eq_nil_iff, linesAround,
    List.filter_eq_nil_iff]
  constructor
  · intro h number h1 hn haround
    have hmem : ((lines s)[number - 1], number) ∈ (lines s).zipIdx 1 := by
      rw [List.mk_mem_zipIdx_iff_le_and_getElem?_sub]
      exact ⟨h1, List.getElem?_eq_getElem _⟩
    exact h _ hmem (decide_eq_true haround)
  · intro h x hx haround
    have h1 := List.le_snd_of_mem_zipIdx hx
    have hn := List.snd_lt_add_of_mem_zipIdx hx
    exact h x.2 h1 (by omega) (of_decide_eq_true haround)

/-- A line without a number, one beyond the end, and the largest distance there is, in a text that
ends with a newline. -/
theorem window_exact_extremes :
    (lines "a\nb\n").length < UInt64.size ∧
    window? "a\nb\n" 2 18446744073709551615 = some "    1| a\n  > 2| b\n    3| " ∧
    window? "a\nb\n" 0 2 = some "    1| a\n    2| b" ∧
    window? "a\nb\n" 18446744073709551615 18446744073709551613 = some "    3| " ∧
    window "a\nb\n" 4 1 = "" := by
  have hs : (lines "a\nb\n").length < UInt64.size := by decide
  refine ⟨hs, (window_exact hs _ _).1.trans (congrArg some ?_),
    (window_exact hs _ _).1.trans (congrArg some ?_),
    (window_exact hs _ _).1.trans (congrArg some ?_), (window_exact hs 4 1).2.2.mpr ?_⟩
  · exact (window_exact hs _ _).2.1.trans (by decide)
  · exact (window_exact hs _ _).2.1.trans (by decide)
  · exact (window_exact hs _ _).2.1.trans (by decide)
  · intro number h1 hn
    have hlen : (lines "a\nb\n").length = 3 := rfl
    have hline : (4 : UInt64).toNat = 4 := rfl
    unfold Around
    rw [hline, UInt64.toNat_one]
    omega

end Markup.Text
