import Markup.Text.Breaks

/-!
# Displayed lines

The displayed lines of a text make up the text (`flatten_displayLines`), and a text may be cut
behind a newline and its two parts displayed apart (`displayLines_append`). No displayed line
holds a newline but at its end, so the one that begins a line holds that line and at most the
newline behind it (`withoutTrailingSpace_head`).
-/

namespace Markup.Text

theorem isBreak_newline : isBreak '\n' = true := rfl

theorem flatten_consFirst (c : Char) (ls : List (List Char)) :
    (consFirst c ls).flatten = c :: ls.flatten := by
  cases ls <;> rfl

theorem consFirst_append (c : Char) {ls : List (List Char)} (h : ls ≠ []) (ms : List (List Char)) :
    consFirst c (ls ++ ms) = consFirst c ls ++ ms := by
  cases ls with
  | nil => exact absurd rfl h
  | cons l ls => rfl

/-- The displayed lines of a text make up the text. -/
theorem flatten_displayLines (cs : List Char) : (displayLines cs).flatten = cs := by
  fun_induction displayLines cs with
  | case1 => rfl
  | case2 cs ih => simp [ih]
  | case3 c cs _ hb ih => simp [ih]
  | case4 c cs _ hb ih => rw [flatten_consFirst, ih]

theorem length_flatten_of_displayLines {cs : List Char} {ls : List (List Char)}
    (h : displayLines cs = ls) : ls.flatten.length = cs.length := by
  rw [← h, flatten_displayLines]

theorem displayLines_ne_nil {cs : List Char} (h : cs ≠ []) : displayLines cs ≠ [] := by
  intro hd
  have := flatten_displayLines cs
  rw [hd] at this
  exact h this.symm

/-- A character that does not begin a carriage return with its newline. -/
theorem displayLines_cons {c : Char} {cs : List Char}
    (h : ∀ ds, c = '\r' → cs = '\n' :: ds → False) :
    displayLines (c :: cs) =
      if isBreak c then [c] :: displayLines cs else consFirst c (displayLines cs) := by
  rw [displayLines]
  exact h

/-- A text may be cut behind a newline, and its parts displayed apart. -/
theorem displayLines_append {before : List Char} (h : ∀ c ∈ before.getLast?, c = '\n')
    (rest : List Char) :
    displayLines (before ++ rest) = displayLines before ++ displayLines rest := by
  -- what is left of a text that ends in a newline is empty or ends in one
  have tail : ∀ {c : Char} {cs : List Char}, (∀ d ∈ (c :: cs).getLast?, d = '\n') →
      ∀ d ∈ cs.getLast?, d = '\n' := by
    intro c cs h d hd
    refine h d ?_
    rw [List.getLast?_cons, Option.mem_def.mp hd]
    rfl
  -- and a carriage return at the cut would have no newline behind it
  have whole : ∀ {c : Char} {cs : List Char}, (∀ d ∈ (c :: cs).getLast?, d = '\n') →
      (∀ ds, c = '\r' → cs = '\n' :: ds → False) →
      ∀ ds, c = '\r' → cs ++ rest = '\n' :: ds → False := by
    intro c cs h hne ds hc hds
    cases cs with
    | nil =>
      have : c = '\n' := h c rfl
      rw [hc] at this
      cases this
    | cons d cs => exact hne cs hc (by rw [(List.cons.inj hds).1])
  fun_induction displayLines before with
  | case1 => rfl
  | case2 cs ih =>
    show ['\r', '\n'] :: displayLines (cs ++ rest) = _
    rw [ih (tail (tail h)), List.cons_append]
  | case3 c cs hne hb ih =>
    rw [List.cons_append, displayLines_cons (whole h hne), if_pos hb, ih (tail h),
      List.cons_append]
  | case4 c cs hne hb ih =>
    have hcs : cs ≠ [] := by
      rintro rfl
      exact hb (h c rfl ▸ isBreak_newline)
    rw [List.cons_append, displayLines_cons (whole h hne), if_neg hb, ih (tail h),
      consFirst_append c (displayLines_ne_nil hcs)]

theorem length_consFirst (c : Char) (ls : List (List Char)) :
    ls.length ≤ (consFirst c ls).length := by
  cases ls <;> simp [consFirst]

/-- There are at least as many displayed lines as newlines. -/
theorem count_newline_le (cs : List Char) : cs.count '\n' ≤ (displayLines cs).length := by
  fun_induction displayLines cs with
  | case1 => exact Nat.le_refl 0
  | case2 cs ih =>
    rw [List.count_cons_of_ne (by decide), List.count_cons_self, List.length_cons]
    omega
  | case3 c cs hne hb ih =>
    have := List.count_cons (a := '\n') (b := c) (l := cs)
    rw [List.length_cons]
    split at this <;> omega
  | case4 c cs hne hb ih =>
    have hc : c ≠ '\n' := fun e => hb (e ▸ isBreak_newline)
    have := length_consFirst c (displayLines cs)
    rw [List.count_cons_of_ne hc]
    omega

/-! ### The first displayed line -/

/-- The first displayed line holds no newline but at its end. -/
theorem newline_notMem_dropLast {cs shown : List Char} {others : List (List Char)}
    (h : displayLines cs = shown :: others) : '\n' ∉ shown.dropLast := by
  fun_induction displayLines cs generalizing shown others with
  | case1 => cases h
  | case2 cs ih =>
    cases h
    decide
  | case3 c cs hne hb ih =>
    cases h
    exact List.not_mem_nil
  | case4 c cs hne hb ih =>
    have hc : '\n' ≠ c := fun e => hb (e ▸ isBreak_newline)
    cases hd : displayLines cs with
    | nil =>
      rw [hd] at h
      cases h
      exact List.not_mem_nil
    | cons l ls =>
      rw [hd] at h
      cases h
      cases l with
      | nil => exact List.not_mem_nil
      | cons d l =>
        rw [List.dropLast_cons_cons, List.mem_cons, not_or]
        exact ⟨hc, ih hd⟩

theorem ne_nil_of_displayLines {cs shown : List Char} {others : List (List Char)}
    (h : displayLines cs = shown :: others) : shown ≠ [] := by
  fun_induction displayLines cs with
  | case1 => cases h
  | case2 cs =>
    cases h
    exact List.cons_ne_nil _ _
  | case3 c cs =>
    cases h
    exact List.cons_ne_nil _ _
  | case4 c cs =>
    cases hd : displayLines cs with
    | nil =>
      rw [hd] at h
      cases h
      exact List.cons_ne_nil _ _
    | cons l ls =>
      rw [hd] at h
      cases h
      exact List.cons_ne_nil _ _

/-- A line without a break but at its end is displayed whole. -/
theorem length_le_head {line after shown : List Char} {others : List (List Char)}
    (hb : ∀ c ∈ line.dropLast, isBreak c = false)
    (h : displayLines (line ++ after) = shown :: others) : line.length ≤ shown.length := by
  induction line generalizing shown others with
  | nil => exact Nat.zero_le _
  | cons c line ih =>
    cases line with
    | nil => exact List.length_pos_iff.mpr (ne_nil_of_displayLines h)
    | cons d line =>
      rw [List.dropLast_cons_cons, List.forall_mem_cons] at hb
      obtain ⟨l, ls, hd⟩ : ∃ l ls, displayLines (d :: line ++ after) = l :: ls :=
        List.exists_cons_of_ne_nil (displayLines_ne_nil (List.cons_ne_nil _ _))
      rw [List.cons_append, displayLines_cons (fun _ hc => by subst hc; cases hb.1), hd,
        if_neg (by simp [hb.1])] at h
      cases h
      exact Nat.succ_le_succ (ih hb.2 hd)

theorem withoutTrailingSpace_newline (cs : List Char) :
    withoutTrailingSpace (cs ++ ['\n']) = withoutTrailingSpace cs := by
  unfold withoutTrailingSpace
  rw [List.reverse_append, List.reverse_singleton, List.singleton_append,
    List.dropWhile_cons_of_pos rfl]

/-- A displayed line that begins a line and is not shorter shows that line. -/
theorem withoutTrailingSpace_head {line after shown : List Char} {others : List (List Char)}
    (hl : '\n' ∉ line) (ha : ∀ c ∈ after.head?, c = '\n')
    (h : displayLines (line ++ after) = shown :: others) (hlen : line.length ≤ shown.length) :
    withoutTrailingSpace shown = withoutTrailingSpace line := by
  have hflat := flatten_displayLines (line ++ after)
  rw [h, List.flatten_cons] at hflat
  obtain ⟨tail, rfl, htail⟩ : ∃ tail, shown = line ++ tail ∧ after = tail ++ others.flatten := by
    rcases List.append_eq_append_iff.mp hflat with ⟨tail, rfl, htail⟩ | h'
    · rw [List.length_append] at hlen
      obtain rfl : tail = [] := List.eq_nil_of_length_eq_zero (by omega)
      exact ⟨[], by simp, htail.symm⟩
    · exact h'
  have hdrop := newline_notMem_dropLast h
  cases tail with
  | nil => rw [List.append_nil]
  | cons c tail =>
    obtain rfl : c = '\n' := ha c (by rw [htail]; rfl)
    cases tail with
    | nil => exact withoutTrailingSpace_newline line
    | cons d tail =>
      refine absurd ?_ hdrop
      rw [List.dropLast_append_cons, List.mem_append]
      exact .inr List.mem_cons_self

end Markup.Text
