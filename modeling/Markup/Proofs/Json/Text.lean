import Mathlib.Tactic.SplitIfs
import Markup.Json.Reader
import Markup.Proofs.Text.Lines

/-!
# Reading a quoted text back

A character of a quoted text stands for itself, has an escape of one letter, or is a control character
and is written by its number: `Json.CharText`. Each of the three is read as the character it was
(`textChars_charText`), and so is a whole text, by induction on its characters (`quotedText_quote`).
-/

namespace Markup.Json

variable {fuel : Nat} {c : Char} {es cs tail others rest : List Char}

/-! ### How a character is written -/

/-- The letters of the short escapes, each with its character. -/
def escapes : List (Char × Char) :=
  [('"', '"'), ('\\', '\\'), ('b', '\x08'), ('f', '\x0c'), ('n', '\n'), ('r', '\r'), ('t', '\t')]

/-- The ways to write a character between quotation marks. -/
inductive CharText (c : Char) : List Char → Prop where
  | itself (quote : c ≠ '"') (slash : c ≠ '\\') (control : ¬ c.toNat < 32) : CharText c [c]
  | short {letter : Char} (h : (letter, c) ∈ escapes) : CharText c ['\\', letter]
  | control (h : c.toNat < 32) : CharText c
      ['\\', 'u', '0', '0', Nat.digitChar (c.toNat / 16), Nat.digitChar (c.toNat % 16)]

theorem charText_quoteChar (c : Char) : CharText c (quoteChar c) := by
  have hshort {letter d : Char} (h : c = d) (hmem : (letter, d) ∈ escapes) :
      CharText c ['\\', letter] := h ▸ .short (h ▸ hmem)
  unfold quoteChar
  split_ifs with hquote hslash hb hf hn hr ht hcontrol
  · exact hshort hquote (by decide)
  · exact hshort hslash (by decide)
  · exact hshort hb (by decide)
  · exact hshort hf (by decide)
  · exact hshort hn (by decide)
  · exact hshort hr (by decide)
  · exact hshort ht (by decide)
  · exact .control hcontrol
  · exact .itself hquote hslash hcontrol

theorem CharText.ne_nil (h : CharText c cs) : cs ≠ [] := by
  cases h <;> exact List.cons_ne_nil _ _

/-! ### Reading a character -/

theorem escapedChar_short {letter : Char} (h : (letter, c) ∈ escapes) :
    escapedChar (letter :: tail) = .ok (c, tail) := by
  simp only [escapes, List.mem_cons, Prod.mk.injEq, List.not_mem_nil, or_false] at h
  rcases h with ⟨rfl, rfl⟩ | ⟨rfl, rfl⟩ | ⟨rfl, rfl⟩ | ⟨rfl, rfl⟩ | ⟨rfl, rfl⟩ | ⟨rfl, rfl⟩ | ⟨rfl, rfl⟩ <;>
    rfl

theorem hex4?_control : ∀ n < 32,
    hex4? '0' '0' (Nat.digitChar (n / 16)) (Nat.digitChar (n % 16)) = some n := by
  decide

theorem hexEscape_of_hex4? {a b d : Char} {n : Nat} (h : hex4? c a b d = some n) :
    hexEscape (c :: a :: b :: d :: tail) = .ok (n, tail) := by
  have hbytes := Text.length_le_byteSize (c :: a :: b :: d :: tail)
  simp only [List.length_cons] at hbytes
  rw [hexEscape, if_neg (by omega), h]

theorem escapedChar_control (hcontrol : c.toNat < 32) :
    escapedChar ('u' :: '0' :: '0' :: Nat.digitChar (c.toNat / 16) ::
      Nat.digitChar (c.toNat % 16) :: tail) = .ok (c, tail) := by
  have hlow : isLowSurrogate c.toNat = false := by
    simp only [isLowSurrogate, Bool.and_eq_false_iff, decide_eq_false_iff_not]
    omega
  have hhigh : isHighSurrogate c.toNat = false := by
    simp only [isHighSurrogate, Bool.and_eq_false_iff, decide_eq_false_iff_not]
    omega
  show unicodeEscape _ = _
  rw [unicodeEscape, hexEscape_of_hex4? (hex4?_control c.toNat hcontrol)]
  show (if isLowSurrogate c.toNat then _ else if isHighSurrogate c.toNat then _ else _) = _
  rw [hlow, hhigh, if_neg Bool.false_ne_true, if_neg Bool.false_ne_true, Char.ofNat_toNat]
  rfl

theorem textChars_escape (hescape : escapedChar es = .ok (c, tail))
    (hothers : textChars fuel tail = .ok (others, rest)) :
    textChars (fuel + 1) ('\\' :: es) = .ok (c :: others, rest) := by
  rw [textChars, if_neg (by decide), if_pos rfl, hescape]
  show (textChars fuel tail >>= fun p => pure (c :: p.1, p.2)) = _
  rw [hothers]
  rfl

/-- Whichever way a character is written, it is read as that character. -/
theorem textChars_charText (h : CharText c cs) (hothers : textChars fuel tail = .ok (others, rest)) :
    textChars (fuel + 1) (cs ++ tail) = .ok (c :: others, rest) := by
  cases h with
  | itself hquote hslash hcontrol =>
    rw [List.singleton_append, textChars, if_neg hquote, if_neg hslash, if_neg hcontrol, hothers]
    rfl
  | short h => exact textChars_escape (escapedChar_short h) hothers
  | control h => exact textChars_escape (escapedChar_control h) hothers

/-! ### Reading a text -/

theorem textChars_flatMap (cs : List Char) (h : cs.length < fuel) :
    textChars fuel (cs.flatMap quoteChar ++ '"' :: rest) = .ok (cs, rest) := by
  induction cs generalizing fuel with
  | nil =>
    obtain ⟨fuel, rfl⟩ := Nat.exists_eq_succ_of_ne_zero (Nat.ne_of_gt h)
    rfl
  | cons c cs ih =>
    obtain ⟨fuel, rfl⟩ := Nat.exists_eq_succ_of_ne_zero (Nat.ne_zero_of_lt h)
    rw [List.flatMap_cons, List.append_assoc]
    exact textChars_charText (charText_quoteChar c) (ih (Nat.lt_of_succ_lt_succ h))

theorem length_le_flatMap_quoteChar (cs : List Char) : cs.length ≤ (cs.flatMap quoteChar).length := by
  induction cs with
  | nil => exact Nat.le_refl 0
  | cons c cs ih =>
    have hpos := List.length_pos_iff.mpr (charText_quoteChar c).ne_nil
    simp only [List.flatMap_cons, List.length_cons, List.length_append]
    omega

theorem toList_quote (s : String) :
    (quote s).toList = '"' :: (s.toList.flatMap quoteChar ++ ['"']) := by
  rw [quote, String.toList_ofList, List.cons_append]

/-- A text between quotation marks is read as that text. -/
theorem quotedText_quote (s : String) (rest : List Char) :
    quotedText (s.toList.flatMap quoteChar ++ '"' :: rest) = .ok (s, rest) := by
  have hlen := length_le_flatMap_quoteChar s.toList
  rw [quotedText, textChars_flatMap s.toList (by simp only [List.length_append]; omega)]
  show Except.ok (String.ofList s.toList, rest) = _
  rw [String.ofList_toList]

end Markup.Json
