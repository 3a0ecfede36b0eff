import Markup.Number.Literal
import Markup.Proofs.Number.Decimal

/-!
# The digits of a number text

A decimal is written, plainly or with an exponent, as a literal (`plain_eq`, `scientific_eq`) that
denotes it (`decimal_plainLiteral`, `decimal_scientificLiteral`). Such a literal is `Proper`: it has
digits, and none is a zero in front of others.
-/

namespace Markup

/-! ### Runs of characters -/

section runs

variable {p : Char → Bool} {as bs cs ds : List Char}

/-- A run of characters ends here. -/
def EndsRun (p : Char → Bool) (cs : List Char) : Prop := ∀ c ∈ cs.head?, p c = false

theorem endsRun_nil : EndsRun p [] := nofun

theorem endsRun_cons {c : Char} (h : p c = false) : EndsRun p (c :: cs) := by
  rintro c' ⟨⟩
  exact h

theorem takeWhile_run (ha : ∀ c ∈ as, p c) (hc : EndsRun p cs) : (as ++ cs).takeWhile p = as := by
  rw [List.takeWhile_append_of_pos ha]
  cases cs with
  | nil => exact List.append_nil as
  | cons c cs => rw [List.takeWhile_cons_of_neg (by simp [hc c rfl]), List.append_nil]

theorem dropWhile_run (ha : ∀ c ∈ as, p c) (hc : EndsRun p cs) : (as ++ cs).dropWhile p = cs := by
  rw [List.dropWhile_append_of_pos ha]
  cases cs with
  | nil => rfl
  | cons c cs => rw [List.dropWhile_cons_of_neg (by simp [hc c rfl])]

/-- Texts that begin with a run determine the run. -/
theorem run_inj (ha : ∀ c ∈ as, p c) (hb : ∀ c ∈ bs, p c) (hc : EndsRun p cs) (hd : EndsRun p ds)
    (h : as ++ cs = bs ++ ds) : as = bs ∧ cs = ds := by
  have htake := congrArg (List.takeWhile p) h
  have hdrop := congrArg (List.dropWhile p) h
  rw [takeWhile_run ha hc, takeWhile_run hb hd] at htake
  rw [dropWhile_run ha hc, dropWhile_run hb hd] at hdrop
  exact ⟨htake, hdrop⟩

end runs

namespace Literal

variable {l : Literal} {ds : List Char} {c : Char}

/-! ### What digits denote -/

theorem digitsValue_eq (ds : List Char) : digitsValue ds = Nat.ofDigitChars 10 ds 0 := rfl

theorem digitsValue_append (as bs : List Char) :
    digitsValue (as ++ bs) = digitsValue as * 10 ^ bs.length + digitsValue bs := by
  rw [digitsValue_eq, Nat.ofDigitChars_append, Nat.ofDigitChars_eq_ofDigitChars_zero, Nat.mul_comm]
  rfl

theorem digitsValue_zeros (n : Nat) : digitsValue (List.replicate n '0') = 0 := by
  rw [digitsValue_eq, Nat.ofDigitChars_replicate_zero, Nat.mul_zero]

theorem digitsValue_digitChars (n : Nat) : digitsValue (Decimal.digitChars n) = n :=
  Nat.ofDigitChars_ten_toDigits

theorem toNat_sub_lt_ten (hc : c.isDigit) : c.toNat - 48 < 10 := by
  have hle : c.val ≤ '9'.val := by
    simp only [Char.isDigit, ge_iff_le, Bool.and_eq_true, decide_eq_true_eq] at hc
    exact hc.2
  have hnat : c.toNat ≤ 57 := hle
  omega

theorem digitsValue_lt (h : ∀ c ∈ ds, c.isDigit) : digitsValue ds < 10 ^ ds.length := by
  induction ds with
  | nil => exact Nat.one_pos
  | cons c ds ih =>
    have hc := toNat_sub_lt_ten (h c List.mem_cons_self)
    have hds := ih fun d hd => h d (List.mem_cons_of_mem c hd)
    have happend := digitsValue_append [c] ds
    have hone : digitsValue [c] = c.toNat - 48 := Nat.zero_add _
    rw [List.singleton_append, hone] at happend
    rw [happend, List.length_cons, Nat.pow_succ]
    have := Nat.mul_le_mul_right (10 ^ ds.length) (Nat.le_of_lt_succ hc)
    omega

/-! ### Literals as texts -/

/-- The digits of a literal with their point, if it has places. -/
def unsigned (l : Literal) : List Char :=
  l.digits ++ if l.places = [] then [] else '.' :: l.places

/-- A literal has digits and no zero in front of others. -/
structure Proper (l : Literal) : Prop where
  digits_ne_nil : l.digits ≠ []
  isDigit : ∀ c ∈ l.digits, c.isDigit
  isDigit_place : ∀ c ∈ l.places, c.isDigit
  leading : l.digits = ['0'] ∨ l.digits.head? ≠ some '0'

theorem isDigit_ne_point (hc : c.isDigit) : c ≠ '.' := by
  rintro rfl
  revert hc
  decide

theorem filter_point (hd : ∀ c ∈ ds, c.isDigit) : ds.filter (· ≠ '.') = ds :=
  List.filter_eq_self.mpr fun c hc => decide_eq_true (isDigit_ne_point (hd c hc))

/-- The point taken out, all digits are left. -/
theorem filter_unsigned (h : l.Proper) : l.unsigned.filter (· ≠ '.') = l.digits ++ l.places := by
  rw [unsigned, List.filter_append, filter_point h.isDigit]
  split
  · next hp => rw [hp, List.filter_nil]
  · rw [List.filter_cons_of_neg (by decide), filter_point h.isDigit_place]

theorem point_mem_unsigned (h : l.Proper) : '.' ∈ l.unsigned ↔ l.places ≠ [] := by
  have hd : '.' ∉ l.digits := fun hm => isDigit_ne_point (h.isDigit _ hm) rfl
  rw [unsigned, List.mem_append]
  split
  · next hp => exact iff_of_false (fun hm => hm.elim hd List.not_mem_nil) (not_not_intro hp)
  · next hp => exact iff_of_true (.inr List.mem_cons_self) hp

theorem mem_unsigned (h : l.Proper) (hc : c ∈ l.unsigned) : c.isDigit ∨ c = '.' := by
  rw [unsigned, List.mem_append] at hc
  rcases hc with hc | hc
  · exact .inl (h.isDigit c hc)
  · split at hc
    · exact absurd hc List.not_mem_nil
    · rcases List.mem_cons.mp hc with rfl | hc
      · exact .inr rfl
      · exact .inl (h.isDigit_place c hc)

end Literal

namespace Decimal

open Literal

variable {d : Decimal} {n : Nat} {c : Char}

theorem isDigit_of_mem_digitChars (h : c ∈ digitChars n) : c.isDigit :=
  Nat.isDigit_of_mem_toDigits (by decide) (by decide) h

theorem digitChars_ne_nil (n : Nat) : digitChars n ≠ [] := Nat.toDigits_ne_nil

theorem head_digitChars (h : 0 < n) : (digitChars n).head? ≠ some '0' := by
  intro hz
  obtain ⟨ds, hds⟩ := List.head?_eq_some_iff.mp hz
  have hvalue : digitsValue ds = n := by
    have hzero : digitsValue ['0'] = 0 := rfl
    rw [← digitsValue_digitChars n, hds, ← List.singleton_append, digitsValue_append, hzero,
      Nat.zero_mul, Nat.zero_add]
  have hlt : digitsValue ds < 10 ^ ds.length :=
    digitsValue_lt fun c hc => isDigit_of_mem_digitChars (n := n) (hds ▸ List.mem_cons_of_mem _ hc)
  have hle := pow_length_le h
  rw [hds, List.length_cons, Nat.add_sub_cancel] at hle
  omega

/-- Zeros behind the digits multiply by a power of ten. -/
theorem digitChars_append_zeros (h : 0 < n) (e : Nat) :
    digitChars n ++ List.replicate e '0' = digitChars (n * 10 ^ e) := by
  induction e with
  | zero => rw [List.replicate_zero, List.append_nil, Nat.pow_zero, Nat.mul_one]
  | succ e ih =>
    have hpos : 0 < n * 10 ^ e := Nat.mul_pos h (Nat.pow_pos (by decide))
    have hzero := Nat.toDigits_append_toDigits (b := 10) (d := 0) (by decide) hpos (by decide)
    rw [List.replicate_succ', ← List.append_assoc, ih, Nat.pow_succ, ← Nat.mul_assoc,
      Nat.mul_comm _ 10]
    exact hzero

/-! ### Plain -/

/-- The literal that is written without an exponent. -/
def plainLiteral (d : Decimal) : Literal :=
  let ds := digitChars d.digits
  match d.exponent with
  | .ofNat e => ⟨false, ds ++ List.replicate e '0', [], 0⟩
  | .negSucc e =>
    if e + 1 < ds.length then
      ⟨false, ds.take (ds.length - (e + 1)), ds.drop (ds.length - (e + 1)), 0⟩
    else ⟨false, ['0'], List.replicate (e + 1 - ds.length) '0' ++ ds, 0⟩

theorem plain_eq (d : Decimal) : d.plain = d.plainLiteral.unsigned := by
  obtain ⟨digits, exponent⟩ := d
  cases exponent with
  | ofNat e => exact (List.append_nil _).symm
  | negSucc e =>
    have hne := digitChars_ne_nil digits
    simp only [plain, plainLiteral, unsigned]
    split
    · next h =>
      rw [if_neg]
      intro hnil
      rw [List.drop_eq_nil_iff] at hnil
      omega
    · rw [if_neg (List.append_ne_nil_of_right_ne_nil _ hne)]
      rfl

theorem plain_ne_nil (d : Decimal) : d.plain ≠ [] := by
  have hdigits := digitChars_ne_nil d.digits
  unfold plain
  split
  · simp [hdigits]
  · dsimp only
    split <;> simp

theorem isWhole_iff : d.isWhole = true ↔ d.plainLiteral.places = [] := by
  obtain ⟨digits, exponent⟩ := d
  cases exponent with
  | ofNat e => exact iff_of_true rfl rfl
  | negSucc e =>
    have hne := digitChars_ne_nil digits
    refine iff_of_false nofun ?_
    simp only [plainLiteral]
    split
    · next h =>
      rw [List.drop_eq_nil_iff]
      omega
    · exact List.append_ne_nil_of_right_ne_nil _ hne

theorem isWhole_eq_decide (d : Decimal) : d.isWhole = decide (0 ≤ d.exponent) := by
  obtain ⟨digits, exponent⟩ := d
  cases exponent with
  | ofNat e => rfl
  | negSucc e => rfl

theorem proper_plainLiteral (h : 0 < d.digits) : d.plainLiteral.Proper := by
  obtain ⟨digits, exponent⟩ := d
  have hne := digitChars_ne_nil digits
  have hdigit : ∀ c ∈ digitChars digits, c.isDigit := fun c => isDigit_of_mem_digitChars
  have hzeros (n : Nat) : ∀ c ∈ List.replicate n '0', c.isDigit := fun c hc => by
    rw [List.eq_of_mem_replicate hc]
    decide
  cases exponent with
  | ofNat e =>
    refine ⟨List.append_ne_nil_of_left_ne_nil hne _, ?_, nofun, .inr ?_⟩
    · exact fun c hc => (List.mem_append.mp hc).elim (hdigit c) (hzeros e c)
    · show (digitChars digits ++ List.replicate e '0').head? ≠ some '0'
      rw [List.head?_append_of_ne_nil _ hne]
      exact head_digitChars h
  | negSucc e =>
    simp only [plainLiteral]
    split
    · next hlt =>
      refine ⟨?_, fun c hc => hdigit c (List.mem_of_mem_take hc),
        fun c hc => hdigit c (List.mem_of_mem_drop hc), .inr ?_⟩
      · rw [ne_eq, List.take_eq_nil_iff]
        exact fun h => h.elim (Nat.sub_ne_zero_of_lt hlt) hne
      · show ((digitChars digits).take _).head? ≠ some '0'
        have hlen : (digitChars digits).length - (e + 1) ≠ 0 := Nat.sub_ne_zero_of_lt hlt
        rw [List.head?_take, if_neg hlen]
        exact head_digitChars h
    · refine ⟨List.cons_ne_nil _ _, ?_, ?_, .inl rfl⟩
      · intro c hc
        rw [List.mem_singleton.mp hc]
        decide
      · exact fun c hc => (List.mem_append.mp hc).elim (hzeros _ c) (hdigit c)

/-- Written without an exponent, a decimal keeps its value; one with a fraction also keeps its
exponent. -/
theorem decimal_plainLiteral (d : Decimal) : d.plainLiteral.decimal =
    ⟨d.digits * 10 ^ d.exponent.toNat, min d.exponent 0⟩ := by
  obtain ⟨digits, exponent⟩ := d
  cases exponent with
  | ofNat e =>
    simp only [plainLiteral, decimal, List.append_nil, digitsValue_append, digitsValue_zeros,
      digitsValue_digitChars, List.length_replicate, Nat.add_zero, List.length_nil]
    congr 1
    exact (Int.min_eq_right (Int.natCast_nonneg e)).symm
  | negSucc e =>
    have hlen := length_digitChars_pos digits
    have hexp : min (Int.negSucc e) 0 = -((e : Int) + 1) := by omega
    simp only [plainLiteral]
    rw [hexp, Int.toNat_negSucc, Nat.pow_zero, Nat.mul_one]
    split
    · next hlt =>
      simp only [decimal, List.take_append_drop, digitsValue_digitChars, List.length_drop]
      congr 1
      omega
    · next hge =>
      simp only [decimal, List.singleton_append, List.length_append, List.length_replicate]
      rw [← List.cons_append, ← List.replicate_succ, digitsValue_append, digitsValue_zeros,
        Nat.zero_mul, Nat.zero_add, digitsValue_digitChars]
      congr 1
      omega

theorem power_plainLiteral (d : Decimal) : d.plainLiteral.power = 0 := by
  unfold plainLiteral
  cases d.exponent with
  | ofNat e => rfl
  | negSucc e =>
    dsimp only
    split <;> rfl

/-! ### With an exponent -/

/-- The literal that is written with an exponent. -/
def scientificLiteral (d : Decimal) : Literal :=
  ⟨false, (digitChars d.digits).take 1, (digitChars d.digits).drop 1, d.leading⟩

theorem scientific_eq (d : Decimal) :
    d.scientific = d.scientificLiteral.unsigned ++ 'e' :: exponentChars d.leading := by
  unfold scientific scientificLiteral unsigned
  dsimp only
  split
  · next hds => rw [hds]; rfl
  · next hds =>
    cases h : digitChars d.digits with
    | nil => rfl
    | cons c cs =>
      cases cs with
      | nil => rfl
      | cons c' cs => exact absurd h (hds c c' cs)

theorem scientific_ne_nil (d : Decimal) : d.scientific ≠ [] := by simp [scientific]

theorem proper_scientificLiteral (h : 0 < d.digits) : d.scientificLiteral.Proper := by
  have hne := digitChars_ne_nil d.digits
  refine ⟨?_, fun c hc => isDigit_of_mem_digitChars (List.mem_of_mem_take hc),
    fun c hc => isDigit_of_mem_digitChars (List.mem_of_mem_drop hc), .inr ?_⟩
  · show (digitChars d.digits).take 1 ≠ []
    rw [ne_eq, List.take_eq_nil_iff]
    exact fun h => h.elim Nat.one_ne_zero hne
  · show ((digitChars d.digits).take 1).head? ≠ some '0'
    rw [List.head?_take, if_neg Nat.one_ne_zero]
    exact head_digitChars h

theorem decimal_scientificLiteral (d : Decimal) : d.scientificLiteral.decimal = d := by
  obtain ⟨digits, exponent⟩ := d
  have hlen := length_digitChars_pos digits
  simp only [scientificLiteral, decimal, List.take_append_drop, digitsValue_digitChars,
    List.length_drop, leading]
  congr 1
  omega

end Decimal

end Markup
