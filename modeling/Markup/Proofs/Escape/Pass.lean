import Markup.Escape
import Markup.Proofs.Text.Lines

/-!
# The escaping pass

The pass copies spans of bytes, and its result is the text with each character replaced on its own:
`escape_eq_substitute`. A reserved character is a single byte (`byte_of_entity?`) and no byte of
another character is reserved (`byteEntity?_of_plain`), so that every span the pass notes begins and
ends between two characters. What the pass does at one character (`pieces_reserved`,
`pieces_plain`) keeps `last` and `i` the sizes of what is copied and of what is read, and the
induction goes over the characters that are still to come (`assemble?_pieces_append`).
-/

namespace Markup

/-! ### Cutting between characters -/

namespace Text

theorem dropBytes?_append (before after : List Char) :
    dropBytes? (byteSize before) (before ++ after) = some after := by
  induction before with
  | nil => rw [byteSize, dropBytes?, List.nil_append]
  | cons c before ih =>
    obtain ⟨n, hn⟩ : ∃ n, c.utf8Size + byteSize before = n + 1 :=
      ⟨c.utf8Size + byteSize before - 1, by have := c.utf8Size_pos; omega⟩
    rw [byteSize, hn, List.cons_append, dropBytes?, if_pos (by omega),
      show n + 1 - c.utf8Size = byteSize before by omega, ih]

theorem takeBytes?_append (cs after : List Char) :
    takeBytes? (byteSize cs) (cs ++ after) = some cs := by
  induction cs with
  | nil => rw [byteSize, takeBytes?]
  | cons c cs ih =>
    obtain ⟨n, hn⟩ : ∃ n, c.utf8Size + byteSize cs = n + 1 :=
      ⟨c.utf8Size + byteSize cs - 1, by have := c.utf8Size_pos; omega⟩
    rw [byteSize, hn, List.cons_append, takeBytes?, if_pos (by omega),
      show n + 1 - c.utf8Size = byteSize cs by omega, ih, Option.map_some]

/-- The bytes between the sizes of two prefixes are the characters between them. -/
theorem slice?_append (before cs after : List Char) :
    slice? (before ++ (cs ++ after)) (byteSize before) (byteSize (before ++ cs)) = some cs := by
  rw [slice?, dropBytes?_append, byteSize_append, Nat.add_sub_cancel_left, Option.bind_some,
    takeBytes?_append]

theorem byteSize_concat (cs : List Char) (c : Char) :
    byteSize (cs ++ [c]) = byteSize cs + c.utf8Size := by
  rw [byteSize_append]
  rfl

theorem bytes_cons (c : Char) (cs : List Char) :
    bytes (c :: cs) = String.utf8EncodeChar c ++ bytes cs := List.flatMap_cons

end Text

namespace Escape

open Text

/-! ### Reserved characters -/

/-- The characters that have an entity. -/
def reserved : List Char := ['"', '&', '<', '>']

section

variable {c : Char} {name : String}

/-- The characters that have an entity, each with it. -/
theorem eq_of_entity? (h : entity? c = some name) :
    c = '"' ∧ name = "&quot;" ∨ c = '&' ∧ name = "&amp;" ∨ c = '<' ∧ name = "&lt;" ∨
      c = '>' ∧ name = "&gt;" := by
  unfold entity? at h
  split at h
  · next hc => exact .inl ⟨hc, (Option.some.inj h).symm⟩
  split at h
  · next hc => exact .inr (.inl ⟨hc, (Option.some.inj h).symm⟩)
  split at h
  · next hc => exact .inr (.inr (.inl ⟨hc, (Option.some.inj h).symm⟩))
  split at h
  · next hc => exact .inr (.inr (.inr ⟨hc, (Option.some.inj h).symm⟩))
  · cases h

theorem ne_of_entity?_eq_none (h : entity? c = none) : c ≠ '"' ∧ c ≠ '&' ∧ c ≠ '<' ∧ c ≠ '>' := by
  refine ⟨?_, ?_, ?_, ?_⟩ <;> rintro rfl <;> revert h <;> decide

theorem entity?_eq_none_iff : entity? c = none ↔ c ∉ reserved := by
  refine ⟨fun h => ?_, fun h => ?_⟩
  · obtain ⟨hquote, hamp, hless, hgreater⟩ := ne_of_entity?_eq_none h
    simp [reserved, hquote, hamp, hless, hgreater]
  · simp only [reserved, List.mem_cons, List.not_mem_nil, or_false, not_or] at h
    simp only [entity?, h, if_false]

end

/-! ### Bytes of reserved characters -/

theorem byteEntity?_eq_none {b : UInt8} (h : 128 ≤ b.toNat) : byteEntity? b = none := by
  have hne (k : UInt8) (hk : k.toNat < 128) : b ≠ k := fun he => by rw [he] at h; omega
  rw [byteEntity?, if_neg (hne 34 (by decide)), if_neg (hne 38 (by decide)),
    if_neg (hne 60 (by decide)), if_neg (hne 62 (by decide))]

theorem ofNat_eq_iff {c d : Char} (hc : c.toNat < 128) (hd : d.toNat < 128) :
    UInt8.ofNat c.toNat = UInt8.ofNat d.toNat ↔ c = d := by
  refine ⟨fun h => ?_, fun h => by rw [h]⟩
  have hn := congrArg UInt8.toNat h
  rw [UInt8.toNat_ofNat', UInt8.toNat_ofNat'] at hn
  exact Char.toNat_inj.mp (by omega)

/-- The byte of an ASCII character has the entity of the character. -/
theorem byteEntity?_ofNat {c : Char} (h : c.toNat < 128) :
    byteEntity? (UInt8.ofNat c.toNat) = entity? c := by
  have hquote : UInt8.ofNat c.toNat = 34 ↔ c = '"' := ofNat_eq_iff (d := '"') h (by decide)
  have hamp : UInt8.ofNat c.toNat = 38 ↔ c = '&' := ofNat_eq_iff (d := '&') h (by decide)
  have hless : UInt8.ofNat c.toNat = 60 ↔ c = '<' := ofNat_eq_iff (d := '<') h (by decide)
  have hgreater : UInt8.ofNat c.toNat = 62 ↔ c = '>' := ofNat_eq_iff (d := '>') h (by decide)
  simp only [byteEntity?, entity?, hquote, hamp, hless, hgreater]

/-- Past ASCII, every byte of a character is at least 128. -/
theorem large_of_mem_bytes {c : Char} (h : ¬ c.toNat < 128) :
    ∀ b ∈ String.utf8EncodeChar c, 128 ≤ b.toNat := by
  have hc : ¬ c.val.toNat ≤ 127 := fun hle => h (Nat.lt_succ_of_le hle)
  simp only [String.utf8EncodeChar, if_neg hc]
  intro b hb
  split at hb
  · simp only [List.mem_cons, List.not_mem_nil, or_false] at hb
    rcases hb with rfl | rfl <;> rw [UInt8.toNat_ofNat'] <;> omega
  · split at hb
    · simp only [List.mem_cons, List.not_mem_nil, or_false] at hb
      rcases hb with rfl | rfl | rfl <;> rw [UInt8.toNat_ofNat'] <;> omega
    · simp only [List.mem_cons, List.not_mem_nil, or_false] at hb
      rcases hb with rfl | rfl | rfl | rfl <;> rw [UInt8.toNat_ofNat'] <;> omega

theorem utf8EncodeChar_of_ascii {c : Char} (h : c.toNat < 128) :
    String.utf8EncodeChar c = [UInt8.ofNat c.toNat] := by
  have hle : c.val.toNat ≤ 127 := Nat.le_of_lt_succ h
  simp only [String.utf8EncodeChar, if_pos hle]
  rfl

theorem ascii_of_entity? {c : Char} {name : String} (hc : entity? c = some name) :
    c.toNat < 128 := by
  rcases eq_of_entity? hc with ⟨rfl, -⟩ | ⟨rfl, -⟩ | ⟨rfl, -⟩ | ⟨rfl, -⟩ <;> decide

/-- A reserved character is one byte with the same entity. -/
theorem byte_of_entity? {c : Char} {name : String} (hc : entity? c = some name) :
    ∃ b, String.utf8EncodeChar c = [b] ∧ byteEntity? b = some name :=
  have h := ascii_of_entity? hc
  ⟨_, utf8EncodeChar_of_ascii h, (byteEntity?_ofNat h).trans hc⟩

/-- No byte of another character is reserved. -/
theorem byteEntity?_of_plain {c : Char} (hc : entity? c = none) :
    ∀ b ∈ String.utf8EncodeChar c, byteEntity? b = none := by
  by_cases h : c.toNat < 128
  · rw [utf8EncodeChar_of_ascii h]
    exact List.forall_mem_singleton.mpr ((byteEntity?_ofNat h).trans hc)
  · exact fun b hb => byteEntity?_eq_none (large_of_mem_bytes h b hb)

/-! ### The pieces of a text -/

theorem pieces_append {bs : List UInt8} (h : ∀ b ∈ bs, byteEntity? b = none) (i last : Nat)
    (rest : List UInt8) : pieces i last (bs ++ rest) = pieces (i + bs.length) last rest := by
  induction bs generalizing i with
  | nil => rfl
  | cons b bs ih =>
    obtain ⟨hb, hbs⟩ := List.forall_mem_cons.mp h
    rw [List.cons_append, pieces, hb]
    show pieces (i + 1) last (bs ++ rest) = _
    rw [ih hbs, List.length_cons, Nat.add_right_comm, Nat.add_assoc]

/-- Up to a reserved character, what is pending is a span. -/
theorem pieces_reserved {c : Char} {name : String} (hc : entity? c = some name) (i last : Nat)
    (rest : List Char) : pieces i last (bytes (c :: rest)) =
      .span last i :: .entity name :: pieces (i + c.utf8Size) (i + c.utf8Size) (bytes rest) := by
  obtain ⟨b, hbytes, hb⟩ := byte_of_entity? hc
  rw [← String.length_utf8EncodeChar, bytes_cons, hbytes, List.singleton_append, pieces, hb]
  rfl

theorem pieces_plain {c : Char} (hc : entity? c = none) (i last : Nat) (rest : List Char) :
    pieces i last (bytes (c :: rest)) = pieces (i + c.utf8Size) last (bytes rest) := by
  rw [bytes_cons, pieces_append (byteEntity?_of_plain hc), String.length_utf8EncodeChar]

theorem assemble?_cons {cs part rest : List Char} {p : Piece} {ps : List Piece}
    (hp : p.copy? cs = some part) (hps : assemble? cs ps = some rest) :
    assemble? cs (p :: ps) = some (part ++ rest) := by
  obtain ⟨parts, hparts, rfl⟩ := Option.map_eq_some_iff.mp hps
  rw [assemble?, List.mapM_cons, hp, hparts]
  rfl

/-- What the pass makes of the characters to come, when `copied` is copied and `pending` is read. -/
theorem assemble?_pieces_append (rest copied pending : List Char) :
    assemble? (copied ++ (pending ++ rest))
      (pieces (byteSize (copied ++ pending)) (byteSize copied) (bytes rest)) =
      some (pending ++ rest.flatMap substituteChar) := by
  induction rest generalizing copied pending with
  | nil =>
    have hspan := slice?_append copied pending []
    have hrest : assemble? (copied ++ (pending ++ [])) [] = some [] := rfl
    exact assemble?_cons hspan hrest
  | cons c rest ih =>
    have hsize := byteSize_concat (copied ++ pending) c
    rw [List.flatMap_cons, substituteChar]
    cases hc : entity? c with
    | some name =>
      -- the pending characters are copied, and the entity after them
      have hspan := slice?_append copied pending (c :: rest)
      have ih' := ih (copied ++ (pending ++ [c])) []
      simp only [List.append_nil, List.append_assoc, List.nil_append, List.cons_append] at ih' hsize
      rw [pieces_reserved hc, ← hsize]
      exact assemble?_cons hspan (assemble?_cons rfl ih')
    | none =>
      have ih' := ih copied (pending ++ [c])
      rw [pieces_plain hc, ← hsize]
      simpa only [List.append_assoc, List.singleton_append] using ih'

/-- Every span is cut between characters, and the pieces are the text replaced character by
character. -/
theorem assemble?_pieces (cs : List Char) :
    assemble? cs (pieces 0 0 (bytes cs)) = some (cs.flatMap substituteChar) :=
  assemble?_pieces_append cs [] []

theorem isNeeded_eq_false_iff {s : String} :
    isNeeded s = false ↔ ∀ c ∈ s.toList, entity? c = none := by
  rw [isNeeded, List.any_eq_false]
  constructor
  · intro h c hc
    cases hentity : entity? c with
    | none => rfl
    | some name =>
      obtain ⟨b, hbytes, hb⟩ := byte_of_entity? hentity
      have hmem : b ∈ bytes s.toList :=
        List.mem_flatMap.mpr ⟨c, hc, hbytes ▸ List.mem_singleton_self b⟩
      exact absurd (hb ▸ rfl) (h b hmem)
  · intro h b hb
    obtain ⟨c, hc, hbc⟩ := List.mem_flatMap.mp hb
    rw [byteEntity?_of_plain (h c hc) b hbc]
    exact Bool.false_ne_true

theorem flatMap_substituteChar_of_plain {cs : List Char} (h : ∀ c ∈ cs, entity? c = none) :
    cs.flatMap substituteChar = cs := by
  induction cs with
  | nil => rfl
  | cons c cs ih =>
    obtain ⟨hc, hcs⟩ := List.forall_mem_cons.mp h
    rw [List.flatMap_cons, ih hcs, substituteChar, hc]
    rfl

end Escape

open Escape

/-- The pass replaces each character on its own. -/
theorem escape_eq_substitute (s : String) : escape s = substitute s := by
  rw [escape, assemble?_pieces, substitute]
  cases h : isNeeded s with
  | true => rfl
  | false =>
    rw [flatMap_substituteChar_of_plain (isNeeded_eq_false_iff.mp h), String.ofList_toList]
    rfl

theorem escape_append (s t : String) : escape (s ++ t) = escape s ++ escape t := by
  simp only [escape_eq_substitute, substitute, String.toList_append, List.flatMap_append,
    String.ofList_append]

end Markup
