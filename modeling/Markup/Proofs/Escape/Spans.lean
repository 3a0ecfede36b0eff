import Markup.Proofs.Escape.Entities

/-!
# The spans of the escaping pass

`escape_spans`: the pass reads the UTF-8 bytes of a text and cuts it between characters only
(`exists_of_span_mem`), also when it passes over the bytes before the first reserved one
(`piecesFromFirst?`), and what it copies is the text with each character replaced on its own. The
text itself is handed back exactly if it has no reserved character.
-/

namespace Markup

open Text

namespace Escape

/-- The pieces of a text when the pass begins at its first reserved byte, if there is one. -/
def piecesFromFirst? (bs : List UInt8) : Option (List Piece) :=
  (bs.findIdx? fun b => (byteEntity? b).isSome).map fun first => pieces first 0 (bs.drop first)

/-- The bytes before the first reserved one need not be looked at. -/
theorem piecesFromFirst?_eq (bs : List UInt8) :
    piecesFromFirst? bs =
      if bs.any fun b => (byteEntity? b).isSome then some (pieces 0 0 bs) else none := by
  unfold piecesFromFirst?
  cases hfirst : bs.findIdx? fun b => (byteEntity? b).isSome with
  | none =>
    have hnone := List.findIdx?_eq_none_iff.mp hfirst
    rw [if_neg (by simpa using hnone)]
    rfl
  | some first =>
    obtain ⟨hlt, hsome, hbefore⟩ := List.findIdx?_eq_some_iff_getElem.mp hfirst
    have hplain : ∀ b ∈ bs.take first, byteEntity? b = none := by
      intro b hb
      obtain ⟨i, hi, rfl⟩ := List.mem_take_iff_getElem.mp hb
      simpa using hbefore i (by omega)
    have hskip := pieces_append hplain 0 0 (bs.drop first)
    rw [List.take_append_drop, List.length_take_of_le (Nat.le_of_lt hlt), Nat.zero_add] at hskip
    rw [if_pos (List.any_eq_true.mpr ⟨_, List.getElem_mem hlt, hsome⟩), hskip]
    rfl

/-- Every span of the pieces to come begins and ends between two characters. -/
theorem exists_of_span_mem {start stop : Nat} (rest copied pending : List Char)
    (h : .span start stop ∈ pieces (byteSize (copied ++ pending)) (byteSize copied) (bytes rest)) :
    ∃ before cs after, copied ++ (pending ++ rest) = before ++ (cs ++ after) ∧
      start = byteSize before ∧ stop = byteSize (before ++ cs) := by
  induction rest generalizing copied pending with
  | nil =>
    obtain ⟨rfl, rfl⟩ := Piece.span.inj (List.mem_singleton.mp h)
    exact ⟨copied, pending, [], rfl, rfl, rfl⟩
  | cons c rest ih =>
    have hsize := byteSize_concat (copied ++ pending) c
    cases hc : entity? c with
    | some name =>
      rw [pieces_reserved hc, ← hsize, List.mem_cons, List.mem_cons] at h
      rcases h with h | h | h
      · obtain ⟨rfl, rfl⟩ := Piece.span.inj h
        exact ⟨copied, pending, c :: rest, rfl, rfl, rfl⟩
      · cases h
      · simpa using ih (copied ++ pending ++ [c]) [] (by simpa using h)
    | none =>
      rw [pieces_plain hc, ← hsize, List.append_assoc] at h
      simpa using ih copied (pending ++ [c]) h

end Escape

open Escape

/-- Escaping copies spans of bytes, and comes to the same as replacing each character on its own. -/
theorem escape_spans (s t : String) :
    (bytes s.toList).toByteArray = s.toByteArray ∧
    (isNeeded s = false ↔ ∀ c ∈ s.toList, c ∉ reserved) ∧
    piecesFromFirst? (bytes s.toList) =
      (if isNeeded s then some (pieces 0 0 (bytes s.toList)) else none) ∧
    (∀ start stop, .span start stop ∈ pieces 0 0 (bytes s.toList) →
      start ≤ stop ∧ String.Pos.Raw.IsValid s ⟨start⟩ ∧ String.Pos.Raw.IsValid s ⟨stop⟩) ∧
    assemble? s.toList (pieces 0 0 (bytes s.toList)) = some (escape s).toList ∧
    (escape s).toList = s.toList.flatMap substituteChar ∧
    escape (s ++ t) = escape s ++ escape t := by
  have hneeded : isNeeded s = false ↔ ∀ c ∈ s.toList, c ∉ reserved := by
    simp only [isNeeded_eq_false_iff, entity?_eq_none_iff]
  have hescape : (escape s).toList = s.toList.flatMap substituteChar := by
    rw [escape_eq_substitute, substitute, String.toList_ofList]
  refine ⟨String.utf8Encode_toList, hneeded, piecesFromFirst?_eq _,
    fun start stop h => ?_, by rw [assemble?_pieces, hescape], hescape, escape_append s t⟩
  obtain ⟨before, cs, after, htext, rfl, rfl⟩ := exists_of_span_mem s.toList [] [] h
  refine ⟨?_, isValid_byteSize htext, isValid_byteSize (htext.trans (List.append_assoc ..).symm)⟩
  rw [byteSize_append]
  exact Nat.le_add_right _ _

theorem escape_spans_multibyte :
    .span 4 6 ∈ pieces 0 0 (bytes "né<ö>".toList) ∧
    String.Pos.Raw.IsValid "né<ö>" ⟨4⟩ ∧ String.Pos.Raw.IsValid "né<ö>" ⟨6⟩ ∧
    escape "né<ö>" = "né&lt;ö&gt;" := by
  have hspan : .span 4 6 ∈ pieces 0 0 (bytes "né<ö>".toList) := by decide
  obtain ⟨-, -, -, hvalid, -, hescape, -⟩ := escape_spans "né<ö>" ""
  obtain ⟨-, hstart, hstop⟩ := hvalid 4 6 hspan
  exact ⟨hspan, hstart, hstop, String.toList_inj.mp (hescape.trans (by decide))⟩

end Markup
