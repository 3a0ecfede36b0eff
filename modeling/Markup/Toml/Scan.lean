import Markup.Text.Bytes
import Markup.Toml.Document

/-!
# Scanning TOML

A scan takes characters from the front of a text and knows how many bytes are before it; it fails
without a reason, for a reader of TOML only has to know whether a text is well formed.
-/

namespace Markup.Toml

/-- The rest of a text and the bytes before it. -/
structure Cursor where
  offset : Nat
  rest : List Char

/-- Takes characters from the front of a text, or fails. -/
abbrev Scan := StateT Cursor Option

namespace Scan

/-- The next character, if it is as wanted. -/
def char (wanted : Char → Bool) : Scan Char := fun s =>
  match s.rest with
  | [] => none
  | c :: rest => if wanted c then some (c, ⟨s.offset + c.utf8Size, rest⟩) else none

/-- The characters up to the first that is not as wanted. -/
def chars (wanted : Char → Bool) : Scan (List Char) := fun s =>
  let cs := s.rest.takeWhile wanted
  some (cs, ⟨s.offset + Text.byteSize cs, s.rest.dropWhile wanted⟩)

/-- Exactly these characters. -/
def exactly : List Char → Scan Unit
  | [] => pure ()
  | c :: cs => do
    let _ ← char (· = c)
    exactly cs

/-- A number of characters that are as wanted. -/
def times (wanted : Char → Bool) : Nat → Scan (List Char)
  | 0 => pure []
  | n + 1 => do return (← char wanted) :: (← times wanted n)

/-- The next character, which stays. -/
def peek : Scan (Option Char) := fun s => some (s.rest.head?, s)

/-- What a scan finds, or nothing if it fails. -/
def orNone {α : Type} (scan : Scan α) : Scan (Option α) := (some <$> scan) <|> pure none

/-- A scan repeated until it fails, at most `limit` times. -/
def upTo {α : Type} (scan : Scan α) : Nat → Scan (List α)
  | 0 => pure []
  | limit + 1 => do
    match ← orNone scan with
    | none => return []
    | some a => return a :: (← upTo scan limit)

/-- A scan repeated until it fails. -/
def many {α : Type} (scan : Scan α) : Scan (List α) := fun s => upTo scan s.rest.length s

/-- One or more, with something between them. -/
def separated {α β : Type} (between : Scan β) (scan : Scan α) : Scan (List α) := do
  return (← scan) :: (← many (do let _ ← between; scan))

/-- The end of the text. -/
def ending : Scan Unit := fun s => if s.rest = [] then some ((), s) else none

/-- What a scan finds and where. -/
def located {α : Type} (scan : Scan α) : Scan (Span × α) := fun s => do
  let (a, after) ← scan s
  return ((⟨s.offset, after.offset⟩, a), after)

/-- Fails unless a condition holds. -/
def require (condition : Bool) : Scan Unit := if condition then pure () else failure

end Scan

end Markup.Toml
