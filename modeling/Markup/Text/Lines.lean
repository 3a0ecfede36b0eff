import Markup.Text.Bytes

/-!
# Lines of a text

The lines of a text are the pieces between its newlines, counted from one; an empty text has one
empty line. Line numbers and distances are 64-bit sizes.

- `spanOfLine?`: the bytes of a line.
- `window`: the lines around a marked one, each with its number.
- `window?`: the same in the arithmetic of sizes, where a sum can be too large and a range can be
  outside of a list.
-/

namespace Markup.Text

/-- The pieces of a text between its newlines. -/
def lines (s : String) : List String := (s.toList.splitOn '\n').map String.ofList

/-! ### Spans -/

/-- The byte spans of consecutive lines, the first of which starts at `start`. -/
def spans (start : Nat) : List (List Char) → List (Nat × Nat)
  | [] => []
  | l :: ls => (start, start + byteSize l) :: spans (start + byteSize l + 1) ls

/-- The bytes of a line: where it starts and where it ends. -/
def spanOfLine? (s : String) (line : Nat) : Option (Nat × Nat) :=
  if line = 0 then none else (spans 0 (s.toList.splitOn '\n'))[line - 1]?

/-! ### Windows -/

/-- The sum of two sizes, or the largest size if it is beyond that. -/
def saturatingAdd (a b : UInt64) : UInt64 :=
  if a.toNat + b.toNat < UInt64.size then a + b else .ofNat (UInt64.size - 1)

/-- A line with its number and its mark. -/
def numberedLine (marked number : Nat) (line : String) : String :=
  (if number = marked then "  > " else "    ") ++ toString number ++ "| " ++ line

/-- Consecutive lines with their numbers, from `number` on. -/
def numberedLines (marked number : Nat) : List String → List String
  | [] => []
  | l :: ls => numberedLine marked number l :: numberedLines marked (number + 1) ls

/-- The lines after number `line - context` up to number `line + context`; the one whose number
is `line` is marked. -/
def window (s : String) (line context : UInt64) : String :=
  let all := lines s
  let stop := min all.length (saturatingAdd line context).toNat
  let start := min (line.toNat - context.toNat) stop
  "\n".intercalate (numberedLines line.toNat (start + 1) ((all.take stop).drop start))

/-! ### Windows in sizes -/

/-- A number as a size, if it is not too large. -/
def size? (n : Nat) : Option UInt64 := if n < UInt64.size then some (.ofNat n) else none

/-- The sum of two sizes, if it is a size. -/
def checkedAdd? (a b : UInt64) : Option UInt64 :=
  if a.toNat + b.toNat < UInt64.size then some (a + b) else none

/-- The difference of two sizes, or zero if the second is larger. -/
def saturatingSub (a b : UInt64) : UInt64 := if b ≤ a then a - b else 0

/-- The part of a list from `start` up to `stop`, if these are in order and within the list. -/
def between? {α : Type} (xs : List α) (start stop : UInt64) : Option (List α) :=
  if start ≤ stop ∧ stop.toNat ≤ xs.length then some ((xs.take stop.toNat).drop start.toNat) else none

/-- Consecutive lines with their numbers. The first has `i` lines of the window before it, and
`start` lines are before the window. -/
def numberedLines? (line start i : UInt64) : List String → Option (List String)
  | [] => some []
  | l :: ls => do
    let number ← checkedAdd? (← checkedAdd? start i) 1
    let rows ← numberedLines? line start (← checkedAdd? i 1) ls
    return numberedLine line.toNat number.toNat l :: rows

/-- The window around a line, if no number on the way to it is too large and no range is outside of
the lines. -/
def window? (s : String) (line context : UInt64) : Option String := do
  let all := lines s
  let stop := min (← size? all.length) (saturatingAdd line context)
  let start := min (saturatingSub line context) stop
  let rows ← numberedLines? line start 0 (← between? all start stop)
  return "\n".intercalate rows

end Markup.Text
