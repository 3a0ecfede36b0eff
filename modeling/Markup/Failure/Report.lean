import Markup.Failure.Basic
import Markup.Text.Breaks
import Markup.Text.Cells
import Markup.Text.Lines

/-!
# Reports

A report shows the line of a source that an error is put down to, underlined, below the detail
of the error.

The line to underline is found by its number among the lines between newlines, and its span
counts bytes. The snippet takes the same figures for characters, and finds its own line among the
displayed lines of the source.

- `Report.of?`: the report of an error about a source.
- `Report.write`: its text.
-/

namespace Markup

/-- The displayed line of a source that a label stands on. -/
structure Snippet where
  /-- the number of the displayed line, counted from one -/
  number : Nat
  /-- the displayed line, without the white space at its end -/
  chars : List Char
  /-- the length of the whole displayed line -/
  length : Nat
  /-- the first column of the label, counted from zero -/
  start : Nat
  /-- the column after the label -/
  stop : Nat
  /-- the column in the middle of the label -/
  middle : Nat
  deriving DecidableEq

/-- What a report shows. -/
structure Report where
  detail : String
  name : String
  /-- absent if the label is outside the source -/
  snippet : Option Snippet
  deriving DecidableEq

namespace Snippet

/-- The last displayed line that starts at or before a character, with its index and the place
where it starts. `index` and `offset` are those of the first line given. -/
def lineAt? (char : Nat) : Nat → Nat → List (List Char) → Option (Nat × Nat × List Char)
  | _, _, [] => none
  | index, offset, l :: ls =>
    if char < offset then none
    else (lineAt? char (index + 1) (offset + l.length) ls).or (some (index, offset, l))

/-- The displayed line for a label on the characters from `start` to before `stop`. -/
def of? (source : List Char) (start stop : Nat) : Option Snippet :=
  if source.length < start ∨ (start < stop ∧ source.length < stop - 1) then none
  else
    (lineAt? start 0 0 (Text.displayLines source)).map fun (index, offset, chars) =>
      { number := index + 1
        chars := Text.withoutTrailingSpace chars
        length := chars.length
        start := start - offset
        stop := stop - offset
        middle := (start + stop) / 2 - offset }

end Snippet

namespace Report

/-- The report of an error about a source, if the error has a line and the source has that
line. -/
def of? (e : RenderError) (source : String) : Option Report := do
  let line ← e.line
  let (start, stop) ← Text.spanOfLine? source line.toNat
  return {
    detail := e.detail
    name := e.path.getD "template"
    snippet := Snippet.of? source.toList start stop }

/-! ### Writing -/

/-- How many cells the character of a column fills. A tab reaches to the next multiple of four,
and other white space fills one cell, as does what is beyond the line. -/
def cellWidth (column : Nat) : Option Char → Nat
  | none => 1
  | some c =>
    if c = '\t' then 4 - column % 4
    else if Text.isSpace c then 1
    else Text.cells c

/-- The characters of a line as shown, from a column on. -/
def shownChars : Nat → List Char → List Char
  | _, [] => []
  | column, c :: cs =>
    (if c = '\t' then List.replicate (cellWidth column (some c)) ' '
      else if Text.isSpace c then [' ']
      else [c]) ++ shownChars (column + 1) cs

namespace Row

/-- A mark and what fills the rest of its column. A column without cells shows neither. -/
def cell (width : Nat) (mark fill : Char) : List Char :=
  (mark :: List.replicate (width - 1) fill).take width

/-- The columns of a row: those of the label, and one more on its right. -/
def columns (s : Snippet) (draw : Nat → Nat → List Char) : List Char :=
  (List.range (s.stop + 2)).flatMap fun column => draw column (cellWidth column s.chars[column]?)

/-- The label underlined, with a mark in its middle. -/
def underline (s : Snippet) : List Char :=
  columns s fun column width =>
    let inside := s.start ≤ column && column < s.stop
    if column = s.middle then
      if inside then cell width '┬' '─' else cell width '│' ' '
    else if inside then cell width '─' '─' else cell width ' ' ' '

/-- The arrow from the middle of the label to its text. -/
def arrow (s : Snippet) : List Char :=
  columns s fun column width =>
    if column < s.middle then cell width ' ' ' '
    else if column = s.middle then cell width '╰' '─'
    else cell width '─' '─'

end Row

/-- The rows that show the line, or a blank one if the label goes beyond it. -/
def snippetRows (s : Snippet) (margin : String) : List String :=
  if s.length < s.stop then [margin ++ "│ "]
  else
    [" " ++ toString s.number ++ " │ " ++ String.ofList (shownChars 0 s.chars),
      margin ++ "│ " ++ String.ofList (Row.underline s),
      margin ++ "│ " ++ String.ofList (Row.arrow s) ++ " raised while rendering this line"]

/-- The rows below the detail. -/
def rows (name : String) (s : Snippet) : List String :=
  let margin := (toString s.number).length + 2
  let blank := String.ofList (List.replicate margin ' ')
  [blank ++ "╭─[" ++ name ++ ":" ++ toString s.number ++ ":" ++ toString (s.start + 1) ++ "]",
    blank ++ "│"] ++
  snippetRows s blank ++
  [String.ofList (List.replicate margin '─') ++ "╯"]

/-- The text of a report. -/
def write (r : Report) : String :=
  let shown := match r.snippet with
    | some s => rows r.name s
    | none => []
  String.join ((("Error: " ++ r.detail) :: shown).map (· ++ "\n"))

end Report

/-- The text of the report of a failure about a source. A plain value has none. -/
def Failure.report? (failure : Failure) (source : String) : Option String :=
  match failure with
  | .error e => (Report.of? e source).map Report.write
  | .value _ => none

end Markup
