import Markup.Settings.Basic
import Markup.Number.Text
import Markup.Text.Quoted
import Markup.Toml.Document

/-!
# The shape of a settings document

A document may set `terse` in a table `render`, and `context_lines`, `read_sources` and
`default_filename` in a table `errors`, and nothing else. Each of the two may also be an array,
whose first items are the settings in that order.

- `Given`: the settings that a document gives.
- `Misfit`: how a document differs from the shape, and where.
- `Given.ofTable`: the settings given by a document, or the first misfit in its order.
-/

namespace Markup.Settings

/-- The settings that a document gives. -/
structure Given where
  terse : Option Bool := none
  contextLines : Option UInt64 := none
  readSources : Option Bool := none
  defaultFilename : Option String := none
  deriving DecidableEq

/-- Settings with those that are given in place of the default ones. -/
def Given.settings (g : Given) : Settings :=
  let base : Settings := {}
  { terse := g.terse.getD base.terse
    contextLines := g.contextLines.getD base.contextLines
    readSources := g.readSources.getD base.readSources
    defaultFilename := g.defaultFilename.getD base.defaultFilename }

open Toml

/-- How a document differs from its shape. -/
inductive Problem where
  | unknownField (name : String) (expected : List String)
  | wrongType (found : Item) (expected : String)
  | negative (n : Int) (expected : String)
  | tooShort (length : Nat) (expected : String)

/-- A problem and where it is, as far as that is known. -/
structure Misfit where
  problem : Problem
  span : Option Span

namespace Problem

/-- An item as messages name it. -/
def describe : Item → String
  | .text _ s => "string " ++ Text.quotedInMessage s
  | .integer _ n => "integer `" ++ toString n ++ "`"
  | .float _ x => "floating point `" ++ x.positional ++ "`"
  | .boolean _ b => "boolean `" ++ (if b then "true" else "false") ++ "`"
  | .array _ _ | .tables _ => "sequence"
  | .dateTime _ | .table _ _ => "map"

/-- The fields that a table may have, as messages name them. -/
def fieldList : List String → String
  | [a] => "expected `" ++ a ++ "`"
  | [a, b] => "expected `" ++ a ++ "` or `" ++ b ++ "`"
  | fields => "expected one of " ++ ", ".intercalate (fields.map fun f => "`" ++ f ++ "`")

def message : Problem → String
  | unknownField name expected => "unknown field `" ++ name ++ "`, " ++ fieldList expected
  | wrongType found expected => "invalid type: " ++ describe found ++ ", expected " ++ expected
  | negative n expected => "invalid value: integer `" ++ toString n ++ "`, expected " ++ expected
  | tooShort length expected => "invalid length " ++ toString length ++ ", expected " ++ expected

end Problem

namespace Given

def wrongType {α : Type} (found : Item) (expected : String) : Except Misfit α :=
  .error ⟨.wrongType found expected, found.span?⟩

def boolean : Item → Except Misfit Bool
  | .boolean _ b => .ok b
  | item => wrongType item "a boolean"

def size : Item → Except Misfit UInt64
  | .integer span n =>
    if 0 ≤ n then .ok (.ofNat n.toNat) else .error ⟨.negative n "usize", span⟩
  | item => wrongType item "usize"

def text : Item → Except Misfit String
  | .text _ s => .ok s
  | item => wrongType item "a string"

/-- A misfit of a value that is written nowhere is put down to its key. -/
def under {α : Type} (key : Key) (result : Except Misfit α) : Except Misfit α :=
  result.mapError fun m => { m with span := m.span.or (some key.span) }

/-- The item at a place of an array, which must be that long. -/
def itemAt (items : List Item) (index : Nat) (span : Option Span) (expected : String) :
    Except Misfit Item :=
  match items[index]? with
  | some item => .ok item
  | none => .error ⟨.tooShort index expected, span⟩

/-- The items of an array, of either kind. -/
def items? : Item → Option (List Item)
  | .array _ items => some items
  | .tables members => some (members.map fun (span, t) => .table (.header span) t)
  | _ => none

/-! ### Sections -/

def renderField (g : Given) (key : Key) (item : Item) : Except Misfit Given :=
  if key.name = "terse" then return { g with terse := some (← boolean item) }
  else .error ⟨.unknownField key.name ["terse"], key.span⟩

def renderItems (g : Given) (items : List Item) (span : Option Span) : Except Misfit Given := do
  let item ← itemAt items 0 span "struct TomlRender with 1 element"
  return { g with terse := some (← boolean item) }

def errorsField (g : Given) (key : Key) (item : Item) : Except Misfit Given :=
  if key.name = "context_lines" then return { g with contextLines := some (← size item) }
  else if key.name = "read_sources" then return { g with readSources := some (← boolean item) }
  else if key.name = "default_filename" then
    return { g with defaultFilename := some (← text item) }
  else
    .error ⟨.unknownField key.name ["context_lines", "read_sources", "default_filename"], key.span⟩

def errorsItems (g : Given) (items : List Item) (span : Option Span) : Except Misfit Given := do
  let expected := "struct TomlErrors with 3 elements"
  let contextLines ← size (← itemAt items 0 span expected)
  let readSources ← boolean (← itemAt items 1 span expected)
  let defaultFilename ← text (← itemAt items 2 span expected)
  return { g with
    contextLines := some contextLines
    readSources := some readSources
    defaultFilename := some defaultFilename }

/-- The name under which a date-time has its only entry when it stands for a section. -/
def dateTimeField : String := "$__toml_private_datetime"

/-- A section of a document, as a table or as an array. A date-time counts as a table with an
entry of its own. -/
def sectionOf (field : Given → Key → Item → Except Misfit Given)
    (positions : Given → List Item → Option Span → Except Misfit Given) (expected : String)
    (g : Given) (item : Item) : Except Misfit Given :=
  match item with
  | .table _ entries => entries.foldlM (fun g (key, item) => under key (field g key item)) g
  | .dateTime span => field g ⟨dateTimeField, span⟩ item
  | item =>
    match items? item with
    | some items => positions g items item.span?
    | none => wrongType item expected

def documentField (g : Given) (key : Key) (item : Item) : Except Misfit Given :=
  if key.name = "render" then sectionOf renderField renderItems "struct TomlRender" g item
  else if key.name = "errors" then sectionOf errorsField errorsItems "struct TomlErrors" g item
  else .error ⟨.unknownField key.name ["render", "errors"], key.span⟩

/-- The settings given by a document, or its first misfit. -/
def ofTable (t : Table) : Except Misfit Given :=
  t.foldlM (fun g (key, item) => under key (documentField g key item)) {}

end Given

end Markup.Settings
