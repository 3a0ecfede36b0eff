import Markup.Settings.Schema

/-!
# Documents of the right shape

`Fits t g` says that the settings document `t` has the shape of a settings document and gives
exactly the settings `g`. It speaks of the entries of the document and not of the order in which
they are checked.
-/

namespace Markup.Settings

open Toml

/-- The item is the truth value that a setting has, if the setting is given. -/
def IsBoolean (item : Item) (b : Bool) : Prop := ∃ span, item = .boolean span b

/-- The item is a size. -/
def IsSize (item : Item) (n : UInt64) : Prop := ∃ span, item = .integer span n.toNat

/-- The item is a text. -/
def IsText (item : Item) (s : String) : Prop := ∃ span, item = .text span s

/-- A key has a value of the right kind exactly if its setting is given. -/
def Gives {α : Type} (t : Table) (name : String) (is : Item → α → Prop) (given : Option α) :
    Prop :=
  match t.get? name with
  | some item => ∃ a, is item a ∧ given = some a
  | none => given = none

/-- The section `render`, as a table or as an array. -/
def FitsRender (item : Item) (terse : Option Bool) : Prop :=
  (∃ shape t, item = .table shape t ∧ (∀ e ∈ t, e.1.name = "terse") ∧
    Gives t "terse" IsBoolean terse) ∨
  (∃ first rest b, Given.items? item = some (first :: rest) ∧ IsBoolean first b ∧
    terse = some b)

/-- The section `errors`, as a table or as an array. -/
def FitsErrors (item : Item) (contextLines : Option UInt64) (readSources : Option Bool)
    (defaultFilename : Option String) : Prop :=
  (∃ shape t, item = .table shape t ∧
    (∀ e ∈ t, e.1.name ∈ ["context_lines", "read_sources", "default_filename"]) ∧
    Gives t "context_lines" IsSize contextLines ∧
    Gives t "read_sources" IsBoolean readSources ∧
    Gives t "default_filename" IsText defaultFilename) ∨
  (∃ first second third rest n b s,
    Given.items? item = some (first :: second :: third :: rest) ∧
    IsSize first n ∧ IsBoolean second b ∧ IsText third s ∧
    contextLines = some n ∧ readSources = some b ∧ defaultFilename = some s)

/-- The document gives exactly these settings. -/
def Fits (t : Table) (g : Given) : Prop :=
  (∀ e ∈ t, e.1.name ∈ ["render", "errors"]) ∧
  (match t.get? "render" with
    | some item => FitsRender item g.terse
    | none => g.terse = none) ∧
  (match t.get? "errors" with
    | some item => FitsErrors item g.contextLines g.readSources g.defaultFilename
    | none => g.contextLines = none ∧ g.readSources = none ∧ g.defaultFilename = none)

end Markup.Settings
