/-!
# Settings

The settings shared by rendering and by error messages.

- `Setting`: one of them with its value.
- `Settings.set`: the settings with one of them changed.
-/

namespace Markup

structure Settings where
  /-- whether `true` is written as a bare name -/
  terse : Bool := true
  /-- how many lines are shown on either side of a failing one -/
  contextLines : UInt64 := 3
  /-- whether template files may be read -/
  readSources : Bool := true
  /-- the name shown for a template without a file -/
  defaultFilename : String := "Pug"
  deriving DecidableEq, Inhabited

/-- A setting with its value. -/
inductive Setting where
  | terse (value : Bool)
  | contextLines (value : UInt64)
  | readSources (value : Bool)
  | defaultFilename (value : String)
  deriving DecidableEq

namespace Settings

/-- The settings with one of them changed. -/
def set (s : Settings) : Setting → Settings
  | .terse value => { s with terse := value }
  | .contextLines value => { s with contextLines := value }
  | .readSources value => { s with readSources := value }
  | .defaultFilename value => { s with defaultFilename := value }

end Settings

end Markup
