import Markup.Files.Basic
import Markup.Settings.Schema
import Markup.Toml.Reader

/-!
# Loading settings

- `Settings.ofText`: the settings of a text.
- `Settings.ofFile`: the settings of a file.
- `Settings.LoadError`: why there are none. A misfit is shown with its line, underlined.
-/

namespace Markup.Settings

/-- Why settings cannot be loaded. -/
inductive LoadError where
  | unreadable (error : FileError)
  | notToml
  | misfit (text : String) (misfit : Misfit)

namespace LoadError

/-- The lines before a byte, and the characters of its own line before it. -/
def place (cs : List Char) (offset : Nat) : Nat × Nat :=
  let before := (Text.takeBytes? offset cs).getD []
  (before.count '\n', (before.reverse.takeWhile (· ≠ '\n')).length)

/-- A line of a text with a span of it underlined. -/
def excerpt (text : String) (span : Toml.Span) : String :=
  let (line, column) := place text.toList span.start
  let content := ((text.toList.splitOn '\n')[line]?).getD []
  let number := toString (line + 1)
  let gutter := String.ofList (List.replicate (number.length + 1) ' ')
  let width := max 1 (min (span.stop - span.start) (Text.byteSize content - column))
  "TOML parse error at line " ++ number ++ ", column " ++ toString (column + 1) ++ "\n" ++
    gutter ++ "|\n" ++
    number ++ " | " ++ String.ofList content ++ "\n" ++
    gutter ++ "|" ++ String.ofList (List.replicate (column + 1) ' ') ++
    String.ofList (List.replicate width '^') ++ "\n"

/-- What is wrong with a document. -/
def misfitMessage (text : String) (m : Misfit) : String :=
  (m.span.map (excerpt text)).getD "" ++ m.problem.message ++ "\n"

/-- What is said of a text that is no TOML. A reader without reasons cannot say more, and whoever
needs the message may not rely on these words. -/
def unexplained : String := "the text is not valid TOML\n"

def message : LoadError → String
  | unreadable error => "Failed to read config file: " ++ error.message
  | notToml => "Failed to parse config TOML: " ++ unexplained
  | misfit text m => "Failed to parse config TOML: " ++ misfitMessage text m

end LoadError

/-- The settings that a text gives, where it differs from the default ones. -/
def ofText (text : String) : Except LoadError Settings :=
  match Toml.read? text with
  | none => .error .notToml
  | some table =>
    match Given.ofTable table with
    | .ok given => .ok given.settings
    | .error m => .error (.misfit text m)

def ofFile (files : Files) (name : String) : Except LoadError Settings :=
  match files.readText name with
  | .ok text => ofText text
  | .error e => .error (.unreadable e)

end Markup.Settings
