/-!
# Files

What reading a file by its name gives. `Files` is any such reading, so that the rest of the
library is a function of it.
-/

namespace Markup

/-- Why a file cannot be read. -/
inductive FileError where
  | notFound
  | notADirectory
  | isADirectory
  | nameTooLong
  | nulInName
  | notUTF8
  | other (description : String)
  deriving DecidableEq

def FileError.message : FileError → String
  | notFound => "No such file or directory (os error 2)"
  | notADirectory => "Not a directory (os error 20)"
  | isADirectory => "Is a directory (os error 21)"
  | nameTooLong => "File name too long (os error 36)"
  | nulInName => "file name contained an unexpected NUL byte"
  | notUTF8 => "stream did not contain valid UTF-8"
  | other description => description

/-- The files that can be read, by name. -/
abbrev Files := String → Except FileError ByteArray

/-- Bytes as a text. -/
def decodeText (bytes : ByteArray) : Except FileError String :=
  match String.fromUTF8? bytes with
  | some s => .ok s
  | none => .error .notUTF8

/-- The text of a file. -/
def Files.readText (files : Files) (name : String) : Except FileError String := do
  decodeText (← files name)

end Markup
