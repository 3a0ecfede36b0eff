import Markup.Entries
import Markup.Files.Basic

/-!
# Directory trees

A directory given by its contents, and what reading a name in it gives.

A name is taken apart at its slashes. `.` stays where it is, `..` goes up, and a slash at the end
asks for a directory. Every step but the last must lead to a directory.
-/

namespace Markup

/-- A file or a directory. -/
inductive FileTree where
  | file (content : ByteArray)
  | directory (entries : List (String × FileTree))

namespace FileTree

instance : Inhabited FileTree := ⟨directory []⟩

/-- The steps of a name. -/
def steps (name : String) : List String :=
  let parts := (name.toList.splitOn '/').map String.ofList
  let named := parts.filter (· ≠ "")
  if parts.getLast? = some "" then named ++ ["."] else named

/-- Adds a file or directory under a path, with the directories on the way. A directory that is
there already keeps its contents. -/
def add (node : FileTree) : List String → List (String × FileTree) → List (String × FileTree)
  | [], es => es
  | [name], es =>
    match node, Entries.get? es name with
    | directory [], some (directory _) => es
    | _, _ => Entries.put es name node
  | name :: path, es =>
    match Entries.get? es name with
    | some (directory sub) => Entries.put es name (directory (add node path sub))
    | _ => Entries.put es name (directory (add node path []))

/-- A directory with the given files and directories, by name. -/
def ofList (files : List (String × FileTree)) : List (String × FileTree) :=
  files.foldl (fun es (name, node) => node.add ((steps name).filter (· ≠ ".")) es) []

/-- The longest step, in bytes. -/
def maxStep : Nat := 255

/-- The longest name, in bytes. -/
def maxName : Nat := 4095

/-- Follows steps from a directory, given the directories above it. -/
def walk (above : List (List (String × FileTree))) (here : List (String × FileTree)) :
    List String → Except FileError FileTree
  | [] => .ok (directory here)
  | step :: rest =>
    if step = "." then walk above here rest
    else if step = ".." then
      match above with
      | [] => walk [] [] rest
      | up :: above => walk above up rest
    else if maxStep < step.utf8ByteSize then .error .nameTooLong
    else
      match Entries.get? here step with
      | none => .error .notFound
      | some (directory sub) => walk (here :: above) sub rest
      | some (file content) => if rest = [] then .ok (file content) else .error .notADirectory

/-- The files of a directory. -/
def files (here : List (String × FileTree)) : Files := fun name =>
  if name.toList.contains '\x00' then .error .nulInName
  else if name = "" then .error .notFound
  else if maxName < name.utf8ByteSize then .error .nameTooLong
  else
    match walk [] here (steps name) with
    | .ok (file content) => .ok content
    | .ok (directory _) => .error .isADirectory
    | .error e => .error e

end FileTree

end Markup
