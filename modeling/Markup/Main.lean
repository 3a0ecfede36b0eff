import Markup.CommandLine

/-!
# The program

Reads the files that the arguments name and the standard input, and does what
`CommandLine.Options.outcome` says.
-/

namespace Markup.CommandLine

/-- The reading error that an error code of the operating system stands for. -/
def fileErrorOfCode (code : UInt32) (description : String) : FileError :=
  if code = 2 then .notFound
  else if code = 20 then .notADirectory
  else if code = 21 then .isADirectory
  else if code = 36 then .nameTooLong
  else .other (description ++ " (os error " ++ toString code ++ ")")

def fileErrorOf : IO.Error → FileError
  | .noFileOrDirectory _ code text | .inappropriateType _ code text
  | .permissionDenied _ code text | .invalidArgument _ code text
  | .resourceExhausted _ code text | .noSuchThing _ code text => fileErrorOfCode code text
  | .otherError code text | .hardwareFault code text | .resourceBusy code text =>
    fileErrorOfCode code text
  | e => .other (toString e)

/-- What reading a file gives. -/
def readFile (name : String) : IO (Except FileError ByteArray) := do
  if name.toList.contains '\x00' then return .error .nulInName
  try
    return .ok (← IO.FS.readBinFile name)
  catch e =>
    return .error (fileErrorOf e)

/-- The rest of a stream. -/
partial def readAll (stream : IO.FS.Stream) (before : ByteArray) : IO ByteArray := do
  let chunk ← stream.read 65536
  if chunk.isEmpty then return before else readAll stream (before ++ chunk)

/-- What reading the standard input gives. -/
def readInput : IO (Except FileError ByteArray) := do
  try
    return .ok (← readAll (← IO.getStdin) .empty)
  catch e =>
    return .error (fileErrorOf e)

/-- The files that the options name. -/
def readFiles (o : Options) : IO Files := do
  let contents ← (o.config.toList ++ o.input.toList ++ o.merges).mapM fun name => do
    return (name, ← readFile name)
  return fun name => (Entries.get? contents name).getD (.error .notFound)

def usage : String := "Usage: pug-runtime [OPTIONS] [INPUT]\n"

/-- The answer to `--help`. -/
def helpText : String :=
  "Render JSON attribute maps as HTML attribute strings\n\n" ++ usage ++ "\n" ++
  "Arguments:\n" ++
  "  [INPUT]  Input JSON file (reads from stdin if not provided)\n\n" ++
  "Options:\n" ++
  "  -m, --merge <MERGE>    JSON attribute files merged on top of the input, in order\n" ++
  "  -c, --config <CONFIG>  Runtime configuration file (TOML format)\n" ++
  "      --terse            Render boolean attributes HTML5-style\n" ++
  "      --no-terse         Render boolean attributes as key=\"key\"\n" ++
  "  -h, --help             Print help\n"

/-- What ends the answer to arguments that make no sense. -/
def misuseText : String := usage ++ "\nFor more information, try '--help'.\n"

/-- Runs the program. -/
def runWith (args : List String) : IO UInt32 := do
  match Invocation.ofArguments args with
  | .help =>
    (← IO.getStdout).putStr helpText
    return 0
  | .misuse =>
    (← IO.getStderr).putStr misuseText
    return 2
  | .run o =>
    let files ← readFiles o
    let input ← if o.input.isNone then readInput else pure (.ok .empty)
    let outcome := o.outcome files input
    (← IO.getStdout).putStr outcome.output
    (← IO.getStderr).putStr outcome.errors
    return outcome.code

end Markup.CommandLine

def main (args : List String) : IO UInt32 := Markup.CommandLine.runWith args
