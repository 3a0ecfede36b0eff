import Markup.Attribute
import Markup.Json.Reader
import Markup.AttributeMap.Merge
import Markup.Settings.Load

/-!
# The command line

The program writes the attributes of a JSON object as they stand in a tag. The object comes from
a file or from the standard input, and the objects of further files are laid over it.

- `Invocation.ofArguments`: what a list of arguments asks for.
- `Options.outcome`: what the program does, as a function of the files and the standard input.
-/

namespace Markup.CommandLine

structure Options where
  /-- the file of the object; the standard input if there is none -/
  input : Option String := none
  /-- the files laid over it, in order -/
  merges : List String := []
  /-- the file of the settings -/
  config : Option String := none
  /-- whether `true` is written as a bare name, whatever the settings say -/
  terse : Option Bool := none
  deriving DecidableEq

/-- What a list of arguments asks for. -/
inductive Invocation where
  | run (options : Options)
  | help
  | misuse
  deriving DecidableEq

/-! ### Arguments -/

/-- The options that take a value. -/
inductive ValueOption where
  | merge
  | config
  deriving DecidableEq

namespace Options

/-- Takes the value of an option. It may not be empty, and only `merge` may be repeated. -/
def give? (o : Options) (option : ValueOption) (value : String) : Option Options :=
  if value = "" then none
  else match option with
    | .merge => some { o with merges := o.merges ++ [value] }
    | .config => if o.config.isSome then none else some { o with config := some value }

/-- Takes the one argument that is no option. -/
def place? (o : Options) (name : String) : Option Options :=
  if name = "" ∨ o.input.isSome then none else some { o with input := some name }

/-- Takes arguments none of which is an option. -/
def placeAll? (o : Options) (names : List String) : Option Options :=
  names.foldlM place? o

end Options

/-- One argument: what it is, with a value that is attached to it. -/
inductive Argument where
  | plain (name : String)
  | valued (option : ValueOption) (attached : Option String)
  | flag (terse : Bool)
  | help
  | separator
  | unknown

/-- A long option, without its dashes. -/
def Argument.ofLong (cs : List Char) : Argument :=
  let attached := match cs.dropWhile (· ≠ '=') with
    | '=' :: value => some (String.ofList value)
    | _ => none
  match String.ofList (cs.takeWhile (· ≠ '=')), attached with
  | "merge", value => .valued .merge value
  | "config", value => .valued .config value
  | "terse", none => .flag true
  | "no-terse", none => .flag false
  | "help", none => .help
  | _, _ => .unknown

/-- The value attached to a short option. An equals sign in front does not belong to it. -/
def Argument.attachedTo : List Char → Option String
  | [] => none
  | '=' :: value => some (String.ofList value)
  | value => some (String.ofList value)

/-- What an argument is. -/
def Argument.of (s : String) : Argument :=
  match s.toList with
  | ['-', '-'] => .separator
  | '-' :: '-' :: cs => .ofLong cs
  | ['-'] => .plain s
  | '-' :: 'm' :: cs => .valued .merge (attachedTo cs)
  | '-' :: 'c' :: cs => .valued .config (attachedTo cs)
  | '-' :: 'h' :: _ => .help
  | '-' :: _ => .unknown
  | _ => .plain s

/-- Whether an argument can be the value of the option before it. -/
def isDetachedValue (s : String) : Bool := s.toList.head? ≠ some '-' || s = "-"

/-- What the options ask for. Both flags together make no sense. -/
def Invocation.ofOptions (o : Options) (both : Bool) : Invocation := if both then .misuse else .run o

/-- What a list of arguments asks for, after the options taken so far, and both flags or not. No
flag may be repeated. Help can be asked for even after both. -/
def Invocation.after (o : Options) (both : Bool) : List String → Invocation
  | [] => ofOptions o both
  | arg :: args =>
    match Argument.of arg with
    | .plain name => (o.place? name).elim .misuse fun o => after o both args
    | .flag terse =>
      if both || o.terse = some terse then .misuse
      else after { o with terse := some terse } o.terse.isSome args
    | .valued option (some value) =>
      (o.give? option value).elim .misuse fun o => after o both args
    | .valued option none =>
      match args with
      | [] => .misuse
      | value :: args =>
        if isDetachedValue value then (o.give? option value).elim .misuse fun o => after o both args
        else .misuse
    | .separator => (o.placeAll? args).elim .misuse fun o => ofOptions o both
    | .help => .help
    | .unknown => .misuse

/-- What a list of arguments asks for. -/
def Invocation.ofArguments (args : List String) : Invocation := after {} false args

/-! ### Running -/

/-- Why there is no output. -/
inductive RunError where
  | settings (name : String) (error : Settings.LoadError)
  | file (name : String) (error : FileError)
  | standardInput (error : FileError)
  | attributes (origin : String) (error : Json.ReadError)

def RunError.message : RunError → String
  | settings name error => "Error loading config '" ++ name ++ "': " ++ error.message
  | file name error => "Error reading file '" ++ name ++ "': " ++ error.message
  | standardInput error => "Error reading from stdin: " ++ error.message
  | attributes origin error => "Error parsing attributes from " ++ origin ++ ": " ++ error.message

/-- How the program ends, and what it has written. -/
structure Outcome where
  code : UInt32
  output : String
  errors : String
  deriving DecidableEq

namespace Options

/-- The settings of the file, if there is one, with the flags over them. -/
def settings (o : Options) (files : Files) : Except RunError Settings := do
  let base ← match o.config with
    | some name => (Settings.ofFile files name).mapError (RunError.settings name)
    | none => pure {}
  return { base with terse := o.terse.getD base.terse }

/-- The attributes of a text. -/
def attributesOf (origin text : String) : Except RunError AttributeMap :=
  (AttributeMap.read text).mapError (RunError.attributes origin)

/-- The attributes of a file. -/
def fileAttributes (files : Files) (name : String) : Except RunError AttributeMap := do
  attributesOf name (← (files.readText name).mapError (RunError.file name))

/-- The attributes that others are laid over. -/
def inputAttributes (o : Options) (files : Files) (input : Except FileError ByteArray) :
    Except RunError AttributeMap :=
  match o.input with
  | some name => fileAttributes files name
  | none => do attributesOf "stdin" (← (input >>= decodeText).mapError RunError.standardInput)

/-- The text that the program writes. -/
def result (o : Options) (files : Files) (input : Except FileError ByteArray) :
    Except RunError String := do
  let settings ← o.settings files
  let first ← o.inputAttributes files input
  let others ← o.merges.mapM (fileAttributes files)
  return (AttributeMap.mergeList (first :: others)).text settings.terse

/-- What the program does, given what reading the standard input comes to. -/
def outcome (o : Options) (files : Files) (input : Except FileError ByteArray) : Outcome :=
  match o.result files input with
  | .ok text => ⟨0, text ++ "\n", ""⟩
  | .error e => ⟨1, "", e.message ++ "\n"⟩

/-- What the program does with a standard input. -/
def run (o : Options) (files : Files) (input : ByteArray) : Outcome := o.outcome files (.ok input)

end Options

end Markup.CommandLine
