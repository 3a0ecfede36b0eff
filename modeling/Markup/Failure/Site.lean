import Markup.Failure.Basic
import Markup.Files.Basic
import Markup.Settings.Basic
import Markup.Text.Lines

/-!
# Raising a failure again

On its way up a failure passes the places in templates from which the failing one was included.
Each place adds what it knows: the lines around it if it knows the source, else the line number.

- `Site`: a place in a template.
- `Site.look`: what is known of the source at a place, and what looking it up logs.
- `RenderError.raisedAt`: the error as raised again at a place.
-/

namespace Markup

/-- A place in a template. -/
structure Site where
  filename : Option String
  line : UInt64
  source : Option String

/-- What raising a failure again logs. -/
inductive Event where
  | reading (path : String)
  | unreadable (path : String) (error : FileError)
  | messageSealed (message : String)
  deriving DecidableEq

inductive Level where
  | debug
  | warn
  deriving DecidableEq

namespace Event

def level : Event → Level
  | reading _ => .debug
  | unreadable _ _ | messageSealed _ => .warn

def message : Event → String
  | reading _ => "reading template source for error context"
  | unreadable _ _ => "could not read template source"
  | messageSealed _ => "template error message is sealed, leaving it unchanged"

/-- The named details of an event. -/
def fields : Event → List (String × String)
  | reading path => [("path", path)]
  | unreadable path error => [("path", path), ("error", error.message)]
  | messageSealed message => [("error_message", message)]

end Event

/-- What is known of the source at a place. -/
inductive Knowledge where
  | source (text : String)
  | unreadable (path : String) (error : FileError)
  | nothing

/-- What is known of the source at a place. A source that is given counts unless it is empty;
otherwise the file is read, if there is one and files may be read. -/
def Site.look (settings : Settings) (files : Files) (site : Site) : Knowledge × List Event :=
  match site.source.filter (· ≠ ""), site.filename with
  | some text, _ => (.source text, [])
  | none, some path =>
    if settings.readSources then
      match files.readText path with
      | .ok text => (.source text, [.reading path])
      | .error error => (.unreadable path error, [.reading path, .unreadable path error])
    else (.nothing, [])
  | none, none => (.nothing, [])

/-- What goes in front of a message: the place and the lines around it. -/
def Site.header (settings : Settings) (site : Site) (text : String) : String :=
  site.filename.getD settings.defaultFilename ++ ":" ++ toString site.line ++ "\n" ++
    Text.window text site.line settings.contextLines ++ "\n\n"

/-- What goes after a message when only the line is known. -/
def lineNote (line : UInt64) : String := " on line " ++ toString line

/-- What goes after a message when the source cannot be read. -/
def unreadableNote (path : String) (error : FileError) : String :=
  " - could not read from " ++ path ++ " (" ++ error.message ++ ")"

namespace RenderError

/-- Changes the message, unless it is sealed. -/
def mapMessage (e : RenderError) (change : String → String) : RenderError × List Event :=
  if e.isSealed then (e, [.messageSealed e.message])
  else ({ e with message := change e.message }, [])

/-- Adds the line alone. -/
def onLine (e : RenderError) (line : UInt64) : RenderError × List Event :=
  let (e, log) := e.mapMessage (· ++ lineNote line)
  ({ e with line := some line }, log)

/-- The error as raised again at a place, by what is known of the source there. -/
def knowing (e : RenderError) (settings : Settings) (site : Site) :
    Knowledge → RenderError × List Event
  | .source text =>
    { e with path := site.filename, line := some site.line }.mapMessage
      (site.header settings text ++ ·)
  | .unreadable path error =>
    let (e, log) := e.mapMessage (· ++ unreadableNote path error)
    let (e, lineLog) := e.onLine site.line
    (e, log ++ lineLog)
  | .nothing => e.onLine site.line

/-- The error as raised again at a place, and what that logs. -/
def raisedAt (e : RenderError) (settings : Settings) (files : Files) (site : Site) :
    RenderError × List Event :=
  let (knowledge, log) := site.look settings files
  let (e, messageLog) := e.knowing settings site knowledge
  (e, log ++ messageLog)

end RenderError

namespace Failure

/-- A failure raised again at a place. A plain value stays as it is. -/
def raisedAt (failure : Failure) (settings : Settings) (files : Files) (site : Site) :
    Failure × List Event :=
  match failure with
  | error e =>
    let (e, log) := e.raisedAt settings files site
    (error e, log)
  | value v => (value v, [])

/-- A step of a failure on its way up: the settings and files there, and the place. -/
structure Step where
  settings : Settings
  files : Files
  site : Site

/-- A failure raised again at one place after the other. -/
def raisedAlong (failure : Failure) (steps : List Step) : Failure :=
  steps.foldl (fun f s => (f.raisedAt s.settings s.files s.site).1) failure

end Failure

end Markup
