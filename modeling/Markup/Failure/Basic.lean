import Markup.Value.Display

/-!
# Failures of a template

What running a template can raise: an error with a message, or a plain value.

An error keeps its first message as its detail, whatever becomes of the message later, and the
error it was made from as its cause.
-/

namespace Markup

/-- The kinds of input and output failure that a cause can be told by. -/
inductive IoKind where
  | notFound
  | permissionDenied
  | other
  deriving DecidableEq

inductive CauseKind where
  | io (kind : IoKind)
  | custom
  | template
  deriving DecidableEq

/-- The error that a template error was made from. -/
structure Cause where
  kind : CauseKind
  text : String
  deriving DecidableEq

structure RenderError where
  message : String
  /-- the message as first raised -/
  detail : String
  /-- the template file the error is put down to -/
  path : Option String := none
  /-- the line the error is put down to -/
  line : Option UInt64 := none
  /-- whether the message may not change -/
  isSealed : Bool := false
  cause : Option Cause := none
  deriving DecidableEq

namespace RenderError

/-- An error with a message of its own. -/
def ofMessage (message : String) : RenderError := { message, detail := message }

/-- An error made from another. -/
def ofCause (cause : Cause) : RenderError :=
  { message := cause.text, detail := cause.text, cause := some cause }

/-- The error with its message fixed. -/
def sealed (e : RenderError) : RenderError := { e with isSealed := true }

/-- The error as a cause of another. -/
def toCause (e : RenderError) : Cause := ⟨.template, e.message⟩

end RenderError

/-- Anything that running a template can raise. -/
inductive Failure where
  | error (e : RenderError)
  | value (v : Value)

namespace Failure

instance : Inhabited Failure := ⟨value .null⟩

def display : Failure → String
  | error e => e.message
  | value v => v.display

/-- The error from which this one was made. -/
def cause? : Failure → Option Cause
  | error e => e.cause
  | value _ => none

end Failure

end Markup
