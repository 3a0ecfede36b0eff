import Markup.Number.Basic

/-!
# TOML documents

The contents of a TOML document with the places they were written at, and how its statements
build it up.

A table is closed once it is written in braces. A table that only leads to others, by the path of
a header or of a key, may still be added to; each way of making a table has its own rules for
that, and a `Shape` remembers which way it was.

- `Toml.Item`, `Toml.Table`: contents.
- `Toml.Statement`: an assignment or a header.
- `Toml.build?`: the table that statements build up, if they are compatible.
-/

namespace Markup.Toml

/-- The bytes from `start` to before `stop`. -/
structure Span where
  start : Nat
  stop : Nat
  deriving DecidableEq

/-- A key and where it is written, quotation marks included. -/
structure Key where
  name : String
  span : Span
  deriving DecidableEq

/-- How a table was made. -/
inductive Shape where
  /-- written in braces -/
  | braces (span : Span)
  /-- on the path of a header -/
  | implied
  /-- on the path of a key -/
  | dotted
  /-- by a header of its own, from there to the end of the last value below it -/
  | header (span : Span)
  deriving DecidableEq

inductive Item where
  | text (span : Span) (s : String)
  | integer (span : Span) (n : Int)
  | float (span : Span) (x : Number)
  | boolean (span : Span) (b : Bool)
  | dateTime (span : Span)
  | array (span : Span) (items : List Item)
  | table (shape : Shape) (entries : List (Key × Item))
  /-- tables under one name, each by a header of its own -/
  | tables (members : List (Span × List (Key × Item)))

instance : Inhabited Item := ⟨.table .implied []⟩

/-- The entries of a table, in order. -/
abbrev Table := List (Key × Item)

/-- Where an item is written. A table that was only led to is written nowhere. -/
def Item.span? : Item → Option Span
  | text span _ | integer span _ | float span _ | boolean span _ | dateTime span
  | array span _ => some span
  | table (.braces span) _ | table (.header span) _ => some span
  | table .implied _ | table .dotted _ => none
  | tables members =>
    match members.head?, members.getLast? with
    | some (first, _), some (last, _) => some ⟨first.start, last.stop⟩
    | _, _ => none

namespace Table

def get? (t : Table) (name : String) : Option Item :=
  (t.find? fun e => e.1.name = name).map (·.2)

/-- Changes the item of a key in its place. -/
def set (t : Table) (name : String) (item : Item) : Table :=
  t.map fun e => if e.1.name = name then (e.1, item) else e

def erase (t : Table) (name : String) : Table := t.filter fun e => e.1.name ≠ name

def add (t : Table) (key : Key) (item : Item) : Table := t ++ [(key, item)]

/-- Adds an item under a key that is not there yet. -/
def insert? (key : Key) (item : Item) (t : Table) : Option Table :=
  match t.get? key.name with
  | none => some (t.add key item)
  | some _ => none

/-- Changes the last of the tables under one name. -/
def changeLast? (change : Table → Option Table) :
    List (Span × Table) → Option (List (Span × Table))
  | [] => none
  | [(span, t)] => do return [(span, ← change t)]
  | m :: ms => do return m :: (← changeLast? change ms)

/-- Changes the table that the headers of a path made last. -/
def within? (change : Table → Option Table) : List Key → Table → Option Table
  | [], t => change t
  | k :: path, t =>
    match t.get? k.name with
    | some (.table shape sub) => do
      return t.set k.name (.table shape (← within? change path sub))
    | some (.tables members) => do
      return t.set k.name (.tables (← changeLast? (within? change path) members))
    | _ => none

/-- Changes the table at the path of a header, making tables on the way. -/
def underHeader? (change : Table → Option Table) : List Key → Table → Option Table
  | [], t => change t
  | k :: path, t =>
    match t.get? k.name with
    | none => do return t.add k (.table .implied (← underHeader? change path []))
    | some (.table (.braces _) _) => none
    | some (.table shape sub) => do
      return t.set k.name (.table shape (← underHeader? change path sub))
    | some (.tables members) => do
      return t.set k.name (.tables (← changeLast? (underHeader? change path) members))
    | some _ => none

/-- Changes the table at the path of a key, making tables on the way. The path may pass through
tables that were only led to, and must end in one that keys led to. -/
def underKey? (change : Table → Option Table) : List Key → Table → Option Table
  | [], t => change t
  | k :: path, t =>
    match t.get? k.name with
    | none => do return t.add k (.table .dotted (← underKey? change path []))
    | some (.table .dotted sub) => do
      return t.set k.name (.table .dotted (← underKey? change path sub))
    | some (.table .implied sub) =>
      if path = [] then none
      else do return t.set k.name (.table .implied (← underKey? change path sub))
    | some (.tables members) =>
      if path = [] then none
      else do
        return t.set k.name (.tables (← changeLast? (underKey? change path) members))
    | some _ => none

/-- Assigns an item at a path and key. -/
def assign? (path : List Key) (key : Key) (item : Item) (t : Table) : Option Table :=
  underKey? (insert? key item) path t

/-- Opens the table of a header. A table that headers only led to so far is opened at the end. -/
def open? (key : Key) (span : Span) (t : Table) : Option Table :=
  match t.get? key.name with
  | none => some (t.add key (.table (.header span) []))
  | some (.table .implied sub) => some ((t.erase key.name).add key (.table (.header span) sub))
  | some _ => none

/-- Opens one more of the tables under one name. -/
def openNext? (key : Key) (span : Span) (t : Table) : Option Table :=
  match t.get? key.name with
  | none => some (t.add key (.tables [(span, [])]))
  | some (.tables members) => some (t.set key.name (.tables (members ++ [(span, [])])))
  | some _ => none

end Table

/-- A line of a document, or several. -/
inductive Statement where
  | assign (path : List Key) (key : Key) (item : Item)
  | header (path : List Key) (key : Key) (span : Span)
  | nextHeader (path : List Key) (key : Key) (span : Span)

/-- The end of the last value in front of the next header. -/
def lastStop? : List Statement → Option Nat
  | .assign _ _ item :: statements => (lastStop? statements).or (item.span?.map Span.stop)
  | _ => none

/-- A header that reaches to the end of the last value below it. -/
def Span.withValues (span : Span) (below : List Statement) : Span :=
  { span with stop := (lastStop? below).getD span.stop }

/-- Statements whose headers reach to the end of the last value below them. -/
def withValues : List Statement → List Statement
  | [] => []
  | .header path key span :: below => .header path key (span.withValues below) :: withValues below
  | .nextHeader path key span :: below =>
    .nextHeader path key (span.withValues below) :: withValues below
  | .assign path key item :: below => .assign path key item :: withValues below

/-- A document as far as it is built: the table at its root, and the path of the last header. -/
structure Draft where
  root : Table
  current : List Key

/-- One more statement. -/
def Draft.step? (d : Draft) : Statement → Option Draft
  | .assign path key item => do
    return { d with root := ← Table.within? (Table.assign? path key item) d.current d.root }
  | .header path key span => do
    return ⟨← Table.underHeader? (Table.open? key span) path d.root, path ++ [key]⟩
  | .nextHeader path key span => do
    return ⟨← Table.underHeader? (Table.openNext? key span) path d.root, path ++ [key]⟩

/-- The table that statements build up, if they are compatible. -/
def build? (statements : List Statement) : Option Table := do
  return (← (withValues statements).foldlM Draft.step? ⟨[], []⟩).root

end Markup.Toml
