import Markup.AttributeMap.Basic
import Markup.InlineStyle

/-!
# Merging attribute maps

The right-hand map is laid over the left-hand one, entry by entry. Class values join into one
list, style texts join with each side closed, and any other key takes the right-hand value.

- `AttributeMap.merge`: the map `b` laid over `a`.
- `AttributeMap.mergeInPlace`: the same as a change of the left-hand map, which takes the old class
  out of it before the new one is put in.
- `AttributeMap.merged`: a change of a copy, which leaves both maps as they are.
-/

namespace Markup

/-- The items that a class value adds to a list: its own items if it is one, itself if it is
truthy, nothing otherwise. -/
def classParts : Option Value → List Value
  | some (.list items) => items
  | some v => if v.isTruthy then [v] else []
  | none => []

/-- The closed style text that a style value adds. -/
def stylePart : Option Value → String
  | some v => closeDeclarations v.styleText
  | none => ""

namespace AttributeMap

/-- Lays one entry over a map. -/
def lay (m : AttributeMap) (key : String) (value : Value) : AttributeMap :=
  if key = "class" then
    m.insert key (.list (classParts (m.get? key) ++ classParts (some value)))
  else if key = "style" then
    m.insert key (.text (stylePart (m.get? key) ++ stylePart (some value)))
  else m.insert key value

/-- The map `b` laid over `a`. -/
def merge (a b : AttributeMap) : AttributeMap :=
  b.entries.foldl (fun m e => m.lay e.1 e.2) a

/-! ### In place -/

/-- Takes the value of a key out of the map. The key stays in its place and holds nothing until it is
set again. -/
def takeValue (key : String) : StateM AttributeMap Value := do
  let m ← get
  set (m.assign key .null)
  return (m.get? key).getD .null

/-- Lays one entry over the map. -/
def layInPlace (key : String) (value : Value) : StateM AttributeMap Unit := do
  if key = "class" then
    let current ← takeValue key
    modify (·.insert key (.list (classParts (some current) ++ classParts (some value.copy))))
  else if key = "style" then
    let m ← get
    set (m.insert key (.text (stylePart (m.get? key) ++ stylePart (some value))))
  else modify (·.insert key value.copy)

/-- Lays the entries of `b` over the map, one after the other. -/
def mergeInPlace (b : AttributeMap) : StateM AttributeMap Unit :=
  b.entries.forM fun e => layInPlace e.1 e.2

/-- The map `b` laid over a copy of `a`. -/
def merged (a b : AttributeMap) : AttributeMap := ((mergeInPlace b).run a.copy).2

/-! ### Lists of maps -/

/-- The maps of a list laid over the first, one after the other. -/
def mergeList : List AttributeMap → AttributeMap
  | [] => empty
  | m :: ms => ms.foldl merge m

end AttributeMap

end Markup
