import Markup.Attribute
import Markup.AttributeMap.Merge

/-!
# The text of maps laid over one another

The text that a list of maps has when they are laid over one another, read off the list itself:
each attribute is found in the maps that have it, and no merged map is built.

- `AttributeMap.textOfAll`: the class list first, then a segment for every other key.
-/

namespace Markup.AttributeMap

/-- The keys of several maps, in the order of their first occurrence. -/
def keysOfAll (ms : List AttributeMap) : List String := (ms.flatMap keys).eraseDups

/-- The value of a key in the last of the maps that has it. -/
def lastValue? (ms : List AttributeMap) (key : String) : Option Value :=
  ms.reverse.findSome? (·.get? key)

/-- The class texts of the maps that have one. -/
def classTexts (ms : List AttributeMap) : List String :=
  (ms.filterMap fun m => (m.get? "class").map Value.classText).filter (· ≠ "")

/-- The closed style texts of the maps that have one. -/
def closedStyles (ms : List AttributeMap) : List String :=
  ms.filterMap fun m => (m.get? "style").map fun v => closeDeclarations v.styleText

/-- The style text of several maps. It is closed only if a map after the first has a style. -/
def styleTextOfAll : List AttributeMap → String
  | [] => ""
  | m :: ms =>
    if ms.any (·.has "style") then String.join (closedStyles (m :: ms))
    else ((m.get? "style").map Value.styleText).getD ""

/-- The text of one key. -/
def segmentOfAll (ms : List AttributeMap) (terse : Bool) (key : String) : String :=
  if key = "style" then attributeText key (.text (styleTextOfAll ms)) false terse
  else attributeText key ((lastValue? ms key).getD .null) false terse

/-- The text of several maps laid over one another. -/
def textOfAll (ms : List AttributeMap) (terse : Bool) : String :=
  attributeText "class" (.text (" ".intercalate (classTexts ms))) false terse ++
    String.join (((keysOfAll ms).filter (· ≠ "class")).map (segmentOfAll ms terse))

end Markup.AttributeMap
