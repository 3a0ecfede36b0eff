import Markup.Value.Basic
import Markup.Number.Text

/-!
# Value text

`Value.display` is the text of a value joined into markup: the items of a list with commas, an
absent item as nothing, a map as a fixed word and an object as its projection.
-/

namespace Markup.Value

mutual

/-- The text of a value joined into markup. -/
def display : Value → String
  | null => "null"
  | bool b => if b then "true" else "false"
  | number n => n.display
  | text s => s
  | list items => ",".intercalate (displayItems items)
  | map _ => "[object Object]"
  | object _ v => display v

/-- The texts of list items; an absent item has none. -/
def displayItems : List Value → List String
  | [] => []
  | v :: vs => (if v.isNull then "" else display v) :: displayItems vs

end

end Markup.Value
