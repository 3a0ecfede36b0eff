import Markup.Escape

/-!
# Class lists

The text of a `class` value. A list contributes its items in order, a map its non-empty keys
with truthy values, an object its projection, and any other truthy value its text; parts are
separated by single spaces, and a part without text leaves no trace.

- `Value.classText`: the class text.
- `Value.classTextEscaping`: with a flag for each item of a list that asks to escape it.
- `Value.classNames`: the names themselves, however deep they stand.
-/

namespace Markup.Value

/-- The keys that a map of classes switches on. -/
def chosenKeys : List (String × Value) → List String
  | [] => []
  | (k, v) :: es => if k ≠ "" ∧ v.isTruthy then k :: chosenKeys es else chosenKeys es

mutual

/-- The class text of a value. -/
def classText : Value → String
  | list items => " ".intercalate (classItems items)
  | map entries => " ".intercalate (chosenKeys entries)
  | object _ v => classText v
  | null => ""
  | bool b => if b then "true" else ""
  | number n => if (number n).isTruthy then n.display else ""
  | text s => s

/-- The class texts of list items that have one. -/
def classItems : List Value → List String
  | [] => []
  | v :: vs =>
    let part := classText v
    if part = "" then classItems vs else part :: classItems vs

end

/-- The class texts of list items, each escaped if its flag says so; a missing flag does not. -/
def classItemsEscaping : List Value → List Bool → List String
  | [], _ => []
  | v :: vs, flags =>
    let part := classText v
    if part = "" then classItemsEscaping vs flags.tail
    else (if flags.headD false then escape part else part) :: classItemsEscaping vs flags.tail

/-- The class text of a value, where flags say which items of a list are escaped. -/
def classTextEscaping (flags : List Bool) : Value → String
  | list items => " ".intercalate (classItemsEscaping items flags)
  | v => classText v

mutual

/-- The class names of a value, in order. -/
def classNames : Value → List String
  | list items => classNamesOfItems items
  | map entries => chosenKeys entries
  | object _ v => classNames v
  | v => if v.isTruthy then [v.display] else []

def classNamesOfItems : List Value → List String
  | [] => []
  | v :: vs => classNames v ++ classNamesOfItems vs

end

end Markup.Value
