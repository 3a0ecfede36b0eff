import Markup.Value.Display

/-!
# Inline styles

The text of a `style` value. A map gives a declaration for each entry, a list one for each item
with its index as the property, an object the style of its projection; a text stands as it is,
and a falsy value gives nothing.

- `Value.styleText`: the style text.
- `closeDeclarations`: the text with a semicolon after it, where it has none.
-/

namespace Markup

/-- One declaration. -/
def declaration (property value : String) : String := property ++ ":" ++ value ++ ";"

namespace Value

/-- The declarations of list items, with their indices from `i` on. -/
def indexedDeclarations (i : Nat) : List Value → List String
  | [] => []
  | v :: vs => declaration (toString i) v.display :: indexedDeclarations (i + 1) vs

/-- The style text of a value. -/
def styleText : Value → String
  | map entries => String.join (entries.map fun (k, v) => declaration k v.display)
  | list items => String.join (indexedDeclarations 0 items)
  | object _ v => styleText v
  | v => if v.isTruthy then v.display else ""

end Value

/-- Declarations that end with a semicolon, or nothing. -/
def closeDeclarations (declarations : String) : String :=
  if declarations = "" ∨ declarations.toList.getLast? = some ';' then declarations
  else declarations ++ ";"

end Markup
