import Markup.AttributeMap.Merge

/-!
# Editing attribute maps

The changes a template makes to an attribute map, as data, so that a whole history can be run
and reasoned about.

- `Edit.apply`: the map after a change.
- `Edit.returned`: the value that a change hands back, the one it replaced or dropped.
- `AttributeMap.run`: the map after a list of changes.
-/

namespace Markup

/-- A change to an attribute map. -/
inductive Edit where
  | collect (pairs : List (String × Value))
  | insert (key : String) (value : Value)
  | assign (key : String) (value : Value)
  | erase (key : String)
  | merge (other : AttributeMap)
  | mergeList (maps : List AttributeMap)
  /-- another map, or a copy of it, takes the place of this one -/
  | replace (other : AttributeMap)
  /-- the map taken apart into its pairs and made again -/
  | reopen

namespace Edit

/-- The map after a change. -/
def apply (m : AttributeMap) : Edit → AttributeMap
  | collect pairs => .ofList pairs
  | insert key value => m.insert key value
  | assign key value => m.assign key value
  | erase key => m.erase key
  | merge other => m.merge other
  | mergeList maps => .mergeList maps
  | replace other => other
  | reopen => .ofList m.toList

/-- The value that a change hands back. -/
def returned (m : AttributeMap) : Edit → Option Value
  | insert key _ | erase key => m.get? key
  | _ => none

end Edit

/-- The map after a list of changes. -/
def AttributeMap.run (m : AttributeMap) (edits : List Edit) : AttributeMap :=
  edits.foldl Edit.apply m

end Markup
