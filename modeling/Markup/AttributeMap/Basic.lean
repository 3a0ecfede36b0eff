import Markup.Value.Json

/-!
# Attribute maps

The attributes of one tag, in the order in which they were first set. No key repeats.
-/

namespace Markup

/-- The attributes of one tag. -/
structure AttributeMap where
  entries : Entries Value
  nodup : entries.keys.Nodup

namespace AttributeMap

def empty : AttributeMap := ⟨[], by simp⟩

instance : Inhabited AttributeMap := ⟨empty⟩

@[ext] theorem ext {a b : AttributeMap} (h : a.entries = b.entries) : a = b := by
  cases a
  cases b
  cases h
  rfl

/-- The pairs set one after the other. -/
def ofList (pairs : List (String × Value)) : AttributeMap :=
  ⟨Entries.collect pairs, Entries.nodup_collect pairs⟩

def toList (m : AttributeMap) : List (String × Value) := m.entries

def keys (m : AttributeMap) : List String := m.entries.keys

def size (m : AttributeMap) : Nat := m.entries.length

def isEmpty (m : AttributeMap) : Bool := m.entries.isEmpty

def get? (m : AttributeMap) (key : String) : Option Value := m.entries.get? key

def has (m : AttributeMap) (key : String) : Bool := m.entries.has key

/-- Sets an attribute: in its place if it is there, at the end otherwise. -/
def insert (m : AttributeMap) (key : String) (value : Value) : AttributeMap :=
  ⟨m.entries.put key value, Entries.nodup_put m.nodup key value⟩

/-- Drops an attribute; the others keep their order. -/
def erase (m : AttributeMap) (key : String) : AttributeMap :=
  ⟨m.entries.erase key, Entries.nodup_erase m.nodup key⟩

/-- Changes the value of an attribute that is there. -/
def assign (m : AttributeMap) (key : String) (value : Value) : AttributeMap :=
  if m.has key then m.insert key value else m

/-- A map of its own with copies of the values. -/
def copy (m : AttributeMap) : AttributeMap :=
  ⟨Value.copyEntries m.entries, by rw [Value.copyEntries_eq]; exact m.nodup⟩

theorem copy_eq (m : AttributeMap) : m.copy = m := ext (Value.copyEntries_eq m.entries)

def toValue (m : AttributeMap) : Value := .map m.entries

instance : ToValue AttributeMap := ⟨toValue⟩

/-- Equality of contents, whatever the order. -/
def equal (a b : AttributeMap) : Bool := a.toValue.equal b.toValue

def jsonText (m : AttributeMap) : String := m.toValue.jsonText

def serialized (m : AttributeMap) : String := m.toValue.serialized

end AttributeMap

end Markup
