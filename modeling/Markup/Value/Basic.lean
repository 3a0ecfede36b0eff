import Markup.Entries
import Markup.Number.Basic

/-!
# Values

The loosely typed data that templates hand over for attributes, classes and styles.

An object is opaque: it has an identity and a projection, the plain value it stands for.
`Value.WellFormed` says that no map of a value repeats a key.

- `Value.isTruthy`: absent, `false`, zero, not-a-number and the empty text are falsy.
- `Value.equal`: equality of contents. Maps are equal whatever their order, objects only to
  themselves, and numbers compare as numbers.
- `Value.copy`: the value with lists and maps of its own and the objects shared.
- `Value.normal`: the value with objects projected and numbers as they survive a text.
- `Value.depth`, `Value.numbers`, `Value.holdsText`: what a value holds.
-/

namespace Markup

inductive Value where
  | null
  | bool (b : Bool)
  | number (n : Number)
  | text (s : String)
  | list (items : List Value)
  | map (entries : List (String × Value))
  /-- an opaque value, told from others by its identity -/
  | object (id : Nat) (projection : Value)

namespace Value

instance : Inhabited Value := ⟨null⟩

def isNull : Value → Bool
  | null => true
  | _ => false

/-- The text of a text value. -/
def text? : Value → Option String
  | text s => some s
  | _ => none

def isTruthy : Value → Bool
  | null => false
  | bool b => b
  | number n => !n.isZero && !n.isNaN
  | text s => s ≠ ""
  | list _ | map _ | object _ _ => true

/-! ### Equality -/

mutual

/-- Equality of contents. -/
def equal : Value → Value → Bool
  | null, null => true
  | bool a, bool b => a == b
  | number a, number b => a.equal b
  | text a, text b => a == b
  | list as, list bs => equalItems as bs
  | map as, map bs => as.length == bs.length && agrees as bs
  | object a _, object b _ => a == b
  | _, _ => false

def equalItems : List Value → List Value → Bool
  | [], [] => true
  | a :: as, b :: bs => equal a b && equalItems as bs
  | _, _ => false

/-- Every key of the first map is in the second, with an equal value. -/
def agrees : List (String × Value) → List (String × Value) → Bool
  | [], _ => true
  | (k, a) :: as, bs =>
    (match Entries.get? bs k with
      | some b => equal a b
      | none => false) && agrees as bs

end

/-! ### Copies -/

mutual

/-- A copy of the value: its lists and maps are made again, its objects are shared. -/
def copy : Value → Value
  | null => null
  | bool b => bool b
  | number n => number n
  | text s => text s
  | list items => list (copyItems items)
  | map entries => map (copyEntries entries)
  | object id v => object id v

def copyItems : List Value → List Value
  | [] => []
  | v :: vs => copy v :: copyItems vs

def copyEntries : List (String × Value) → List (String × Value)
  | [] => []
  | (k, v) :: es => (k, copy v) :: copyEntries es

end

mutual

/-- A copy cannot be told from the value, not even by the identity of its objects. -/
theorem copy_eq : (v : Value) → v.copy = v
  | null | bool _ | number _ | text _ => rfl
  | list items => congrArg list (copyItems_eq items)
  | map entries => congrArg map (copyEntries_eq entries)
  | object _ _ => rfl

theorem copyItems_eq : (vs : List Value) → copyItems vs = vs
  | [] => rfl
  | v :: vs => by rw [copyItems, copy_eq v, copyItems_eq vs]

theorem copyEntries_eq : (es : List (String × Value)) → copyEntries es = es
  | [] => rfl
  | (k, v) :: es => by rw [copyEntries, copy_eq v, copyEntries_eq es]

end

/-! ### Well-formed values -/

mutual

/-- No map of the value repeats a key. -/
def WellFormed : Value → Prop
  | null | bool _ | number _ | text _ => True
  | list items => WellFormedItems items
  | map entries => (Entries.keys entries).Nodup ∧ WellFormedEntries entries
  | object _ v => WellFormed v

def WellFormedItems : List Value → Prop
  | [] => True
  | v :: vs => WellFormed v ∧ WellFormedItems vs

def WellFormedEntries : List (String × Value) → Prop
  | [] => True
  | (_, v) :: es => WellFormed v ∧ WellFormedEntries es

end

/-! ### Normal form -/

/-- A number as it survives a text: no sign on zero, and nothing in place of a number that is
not finite. -/
def ofPlain : Number → Value
  | .finite negative m => if m.isZero then number .zero else number (.finite negative m)
  | _ => null

mutual

/-- Objects replaced by their projections and numbers as they survive a text. -/
def normal : Value → Value
  | null => null
  | bool b => bool b
  | number n => ofPlain n
  | text s => text s
  | list items => list (normalItems items)
  | map entries => map (normalEntries entries)
  | object _ v => normal v

def normalItems : List Value → List Value
  | [] => []
  | v :: vs => normal v :: normalItems vs

def normalEntries : List (String × Value) → List (String × Value)
  | [] => []
  | (k, v) :: es => (k, normal v) :: normalEntries es

end

/-! ### Depth -/

mutual

/-- How many lists and maps stand inside one another, objects through their projections. -/
def depth : Value → Nat
  | null | bool _ | number _ | text _ => 0
  | list items => depthItems items + 1
  | map entries => depthEntries entries + 1
  | object _ v => depth v

def depthItems : List Value → Nat
  | [] => 0
  | v :: vs => max (depth v) (depthItems vs)

def depthEntries : List (String × Value) → Nat
  | [] => 0
  | (_, v) :: es => max (depth v) (depthEntries es)

end

/-! ### Contents -/

mutual

/-- The numbers of a value, those of projections included. -/
def numbers : Value → List Number
  | null | bool _ | text _ => []
  | number n => [n]
  | list items => numbersOfItems items
  | map entries => numbersOfEntries entries
  | object _ v => numbers v

def numbersOfItems : List Value → List Number
  | [] => []
  | v :: vs => numbers v ++ numbersOfItems vs

def numbersOfEntries : List (String × Value) → List Number
  | [] => []
  | (_, v) :: es => numbers v ++ numbersOfEntries es

end

mutual

/-- Whether a value holds a text or a key, at any depth and in projections too. -/
def holdsText : Value → Bool
  | null | bool _ | number _ => false
  | text _ => true
  | list items => itemsHoldText items
  | map entries => !entries.isEmpty
  | object _ v => holdsText v

def itemsHoldText : List Value → Bool
  | [] => false
  | v :: vs => holdsText v || itemsHoldText vs

end

end Value

/-! ### Making values -/

/-- Types whose members are values for templates. -/
class ToValue (α : Type) where
  toValue : α → Value

export ToValue (toValue)

namespace ToValue

instance : ToValue Value := ⟨id⟩
instance : ToValue Bool := ⟨.bool⟩
instance : ToValue Number := ⟨.number⟩
instance : ToValue Int := ⟨fun n => .number (.ofInt n)⟩
instance : ToValue String := ⟨.text⟩
instance {α : Type} [ToValue α] : ToValue (List α) := ⟨fun xs => .list (xs.map toValue)⟩
instance {α : Type} [ToValue α] : ToValue (Option α) := ⟨fun x => (x.map toValue).getD .null⟩

end ToValue

end Markup
