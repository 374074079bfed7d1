import ClassNest.Json.Value

/-!
# The shape of a value

What a reader of a known format asks of a JSON value. A record with named fields may be written as an
object, by name, or as an array, by position. In an object the order is free, an unknown member is
skipped and a known one may stand only once; an array may be cut short, but not run on.
-/
namespace ClassNest.Json

/-! ## Plain values -/

def asText : Json → Option String
  | .text content => content
  | _ => none

def asBool : Json → Option Bool
  | .bool b => some b
  | _ => none

/-- A number written with digits alone. -/
def asNat : Json → Option Nat
  | .nat n => some n
  | _ => none

/-- A number written with digits alone, at most `limit`. -/
def asNatUpTo (limit : Nat) (v : Json) : Option Nat := do
  let n ← v.asNat
  if n ≤ limit then some n else none

def asUInt8 (v : Json) : Option UInt8 := (v.asNatUpTo 0xFF).map UInt8.ofNat
def asUInt16 (v : Json) : Option UInt16 := (v.asNatUpTo 0xFFFF).map UInt16.ofNat
def asUInt32 (v : Json) : Option UInt32 := (v.asNatUpTo 0xFFFFFFFF).map UInt32.ofNat

/-- An array all of whose items `f` accepts. -/
def asListOf (f : Json → Option α) : Json → Option (List α)
  | .array items => items.mapM f
  | _ => none

/-- `null`, or what `f` accepts. -/
def asOption (f : Json → Option α) : Json → Option (Option α)
  | .null => some none
  | v => (f v).map some

/-! ## Fields of a record -/

/-- What a record says about one of its fields. -/
inductive Slot where
  | given (v : Json)
  /-- an object without such a member -/
  | absent
  /-- an array that ends before this position -/
  | cut

/-- The values of the members called `name`. -/
def valuesOf (name : String) (members : List (Option String × Json)) : List Json :=
  (members.filter fun m => m.1 == some name).map (·.2)

/-- One field of an object: a repeated member is refused. -/
def memberSlot (members : List (Option String × Json)) (name : String) : Option Slot :=
  match valuesOf name members with
  | [] => some .absent
  | [v] => some (.given v)
  | _ => none

/-- The fields of an array, by position: an item too many is refused. -/
def itemSlots : List String → List Json → Option (List Slot)
  | [], [] => some []
  | [], _ :: _ => none
  | _ :: names, [] => (itemSlots names []).map (.cut :: ·)
  | _ :: names, v :: vs => (itemSlots names vs).map (.given v :: ·)

/-- The fields of a record that is written by name only, in the order of `names`. -/
def namedSlots (names : List String) : Json → Option (List Slot)
  | .object members =>
    if members.all (·.1.isSome) then names.mapM (memberSlot members) else none
  | _ => none

/-- The fields of a record, in the order of `names`. -/
def slots (names : List String) : Json → Option (List Slot)
  | .array items => itemSlots names items
  | v => v.namedSlots names

namespace Slot

/-- A field that must be given. -/
def required (f : Json → Option α) : Slot → Option α
  | .given v => f v
  | _ => none

/-- A field with a value of its own when it is left out. -/
def withDefault (d : α) (f : Json → Option α) : Slot → Option α
  | .given v => f v
  | _ => some d

/-- A field that may be `null` or left out of an object, but not cut off an array. -/
def nullable (f : Json → Option α) : Slot → Option (Option α)
  | .given v => v.asOption f
  | .absent => some none
  | .cut => none

end Slot

/-! ## Tagged values -/

/-- A value written as its tag alone, or as an object whose one member is called by the tag. -/
def asTagged : Json → Option (String × Option Json)
  | .text (some tag) => some (tag, none)
  | .object [(some tag, v)] => some (tag, some v)
  | _ => none

end ClassNest.Json
