import ClassNest.Nesting.Record

/-!
# The nesting index

What all classes together say about nesting: the first record of each nested class, which class encloses
which, and in which order a class lists the classes it declares. Everything keeps the order in which it was
first said; saying it again changes nothing.
-/
namespace ClassNest

/-- What became of a record that was offered to the index. -/
inductive Merge where
  | inserted
  /-- the same was known already -/
  | duplicate
  /-- something else was known already, and stays -/
  | conflict
deriving DecidableEq

def Merge.text : Merge → String
  | .inserted => "inserted"
  | .duplicate => "duplicate"
  | .conflict => "conflict"

/-- Appends `a` unless it is there. -/
def pushNew [BEq α] (xs : List α) (a : α) : List α := if xs.contains a then xs else xs ++ [a]

structure NestingIndex where
  /-- the first record of each nested class -/
  records : List NestedRecord := []
  /-- pairs of an enclosing and a nested class -/
  edges : List (String × String) := []
  /-- pairs of a class and a nested class that it lists in its own attribute -/
  declared : List (String × String) := []
deriving DecidableEq, Inhabited

namespace NestingIndex

/-! ## Building -/

/-- The record of this nested class. -/
def record? (ix : NestingIndex) (inner : String) : Option NestedRecord :=
  ix.records.find? (·.inner == inner)

/-- Offers a record; the first one of a nested class is kept. -/
def merge (ix : NestingIndex) (r : NestedRecord) : NestingIndex × Merge :=
  match ix.record? r.inner with
  | none => ({ ix with records := ix.records ++ [r] }, .inserted)
  | some first => (ix, if first.agrees r then .duplicate else .conflict)

def addEdge (ix : NestingIndex) (enclosing nested : String) : NestingIndex :=
  { ix with edges := pushNew ix.edges (enclosing, nested) }

def addDeclared (ix : NestingIndex) (owner inner : String) : NestingIndex :=
  { ix with declared := pushNew ix.declared (owner, inner) }

/-! ## Queries -/

def size (ix : NestingIndex) : Nat := ix.records.length

/-- Some record declares this class as nested. -/
def isNested (ix : NestingIndex) (name : String) : Bool := (ix.record? name).isSome

/-- The classes nested in `enclosing`. -/
def nestedOf (ix : NestingIndex) (enclosing : String) : List String :=
  (ix.edges.filter (·.1 == enclosing)).map (·.2)

/-- The classes that enclose `nested`. -/
def enclosingOf (ix : NestingIndex) (nested : String) : List String :=
  (ix.edges.filter (·.2 == nested)).map (·.1)

/-- The classes that `owner` lists in its own attribute. -/
def declaredBy (ix : NestingIndex) (owner : String) : List String :=
  (ix.declared.filter (·.1 == owner)).map (·.2)

/-- The classes nested in `enclosing`: first those it lists itself, in its own order, then the others. -/
def childrenOf (ix : NestingIndex) (enclosing : String) : List String :=
  let nested := ix.nestedOf enclosing
  let listed := (ix.declaredBy enclosing).filter nested.contains
  listed ++ nested.filter fun name => !listed.contains name

end NestingIndex
end ClassNest
