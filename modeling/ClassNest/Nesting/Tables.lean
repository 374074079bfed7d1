import ClassNest.Nesting.Index

/-!
# The nesting index as tables

The index as it is looked up: who is nested in a class and who encloses it stand in tables of their own, filled side
by side, and the records are kept apart from their order. Nothing but the operations themselves keeps the tables in
step with each other.
-/
namespace ClassNest

/-- Lists of names, each list under a name. -/
structure NameTable where
  rows : List (String × List String) := []
deriving DecidableEq, Inhabited

namespace NameTable

/-- The names under `key`. -/
def row (t : NameTable) (key : String) : List String := (t.rows.lookup key).getD []

/-- Enters a name under `key` unless it is there. -/
def enter (t : NameTable) (key name : String) : NameTable :=
  ⟨(key, pushNew (t.row key) name) :: t.rows.filter (·.1 != key)⟩

end NameTable

structure NestingTables where
  /-- the first record of each nested class -/
  records : List (String × NestedRecord) := []
  /-- the nested classes with a record, in the order in which they came up -/
  order : List String := []
  /-- the nested classes of each enclosing class -/
  nested : NameTable := {}
  /-- the enclosing classes of each nested class -/
  enclosing : NameTable := {}
  /-- the nested classes that each class lists in its own attribute -/
  declared : NameTable := {}
deriving DecidableEq, Inhabited

namespace NestingTables

/-- The record of this nested class. -/
def record? (t : NestingTables) (inner : String) : Option NestedRecord := t.records.lookup inner

/-- Offers a record; the first one of a nested class is kept. -/
def merge (t : NestingTables) (r : NestedRecord) : NestingTables × Merge :=
  match t.record? r.inner with
  | some first => (t, if first.agrees r then .duplicate else .conflict)
  | none => ({ t with order := t.order ++ [r.inner], records := (r.inner, r) :: t.records }, .inserted)

def addEdge (t : NestingTables) (enclosing nested : String) : NestingTables :=
  { t with nested := t.nested.enter enclosing nested, enclosing := t.enclosing.enter nested enclosing }

def addDeclared (t : NestingTables) (owner inner : String) : NestingTables :=
  { t with declared := t.declared.enter owner inner }

/-- The records in the order in which their classes came up. -/
def recordsInOrder (t : NestingTables) : List NestedRecord := t.order.filterMap t.record?

def size (t : NestingTables) : Nat := t.records.length

/-- The classes nested in `enclosing`: those it lists itself, and then each of the others that is not there yet. -/
def childrenOf (t : NestingTables) (enclosing : String) : List String :=
  let nested := t.nested.row enclosing
  nested.foldl pushNew ((t.declared.row enclosing).filter nested.contains)

end NestingTables

/-! ## Histories -/

/-- What can be done with an index. -/
inductive NestingOperation where
  | merge (r : NestedRecord)
  | addEdge (enclosing nested : String)
  | addDeclared (owner inner : String)
deriving DecidableEq

def NestingIndex.step (ix : NestingIndex) : NestingOperation → NestingIndex
  | .merge r => (ix.merge r).1
  | .addEdge enclosing nested => ix.addEdge enclosing nested
  | .addDeclared owner inner => ix.addDeclared owner inner

def NestingTables.step (t : NestingTables) : NestingOperation → NestingTables
  | .merge r => (t.merge r).1
  | .addEdge enclosing nested => t.addEdge enclosing nested
  | .addDeclared owner inner => t.addDeclared owner inner

/-- Operations in order, from the empty index on. -/
def NestingIndex.run (ops : List NestingOperation) : NestingIndex := ops.foldl step {}

/-- The same in the tables. -/
def NestingTables.run (ops : List NestingOperation) : NestingTables := ops.foldl step {}

end ClassNest
