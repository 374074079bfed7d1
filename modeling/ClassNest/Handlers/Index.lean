import ClassNest.Handlers.Table

/-!
# Exception tables by method

The exception tables of one class, filed under the keys of its methods. Keys stand in the order in which
they first came up; of two methods with one key the later table counts.
-/
namespace ClassNest

structure HandlerIndex where
  owner : String
  tables : List (String × HandlerTable) := []
deriving DecidableEq, Inhabited

namespace HandlerIndex

/-- Files a table under a key, in the place of an earlier one if there is one. -/
def set (ix : HandlerIndex) (key : String) (table : HandlerTable) : HandlerIndex :=
  if ix.tables.any (·.1 == key) then
    { ix with tables := ix.tables.map fun t => if t.1 == key then (key, table) else t }
  else { ix with tables := ix.tables ++ [(key, table)] }

/-- Files the tables of the methods in order, up to the first that is malformed. -/
def addMethods (pool : Pool) (ix : HandlerIndex) : List Method → Except Fault HandlerIndex
  | [] => .ok ix
  | m :: ms =>
    match HandlerTable.decode pool m.catches with
    | .ok table => (ix.set m.key table).addMethods pool ms
    | .error fault => .error ⟨.methodHandlers m.key fault, some ix.owner⟩

def byKey? (ix : HandlerIndex) (key : String) : Option HandlerTable := ix.tables.lookup key

/-- The table of the method with this name and descriptor. -/
def table? (ix : HandlerIndex) (name descriptor : String) : Option HandlerTable :=
  ix.byKey? (methodKey name descriptor)

def size (ix : HandlerIndex) : Nat := ix.tables.length

end HandlerIndex

/-- The exception tables of all methods of a class. -/
def ClassFile.handlerIndex (c : ClassFile) : Except Fault HandlerIndex :=
  HandlerIndex.addMethods c.pool ⟨c.name, []⟩ c.methods

end ClassNest
