import ClassNest.ClassFile

/-!
# The registry of classes

The units of one run: classes that were loaded and classes that could not be. A name is registered once;
registering it again replaces its unit in place, so that units stand in the order in which their names
first came up.
-/
namespace ClassNest

inductive ClassUnit where
  | loaded (c : ClassFile)
  | corrupted (name reason : String)
deriving DecidableEq, Inhabited

namespace ClassUnit

def name : ClassUnit → String
  | .loaded c => c.name
  | .corrupted name _ => name

/-- The class, if it was loaded. -/
def class? : ClassUnit → Option ClassFile
  | .loaded c => some c
  | .corrupted .. => none

/-- The class, if it was loaded and is one of those under reconstruction. -/
def own? (u : ClassUnit) : Option ClassFile := u.class?.filter (·.own)

end ClassUnit

/-- The units, in the order in which their names were first registered. -/
structure Registry where
  units : List ClassUnit := []
deriving DecidableEq, Inhabited

namespace Registry

/-- Registers a unit under its name; the latest unit of a name counts. -/
def add (r : Registry) (u : ClassUnit) : Registry :=
  if r.units.any (·.name == u.name) then
    ⟨r.units.map fun v => if v.name == u.name then u else v⟩
  else ⟨r.units ++ [u]⟩

/-- The registry of the given units, registered in order. -/
def ofUnits (us : List ClassUnit) : Registry := us.foldl add {}

def size (r : Registry) : Nat := r.units.length

def unit? (r : Registry) (name : String) : Option ClassUnit := r.units.find? (·.name == name)

/-- The loaded class of this name. -/
def class? (r : Registry) (name : String) : Option ClassFile := (r.unit? name).bind (·.class?)

/-- The loaded class of this name, if it is under reconstruction. -/
def own? (r : Registry) (name : String) : Option ClassFile := (r.unit? name).bind (·.own?)

def isOwn (r : Registry) (name : String) : Bool := (r.own? name).isSome

/-- The classes under reconstruction. -/
def ownClasses (r : Registry) : List ClassFile := r.units.filterMap (·.own?)

end Registry
end ClassNest
