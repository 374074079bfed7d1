import ClassNest.Registry

/-!
# The registry with a table of positions

The units of a registry in a row, and beside it a table of the position of each name. A unit is found, and replaced,
by way of the table; nothing but the registrations themselves keeps the table in step with the row.
-/
namespace ClassNest

structure PlacedRegistry where
  units : List ClassUnit := []
  /-- the position of each name, latest name first -/
  positions : List (String × Nat) := []
deriving DecidableEq, Inhabited

namespace PlacedRegistry

/-- Registers a unit: at the position of its name, or at the end if the name is new. -/
def add (r : PlacedRegistry) (u : ClassUnit) : PlacedRegistry :=
  match r.positions.lookup u.name with
  | some position => { r with units := r.units.set position u }
  | none => { units := r.units ++ [u], positions := (u.name, r.units.length) :: r.positions }

/-- The registry of the given units, registered in order. -/
def ofUnits (us : List ClassUnit) : PlacedRegistry := us.foldl add {}

def unit? (r : PlacedRegistry) (name : String) : Option ClassUnit :=
  (r.positions.lookup name).bind fun position => r.units[position]?

end PlacedRegistry
end ClassNest
