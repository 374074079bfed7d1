import ClassNest.Lambda.Site
import ClassNest.Registry

/-!
# Batches

The input of one run: classes, classes that could not be loaded, and call sites.
-/
namespace ClassNest

/-- A class that could not be loaded. -/
structure CorruptedClass where
  name : String
  reason : String
deriving DecidableEq, Inhabited

structure Batch where
  classes : List ClassFile := []
  corrupted : List CorruptedClass := []
  callSites : List CallSite := []
deriving DecidableEq, Inhabited

/-- The registry of a batch: the loaded classes in order, then the corrupted ones. -/
def Batch.registry (b : Batch) : Registry :=
  .ofUnits (b.classes.map .loaded ++ b.corrupted.map fun c => .corrupted c.name c.reason)

end ClassNest
