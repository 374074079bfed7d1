import ClassNest.Batch
import ClassNest.Growth
import ClassNest.Handlers.Index
import ClassNest.Lambda.Attach
import ClassNest.Nesting.Normalize
import ClassNest.Settings

/-!
# A run

Three passes over the units of a registry: their records make the nesting index, their exception tables are
decoded, and the trees grow one by one, each with the lambdas of its classes. A unit that fails in the first
two passes is left out of the third. A tree with a bad call site, and one that finds the arena full, is taken
back as a whole, and its nested classes, with their call sites, stay available to later trees.
-/
namespace ClassNest

/-- What a run produces. -/
structure Outcome where
  forest : Forest
  /-- the exception tables of the classes, in the order of registration -/
  handlers : List HandlerIndex
  failures : List Failure
  log : Log
deriving DecidableEq

namespace Outcome

/-- The exception tables of this class. -/
def handlersOf? (o : Outcome) (name : String) : Option HandlerIndex := o.handlers.find? (·.owner == name)

/-- This unit was left out. -/
def failed (o : Outcome) (name : String) : Bool := o.failures.any (·.unit == name)

end Outcome

/-! ## Exception tables -/

/-- The exception tables of the classes that have them, and the failures of the others. -/
def decodeHandlers : List ClassFile → List HandlerIndex × List Failure
  | [] => ([], [])
  | c :: cs =>
    let rest := decodeHandlers cs
    match c.handlerIndex with
    | .ok ix => (ix :: rest.1, rest.2)
    | .error fault => (rest.1, ⟨c.name, fault⟩ :: rest.2)

/-- The error messages of failures. -/
def failureLog (failures : List Failure) : Log := failures.flatMap fun f => errorLine f.fault.text

/-! ## Trees with their lambdas -/

/-- The call sites that a class declares. -/
def sitesOf (sites : List CallSite) (name : String) : List CallSite :=
  sites.filter (·.declaringClass == name)

/-- The classes that declare call sites, in the order of their first one. -/
def declaringClasses (sites : List CallSite) : List String :=
  (sites.map (·.declaringClass)).foldl pushNew []

/-- The trees so far, with the classes whose call sites are in use and the failures. -/
structure Planting where
  growth : Growth := {}
  /-- the classes whose call sites went to a tree -/
  claimed : List String := []
  failures : List Failure := []
  log : Log := []

/-- The names among `names` whose call sites are still free, each once. -/
def freeNames (sites : List CallSite) (claimed : List String) : List String → List String
  | [] => []
  | name :: names =>
    if claimed.contains name || (sitesOf sites name).isEmpty then freeNames sites claimed names
    else name :: freeNames sites (name :: claimed) names

/-- The names of the nodes at the given ids. -/
def Forest.namesOf (f : Forest) (ids : List NodeId) : List String :=
  ids.filterMap fun id => (f.node? id).map (·.qualifiedName)

/-- Attaches the call sites of the given classes, class by class, up to the first that fails. -/
def Forest.attachGroups (f : Forest) (reg : Registry) (sites : List CallSite) : List String → Step Forest Unit
  | [] => ⟨f, .ok (), []⟩
  | name :: names => (f.attachAll reg (sitesOf sites name)).andThen fun f _ => f.attachGroups reg sites names

namespace Planting

/-- Grows the tree of a class with the lambdas of its classes, and gives the names of those whose call sites it
takes. -/
def raise (g : Ground) (sites : List CallSite) (s : Planting) (c : ClassFile) : Step Growth (List String) :=
  (s.growth.grow g c).andThen fun grown root =>
    let names := freeNames sites s.claimed (grown.forest.namesOf (grown.forest.subtree root))
    let attached := grown.forest.attachGroups g.registry sites names
    ⟨{ grown with forest := attached.state }, attached.answer.map fun _ => names, attached.log⟩

/-- One tree with the lambdas of its classes. If it fails, what there is of it is taken back, and the failure names the
root where the fault does not name a unit. -/
def plant (g : Ground) (sites : List CallSite) (s : Planting) (c : ClassFile) : Planting :=
  let raised := s.raise g sites c
  match raised.answer with
  | .ok names =>
    { s with growth := raised.state, claimed := s.claimed ++ names, log := s.log ++ raised.log }
  | .error fault =>
    let fault := fault.inUnitOr c.name
    { s with
      growth := raised.state.rollback s.growth.mark
      failures := s.failures ++ [⟨c.name, fault⟩]
      log := s.log ++ raised.log ++ errorLine fault.text }

/-- All trees. -/
def plantAll (g : Ground) (sites : List CallSite) (s : Planting) : Planting :=
  g.rootClasses.foldl (plant g sites) s

end Planting

/-! ## Call sites of classes without a tree -/

/-- The finished forest, while the call sites that no tree claimed are looked at. -/
structure Draining where
  forest : Forest
  failures : List Failure
  log : Log

/-- The call sites of one class that no tree claimed. They say nothing new about a class that has failed, or
that was dropped together with a failed tree. -/
def Draining.drain (g : Ground) (sites : List CallSite) (abandoned : List String) (s : Draining)
    (name : String) : Draining :=
  if g.skipped.contains name || s.failures.any (·.unit == name) ||
      (abandoned.contains name && (s.forest.find? name).isNone) then s
  else
    let attached := s.forest.attachAll g.registry (sitesOf sites name)
    match attached.answer with
    | .ok _ => { s with forest := attached.state, log := s.log ++ attached.log }
    | .error fault =>
      { forest := attached.state
        failures := s.failures ++ [⟨name, fault⟩]
        log := s.log ++ attached.log ++ errorLine fault.text }

/-- The forest over the given ground with all call sites. -/
def Ground.plantForest (g : Ground) (sites : List CallSite) (failures : List Failure) : Draining :=
  let planted := Planting.plantAll g sites { failures := failures }
  let finished := planted.growth.finish g
  let names := (declaringClasses sites).filter fun name => !planted.claimed.contains name
  names.foldl (Draining.drain g sites planted.growth.abandoned)
    ⟨finished.1, planted.failures, planted.log ++ finished.2⟩

/-! ## The whole run -/

/-- What a unit brings to the index of a run: without nested classes only the corrupted units count. -/
def ClassUnit.decodeFor (nested : Bool) (u : ClassUnit) :
    Option (Except Failure (ClassFile × List NestedRecord)) :=
  match u with
  | .loaded _ => if nested then u.decode else none
  | .corrupted .. => u.decode

/-- The three passes, for settings that are known to be valid. -/
def Registry.reconstruct (reg : Registry) (settings : Settings) (p : Policy σ) (n : Naming σ)
    (sites : List CallSite) : Outcome × Naming σ :=
  let intake := Intake.ofDecoded p settings.rename reg n (reg.units.filterMap (·.decodeFor settings.nested))
  let candidates := reg.ownClasses.filter fun c => !intake.failures.any (·.unit == c.name)
  let decoded := decodeHandlers candidates
  let failures := intake.failures ++ decoded.2
  let ground : Ground := ⟨reg, intake.index, settings.nested, failures.map (·.unit)⟩
  let planted := ground.plantForest sites failures
  (⟨planted.forest, decoded.1, planted.failures, intake.log ++ failureLog decoded.2 ++ planted.log⟩,
    intake.naming)

/-- A run over a registry. Only invalid settings keep it from an outcome. -/
def Registry.run (reg : Registry) (settings : Settings) (p : Policy σ) (n : Naming σ)
    (sites : List CallSite) : Except Fault (Outcome × Naming σ) :=
  match settings.validate with
  | .ok () => .ok (reg.reconstruct settings p n sites)
  | .error fault => .error ⟨.settings fault, none⟩

/-- A run over a batch. -/
def Batch.run (b : Batch) (settings : Settings) (p : Policy σ) (n : Naming σ) :
    Except Fault (Outcome × Naming σ) :=
  b.registry.run settings p n b.callSites

end ClassNest
