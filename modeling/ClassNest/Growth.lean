import ClassNest.Diagnostic
import ClassNest.Forest.Change
import ClassNest.Nesting.Index
import ClassNest.Registry

/-!
# Growing trees

From every class at the top a tree grows breadth first along the nesting index. All trees share one list of
visited names, so that a class which several others enclose is placed once, by the first that reaches it.
Going back to a mark also forgets what was visited since, and leaves those names to later trees.

The trees grow in place, and a tree that finds the arena full is left where it stands: going back is up to whoever
asked for the tree.
-/
namespace ClassNest

/-- What trees grow on. -/
structure Ground where
  registry : Registry
  index : NestingIndex
  /-- nested classes are placed below the classes that enclose them -/
  nested : Bool
  /-- the classes that must not be placed -/
  skipped : List String := []

/-- The trees so far. -/
structure Growth where
  forest : Forest := {}
  /-- the names visited, first visited first -/
  visits : List String := []
  /-- the names that were visited and then forgotten -/
  abandoned : List String := []
deriving DecidableEq, Inhabited

/-- A point to which the growth can go back. -/
structure GrowthMark where
  forest : Mark
  visits : Nat
deriving DecidableEq, Inhabited

/-! ## Nodes of nested classes -/

/-- The type that an anonymous class implements or extends: its first interface, or else its super class. -/
def ClassFile.anonymousType (c : ClassFile) : Option String :=
  match c.interfaces with
  | [] => c.superClass
  | first :: _ => some first

/-- The warning about an anonymous class with several interfaces. -/
def ClassFile.anonymousLog (c : ClassFile) : Log :=
  match c.interfaces with
  | _ :: _ :: _ => warning ("Inconsistent anonymous class definition: " ++ c.name)
  | _ => []

namespace Ground

/-- The node of a nested class. An anonymous class is never static, and a local class keeps only the flags
that it may carry; a member is taken as declared. -/
def materialize (g : Ground) (r : NestedRecord) (c : ClassFile) : Node :=
  let base : Node :=
    { kind := .ofNested r.kind
      qualifiedName := c.name
      access := r.access
      simpleName := r.simpleName
      enclosingClasses := g.index.enclosingOf r.inner }
  match r.kind with
  | .anonymous =>
    { base with
      access := r.access.diff .staticBit
      interfaceType := c.anonymousType
      enclosingMethod := c.enclosingMethod }
  | .local =>
    { base with access := r.access.inter .localMask, enclosingMethod := c.enclosingMethod }
  | .member => base

/-- The warnings about the node of a nested class. -/
def materializeLog (r : NestedRecord) (c : ClassFile) : Log :=
  if r.kind == .anonymous then c.anonymousLog else []

/-- The classes that head a tree: those under reconstruction that need not be skipped and that no record
declares as nested. -/
def rootClasses (g : Ground) : List ClassFile :=
  g.registry.ownClasses.filter fun c =>
    !g.skipped.contains c.name && (!g.nested || !g.index.isNested c.name)

end Ground

/-! ## One tree -/

namespace Growth

/-- A change of the forest alone. -/
def perform {α : Type} (s : Growth) (a : Forest.Change α) : Step Growth α :=
  let changed := s.forest.perform a
  ⟨{ s with forest := changed.state }, changed.answer, changed.log⟩

/-- The visit of one nested class below `parent`, with the node if one is made. A name that was visited before is
passed over. -/
def visit (g : Ground) (parent : NodeId) (s : Growth) (name : String) : Step Growth (Option (NodeId × String)) :=
  if s.visits.contains name then ⟨s, .ok none, []⟩
  else
    let s := { s with visits := s.visits ++ [name] }
    if g.skipped.contains name then ⟨s, .ok none, []⟩
    else
      match g.index.record? name, g.registry.own? name with
      | some r, some c =>
        Step.andThen ⟨s, .ok (g.materialize r c), Ground.materializeLog r c⟩ fun s n =>
          (s.perform (.attach parent n)).map fun id => some (id, name)
      | _, _ => ⟨s, .ok none, warning ("Nested class " ++ name ++ " missing!")⟩

/-- The visits of several nested classes below `parent`, with the nodes they make in order. -/
def visitAll (g : Ground) (parent : NodeId) (s : Growth) : List String → Step Growth (List (NodeId × String))
  | [] => ⟨s, .ok [], []⟩
  | name :: names => (s.visit g parent name).andThen fun s made =>
      (s.visitAll g parent names).map (made.toList ++ ·)

/-- Works through the queue, at most `rounds` nodes of it. -/
def spread (g : Ground) : Nat → Growth → List (NodeId × String) → Step Growth Unit
  | 0, s, _ => ⟨s, .ok (), []⟩
  | _, s, [] => ⟨s, .ok (), []⟩
  | rounds + 1, s, (id, name) :: queue =>
    (s.visitAll g id (g.index.childrenOf name)).andThen fun s made => s.spread g rounds (queue ++ made)

/-- Grows the tree of a class at the top, and gives its root. Besides it only classes with a record get
into the queue, each of them once, so that the number of records bounds the rounds. -/
def grow (g : Ground) (s : Growth) (c : ClassFile) : Step Growth NodeId :=
  (s.perform (.addRoot (.ofClass c))).andThen fun s root =>
    let s := { s with visits := pushNew s.visits c.name }
    if g.nested then (s.spread g (g.index.size + 1) [(root, c.name)]).map fun _ => root
    else ⟨s, .ok root, []⟩

/-- The trees as they are left when one more has been tried, and the messages. -/
def addTree (g : Ground) (s : Growth) (c : ClassFile) : Growth × Log := ((s.grow g c).state, (s.grow g c).log)

/-! ## Going back -/

def mark (s : Growth) : GrowthMark := ⟨s.forest.mark, s.visits.length⟩

/-- The names visited since the mark. -/
def since (s : Growth) (m : GrowthMark) : List String := s.visits.drop m.visits

/-- Drops what grew since the mark and forgets what was visited since. -/
def rollback (s : Growth) (m : GrowthMark) : Growth where
  forest := s.forest.rollback m.forest
  visits := s.visits.take m.visits
  abandoned := s.abandoned ++ s.since m

/-! ## The finished forest -/

/-- The nested classes that no tree holds. -/
def unattached (g : Ground) (s : Growth) : List String :=
  (g.index.records.map (·.inner)).filter fun name => !s.visits.contains name

/-- The warning about a nested class that no tree holds. -/
def unattachedLog (s : Growth) (name : String) : Log :=
  if s.abandoned.contains name then
    warning ("Nested class " ++ name ++ " dropped with its failed top-level class")
  else warning ("Nested class " ++ name ++ " is not reachable from any top-level class")

/-- The forest with the classes that were left out, and the warnings about them. -/
def finish (g : Ground) (s : Growth) : Forest × Log :=
  let missing := s.unattached g
  ({ s.forest with unattached := missing }, missing.flatMap s.unattachedLog)

/-- Grows a tree, or leaves a message and takes back what there is of it. -/
def keepTree (g : Ground) (s : Growth) (c : ClassFile) : Growth × Log :=
  let grown := s.grow g c
  match grown.answer with
  | .ok _ => (grown.state, grown.log)
  | .error fault => (grown.state.rollback s.mark, grown.log ++ errorLine (fault.inUnit c.name).text)

/-- Grows the trees of all given classes. -/
def keepTrees (g : Ground) : Growth → List ClassFile → Growth × Log
  | s, [] => (s, [])
  | s, c :: cs =>
    let one := s.keepTree g c
    let rest := one.1.keepTrees g cs
    (rest.1, one.2 ++ rest.2)

/-- Grows all trees and finishes. -/
def build (g : Ground) (s : Growth) : Forest × Log :=
  let grown := s.keepTrees g g.rootClasses
  let finished := grown.1.finish g
  (finished.1, grown.2 ++ finished.2)

end Growth
end ClassNest
