import ClassNest.Forest.Node

/-!
# The class forest

An arena of nodes that only grows at its end, or shrinks back to a mark taken before. A node is attached
below a node that is already there, so that parents have smaller ids than their children; this bounds every
walk through the links by the size of the arena. What can keep a node from being added is said in
`ClassNest.Forest.Change`; here stands what the arena is with one more.

Class nodes, but not lambdas, can be found by name. A name that comes up again leads to the latest node.
-/
namespace ClassNest

structure Forest where
  nodes : List Node := []
  roots : List NodeId := []
  /-- the nested classes that no tree holds -/
  unattached : List String := []
  /-- the latest class node of each name, latest name first -/
  byName : List (String × NodeId) := []
deriving DecidableEq, Inhabited

/-- A point to which the arena can shrink back. -/
structure Mark where
  nodes : Nat
  roots : Nat
deriving DecidableEq, Inhabited

namespace Forest

def size (f : Forest) : Nat := f.nodes.length

/-! ## Growing -/

/-- Appends a node, whose id is the size so far. -/
def push (f : Forest) (n : Node) : Forest :=
  { f with
    nodes := f.nodes ++ [n]
    byName :=
      if n.isLambda then f.byName
      else (n.qualifiedName, f.size) :: f.byName.filter (·.1 != n.qualifiedName) }

/-- Appends a node as a new root. -/
def addRoot (f : Forest) (n : Node) : Forest :=
  { f.push n with roots := f.roots ++ [f.size] }

/-- Lists a node as the last child of `parent`. -/
def link (f : Forest) (parent id : NodeId) : Forest :=
  { f with nodes := f.nodes.modify parent fun p => { p with children := p.children ++ [id] } }

/-- Appends a node as the last child of `parent`. -/
def graft (f : Forest) (parent : NodeId) (n : Node) : Forest :=
  (f.push { n with parent := some parent }).link parent f.size

/-! ## Shrinking back -/

def mark (f : Forest) : Mark := ⟨f.size, f.roots.length⟩

/-- Drops what was added since the mark. A mark beyond both ends of the arena changes nothing. -/
def rollback (f : Forest) (m : Mark) : Forest :=
  if f.size ≤ m.nodes ∧ f.roots.length ≤ m.roots then f
  else
    { f with
      nodes := (f.nodes.take m.nodes).map fun n =>
        { n with children := n.children.filter (· < m.nodes) }
      roots := f.roots.take m.roots
      byName := f.byName.filter (·.2 < m.nodes) }

/-! ## Links -/

def node? (f : Forest) (id : NodeId) : Option Node := f.nodes[id]?

def parent? (f : Forest) (id : NodeId) : Option NodeId := (f.node? id).bind (·.parent)

def children (f : Forest) (id : NodeId) : List NodeId :=
  match f.node? id with
  | some n => n.children
  | none => []

def isLambda (f : Forest) (id : NodeId) : Bool :=
  match f.node? id with
  | some n => n.isLambda
  | none => false

/-- The class node of this name. -/
def find? (f : Forest) (name : String) : Option NodeId := f.byName.lookup name

/-- The child of `parent` that stands for the class of this name. -/
def findChild? (f : Forest) (parent : NodeId) (name : String) : Option NodeId :=
  (f.children parent).find? fun id =>
    match f.node? id with
    | some n => !n.isLambda && n.qualifiedName == name
    | none => false

/-! ## Walks

A step up leads to a smaller id, and a walk down meets each node at most once: the size of the arena is
enough for both. -/

/-- At most `steps` nodes above `id`, nearest first. -/
def ancestorsWithin (f : Forest) : Nat → NodeId → List NodeId
  | 0, _ => []
  | steps + 1, id =>
    match f.parent? id with
    | some p => p :: f.ancestorsWithin steps p
    | none => []

/-- The nodes above `id`, nearest first. -/
def ancestors (f : Forest) (id : NodeId) : List NodeId := f.ancestorsWithin f.size id

/-- The root of the tree that holds the class of this name. -/
def rootOf? (f : Forest) (name : String) : Option NodeId :=
  (f.find? name).map fun id => (f.ancestors id).getLast?.getD id

/-- The nearest class node at or above `id`; a lambda at the top is its own. -/
def owningClass (f : Forest) (id : NodeId) : NodeId :=
  let path := id :: f.ancestors id
  (path.find? fun i => !f.isLambda i).getD (path.getLastD id)

/-- At most `steps` nodes in the order of a stack that holds the nodes still to visit. -/
def subtreeWithin (f : Forest) : Nat → List NodeId → List NodeId
  | 0, _ => []
  | _, [] => []
  | steps + 1, id :: stack => id :: f.subtreeWithin steps (f.children id ++ stack)

/-- The nodes at and below `id`, each before its children and siblings in order. -/
def subtree (f : Forest) (id : NodeId) : List NodeId := f.subtreeWithin f.size [id]

end Forest
end ClassNest
