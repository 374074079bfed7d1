import ClassNest.Forest.Change

/-!
# The history of a forest

What may be done with a forest, one operation after another, all of them in place. A node that cannot be added leaves
what it leaves, and the history goes on from there. Marks are kept, and any of them may be gone back to at any time, also
one that went stale because the arena has gone back to an earlier mark since.
-/
namespace ClassNest

/-- A node as it is handed in: without links. -/
def Node.IsBare (n : Node) : Prop := n.parent = none ∧ n.children = []

abbrev BareNode := { n : Node // n.IsBare }

namespace Forest

/-- What can be done with a forest. Marks are known by the order in which they were taken. -/
inductive Operation where
  | addRoot (n : BareNode)
  | attach (parent : NodeId) (n : BareNode)
  | checkpoint
  | rollback (mark : Nat)

/-- A mark that was taken. -/
structure TakenMark where
  mark : Mark
  /-- the arena has gone back to an earlier mark since -/
  stale : Bool := false
deriving DecidableEq

/-- A forest, and the marks that were taken of it. -/
structure History where
  forest : Forest := {}
  marks : List TakenMark := []
deriving DecidableEq

namespace History

/-- The history goes on from the forest as a change leaves it, whether or not it fails. -/
def change (h : History) (a : Change NodeId) : History := { h with forest := (h.forest.perform a).state }

/-- The marks taken after mark `i` go stale. -/
def staleFrom (i : Nat) (marks : List TakenMark) : List TakenMark :=
  marks.mapIdx fun j t => { t with stale := t.stale || decide (i < j) }

def step (h : History) : Operation → History
  | .addRoot n => h.change (.addRoot n.1)
  | .attach parent n => h.change (.attach parent n.1)
  | .checkpoint => { h with marks := h.marks ++ [⟨h.forest.mark, false⟩] }
  | .rollback i =>
    match h.marks[i]? with
    | some t => { forest := h.forest.rollback t.mark, marks := staleFrom i h.marks }
    | none => h

/-- Operations in order, from the empty forest on. -/
def run (ops : List Operation) : History := ops.foldl step {}

/-- The operation does not go back to a stale mark. -/
def allows (h : History) : Operation → Bool
  | .rollback i => (h.marks[i]?).all (!·.stale)
  | _ => true

/-- None of the operations, in order, goes back to a stale mark. -/
def allowsAll (h : History) : List Operation → Bool
  | [] => true
  | op :: ops => h.allows op && (h.step op).allowsAll ops

end History

/-! ## Growth alone -/

/-- A node that is added, at the top or below another one. -/
inductive Addition where
  | root (n : BareNode)
  | child (parent : NodeId) (n : BareNode)

def Addition.operation : Addition → Operation
  | .root n => .addRoot n
  | .child parent n => .attach parent n

/-- The forest of nodes that are added in order, as far as they can be. -/
def ofAdditions (adds : List Addition) : Forest := (History.run (adds.map (·.operation))).forest

end Forest
end ClassNest
