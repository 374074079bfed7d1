import ClassNest.Lambda.Site
import ClassNest.Nesting.Record

/-!
# Nodes

A node of the class forest stands for a class or for a lambda. Nodes are known by their position in the arena.
-/
namespace ClassNest

/-- The position of a node in the arena. -/
abbrev NodeId := Nat

/-- What a node stands for. -/
inductive NodeKind where
  | root | member | anonymous | «local» | lambda
deriving DecidableEq, Inhabited

namespace NodeKind

def text : NodeKind → String
  | .root => "root"
  | .member => "member"
  | .anonymous => "anonymous"
  | .local => "local"
  | .lambda => "lambda"

def ofNested : NestedKind → NodeKind
  | .member => .member
  | .anonymous => .anonymous
  | .local => .local

end NodeKind

structure Node where
  kind : NodeKind
  /-- the class; for a lambda the class that declares it -/
  qualifiedName : String
  access : Access := .empty
  simpleName : Option String := none
  parent : Option NodeId := none
  children : List NodeId := []
  /-- every class that declares this one as nested -/
  enclosingClasses : List String := []
  /-- the type that an anonymous class or a lambda implements or extends -/
  interfaceType : Option String := none
  lambda : Option LambdaInfo := none
  enclosingMethod : Option EnclosingMethod := none
deriving DecidableEq, Inhabited

namespace Node

/-- The node of a class at the top. -/
def ofClass (c : ClassFile) : Node where
  kind := .root
  qualifiedName := c.name
  access := c.access
  simpleName := some c.simpleName

/-- The node of a lambda. -/
def ofLambda (info : LambdaInfo) : Node where
  kind := .lambda
  qualifiedName := info.declaringClass
  interfaceType := some info.interfaceName
  lambda := some info

def isLambda (n : Node) : Bool := n.kind == .lambda

/-- The name under which the node is shown. -/
def displayName (n : Node) : String :=
  match n.lambda, n.simpleName with
  | some info, _ => info.contentMethod
  | none, some name => name
  | none, none => "<anonymous>"

end Node
end ClassNest
