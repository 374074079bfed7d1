import ClassNest.ClassFile.Draft
import ClassNest.Nesting.Record

/-!
# Classes as scripts

A class as the steps that write it, each of them by names. What the steps say can be read off without writing
the class: the pool entries they ask for, the nested classes they declare, and the methods they add.
-/
namespace ClassNest

/-- A method as it is to be written. -/
structure MethodDraft where
  name : String
  descriptor : String
  access : Access := .empty
  handlers : List Handler := []
deriving DecidableEq, Inhabited

namespace Draft

/-- One step in writing a class. -/
inductive Step where
  | own (own : Bool)
  | access (flags : Access)
  | superClass (name : Option String)
  | interface (name : String)
  | inner (nested : String) (outer simple : Option String) (flags : Access)
  | enclosing (owner : String) (method : Option (String × String))
  | method (m : MethodDraft)
deriving DecidableEq

def take (d : Draft) : Step → Draft
  | .own own => d.setOwn own
  | .access flags => d.setAccess flags
  | .superClass name => d.setSuper name
  | .interface name => d.addInterface name
  | .inner nested outer simple flags => d.addInner nested outer simple flags
  | .enclosing owner method => d.setEnclosing owner method
  | .method m => d.addMethod m.name m.descriptor m.access m.handlers

/-- The class `name` as the steps write it. -/
def ofSteps (name : String) (steps : List Step) : Draft := steps.foldl take (.new name)

/-! ## What the steps say -/

namespace Step

/-- The pool entries that a step asks for, in order. -/
def requests : Step → List PoolEntry
  | .inner nested outer simple _ =>
    .className nested :: ((outer.map .className).toList ++ (simple.map .utf8).toList)
  | .method m => m.handlers.filterMap fun h => h.type.map .className
  | _ => []

/-- What a step declares of a nested class, in the class `self`. -/
def record? (self : String) : Step → Option NestedRecord
  | .inner nested outer simple flags =>
    some ⟨nested, simple, .classify outer.isSome simple.isSome, flags, outer.getD self⟩
  | _ => none

def method? : Step → Option MethodDraft
  | .method m => some m
  | _ => none

end Step

/-- The pool entries that the class and its steps ask for. -/
def requested (name : String) (steps : List Step) : List PoolEntry :=
  .className name :: steps.flatMap (·.requests)

/-- The nested classes that the steps declare. -/
def declared (name : String) (steps : List Step) : List NestedRecord := steps.filterMap (·.record? name)

def methods (steps : List Step) : List MethodDraft := steps.filterMap (·.method?)

end Draft
end ClassNest
