import ClassNest.Fault
import ClassNest.Handlers.Handler

/-!
# Writing a class

A class under construction. Names are given as texts; the draft enters them into the pool of the class and
keeps their indices. The first fault of the pool is remembered, and finishing the class reports it.
-/
namespace ClassNest

/-- A class under construction. -/
structure Draft where
  result : ClassFile
  fault : Option PoolFault := none
deriving Inhabited

namespace Draft

/-- Enters an entry into the pool; the index is zero when there is no room. -/
def enter (d : Draft) (e : PoolEntry) : Draft × UInt16 :=
  match d.result.pool.intern e with
  | .ok (pool, index) => ({ d with result := { d.result with pool := pool } }, index)
  | .error fault => ({ d with fault := some (d.fault.getD fault) }, 0)

/-- Enters an entry that may be missing; zero stands for none. -/
def enter? (d : Draft) : Option PoolEntry → Draft × UInt16
  | none => (d, 0)
  | some e => d.enter e

/-- A public class of its own, under the root class. -/
def new (name : String) : Draft :=
  (Draft.enter ⟨{ name := name, access := .publicBit, superClass := some rootClassName, own := true }, none⟩
    (.className name)).1

def setOwn (d : Draft) (own : Bool) : Draft := { d with result := { d.result with own := own } }

def setAccess (d : Draft) (access : Access) : Draft :=
  { d with result := { d.result with access := access } }

def setSuper (d : Draft) (name : Option String) : Draft :=
  { d with result := { d.result with superClass := name } }

def addInterface (d : Draft) (name : String) : Draft :=
  { d with result := { d.result with interfaces := d.result.interfaces ++ [name] } }

/-- Adds an `InnerClasses` entry by its indices. -/
def addInnerEntry (d : Draft) (e : InnerEntry) : Draft :=
  { d with result := { d.result with innerClasses := d.result.innerClasses ++ [e] } }

/-- Adds an `InnerClasses` entry by its names. -/
def addInner (d : Draft) (inner : String) (outer simple : Option String) (access : Access) : Draft :=
  let i := d.enter (.className inner)
  let o := i.1.enter? (outer.map .className)
  let s := o.1.enter? (simple.map .utf8)
  s.1.addInnerEntry ⟨i.2, o.2, s.2, access⟩

/-- Sets the enclosing class and, if there is one, the method by name and descriptor. -/
def setEnclosing (d : Draft) (owner : String) (method : Option (String × String)) : Draft :=
  { d with result :=
      { d.result with enclosingMethod := some ⟨owner, method.map (·.1), method.map (·.2)⟩ } }

/-- Enters the catch types of handlers and gives their table entries. -/
def enterHandlers (d : Draft) : List Handler → Draft × List CatchEntry
  | [] => (d, [])
  | h :: hs =>
    let t := d.enter? (h.type.map .className)
    let r := t.1.enterHandlers hs
    (r.1, ⟨h.start, h.stop, h.handler, t.2⟩ :: r.2)

/-- Adds a method with its handlers. -/
def addMethod (d : Draft) (name descriptor : String) (access : Access) (handlers : List Handler) : Draft :=
  let r := d.enterHandlers handlers
  let m : Method := { name := name, descriptor := descriptor, access := access, catches := r.2 }
  { r.1 with result := { r.1.result with methods := r.1.result.methods ++ [m] } }

/-- The finished class. -/
def finish (d : Draft) : Except Fault ClassFile :=
  match d.fault with
  | some fault => .error ⟨.pool fault, some d.result.name⟩
  | none => .ok d.result

end Draft
end ClassNest
