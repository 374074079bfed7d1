import ClassNest.Access
import ClassNest.Pool

/-!
# Classes as they were loaded

What the reconstruction of nested classes reads of a class file: names, flags, the `InnerClasses` and
`EnclosingMethod` attributes, and the exception tables of its methods. Attributes still hold pool
indices; resolving them is where malformed input shows.
-/
namespace ClassNest

/-- The class from which every other one descends. -/
def rootClassName : String := "java/lang/Object"

/-- One entry of an `InnerClasses` attribute; a zero index stands for nothing. -/
structure InnerEntry where
  inner : UInt16
  outer : UInt16
  name : UInt16
  access : Access
deriving DecidableEq, Inhabited

/-- One entry of an exception table; the catch type zero catches everything. -/
structure CatchEntry where
  start : UInt32
  stop : UInt32
  handler : UInt32
  catchType : UInt16
deriving DecidableEq, Inhabited

/-- The class, and the method if there is one, in which a local or anonymous class stands. -/
structure EnclosingMethod where
  owner : String
  method : Option String
  descriptor : Option String
deriving DecidableEq, Inhabited

/-- The key under which a method is filed: name and descriptor, one blank between them. -/
def methodKey (name descriptor : String) : String := name ++ " " ++ descriptor

structure Method where
  name : String
  descriptor : String
  access : Access := .empty
  /-- the method carries a `Synthetic` attribute -/
  syntheticAttribute : Bool := false
  catches : List CatchEntry := []
deriving DecidableEq, Inhabited

namespace Method

def key (m : Method) : String := methodKey m.name m.descriptor

/-- The method was made by a compiler, by flag or by attribute. -/
def isSynthetic (m : Method) : Bool := m.syntheticAttribute || m.access.contains .syntheticBit

end Method

structure ClassFile where
  name : String
  access : Access := .empty
  superClass : Option String := none
  interfaces : List String := []
  /-- the class is one of those under reconstruction, not a library class -/
  own : Bool := false
  pool : Pool := {}
  innerClasses : List InnerEntry := []
  enclosingMethod : Option EnclosingMethod := none
  methods : List Method := []
deriving DecidableEq, Inhabited

/-- What follows the last slash, or the whole name if there is none. -/
def simpleNameOf (name : String) : String :=
  String.ofList (name.toList.reverse.takeWhile (· != '/')).reverse

namespace ClassFile

def simpleName (c : ClassFile) : String := simpleNameOf c.name

/-- The first method with this name and descriptor. -/
def method? (c : ClassFile) (name descriptor : String) : Option Method :=
  c.methods.find? fun m => m.name == name && m.descriptor == descriptor

/-- The classes one step above: the super class, then the interfaces. -/
def supertypes (c : ClassFile) : List String := c.superClass.toList ++ c.interfaces

end ClassFile
end ClassNest
