/-!
# Access flags

The sixteen access bits of a class, a method or an `InnerClasses` entry. Every word of sixteen bits
is a set of flags, named or not; the operations are the set operations on words, and only the
ten flags that matter for the nesting of classes have names.
-/
namespace ClassNest

/-- A set of access flags, as the word in which a class file stores it. -/
structure Access where
  bits : UInt16
deriving DecidableEq, Inhabited

namespace Access

/-! ## The named flags -/

def empty : Access := ⟨0⟩
def publicBit : Access := ⟨0x0001⟩
def privateBit : Access := ⟨0x0002⟩
def protectedBit : Access := ⟨0x0004⟩
def staticBit : Access := ⟨0x0008⟩
def finalBit : Access := ⟨0x0010⟩
def interfaceBit : Access := ⟨0x0200⟩
def abstractBit : Access := ⟨0x0400⟩
def syntheticBit : Access := ⟨0x1000⟩
def annotationBit : Access := ⟨0x2000⟩
def enumBit : Access := ⟨0x4000⟩

/-- The flags that a local class may carry. -/
def localMask : Access := ⟨0x0410⟩

/-- The named flags, in the order in which they are written. -/
def named : List (Access × String) :=
  [(publicBit, "public"), (privateBit, "private"), (protectedBit, "protected"), (staticBit, "static"),
   (finalBit, "final"), (interfaceBit, "interface"), (abstractBit, "abstract"),
   (syntheticBit, "synthetic"), (annotationBit, "annotation"), (enumBit, "enum")]

/-! ## Set operations -/

def union (a b : Access) : Access := ⟨a.bits ||| b.bits⟩
def inter (a b : Access) : Access := ⟨a.bits &&& b.bits⟩
def diff (a b : Access) : Access := ⟨a.bits &&& ~~~b.bits⟩

/-- Every flag of `b` is set in `a`. -/
def contains (a b : Access) : Bool := a.inter b == b

/-- No flag outside `b` is set in `a`. -/
def subsetOf (a b : Access) : Bool := a.diff b == empty

def isEmpty (a : Access) : Bool := a == empty

/-- The names of the flags that are set, one blank between two of them. -/
def text (a : Access) : String :=
  " ".intercalate ((named.filter fun f => a.contains f.1).map (·.2))

end Access
end ClassNest
