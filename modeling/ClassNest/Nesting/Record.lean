import ClassNest.Fault

/-!
# Nested-type records

One record says of one nested class by whom, under which simple name and with which access it is declared. The
records of a class are its `InnerClasses` entries with the pool indices resolved.
-/
namespace ClassNest

/-- How a nested class is declared. -/
inductive NestedKind where
  | member | anonymous | «local»
deriving DecidableEq, Inhabited

namespace NestedKind

/-- A member if an outer class is named; otherwise a local class has a name and an anonymous one has none. -/
def classify (hasOuter hasSimpleName : Bool) : NestedKind :=
  if hasOuter then .member else if hasSimpleName then .local else .anonymous

def text : NestedKind → String
  | .member => "member"
  | .anonymous => "anonymous"
  | .local => "local"

/-- The kind with the given name. -/
def ofText? (s : String) : Option NestedKind := [member, anonymous, «local»].find? (·.text == s)

end NestedKind

/-- The declaration of one nested class. -/
structure NestedRecord where
  inner : String
  /-- absent for anonymous classes -/
  simpleName : Option String
  kind : NestedKind
  access : Access
  enclosing : String
deriving DecidableEq, Inhabited

namespace NestedRecord

/-- Two records agree when nothing differs but who encloses whom. -/
def agrees (r s : NestedRecord) : Bool :=
  r.simpleName == s.simpleName && r.kind == s.kind && r.access == s.access

/-- The class is said to be nested in itself. -/
def isSelfReference (r : NestedRecord) : Bool := r.inner == r.enclosing

end NestedRecord

/-! ## Decoding -/

/-- The record of one `InnerClasses` entry of the class `self`. -/
def InnerEntry.decode (pool : Pool) (self : String) (e : InnerEntry) : Except PoolFault NestedRecord := do
  let inner ← pool.className e.inner
  let outer ← Pool.resolve? pool.className e.outer
  let simple ← Pool.resolve? pool.utf8 e.name
  return ⟨inner, simple, .classify outer.isSome simple.isSome, e.access, outer.getD self⟩

namespace ClassFile

/-- The records of the entries from `position` on, self references left out. -/
def decodeFrom (c : ClassFile) : Nat → List InnerEntry → Except Fault (List NestedRecord)
  | _, [] => .ok []
  | position, e :: es =>
    match e.decode c.pool c.name with
    | .error fault => .error ⟨.innerEntry position fault, some c.name⟩
    | .ok record => do
      let records ← c.decodeFrom (position + 1) es
      return if record.isSelfReference then records else record :: records

/-- The records that a class declares, in its own order and without self references. -/
def nestedRecords (c : ClassFile) : Except Fault (List NestedRecord) := c.decodeFrom 0 c.innerClasses

end ClassFile
end ClassNest
