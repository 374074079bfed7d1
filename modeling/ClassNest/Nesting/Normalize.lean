import ClassNest.Diagnostic
import ClassNest.Nesting.Index
import ClassNest.Registry
import ClassNest.Renaming.Cache

/-!
# From units to the nesting index

The records of all own classes, in the order of registration, go into one index. A record counts only if its
enclosing class is under reconstruction. Simple names pass through the renaming decisions on the way, one record
after the other, because a policy may hand out names by number. Contradictions between records are
reported and otherwise settled by the first record.
-/
namespace ClassNest

/-! ## Decoding units -/

/-- What a unit brings to the index: the records of an own class, or the failure of a unit that cannot
be read. Library classes bring nothing. -/
def ClassUnit.decode : ClassUnit → Option (Except Failure (ClassFile × List NestedRecord))
  | .loaded c =>
    if c.own then
      match c.nestedRecords with
      | .ok records => some (.ok (c, records))
      | .error fault => some (.error ⟨c.name, fault⟩)
    else none
  | .corrupted name reason => some (.error ⟨name, ⟨.corrupted reason, some name⟩⟩)

/-! ## Merging records -/

/-- The index so far, with the renaming decisions and the messages that came up. -/
structure Intake (σ : Type) where
  index : NestingIndex := {}
  naming : Naming σ
  log : Log := []
  failures : List Failure := []

/-- Local and anonymous classes name their enclosing class twice; a warning if the two differ. -/
def checkEnclosing (reg : Registry) (r : NestedRecord) : Log :=
  if r.kind == .member then []
  else
    match (reg.class? r.inner).bind (·.enclosingMethod) with
    | some m =>
      if m.owner == r.enclosing then []
      else warning ("Nested class " ++ r.inner ++ " declared in " ++ r.enclosing ++
        " but its EnclosingMethod names " ++ m.owner)
    | none => []

/-- The warning that goes with the outcome of a merge. -/
def mergeLog (reg : Registry) (r : NestedRecord) : Merge → Log
  | .inserted => checkEnclosing reg r
  | .duplicate => []
  | .conflict => warning ("Inconsistent inner class entries for " ++ r.inner ++ "!")

/-- The record with the simple name that is to be shown. -/
def NestedRecord.rename (p : Policy σ) (enabled : Bool) (n : Naming σ) (r : NestedRecord) :
    NestedRecord × Naming σ :=
  match r.simpleName with
  | none => (r, n)
  | some name =>
    let resolved := n.resolve p enabled r.inner name
    ({ r with simpleName := some resolved.1 }, resolved.2)

namespace Intake

/-- One record that the class `owner` declares. -/
def addRecord (p : Policy σ) (rename : Bool) (reg : Registry) (owner : String) (s : Intake σ)
    (r : NestedRecord) : Intake σ :=
  if reg.isOwn r.enclosing then
    let renamed := r.rename p rename s.naming
    let merged := s.index.merge renamed.1
    { s with
      index := (merged.1.addEdge r.enclosing r.inner).addDeclared owner r.inner
      naming := renamed.2
      log := s.log ++ mergeLog reg renamed.1 merged.2 }
  else
    { s with log := s.log ++ warning ("Enclosing class " ++ r.enclosing ++ " of nested class " ++ r.inner ++
        " is not part of the input set, entry ignored") }

/-- What one unit brings. -/
def addDecoded (p : Policy σ) (rename : Bool) (reg : Registry) (s : Intake σ) :
    Except Failure (ClassFile × List NestedRecord) → Intake σ
  | .ok (c, records) => records.foldl (addRecord p rename reg c.name) s
  | .error failure =>
    { s with log := s.log ++ errorLine failure.fault.text, failures := s.failures ++ [failure] }

/-- What the units bring, in their order. -/
def ofDecoded (p : Policy σ) (rename : Bool) (reg : Registry) (n : Naming σ)
    (decoded : List (Except Failure (ClassFile × List NestedRecord))) : Intake σ :=
  decoded.foldl (addDecoded p rename reg) { naming := n }

end Intake

/-- The index of everything that the units of the registry declare. -/
def Registry.normalize (reg : Registry) (p : Policy σ) (rename : Bool) (n : Naming σ) : Intake σ :=
  .ofDecoded p rename reg n (reg.units.filterMap (·.decode))

end ClassNest
