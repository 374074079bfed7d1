import ClassNest.Handlers.Table
import ClassNest.Registry

/-!
# Subtypes

A class is a subtype of itself, of the root class, and of everything that can be reached from it by steps from
a loaded class to its super class or an interface. Hierarchies may be cyclic, and classes that were not loaded
lead nowhere. Answers that needed a search are remembered by pair.
-/
namespace ClassNest

/-- More than the steps of any search: a class is expanded once and then adds its supertypes. -/
def Registry.searchBound (reg : Registry) : Nat :=
  ((reg.units.filterMap (·.class?)).flatMap (·.supertypes)).length + 1

/-- Searches for `goal` from the pending classes, the last of which comes next. -/
def Registry.reaches (reg : Registry) (goal : String) : Nat → (seen pending : List String) → Bool
  | 0, _, _ => false
  | _, _, [] => false
  | steps + 1, seen, current :: pending =>
    if current == goal then true
    else if seen.contains current then reg.reaches goal steps seen pending
    else
      let above :=
        match reg.class? current with
        | some c => c.supertypes.reverse
        | none => []
      reg.reaches goal steps (current :: seen) (above ++ pending)

/-- The answers of earlier searches. -/
structure SubtypeMemo where
  answers : List ((String × String) × Bool) := []
deriving Inhabited

def SubtypeMemo.size (m : SubtypeMemo) : Nat := m.answers.length

/-- Whether `sub` is a subtype of `sup`, and the answers known afterwards. -/
def Registry.isSubtype (reg : Registry) (m : SubtypeMemo) (sub sup : String) : Bool × SubtypeMemo :=
  if sub == sup || sup == rootClassName then (true, m)
  else
    match m.answers.lookup (sub, sup) with
    | some answer => (answer, m)
    | none =>
      let answer := reg.reaches sup reg.searchBound [] [sub]
      (answer, ⟨m.answers ++ [((sub, sup), answer)]⟩)

/-! ## Finding the handler -/

/-- Whether the handler runs for what is thrown at a line. One that catches everything counts only with
`includeAny`; one with a type needs a thrown type that is a subtype of it. -/
def Handler.accepts (reg : Registry) (h : Handler) (line : UInt32) (thrown : Option String)
    (includeAny : Bool) (m : SubtypeMemo) : Bool × SubtypeMemo :=
  if h.covers line then
    match h.type, thrown with
    | none, _ => (includeAny, m)
    | some caught, some thrown => reg.isSubtype m thrown caught
    | some _, none => (false, m)
  else (false, m)

/-- The first handler that runs for what is thrown at a line, and the answers known afterwards. -/
def HandlerTable.lookup (reg : Registry) (line : UInt32) (thrown : Option String) (includeAny : Bool) :
    HandlerTable → SubtypeMemo → Option Handler × SubtypeMemo
  | [], m => (none, m)
  | h :: hs, m =>
    let answer := h.accepts reg line thrown includeAny m
    if answer.1 then (some h, answer.2) else lookup reg line thrown includeAny hs answer.2

end ClassNest
