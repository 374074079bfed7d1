import ClassNest.Pool

/-!
# Requests to a constant pool

A pool that is changed in place, request after request. A request that fails on the way leaves behind what it has
changed by then, so that its result is the pool as it is left, in either case.
-/
namespace ClassNest

/-- What can be asked of a pool: to append an entry, or for the index of a class name or a text. -/
inductive PoolRequest where
  | push (e : PoolEntry)
  | className (name : String)
  | utf8 (text : String)
deriving DecidableEq

namespace Pool

/-- A change of a pool in place, which may fail. -/
abbrev Change := EStateM PoolFault Pool

/-- Makes an index, and then appends the entry. -/
def append (e : PoolEntry) : Change UInt16 := do
  let index ← liftExcept (indexAt (← get).size)
  modify fun p => ⟨p.entries ++ [e]⟩
  return index

/-- Makes the index of the first entry equal to `e`, which is appended if there is none. -/
def findOrAppend (e : PoolEntry) : Change UInt16 := do
  match (← get).entries.findIdx? (· == e) with
  | some position => liftExcept (indexAt position)
  | none => append e

end Pool

namespace PoolRequest

/-- The entry that is asked for. -/
def entry : PoolRequest → PoolEntry
  | .push e => e
  | .className name => .className name
  | .utf8 text => .utf8 text

/-- The request in place. -/
def perform : PoolRequest → Pool.Change UInt16
  | .push e => Pool.append e
  | .className name => Pool.findOrAppend (.className name)
  | .utf8 text => Pool.findOrAppend (.utf8 text)

/-- The request as a function: a new pool and the index, or a fault. -/
def answer (p : Pool) : PoolRequest → Except PoolFault (Pool × UInt16)
  | .push e => p.push e
  | .className name => p.internClass name
  | .utf8 text => p.internUtf8 text

end PoolRequest

namespace Pool

/-- Serves a request: its index or fault, with the pool as it is left. -/
def serve (p : Pool) (r : PoolRequest) : EStateM.Result PoolFault Pool UInt16 := r.perform.run p

/-- The pool as it is left by requests in order. -/
def after (p : Pool) (rs : List PoolRequest) : Pool :=
  rs.foldl (fun q r => match q.serve r with | .ok _ left => left | .error _ left => left) p

end Pool
end ClassNest
