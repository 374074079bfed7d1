import ClassNest.Fault
import ClassNest.Handlers.Handler

/-!
# Exception tables

The handlers of one method, in the order in which the class file declares them. The order decides: the first
handler that covers a line and accepts what is thrown there is the one that runs.
-/
namespace ClassNest

/-- The handlers of one method. -/
abbrev HandlerTable := List Handler

/-- The handler of one entry. -/
def CatchEntry.decode (pool : Pool) (position : Nat) (e : CatchEntry) : Except HandlerFault Handler :=
  if e.stop < e.start then .error (.range position e.start e.stop)
  else
    match Pool.resolve? pool.className e.catchType with
    | .ok type => .ok ⟨e.start, e.stop, e.handler, type⟩
    | .error fault => .error (.type position fault)

namespace HandlerTable

/-- The handlers of the entries from `position` on. -/
def decodeFrom (pool : Pool) : Nat → List CatchEntry → Except HandlerFault HandlerTable
  | _, [] => .ok []
  | position, e :: es => do
    let h ← e.decode pool position
    let hs ← decodeFrom pool (position + 1) es
    return h :: hs

/-- The handlers of a method, or the first entry that is malformed. -/
def decode (pool : Pool) (entries : List CatchEntry) : Except HandlerFault HandlerTable :=
  decodeFrom pool 0 entries

end HandlerTable
end ClassNest
