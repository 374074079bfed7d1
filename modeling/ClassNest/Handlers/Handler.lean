/-!
# Exception handlers

One protected range of lines, where control goes from there, and which exceptions take it.
-/
namespace ClassNest

structure Handler where
  /-- the first line covered -/
  start : UInt32
  /-- the first line no longer covered -/
  stop : UInt32
  handler : UInt32
  /-- `none` for a handler that catches everything -/
  type : Option String
deriving DecidableEq, Inhabited

namespace Handler

/-- The line lies in the range of the handler, whose end is not part of it. -/
def covers (h : Handler) (line : UInt32) : Bool := h.start ≤ line && line < h.stop

def isCatchAll (h : Handler) : Bool := h.type.isNone

end Handler
end ClassNest
