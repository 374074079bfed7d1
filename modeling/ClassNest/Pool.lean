import ClassNest.Text.Quoted

/-!
# Constant pools

The pool of a class: entries under the indices from one on. An index has sixteen bits, so that a pool
hands out at most 65535 of them; a pool that was read may be longer, and its tail is then out of reach.

An operation that fails leaves no pool behind: callers keep the one they had.
-/
namespace ClassNest

/-- A pool entry; entries of no interest here are `blank`. -/
inductive PoolEntry where
  | className (name : String)
  | utf8 (text : String)
  | blank
deriving DecidableEq, Inhabited

/-- The entry as messages show it. -/
def PoolEntry.shown : PoolEntry → String
  | .className name => "Class(" ++ Text.quoted name ++ ")"
  | .utf8 text => "Utf8(" ++ Text.quoted text ++ ")"
  | .blank => "Empty"

/-- Why an index could not be made or resolved. -/
inductive PoolFault where
  | full
  | zero
  | outOfRange (index : UInt16) (size : Nat)
  | notClass (index : UInt16) (found : PoolEntry)
  | notUtf8 (index : UInt16) (found : PoolEntry)
deriving DecidableEq

/-- The largest index. -/
def lastPoolIndex : Nat := 65535

def PoolFault.message : PoolFault → String
  | .full => "constant pool exceeds " ++ toString lastPoolIndex ++ " entries"
  | .zero => "constant pool index 0"
  | .outOfRange index size =>
    "constant pool index " ++ toString index.toNat ++ " out of range (pool size " ++ toString size ++ ")"
  | .notClass index found =>
    "constant pool index " ++ toString index.toNat ++ " is not a class entry: " ++ found.shown
  | .notUtf8 index found =>
    "constant pool index " ++ toString index.toNat ++ " is not a utf8 entry: " ++ found.shown

/-- A constant pool, first entry first. -/
structure Pool where
  entries : List PoolEntry := []
deriving DecidableEq, Inhabited

namespace Pool

def size (p : Pool) : Nat := p.entries.length

/-! ## Making indices -/

/-- The index of the entry at a position counted from zero. -/
def indexAt (position : Nat) : Except PoolFault UInt16 :=
  if position + 1 ≤ lastPoolIndex then .ok (UInt16.ofNat (position + 1)) else .error .full

/-- Appends an entry and gives its index. -/
def push (p : Pool) (e : PoolEntry) : Except PoolFault (Pool × UInt16) :=
  (indexAt p.size).map fun i => (⟨p.entries ++ [e]⟩, i)

/-- The index of the first entry equal to `e`, which is appended if there is none. -/
def intern (p : Pool) (e : PoolEntry) : Except PoolFault (Pool × UInt16) :=
  match p.entries.findIdx? (· == e) with
  | some position => (indexAt position).map fun i => (p, i)
  | none => p.push e

def internClass (p : Pool) (name : String) : Except PoolFault (Pool × UInt16) :=
  p.intern (.className name)

def internUtf8 (p : Pool) (text : String) : Except PoolFault (Pool × UInt16) :=
  p.intern (.utf8 text)

/-! ## Resolving indices -/

/-- The entry under an index. -/
def entry (p : Pool) (index : UInt16) : Except PoolFault PoolEntry :=
  if index = 0 then .error .zero
  else
    match p.entries[index.toNat - 1]? with
    | some e => .ok e
    | none => .error (.outOfRange index p.size)

/-- The class name under an index. -/
def className (p : Pool) (index : UInt16) : Except PoolFault String := do
  match ← p.entry index with
  | .className name => .ok name
  | other => .error (.notClass index other)

/-- The text under an index. -/
def utf8 (p : Pool) (index : UInt16) : Except PoolFault String := do
  match ← p.entry index with
  | .utf8 text => .ok text
  | other => .error (.notUtf8 index other)

/-- Resolves an index in which zero stands for nothing. -/
def resolve? (f : UInt16 → Except PoolFault String) (index : UInt16) :
    Except PoolFault (Option String) :=
  if index = 0 then .ok none else (f index).map some

end Pool
end ClassNest
