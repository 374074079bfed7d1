import ClassNest.Yaml.Place

/-!
# YAML scalars

Plain scalars and scalars between single or double quotes. A scalar may run over several lines; a single line
break in it counts as a blank, and of more the first is dropped. The two Unicode separators are line breaks that
are never dropped.
-/
namespace ClassNest.Yaml

/-- How a scalar is written. -/
inductive Style where
  | plain
  /-- between single or double quotes -/
  | quoted
  /-- a block of lines that are kept -/
  | literal
  /-- a block of lines that are joined -/
  | folded
deriving DecidableEq, Inhabited

/-- A scalar, and what comes after it. -/
structure Scanned where
  text : String
  /-- a line break was passed after the last character of the scalar -/
  fresh : Bool
  next : Cursor

/-! ## Folding -/

/-- The blanks and line breaks since the last character of a scalar; lists have the latest first. -/
inductive Pending where
  | spaces (cs : List Char)
  /-- a line break, and those that came after it -/
  | breaks (first : Char) (more : List Char)
  /-- an escaped line break, which counts as nothing, and those that came after it -/
  | joined (more : List Char)

namespace Pending

def isFold : Pending → Bool
  | .spaces _ => false
  | _ => true

def isEmpty : Pending → Bool
  | .spaces [] => true
  | _ => false

def addSpace (c : Char) : Pending → Pending
  | .spaces cs => .spaces (c :: cs)
  | other => other

def addBreak (c : Char) : Pending → Pending
  | .spaces _ => .breaks c []
  | .breaks first more => .breaks first (c :: more)
  | .joined more => .joined (c :: more)

/-- The characters that the blanks and line breaks count as, latest first. -/
def chars : Pending → List Char
  | .spaces cs => cs
  | .breaks first more =>
    if first != '\n' then more ++ [first] else if more.isEmpty then [' '] else more
  | .joined more => more

end Pending

/-- A scalar being read: its characters so far, latest first, and what has come since the last. -/
structure Gathered where
  chars : List Char := []
  pending : Pending := .spaces []

namespace Gathered

def settled (p : Gathered) : List Char := p.pending.chars ++ p.chars

def add (p : Gathered) (c : Char) : Gathered := ⟨c :: p.settled, .spaces []⟩
def space (p : Gathered) (c : Char) : Gathered := { p with pending := p.pending.addSpace c }
def lineBreak (p : Gathered) (c : Char) : Gathered := { p with pending := p.pending.addBreak c }

/-- An escaped line break. -/
def join (p : Gathered) : Gathered := ⟨p.settled, .joined []⟩

/-- The scalar with the blanks and line breaks before its closing quote. -/
def close (p : Gathered) (next : Cursor) : Scanned := ⟨String.ofList p.settled.reverse, false, next⟩

/-- The scalar without what has come since its last character. -/
def stop (p : Gathered) (next : Cursor) : Scanned := ⟨String.ofList p.chars.reverse, p.pending.isFold, next⟩

end Gathered

/-! ## Plain scalars -/

/-- The characters that have a meaning of their own at the start of a token. -/
def indicators : List Char := "-?:,[]\x7b\x7d#&*!|>'\"%@`".toList

def isFlowIndicator (c : Char) : Bool := ",[]\x7b\x7d".toList.contains c

/-- A plain scalar may start here. -/
def startsPlain (flow : Bool) : List Char → Bool
  | [] => false
  | c :: cs =>
    if isBlank c || isBreak c then false
    else if !indicators.contains c then true
    else if c == '-' then !atGap cs
    else !flow && (c == '?' || c == ':') && !atGap cs

/-- The plain scalar, from a place inside it. Lines after the first must be indented by `lo` at least; within a flow
mapping this holds only for tabs. -/
def scanPlain (flow : Bool) (lo : Nat) (g : Gathered) (p : Place) : List Char → Option Scanned
  | [] => some (g.stop ⟨p, []⟩)
  | c :: cs =>
    if isBreak c then scanPlain flow lo (g.lineBreak c) p.below cs
    else if isBlank c then
      if c == '\t' && g.pending.isFold && p.column < lo then none
      else scanPlain flow lo (g.space c) (p.right 1) cs
    else if !g.pending.isEmpty &&
        (c == '#' || atMarker p (c :: cs) || (!flow && g.pending.isFold && p.column < lo)) then
      some (g.stop ⟨p, c :: cs⟩)
    else if c == ':' && atGap cs then some (g.stop ⟨p, c :: cs⟩)
    else if flow && isFlowIndicator c then some (g.stop ⟨p, c :: cs⟩)
    else if flow && c == ':' && (match cs with
        | d :: _ => d == '?' || isFlowIndicator d
        | [] => false) then none
    else scanPlain flow lo (g.add c) (p.right 1) cs

/-! ## Quoted scalars -/

/-- The rest of a scalar in single quotes; a quote inside it is written twice. -/
def scanSingle (g : Gathered) (p : Place) : List Char → Option Scanned
  | [] => none
  | '\'' :: '\'' :: cs => scanSingle (g.add '\'') (p.right 2) cs
  | c :: cs =>
    if c == '\'' then some (g.close ⟨p.right 1, cs⟩)
    else if atMarker p (c :: cs) then none
    else if isBreak c then scanSingle (g.lineBreak c) p.below cs
    else if isBlank c then scanSingle (g.space c) (p.right 1) cs
    else scanSingle (g.add c) (p.right 1) cs

/-- What a character after a backslash stands for. -/
inductive Escaped where
  | char (c : Char)
  /-- the code point follows in this many hexadecimal digits -/
  | code (digits : Nat)

/-- The escapes of a scalar in double quotes. -/
def escape? : Char → Option Escaped
  | '0' => some (.char '\x00')
  | 'a' => some (.char '\x07')
  | 'b' => some (.char '\x08')
  | 't' | '\t' => some (.char '\t')
  | 'n' => some (.char '\n')
  | 'v' => some (.char '\x0b')
  | 'f' => some (.char '\x0c')
  | 'r' => some (.char '\r')
  | 'e' => some (.char '\x1b')
  | ' ' => some (.char ' ')
  | '"' => some (.char '"')
  | '/' => some (.char '/')
  | '\\' => some (.char '\\')
  | 'N' => some (.char '\u0085')
  | '_' => some (.char '\u00a0')
  | 'L' => some (.char '\u2028')
  | 'P' => some (.char '\u2029')
  | 'x' => some (.code 2)
  | 'u' => some (.code 4)
  | 'U' => some (.code 8)
  | _ => none

/-- Where in an escape the scanner stands. -/
inductive Within where
  | text
  | slash
  /-- the digits still to come and the value of those read -/
  | code (left value : Nat)

/-- The character with this code point, if it is one. -/
def charOf? (n : Nat) : Option Char := if n.isValidChar then some (Char.ofNat n) else none

/-- The rest of a scalar in double quotes. -/
def scanDouble (g : Gathered) (w : Within) (p : Place) : List Char → Option Scanned
  | [] => none
  | c :: cs =>
    match w with
    | .slash =>
      if isBreak c then scanDouble g.join .text p.below cs
      else
        match escape? c with
        | some (.char d) => scanDouble (g.add d) .text (p.right 1) cs
        | some (.code digits) => scanDouble g (.code digits 0) (p.right 1) cs
        | none => none
    | .code left value =>
      match hexDigit? c with
      | none => none
      | some d =>
        let value := value * 16 + d
        if left ≤ 1 then
          match charOf? value with
          | some d => scanDouble (g.add d) .text (p.right 1) cs
          | none => none
        else scanDouble g (.code (left - 1) value) (p.right 1) cs
    | .text =>
      if c == '"' then some (g.close ⟨p.right 1, cs⟩)
      else if atMarker p (c :: cs) then none
      else if c == '\\' then scanDouble g .slash (p.right 1) cs
      else if isBreak c then scanDouble (g.lineBreak c) .text p.below cs
      else if isBlank c then scanDouble (g.space c) .text (p.right 1) cs
      else scanDouble (g.add c) .text (p.right 1) cs

end ClassNest.Yaml
