import ClassNest.Yaml.Scalar

/-!
# YAML block scalars

Scalars of whole lines, all indented by the same width. In a literal block the lines stay as they are; in a folded
block a line break between two lines that do not start with a blank counts as a blank. The header can fix the width
and says what happens to the line breaks at the end.
-/
namespace ClassNest.Yaml

/-- What happens to the line breaks at the end of a block. -/
inductive Chomp where
  /-- the first stays -/
  | clip
  /-- none stays -/
  | strip
  /-- all stay -/
  | keep
deriving DecidableEq, Inhabited

def chomp? : Char → Option Chomp
  | '+' => some .keep
  | '-' => some .strip
  | _ => none

/-- The width that a digit in the header adds to the indentation around the block. -/
def width? (c : Char) : Option Nat :=
  if '1' ≤ c ∧ c ≤ '9' then some (c.toNat - '0'.toNat) else none

/-- The value of the first character, if it has one, and what comes after it. -/
def takeFirst (f : Char → Option α) : List Char → Option α × List Char
  | [] => (none, [])
  | c :: cs =>
    match f c with
    | some a => (some a, cs)
    | none => (none, c :: cs)

/-- The header of a block: the treatment of its end and its width, in either order. -/
def blockHeader (cs : List Char) : Chomp × Option Nat × List Char :=
  let early := takeFirst chomp? cs
  let width := takeFirst width? early.2
  let late := if early.1.isNone && width.1.isSome then takeFirst chomp? width.2 else (none, width.2)
  ((early.1.orElse fun _ => late.1).getD .clip, width.1, late.2)

/-! ## Lines -/

/-- A block being read; lists have the latest first. -/
structure Block where
  chars : List Char := []
  /-- the line break after the latest line that is not empty -/
  lineBreak : List Char := []
  /-- the line breaks of the empty lines since -/
  emptyLines : List Char := []
  /-- the latest line that is not empty starts with a blank -/
  blankFirst : Bool := false
  /-- the next character belongs to such a line -/
  inLine : Bool := false

namespace Block

/-- Starts a line with the character `c`. -/
def startLine (b : Block) (folded : Bool) (c : Char) : Block where
  chars :=
    if folded && b.lineBreak == ['\n'] && !b.blankFirst && !isBlank c then
      c :: ((if b.emptyLines.isEmpty then [' '] else b.emptyLines) ++ b.chars)
    else c :: (b.emptyLines ++ b.lineBreak ++ b.chars)
  blankFirst := isBlank c
  inLine := true

def text (b : Block) (chomp : Chomp) : String :=
  let tail :=
    match chomp with
    | .strip => []
    | .clip => b.lineBreak
    | .keep => b.emptyLines ++ b.lineBreak
  String.ofList (tail ++ b.chars).reverse

end Block

/-- Passes the empty lines in front of a block whose width is not known yet, and finds the largest indentation among
them and the line that follows. A tab does not indent. -/
def scanEmptyLines (widest : Nat) (breaks : List Char) (p : Place) :
    List Char → Option (Nat × List Char × Cursor)
  | [] => some (max widest p.column, breaks, ⟨p, []⟩)
  | c :: cs =>
    if c == ' ' then scanEmptyLines widest breaks (p.right 1) cs
    else if c == '\t' then none
    else if isBreak c then scanEmptyLines (max widest p.column) (c :: breaks) p.below cs
    else some (max widest p.column, breaks, ⟨p, c :: cs⟩)

/-- The lines of a block, up to the first that is indented by less than `width`. -/
def scanLines (folded : Bool) (width : Nat) (b : Block) (p : Place) : List Char → Option (Block × Cursor)
  | [] => some (b, ⟨p, []⟩)
  | c :: cs =>
    if b.inLine then
      if isBreak c then scanLines folded width { b with lineBreak := [c], inLine := false } p.below cs
      else scanLines folded width { b with chars := c :: b.chars } (p.right 1) cs
    else if isBreak c then
      scanLines folded width { b with emptyLines := c :: b.emptyLines } p.below cs
    else if p.column < width then
      if c == ' ' then scanLines folded width b (p.right 1) cs
      else if c == '\t' then none
      else some (b, ⟨p, c :: cs⟩)
    else scanLines folded width (b.startLine folded c) (p.right 1) cs

/-- The block scalar whose header starts here. Lines around it are indented by `around`, if at all. -/
def scanBlock (folded : Bool) (around : Option Nat) (c : Cursor) : Option Scanned := do
  let (chomp, width, rest) := blockHeader c.rest
  let start ← lineEnd ⟨c.place, rest⟩
  let (width, breaks, first) ← match width with
    | some n => some (around.getD 0 + n, [], start)
    | none => do
      let (widest, breaks, first) ← scanEmptyLines 0 [] start.place start.rest
      some (max widest (max 1 ((around.map (· + 1)).getD 0)), breaks, first)
  let (b, next) ← scanLines folded width { emptyLines := breaks } first.place first.rest
  return ⟨b.text chomp, false, next⟩

end ClassNest.Yaml
