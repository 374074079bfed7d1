/-!
# Places in a YAML text

Indentation carries meaning in YAML, so that whoever reads a text keeps the line and the column of the next
character. Lines are separated by `\n`, to which the usual line ends are reduced beforehand, or by one of the two
Unicode separators, which a scalar keeps as they are.
-/
namespace ClassNest.Yaml

/-! ## Characters -/

/-- A document may hold this character. -/
def isAllowed (c : Char) : Bool :=
  let n := c.toNat
  n == 0x09 || n == 0x0A || n == 0x0D || (0x20 ≤ n && n ≤ 0x7E) || n == 0x85 ||
    (0xA0 ≤ n && n != 0xFFFE && n != 0xFFFF)

/-- The line ends of all systems become `\n`. -/
def normalizeBreaks : List Char → List Char
  | [] => []
  | '\r' :: '\n' :: cs => '\n' :: normalizeBreaks cs
  | c :: cs => (if c == '\r' || c == '\u0085' then '\n' else c) :: normalizeBreaks cs

def isBreak (c : Char) : Bool := c == '\n' || c == '\u2028' || c == '\u2029'

def isBlank (c : Char) : Bool := c == ' ' || c == '\t'

/-- The characters of names: ASCII letters and digits, the hyphen and the underscore. -/
def isWord (c : Char) : Bool := c.isAlphanum || c == '-' || c == '_'

/-- The value of a hexadecimal digit. -/
def hexDigit? (c : Char) : Option Nat :=
  if c.isDigit then some (c.toNat - '0'.toNat)
  else if 'a' ≤ c ∧ c ≤ 'f' then some (c.toNat - 'a'.toNat + 10)
  else if 'A' ≤ c ∧ c ≤ 'F' then some (c.toNat - 'A'.toNat + 10)
  else none

/-! ## Places -/

/-- A line and a column, both counted from zero. -/
structure Place where
  line : Nat := 0
  column : Nat := 0
deriving DecidableEq, Inhabited

namespace Place

/-- The place `n` characters further on the same line. -/
def right (p : Place) (n : Nat) : Place := { p with column := p.column + n }

/-- The start of the next line. -/
def below (p : Place) : Place := ⟨p.line + 1, 0⟩

end Place

/-- A place and the text from there on. -/
structure Cursor where
  place : Place
  rest : List Char
deriving Inhabited

/-- The cursor behind the next `n` characters of the line. -/
def Cursor.skip (c : Cursor) (n : Nat) : Cursor := ⟨c.place.right n, c.rest.drop n⟩

/-- Nothing follows, or a blank or a line break does. -/
def atGap : List Char → Bool
  | [] => true
  | c :: _ => isBlank c || isBreak c

/-- A line that starts or ends a document begins here: three dashes or three dots. -/
def atMarker (p : Place) (cs : List Char) : Bool :=
  p.column == 0 && match cs with
    | '-' :: '-' :: '-' :: rest => atGap rest
    | '.' :: '.' :: '.' :: rest => atGap rest
    | _ => false

/-- Passes blanks, line breaks and comments. Outside flow mappings a new line may start with a key, and
`keys` says whether the line may still do so; a tab does not indent, and is passed there only where no key may
start. A byte order mark is passed at the start of a line, of which it takes the first column. -/
def gap (flow keys comment : Bool) (p : Place) : List Char → Bool × Cursor
  | [] => (keys, ⟨p, []⟩)
  | c :: cs =>
    if isBreak c then gap flow (keys || !flow) false p.below cs
    else if comment then gap flow keys true (p.right 1) cs
    else if c == ' ' || (c == '\t' && (flow || !keys)) then gap flow keys false (p.right 1) cs
    else if c == '#' then gap flow keys true (p.right 1) cs
    else if c == '\uFEFF' && p.column == 0 then gap flow keys false (p.right 1) cs
    else (keys, ⟨p, c :: cs⟩)

/-- The start of the next line, if nothing but blanks and a comment is left of this one. -/
def lineEnd (c : Cursor) : Option Cursor :=
  let afterBlanks := c.rest.dropWhile isBlank
  let rest := if afterBlanks.head? == some '#' then afterBlanks.dropWhile (!isBreak ·) else afterBlanks
  match rest with
  | [] => some ⟨c.place, []⟩
  | d :: ds => if isBreak d then some ⟨c.place.below, ds⟩ else none

end ClassNest.Yaml
