import ClassNest.Json.Value

/-!
# Reading JSON

A pushdown machine that takes one character at a time: what is open is kept on an explicit stack, so
that the nesting of a text is bounded by nothing but its length. The machine is strict: one value, blanks
around it, no comments, no trailing commas, no raw control characters in strings.

`Json.parse?` runs the machine over a text and answers `none` when it gets stuck or ends inside a value.
-/
namespace ClassNest.Json

/-! ## States -/

/-- A container that is still open, with what it holds so far, latest first. -/
inductive Frame where
  | array (items : List Json)
  /-- an object that waits for a key or its end -/
  | object (members : List (Option String × Json))
  /-- an object that waits for the value of `key` -/
  | field (members : List (Option String × Json)) (key : Option String)

/-- Where in an escape the machine stands. -/
inductive Escape where
  | none
  | slash
  /-- inside `\uXXXX`: the digits still to come and the value of those read -/
  | hex (left : Nat) (value : Nat)

/-- A string being read. -/
structure Literal where
  /-- the characters so far, latest first -/
  chars : List Char := []
  /-- the first half of a surrogate pair, when it has just been read -/
  high : Option Nat := none
  /-- half a surrogate pair was read without the other -/
  broken : Bool := false
  escape : Escape := .none

/-- How much of a number has been read. -/
inductive Digits where
  | minus | zero | int | point | fraction | mark | sign | power
deriving DecidableEq

inductive Mode where
  /-- a value must start here; with `closable` the array may also end -/
  | value (closable : Bool)
  /-- a key must start here; with `closable` the object may also end -/
  | key (closable : Bool)
  | colon
  /-- a value inside a container has ended -/
  | after
  | string (lit : Literal)
  /-- the characters so far, latest first -/
  | number (digits : Digits) (chars : List Char)
  /-- the rest of `null`, `true` or `false` -/
  | word (rest : List Char) (value : Json)
  | done (value : Json)

structure Machine where
  stack : List Frame
  mode : Mode

/-- The machine before the first character. -/
def Machine.start : Machine := ⟨[], .value false⟩

/-! ## Strings -/

def isBlank (c : Char) : Bool := c == ' ' || c == '\n' || c == '\t' || c == '\r'

/-- The value of a hexadecimal digit. -/
def hexDigit? (c : Char) : Option Nat :=
  if '0' ≤ c ∧ c ≤ '9' then some (c.toNat - '0'.toNat)
  else if 'a' ≤ c ∧ c ≤ 'f' then some (c.toNat - 'a'.toNat + 10)
  else if 'A' ≤ c ∧ c ≤ 'F' then some (c.toNat - 'A'.toNat + 10)
  else none

/-- The character that `\c` stands for, `\u` apart. -/
def shortEscape? : Char → Option Char
  | '"' => some '"'
  | '\\' => some '\\'
  | '/' => some '/'
  | 'b' => some '\x08'
  | 'f' => some '\x0c'
  | 'n' => some '\n'
  | 'r' => some '\r'
  | 't' => some '\t'
  | _ => none

namespace Literal

/-- One more character; a first half that waits is now known to stand alone. -/
def add (l : Literal) (c : Char) : Literal :=
  { chars := c :: l.chars, high := none, broken := l.broken || l.high.isSome, escape := .none }

/-- One more unit written as `\uXXXX`: a first half waits for the second, and a second half
that nothing waits for stands alone. -/
def addUnit (l : Literal) (u : Nat) : Literal :=
  if 0xD800 ≤ u ∧ u < 0xDC00 then
    { l with high := some u, broken := l.broken || l.high.isSome, escape := .none }
  else if 0xDC00 ≤ u ∧ u < 0xE000 then
    match l.high with
    | some h =>
      { l with chars := Char.ofNat (0x10000 + (h - 0xD800) * 0x400 + (u - 0xDC00)) :: l.chars,
               high := none, escape := .none }
    | none => { l with broken := true, escape := .none }
  else l.add (Char.ofNat u)

def content (l : Literal) : Option String :=
  if l.broken || l.high.isSome then none else some (String.ofList l.chars.reverse)

/-- One character inside the quotes, the closing quote apart. -/
def step (l : Literal) (c : Char) : Option Literal :=
  match l.escape with
  | .none =>
    if c == '\\' then some { l with escape := .slash }
    else if c.toNat < 0x20 then none
    else some (l.add c)
  | .slash =>
    if c == 'u' then some { l with escape := .hex 4 0 }
    else (shortEscape? c).map l.add
  | .hex left value => do
    let d ← hexDigit? c
    let value := value * 16 + d
    if left ≤ 1 then some (l.addUnit value) else some { l with escape := .hex (left - 1) value }

/-- The next quote closes the string. -/
def closable (l : Literal) : Bool :=
  match l.escape with
  | .none => true
  | _ => false

end Literal

/-! ## Numbers -/

/-- One more character of a number, `none` when the number cannot go on with it. -/
def Digits.next? (d : Digits) (c : Char) : Option Digits :=
  match d with
  | .minus => if c == '0' then some .zero else if c.isDigit then some .int else none
  | .zero => tail c
  | .int => if c.isDigit then some .int else tail c
  | .point => if c.isDigit then some .fraction else none
  | .fraction => if c.isDigit then some .fraction else exponent c
  | .mark =>
    if c.isDigit then some .power else if c == '+' || c == '-' then some .sign else none
  | .sign => if c.isDigit then some .power else none
  | .power => if c.isDigit then some .power else none
where
  exponent (c : Char) : Option Digits := if c == 'e' || c == 'E' then some .mark else none
  tail (c : Char) : Option Digits := if c == '.' then some .point else exponent c

/-- The number may end here. A zero may not be followed by a digit. -/
def Digits.complete (d : Digits) : Bool :=
  match d with
  | .zero | .int | .fraction | .power => true
  | _ => false

/-- The value of a run of decimal digits. -/
def natOfDigits (cs : List Char) : Nat := cs.foldl (fun n c => n * 10 + (c.toNat - '0'.toNat)) 0

/-- The number with the given characters, latest first. -/
def ofNumeral (chars : List Char) : Json :=
  let cs := chars.reverse
  if cs.all Char.isDigit then .nat (natOfDigits cs) else .number (String.ofList cs)

/-! ## Steps -/

namespace Machine

/-- A value has been read: it joins the innermost open container. -/
def accept (stack : List Frame) (v : Json) : Option Machine :=
  match stack with
  | [] => some ⟨[], .done v⟩
  | .array items :: rest => some ⟨.array (v :: items) :: rest, .after⟩
  | .field members key :: rest => some ⟨.object ((key, v) :: members) :: rest, .after⟩
  | .object _ :: _ => none

/-- The innermost container ends. -/
def close (stack : List Frame) (bracket : Char) : Option Machine :=
  match stack with
  | .array items :: rest => if bracket == ']' then accept rest (.array items.reverse) else none
  | .object members :: rest => if bracket == '}' then accept rest (.object members.reverse) else none
  | _ => none

/-- The closing quote: the string is a key if the innermost container waits for one. -/
def closeString (stack : List Frame) (content : Option String) : Option Machine :=
  match stack with
  | .object members :: rest => some ⟨.field members content :: rest, .colon⟩
  | _ => accept stack (.text content)

/-- The first character of a value. -/
def open? (stack : List Frame) (c : Char) : Option Machine :=
  if c == '{' then some ⟨.object [] :: stack, .key true⟩
  else if c == '[' then some ⟨.array [] :: stack, .value true⟩
  else if c == '"' then some ⟨stack, .string {}⟩
  else if c == '-' then some ⟨stack, .number .minus [c]⟩
  else if c == '0' then some ⟨stack, .number .zero [c]⟩
  else if c.isDigit then some ⟨stack, .number .int [c]⟩
  else if c == 'n' then some ⟨stack, .word ['u', 'l', 'l'] .null⟩
  else if c == 't' then some ⟨stack, .word ['r', 'u', 'e'] (.bool true)⟩
  else if c == 'f' then some ⟨stack, .word ['a', 'l', 's', 'e'] (.bool false)⟩
  else none

/-- A character between two values of a container, or after the whole value. -/
def between (m : Machine) (c : Char) : Option Machine :=
  match m.mode with
  | .done _ => if isBlank c then some m else none
  | .after =>
    if isBlank c then some m
    else if c == ',' then
      match m.stack with
      | .array _ :: _ => some { m with mode := .value false }
      | .object _ :: _ => some { m with mode := .key false }
      | _ => none
    else close m.stack c
  | _ => none

/-- One character. -/
def step (m : Machine) (c : Char) : Option Machine :=
  match m.mode with
  | .value closable =>
    if isBlank c then some m
    else if closable && c == ']' then close m.stack c
    else open? m.stack c
  | .key closable =>
    if isBlank c then some m
    else if closable && c == '}' then close m.stack c
    else if c == '"' then some { m with mode := .string {} }
    else none
  | .colon =>
    if isBlank c then some m else if c == ':' then some { m with mode := .value false } else none
  | .string lit =>
    if lit.closable && c == '"' then closeString m.stack lit.content
    else (lit.step c).map fun lit => { m with mode := .string lit }
  | .number digits chars =>
    match digits.next? c with
    | some digits => some { m with mode := .number digits (c :: chars) }
    | none =>
      if digits.complete then (accept m.stack (ofNumeral chars)).bind (between · c) else none
  | .word rest value =>
    match rest with
    | [] => none
    | [last] => if c == last then accept m.stack value else none
    | next :: rest => if c == next then some { m with mode := .word rest value } else none
  | .after | .done _ => m.between c

/-- The whole run over `cs`. -/
def run : List Char → Machine → Option Machine
  | [], m => some m
  | c :: cs, m =>
    match m.step c with
    | none => none
    | some m => run cs m

/-- The value read, once the text has ended. -/
def result (m : Machine) : Option Json :=
  match m.mode with
  | .done v => some v
  | .number digits chars => if digits.complete && m.stack.isEmpty then some (ofNumeral chars) else none
  | _ => none

end Machine

/-- The value that a text holds. -/
def parse? (s : String) : Option Json := (Machine.run s.toList .start).bind Machine.result

end ClassNest.Json
