import ClassNest.Json.Value

/-!
# Writing JSON

Two layouts of one value: `compact` on a single line, and `pretty` with one item a line and two blanks for
each level. Both write the same tokens. A character is escaped only where the format demands it.
-/
namespace ClassNest.Json

/-! ## Strings -/

/-- The lower-case hexadecimal digit of `n < 16`. -/
def hexDigit (n : Nat) : Char := Nat.digitChar n

/-- The characters that stand for `c` between quotes. -/
def escaped (c : Char) : List Char :=
  if c == '"' then ['\\', '"']
  else if c == '\\' then ['\\', '\\']
  else if c == '\x08' then ['\\', 'b']
  else if c == '\x0c' then ['\\', 'f']
  else if c == '\n' then ['\\', 'n']
  else if c == '\r' then ['\\', 'r']
  else if c == '\t' then ['\\', 't']
  else if c.toNat < 0x20 then ['\\', 'u', '0', '0', hexDigit (c.toNat / 16), hexDigit (c.toNat % 16)]
  else [c]

/-- A string in quotes. -/
def quoted (s : String) : String :=
  "\"" ++ String.ofList (s.toList.flatMap escaped) ++ "\""

/-- A string by its content; one half of a surrogate pair stands for what is no text. -/
def quotedContent : Option String → String
  | some s => quoted s
  | none => "\"\\ud800\""

/-! ## On one line -/

mutual

/-- The value on one line, without blanks. -/
def compact : Json → String
  | .null => "null"
  | .bool true => "true"
  | .bool false => "false"
  | .nat n => toString n
  | .number literal => literal
  | .text content => quotedContent content
  | .array items => "[" ++ ",".intercalate (compactItems items) ++ "]"
  | .object members => "\x7b" ++ ",".intercalate (compactMembers members) ++ "\x7d"

def compactItems : List Json → List String
  | [] => []
  | v :: vs => compact v :: compactItems vs

def compactMembers : List (Option String × Json) → List String
  | [] => []
  | (k, v) :: ms => (quotedContent k ++ ":" ++ compact v) :: compactMembers ms

end

/-! ## One item a line -/

/-- The line break before an item at the given depth. -/
def lineBreak (depth : Nat) : String := "\n" ++ String.ofList (List.replicate (2 * depth) ' ')

/-- The written items between their brackets, one a line. -/
def bracketed (depth : Nat) (opening closing : String) : List String → String
  | [] => opening ++ closing
  | items =>
    opening ++ lineBreak (depth + 1) ++ ("," ++ lineBreak (depth + 1)).intercalate items ++
      lineBreak depth ++ closing

mutual

/-- The value as it stands at the given depth. -/
def prettyAt (depth : Nat) : Json → String
  | .null => "null"
  | .bool true => "true"
  | .bool false => "false"
  | .nat n => toString n
  | .number literal => literal
  | .text content => quotedContent content
  | .array items => bracketed depth "[" "]" (prettyItems (depth + 1) items)
  | .object members => bracketed depth "\x7b" "\x7d" (prettyMembers (depth + 1) members)

def prettyItems (depth : Nat) : List Json → List String
  | [] => []
  | v :: vs => prettyAt depth v :: prettyItems depth vs

def prettyMembers (depth : Nat) : List (Option String × Json) → List String
  | [] => []
  | (k, v) :: ms => (quotedContent k ++ ": " ++ prettyAt depth v) :: prettyMembers depth ms

end

/-- The value with one item a line. -/
def pretty (v : Json) : String := prettyAt 0 v

end ClassNest.Json
