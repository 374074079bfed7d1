import ClassNest.Yaml.Block
import ClassNest.Yaml.Tag

/-!
# YAML tokens

A text as a list of tokens, in which indentation has become explicit: a block mapping stands between `blockStart` and
`blockEnd`, and every key has a `key` in front of it.

A key is only known by the colon behind it. Whatever may turn out to be one is therefore kept as a candidate, with
the position in the list where `key` would have to stand. A candidate ends with its line, or after 1024 characters.
What stands in the column of a block mapping must become a key, and is refused otherwise.

Sequences have no place in settings; their tokens are refused here.
-/
namespace ClassNest.Yaml

inductive Token where
  | directive (d : Directive)
  | documentStart
  | documentEnd
  | blockStart
  | blockEnd
  | flowStart
  | flowEnd
  | key
  | value
  | comma
  | anchor (number : Nat)
  | alias (number : Nat)
  | tag (t : Tag)
  | scalar (style : Style) (text : String)
deriving DecidableEq

/-- Something that may turn out to be a key. -/
structure Candidate where
  /-- how many tokens stand before it -/
  position : Nat
  place : Place
  /-- it has to be a key -/
  required : Bool

/-- The longest distance between the start of a key and its colon. -/
def keyReach : Nat := 1024

/-- No colon can be reached any more from the candidate. -/
def Candidate.isExpired (k : Candidate) (p : Place) : Bool :=
  k.place.line < p.line || k.place.column + keyReach < p.column

/-- A text being split into tokens. -/
structure Scanner where
  cursor : Cursor
  tokens : List Token := []
  /-- the columns of the open block mappings, innermost first -/
  columns : List Nat := []
  candidate : Option Candidate := none
  /-- the candidates around the open flow mappings, innermost first -/
  outer : List (Option Candidate) := []
  /-- a key may start here -/
  keys : Bool := true
  /-- the numbers of the anchors, by name -/
  anchors : List (String × Nat) := []

namespace Scanner

def inFlow (s : Scanner) : Bool := !s.outer.isEmpty

def column (s : Scanner) : Nat := s.cursor.place.column

/-- The least column of what is nested below the open block mappings. -/
def nestedColumn (s : Scanner) : Nat := (s.columns.head?.map (· + 1)).getD 0

def emit (s : Scanner) (t : Token) : Scanner := { s with tokens := s.tokens ++ [t] }

/-- Emits a token that takes up the next `n` characters. -/
def emitOver (s : Scanner) (t : Token) (n : Nat) : Scanner := { s.emit t with cursor := s.cursor.skip n }

/-! ## Candidates -/

/-- Gives the candidate up, which must not have been required. -/
def dropCandidate (s : Scanner) : Option Scanner :=
  if s.candidate.any (·.required) then none else some { s with candidate := none }

/-- Makes what starts here a candidate, if a key may start here. -/
def offerCandidate (s : Scanner) : Option Scanner :=
  let required := !s.inFlow && s.columns.head? == some s.column
  let k : Candidate := ⟨s.tokens.length, s.cursor.place, required⟩
  if s.keys then s.dropCandidate.map fun s => { s with candidate := some k } else some s

/-- Gives up the candidates that have expired, none of which must have been required. -/
def expire (s : Scanner) : Option Scanner :=
  let gone (k : Candidate) := k.isExpired s.cursor.place
  if (s.candidate :: s.outer).any fun k => k.any fun k => gone k && k.required then none
  else some { s with
    candidate := s.candidate.filter (!gone ·)
    outer := s.outer.map fun k => k.filter (!gone ·) }

/-! ## Indentation -/

/-- Opens a block mapping, the start of which goes to `position`, unless one is open in this column. -/
def openBlock (s : Scanner) (column position : Nat) : Scanner :=
  if !s.inFlow && s.columns.head?.all (· < column) then
    { s with columns := column :: s.columns, tokens := s.tokens.insertIdx position .blockStart }
  else s

/-- Closes the block mappings to the right of a column, or all of them. -/
def closeBlocks (s : Scanner) (column : Option Nat) : Scanner :=
  if s.inFlow then s
  else
    let closed := s.columns.takeWhile fun c => column.all (· < c)
    { s with
      columns := s.columns.drop closed.length
      tokens := s.tokens ++ closed.map fun _ => .blockEnd }

/-! ## Tokens -/

/-- A question mark, which announces a key. -/
def scanKey (s : Scanner) : Option Scanner :=
  if !s.inFlow && !s.keys then none
  else
    (s.openBlock s.column s.tokens.length).dropCandidate.map fun s =>
      { s.emitOver .key 1 with keys := !s.inFlow }

/-- A colon. It makes a key of the candidate, or belongs to a key that was announced. -/
def scanValue (s : Scanner) : Option Scanner :=
  match s.candidate with
  | some k =>
    let s := { s with tokens := s.tokens.insertIdx k.position .key, candidate := none, keys := false }
    some ((s.openBlock k.place.column k.position).emitOver .value 1)
  | none =>
    if !s.inFlow && !s.keys then none
    else some { (s.openBlock s.column s.tokens.length).emitOver .value 1 with keys := !s.inFlow }

def scanFlowStart (s : Scanner) : Option Scanner :=
  s.offerCandidate.map fun s =>
    { s.emitOver .flowStart 1 with candidate := none, outer := s.candidate :: s.outer, keys := true }

def scanFlowEnd (s : Scanner) : Option Scanner :=
  s.dropCandidate.map fun s =>
    { s.emitOver .flowEnd 1 with candidate := s.outer.head?.join, outer := s.outer.tail, keys := false }

def scanComma (s : Scanner) : Option Scanner :=
  s.dropCandidate.map fun s => { s.emitOver .comma 1 with keys := true }

/-- The name of an anchor or alias, which starts behind the next character. -/
def anchorName? (s : Scanner) : Option String :=
  let rest := s.cursor.rest.tail
  let after := rest.dropWhile isWord
  if atGap after || after.head?.any "?:,]\x7d%@`".toList.contains then
    some (String.ofList (rest.takeWhile isWord)) |>.filter (· != "")
  else none

/-- An anchor. Its number is the number of the names there have been, so that a name which comes up again
shares it with the next new one. -/
def scanAnchor (s : Scanner) : Option Scanner := do
  let name ← s.anchorName?
  let s ← s.offerCandidate
  let number := s.anchors.length
  return { s.emitOver (.anchor number) (name.length + 1) with
    anchors := (name, number) :: s.anchors.filter (·.1 != name), keys := false }

/-- An alias, whose anchor must have come before. -/
def scanAlias (s : Scanner) : Option Scanner := do
  let name ← s.anchorName?
  let number ← s.anchors.lookup name
  let s ← s.offerCandidate
  return { s.emitOver (.alias number) (name.length + 1) with keys := false }

def scanTagToken (s : Scanner) : Option Scanner := do
  let s ← s.offerCandidate
  let (tag, rest) ← scanTag s.inFlow s.cursor.rest.tail
  return { s.emitOver (.tag tag) (s.cursor.rest.length - rest.length) with keys := false }

/-- A scalar that may be a key. -/
def scanScalar (s : Scanner) (style : Style) (scan : Cursor → Option Scanned) : Option Scanner := do
  let s ← s.offerCandidate
  let scanned ← scan s.cursor
  return { s.emit (.scalar style scanned.text) with cursor := scanned.next, keys := scanned.fresh }

/-- A block scalar, which cannot be a key. -/
def scanBlockScalar (s : Scanner) (style : Style) : Option Scanner := do
  let s ← s.dropCandidate
  let scanned ← scanBlock (style == .folded) s.columns.head? (s.cursor.skip 1)
  return { s.emit (.scalar style scanned.text) with cursor := scanned.next, keys := true }

/-- A directive or the start or end of a document, which close all block mappings. -/
def scanBetween (s : Scanner) (t : Token) (next : Cursor) : Option Scanner :=
  (s.closeBlocks none).dropCandidate.map fun s => { s.emit t with cursor := next, keys := false }

/-- The next token, which starts with the character `c`. -/
def scanToken (s : Scanner) (c : Char) (cs : List Char) : Option Scanner :=
  if s.column == 0 && c == '%' then do
    let (d, rest) ← scanDirective cs
    s.scanBetween (.directive d) (← lineEnd ⟨s.cursor.place, rest⟩)
  else if atMarker s.cursor.place (c :: cs) then
    s.scanBetween (if c == '-' then .documentStart else .documentEnd) (s.cursor.skip 3)
  else
    match c with
    | '{' => s.scanFlowStart
    | '}' => s.scanFlowEnd
    | ',' => s.scanComma
    | '&' => s.scanAnchor
    | '*' => s.scanAlias
    | '!' => s.scanTagToken
    | '\'' => s.scanScalar .quoted fun c => scanSingle {} (c.place.right 1) c.rest.tail
    | '"' => s.scanScalar .quoted fun c => scanDouble {} .text (c.place.right 1) c.rest.tail
    | _ =>
      if c == '?' && (s.inFlow || atGap cs) then s.scanKey
      else if c == ':' && (s.inFlow || atGap cs) then s.scanValue
      else if c == '|' && !s.inFlow then s.scanBlockScalar .literal
      else if c == '>' && !s.inFlow then s.scanBlockScalar .folded
      else if startsPlain s.inFlow (c :: cs) then
        s.scanScalar .plain fun c => scanPlain s.inFlow s.nestedColumn {} c.place c.rest
      else none

/-- Goes to the next token and closes the block mappings to the right of it. -/
def advance (s : Scanner) : Option Scanner :=
  let g := gap s.inFlow s.keys false s.cursor.place s.cursor.rest
  ({ s with cursor := g.2, keys := g.1 } : Scanner).expire.map fun s => s.closeBlocks (some s.column)

/-- The tokens of the text, of which at most `steps` are still missing. -/
def scan : Nat → Scanner → Option (List Token)
  | 0, _ => none
  | steps + 1, s =>
    match s.advance with
    | none => none
    | some s =>
      match s.cursor.rest with
      | [] => (s.closeBlocks none).dropCandidate.map (·.tokens)
      | c :: cs => (s.scanToken c cs).bind (scan steps)

end Scanner

/-- The tokens of a text. Each takes up a character at least, so that the length of the text bounds their
number. -/
def tokens? (s : String) : Option (List Token) :=
  let cs := s.toList
  if cs.all isAllowed then Scanner.scan (cs.length + 1) { cursor := ⟨{}, normalizeBreaks cs⟩ } else none

end ClassNest.Yaml
