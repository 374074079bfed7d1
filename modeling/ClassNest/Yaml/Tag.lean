import ClassNest.Yaml.Place

/-!
# YAML tags and directives

A tag names the type of a node: in full between angle brackets, or by a handle and what comes after it. The lines in
front of a document can declare a version of YAML and what handles stand for.
-/
namespace ClassNest.Yaml

/-! ## Addresses -/

/-- The characters of an address, apart from escapes. Those of flow collections count only if `all` says so. -/
def isAddress (all : Bool) (c : Char) : Bool :=
  isWord c || ";/?:@&=+$.!~*'()".toList.contains c || (all && ",[]".toList.contains c)

/-- How many octets follow the first one of a character. -/
def octetsAfter? (octet : Nat) : Option Nat :=
  if octet < 0x80 then some 0
  else if 0xC0 ≤ octet ∧ octet < 0xE0 then some 1
  else if 0xE0 ≤ octet ∧ octet < 0xF0 then some 2
  else if 0xF0 ≤ octet ∧ octet < 0xF8 then some 3
  else none

/-- The value of two hexadecimal digits. -/
def octet? (high low : Char) : Option Nat := do return (← hexDigit? high) * 16 + (← hexDigit? low)

/-- The address that starts here, latest octet first, and what comes after it. Characters outside ASCII are written by
their octets; `more` of them are still missing. -/
def scanAddress (all : Bool) (more : Nat) (found : List Char) : List Char → Option (List Char × List Char)
  | [] => if more == 0 then some (found, []) else none
  | '%' :: high :: low :: cs =>
    match octet? high low with
    | none => none
    | some octet =>
      if more == 0 then
        match octetsAfter? octet with
        | some n => scanAddress all n (Char.ofNat octet :: found) cs
        | none => none
      else if 0x80 ≤ octet ∧ octet < 0xC0 then scanAddress all (more - 1) (Char.ofNat octet :: found) cs
      else none
  | c :: cs =>
    if more != 0 || c == '%' then none
    else if isAddress all c then scanAddress all 0 (c :: found) cs
    else some (found, c :: cs)

/-- An address as a text. It ends at the first octet that is zero. -/
def addressText (octets : List Char) : String := String.ofList (octets.takeWhile (· != '\x00'))

/-- The address that starts here, with the given characters in front. -/
def addressAfter (all : Bool) (front : List Char) (cs : List Char) : Option (String × List Char) :=
  (scanAddress all 0 front.reverse cs).map fun r => (addressText r.1.reverse, r.2)

/-- An address of at least one octet. -/
def address? (all : Bool) (cs : List Char) : Option (String × List Char) :=
  ((scanAddress all 0 [] cs).filter (!·.1.isEmpty)).map fun r => (addressText r.1.reverse, r.2)

/-! ## Tags -/

/-- A tag as it is written. Without a handle it is complete. -/
structure Tag where
  handle : String
  suffix : String
deriving DecidableEq, Inhabited

/-- The tag behind an exclamation mark, and what comes after it. -/
def scanTag (flow : Bool) (cs : List Char) : Option (Tag × List Char) := do
  let (tag, rest) ← match cs with
    | '<' :: cs =>
      match address? true cs with
      | some (suffix, '>' :: rest) => some (⟨"", suffix⟩, rest)
      | _ => none
    | cs =>
      let word := cs.takeWhile isWord
      match cs.dropWhile isWord with
      | '!' :: rest =>
        (address? false rest).map fun r => (⟨"!" ++ String.ofList word ++ "!", r.1⟩, r.2)
      | rest =>
        (addressAfter false word rest).map fun r => (if r.1 == "" then ⟨"", "!"⟩ else ⟨"!", r.1⟩, r.2)
  if atGap rest || (flow && rest.head? == some ',') then some (tag, rest) else none

/-- What the handles that need no declaration stand for. -/
def knownHandles : List (String × String) := [("!", "!"), ("!!", "tag:yaml.org,2002:")]

/-- The full tag. -/
def Tag.resolve (handles : List (String × String)) (t : Tag) : Option String :=
  if t.handle == "" then some t.suffix else (handles.lookup t.handle).map (· ++ t.suffix)

def nullTag : String := "tag:yaml.org,2002:null"
def boolTag : String := "tag:yaml.org,2002:bool"
def intTag : String := "tag:yaml.org,2002:int"

/-! ## Directives -/

inductive Directive where
  | version (major minor : Nat)
  /-- tags with this handle start with `stem` -/
  | handle (handle stem : String)
deriving DecidableEq

/-- A number of at most nine digits. -/
def shortNumber? (cs : List Char) : Option (Nat × List Char) :=
  let digits := cs.takeWhile Char.isDigit
  if digits.isEmpty || 9 < digits.length then none
  else some (digits.foldl (fun n c => n * 10 + (c.toNat - '0'.toNat)) 0, cs.dropWhile Char.isDigit)

/-- The handle that starts here. -/
def handle? : List Char → Option (String × List Char)
  | '!' :: cs =>
    let word := cs.takeWhile isWord
    match cs.dropWhile isWord with
    | '!' :: rest => some ("!" ++ String.ofList word ++ "!", rest)
    | rest => if word.isEmpty then some ("!", rest) else none
  | _ => none

/-- The directive behind a percent sign, and what comes after it. -/
def scanDirective (cs : List Char) : Option (Directive × List Char) :=
  let name := String.ofList (cs.takeWhile isWord)
  let rest := cs.dropWhile isWord
  if !atGap rest then none
  else if name == "YAML" then do
    let (major, rest) ← shortNumber? (rest.dropWhile isBlank)
    let '.' :: rest := rest | none
    let (minor, rest) ← shortNumber? rest
    return (.version major minor, rest)
  else if name == "TAG" then do
    let (handle, rest) ← handle? (rest.dropWhile isBlank)
    let c :: rest := rest | none
    if !isBlank c then none
    let (stem, rest) ← address? true (rest.dropWhile isBlank)
    if !atGap rest then none
    return (.handle handle stem, rest)
  else none

end ClassNest.Yaml
