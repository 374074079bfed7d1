import ClassNest.Yaml.Token

/-!
# YAML documents

The node of a document, made from its tokens. A node may have an anchor, by which an alias elsewhere in the
document stands for it.

`Yaml.parse?` gives the document of a text, which must be its only one. A document without content is a plain scalar
without characters.
-/
namespace ClassNest

inductive Yaml where
  | scalar (anchor : Option Nat) (tag : Option String) (style : Yaml.Style) (text : String)
  | mapping (anchor : Option Nat) (entries : List (Yaml × Yaml))
  | alias (number : Nat)
deriving Inhabited

namespace Yaml

/-- The node that stands where nothing is written. -/
def nothing : Yaml := .scalar none none .plain ""

/-! ## Aliases -/

mutual

/-- The nodes at and below a node, each before those below it. -/
def nodes : Yaml → List Yaml
  | .mapping anchor entries => .mapping anchor entries :: nodesOfAll entries
  | n => [n]

/-- The nodes at and below the keys and values of entries. -/
def nodesOfAll : List (Yaml × Yaml) → List Yaml
  | [] => []
  | (k, v) :: rest => nodes k ++ nodes v ++ nodesOfAll rest

end

def anchor? : Yaml → Option Nat
  | .scalar anchor .. | .mapping anchor _ => anchor
  | .alias _ => none

/-- What a node of the document `root` stands for: an alias for the last node with its number. -/
def deref (root : Yaml) : Yaml → Yaml
  | .alias number => (root.nodes.reverse.find? (·.anchor? == some number)).getD nothing
  | n => n

/-! ## Nodes -/

/-- The anchor and the tag in front of a node. -/
structure Properties where
  anchor : Option Nat := none
  tag : Option String := none
deriving DecidableEq

/-- The properties that start here, in either order. -/
def properties (handles : List (String × String)) : List Token → Option (Properties × List Token)
  | .anchor n :: .tag t :: ts | .tag t :: .anchor n :: ts =>
    (t.resolve handles).map fun tag => (⟨some n, some tag⟩, ts)
  | .anchor n :: ts => some (⟨some n, none⟩, ts)
  | .tag t :: ts => (t.resolve handles).map fun tag => (⟨none, some tag⟩, ts)
  | ts => some ({}, ts)

/-- A node is left out before these tokens. -/
def endsNode : List Token → Bool
  | .key :: _ | .value :: _ | .blockEnd :: _ | .comma :: _ | .flowEnd :: _ => true
  | _ => false

mutual

/-- The node that starts here. -/
def node (handles : List (String × String)) : Nat → List Token → Option (Yaml × List Token)
  | 0, _ => none
  | _, .alias number :: ts => some (.alias number, ts)
  | steps + 1, ts =>
    match properties handles ts with
    | none => none
    | some (p, .scalar style text :: ts) => some (.scalar p.anchor p.tag style text, ts)
    | some (p, .flowStart :: ts) =>
      (flowEntries handles steps true [] ts).map fun r => (.mapping p.anchor r.1, r.2)
    | some (p, .blockStart :: ts) =>
      (blockEntries handles steps [] ts).map fun r => (.mapping p.anchor r.1, r.2)
    | some (p, ts) => if p == {} then none else some (.scalar p.anchor p.tag .plain "", ts)

/-- The node that starts here, or nothing if it is left out. -/
def nodeOrNothing (handles : List (String × String)) : Nat → List Token → Option (Yaml × List Token)
  | 0, _ => none
  | steps + 1, ts => if endsNode ts then some (nothing, ts) else node handles steps ts

/-- The value that belongs to a key, or nothing. -/
def valueOf (handles : List (String × String)) : Nat → List Token → Option (Yaml × List Token)
  | 0, _ => none
  | steps + 1, .value :: ts => nodeOrNothing handles steps ts
  | _, ts => some (nothing, ts)

/-- The entries of a block mapping up to its end; `entries` holds those read, latest first. -/
def blockEntries (handles : List (String × String)) :
    Nat → List (Yaml × Yaml) → List Token → Option (List (Yaml × Yaml) × List Token)
  | steps + 1, entries, .key :: ts =>
    match nodeOrNothing handles steps ts with
    | none => none
    | some (key, ts) =>
      match valueOf handles steps ts with
      | none => none
      | some (value, ts) => blockEntries handles steps ((key, value) :: entries) ts
  | _, entries, .blockEnd :: ts => some (entries.reverse, ts)
  | _, _, _ => none

/-- The entries of a flow mapping up to its end, with a comma in front of each but the first. A node without
`key` in front is a key without a value. -/
def flowEntries (handles : List (String × String)) :
    Nat → (first : Bool) → List (Yaml × Yaml) → List Token → Option (List (Yaml × Yaml) × List Token)
  | 0, _, _, _ => none
  | _, _, entries, .flowEnd :: ts => some (entries.reverse, ts)
  | steps + 1, false, entries, .comma :: ts => flowEntries handles steps true entries ts
  | _, false, _, _ => none
  | steps + 1, true, entries, .key :: ts =>
    match nodeOrNothing handles steps ts with
    | none => none
    | some (key, ts) =>
      match valueOf handles steps ts with
      | none => none
      | some (value, ts) => flowEntries handles steps false ((key, value) :: entries) ts
  | steps + 1, true, entries, ts =>
    match node handles steps ts with
    | none => none
    | some (key, ts) => flowEntries handles steps false ((key, nothing) :: entries) ts

end

/-! ## Documents -/

/-- The version of YAML is one that can be read. -/
def isReadable (major minor : Nat) : Bool := major == 1 && (minor == 1 || minor == 2)

/-- The declared handles in front of a document, and what comes after them. A version or a handle may be declared
once. -/
def directives (versioned : Bool) (handles : List (String × String)) :
    List Token → Option (List (String × String) × List Token)
  | .directive (.version major minor) :: ts =>
    if versioned || !isReadable major minor then none else directives true handles ts
  | .directive (.handle handle stem) :: ts =>
    if (handles.lookup handle).isSome then none else directives versioned (handles ++ [(handle, stem)]) ts
  | ts => some (handles, ts)

/-- Nothing comes after the document but further marks of its end. -/
def isEnd (ts : List Token) : Bool := ts.all (· == .documentEnd)

/-- The content of a document that has been started explicitly. -/
def content (handles : List (String × String)) (ts : List Token) : Option (Yaml × List Token) :=
  match ts with
  | [] | .documentEnd :: _ | .documentStart :: _ | .directive _ :: _ => some (nothing, ts)
  | ts => node handles (4 * ts.length + 4) ts

/-- The only document of a list of tokens. -/
def ofTokens (ts : List Token) : Option Yaml :=
  let parsed :=
    match ts with
    | [] => some (nothing, [])
    | .documentStart :: _ | .directive _ :: _ =>
      match directives false [] ts with
      | some (handles, .documentStart :: ts) => content (handles ++ knownHandles) ts
      | _ => none
    | ts => node knownHandles (4 * ts.length + 4) ts
  match parsed with
  | some (root, rest) => if isEnd rest then some root else none
  | none => none

/-- The document that a text holds. -/
def parse? (s : String) : Option Yaml := (tokens? s).bind ofTokens

end Yaml
end ClassNest
