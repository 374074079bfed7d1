/-!
# Renaming policies

A policy decides which names have to be replaced and by what. It may remember what it handed out, so that
an answer also gives the state of the policy afterwards; nothing else is assumed of it.
-/
namespace ClassNest

/-- What a name is the name of. -/
inductive ElementKind where
  | «class» | field | method
deriving DecidableEq

namespace ElementKind

def text : ElementKind → String
  | .class => "class"
  | .field => "field"
  | .method => "method"

/-- The kind with the given name. -/
def ofText? (s : String) : Option ElementKind := [«class», field, method].find? (·.text == s)

end ElementKind

/-- A renaming policy with states `σ`. -/
structure Policy (σ : Type) where
  /-- The name has to be replaced. -/
  shouldRename : ElementKind → String → σ → Bool × σ
  /-- The replacement for the simple name of the class `key`. -/
  nextClassName : (key name : String) → σ → String × σ

/-- The policy that keeps every name. -/
def Policy.keep (σ : Type) : Policy σ where
  shouldRename _ _ s := (false, s)
  nextClassName _ name s := (name, s)

end ClassNest
