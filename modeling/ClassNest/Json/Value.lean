/-!
# JSON values

A value as it stands in a JSON text. Nothing is lost that a reader of the value may have to judge:
members keep their order and their repeats, a number written as plain digits is kept apart from every
other spelling of a number, and a string that no text corresponds to is still a string.
-/
namespace ClassNest

/-- A JSON value. The content of a string is `none` when an escape names one half of a surrogate
pair without the other. -/
inductive Json where
  | null
  | bool (b : Bool)
  /-- a number written with digits alone -/
  | nat (n : Nat)
  /-- any other number, as written -/
  | number (literal : String)
  | text (content : Option String)
  | array (items : List Json)
  | object (members : List (Option String × Json))
deriving Inhabited

namespace Json

/-- The string with the content `s`. -/
def str (s : String) : Json := .text (some s)

/-- The object with the given members. -/
def record (members : List (String × Json)) : Json :=
  .object (members.map fun m => (some m.1, m.2))

/-- The content, or `null` where there is none. -/
def opt (f : α → Json) : Option α → Json
  | none => .null
  | some a => f a

/-- The list of the values of `f`. -/
def list (f : α → Json) (xs : List α) : Json := .array (xs.map f)

def strings (xs : List String) : Json := list str xs

end Json
end ClassNest
