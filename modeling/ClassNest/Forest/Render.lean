import ClassNest.Forest.Basic

/-!
# The forest as an indented text

One line a node, two blanks for each level, children below their parent.
-/
namespace ClassNest

/-- The line of a node, without its indentation. -/
def Node.line (n : Node) : String :=
  n.kind.text ++ " " ++ n.displayName ++ " [" ++ n.qualifiedName ++ "]" ++
    (match n.interfaceType with
      | some type => " : " ++ type
      | none => "") ++
    match n.lambda with
    | some info => if info.isMethodReference then " (method reference)" else ""
    | none => ""

namespace Forest

/-- The blanks in front of a line. -/
def indent (depth : Nat) : String := String.ofList (List.replicate (2 * depth) ' ')

/-- The lines of the tree at `id`, which stands `depth` levels down; `height` bounds the levels below. -/
def linesWithin (f : Forest) : (height depth : Nat) → NodeId → List String
  | 0, _, _ => []
  | height + 1, depth, id =>
    match f.node? id with
    | none => []
    | some n => (indent depth ++ n.line) :: n.children.flatMap (f.linesWithin height (depth + 1))

/-- The lines of all trees, root after root. -/
def lines (f : Forest) : List String := f.roots.flatMap (f.linesWithin f.size 0)

/-- The forest as a text, every line ended. -/
def render (f : Forest) : String := String.join (f.lines.map (· ++ "\n"))

end Forest
end ClassNest
