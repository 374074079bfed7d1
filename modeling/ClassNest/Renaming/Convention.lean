import ClassNest.Renaming.Policy

/-!
# Renaming by convention

Names that could not stand in source code are replaced: those of at most two bytes, reserved words and, for
classes, those that start with a digit. If digits stand in front of a name that is still free they are
dropped; every other name becomes `class_` with a running number. The number has thirty-two bits.
-/
namespace ClassNest.Convention

/-- The words that cannot be names. -/
def reserved : List String :=
  ["abstract", "assert", "boolean", "break", "byte", "case", "catch", "char", "class", "const",
   "continue", "default", "do", "double", "else", "enum", "extends", "false", "final", "finally",
   "float", "for", "goto", "if", "implements", "import", "instanceof", "int", "interface", "long",
   "native", "new", "null", "package", "private", "protected", "public", "return", "short", "static",
   "strictfp", "super", "switch", "synchronized", "this", "throw", "throws", "transient", "true",
   "try", "void", "volatile", "while"]

/-- What the policy remembers. -/
structure Names where
  /-- the number of the next `class_` name -/
  next : UInt32 := 0
  /-- the names that were left after dropping digits -/
  used : List String := []
deriving DecidableEq, Inhabited

def startsWithDigit (name : String) : Bool :=
  match name.toList with
  | c :: _ => c.isDigit
  | [] => false

/-- The name cannot stand in source code. -/
def isUnusable (kind : ElementKind) (name : String) : Bool :=
  name.utf8ByteSize ≤ 2 || reserved.contains name || (kind == .class && startsWithDigit name)

/-- The name without the digits in front. -/
def stripDigits (name : String) : String := String.ofList (name.toList.dropWhile Char.isDigit)

/-- The next numbered name. -/
def numbered (s : Names) : String × Names :=
  ("class_" ++ toString s.next.toNat, { s with next := s.next + 1 })

/-- The name without the digits in front if that is a name and still free, else a numbered one. -/
def replacement (name : String) (s : Names) : String × Names :=
  let stripped := stripDigits name
  if stripped == name || stripped == "" || s.used.contains stripped then numbered s
  else (stripped, { s with used := s.used ++ [stripped] })

/-- The policy that replaces names which could not stand in source code. -/
def policy : Policy Names where
  shouldRename kind name s := (isUnusable kind name, s)
  nextClassName _ name s := replacement name s

end ClassNest.Convention
