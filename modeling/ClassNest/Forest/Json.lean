import ClassNest.ClassFile.Json
import ClassNest.Forest.Basic

/-!
# The forest as JSON

Nodes stand in the order of the arena, so that an id is a position in the list. A description of a lambda and
an enclosing method are given only where there is one.
-/
namespace ClassNest

def LambdaInfo.toJson (i : LambdaInfo) : Json :=
  .record [("declaring_class", .str i.declaringClass), ("interface_name", .str i.interfaceName),
    ("interface_method", .str i.interfaceMethod), ("interface_descriptor", .str i.interfaceDescriptor),
    ("content_class", .str i.contentClass), ("content_method", .str i.contentMethod),
    ("content_descriptor", .str i.contentDescriptor), ("invocation_kind", .str i.invocationKind.text),
    ("content_method_key", .str i.contentMethodKey), ("is_method_reference", .bool i.isMethodReference),
    ("is_static_content", .bool i.isStaticContent)]

/-- A member that is left out where there is nothing to give. -/
def optionalMember (name : String) (f : α → Json) : Option α → List (String × Json)
  | none => []
  | some a => [(name, f a)]

def Node.toJson (n : Node) : Json :=
  .record ([("kind", .str n.kind.text), ("qualified_name", .str n.qualifiedName), ("access", n.access.toJson),
      ("simple_name", .opt .str n.simpleName), ("parent", .opt .nat n.parent),
      ("children", .list .nat n.children), ("enclosing_classes", .strings n.enclosingClasses),
      ("interface_type", .opt .str n.interfaceType)] ++
    optionalMember "lambda" LambdaInfo.toJson n.lambda ++
    optionalMember "enclosing_method" EnclosingMethod.toJson n.enclosingMethod)

def Forest.toJson (f : Forest) : Json :=
  .record [("nodes", .list Node.toJson f.nodes), ("roots", .list .nat f.roots),
    ("unattached", .strings f.unattached)]

end ClassNest
