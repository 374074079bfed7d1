import ClassNest.Json.Shape
import ClassNest.Nesting.Record
import ClassNest.Registry

/-!
# Classes as JSON

How classes and their parts are written as JSON, and what is accepted when they are read. Writing gives every
field by name; reading also takes records by position and fills in what may be left out.
-/
namespace ClassNest

namespace Access

def toJson (a : Access) : Json := .nat a.bits.toNat
def ofJson (v : Json) : Option Access := v.asUInt16.map Access.mk

end Access

namespace PoolEntry

def toJson : PoolEntry → Json
  | .className name => .record [("class", .str name)]
  | .utf8 text => .record [("utf8", .str text)]
  | .blank => .str "empty"

def ofJson (v : Json) : Option PoolEntry := do
  match ← v.asTagged with
  | ("class", some v) => v.asText.map .className
  | ("utf8", some v) => v.asText.map .utf8
  | ("empty", none) | ("empty", some .null) => some .blank
  | _ => none

end PoolEntry

namespace Pool

def toJson (p : Pool) : Json := .list PoolEntry.toJson p.entries
def ofJson (v : Json) : Option Pool := (v.asListOf PoolEntry.ofJson).map Pool.mk

end Pool

namespace InnerEntry

def toJson (e : InnerEntry) : Json :=
  .record [("inner_class_index", .nat e.inner.toNat), ("outer_class_index", .nat e.outer.toNat),
    ("inner_name_index", .nat e.name.toNat), ("access_flags", e.access.toJson)]

def ofJson (v : Json) : Option InnerEntry := do
  let [inner, outer, name, access] ←
    v.slots ["inner_class_index", "outer_class_index", "inner_name_index", "access_flags"] | none
  return ⟨← inner.required Json.asUInt16, ← outer.required Json.asUInt16, ← name.required Json.asUInt16,
    ← access.required Access.ofJson⟩

end InnerEntry

namespace CatchEntry

def toJson (e : CatchEntry) : Json :=
  .record [("start_pc", .nat e.start.toNat), ("end_pc", .nat e.stop.toNat),
    ("handler_pc", .nat e.handler.toNat), ("catch_type_index", .nat e.catchType.toNat)]

def ofJson (v : Json) : Option CatchEntry := do
  let [start, stop, handler, type] ← v.slots ["start_pc", "end_pc", "handler_pc", "catch_type_index"] | none
  return ⟨← start.required Json.asUInt32, ← stop.required Json.asUInt32, ← handler.required Json.asUInt32,
    ← type.required Json.asUInt16⟩

end CatchEntry

namespace EnclosingMethod

def toJson (m : EnclosingMethod) : Json :=
  .record [("class_name", .str m.owner), ("method_name", .opt .str m.method),
    ("method_descriptor", .opt .str m.descriptor)]

def ofJson (v : Json) : Option EnclosingMethod := do
  let [owner, method, descriptor] ← v.slots ["class_name", "method_name", "method_descriptor"] | none
  return ⟨← owner.required Json.asText, ← method.nullable Json.asText, ← descriptor.nullable Json.asText⟩

end EnclosingMethod

namespace Method

def toJson (m : Method) : Json :=
  .record [("name", .str m.name), ("descriptor", .str m.descriptor), ("access", m.access.toJson),
    ("synthetic_attribute", .bool m.syntheticAttribute),
    ("exception_entries", .list CatchEntry.toJson m.catches)]

def ofJson (v : Json) : Option Method := do
  let [name, descriptor, access, synthetic, catches] ←
    v.slots ["name", "descriptor", "access", "synthetic_attribute", "exception_entries"] | none
  return ⟨← name.required Json.asText, ← descriptor.required Json.asText,
    ← access.withDefault .empty Access.ofJson, ← synthetic.withDefault false Json.asBool,
    ← catches.withDefault [] (Json.asListOf CatchEntry.ofJson)⟩

end Method

namespace ClassFile

def toJson (c : ClassFile) : Json :=
  .record [("name", .str c.name), ("access", c.access.toJson), ("super_class", .opt .str c.superClass),
    ("interfaces", .strings c.interfaces), ("own", .bool c.own), ("constant_pool", c.pool.toJson),
    ("inner_classes", .list InnerEntry.toJson c.innerClasses),
    ("enclosing_method", .opt EnclosingMethod.toJson c.enclosingMethod),
    ("methods", .list Method.toJson c.methods)]

def ofJson (v : Json) : Option ClassFile := do
  let [name, access, superClass, interfaces, own, pool, innerClasses, enclosingMethod, methods] ←
    v.slots ["name", "access", "super_class", "interfaces", "own", "constant_pool", "inner_classes",
      "enclosing_method", "methods"] | none
  return {
    name := ← name.required Json.asText
    access := ← access.withDefault .empty Access.ofJson
    superClass := ← superClass.withDefault none (Json.asOption Json.asText)
    interfaces := ← interfaces.withDefault [] (Json.asListOf Json.asText)
    own := ← own.withDefault false Json.asBool
    pool := ← pool.withDefault {} Pool.ofJson
    innerClasses := ← innerClasses.withDefault [] (Json.asListOf InnerEntry.ofJson)
    enclosingMethod := ← enclosingMethod.withDefault none (Json.asOption EnclosingMethod.ofJson)
    methods := ← methods.withDefault [] (Json.asListOf Method.ofJson) }

end ClassFile

namespace NestedKind

def ofJson (v : Json) : Option NestedKind := do
  match ← v.asTagged with
  | (tag, none) | (tag, some .null) => ofText? tag
  | _ => none

end NestedKind

namespace NestedRecord

def toJson (r : NestedRecord) : Json :=
  .record [("inner_name", .str r.inner), ("simple_name", .opt .str r.simpleName),
    ("declared_kind", .str r.kind.text), ("access", r.access.toJson), ("enclosing_name", .str r.enclosing)]

def ofJson (v : Json) : Option NestedRecord := do
  let [inner, simple, kind, access, enclosing] ←
    v.slots ["inner_name", "simple_name", "declared_kind", "access", "enclosing_name"] | none
  return ⟨← inner.required Json.asText, ← simple.nullable Json.asText, ← kind.required NestedKind.ofJson,
    ← access.required Access.ofJson, ← enclosing.required Json.asText⟩

end NestedRecord
end ClassNest
