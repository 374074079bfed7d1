import ClassNest.Batch
import ClassNest.ClassFile.Json
import ClassNest.Json.Printer
import ClassNest.Json.Reader

/-!
# Batches as JSON

What a batch is as a value, and which values are read as one: members that a batch does not know are skipped,
whatever they hold. How values become texts is left open (`Batch.writeWith` and `Batch.readWith`); with this library's
own layer `Batch.ofText` reads strictly and `Batch.toText` writes one item a line.
-/
namespace ClassNest

namespace CallSite

def toJson (s : CallSite) : Json :=
  .record [("declaring_class", .str s.declaringClass), ("content_class", .str s.contentClass),
    ("content_method", .str s.contentMethod), ("content_descriptor", .str s.contentDescriptor),
    ("invocation_kind", .nat s.invocationKind.toNat), ("interface_name", .str s.interfaceName),
    ("interface_method", .str s.interfaceMethod), ("interface_descriptor", .str s.interfaceDescriptor)]

def ofJson (v : Json) : Option CallSite := do
  let [declaring, content, method, descriptor, kind, interface, interfaceMethod, interfaceDescriptor] ←
    v.slots ["declaring_class", "content_class", "content_method", "content_descriptor", "invocation_kind",
      "interface_name", "interface_method", "interface_descriptor"] | none
  return ⟨← declaring.required Json.asText, ← content.required Json.asText, ← method.required Json.asText,
    ← descriptor.required Json.asText, ← kind.required Json.asUInt8, ← interface.required Json.asText,
    ← interfaceMethod.required Json.asText, ← interfaceDescriptor.required Json.asText⟩

end CallSite

namespace CorruptedClass

def toJson (c : CorruptedClass) : Json := .record [("name", .str c.name), ("reason", .str c.reason)]

def ofJson (v : Json) : Option CorruptedClass := do
  let [name, reason] ← v.slots ["name", "reason"] | none
  return ⟨← name.required Json.asText, ← reason.required Json.asText⟩

end CorruptedClass

/-- A unit under the tag that says whether it could be loaded. What is known of a corrupted unit belongs to the tag and
is written by name only. -/
def ClassUnit.ofJson (v : Json) : Option ClassUnit := do
  match ← v.asTagged with
  | ("loaded", some v) => (ClassFile.ofJson v).map .loaded
  | ("corrupted", some v) =>
    let [name, reason] ← v.namedSlots ["name", "reason"] | none
    return .corrupted (← name.required Json.asText) (← reason.required Json.asText)
  | _ => none

namespace Batch

def toJson (b : Batch) : Json :=
  .record [("classes", .list ClassFile.toJson b.classes),
    ("corrupted", .list CorruptedClass.toJson b.corrupted),
    ("call_sites", .list CallSite.toJson b.callSites)]

def ofJson (v : Json) : Option Batch := do
  let [classes, corrupted, callSites] ← v.slots ["classes", "corrupted", "call_sites"] | none
  return ⟨← classes.withDefault [] (Json.asListOf ClassFile.ofJson),
    ← corrupted.withDefault [] (Json.asListOf CorruptedClass.ofJson),
    ← callSites.withDefault [] (Json.asListOf CallSite.ofJson)⟩

/-- The batch as a text, laid out by `print`. -/
def writeWith (print : Json → String) (b : Batch) : String := print b.toJson

/-- The batch that a text holds, once `parse` has made a value of it. -/
def readWith (parse : String → Option Json) (s : String) : Option Batch := (parse s).bind ofJson

/-- The batch that a text holds. -/
def ofText (s : String) : Option Batch := readWith Json.parse? s

/-- The batch as a text. -/
def toText (b : Batch) : String := b.writeWith Json.pretty

end Batch
end ClassNest
