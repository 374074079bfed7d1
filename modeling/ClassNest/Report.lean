import ClassNest.Forest.Json
import ClassNest.Handlers.Index
import ClassNest.Nesting.Index
import ClassNest.Run
import ClassNest.Session

/-!
# Reports

What the parts of a run say about themselves, as JSON: faults and failures, diagnostics, exception tables, the
nesting index, and the place of a class in the forest.
-/
namespace ClassNest

/-! ## Faults -/

/-- A fault with everything that is known of it; of an unreadable text only the kind is known. -/
def Fault.report (f : Fault) : Json :=
  if f.cause.kind == .serialization then .record [("error", .str f.cause.kind.text)]
  else
    .record [("error", .str f.cause.kind.text), ("message", .str f.cause.message),
      ("unit", .opt .str f.unit), ("display", .str f.text), ("fatal", .bool f.cause.kind.endsUnit)]

def SettingsFault.report (f : SettingsFault) : Json :=
  match f with
  | .io | .yaml => .record [("error", .str f.label)]
  | _ =>
    .record [("error", .str f.label), ("message", .str f.message), ("display", .str ("[config] " ++ f.message))]

def Failure.report (f : Failure) : Json :=
  .record [("unit", .str f.unit), ("display", .str f.text), ("error", f.fault.report)]

def Log.report (log : Log) : Json :=
  .list (fun d => .record [("severity", .str d.severity.text), ("message", .str d.message)]) log

/-! ## Exception tables -/

def Handler.report (h : Handler) : Json :=
  .record [("start_line", .nat h.start.toNat), ("end_line", .nat h.stop.toNat),
    ("handler_line", .nat h.handler.toNat), ("exception_type", .opt .str h.type)]

def HandlerTable.report (t : HandlerTable) : Json := .list Handler.report t

def HandlerIndex.report (ix : HandlerIndex) : Json :=
  .record [("class", .str ix.owner), ("len", .nat ix.size), ("is_empty", .bool (ix.size == 0)),
    ("tables", .list (fun t => .array [.str t.1, HandlerTable.report t.2]) ix.tables)]

/-! ## Units and the nesting index -/

def ClassUnit.report : ClassUnit → Json
  | .loaded c => .strings [c.name, if c.own then "own" else "library"]
  | .corrupted name reason => .strings [name, "corrupted", reason]

def Registry.report (r : Registry) : Json := .list ClassUnit.report r.units

namespace NestingIndex

/-- The names that a report is about: those of the records, then the ones asked for. -/
def reportedNames (ix : NestingIndex) (asked : List String) : List String :=
  ((ix.records.flatMap fun r => [r.inner, r.enclosing]) ++ asked).foldl pushNew []

def reportName (ix : NestingIndex) (name : String) : Json :=
  .record [("name", .str name), ("is_nested", .bool (ix.isNested name)),
    ("nested", .strings (ix.nestedOf name)), ("enclosing", .strings (ix.enclosingOf name)),
    ("declared", .strings (ix.declaredBy name)), ("children", .strings (ix.childrenOf name))]

def report (ix : NestingIndex) (asked : List String) : Json :=
  .record [("records", .list NestedRecord.toJson ix.records), ("len", .nat ix.size),
    ("is_empty", .bool (ix.size == 0)), ("names", .list ix.reportName (ix.reportedNames asked))]

end NestingIndex

/-! ## The forest -/

/-- The members that tell where a class stands in the forest. -/
def Forest.place (f : Forest) (name : String) : List (String × Json) :=
  match (f.find? name).bind fun id => (f.node? id).map (id, ·) with
  | none => [("node", .null), ("root", .null)]
  | some (id, n) =>
    [("node", .nat id), ("root", .opt .nat (f.rootOf? name)), ("shown", .str ("#" ++ toString id)),
      ("display_name", .str n.displayName), ("kind", .str n.kind.text), ("parent", .opt .nat n.parent),
      ("children", .list .nat n.children), ("ancestors", .list .nat (f.ancestors id)),
      ("subtree", .list .nat (f.subtree id))]

/-! ## Settings and sessions -/

def Settings.report (s : Settings) : Json :=
  .record [("preset", .str s.preset.text), ("decompile_inner", .bool s.nested),
    ("rename_entities", .bool s.rename), ("enabled", .bool s.threads.enabled),
    ("num_threads", .opt .nat s.threads.count), ("effective_threads", .opt .nat s.threads.effective?),
    ("yaml", .str s.toText)]

end ClassNest
