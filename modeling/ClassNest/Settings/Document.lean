import ClassNest.Settings
import ClassNest.Yaml.Node

/-!
# Settings as a document

Settings are stored in a YAML mapping with a version, a preset, and overrides of single settings. Only known
keys may occur, each once. What is not given is taken from the preset. Faults are found in a fixed order: first the
shape of the document, then the version, the preset and last the number of threads.
-/
namespace ClassNest

/-! ## Values by type -/

namespace Yaml

/-- The words that stand for nothing. -/
def nullWords : List String := ["~", "null", "Null", "NULL"]

def asText : Yaml → Option String
  | .scalar _ _ _ text => some text
  | _ => none

/-- The text of a scalar that may stand for a value of another type: it is plain, or a literal block with the tag of
that type. -/
def asWord (type : String) : Yaml → Option String
  | .scalar _ tag style text =>
    if style == .plain || (style == .literal && tag == some type) then some text else none
  | _ => none

def asBool (v : Yaml) : Option Bool := do
  let s ← v.asWord boolTag
  if s == "true" || s == "True" || s == "TRUE" then some true
  else if s == "false" || s == "False" || s == "FALSE" then some false
  else none

/-- The value of a digit in bases up to sixteen. -/
def digitIn? (base : Nat) (c : Char) : Option Nat := (hexDigit? c).filter (· < base)

/-- The number with the given digits, of which there is at least one. -/
def natIn? (base : Nat) (cs : List Char) : Option Nat :=
  if cs.isEmpty then none
  else (cs.mapM (digitIn? base)).map (·.foldl (fun n d => n * base + d) 0)

/-- An integer from zero on: a plus may stand in front, `0x`, `0o` and `0b` change the base, and a decimal
number of several digits does not start with a zero. -/
def integer? (cs : List Char) : Option Nat :=
  match (match cs with
    | '+' :: rest => rest
    | _ => cs) with
  | '0' :: 'x' :: rest => natIn? 16 rest
  | '0' :: 'o' :: rest => natIn? 8 rest
  | '0' :: 'b' :: rest => natIn? 2 rest
  | ['0'] => some 0
  | '0' :: _ => none
  | digits => natIn? 10 digits

/-- An integer below `limit`. -/
def asNatBelow (limit : Nat) (v : Yaml) : Option Nat :=
  (v.asWord intTag).bind fun s => (integer? s.toList).filter (· < limit)

/-- Whether a value stands for nothing: a plain scalar that is empty or one of the words for it. One with a tag is
something, and must be one of the words if the tag says that it is nothing. -/
def isNull? : Yaml → Option Bool
  | .scalar _ none .plain text => some (text == "" || nullWords.contains text)
  | .scalar _ (some tag) .plain text =>
    if tag == nullTag then if nullWords.contains text then some true else none else some false
  | _ => some false

/-- The entries of a mapping with known keys only, each at most once, in the order of `keys`. A plain scalar without
characters is an empty mapping. -/
def fields? (root : Yaml) (keys : List String) : Yaml → Option (List (Option Yaml))
  | .mapping _ entries => do
    let entries ← entries.mapM fun e => do return (← (root.deref e.1).asText, root.deref e.2)
    let names := entries.map (·.1)
    if names.all keys.contains && keys.all (names.count · ≤ 1) then some (keys.map fun k => entries.lookup k)
    else none
  | .scalar _ _ .plain "" => some (keys.map fun _ => none)
  | _ => none

/-- A field that may be left out or stand for nothing. -/
def optional (f : Yaml → Option α) : Option Yaml → Option (Option α)
  | none => some none
  | some v => do if ← v.isNull? then some none else (f v).map some

end Yaml

/-! ## The document -/

/-- The settings that a document changes one by one. -/
structure Overrides where
  nested : Option Bool := none
  rename : Option Bool := none
  threads : Option Threads := none
deriving DecidableEq

/-- A settings document as it was written. -/
structure SettingsDocument where
  version : Option Nat := none
  preset : Option String := none
  overrides : Option Overrides := none
deriving DecidableEq

def Threads.ofYaml (root v : Yaml) : Option Threads := do
  let [enabled, count] ← root.fields? ["enabled", "num_threads"] v | none
  let enabled ← match enabled with
    | none => some true
    | some v => v.asBool
  let count ← Yaml.optional (Yaml.asNatBelow 0x10000000000000000) count
  return ⟨enabled, count⟩

def Overrides.ofYaml (root v : Yaml) : Option Overrides := do
  let [nested, rename, threads] ← root.fields? ["decompile_inner", "rename_entities", "parallel"] v | none
  return ⟨← Yaml.optional Yaml.asBool nested, ← Yaml.optional Yaml.asBool rename,
    ← Yaml.optional (Threads.ofYaml root) threads⟩

namespace SettingsDocument

/-- The settings document with this node at its top. -/
def ofYaml (root : Yaml) : Option SettingsDocument := do
  let [version, preset, overrides] ← root.fields? ["version", "preset", "overrides"] root | none
  return ⟨← Yaml.optional (Yaml.asNatBelow 0x100000000) version, ← Yaml.optional Yaml.asText preset,
    ← Yaml.optional (Overrides.ofYaml root) overrides⟩

/-- The only version there is. -/
def currentVersion : Nat := 1

def checkVersion (d : SettingsDocument) : Except SettingsFault Unit :=
  match d.version with
  | none => .error .missingVersion
  | some v => if v = currentVersion then .ok () else .error (.unsupportedVersion v)

def presetOf (d : SettingsDocument) : Except SettingsFault Preset :=
  match d.preset with
  | none => .ok .structured
  | some name => Preset.ofName name

end SettingsDocument

namespace Settings

/-- The settings with single ones changed. -/
def override (s : Settings) (o : Overrides) : Settings :=
  { s with
    nested := o.nested.getD s.nested
    rename := o.rename.getD s.rename
    threads := o.threads.getD s.threads }

/-- The settings that a document describes. -/
def ofDocument (d : SettingsDocument) : Except SettingsFault Settings := do
  d.checkVersion
  let preset ← d.presetOf
  let settings := (Settings.ofPreset preset).override (d.overrides.getD {})
  settings.validate
  return settings

/-- The settings that a text describes. -/
def ofText (s : String) : Except SettingsFault Settings :=
  match (Yaml.parse? s).bind SettingsDocument.ofYaml with
  | some d => ofDocument d
  | none => .error .yaml

def boolText (b : Bool) : String := if b then "true" else "false"

/-- The settings as a text, with every one of them given. -/
def toText (s : Settings) : String :=
  "version: " ++ toString SettingsDocument.currentVersion ++ "\npreset: " ++ s.preset.text ++
    "\noverrides:\n  decompile_inner: " ++ boolText s.nested ++ "\n  rename_entities: " ++ boolText s.rename ++
    "\n  parallel:\n    enabled: " ++ boolText s.threads.enabled ++ "\n" ++
    match s.threads.count with
    | some n => "    num_threads: " ++ toString n ++ "\n"
    | none => ""

end Settings
end ClassNest
