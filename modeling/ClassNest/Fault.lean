import ClassNest.ClassFile

/-!
# Faults

Everything that can go wrong, by cause. A cause fixes the kind of the fault and its message; a fault may
also name the unit, a class, whose reconstruction it ended. Only malformed attributes, corrupted classes
and unusable call sites end a single unit; the other kinds concern the run as a whole.
-/
namespace ClassNest

inductive FaultKind where
  | malformedAttribute | corruptedClass | invalidCallSite | config | io | serialization | internal
deriving DecidableEq

namespace FaultKind

def text : FaultKind → String
  | .malformedAttribute => "malformed_attribute"
  | .corruptedClass => "corrupted_class"
  | .invalidCallSite => "invalid_call_site"
  | .config => "config"
  | .io => "io"
  | .serialization => "serialization"
  | .internal => "internal"

def all : List FaultKind :=
  [.malformedAttribute, .corruptedClass, .invalidCallSite, .config, .io, .serialization, .internal]

/-- The kind with the given name. -/
def ofText? (s : String) : Option FaultKind := all.find? (·.text == s)

/-- A fault of this kind ends one unit and leaves the others alone. -/
def endsUnit : FaultKind → Bool
  | .malformedAttribute | .corruptedClass | .invalidCallSite => true
  | _ => false

end FaultKind

/-! ## Settings -/

/-- What is wrong with the settings of a run. -/
inductive SettingsFault where
  | threads (count : Nat)
  | missingVersion
  | unsupportedVersion (found : Nat)
  | unknownPreset (name : String)
  | io
  | yaml
deriving DecidableEq

/-- The most threads that may be asked for. -/
def maxThreads : Nat := 1024

def SettingsFault.message : SettingsFault → String
  | .threads count =>
    "Invalid range for field 'parallel.num_threads': " ++ toString count ++ " not in 1..=" ++
      toString maxThreads ++ ". Omit the field to use the global rayon pool"
  | .missingVersion =>
    "Missing 'version' field in configuration file. Add 'version: 1' to the top of your YAML file."
  | .unsupportedVersion found =>
    "Unsupported configuration version " ++ toString found ++ ". Supported versions: 1"
  | .unknownPreset name =>
    "Unknown preset '" ++ name ++ "'. Valid presets: structure, renaming, flat"
  | .io => "IO error"
  | .yaml => "YAML parsing error"

/-- A short name for the fault. -/
def SettingsFault.label : SettingsFault → String
  | .threads _ => "range"
  | .missingVersion => "missing_version"
  | .unsupportedVersion _ => "unsupported_version"
  | .unknownPreset _ => "unknown_preset"
  | .io => "io"
  | .yaml => "yaml"

/-! ## Exception tables -/

/-- Why an exception table cannot be decoded; the position is that of the entry at fault. -/
inductive HandlerFault where
  | range (position : Nat) (start stop : UInt32)
  | type (position : Nat) (fault : PoolFault)
deriving DecidableEq

def HandlerFault.message : HandlerFault → String
  | .range position start stop =>
    "exception entry " ++ toString position ++ ": start " ++ toString start.toNat ++ " after end " ++
      toString stop.toNat
  | .type position fault => "exception entry " ++ toString position ++ ": " ++ fault.message

/-! ## Causes and faults -/

inductive Cause where
  | pool (fault : PoolFault)
  | innerEntry (position : Nat) (fault : PoolFault)
  | handlers (fault : HandlerFault)
  | methodHandlers (key : String) (fault : HandlerFault)
  | corrupted (reason : String)
  | referenceKind (code : UInt8)
  | settings (fault : SettingsFault)
  | unknownParent (id : Nat)
  | fullArena
  /-- reported from outside, with or without an error underneath -/
  | reported (kind : FaultKind) (message : String) (underlying : Bool)
deriving DecidableEq

namespace Cause

def kind : Cause → FaultKind
  | .pool _ | .innerEntry .. | .handlers _ | .methodHandlers .. => .malformedAttribute
  | .corrupted _ => .corruptedClass
  | .referenceKind _ => .invalidCallSite
  | .settings _ => .config
  | .unknownParent _ | .fullArena => .internal
  | .reported kind .. => kind

def message : Cause → String
  | .pool fault => fault.message
  | .innerEntry position fault => "InnerClasses entry " ++ toString position ++ ": " ++ fault.message
  | .handlers fault => fault.message
  | .methodHandlers key fault => "method " ++ key ++ ": " ++ fault.message
  | .corrupted reason => "Corrupted class file: " ++ reason
  | .referenceKind code => "invalid method handle reference kind " ++ toString code.toNat
  | .settings fault => fault.message
  | .unknownParent id => "attach under unknown node #" ++ toString id
  | .fullArena => "class forest arena is full"
  | .reported _ message _ => message

/-- Another error stands behind this one. -/
def hasUnderlying : Cause → Bool
  | .settings _ => true
  | .reported _ _ underlying => underlying
  | _ => false

end Cause

/-- A cause, and the unit that it ended if that is known. -/
structure Fault where
  cause : Cause
  unit : Option String := none
deriving DecidableEq

namespace Fault

/-- The fault as one line. -/
def text (f : Fault) : String :=
  "[" ++ f.cause.kind.text ++ "] " ++ f.cause.message ++
    match f.unit with
    | none => ""
    | some u => " in " ++ u

/-- The fault with the unit it ended. -/
def inUnit (f : Fault) (u : String) : Fault := { f with unit := some u }

/-- The fault with a unit, unless it has one already. -/
def inUnitOr (f : Fault) (u : String) : Fault := { f with unit := some (f.unit.getD u) }

end Fault

/-- A unit that was left out, and why. -/
structure Failure where
  unit : String
  fault : Fault
deriving DecidableEq

def Failure.text (f : Failure) : String := f.unit ++ ": " ++ f.fault.text

end ClassNest
