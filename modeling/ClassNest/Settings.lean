import ClassNest.Fault

/-!
# Settings

The settings of one run. A preset fixes the defaults; each setting can then be changed on its own. Threads are
a matter of resources alone and never change a result; their number only has to be in range.
-/
namespace ClassNest

inductive Preset where
  /-- rebuild the forest, keep the names -/
  | structured
  /-- rebuild the forest, rename where the policy says so -/
  | renaming
  /-- every class heads a tree of its own -/
  | flat
deriving DecidableEq, Inhabited

namespace Preset

def text : Preset → String
  | .structured => "structure"
  | .renaming => "renaming"
  | .flat => "flat"

/-- The preset with the given name, in upper or lower case. No letter outside ASCII has an ASCII letter of
these names as its lower case. -/
def ofName (name : String) : Except SettingsFault Preset :=
  let lower := String.ofList (name.toList.map Char.toLower)
  match [Preset.structured, .renaming, .flat].find? (·.text == lower) with
  | some preset => .ok preset
  | none => .error (.unknownPreset name)

end Preset

/-- How a run may use threads. -/
structure Threads where
  enabled : Bool := true
  /-- a number of its own, or `none` for the common pool -/
  count : Option Nat := none
deriving DecidableEq, Inhabited

namespace Threads

def validate (t : Threads) : Except SettingsFault Unit :=
  match t.count with
  | some n => if 1 ≤ n ∧ n ≤ maxThreads then .ok () else .error (.threads n)
  | none => .ok ()

/-- The number of threads in use, where it does not hang on the machine. -/
def effective? (t : Threads) : Option Nat :=
  if t.enabled then t.count.map (max 1) else some 1

end Threads

structure Settings where
  preset : Preset := .structured
  /-- nested classes are placed below the classes that enclose them -/
  nested : Bool := true
  /-- simple names go through the renaming policy -/
  rename : Bool := false
  threads : Threads := {}
deriving DecidableEq, Inhabited

namespace Settings

/-- The defaults of a preset. -/
def ofPreset (p : Preset) : Settings where
  preset := p
  nested := p != .flat
  rename := p == .renaming

def validate (s : Settings) : Except SettingsFault Unit := s.threads.validate

end Settings
end ClassNest
