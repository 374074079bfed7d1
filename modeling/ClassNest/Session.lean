import ClassNest.Renaming.Convention
import ClassNest.Run
import ClassNest.Settings.Document

/-!
# Sessions

What several runs have in common: settings, a renaming policy with its state, the decisions it has
taken, and the messages so far. Sessions may hand their decisions to one another.
-/
namespace ClassNest

structure Session (σ : Type) where
  settings : Settings
  policy : Policy σ
  naming : Naming σ
  log : Log := []

namespace Session

/-- A session that renames by convention. -/
def new (settings : Settings) : Session Convention.Names where
  settings := settings
  policy := Convention.policy
  naming := { names := {} }

def write (s : Session σ) (severity : Severity) (message : String) : Session σ :=
  { s with log := s.log ++ [⟨severity, message⟩] }

/-- The simple name to show for a class. -/
def resolve (s : Session σ) (key name : String) : String × Session σ :=
  let r := s.naming.resolve s.policy s.settings.rename key name
  (r.1, { s with naming := r.2 })

/-- A run of a batch, whose messages are added to those of the session. -/
def run (s : Session σ) (b : Batch) : Except Fault (Outcome × Session σ) :=
  (b.run s.settings s.policy s.naming).map fun r =>
    (r.1, { s with naming := r.2, log := s.log ++ r.1.log })

/-- The session in one line. -/
def shown (s : Session σ) : String :=
  let t := s.settings
  let stats := s.naming.cache.stats
  "DecompileSession \x7b config: DecompileConfig \x7b preset: " ++ presetShown t.preset ++
    ", decompile_inner: " ++ Settings.boolText t.nested ++ ", rename_entities: " ++ Settings.boolText t.rename ++
    ", parallel: ParallelConfig \x7b enabled: " ++ Settings.boolText t.threads.enabled ++ ", num_threads: " ++
    countShown t.threads.count ++ " \x7d \x7d, rename_cache: RenameCacheStats \x7b decisions: " ++
    toString stats.decisions ++ ", renamed: " ++ toString stats.renamed ++ " \x7d \x7d"
where
  presetShown : Preset → String
    | .structured => "Structure"
    | .renaming => "Renaming"
    | .flat => "Flat"
  countShown : Option Nat → String
    | none => "None"
    | some n => "Some(" ++ toString n ++ ")"

end Session
end ClassNest
