/-!
# Diagnostics

What a run has to say besides its result: messages of three severities, in the order in which they
were written.
-/
namespace ClassNest

inductive Severity where
  | info | warn | error
deriving DecidableEq

namespace Severity

def text : Severity → String
  | .info => "info"
  | .warn => "warn"
  | .error => "error"

/-- The severity with the given name. -/
def ofText? (s : String) : Option Severity := [info, warn, error].find? (·.text == s)

end Severity

structure Diagnostic where
  severity : Severity
  message : String
deriving DecidableEq

/-- Messages, first written first. -/
abbrev Log := List Diagnostic

/-- The log of one warning. -/
def warning (message : String) : Log := [⟨.warn, message⟩]

/-- The log of one error. -/
def errorLine (message : String) : Log := [⟨.error, message⟩]

/-- `needle` occurs in `s` as a run of characters. -/
def occursIn (needle : List Char) : List Char → Bool
  | [] => needle.isEmpty
  | c :: cs => needle.isPrefixOf (c :: cs) || occursIn needle cs

namespace Log

def count (log : Log) (severity : Severity) : Nat :=
  (log.filter (·.severity == severity)).length

/-- Some message of this severity contains `needle`. -/
def mentions (log : Log) (severity : Severity) (needle : String) : Bool :=
  log.any fun d => d.severity == severity && occursIn needle.toList d.message.toList

end Log
end ClassNest
