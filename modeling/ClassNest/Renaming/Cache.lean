import ClassNest.Renaming.Policy

/-!
# Renaming decisions

The decisions taken so far, by the full name of the class. A decision is final: once a class has one the
policy is not asked about it again, whatever simple name comes with it.
-/
namespace ClassNest

/-- The decisions by class, first decided first; `none` when the policy kept the name. -/
structure RenameCache where
  decisions : List (String × Option String) := []
deriving DecidableEq, Inhabited

/-- How many decisions there are, and how many of them replace a name. -/
structure RenameStats where
  decisions : Nat
  renamed : Nat
deriving DecidableEq

namespace RenameCache

/-- The decision for this class. -/
def decision? (c : RenameCache) (key : String) : Option (Option String) := c.decisions.lookup key

/-- The replacement that was decided for this class. -/
def renamed? (c : RenameCache) (key : String) : Option String := (c.decision? key).join

def size (c : RenameCache) : Nat := c.decisions.length

def stats (c : RenameCache) : RenameStats :=
  ⟨c.size, (c.decisions.filter (·.2.isSome)).length⟩

end RenameCache

/-- The decisions together with the state of the policy that takes them. -/
structure Naming (σ : Type) where
  names : σ
  cache : RenameCache := {}

namespace Naming

/-- Asks the policy about a class without a decision and records its answer. -/
def decide (p : Policy σ) (n : Naming σ) (key name : String) : Option String × Naming σ :=
  let asked := p.shouldRename .class name n.names
  let answer : Option String × σ :=
    if asked.1 then
      let fresh := p.nextClassName key name asked.2
      (some fresh.1, fresh.2)
    else (none, asked.2)
  (answer.1, ⟨answer.2, ⟨n.cache.decisions ++ [(key, answer.1)]⟩⟩)

/-- The simple name to show for a class. A decision always counts; without one the policy is asked
if renaming is on, and otherwise the name stays and nothing is recorded. -/
def resolve (p : Policy σ) (enabled : Bool) (n : Naming σ) (key name : String) : String × Naming σ :=
  match n.cache.decision? key with
  | some decision => (decision.getD name, n)
  | none =>
    if enabled then
      let decided := n.decide p key name
      (decided.1.getD name, decided.2)
    else (name, n)

end Naming
end ClassNest
