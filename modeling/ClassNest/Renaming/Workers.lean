import ClassNest.Renaming.Cache

/-!
# Workers that share the decisions

Several workers may resolve names against the same decisions. A call then takes two steps: it reads the decision
about its class, and if there is none and renaming is on it goes on to take one, unless there is one by now. Each of
the two steps is atomic, the policy being asked within the second; between them other workers may take steps of their own.

A schedule says which worker is next. What the policies are asked is recorded along the way.
-/
namespace ClassNest

/-! ## Questions to policies -/

/-- A question to a policy on behalf of a class, with the answer. -/
inductive Question where
  | shouldRename (key name : String) (answer : Bool)
  | nextClassName (key name answer : String)
deriving DecidableEq

/-- The class that the question is about. -/
def Question.key : Question → String
  | .shouldRename key .. => key
  | .nextClassName key .. => key

/-- The policy with a record of its questions, which are about the class `key`. -/
def Policy.recorded (p : Policy σ) (key : String) : Policy (σ × List Question) where
  shouldRename kind name s :=
    let asked := p.shouldRename kind name s.1
    (asked.1, asked.2, s.2 ++ [.shouldRename key name asked.1])
  nextClassName key name s :=
    let fresh := p.nextClassName key name s.1
    (fresh.1, fresh.2, s.2 ++ [.nextClassName key name fresh.1])

/-- Takes a decision about a class unless there is one. -/
def Naming.settle (p : Policy σ) (n : Naming σ) (key name : String) : Option String × Naming σ :=
  match n.cache.decision? key with
  | some decision => (decision, n)
  | none => n.decide p key name

/-! ## Workers -/

/-- A name to resolve. Each call may bring a policy of its own; what policies remember is part of one state. -/
structure Call (σ : Type) where
  policy : Policy σ
  enabled : Bool
  key : String
  name : String

structure Worker (σ : Type) where
  /-- the calls that have no reply yet, the current one first -/
  calls : List (Call σ)
  /-- the current call has found no decision and will take one -/
  missed : Bool := false

/-- The simple name that a call was given. -/
structure Reply (σ : Type) where
  worker : Nat
  call : Call σ
  name : String

/-- Workers with the decisions they share, and the replies so far. -/
structure Crew (σ : Type) where
  naming : Naming (σ × List Question)
  workers : List (Worker σ)
  replies : List (Reply σ) := []

namespace Crew

/-- Workers that have not begun with their calls. -/
def start (cache : RenameCache) (names : σ) (programs : List (List (Call σ))) : Crew σ where
  naming := ⟨(names, []), cache⟩
  workers := programs.map fun calls => { calls := calls }

/-- What was asked about a class. -/
def asked (s : Crew σ) (key : String) : List Question := s.naming.names.2.filter (·.key == key)

/-- Worker `i` gets the reply to its current call and goes on to the next. -/
def reply (s : Crew σ) (i : Nat) (c : Call σ) (calls : List (Call σ)) (name : String) : Crew σ :=
  { s with
    workers := s.workers.set i { calls := calls }
    replies := s.replies ++ [⟨i, c, name⟩] }

/-- The next step of worker `i`. Without a call it lets its turn pass. -/
def turn (s : Crew σ) (i : Nat) : Crew σ :=
  match s.workers[i]? with
  | some ⟨c :: calls, false⟩ =>
    match s.naming.cache.decision? c.key with
    | some decision => s.reply i c calls (decision.getD c.name)
    | none =>
      if c.enabled then { s with workers := s.workers.set i ⟨c :: calls, true⟩ }
      else s.reply i c calls c.name
  | some ⟨c :: calls, true⟩ =>
    let settled := s.naming.settle (c.policy.recorded c.key) c.key c.name
    { s with naming := settled.2 }.reply i c calls (settled.1.getD c.name)
  | _ => s

/-- Steps of the workers in the order of the schedule. -/
def run (s : Crew σ) (schedule : List Nat) : Crew σ := schedule.foldl turn s

end Crew
end ClassNest
