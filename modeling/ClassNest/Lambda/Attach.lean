import ClassNest.Diagnostic
import ClassNest.Forest.Change
import ClassNest.Registry

/-!
# Lambda nodes

A call site becomes a lambda node below the class that declares it. It is a real lambda only if its content is
a synthetic method of that same class; everything else is a method reference. The call sites of one unit are
all described before the first of them is attached, so that a bad one leaves the forest as it was. An arena
that gets full in the middle keeps the lambdas that it has by then.
-/
namespace ClassNest

/-- What can be said about a call site, and the warnings on the way. -/
def CallSite.describe (reg : Registry) (s : CallSite) : Except Fault LambdaInfo × Log :=
  match InvocationKind.ofCode s.invocationKind with
  | .error fault => (.error (fault.inUnit s.declaringClass), [])
  | .ok kind =>
    if s.contentClass != s.declaringClass then (.ok (.ofSite s kind true), [])
    else
      match (reg.class? s.declaringClass).bind (·.method? s.contentMethod s.contentDescriptor) with
      | some m => (.ok (.ofSite s kind (!m.isSynthetic)), [])
      | none =>
        (.ok (.ofSite s kind true),
          warning ("Lambda content method " ++ s.contentMethod ++ " " ++ s.contentDescriptor ++
            " not found in " ++ s.declaringClass ++ ", treating as method reference"))

/-- The descriptions of all sites, or the first fault; warnings up to there. -/
def describeAll (reg : Registry) : List CallSite → Except Fault (List LambdaInfo) × Log
  | [] => (.ok [], [])
  | s :: ss =>
    match s.describe reg with
    | (.error fault, log) => (.error fault, log)
    | (.ok info, log) =>
      let rest := describeAll reg ss
      (rest.1.map (info :: ·), log ++ rest.2)

namespace Forest

/-- Attaches a described lambda below its class; without a node for the class it is skipped. -/
def addLambda (f : Forest) (info : LambdaInfo) : Step Forest (Option NodeId) :=
  match f.find? info.declaringClass with
  | some parent => (f.perform (.attach parent (.ofLambda info))).map some
  | none =>
    ⟨f, .ok none, warning ("No class node for " ++ info.declaringClass ++ ", lambda " ++
      info.contentMethodKey ++ " skipped")⟩

/-- Attaches described lambdas in order, up to the first that cannot be attached, and gives the ids of the new nodes. -/
def addLambdas (f : Forest) : List LambdaInfo → Step Forest (List NodeId)
  | [] => ⟨f, .ok [], []⟩
  | info :: infos => (f.addLambda info).andThen fun f id => (f.addLambdas infos).map (id.toList ++ ·)

/-- Attaches the lambda of one call site. -/
def attachOne (f : Forest) (reg : Registry) (s : CallSite) : Step Forest (Option NodeId) :=
  let described := s.describe reg
  Step.andThen ⟨f, described.1, described.2⟩ fun f info => f.addLambda info

/-- Describes all call sites, and then attaches their lambdas. -/
def attachAll (f : Forest) (reg : Registry) (ss : List CallSite) : Step Forest (List NodeId) :=
  let described := describeAll reg ss
  Step.andThen ⟨f, described.1, described.2⟩ fun f infos => f.addLambdas infos

/-- The forest with the lambda of one call site, for a caller that keeps the old one if this fails. -/
def attachSite (f : Forest) (reg : Registry) (s : CallSite) : Except Fault (Forest × Option NodeId) × Log :=
  ((f.attachOne reg s).result, (f.attachOne reg s).log)

/-- The forest with the lambdas of all call sites, for a caller that keeps the old one if this fails. -/
def attachSites (f : Forest) (reg : Registry) (ss : List CallSite) : Except Fault (Forest × List NodeId) × Log :=
  ((f.attachAll reg ss).result, (f.attachAll reg ss).log)

end Forest
end ClassNest
