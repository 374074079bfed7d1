import ClassNest.Proofs.Decisions
import ClassNest.Renaming.Convention
import ClassNest.Run

/-!
# A run once more

The first run over a batch asks the renaming policy and decides; the second finds all decisions taken. Only
the first pass of a run looks at them, and that pass is replayed step by step (`Intake.Replays`), so that
the two outcomes are the same to the last message.
-/
namespace ClassNest

/-- A pass over the units that says the same leads to the same outcome. -/
theorem Registry.reconstruct_of_replays {σ τ : Type} (reg : Registry) (settings : Settings) {p : Policy σ}
    {q : Policy τ} {n : Naming σ} {n' : Naming τ} {c : RenameCache} {t : τ} (sites : List CallSite)
    (h : Intake.Replays c t
      (.ofDecoded p settings.rename reg n (reg.units.filterMap (·.decodeFor settings.nested)))
      (.ofDecoded q settings.rename reg n' (reg.units.filterMap (·.decodeFor settings.nested)))) :
    reg.reconstruct settings q n' sites = ((reg.reconstruct settings p n sites).1, ⟨t, c⟩) := by
  simp only [reconstruct, h.index, h.log, h.failures, h.naming]

/-- A second run on the same batch, with the decisions that the first one left, has the same outcome: forest,
exception tables, failures and messages. It takes no decision and does not ask the policy: any other policy would do
in its place, whatever its state, and would be left in that state. -/
theorem run_again {σ : Type} (reg : Registry) (settings : Settings) (p : Policy σ) (n : Naming σ)
    (sites : List CallSite) (hv : settings.validate = .ok ()) :
    ∃ o n', reg.run settings p n sites = .ok (o, n') ∧ reg.run settings p n' sites = .ok (o, n') ∧
      ∀ {τ : Type} (q : Policy τ) (t : τ),
        reg.run settings q ⟨t, n'.cache⟩ sites = .ok (o, ⟨t, n'.cache⟩) := by
  have hagain : ∀ {τ : Type} (q : Policy τ) (t : τ),
      reg.reconstruct settings q ⟨t, (reg.reconstruct settings p n sites).2.cache⟩ sites =
        ((reg.reconstruct settings p n sites).1, ⟨t, (reg.reconstruct settings p n sites).2.cache⟩) :=
    fun q t => reg.reconstruct_of_replays settings sites (Intake.replays_ofDecoded n _ q t)
  unfold Registry.run
  rw [hv]
  exact ⟨_, _, rfl, congrArg Except.ok (hagain p _), fun q t => congrArg Except.ok (hagain q t)⟩

/-- Two classes that list the same nested class, the first under a reserved word and the second under a
name that could stay. -/
def renamedUnits : List ClassUnit :=
  [.loaded
    { name := "app/A", own := true
      pool := ⟨[.className "app/A", .className "app/N", .utf8 "do"]⟩
      innerClasses := [⟨2, 1, 3, .empty⟩] },
   .loaded
    { name := "app/B", own := true
      pool := ⟨[.className "app/B", .className "app/N", .utf8 "Node"]⟩
      innerClasses := [⟨2, 1, 3, .empty⟩] },
   .loaded { name := "app/N", own := true }]

theorem run_again_renamedUnits : ∃ o n',
    (Registry.ofUnits renamedUnits).run { rename := true } Convention.policy ⟨{}, {}⟩ [] = .ok (o, n') ∧
      (Registry.ofUnits renamedUnits).run { rename := true } Convention.policy n' [] = .ok (o, n') ∧
      ∀ {τ : Type} (q : Policy τ) (t : τ), (Registry.ofUnits renamedUnits).run { rename := true } q ⟨t, n'.cache⟩ [] =
        .ok (o, ⟨t, n'.cache⟩) :=
  run_again (Registry.ofUnits renamedUnits) { rename := true } Convention.policy ⟨{}, {}⟩ [] rfl

-- the first run does ask
example : (match (Registry.ofUnits renamedUnits).run { rename := true } Convention.policy ⟨{}, {}⟩ [] with
    | .ok (_, n) => n.cache.decisions
    | .error _ => []) = [("app/N", some "class_0")] := by decide +kernel

end ClassNest
