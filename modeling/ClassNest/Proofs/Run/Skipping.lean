import ClassNest.Proofs.Planting

/-!
# Failed roots leave no trace

Two runs side by side: one tries every root, the other skips from the start those that fail in the
first. After every root the two have the same trees, the same visits and the same call sites in use
(`Planting.Same`). Where a root stands both take the same step, because the roots that are skipped
are below no class, so that no visit can tell the two grounds apart, and both find the same room in the
arena. Where a root fails the first run is back where it was, and the second has not moved.
-/
namespace ClassNest

/-- The same ground with more classes to skip. -/
def Ground.skipping (g : Ground) (names : List String) : Ground :=
  { g with skipped := g.skipped ++ names }

theorem Ground.Sound.skipping {g : Ground} (hg : g.Sound) (names : List String) :
    (g.skipping names).Sound :=
  ⟨hg.registry, hg.index⟩

theorem Ground.rootClasses_skipping (g : Ground) (names : List String) :
    (g.skipping names).rootClasses = g.rootClasses.filter fun c => !names.contains c.name := by
  unfold rootClasses skipping
  rw [List.filter_filter]
  apply List.filter_congr
  intro c _
  cases hg : g.skipped.contains c.name <;> cases hn : names.contains c.name <;> simp_all

theorem Ground.nodeOf?_skipping (g : Ground) (names : List String) (a : String) :
    (g.skipping names).nodeOf? a = if a ∈ names then none else g.nodeOf? a := by
  have hskip : (g.skipping names).skipped.contains a = (g.skipped.contains a || decide (a ∈ names)) := by
    simp [skipping]
  have hmade : (g.skipping names).materialize = g.materialize := rfl
  unfold nodeOf?
  rw [hskip, hmade]
  by_cases ha : a ∈ names
  · simp [ha]
  · simp [ha, skipping]

/-! ## Growing on either ground -/

namespace Growth
variable {g : Ground} {names : List String} {s t : Growth}

/-- The trees and the visits are the same, whatever was forgotten on the way. -/
structure Same (s t : Growth) : Prop where
  forest : t.forest = s.forest
  visits : t.visits = s.visits

theorem Same.perform {α : Type} (h : Same s t) (a : Forest.Change α) :
    Step.Alike Same (s.perform a) (t.perform a) := by
  unfold Growth.perform
  rw [h.forest]
  exact ⟨⟨rfl, h.visits⟩, rfl⟩

theorem Same.settle (h : Same s t) (parent : NodeId) (name : String) (n : Option Node) :
    Step.Alike Same (s.settle parent name n) (t.settle parent name n) := by
  have hpass : Same (s.pass name) (t.pass name) := ⟨h.forest, congrArg (· ++ [name]) h.visits⟩
  cases n with
  | none => exact ⟨hpass, rfl⟩
  | some n => exact (hpass.perform _).map _

theorem Same.visit (h : Same s t) {name : String} (hn : name ∉ names) (parent : NodeId) :
    Step.Alike Same (s.visit g parent name) (t.visit (g.skipping names) parent name) := by
  by_cases hv : name ∈ s.visits
  · have hv' : name ∈ t.visits := h.visits ▸ hv
    rw [visit_of_mem hv, visit_of_mem hv']
    exact ⟨h, rfl⟩
  · have hv' : name ∉ t.visits := h.visits ▸ hv
    obtain ⟨hstate, hanswer⟩ := visit_eq_settle (g := g) hv parent
    obtain ⟨hstate', hanswer'⟩ := visit_eq_settle (g := g.skipping names) hv' parent
    rw [Ground.nodeOf?_skipping, if_neg hn] at hstate' hanswer'
    have hstep := h.settle parent name (g.nodeOf? name)
    exact ⟨by rw [hstate, hstate']; exact hstep.state, by rw [hanswer, hanswer']; exact hstep.answer⟩

theorem Same.visitAll (parent : NodeId) : ∀ (below : List String) {s t : Growth}, Same s t →
    (∀ a ∈ below, a ∉ names) → Step.Alike Same (s.visitAll g parent below) (t.visitAll (g.skipping names) parent below)
  | [], _, _, h, _ => ⟨h, rfl⟩
  | name :: below, _, _, h, hn =>
    have hone := h.visit (g := g) (hn name (by simp)) parent
    hone.andThen fun _ => (Same.visitAll parent below hone.state fun a ha => hn a (by simp [ha])).map _

theorem Same.spread (hn : ∀ e, ∀ a ∈ g.index.childrenOf e, a ∉ names) :
    ∀ (rounds : Nat) (queue : List (NodeId × String)) {s t : Growth}, Same s t →
      Step.Alike Same (s.spread g rounds queue) (t.spread (g.skipping names) rounds queue)
  | 0, _, _, _, h => ⟨h, rfl⟩
  | _ + 1, [], _, _, h => ⟨h, rfl⟩
  | rounds + 1, (id, name) :: _, _, _, h =>
    have hround := h.visitAll (g := g) id (g.index.childrenOf name) (hn name)
    hround.andThen fun _ => Same.spread hn rounds _ hround.state

/-- A tree grows in the same way, whatever is skipped that is below no class. -/
theorem Same.grow (hn : ∀ a ∈ names, ∀ e, a ∉ g.below e) (h : Same s t) (c : ClassFile) :
    Step.Alike Same (s.grow g c) (t.grow (g.skipping names) c) := by
  have hroot := h.perform (.addRoot (.ofClass c))
  refine hroot.andThen fun root => ?_
  have hvisited : ∀ {s t : Growth}, Same s t →
      Same { s with visits := pushNew s.visits c.name } { t with visits := pushNew t.visits c.name } :=
    fun h => ⟨h.forest, congrArg (pushNew · c.name) h.visits⟩
  have hnested : (g.skipping names).nested = g.nested := rfl
  simp only [hnested]
  by_cases hg : g.nested = true
  · rw [if_pos hg, if_pos hg]
    refine ((hvisited hroot.state).spread (fun e a ha hm => hn a hm e ?_) _ _).map _
    unfold Ground.below
    rw [if_pos hg]
    exact ha
  · rw [if_neg hg, if_neg hg]
    exact ⟨hvisited hroot.state, rfl⟩

end Growth

/-! ## Planting on either ground -/

namespace Planting

/-- The trees, the visits and the call sites in use are the same. -/
structure Same (s t : Planting) : Prop where
  growth : s.growth.Same t.growth
  claimed : t.claimed = s.claimed

section
variable {g : Ground} {names : List String} {sites : List CallSite} {s t : Planting} {c : ClassFile}

/-- The next tree, its claims and its lambdas are the same. -/
theorem Same.raise (h : Same s t) (hb : ∀ a ∈ names, ∀ e, a ∉ g.below e) (sites : List CallSite)
    (c : ClassFile) : Step.Alike Growth.Same (s.raise g sites c) (t.raise (g.skipping names) sites c) := by
  have htree := h.growth.grow hb c
  refine htree.andThen fun root => ?_
  have hregistry : (g.skipping names).registry = g.registry := rfl
  rw [htree.state.forest, h.claimed, hregistry]
  exact ⟨⟨rfl, htree.state.visits⟩, rfl⟩

/-- A root that stands in the one run stands in the other. -/
theorem Same.plant (h : Same s t) (hb : ∀ a ∈ names, ∀ e, a ∉ g.below e) {claimed : List String}
    (hok : (s.raise g sites c).answer = .ok claimed) :
    Same (s.plant g sites c) (t.plant (g.skipping names) sites c) ∧
      (t.plant (g.skipping names) sites c).failures = t.failures := by
  have hraise := h.raise hb sites c
  rw [plant_of_ok hok, plant_of_ok (hraise.answer.trans hok)]
  exact ⟨⟨hraise.state, congrArg (· ++ claimed) h.claimed⟩, rfl⟩

/-- Both runs, root after root: the second passes over the roots that fail in the first. -/
theorem foldl_plant_skipping (hg : g.Sound) (hb : ∀ a ∈ names, ∀ e, a ∉ g.below e) :
    ∀ (cs : List ClassFile) {s t : Planting} {failed : List Failure}, Ready g sites cs s → Same s t →
      (cs.foldl (plant g sites) s).failures = s.failures ++ failed →
      (∀ c ∈ cs, c.name ∈ names ↔ c.name ∈ failed.map (·.unit)) →
      Same (cs.foldl (plant g sites) s)
          ((cs.filter fun c => !names.contains c.name).foldl (plant (g.skipping names) sites) t) ∧
        ((cs.filter fun c => !names.contains c.name).foldl (plant (g.skipping names) sites) t).failures = t.failures
  | [], s, t, failed, _, hst, _, _ => ⟨hst, rfl⟩
  | c :: cs, s, t, failed, h, hst, hf, hn => by
    have hc := h.roots c (by simp)
    have hcv := h.fresh c (by simp)
    have hnot : c.name ∉ cs.map (·.name) := (List.nodup_cons.mp h.nodup).1
    obtain ⟨_, later, hlater, hsub, _⟩ := foldl_plant hg cs (h.plant hg)
    rw [List.foldl_cons] at hf ⊢
    rw [hlater] at hf
    cases hl : (s.raise g sites c).answer with
    | ok claimed =>
      -- the failures are those of the roots after `c`, so `c` is not skipped
      rw [plant_of_ok hl] at hf
      have hfl : later = failed := List.append_cancel_left hf
      subst hfl
      have hkeep : c.name ∉ names := fun hm => hnot (hsub.subset ((hn c (by simp)).mp hm))
      obtain ⟨hsame, hfail⟩ := hst.plant hb hl
      obtain ⟨h1, h2⟩ := foldl_plant_skipping hg hb cs (h.plant hg) hsame hlater fun d hd => hn d (by simp [hd])
      rw [List.filter_cons_of_pos (by simpa using hkeep), List.foldl_cons]
      exact ⟨h1, h2.trans hfail⟩
    | error fault =>
      -- the first run is back where it was before `c`, and `c` is skipped
      have he := h.settled.plant_failed hc hcv hl
      have hfl : ⟨c.name, fault.inUnitOr c.name⟩ :: later = failed := by
        rw [he, List.append_assoc] at hf
        exact List.append_cancel_left hf
      subst hfl
      have hsame : Same (s.plant g sites c) t := by
        rw [he]; exact ⟨⟨hst.growth.forest, hst.growth.visits⟩, hst.claimed⟩
      have hskip : c.name ∈ names := (hn c (by simp)).mpr (by simp)
      rw [List.filter_cons_of_neg (by simpa using hskip)]
      refine foldl_plant_skipping hg hb cs (h.plant hg) hsame hlater fun d hd => ?_
      have hne : d.name ≠ c.name := fun e => hnot (e ▸ List.mem_map_of_mem hd)
      rw [hn d (by simp [hd]), List.map_cons, List.mem_cons]
      exact or_iff_right hne

/-- All trees, with the roots that fail and without them. -/
theorem plantAll_skipping (hg : g.Sound) {failures failed : List Failure}
    (hf : (plantAll g sites { failures := failures }).failures = failures ++ failed) (failures' : List Failure) :
    Same (plantAll g sites { failures := failures })
        (plantAll (g.skipping (failed.map (·.unit))) sites { failures := failures' }) ∧
      (plantAll (g.skipping (failed.map (·.unit))) sites { failures := failures' }).failures = failures' := by
  obtain ⟨_, failed', hf', hsub, _⟩ := plantAll_spec hg sites failures
  have hfl : failed' = failed := List.append_cancel_left (hf'.symm.trans hf)
  subst hfl
  have hb : ∀ a ∈ failed'.map (·.unit), ∀ e, a ∉ g.below e := by
    intro a ha e
    obtain ⟨c, hc, rfl⟩ := List.mem_map.mp (hsub.subset ha)
    exact hg.not_mem_below hc e
  unfold plantAll
  rw [Ground.rootClasses_skipping]
  exact foldl_plant_skipping hg hb g.rootClasses (Ready.start hg sites failures) ⟨⟨rfl, rfl⟩, rfl⟩ hf
    fun _ _ => Iff.rfl

end
end Planting

/-! ## The forest without the failed roots -/

/-- The roots that fail while the trees are planted, after the given failures. -/
def Ground.failedRoots (g : Ground) (sites : List CallSite) (failures : List Failure) : List String :=
  ((Planting.plantAll g sites { failures := failures }).failures.drop failures.length).map (·.unit)

/-- Skipping from the start the roots that fail, no root fails, and the forest is the same to the
last link: nodes, roots, names and the classes that are left out. -/
theorem skipping_failed_roots {σ : Type} (us : List ClassUnit) (p : Policy σ) (rename : Bool)
    (n : Naming σ) (nested : Bool) (skipped : List String) (sites : List CallSite)
    (failures failures' : List Failure) :
    let reg := Registry.ofUnits us
    let g : Ground := ⟨reg, (reg.normalize p rename n).index, nested, skipped⟩
    let failed := g.failedRoots sites failures
    (Planting.plantAll g sites { failures := failures }).failures.map (·.unit) =
        failures.map (·.unit) ++ failed ∧
      (g.skipping failed).failedRoots sites failures' = [] ∧
      ((g.skipping failed).plantForest sites failures').forest = (g.plantForest sites failures).forest := by
  intro reg g failed
  have hg : g.Sound := ⟨Registry.distinct_ofUnits us, Intake.sound_ofDecoded p rename reg n _⟩
  obtain ⟨_, late, hlate, _⟩ := Planting.plantAll_spec hg sites failures
  have hfailed : failed = late.map (·.unit) := by
    show ((Planting.plantAll g sites { failures := failures }).failures.drop failures.length).map (·.unit) = _
    rw [hlate, List.drop_left]
  obtain ⟨hsame, hnone⟩ := Planting.plantAll_skipping hg hlate failures'
  rw [← hfailed] at hsame hnone
  refine ⟨by rw [hlate, List.map_append, hfailed], ?_, ?_⟩
  · unfold Ground.failedRoots
    rw [hnone, List.drop_length]
    rfl
  · rw [(Ground.plantForest_spec hg sites failures).1,
      (Ground.plantForest_spec (hg.skipping failed) sites failures').1, hsame.growth.forest]
    unfold Growth.unattached
    rw [hsame.growth.visits]
    rfl

end ClassNest
