import ClassNest.Proofs.Likeness
import ClassNest.Proofs.Run.BreadthFirst

/-!
# Units that are not under reconstruction

Library classes and units that could not be loaded are looked up in many places of a run. They can
change messages there, and they can fail themselves, but nothing else: two registries with the same classes under
reconstruction, in the same order, have the same outcome up to the failures of other units
(`run_of_ownClasses`).

Each pass is taken in turn. The index is filled by classes under reconstruction alone, and asks of others only
whether they are (`SameOwn.intake`). The failures of a pass, restricted to classes under reconstruction, are
those of the classes themselves (`ownFailures_unitFailures`). So the grounds of the two runs are
alike to the last name (`SameOwn.alike`), and the same trees grow on both.
-/
namespace ClassNest

/-! ## Classes under reconstruction -/

namespace Registry

/-- The same classes under reconstruction, in the same order. -/
structure SameOwn (r r' : Registry) : Prop where
  distinct : r.Distinct
  distinct' : r'.Distinct
  classes : r.ownClasses = r'.ownClasses

section
variable {r r' : Registry} (h : r.SameOwn r')
include h

theorem SameOwn.own? (name : String) : r.own? name = r'.own? name := by
  ext c
  rw [own?_eq_some_iff h.distinct, own?_eq_some_iff h.distinct', h.classes]

theorem SameOwn.isOwn : r.isOwn = r'.isOwn := by
  funext name
  rw [Registry.isOwn, Registry.isOwn, h.own?]

theorem SameOwn.class? {name : String} (hname : r.isOwn name = true) : r.class? name = r'.class? name := by
  obtain ⟨c, hc⟩ := Option.isSome_iff_exists.mp hname
  rw [class?_of_own? hc, class?_of_own? ((h.own? name).symm.trans hc)]

end

/-- The failures of classes under reconstruction. -/
def ownFailures (r : Registry) (failures : List Failure) : List Failure :=
  failures.filter fun f => r.isOwn f.unit

theorem ownFailures_append (r : Registry) (failures more : List Failure) :
    r.ownFailures (failures ++ more) = r.ownFailures failures ++ r.ownFailures more := List.filter_append ..

theorem any_ownFailures {r : Registry} {name : String} (h : r.isOwn name = true) (failures : List Failure) :
    (r.ownFailures failures).any (·.unit == name) = failures.any (·.unit == name) := by
  unfold ownFailures
  rw [List.any_filter]
  congr 1
  funext f
  by_cases hf : f.unit = name
  · simp [hf, h]
  · simp [hf]

/-- Failures that are the same for classes under reconstruction are the same for each of them. -/
theorem SameOwn.any_failures {r r' : Registry} (h : r.SameOwn r') {failures failures' : List Failure}
    (hf : r.ownFailures failures = r'.ownFailures failures') {name : String} (hname : r.isOwn name = true) :
    failures.any (·.unit == name) = failures'.any (·.unit == name) := by
  have hname' : r'.isOwn name = true := h.isOwn ▸ hname
  rw [← any_ownFailures hname, hf, any_ownFailures hname']

end Registry

/-! ## The index -/

theorem Registry.SameOwn.intake {r r' : Registry} (h : r.SameOwn r') {σ : Type} (settings : Settings)
    (p : Policy σ) (n : Naming σ) :
    Intake.Same
      (Intake.ofDecoded p settings.rename r n (r.units.filterMap (·.decodeFor settings.nested)))
      (Intake.ofDecoded p settings.rename r' n (r'.units.filterMap (·.decodeFor settings.nested))) := by
  have hdeclared : declarations (r.units.filterMap (·.decodeFor settings.nested)) =
      declarations (r'.units.filterMap (·.decodeFor settings.nested)) := by
    unfold declarations
    rw [decoded_eq, decoded_eq, h.classes]
  have hfirst := Intake.same_ofDecoded p settings.rename r n (r.units.filterMap (·.decodeFor settings.nested))
  have hsecond := Intake.same_ofDecoded p settings.rename r' n (r'.units.filterMap (·.decodeFor settings.nested))
  rw [hdeclared] at hfirst
  have hfold := List.foldl_rel (r := Intake.Same) (a := { naming := n }) ⟨rfl, rfl⟩
    fun d (_ : d ∈ declarations (r'.units.filterMap (·.decodeFor settings.nested))) t t' ht =>
      Intake.Same.addRecord p settings.rename h.isOwn ht d.1 d.2
  exact ⟨hfirst.index.trans (hfold.index.trans hsecond.index.symm),
    hfirst.naming.trans (hfold.naming.trans hsecond.naming.symm)⟩

/-! ## Failures before the trees -/

namespace Registry

/-- What is wrong with units that are classes under reconstruction is wrong with the classes themselves. -/
theorem ownFailures_unitFailures {r : Registry} (h : r.Distinct) (nested : Bool) :
    r.ownFailures (r.unitFailures nested) =
      r.ownClasses.filterMap fun c => (ClassUnit.loaded c).failure? nested := by
  unfold ownFailures unitFailures ownClasses
  rw [List.filter_filterMap, List.filterMap_filterMap]
  apply List.filterMap_congr
  intro u hu
  -- a unit fails under its own name, so that its failure is kept if the unit is a class under reconstruction
  have hkept : (u.failure? nested).filter (fun f => r.isOwn f.unit) =
      if u.own?.isSome then u.failure? nested else none := by
    cases hf : u.failure? nested with
    | none => simp
    | some f => rw [Option.filter_some, ClassUnit.unit_of_failure? hf, isOwn, own?_name_of_mem h hu]
  rw [hkept]
  cases ho : u.own? with
  | none => rfl
  | some c => rw [ClassUnit.eq_loaded_of_own? ho]; rfl

section
variable {r r' : Registry} (h : r.SameOwn r')
include h

theorem SameOwn.unitFailures (nested : Bool) :
    r.ownFailures (r.unitFailures nested) = r'.ownFailures (r'.unitFailures nested) := by
  rw [ownFailures_unitFailures h.distinct, ownFailures_unitFailures h.distinct', h.classes]

theorem SameOwn.candidates (nested : Bool) : r.candidates nested = r'.candidates nested := by
  unfold Registry.candidates
  rw [← h.classes]
  apply List.filter_congr
  intro c hc
  rw [h.any_failures (h.unitFailures nested) (isOwn_of_mem_ownClasses h.distinct hc)]

variable {σ : Type} (settings : Settings) (p : Policy σ) (n : Naming σ)

theorem SameOwn.earlyFailures :
    r.ownFailures (r.earlyFailures settings p n) = r'.ownFailures (r'.earlyFailures settings p n) := by
  rw [earlyFailures_eq, earlyFailures_eq, ownFailures_append, ownFailures_append, h.unitFailures, h.candidates]
  unfold ownFailures
  rw [h.isOwn]

/-- The same classes are skipped among those that could have a node. -/
theorem SameOwn.skipped {name : String} (hname : r.isOwn name = true) :
    (r.ground settings p n).skipped.contains name = (r'.ground settings p n).skipped.contains name := by
  show ((r.earlyFailures settings p n).map (·.unit)).contains name =
    ((r'.earlyFailures settings p n).map (·.unit)).contains name
  rw [contains_map_unit, contains_map_unit, h.any_failures (h.earlyFailures settings p n) hname]

end
end Registry

/-! ## The trees -/

/-- Names as they are. -/
def plainView : NameView := fun _ name => name

theorem Forest.seen_plainView (f : Forest) : f.seen plainView = f := by
  have hnodes : f.nodes.map (·.seen plainView) = f.nodes := List.map_id _
  unfold seen
  rw [hnodes]

/-- Whether a name is skipped makes no difference to its node unless it is a class under reconstruction. -/
theorem Ground.nodeOf?_congr {g g' : Ground} {name : String} (hindex : g.index = g'.index)
    (hown : g.registry.own? name = g'.registry.own? name)
    (hskip : g.registry.isOwn name = true → g.skipped.contains name = g'.skipped.contains name) :
    g.nodeOf? name = g'.nodeOf? name := by
  have hmake : g.materialize = g'.materialize := by
    funext r c
    unfold materialize
    rw [hindex]
  unfold nodeOf?
  rw [hindex, hown, hmake]
  cases ho : g'.registry.own? name with
  | none => cases g'.index.record? name <;> simp
  | some c =>
    rw [hskip]
    rw [Registry.isOwn, hown, ho]
    rfl

section
variable {r r' : Registry} (h : r.SameOwn r') {σ : Type} (settings : Settings) (p : Policy σ) (n : Naming σ)
include h

/-- Both runs grow their trees on grounds that are alike to the last name. -/
theorem Registry.SameOwn.alike : (r.ground settings p n).Alike plainView (r'.ground settings p n) := by
  have hindex : (r.ground settings p n).index = (r'.ground settings p n).index := by
    show r.indexFor settings p n = r'.indexFor settings p n
    rw [← index_ofDecoded_decodeFor, ← index_ofDecoded_decodeFor]
    exact (h.intake settings p n).index
  refine ⟨rfl, ?_, ?_, ?_, ?_, fun name hname => h.class? hname⟩
  · unfold Ground.rootClasses
    rw [← hindex]
    show r.ownClasses.filter _ = r'.ownClasses.filter _
    rw [← h.classes]
    apply List.filter_congr
    intro c hc
    rw [h.skipped settings p n (isOwn_of_mem_ownClasses h.distinct hc)]
    rfl
  · intro name
    rw [hindex]
  · rw [hindex]
  · intro name
    rw [Ground.nodeOf?_congr hindex (h.own? name) (h.skipped settings p n)]

/-- The call sites of a class under reconstruction lead to the same failure, if no tree claims them. -/
theorem Registry.SameOwn.strayFailures {failures failures' : List Failure}
    (hf : r.ownFailures failures = r'.ownFailures failures') (sites : List CallSite) (lost names : List String) :
    r.ownFailures (names.filterMap ((r.ground settings p n).strayFailure? sites lost failures)) =
      r'.ownFailures (names.filterMap ((r'.ground settings p n).strayFailure? sites lost failures')) := by
  unfold ownFailures
  rw [List.filter_filterMap, List.filter_filterMap, ← h.isOwn]
  apply List.filterMap_congr
  intro name _
  by_cases hname : r.isOwn name = true
  · unfold Ground.strayFailure?
    rw [h.skipped settings p n hname, h.any_failures hf hname]
  · have hnone : ∀ x : Option Failure, (∀ {f}, x = some f → f.unit = name) →
        x.filter (fun f => r.isOwn f.unit) = none := by
      intro x hx
      cases x with
      | none => rfl
      | some f => rw [Option.filter_some, hx rfl, if_neg hname]
    rw [hnone _ Ground.unit_of_strayFailure?, hnone _ Ground.unit_of_strayFailure?]

/-- The same trees, and the same failures of classes under reconstruction. -/
theorem Registry.SameOwn.plantForest (sites : List CallSite) :
    let planted := (r.ground settings p n).plantForest sites (r.earlyFailures settings p n)
    let planted' := (r'.ground settings p n).plantForest sites (r'.earlyFailures settings p n)
    planted.forest = planted'.forest ∧ r.ownFailures planted.failures = r'.ownFailures planted'.failures := by
  intro planted planted'
  obtain ⟨hseen, felled, lost, names, hf, hf'⟩ := (h.alike settings p n).plantForest
    ⟨h.distinct, sound_indexFor r settings p n⟩ ⟨h.distinct', sound_indexFor r' settings p n⟩ sites
    (r.earlyFailures settings p n) (r'.earlyFailures settings p n)
  rw [Forest.seen_plainView, Forest.seen_plainView] at hseen
  have hbefore : r.ownFailures (r.earlyFailures settings p n ++ felled) =
      r'.ownFailures (r'.earlyFailures settings p n ++ felled) := by
    rw [ownFailures_append, ownFailures_append, h.earlyFailures settings p n]
    unfold ownFailures
    rw [h.isOwn]
  refine ⟨hseen, ?_⟩
  show r.ownFailures (Ground.plantForest _ _ _).failures = r'.ownFailures (Ground.plantForest _ _ _).failures
  rw [hf, hf', ownFailures_append, ownFailures_append _ (_ ++ felled), hbefore]
  exact congrArg _ (h.strayFailures settings p n hbefore sites lost names)

end

/-- What is not under reconstruction does not show in an outcome, except by failures of its own: the forest, the
exception tables, the renaming decisions and the failures of classes under reconstruction depend on these
classes alone. -/
theorem run_of_ownClasses {σ : Type} (us us' : List ClassUnit) (settings : Settings) (p : Policy σ)
    (n : Naming σ) (sites : List CallSite) (hv : settings.validate = .ok ())
    (hown : (Registry.ofUnits us).ownClasses = (Registry.ofUnits us').ownClasses) :
    ∃ o o' n', (Registry.ofUnits us).run settings p n sites = .ok (o, n') ∧
      (Registry.ofUnits us').run settings p n sites = .ok (o', n') ∧
      o.forest = o'.forest ∧ o.handlers = o'.handlers ∧
      o.failures.filter (fun f => (Registry.ofUnits us).isOwn f.unit) =
        o'.failures.filter (fun f => (Registry.ofUnits us').isOwn f.unit) := by
  have h : (Registry.ofUnits us).SameOwn (Registry.ofUnits us') :=
    ⟨Registry.distinct_ofUnits us, Registry.distinct_ofUnits us', hown⟩
  obtain ⟨o, m, hrun, hforest, hfail, hhandlers, hm⟩ := run_eq (Registry.ofUnits us) settings p n sites hv
  obtain ⟨o', m', hrun', hforest', hfail', hhandlers', hm'⟩ := run_eq (Registry.ofUnits us') settings p n sites hv
  obtain ⟨htrees, hfailures⟩ := h.plantForest settings p n sites
  have hnaming : m = m' := by
    rw [hm, hm']
    exact (h.intake settings p n).naming
  subst hnaming
  refine ⟨o, o', m, hrun, hrun', ?_, ?_, ?_⟩
  · rw [hforest, hforest', htrees]
  · rw [hhandlers, hhandlers', h.candidates]
  · rw [hfail, hfail']
    exact hfailures

/-- A class with a member. -/
def aloneUnits : List ClassUnit := [listing "app/A" "app/N", .loaded { name := "app/N", own := true }]

/-- The same two among a unit that could not be loaded and a library class that claims the member for itself. -/
def crowdedUnits : List ClassUnit :=
  [.corrupted "app/Torn" "truncated", listing "app/A" "app/N",
   .loaded
    { name := "lib/Base"
      pool := ⟨[.className "lib/Base", .className "app/N"]⟩
      innerClasses := [⟨2, 1, 0, .empty⟩] },
   .loaded { name := "app/N", own := true }]

/-- A lambda of the member, and a bad call site of the library class. -/
def crowdedSites : List CallSite :=
  [⟨"app/N", "java/lang/System", "gc", "()V", 6, "java/lang/Runnable", "run", "()V"⟩,
   ⟨"lib/Base", "lib/Base", "run", "()V", 0, "java/lang/Runnable", "run", "()V"⟩]

theorem run_of_ownClasses_crowdedUnits : ∃ o o' n',
    (Registry.ofUnits aloneUnits).run {} (.keep Unit) ⟨(), {}⟩ crowdedSites = .ok (o, n') ∧
      (Registry.ofUnits crowdedUnits).run {} (.keep Unit) ⟨(), {}⟩ crowdedSites = .ok (o', n') ∧
      o.forest = o'.forest ∧ o.handlers = o'.handlers ∧
      o.failures.filter (fun f => (Registry.ofUnits aloneUnits).isOwn f.unit) =
        o'.failures.filter (fun f => (Registry.ofUnits crowdedUnits).isOwn f.unit) :=
  run_of_ownClasses aloneUnits crowdedUnits {} (.keep Unit) ⟨(), {}⟩ crowdedSites rfl (by decide)

end ClassNest
