import ClassNest.Proofs.Run.Outcome

/-!
# The order of call sites

Call sites of different classes may come in any order: two lists that give every class the same sites, in the same
order, lead to the same forest. The trees ask for the sites of one class at a time (`Planting.plantAll_congr`). Only
the classes that no tree claims are looked at in the order in which they first come up, and so it is the
failures of these, at the end of the report, that may trade places.
-/
namespace ClassNest

section
variable {sites sites' : List CallSite} (h : ∀ name, sitesOf sites name = sitesOf sites' name)
include h

/-! ## Trees -/

theorem freeNames_congr : ∀ (names claimed : List String),
    freeNames sites claimed names = freeNames sites' claimed names
  | [], _ => rfl
  | name :: names, claimed => by
    rw [freeNames, freeNames, h, freeNames_congr names, freeNames_congr names]

theorem Forest.attachGroups_congr (reg : Registry) : ∀ (names : List String) (f : Forest),
    f.attachGroups reg sites names = f.attachGroups reg sites' names
  | [], _ => rfl
  | name :: names, f => by
    have hrest : (fun f (_ : List NodeId) => Forest.attachGroups f reg sites names) =
        fun f _ => Forest.attachGroups f reg sites' names :=
      funext fun f => funext fun _ => Forest.attachGroups_congr reg names f
    rw [attachGroups, attachGroups, h, hrest]

theorem Planting.plantAll_congr (g : Ground) (s : Planting) : plantAll g sites s = plantAll g sites' s := by
  have hplant : Planting.plant g sites = Planting.plant g sites' := by
    funext s c
    simp only [Planting.plant, Planting.raise, freeNames_congr h, Forest.attachGroups_congr h]
  rw [plantAll, plantAll, hplant]

/-! ## Classes without a tree -/

/-- The same classes declare call sites. -/
theorem declaringClasses_perm : (declaringClasses sites).Perm (declaringClasses sites') := by
  refine (List.perm_ext_iff_of_nodup (nodup_declaringClasses sites) (nodup_declaringClasses sites')).mpr fun name => ?_
  rw [mem_declaringClasses, mem_declaringClasses, h]

theorem Ground.strayFailure?_congr (g : Ground) (abandoned : List String) (failures : List Failure) :
    g.strayFailure? sites abandoned failures = g.strayFailure? sites' abandoned failures := by
  funext name
  simp only [strayFailure?, siteFault?, h]

end

/-- The failures of classes whose call sites no tree claimed, after the given trees. -/
def Planting.strayFailures (g : Ground) (sites : List CallSite) (s : Planting) : List Failure :=
  ((declaringClasses sites).filter fun name => !s.claimed.contains name).filterMap
    (g.strayFailure? sites s.growth.abandoned s.failures)

theorem Planting.strayFailures_perm {sites sites' : List CallSite}
    (h : ∀ name, sitesOf sites name = sitesOf sites' name) (g : Ground) (s : Planting) :
    (s.strayFailures g sites).Perm (s.strayFailures g sites') := by
  unfold strayFailures
  rw [g.strayFailure?_congr h]
  exact ((declaringClasses_perm h).filter _).filterMap _

/-! ## The two parts of a report -/

/-- The failures of an outcome in two parts: first those of units left out of the trees and of roots, and then
those of other classes, which declare a bad call site and have no node. -/
structure Outcome.Splits (g : Ground) (sites : List CallSite) (early late : List Failure) (o : Outcome) : Prop where
  failures : o.failures = early ++ late
  early : ∀ f ∈ early, f.unit ∈ g.skipped ∨ ∃ c ∈ g.rootClasses, c.name = f.unit
  late : ∀ f ∈ late, f.unit ∉ g.skipped ∧ (∀ c ∈ g.rootClasses, c.name ≠ f.unit) ∧
    HasBadSite sites f.unit ∧ o.forest.find? f.unit = none

section
variable {g : Ground} {sites : List CallSite} {early : List Failure}

theorem Outcome.splits_of_planted (hg : g.Sound) (hearly : early.map (·.unit) = g.skipped) {o : Outcome}
    (hforest : o.forest = (g.plantForest sites early).forest)
    (hfail : o.failures = (g.plantForest sites early).failures) :
    o.Splits g sites (Planting.plantAll g sites { failures := early }).failures
      ((Planting.plantAll g sites { failures := early }).strayFailures g sites) := by
  obtain ⟨hs, failed, hf, hsub, hroots⟩ := Planting.plantAll_spec hg sites early
  have hfind : o.forest.find? = (Planting.plantAll g sites { failures := early }).growth.forest.find? := by
    rw [hforest, (Ground.plantForest_spec hg sites early).1]
    rfl
  rw [Ground.plantForest_failures hg] at hfail
  generalize Planting.plantAll g sites { failures := early } = t at *
  refine ⟨hfail, ?_, ?_⟩
  · intro f hm
    rw [hf, List.mem_append] at hm
    rcases hm with hm | hm
    · exact .inl (hearly ▸ List.mem_map_of_mem hm)
    · exact .inr (List.mem_map.mp (hsub.subset (List.mem_map_of_mem hm)))
  · intro f hm
    obtain ⟨name, hname, hstray⟩ := List.mem_filterMap.mp hm
    have hunit := Ground.unit_of_strayFailure? hstray
    subst hunit
    obtain ⟨hskip, hnot, _, hbad⟩ := Ground.isSome_strayFailure?.mp (by rw [hstray]; rfl)
    have hnone := hs.find?_eq_none hname
    refine ⟨hskip, ?_, hbad, hfind ▸ hnone⟩
    -- a root either failed, or stands and has a node
    intro c hc hcf
    have hstands : some f.unit ∈ t.growth.forest.rootNames := by
      rw [hroots]
      refine List.mem_map.mpr ⟨f.unit, List.mem_filter.mpr ⟨List.mem_map.mpr ⟨c, hc, hcf⟩, ?_⟩, rfl⟩
      rw [hf, List.map_append, List.mem_append, not_or] at hnot
      simpa using hnot.2
    obtain ⟨r, _, hr⟩ := List.mem_map.mp hstands
    rw [hs.growth.shaped.named.find?_iff.mpr hr] at hnone
    cases hnone

end

/-- Call sites that are interleaved in another way, with the same sites for every class in the same order, change
nothing in an outcome but the order of the failures that come from classes without a tree. -/
theorem run_interleaved {σ : Type} (us : List ClassUnit) (settings : Settings) (p : Policy σ) (n : Naming σ)
    (sites sites' : List CallSite) (hv : settings.validate = .ok ())
    (h : ∀ name, sitesOf sites name = sitesOf sites' name) :
    ∃ o o' n' early late late', (Registry.ofUnits us).run settings p n sites = .ok (o, n') ∧
      (Registry.ofUnits us).run settings p n sites' = .ok (o', n') ∧
      o.forest = o'.forest ∧ o.handlers = o'.handlers ∧
      o.Splits ((Registry.ofUnits us).ground settings p n) sites early late ∧
      o'.Splits ((Registry.ofUnits us).ground settings p n) sites' early late' ∧ late.Perm late' := by
  have hg := sound_ground settings p n us
  obtain ⟨o, m, hrun, hforest, hfail, hhandlers, hm⟩ := run_eq (Registry.ofUnits us) settings p n sites hv
  obtain ⟨o', m', hrun', hforest', hfail', hhandlers', hm'⟩ := run_eq (Registry.ofUnits us) settings p n sites' hv
  have hplanted := Planting.plantAll_congr h ((Registry.ofUnits us).ground settings p n)
  have hsame : o.forest = o'.forest := by
    rw [hforest, hforest', (Ground.plantForest_spec hg _ _).1, (Ground.plantForest_spec hg _ _).1, hplanted]
  have hsplits := Outcome.splits_of_planted hg rfl hforest hfail
  have hsplits' := Outcome.splits_of_planted hg rfl hforest' hfail'
  rw [hplanted] at hsplits
  exact ⟨o, o', m, _, _, _, hrun, by rw [hrun', hm, hm'], hsame, hhandlers.trans hhandlers'.symm, hsplits, hsplits',
    Planting.strayFailures_perm h _ _⟩

/-- A call site of the given class. -/
def siteIn (name : String) (kind : UInt8) : CallSite :=
  ⟨name, "java/lang/System", "gc", "()V", kind, "java/lang/Runnable", "run", "()V"⟩

/-- Two lambdas of a class, and between them bad call sites of classes that are not there. -/
def scatteredSites : List CallSite :=
  [siteIn "app/Main" 6, siteIn "lib/P" 0, siteIn "app/Main" 5, siteIn "lib/Q" 10]

/-- The same call sites, class by class. -/
def groupedSites : List CallSite :=
  [siteIn "lib/Q" 10, siteIn "app/Main" 6, siteIn "app/Main" 5, siteIn "lib/P" 0]

theorem sitesOf_scatteredSites (name : String) : sitesOf scatteredSites name = sitesOf groupedSites name := by
  by_cases hm : name = "app/Main"
  · subst hm; decide
  · have hm' : ("app/Main" == name) = false := by simpa using Ne.symm hm
    by_cases hq : name = "lib/Q"
    · subst hq; decide
    · have hq' : ("lib/Q" == name) = false := by simpa using Ne.symm hq
      simp [sitesOf, scatteredSites, groupedSites, siteIn, List.filter_cons, hm', hq']

/-- A class, and a unit that could not be loaded. -/
def scatteredUnits : List ClassUnit :=
  [.corrupted "app/Torn" "truncated", .loaded { name := "app/Main", own := true }]

theorem run_interleaved_scatteredSites : ∃ o o' n' early late late',
    (Registry.ofUnits scatteredUnits).run {} (.keep Unit) ⟨(), {}⟩ scatteredSites = .ok (o, n') ∧
      (Registry.ofUnits scatteredUnits).run {} (.keep Unit) ⟨(), {}⟩ groupedSites = .ok (o', n') ∧
      o.forest = o'.forest ∧ o.handlers = o'.handlers ∧
      o.Splits ((Registry.ofUnits scatteredUnits).ground {} (.keep Unit) ⟨(), {}⟩) scatteredSites early late ∧
      o'.Splits ((Registry.ofUnits scatteredUnits).ground {} (.keep Unit) ⟨(), {}⟩) groupedSites early late' ∧
      late.Perm late' :=
  run_interleaved scatteredUnits {} (.keep Unit) ⟨(), {}⟩ scatteredSites groupedSites rfl sitesOf_scatteredSites

-- the failures of the classes that are not there do trade places
example : ([scatteredSites, groupedSites].map fun sites =>
    match (Registry.ofUnits scatteredUnits).run {} (.keep Unit) ⟨(), {}⟩ sites with
    | .ok (o, _) => o.failures.map (·.unit)
    | .error _ => []) = [["app/Torn", "lib/P", "lib/Q"], ["app/Torn", "lib/Q", "lib/P"]] := by decide +kernel

end ClassNest
