import ClassNest.Proofs.Faults

/-!
# What a run leaves behind

A run with valid settings has an outcome, and the forest of the outcome is `Grown`: settled trees
over the ground that the first two passes prepare, with all lambdas of their classes, the nested
classes that were not visited as the rest, and the failures in three groups. Everything about
outcomes follows from `run_grown`.
-/
namespace ClassNest

section
variable {σ : Type} (reg : Registry) (settings : Settings) (p : Policy σ) (n : Naming σ)

/-- The failures of the units that are left out of the trees. -/
def Registry.earlyFailures : List Failure :=
  let intake := Intake.ofDecoded p settings.rename reg n (reg.units.filterMap (·.decodeFor settings.nested))
  intake.failures ++ (decodeHandlers (reg.ownClasses.filter fun c => !intake.failures.any (·.unit == c.name))).2

/-- What the trees of a run grow on. -/
def Registry.ground : Ground :=
  ⟨reg, reg.indexFor settings p n, settings.nested, (reg.earlyFailures settings p n).map (·.unit)⟩

theorem sound_ground (us : List ClassUnit) : ((Registry.ofUnits us).ground settings p n).Sound :=
  ⟨Registry.distinct_ofUnits us, sound_indexFor _ settings p n⟩

/-- The classes whose exception tables are decoded: all but those that cannot be read. -/
def Registry.candidates (nested : Bool) : List ClassFile :=
  reg.ownClasses.filter fun c => !(reg.unitFailures nested).any (·.unit == c.name)

theorem earlyFailures_eq : reg.earlyFailures settings p n =
    reg.unitFailures settings.nested ++ (reg.candidates settings.nested).filterMap (·.handlerFailure?) := by
  unfold Registry.earlyFailures Registry.candidates
  simp only [Intake.failures_eq, decodeHandlers_eq]

theorem run_eq (sites : List CallSite) (hv : settings.validate = .ok ()) :
    ∃ o n', reg.run settings p n sites = .ok (o, n') ∧
    o.forest = ((reg.ground settings p n).plantForest sites (reg.earlyFailures settings p n)).forest ∧
    o.failures = ((reg.ground settings p n).plantForest sites (reg.earlyFailures settings p n)).failures ∧
    o.handlers = (reg.candidates settings.nested).filterMap (fun c => c.handlerIndex.toOption) ∧
    n' = (Intake.ofDecoded p settings.rename reg n (reg.units.filterMap (·.decodeFor settings.nested))).naming := by
  have hhandlers : (decodeHandlers (reg.candidates settings.nested)).1 =
      (reg.candidates settings.nested).filterMap fun c => c.handlerIndex.toOption := by
    rw [decodeHandlers_eq]
  unfold Registry.candidates at *
  rw [← hhandlers, ← Intake.failures_eq p settings.rename settings.nested reg n]
  unfold Registry.run Registry.reconstruct Registry.ground Registry.earlyFailures
  rw [hv, ← index_ofDecoded_decodeFor]
  exact ⟨_, _, rfl, rfl, rfl, rfl, rfl⟩

end

/-! ## The forest of an outcome -/

/-- The list of nested classes that are left out is no part of the trees. -/
theorem Growth.Settled.setUnattached {g : Ground} {s : Growth} (h : s.Settled g) (names : List String) :
    Growth.Settled g { forest := { s.forest with unattached := names }, visits := s.visits } where
  shaped :=
    { linked := ⟨h.shaped.linked.mem_children, h.shaped.linked.parent_lt, h.shaped.linked.sorted⟩
      rooted := ⟨h.shaped.rooted.mem_roots, h.shaped.rooted.sorted⟩
      named := ⟨h.shaped.named.find?_iff, h.shaped.named.bounded⟩
      labelled := ⟨h.shaped.labelled.root, h.shaped.labelled.inner⟩
      breadth := ⟨h.shaped.breadth.enclosed, h.shaped.breadth.least, h.shaped.breadth.mono,
        h.shaped.breadth.roots_le,
        h.shaped.breadth.listed⟩ }
  tallied := ⟨h.tallied.visited, h.tallied.origin, h.tallied.placed⟩
  closed := h.closed

/-- Of the call sites of several classes, those of one of them. -/
theorem sitesOf_flatMap {sites : List CallSite} {e : String} : ∀ {names : List String}, names.Nodup →
    sitesOf (names.flatMap (sitesOf sites)) e = if e ∈ names then sitesOf sites e else []
  | [], _ => by simp [sitesOf]
  | name :: names, h => by
    rw [List.nodup_cons] at h
    have hhere : sitesOf (sitesOf sites name) e = if e = name then sitesOf sites e else [] := by
      unfold sitesOf
      rw [List.filter_filter]
      split
      · rename_i he; subst he; simp
      · rename_i he
        refine List.filter_eq_nil_iff.mpr fun s _ hs => ?_
        simp only [Bool.and_eq_true, beq_iff_eq] at hs
        exact he (hs.1.symm.trans hs.2)
    rw [List.flatMap_cons, Forest.sitesOf_append, hhere, sitesOf_flatMap h.2]
    by_cases he : e = name
    · subst he; simp [h.1]
    · simp [he]

/-- What holds of the outcome of a run over the ground `g`; `visits` are the names that its trees
visited. -/
structure Outcome.Grown (g : Ground) (sites : List CallSite) (visits : List String) (o : Outcome) :
    Prop where
  settled : Growth.Settled g { forest := o.forest, visits := visits }
  unattached : o.forest.unattached = (g.index.records.map (·.inner)).filter fun a => !visits.contains a
  lambdas : ∃ att, o.forest.Carries g.registry att ∧
    ∀ {i : Nat} {e : String}, o.forest.className? i = some e → sitesOf att e = sitesOf sites e
  /-- the units left out of the trees, then the trees that failed, then classes without a node -/
  failures : ∃ failed extra, o.failures.map (·.unit) = g.skipped ++ failed ++ extra ∧
    failed.Sublist (g.rootClasses.map (·.name)) ∧ (∀ a ∈ extra, o.forest.find? a = none) ∧
    o.forest.rootNames = ((g.rootClasses.map (·.name)).filter fun a => !failed.contains a).map some

/-- Every run with valid settings has an outcome, and the outcome is `Grown`. -/
theorem run_grown {σ : Type} (us : List ClassUnit) (settings : Settings) (p : Policy σ) (n : Naming σ)
    (sites : List CallSite) (hv : settings.validate = .ok ()) :
    ∃ o n' visits, (Registry.ofUnits us).run settings p n sites = .ok (o, n') ∧
      o.Grown ((Registry.ofUnits us).ground settings p n) sites visits := by
  have hg := sound_ground settings p n us
  obtain ⟨o, n', hrun, hforest, hfail, _⟩ := run_eq (Registry.ofUnits us) settings p n sites hv
  generalize hearly : (Registry.ofUnits us).earlyFailures settings p n = early at hforest hfail
  have hsk : ((Registry.ofUnits us).ground settings p n).skipped = early.map (·.unit) := by rw [← hearly]; rfl
  generalize (Registry.ofUnits us).ground settings p n = g at hg hforest hfail hsk
  obtain ⟨hs, failed, hf, hsub, hroots⟩ := Planting.plantAll_spec hg sites early
  obtain ⟨hplant, extra, hextra, hnone⟩ := Ground.plantForest_spec hg sites early
  rw [hplant] at hforest
  refine ⟨o, n', (Planting.plantAll g sites { failures := early }).growth.visits, hrun, ?_⟩
  refine ⟨?_, ?_,
    ⟨(Planting.plantAll g sites { failures := early }).claimed.flatMap (sitesOf sites), ⟨?_, ?_, ?_⟩, ?_⟩,
    failed.map (·.unit), extra, ?_, hsub, ?_, ?_⟩
  · rw [hforest]; exact hs.growth.setUnattached _
  · rw [hforest]; rfl
  · rw [hforest]; exact hs.carries.split
  · rw [hforest]; exact hs.carries.owned
  · rw [hforest]; exact hs.carries.known
  · intro i e he
    rw [hforest] at he
    rw [sitesOf_flatMap hs.nodup]
    split
    · rfl
    · rename_i hnot
      by_cases hne : sitesOf sites e = []
      · exact hne.symm
      · exact absurd (hs.mem_claimed.mpr ⟨⟨i, he⟩, hne⟩) hnot
  · rw [hfail, hextra, hf, hsk, List.map_append]
  · rw [hforest]; exact hnone
  · rw [hforest]; exact hroots

end ClassNest
