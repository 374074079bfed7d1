import ClassNest.Proofs.Growth.Reach
import ClassNest.Proofs.Run.Outcome
import Mathlib.Data.List.Perm.Subperm

/-!
# Room in the arena

A full arena fails every root that is still to come (`foldl_plant_of_full`). But a run adds a node only for a class or
for a call site, and one at most for each of them: no name is visited twice, and no class has its call sites attached
for two trees that stand. As long as there are ids for all classes under reconstruction and for all call sites, no tree
finds the arena full (`run_inRoom`).

Two things are followed through the steps of a tree. A step that says that the arena is full leaves it full
(`Step.Warrants`), and the nodes are at most as many as the own classes visited and the call sites in use
(`Growth.Counted`).
-/
namespace ClassNest

/-! ## Failures for want of room -/

/-- The failure comes from an arena that was full. -/
def Failure.OutOfRoom (f : Failure) : Prop := f.fault.cause = .fullArena

instance (f : Failure) : Decidable f.OutOfRoom := inferInstanceAs (Decidable (f.fault.cause = .fullArena))

/-- No tree of the run found the arena full. -/
def Outcome.InRoom (o : Outcome) : Prop := ∀ f ∈ o.failures, ¬ f.OutOfRoom

instance (o : Outcome) : Decidable o.InRoom := inferInstanceAs (Decidable (∀ f ∈ o.failures, ¬ f.OutOfRoom))

theorem Failure.not_outOfRoom {f : Failure} (h : f.fault.cause.kind.endsUnit = true) : ¬ f.OutOfRoom := by
  intro hfull
  rw [hfull] at h
  cases h

theorem CallSite.kind_of_fault? {s : CallSite} {fault : Fault} (h : s.fault? = some fault) :
    fault.cause.kind = .invalidCallSite := by
  obtain ⟨plain, hplain, rfl⟩ := Option.map_eq_some_iff.mp h
  rw [errorOf_eq_some_iff, InvocationKind.ofCode] at hplain
  split at hplain
  · cases hplain
  · cases hplain; rfl

/-- A bad call site is a bad call site, whatever unit it is reported for. -/
theorem not_outOfRoom_of_siteFault? {sites : List CallSite} {a : String} {f : Failure}
    (h : siteFault? sites a = some f.fault) : ¬ f.OutOfRoom := by
  obtain ⟨s, _, hs⟩ := List.exists_of_findSome?_eq_some h
  exact Failure.not_outOfRoom (by rw [s.kind_of_fault? hs]; rfl)

theorem Ground.not_outOfRoom_of_strayFailure? {g : Ground} {sites : List CallSite} {abandoned : List String}
    {failures : List Failure} {a : String} {f : Failure}
    (h : g.strayFailure? sites abandoned failures a = some f) : ¬ f.OutOfRoom := by
  unfold strayFailure? at h
  split at h
  · cases h
  · obtain ⟨fault, hfault, rfl⟩ := Option.map_eq_some_iff.mp h
    exact not_outOfRoom_of_siteFault? hfault

theorem ClassFile.kind_of_decodeFrom {c : ClassFile} {fault : Fault} : ∀ {es : List InnerEntry} {position : Nat},
    c.decodeFrom position es = .error fault → fault.cause.kind = .malformedAttribute
  | [], _, h => by cases h
  | e :: es, position, h => by
    rw [decodeFrom] at h
    split at h
    · cases h
      rfl
    · cases hrest : c.decodeFrom (position + 1) es with
      | error other =>
        rw [hrest] at h
        cases h
        exact kind_of_decodeFrom hrest
      | ok records =>
        rw [hrest] at h
        cases h

theorem HandlerIndex.kind_of_addMethods {pool : Pool} {fault : Fault} : ∀ {ms : List Method} {ix : HandlerIndex},
    ix.addMethods pool ms = .error fault → fault.cause.kind = .malformedAttribute
  | [], _, h => by cases h
  | m :: ms, ix, h => by
    rw [addMethods] at h
    split at h
    · exact kind_of_addMethods h
    · cases h
      rfl

theorem ClassUnit.endsUnit_of_failure? {nested : Bool} {u : ClassUnit} {f : Failure}
    (h : u.failure? nested = some f) : f.fault.cause.kind.endsUnit = true := by
  unfold failure? at h
  cases u with
  | corrupted name reason => cases h; rfl
  | loaded c =>
    cases nested with
    | false => cases h
    | true =>
      simp only [decodeFor, decode, ite_true] at h
      split at h
      · split at h
        · cases h
        · rename_i fault hrecords
          cases h
          rw [ClassFile.kind_of_decodeFrom hrecords]
          rfl
      · cases h

/-- What is left out of the trees is left out for what it is. -/
theorem Registry.not_outOfRoom_earlyFailures {σ : Type} (reg : Registry) (settings : Settings) (p : Policy σ)
    (n : Naming σ) : ∀ f ∈ reg.earlyFailures settings p n, ¬ f.OutOfRoom := by
  intro f hf
  refine Failure.not_outOfRoom ?_
  rw [earlyFailures_eq, List.mem_append] at hf
  rcases hf with hf | hf
  · obtain ⟨u, _, hu⟩ := List.mem_filterMap.mp hf
    exact u.endsUnit_of_failure? hu
  · obtain ⟨c, _, hc⟩ := List.mem_filterMap.mp hf
    obtain ⟨fault, hfault, rfl⟩ := Option.map_eq_some_iff.mp hc
    rw [HandlerIndex.kind_of_addMethods (errorOf_eq_some_iff.mp hfault)]
    rfl

/-! ## Full means full -/

/-- If the step finds the arena full, it leaves it full. -/
def Step.Warrants {σ α : Type} (forest : σ → Forest) (r : Step σ α) : Prop :=
  r.answer = .error Forest.full → Forest.capacity ≤ (forest r.state).size

namespace Step
variable {σ α β : Type} {forest : σ → Forest} {r : Step σ α}

theorem Warrants.map (h : r.Warrants forest) (f : α → β) : (r.map f).Warrants forest :=
  fun hfull => h (of_map_error hfull)

theorem Warrants.andThen {next : σ → α → Step σ β} (h : r.Warrants forest)
    (hnext : ∀ s a, (next s a).Warrants forest) : (r.andThen next).Warrants forest := by
  intro hfull
  rcases andThen_cases r next with ⟨fault, ha, he⟩ | ⟨a, _, he⟩
  · rw [he] at hfull ⊢
    cases hfull
    exact h ha
  · rw [he] at hfull ⊢
    exact hnext r.state a hfull

theorem warrants_of_ok {s : σ} {a : α} {log : Log} : (⟨s, .ok a, log⟩ : Step σ α).Warrants forest :=
  fun hfull => (by cases hfull)

end Step

namespace Forest

theorem warrants_addRoot (f : Forest) (n : Node) : (f.perform (.addRoot n)).Warrants id := by
  rcases f.perform_addRoot_cases n with ⟨_, he⟩ | ⟨hfull, he⟩
  · rw [he]; exact Step.warrants_of_ok
  · rw [he]; exact fun _ => hfull

theorem warrants_attach (f : Forest) (parent : NodeId) (n : Node) : (f.perform (.attach parent n)).Warrants id := by
  by_cases hp : parent < f.size
  · rcases perform_attach_cases hp n with ⟨_, he⟩ | ⟨hfull, he⟩
    · rw [he]; exact Step.warrants_of_ok
    · rw [he]; exact fun _ => hfull
  · rw [perform_attach, if_neg hp]
    exact fun hother => (by cases hother)

theorem warrants_addLambdas : ∀ (infos : List LambdaInfo) (f : Forest), (f.addLambdas infos).Warrants id
  | [], _ => Step.warrants_of_ok
  | info :: infos, f => by
    have hone : (f.addLambda info).Warrants id := by
      unfold addLambda
      split
      · exact (f.warrants_attach _ _).map some
      · exact Step.warrants_of_ok
    exact hone.andThen fun f _ => (warrants_addLambdas infos f).map _

theorem warrants_attachAll (reg : Registry) (ss : List CallSite) (f : Forest) : (f.attachAll reg ss).Warrants id := by
  cases hd : (describeAll reg ss).1 with
  | ok infos =>
    rw [attachAll_of_ok hd]
    exact f.warrants_addLambdas infos
  | error fault =>
    rw [attachAll_of_error hd]
    intro hfull
    -- a bad call site is no lack of room
    have hsite := errorOf_describeAll reg ss
    rw [hd, Except.error.inj hfull] at hsite
    obtain ⟨s, _, hs⟩ := List.exists_of_findSome?_eq_some hsite.symm
    cases s.kind_of_fault? hs

theorem warrants_attachGroups (reg : Registry) (sites : List CallSite) : ∀ (names : List String) (f : Forest),
    (f.attachGroups reg sites names).Warrants id
  | [], _ => Step.warrants_of_ok
  | name :: names, f => (warrants_attachAll reg (sitesOf sites name) f).andThen fun f _ =>
      warrants_attachGroups reg sites names f

end Forest

namespace Growth
variable {g : Ground}

theorem warrants_visit (parent : NodeId) (s : Growth) (name : String) :
    (s.visit g parent name).Warrants (·.forest) := by
  unfold visit
  split
  · exact Step.warrants_of_ok
  · split
    · exact Step.warrants_of_ok
    · split
      · exact Step.warrants_of_ok.andThen fun s n => Step.Warrants.map (s.forest.warrants_attach parent n) _
      · exact Step.warrants_of_ok

theorem warrants_visitAll (parent : NodeId) : ∀ (names : List String) (s : Growth),
    (s.visitAll g parent names).Warrants (·.forest)
  | [], _ => Step.warrants_of_ok
  | name :: names, s => (warrants_visit parent s name).andThen fun s _ => (warrants_visitAll parent names s).map _

theorem warrants_spread : ∀ (rounds : Nat) (s : Growth) (queue : List (NodeId × String)),
    (s.spread g rounds queue).Warrants (·.forest)
  | 0, _, _ => Step.warrants_of_ok
  | _ + 1, _, [] => Step.warrants_of_ok
  | rounds + 1, s, (id, name) :: queue => (warrants_visitAll id (g.index.childrenOf name) s).andThen fun s made =>
      warrants_spread rounds s (queue ++ made)

theorem warrants_grow (s : Growth) (c : ClassFile) : (s.grow g c).Warrants (·.forest) := by
  refine Step.Warrants.andThen (s.forest.warrants_addRoot (.ofClass c)) fun s root => ?_
  split
  · exact (warrants_spread _ _ _).map _
  · exact Step.warrants_of_ok

end Growth

theorem Planting.warrants_raise {g : Ground} (sites : List CallSite) (s : Planting) (c : ClassFile) :
    (s.raise g sites c).Warrants (·.forest) :=
  (s.growth.warrants_grow c).andThen fun grown _ hfull =>
    grown.forest.warrants_attachGroups g.registry sites _ (Step.of_map_error hfull)

/-! ## How many nodes there are -/

/-- At most one node for each own class visited, and `extra` others. -/
def Growth.Counted (reg : Registry) (extra : Nat) (s : Growth) : Prop :=
  s.forest.size ≤ (s.visits.filter reg.isOwn).length + extra

namespace Growth
variable {g : Ground} {s : Growth} {extra : Nat}

theorem Counted.pass (h : s.Counted g.registry extra) (name : String) : (s.pass name).Counted g.registry extra := by
  have hsub : (s.visits.filter g.registry.isOwn).length ≤ ((s.visits ++ [name]).filter g.registry.isOwn).length := by
    rw [List.filter_append, List.length_append]
    exact Nat.le_add_right _ _
  exact Nat.le_trans h (Nat.add_le_add_right hsub extra)

/-- A node more, and an own class more that was visited. -/
theorem Counted.add (h : s.Counted g.registry extra) {name : String} (hown : g.registry.isOwn name = true) {f : Forest}
    (hsize : f.size = s.forest.size + 1) : { s.pass name with forest := f }.Counted g.registry extra := by
  show f.size ≤ ((s.visits ++ [name]).filter g.registry.isOwn).length + extra
  have h : s.forest.size ≤ (s.visits.filter g.registry.isOwn).length + extra := h
  rw [hsize, List.filter_append, List.length_append, List.filter_cons_of_pos hown]
  simp only [List.filter_nil, List.length_singleton]
  omega

theorem Counted.visit (h : s.Counted g.registry extra) (parent : NodeId) (name : String) :
    (s.visit g parent name).state.Counted g.registry extra := by
  rcases visit_cases g parent s name with
    ⟨_, he⟩ | ⟨_, _, log, he⟩ | ⟨_, _, r, c, _, hc, ⟨_, _, he⟩ | ⟨fault, _, he⟩⟩
  · rw [he]; exact h
  · rw [he]; exact h.pass name
  · rw [he]; exact h.add (by rw [Registry.isOwn, hc]; rfl) Forest.size_graft
  · rw [he]; exact h.pass name

theorem Counted.visitAll (parent : NodeId) : ∀ (names : List String) {s : Growth}, s.Counted g.registry extra →
    (s.visitAll g parent names).state.Counted g.registry extra
  | [], _, h => h
  | name :: names, _, h =>
    have hone := h.visit parent name
    Step.state_andThen hone fun _ => Counted.visitAll parent names hone

theorem Spreads.counted {queue : List (NodeId × String)} {r : Step Growth Unit} (hr : Spreads g s queue r) :
    s.Counted g.registry extra → r.state.Counted g.registry extra := by
  induction hr with
  | done s => exact id
  | fail _ => exact Counted.visitAll _ _
  | step _ _ ih => exact fun h => ih (h.visitAll _ _)

theorem Counted.grow (h : s.Counted g.registry extra) {c : ClassFile} (hown : g.registry.isOwn c.name = true)
    (hv : c.name ∉ s.visits) : (s.grow g c).state.Counted g.registry extra := by
  generalize hgrown : s.grow g c = grown
  cases hgrown ▸ grow_heads g s c with
  | full => exact h
  | grown _ hr =>
    refine hr.counted ?_
    rw [withRoot, pushNew_of_not_mem hv]
    exact h.add hown Forest.size_addRoot

end Growth

namespace Forest

theorem size_addLambdas_le : ∀ (infos : List LambdaInfo) (f : Forest),
    (f.addLambdas infos).state.size ≤ f.size + infos.length
  | [], f => Nat.le_refl f.size
  | info :: infos, f => by
    have hone : (f.addLambda info).state.size ≤ f.size + 1 := by
      unfold addLambda
      split
      · rename_i p hp
        rcases f.perform_attach_grows_or_keeps p (.ofLambda info) with ⟨_, _, he⟩ | ⟨_, _, he⟩
        · rw [he]; exact Nat.le_of_eq size_graft
        · rw [he]; exact Nat.le_succ _
      · exact Nat.le_succ _
    have hrest := size_addLambdas_le infos (f.addLambda info).state
    refine Step.state_andThen (P := fun left : Forest => left.size ≤ f.size + (infos.length + 1)) ?_ fun _ => ?_
    · exact Nat.le_trans hone (by omega)
    · exact Nat.le_trans hrest (by omega)

theorem size_attachAll_le (reg : Registry) (ss : List CallSite) (f : Forest) :
    (f.attachAll reg ss).state.size ≤ f.size + ss.length := by
  cases hd : (describeAll reg ss).1 with
  | error fault =>
    rw [attachAll_of_error hd]
    exact Nat.le_add_right _ _
  | ok infos =>
    rw [attachAll_of_ok hd, (describeAll_ok (Prod.ext hd rfl)).length_eq]
    exact size_addLambdas_le infos f

theorem size_attachGroups_le (reg : Registry) (sites : List CallSite) : ∀ (names : List String) (f : Forest),
    (f.attachGroups reg sites names).state.size ≤ f.size + (names.flatMap (sitesOf sites)).length
  | [], f => Nat.le_refl f.size
  | name :: names, f => by
    have hone := size_attachAll_le reg (sitesOf sites name) f
    have hrest := size_attachGroups_le reg sites names (f.attachAll reg (sitesOf sites name)).state
    rw [List.flatMap_cons, List.length_append]
    refine Step.state_andThen (P := fun left : Forest => left.size ≤ _) ?_ fun _ => ?_
    · exact Nat.le_trans hone (by omega)
    · exact Nat.le_trans hrest (by omega)

end Forest

/-! ## Enough room -/

/-- Call sites of different classes are different call sites. -/
theorem length_flatMap_sitesOf_le : ∀ {names : List String} (sites : List CallSite), names.Nodup →
    (names.flatMap (sitesOf sites)).length ≤ sites.length
  | [], _, _ => Nat.zero_le _
  | name :: names, sites, h => by
    obtain ⟨hname, hnames⟩ := List.nodup_cons.mp h
    have hothers : names.flatMap (sitesOf sites) =
        names.flatMap (sitesOf (sites.filter fun s => !(s.declaringClass == name))) := by
      refine List.flatMap_congr fun a ha => ?_
      have hne : a ≠ name := fun e => hname (e ▸ ha)
      unfold sitesOf
      rw [List.filter_filter]
      refine List.filter_congr fun s _ => ?_
      by_cases hs : s.declaringClass = a
      · simp [hs, hne]
      · simp [hs]
    have hrest := length_flatMap_sitesOf_le (sites.filter fun s => !(s.declaringClass == name)) hnames
    have hsplit := List.length_eq_length_filter_add (l := sites) fun s => s.declaringClass == name
    rw [List.flatMap_cons, List.length_append, hothers, hsplit]
    exact Nat.add_le_add_left hrest _

theorem Registry.length_filter_isOwn_le (reg : Registry) {names : List String} (h : names.Nodup) :
    (names.filter reg.isOwn).length ≤ reg.ownClasses.length := by
  have hsub : names.filter reg.isOwn ⊆ reg.ownClasses.map (·.name) := by
    intro a ha
    obtain ⟨c, hc⟩ := Option.isSome_iff_exists.mp (List.mem_filter.mp ha).2
    exact List.mem_map.mpr ⟨c, Registry.mem_ownClasses_of_own? hc, Registry.name_of_own? hc⟩
  have hle := (List.subperm_of_subset (h.filter _) hsub).length_le
  rwa [List.length_map] at hle

namespace Planting
variable {g : Ground} {sites : List CallSite} {s : Planting} {c : ClassFile}

/-- The nodes of the trees are counted by the names visited and the call sites in use. -/
structure Counted (g : Ground) (sites : List CallSite) (s : Planting) : Prop where
  visits : s.growth.visits.Nodup
  size_le : s.growth.Counted g.registry (s.claimed.flatMap (sitesOf sites)).length

section
variable (h : s.Settled g sites) (hn : s.Counted g sites) (hg : g.Sound) (hc : c ∈ g.rootClasses)
  (hv : c.name ∉ s.growth.visits)
include h hn hg hc hv

/-- With what there is of one more tree, the call sites that it claims count too. -/
theorem Counted.raise : (s.raise g sites c).state.visits.Nodup ∧ (s.raise g sites c).state.Counted g.registry
    ((s.claimed ++ s.claims g sites c).flatMap (sitesOf sites)).length := by
  have hgrown := hn.size_le.grow (hg.isOwn_root hc) hv
  have hnd := Growth.nodup_grow (g := g) hn.visits c
  rw [List.flatMap_append, List.length_append]
  cases hgrow : (s.growth.grow g c).answer with
  | error fault =>
    rw [raise_of_refused hgrow]
    exact ⟨hnd, Nat.le_trans hgrown (Nat.add_le_add_left (Nat.le_add_right _ _) _)⟩
  | ok root =>
    obtain ⟨rfl, _, _⟩ := Growth.grow_settled h.growth hc hv hgrow
    have hleaf := Forest.size_attachGroups_le g.registry sites (s.claims g sites c) (s.growth.grow g c).state.forest
    rw [raise_of_grown hgrow]
    refine ⟨hnd, Nat.le_trans hleaf ?_⟩
    rw [← Nat.add_assoc]
    exact Nat.add_le_add_right hgrown _

theorem Counted.plant : (s.plant g sites c).Counted g sites := by
  obtain ⟨hnd, hle⟩ := hn.raise h hg hc hv
  cases hl : (s.raise g sites c).answer with
  | error fault =>
    rw [h.plant_failed hc hv hl]
    exact ⟨hn.visits, hn.size_le⟩
  | ok names =>
    obtain ⟨_, _, rfl⟩ := h.raise_ok hc hv hl
    rw [plant_of_ok hl]
    exact ⟨hnd, hle⟩

/-- Where there are ids for all classes and call sites, the next tree does not find the arena full. -/
theorem Counted.raise_ne_full (hroom : g.registry.ownClasses.length + sites.length < Forest.capacity) :
    (s.raise g sites c).answer ≠ .error Forest.full := by
  intro hfull
  obtain ⟨hnd, hle⟩ := hn.raise h hg hc hv
  have hsize : Forest.capacity ≤ (s.raise g sites c).state.forest.size := s.warrants_raise sites c hfull
  have hown := g.registry.length_filter_isOwn_le hnd
  have hclaims : (s.claimed ++ s.claims g sites c).Nodup := by
    refine List.nodup_append.mpr ⟨h.nodup, (freeNames_spec sites _ _).1, ?_⟩
    rintro a ha b hb rfl
    exact (((freeNames_spec sites _ _).2 a).mp hb).2.1 ha
  have hsites := length_flatMap_sitesOf_le sites hclaims
  unfold Growth.Counted at hle
  omega

end

/-- A full arena fails every root that is still to come, each under its own name, and stays as it is. -/
theorem foldl_plant_of_full : ∀ (cs : List ClassFile) {s : Planting}, Forest.capacity ≤ s.growth.forest.size →
    (cs.foldl (plant g sites) s).growth = s.growth ∧
      (cs.foldl (plant g sites) s).failures = s.failures ++ cs.map fun c => ⟨c.name, Forest.full.inUnit c.name⟩
  | [], s, _ => ⟨rfl, (List.append_nil s.failures).symm⟩
  | c :: cs, s, hfull => by
    have hrefused : (s.growth.grow g c).answer = .error Forest.full := by rw [Growth.grow_of_full hfull]
    have hplant : s.plant g sites c =
        { s with
          failures := s.failures ++ [⟨c.name, Forest.full.inUnit c.name⟩]
          log := s.log ++ errorLine (Forest.full.inUnit c.name).text } := by
      have hraise : s.raise g sites c = ⟨s.growth, .error Forest.full, []⟩ := by
        rw [raise_of_refused hrefused, Growth.grow_of_full hfull]
      rw [plant_of_error (by rw [hraise]), hraise, Growth.rollback_mark, List.append_nil]
      rfl
    obtain ⟨hgrowth, hfailures⟩ := foldl_plant_of_full cs (s := s.plant g sites c) (by rw [hplant]; exact hfull)
    rw [List.foldl_cons, hgrowth, hfailures, hplant, List.map_cons, List.append_assoc, List.singleton_append]
    exact ⟨rfl, rfl⟩

/-- No tree is taken back for want of room. -/
theorem inRoom_foldl_plant (hg : g.Sound) (hroom : g.registry.ownClasses.length + sites.length < Forest.capacity) :
    ∀ (cs : List ClassFile) {s : Planting}, Ready g sites cs s → s.Counted g sites →
      (∀ f ∈ s.failures, ¬ f.OutOfRoom) → ∀ f ∈ (cs.foldl (plant g sites) s).failures, ¬ f.OutOfRoom
  | [], _, _, _, h => h
  | c :: cs, s, hr, hn, h => by
    have hc := hr.roots c (by simp)
    have hv := hr.fresh c (by simp)
    refine inRoom_foldl_plant hg hroom cs (hr.plant hg) (hn.plant hr.settled hg hc hv) ?_
    have hne := hn.raise_ne_full hr.settled hg hc hv hroom
    cases hl : (s.raise g sites c).answer with
    | ok names => rw [plant_of_ok hl]; exact h
    | error fault =>
      rw [hl] at hne
      rw [plant_of_error hl]
      intro f hf
      rcases List.mem_append.mp hf with hf | hf
      · exact h f hf
      · rw [List.mem_singleton.mp hf]
        rcases hr.settled.failed_raise hc hv hl with rfl | ⟨a, ha⟩
        · exact absurd rfl hne
        · exact not_outOfRoom_of_siteFault? (f := ⟨c.name, fault⟩) ha

end Planting

theorem Ground.inRoom_plantForest {g : Ground} (hg : g.Sound) {sites : List CallSite} {early : List Failure}
    (hroom : g.registry.ownClasses.length + sites.length < Forest.capacity) (hearly : ∀ f ∈ early, ¬ f.OutOfRoom) :
    ∀ f ∈ (g.plantForest sites early).failures, ¬ f.OutOfRoom := by
  intro f hf
  rw [Ground.plantForest_failures hg, List.mem_append] at hf
  rcases hf with hf | hf
  · exact Planting.inRoom_foldl_plant hg hroom g.rootClasses (Planting.Ready.start hg sites early)
      ⟨List.nodup_nil, Nat.zero_le _⟩ hearly f hf
  · obtain ⟨name, _, hstray⟩ := List.mem_filterMap.mp hf
    exact Ground.not_outOfRoom_of_strayFailure? hstray

/-- **A run with ids for all classes under reconstruction and all call sites never finds the arena full.** -/
theorem run_inRoom {σ : Type} (us : List ClassUnit) (settings : Settings) (p : Policy σ) (n : Naming σ)
    (sites : List CallSite) (hv : settings.validate = .ok ())
    (hroom : (Registry.ofUnits us).ownClasses.length + sites.length < Forest.capacity) :
    ∃ o n', (Registry.ofUnits us).run settings p n sites = .ok (o, n') ∧ o.InRoom := by
  obtain ⟨o, n', hrun, _, hfail, _⟩ := run_eq (Registry.ofUnits us) settings p n sites hv
  refine ⟨o, n', hrun, ?_⟩
  rw [Outcome.InRoom, hfail]
  exact Ground.inRoom_plantForest (sound_ground settings p n us) hroom
    (Registry.not_outOfRoom_earlyFailures _ settings p n)

end ClassNest
