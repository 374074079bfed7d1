import ClassNest.Proofs.Run.Failures
import ClassNest.Proofs.Run.Interleaving
import ClassNest.Proofs.Run.WellFormed

/-!
# What one bad class brings down

A batch in which everything can be read and no tree finds the arena full, with call sites of which only those of one
class are bad. Every failure then carries the fault of this class (`OfSites`), and only the unit that it is reported
for may differ. A root fails if it reaches the class, no matter which roots had their turn before it
(`felled_iff_reaches`): a tree that is taken back hands the bad call sites on to the next root. The class itself is
reported only if no root reaches it (`strays_eq`). So there is one failure for every root that shares the class, and a
single one just if no two do.
-/
namespace ClassNest

/-! ## Where the faults come from -/

theorem CallSite.unit_of_fault? {s : CallSite} {fault : Fault} (h : s.fault? = some fault) :
    fault.unit = some s.declaringClass := by
  obtain ⟨plain, _, rfl⟩ := Option.map_eq_some_iff.mp h
  rfl

theorem unit_of_siteFault? {sites : List CallSite} {a : String} {fault : Fault}
    (h : siteFault? sites a = some fault) : fault.unit = some a := by
  obtain ⟨s, hs, hfault⟩ := List.exists_of_findSome?_eq_some h
  rw [s.unit_of_fault? hfault, Forest.declaringClass_of_mem_sitesOf hs]

/-- A fault with a unit keeps it. -/
theorem Fault.inUnitOr_of_unit {fault : Fault} {a : String} (h : fault.unit = some a) (u : String) :
    fault.inUnitOr u = fault := by
  unfold inUnitOr
  rw [h, Option.getD_some, ← h]

/-- The failure says what is wrong with the call sites of some class, whatever unit it is reported for. -/
def Failure.OfSites (sites : List CallSite) (f : Failure) : Prop := ∃ a, siteFault? sites a = some f.fault

namespace Planting
variable {g : Ground} {sites : List CallSite}

theorem ofSites_plant {s : Planting} {c : ClassFile} (hs : s.Settled g sites) (hc : c ∈ g.rootClasses)
    (hv : c.name ∉ s.growth.visits) (h : ∀ f ∈ s.failures, f.OfSites sites ∨ f.OutOfRoom) :
    ∀ f ∈ (s.plant g sites c).failures, f.OfSites sites ∨ f.OutOfRoom := by
  cases hl : (s.raise g sites c).answer with
  | ok names => rw [plant_of_ok hl]; exact h
  | error fault =>
    intro f hf
    rw [plant_of_error hl, List.mem_append, List.mem_singleton] at hf
    rcases hf with hf | rfl
    · exact h f hf
    · rcases hs.failed_raise hc hv hl with rfl | ⟨a, ha⟩
      · exact .inr rfl
      · exact .inl ⟨a, by rw [ha, Fault.inUnitOr_of_unit (unit_of_siteFault? ha)]⟩

theorem ofSites_foldl_plant (hg : g.Sound) : ∀ (cs : List ClassFile) {s : Planting}, Ready g sites cs s →
    (∀ f ∈ s.failures, f.OfSites sites ∨ f.OutOfRoom) →
    ∀ f ∈ (cs.foldl (plant g sites) s).failures, f.OfSites sites ∨ f.OutOfRoom
  | [], _, _, h => h
  | c :: cs, _, hr, h => ofSites_foldl_plant hg cs (hr.plant hg)
      (ofSites_plant hr.settled (hr.roots c (by simp)) (hr.fresh c (by simp)) h)

end Planting

theorem Ground.ofSites_plantForest {g : Ground} (hg : g.Sound) (sites : List CallSite) :
    ∀ f ∈ (g.plantForest sites []).failures, f.OfSites sites ∨ f.OutOfRoom := by
  intro f hf
  rw [Ground.plantForest_failures hg, List.mem_append] at hf
  rcases hf with hf | hf
  · exact Planting.ofSites_foldl_plant hg g.rootClasses (Planting.Ready.start hg sites []) (fun _ h => by cases h) f hf
  · obtain ⟨name, _, hstray⟩ := List.mem_filterMap.mp hf
    unfold Ground.strayFailure? at hstray
    split at hstray
    · cases hstray
    · obtain ⟨fault, hfault, rfl⟩ := Option.map_eq_some_iff.mp hstray
      exact .inl ⟨name, hfault⟩

/-! ## Reaching and meeting -/

namespace Ground
variable {g : Ground}

theorem Reaches.isOwn {start a : String} (h : g.Reaches start a) (hs : g.registry.isOwn start = true) :
    g.registry.isOwn a = true := by
  cases h with
  | self => exact hs
  | step _ _ _ ho => exact ho

/-- A class that can have a node is reached by whatever meets its name. -/
theorem Meets.reaches {start a : String} (h : g.Meets start a) (hs : a ∉ g.skipped)
    (ho : g.registry.isOwn a = true) : g.Reaches start a := by
  rcases h with rfl | ⟨e, he, hb⟩
  · exact .self
  · exact .step he hb hs ho

end Ground

/-- A class that has a node is reached by one of the roots. -/
theorem Forest.Shaped.exists_root_reaches {g : Ground} {f : Forest} (h : f.Shaped g) {i : Nat} {a : String}
    (ha : f.className? i = some a) : ∃ c, some c ∈ f.rootNames ∧ g.Reaches c a := by
  obtain ⟨c, hc, hreach⟩ := h.reaches_top ha
  exact ⟨c, List.mem_map.mpr ⟨_, (h.top_mem_roots (Forest.lt_size_of_className? ha)).1, hc⟩, hreach⟩

/-- A class that no root reaches has no node. -/
theorem Planting.find?_eq_none_of_unreached {g : Ground} (hg : g.Sound) {sites : List CallSite}
    {early : List Failure} {a : String} (h : ∀ r ∈ g.rootClasses, ¬ g.Reaches r.name a) :
    (Planting.plantAll g sites { failures := early }).growth.forest.find? a = none := by
  obtain ⟨hs, failed, _, _, hroots⟩ := Planting.plantAll_spec hg sites early
  refine hs.growth.shaped.named.find?_eq_none fun i hi => ?_
  obtain ⟨c, hc, hreach⟩ := hs.growth.shaped.exists_root_reaches hi
  rw [hroots] at hc
  obtain ⟨b, hb, hbc⟩ := List.mem_map.mp hc
  obtain ⟨r, hr, hrb⟩ := List.mem_map.mp (List.mem_filter.mp hb).1
  obtain rfl : r.name = c := hrb.trans (Option.some.inj hbc)
  exact h r hr hreach

/-! ## One bad class -/

/-- Every root has its turn. -/
theorem exists_turn_of_mem {cs : List ClassFile} {c : ClassFile} (h : c ∈ cs) : ∃ before, before ++ [c] <+: cs := by
  obtain ⟨before, after, rfl⟩ := List.append_of_mem h
  exact ⟨before, after, by simp⟩

section
variable {g : Ground} {sites : List CallSite} {x : String} (hg : g.Sound)
  (hbad : ∀ a, HasBadSite sites a ↔ a = x)
include hg hbad

section
variable {early failed : List Failure}
  (hf : (Planting.plantAll g sites { failures := early }).failures = early ++ failed)
  (hroom : ∀ f ∈ failed, ¬ f.OutOfRoom)
include hf hroom

/-- A root fails if it reaches the class. Earlier roots make no difference: those that reach it have failed too. -/
theorem Planting.felled_iff_reaches {before : List ClassFile} {r : ClassFile} (hpre : before ++ [r] <+: g.rootClasses) :
    r.name ∈ failed.map (·.unit) ↔ g.Reaches r.name x := by
  induction hn : before.length using Nat.strongRecOn generalizing before r with | ind n ih => ?_
  rw [failed_iff_reaches hg g.rootClasses (Ready.start hg sites early) hf hpre]
  constructor
  · rintro (⟨a, hr, _, _, ha⟩ | ⟨f, hfm, _, hfull⟩)
    · exact (hbad a).mp ha ▸ hr
    · exact absurd hfull (hroom f hfm)
  · intro hr
    refine .inl ⟨x, hr, Forest.not_has_empty, ?_, (hbad x).mpr rfl⟩
    rintro ⟨q, hq, hstands, hqx⟩
    obtain ⟨first, hfirst⟩ := exists_turn_of_mem hq
    have hturn : first ++ [q] <+: g.rootClasses := (hfirst.trans (List.prefix_append before [r])).trans hpre
    have hlt : first.length < n := by
      have hle := hfirst.length_le
      rw [List.length_append, List.length_singleton, hn] at hle
      exact hle
    exact hstands ((ih _ hlt hturn rfl).mpr hqx)

theorem Planting.mem_felled_iff {r : ClassFile} (hr : r ∈ g.rootClasses) :
    r.name ∈ failed.map (·.unit) ↔ g.Reaches r.name x := by
  obtain ⟨before, hturn⟩ := exists_turn_of_mem hr
  exact Planting.felled_iff_reaches hg hbad hf hroom hturn

/-- A class that fails a root is given up with it, and no other class is. -/
theorem Planting.abandoned_iff_reached (hskip : g.skipped = []) :
    x ∈ (Planting.plantAll g sites { failures := early }).growth.abandoned ↔
      ∃ r ∈ g.rootClasses, g.Reaches r.name x := by
  have hlost := Planting.abandoned_iff_meets hg (a := x) g.rootClasses (Ready.start hg sites early) List.nodup_nil hf
    hroom
  refine hlost.trans ?_
  rw [or_iff_right (by simp)]
  constructor
  · rintro ⟨before, r, hpre, hfell, -⟩
    exact ⟨r, hpre.subset (by simp), (Planting.felled_iff_reaches hg hbad hf hroom hpre).mp hfell⟩
  · rintro ⟨r, hr, hreach⟩
    have hown := hreach.isOwn (hg.isOwn_root hr)
    obtain ⟨before, hturn⟩ := exists_turn_of_mem hr
    refine ⟨before, r, hturn, (Planting.mem_felled_iff hg hbad hf hroom hr).mpr hreach, by simp, hreach.meets, ?_⟩
    -- an earlier root that meets it reaches it, and has failed too
    rintro ⟨q, hq, hstands, hmeets⟩
    have hqr : q ∈ g.rootClasses := hturn.subset (List.mem_append_left _ hq)
    exact hstands ((Planting.mem_felled_iff hg hbad hf hroom hqr).mpr (hmeets.reaches (by simp [hskip]) hown))

/-- The class gets a failure of its own just if no root fails on it. -/
theorem Planting.strays_eq (hskip : g.skipped = []) (hearly : early = []) :
    (Planting.plantAll g sites { failures := early }).strays g sites = if failed = [] then [x] else [] := by
  obtain ⟨hs, failed', hf', hsub, _⟩ := Planting.plantAll_spec hg sites early
  have hfells := @Planting.mem_felled_iff g sites x hg hbad early failed hf hroom
  have hlost := Planting.abandoned_iff_reached hg hbad hf hroom hskip
  rw [hf] at hf'
  rw [← List.append_cancel_left hf'] at hsub
  have hmem := fun a => hs.mem_strays (a := a)
  split
  · rename_i hnone
    have hunreached : ∀ r ∈ g.rootClasses, ¬ g.Reaches r.name x := by
      intro r hr hreach
      have hfell := (hfells hr).mpr hreach
      rw [hnone] at hfell
      cases hfell
    have hx : x ∈ (Planting.plantAll g sites { failures := early }).strays g sites := by
      refine (hmem x).mpr ⟨(hbad x).mpr rfl, by simp [hskip], ?_, Planting.find?_eq_none_of_unreached hg hunreached, ?_⟩
      · rw [hf, hearly, hnone]; simp
      · rw [hlost]; simpa using hunreached
    have hnd : ((Planting.plantAll g sites { failures := early }).strays g sites).Nodup :=
      (nodup_declaringClasses sites).sublist (List.filter_sublist.trans List.filter_sublist)
    refine List.perm_singleton.mp ((List.perm_ext_iff_of_nodup hnd (by simp)).mpr fun a => ?_)
    rw [List.mem_singleton]
    exact ⟨fun ha => (hbad a).mp ((hmem a).mp ha).1, fun ha => ha ▸ hx⟩
  · rename_i hsome
    obtain ⟨f, hfm⟩ := List.exists_mem_of_ne_nil failed hsome
    have hfell := List.mem_map_of_mem (f := (·.unit)) hfm
    obtain ⟨r, hr, hrf⟩ := List.mem_map.mp (hsub.subset hfell)
    refine List.eq_nil_iff_forall_not_mem.mpr fun a ha => ?_
    obtain ⟨habad, _, _, _, hnot⟩ := (hmem a).mp ha
    rw [(hbad a).mp habad, hlost] at hnot
    exact hnot ⟨r, hr, (hfells hr).mp (hrf ▸ hfell)⟩

end

/-- The units that a bad class brings down: the roots that reach it, in the order of their turn, or the class
itself if there are none. -/
theorem Ground.units_plantForest (hskip : g.skipped = [])
    (hroom : ∀ f ∈ (g.plantForest sites []).failures, ¬ f.OutOfRoom) : ∃ felled : List String,
    felled.Sublist (g.rootClasses.map (·.name)) ∧ (∀ r ∈ g.rootClasses, r.name ∈ felled ↔ g.Reaches r.name x) ∧
      (g.plantForest sites []).failures.map (·.unit) = if felled = [] then [x] else felled := by
  obtain ⟨_, failed, hf, hsub, _⟩ := Planting.plantAll_spec hg sites []
  have hplanted := Ground.plantForest_failures hg sites []
  rw [hplanted] at hroom
  replace hroom : ∀ f ∈ failed, ¬ f.OutOfRoom := fun f hfm => hroom f (by simp [hf, hfm])
  refine ⟨failed.map (·.unit), hsub, fun r hr => Planting.mem_felled_iff hg hbad hf hroom hr, ?_⟩
  rw [hplanted, List.map_append, Planting.map_unit_strays, Planting.strays_eq hg hbad hf hroom hskip rfl, hf]
  by_cases hnone : failed = []
  · simp [hnone]
  · simp [hnone]

/-- All of them are reported with the fault of the class. -/
theorem Ground.failures_plantForest : ∃ fault, siteFault? sites x = some fault ∧
    ((∀ f ∈ (g.plantForest sites []).failures, ¬ f.OutOfRoom) →
      (g.plantForest sites []).failures = ((g.plantForest sites []).failures.map (·.unit)).map (⟨·, fault⟩)) := by
  obtain ⟨fault, hfault⟩ := Option.isSome_iff_exists.mp (siteFault?_isSome.mpr ((hbad x).mpr rfl))
  refine ⟨fault, hfault, fun hroom => ?_⟩
  rw [List.map_map]
  conv_lhs => rw [← List.map_id (g.plantForest sites []).failures]
  refine List.map_congr_left fun f hf => ?_
  obtain ⟨a, ha⟩ := (Ground.ofSites_plantForest hg sites f hf).resolve_right (hroom f hf)
  have hax : a = x := (hbad a).mp (siteFault?_isSome.mp (by rw [ha]; rfl))
  rw [hax, hfault] at ha
  cases ha
  rfl

end

/-- One unit is brought down just if no two roots reach the class. -/
theorem Ground.Sound.length_downed_eq_one_iff {g : Ground} (hg : g.Sound) {x : String} {felled : List String}
    (hsub : felled.Sublist (g.rootClasses.map (·.name)))
    (hmem : ∀ r ∈ g.rootClasses, r.name ∈ felled ↔ g.Reaches r.name x) :
    (if felled = [] then [x] else felled).length = 1 ↔
      ∀ q ∈ g.rootClasses, ∀ r ∈ g.rootClasses, g.Reaches q.name x → g.Reaches r.name x → q = r := by
  have hnd : felled.Nodup := hg.nodup_rootClasses.sublist hsub
  constructor
  · intro hone q hq r hr hqx hrx
    have hqm := (hmem q hq).mpr hqx
    have hrm := (hmem r hr).mpr hrx
    rw [if_neg (List.ne_nil_of_mem hqm)] at hone
    obtain ⟨a, rfl⟩ := List.length_eq_one_iff.mp hone
    exact hg.root_ext hq hr ((List.mem_singleton.mp hqm).trans (List.mem_singleton.mp hrm).symm)
  · intro hunique
    match felled, hsub, hmem, hnd with
    | [], _, _, _ => rfl
    | [a], _, _, _ => rfl
    | a :: b :: more, hsub, hmem, hnd =>
      obtain ⟨q, hq, rfl⟩ := List.mem_map.mp (hsub.subset (List.mem_cons_self ..))
      obtain ⟨r, hr, rfl⟩ := List.mem_map.mp (hsub.subset (List.mem_cons_of_mem _ (List.mem_cons_self ..)))
      have hqr := hunique q hq r hr ((hmem q hq).mp (by simp)) ((hmem r hr).mp (by simp))
      subst hqr
      simp at hnd

/-! ## Batches in which everything can be read -/

/-- All units were loaded, and the own classes have records and exception tables that can be decoded. -/
structure Registry.Decodes (reg : Registry) : Prop where
  loaded : ∀ u ∈ reg.units, u.class?.isSome = true
  records : ∀ c ∈ reg.ownClasses, c.nestedRecords.isOk = true
  handlers : ∀ c ∈ reg.ownClasses, c.handlerIndex.isOk = true

namespace Registry.Decodes
variable {reg : Registry}

theorem isUnreadable (h : reg.Decodes) (nested : Bool) {u : ClassUnit} (hu : u ∈ reg.units) :
    u.isUnreadable nested = false := by
  cases u with
  | corrupted name reason => exact absurd (h.loaded _ hu) (by simp [ClassUnit.class?])
  | loaded c =>
    cases hown : c.own with
    | false => simp [ClassUnit.isUnreadable, hown]
    | true =>
      have hc : c ∈ reg.ownClasses := List.mem_filterMap.mpr ⟨_, hu, by simp [ClassUnit.own?, ClassUnit.class?, hown]⟩
      simp [ClassUnit.isUnreadable, h.records c hc]

theorem earlyFailures {σ : Type} (h : reg.Decodes) (settings : Settings) (p : Policy σ) (n : Naming σ) :
    reg.earlyFailures settings p n = [] := by
  have hunread : reg.unreadable settings.nested = [] := by
    refine List.map_eq_nil_iff.mpr (List.filter_eq_nil_iff.mpr fun u hu => ?_)
    simp [h.isUnreadable settings.nested hu]
  have hunhandled : reg.unhandled settings.nested = [] := by
    refine List.map_eq_nil_iff.mpr (List.filter_eq_nil_iff.mpr fun c hc => ?_)
    simp [h.handlers c hc]
  have hskip := skipped_ground reg settings p n
  rw [hunread, hunhandled] at hskip
  exact List.map_eq_nil_iff.mp hskip

end Registry.Decodes

/-- Where only one class has bad call sites, everything else can be read and no tree finds the arena full, the roots
that reach the class fail with its fault, or the class itself if there are none. That is a single failure just if no two
roots reach it. The arena has room if there are ids for all classes and all call sites. -/
theorem run_fells_reaching {σ : Type} (us : List ClassUnit) (settings : Settings) (p : Policy σ) (n : Naming σ)
    (sites : List CallSite) (x : String) (hv : settings.validate = .ok ()) (hread : (Registry.ofUnits us).Decodes)
    (hbad : ∀ a, HasBadSite sites a ↔ a = x) :
    ∃ o n' fault, (Registry.ofUnits us).run settings p n sites = .ok (o, n') ∧ siteFault? sites x = some fault ∧
      ((Registry.ofUnits us).ownClasses.length + sites.length < Forest.capacity → o.InRoom) ∧
      (o.InRoom → ∃ felled,
        o.failures = (if felled = [] then [x] else felled).map (⟨·, fault⟩) ∧
        felled.Sublist (((Registry.ofUnits us).ground settings p n).rootClasses.map (·.name)) ∧
        (∀ r ∈ ((Registry.ofUnits us).ground settings p n).rootClasses,
          r.name ∈ felled ↔ ((Registry.ofUnits us).ground settings p n).Reaches r.name x) ∧
        (o.failures.length = 1 ↔ ∀ q ∈ ((Registry.ofUnits us).ground settings p n).rootClasses,
          ∀ r ∈ ((Registry.ofUnits us).ground settings p n).rootClasses,
            ((Registry.ofUnits us).ground settings p n).Reaches q.name x →
            ((Registry.ofUnits us).ground settings p n).Reaches r.name x → q = r)) := by
  have hg := sound_ground settings p n us
  obtain ⟨o, n', hrun, _, hfail, _⟩ := run_eq (Registry.ofUnits us) settings p n sites hv
  have hearly := hread.earlyFailures settings p n
  have hskip : ((Registry.ofUnits us).ground settings p n).skipped = [] := by
    show ((Registry.ofUnits us).earlyFailures settings p n).map (·.unit) = []
    rw [hearly]
    rfl
  rw [hearly] at hfail
  have hregistry : ((Registry.ofUnits us).ground settings p n).registry = Registry.ofUnits us := rfl
  generalize (Registry.ofUnits us).ground settings p n = g at *
  obtain ⟨fault, hfault, hall⟩ := Ground.failures_plantForest hg hbad
  refine ⟨o, n', fault, hrun, hfault, fun hroom => ?_, fun hroom => ?_⟩
  · rw [← hregistry] at hroom
    rw [Outcome.InRoom, hfail]
    exact Ground.inRoom_plantForest hg hroom fun f hf => by cases hf
  rw [Outcome.InRoom, hfail] at hroom
  obtain ⟨felled, hsub, hmem, hunits⟩ := Ground.units_plantForest hg hbad hskip hroom
  replace hall := hall hroom
  rw [hunits, ← hfail] at hall
  refine ⟨felled, hall, hsub, hmem, ?_⟩
  rw [hall, List.length_map]
  exact hg.length_downed_eq_one_iff hsub hmem

theorem decodes_sharingUnits : (Registry.ofUnits sharingUnits).Decodes := ⟨by decide, by decide, by decide⟩

theorem hasBadSite_siteIn (name a : String) : HasBadSite [siteIn name 0] a ↔ a = name := by
  simp [HasBadSite, siteIn, eq_comm]

theorem run_fells_reaching_sharingUnits : ∃ o n' fault felled,
    (Registry.ofUnits sharingUnits).run {} (.keep Unit) ⟨(), {}⟩ [siteIn "app/N" 0] = .ok (o, n') ∧
      siteFault? [siteIn "app/N" 0] "app/N" = some fault ∧ o.InRoom ∧
      o.failures = (if felled = [] then ["app/N"] else felled).map (⟨·, fault⟩) ∧
      felled.Sublist (((Registry.ofUnits sharingUnits).ground {} (.keep Unit) ⟨(), {}⟩).rootClasses.map (·.name)) := by
  obtain ⟨o, n', fault, hrun, hfault, hroom, hall⟩ := run_fells_reaching sharingUnits {} (.keep Unit)
    ⟨(), {}⟩ [siteIn "app/N" 0] "app/N" rfl decodes_sharingUnits (hasBadSite_siteIn "app/N")
  have hin : o.InRoom := hroom (by decide +kernel)
  obtain ⟨felled, hfailures, hsub, _⟩ := hall hin
  exact ⟨o, n', fault, felled, hrun, hfault, hin, hfailures, hsub⟩

/-- The one bad call site fails both classes that share the nested class. -/
theorem run_sharingUnits_fails_both : (Registry.ofUnits sharingUnits).Decodes ∧
    (∀ a, HasBadSite [siteIn "app/N" 0] a ↔ a = "app/N") ∧
    ∃ o n', (Registry.ofUnits sharingUnits).run {} (.keep Unit) ⟨(), {}⟩ [siteIn "app/N" 0] = .ok (o, n') ∧ o.InRoom ∧
      o.failures.map (·.unit) = ["app/A", "app/B"] ∧ o.failures.length ≠ 1 :=
  ⟨decodes_sharingUnits, hasBadSite_siteIn "app/N", _, _, rfl, by decide +kernel, by decide +kernel, by decide +kernel⟩

end ClassNest
