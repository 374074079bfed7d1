import ClassNest.Proofs.Run.Outcome

/-!
# Every class is accounted for

A class under reconstruction either has its one node, or is named by a failure, or is among the
nested classes that no tree holds. A class that failed has no node: those left out of the trees are
never placed, a tree that fails leaves no root, and no other tree can bring its root back, because
nothing has it below.
-/
namespace ClassNest

namespace Outcome

theorem failed_iff {o : Outcome} {name : String} :
    o.failed name = true ↔ name ∈ o.failures.map (·.unit) := by
  simp [failed]

namespace Grown
variable {g : Ground} {sites : List CallSite} {visits : List String} {o : Outcome}

/-- A class at the top has a node only at the top. -/
theorem mem_rootNames (h : o.Grown g sites visits) (hg : g.Sound) {c : ClassFile}
    (hc : c ∈ g.rootClasses) {i : Nat}
    (hi : o.forest.className? i = some c.name) : some c.name ∈ o.forest.rootNames := by
  cases hp : o.forest.parent? i with
  | none =>
    have hroot := h.settled.shaped.rooted.mem_roots.mpr ⟨Forest.lt_size_of_className? hi, hp⟩
    exact List.mem_map.mpr ⟨i, hroot, hi⟩
  | some p =>
    obtain ⟨e, _, hb⟩ := h.settled.shaped.breadth.enclosed hi hp
    exact absurd hb (hg.not_mem_below hc e)

/-- No class with a node failed. -/
theorem not_failed (h : o.Grown g sites visits) (hg : g.Sound) {i : Nat} {a : String}
    (ha : o.forest.className? i = some a) : o.failed a = false := by
  obtain ⟨failed, extra, hf, hsub, hextra, hroots⟩ := h.failures
  refine Bool.eq_false_iff.mpr fun hfail => ?_
  rw [failed_iff, hf, List.mem_append, List.mem_append] at hfail
  rcases hfail with (hm | hm) | hm
  · exact (h.settled.shaped.own_of_className? ha).1 hm
  · obtain ⟨c, hc, rfl⟩ := List.mem_map.mp (hsub.subset hm)
    have hr := h.mem_rootNames hg hc ha
    rw [hroots] at hr
    obtain ⟨b, hb, he⟩ := List.mem_map.mp hr
    cases he
    simp [hm] at hb
  · have hnone := hextra a hm
    rw [h.settled.shaped.named.find?_iff.mpr ha] at hnone
    cases hnone

theorem failed_of_skipped (h : o.Grown g sites visits) {a : String} (ha : a ∈ g.skipped) :
    o.failed a = true := by
  obtain ⟨failed, extra, hall, _⟩ := h.failures
  rw [failed_iff, hall]
  simp [ha]

/-- The roots are the classes at the top that did not fail, in the order of registration. -/
theorem rootNames_eq (h : o.Grown g sites visits) (hg : g.Sound) :
    o.forest.rootNames = ((g.registry.ownClasses.filter fun c =>
      !o.failed c.name && !(g.nested && g.index.isNested c.name)).map fun c => some c.name) := by
  obtain ⟨failed, extra, hall, _, _, hroots⟩ := h.failures
  have hfilter : (g.rootClasses.map (·.name)).filter (fun a => !failed.contains a) =
      (g.rootClasses.filter fun c => !o.failed c.name).map (·.name) := by
    rw [List.filter_map]
    congr 1
    apply List.filter_congr
    intro c hc
    have hiff : c.name ∈ failed ↔ o.failed c.name = true := by
      constructor
      · intro hm; rw [failed_iff, hall]; simp [hm]
      · intro hf
        -- otherwise the tree of `c` stands, and no class with a node failed
        by_contra hnot
        have hr : some c.name ∈ o.forest.rootNames := by
          rw [hroots]
          exact List.mem_map.mpr
            ⟨c.name, List.mem_filter.mpr ⟨List.mem_map.mpr ⟨c, hc, rfl⟩, by simpa using hnot⟩, rfl⟩
        obtain ⟨r, _, hr⟩ := List.mem_map.mp hr
        rw [h.not_failed hg hr] at hf
        cases hf
    simp only [Function.comp_apply]
    rw [Bool.eq_iff_iff]
    simp [hiff]
  rw [hroots, hfilter, List.map_map]
  unfold Ground.rootClasses
  rw [List.filter_filter]
  congr 1
  apply List.filter_congr
  intro c _
  cases hf : o.failed c.name with
  | true => simp
  | false =>
    have hnot : c.name ∉ g.skipped := fun hm => by rw [h.failed_of_skipped hm] at hf; cases hf
    simp [hnot]

/-- A class under reconstruction has a node unless it failed or no tree holds it. -/
theorem find?_isSome_iff (h : o.Grown g sites visits) (hg : g.Sound) {c : ClassFile}
    (hc : c ∈ g.registry.ownClasses) :
    (o.forest.find? c.name).isSome = true ↔ o.failed c.name = false ∧ c.name ∉ o.forest.unattached := by
  have hnamed := h.settled.shaped.named
  constructor
  · intro hsome
    obtain ⟨i, hi⟩ := Option.isSome_iff_exists.mp hsome
    have hi := hnamed.find?_iff.mp hi
    refine ⟨h.not_failed hg hi, ?_⟩
    have hvisited : c.name ∈ visits := h.settled.tallied.visited hi
    rw [h.unattached, List.mem_filter]
    rintro ⟨_, hnot⟩
    simp [hvisited] at hnot
  · rintro ⟨hf, hu⟩
    have hnode : ∃ i, o.forest.className? i = some c.name := by
      by_cases hn : g.index.isNested c.name = true
      · -- a nested class that is not left over was visited, and a visit to it makes a node
        have hskip : c.name ∉ g.skipped := fun hm => by rw [h.failed_of_skipped hm] at hf; cases hf
        have hown : (g.registry.own? c.name).isSome = true := by
          rw [Registry.own?_of_mem_ownClasses hg.registry hc]; rfl
        have hvisited : c.name ∈ visits := by
          by_contra hnot
          rw [h.unattached] at hu
          exact hu (List.mem_filter.mpr ⟨NestingIndex.isNested_iff.mp hn, by simpa using hnot⟩)
        exact h.settled.tallied.placed hvisited hskip hn hown
      · have hroot : some c.name ∈ o.forest.rootNames := by
          rw [h.rootNames_eq hg]
          exact List.mem_map.mpr ⟨c, List.mem_filter.mpr ⟨hc, by simp [hf, hn]⟩, rfl⟩
        obtain ⟨r, _, hr⟩ := List.mem_map.mp hroot
        exact ⟨r, hr⟩
    obtain ⟨i, hi⟩ := hnode
    rw [hnamed.find?_iff.mpr hi]
    rfl

end Grown

/-- The outcome accounts for the classes of the registry; `inner` tells which of them are nested. -/
structure Accounts (reg : Registry) (inner : String → Bool) (o : Outcome) : Prop where
  /-- a node that is no lambda stands for a class under reconstruction -/
  named : ∀ {i : NodeId} {m : Node}, o.forest.node? i = some m → m.kind ≠ .lambda →
    ∃ c ∈ reg.ownClasses, m.qualifiedName = c.name
  /-- and is the only one of that name -/
  unique : ∀ {i j : NodeId} {m m' : Node}, o.forest.node? i = some m → o.forest.node? j = some m' →
    m.kind ≠ .lambda → m'.kind ≠ .lambda → m.qualifiedName = m'.qualifiedName → i = j
  /-- the look-up by name finds it -/
  found : ∀ {name : String} {i : NodeId}, o.forest.find? name = some i ↔
    ∃ m, o.forest.node? i = some m ∧ m.kind ≠ .lambda ∧ m.qualifiedName = name
  placed : ∀ c ∈ reg.ownClasses, (o.forest.find? c.name).isSome = true ↔
    o.failed c.name = false ∧ c.name ∉ o.forest.unattached
  roots : o.forest.roots.map (fun r => (o.forest.node? r).map (·.qualifiedName)) =
    (reg.ownClasses.filter fun c => !o.failed c.name && !inner c.name).map fun c => some c.name

theorem Grown.accounts {g : Ground} {sites : List CallSite} {visits : List String} {o : Outcome}
    (h : o.Grown g sites visits) (hg : g.Sound) :
    o.Accounts g.registry fun name => g.nested && g.index.isNested name where
  named := by
    intro i m hm hk
    obtain ⟨_, c, hc, hname⟩ := h.settled.shaped.own_of_className? (Forest.className?_iff_node?.mpr ⟨m, hm, hk, rfl⟩)
    exact ⟨c, hc, hname.symm⟩
  unique := by
    intro i j m m' hm hm' hk hk' he
    exact h.settled.shaped.named.eq_of_className? (Forest.className?_iff_node?.mpr ⟨m, hm, hk, he⟩)
      (Forest.className?_iff_node?.mpr ⟨m', hm', hk', rfl⟩)
  found := h.settled.shaped.named.find?_iff.trans Forest.className?_iff_node?
  placed := fun _ hc => h.find?_isSome_iff hg hc
  roots := by
    rw [← h.rootNames_eq hg]
    apply List.map_congr_left
    intro r hr
    obtain ⟨c, _, hname⟩ := h.settled.shaped.labelled.root_class hr
    rw [Forest.qualifiedName_of_className? hname, hname]

end Outcome

/-- Every run with valid settings has an outcome that accounts for all classes, whatever was
registered, in whichever state the renaming is. -/
theorem run_accounts {σ : Type} (us : List ClassUnit) (settings : Settings) (p : Policy σ) (n : Naming σ)
    (sites : List CallSite) (hv : settings.validate = .ok ()) :
    ∃ o n', (Registry.ofUnits us).run settings p n sites = .ok (o, n') ∧
      o.Accounts (Registry.ofUnits us) fun name =>
        settings.nested && ((Registry.ofUnits us).normalize p settings.rename n).index.isNested name := by
  obtain ⟨o, n', visits, hrun, h⟩ := run_grown us settings p n sites hv
  refine ⟨o, n', hrun, ?_⟩
  have hacc := h.accounts (sound_ground settings p n us)
  have hinner : (fun name => settings.nested && ((Registry.ofUnits us).indexFor settings p n).isNested name) =
      fun name => settings.nested && ((Registry.ofUnits us).normalize p settings.rename n).index.isNested name := by
    unfold Registry.indexFor
    cases settings.nested <;> rfl
  rw [← hinner]
  exact hacc

/-- A class at the top and a unit that could not be loaded. -/
def brokenUnits : List ClassUnit :=
  [.loaded { name := "app/Main", own := true }, .corrupted "app/Broken" "truncated"]

theorem run_accounts_brokenUnits : ∃ o n',
    (Registry.ofUnits brokenUnits).run {} (.keep Unit) ⟨(), {}⟩ [] = .ok (o, n') ∧
      o.Accounts (Registry.ofUnits brokenUnits) fun name =>
        true &&
          ((Registry.ofUnits brokenUnits).normalize (.keep Unit) false ⟨(), {}⟩).index.isNested name :=
  run_accounts brokenUnits {} (.keep Unit) ⟨(), {}⟩ [] rfl

end ClassNest
