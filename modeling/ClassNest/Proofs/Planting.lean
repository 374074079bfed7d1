import ClassNest.Proofs.Forest.Walks
import ClassNest.Proofs.Growth.Trees
import ClassNest.Proofs.Lambda

/-!
# Trees with their lambdas

The trees of a run so far are `Settled`: finished as trees, and every class that has a node has the
lambdas of all its call sites. Planting one more tree has two outcomes: either the tree stands with
its lambdas (`plant_ok`), or the trees are what they were, and all that is left of it is a failure
and the names that were given up (`plant_failed`), whether a bad call site or a full arena ended it.
The run lemma `foldl_plant` follows the list of roots.
-/
namespace ClassNest

/-! ## Names whose call sites are free -/

theorem freeNames_spec (sites : List CallSite) : ∀ (names claimed : List String),
    (freeNames sites claimed names).Nodup ∧
      ∀ a, a ∈ freeNames sites claimed names ↔ a ∈ names ∧ a ∉ claimed ∧ sitesOf sites a ≠ []
  | [], claimed => ⟨List.nodup_nil, fun a => by simp [freeNames]⟩
  | name :: names, claimed => by
    rw [freeNames]
    by_cases h : (claimed.contains name || (sitesOf sites name).isEmpty) = true
    · obtain ⟨hnd, hm⟩ := freeNames_spec sites names claimed
      rw [if_pos h]
      refine ⟨hnd, fun a => ?_⟩
      rw [hm]
      constructor
      · rintro ⟨h1, h2⟩; exact ⟨by simp [h1], h2⟩
      · rintro ⟨h1, h2, h3⟩
        rcases List.mem_cons.mp h1 with rfl | h1
        · simp [h2, h3] at h
        · exact ⟨h1, h2, h3⟩
    · obtain ⟨hnd, hm⟩ := freeNames_spec sites names (name :: claimed)
      rw [if_neg h]
      simp only [Bool.or_eq_true, not_or, List.contains_iff_mem, List.isEmpty_iff] at h
      refine ⟨List.nodup_cons.mpr ⟨fun hc => ((hm name).mp hc).2.1 (by simp), hnd⟩, fun a => ?_⟩
      rw [List.mem_cons, hm]
      constructor
      · rintro (rfl | ⟨h1, h2, h3⟩)
        · exact ⟨by simp, h⟩
        · exact ⟨by simp [h1], fun hc => h2 (by simp [hc]), h3⟩
      · rintro ⟨h1, h2, h3⟩
        by_cases ha : a = name
        · exact .inl ha
        · exact .inr ⟨(List.mem_cons.mp h1).resolve_left ha, by simp [ha, h2], h3⟩

/-! ## The classes of the last tree -/

namespace Forest

theorem qualifiedName_of_className? {f : Forest} {i : Nat} {a : String} (h : f.className? i = some a) :
    (f.node? i).map (·.qualifiedName) = some a := by
  obtain ⟨m, hm, _, ha⟩ := className?_iff_node?.mp h
  rw [hm]
  exact congrArg some ha

/-- Everything from the last root on lies in its tree. -/
theorem Shaped.within_last {g : Ground} {f : Forest} (h : f.Shaped g) {b : Nat} (hb : b ∈ f.roots)
    (hlast : ∀ r ∈ f.roots, r ≤ b) : ∀ i : Nat, b ≤ i → i < f.size → f.Within b i := by
  intro i
  induction i using Nat.strongRecOn with
  | ind i ih =>
    intro hi hlt
    cases hp : f.parent? i with
    | none =>
      have hle := hlast i (h.rooted.mem_roots.mpr ⟨hlt, hp⟩)
      rw [Nat.le_antisymm hle hi]
      exact .self
    | some p =>
      have hpi := h.linked.parent_lt hp
      have hbp := h.breadth.roots_le hb hi hp
      exact .child (ih p hpi hbp (Nat.lt_trans hpi hlt)) hp

/-- The names that are met on the way down from the last root. -/
theorem Shaped.mem_namesOf_last {g : Ground} {f : Forest} (h : f.Shaped g) {b : Nat} (hb : b ∈ f.roots)
    (hlast : ∀ r ∈ f.roots, r ≤ b) (hclass : ∀ i : Nat, b ≤ i → i < f.size → ∃ a, f.className? i = some a)
    {a : String} : a ∈ f.namesOf (f.subtree b) ↔ ∃ i, b ≤ i ∧ f.className? i = some a := by
  have hlt := (h.rooted.mem_roots.mp hb).1
  have hmem := (subtree_spec h.linked hlt).2
  unfold namesOf
  rw [List.mem_filterMap]
  constructor
  · rintro ⟨i, hi, ha⟩
    have hw := (hmem i).mp hi
    obtain ⟨a', ha'⟩ := hclass i (hw.le h.linked) (hw.lt_size hlt)
    rw [qualifiedName_of_className? ha'] at ha
    cases ha
    exact ⟨i, hw.le h.linked, ha'⟩
  · rintro ⟨i, hi, ha⟩
    exact ⟨i, (hmem i).mpr (h.within_last hb hlast i hi (lt_size_of_className? ha)),
      qualifiedName_of_className? ha⟩

/-- A tree of classes brings no lambda, and takes none away. -/
theorem Carries.tree {reg : Registry} {base s : Growth} {top : String} {att : List CallSite}
    (h : base.forest.Carries reg att) (ht : Growth.Tree base top s) (hl : base.forest.Linked)
    (hn : s.forest.Named) (hl' : s.forest.Linked) : s.forest.Carries reg att := by
  have hkeep := ht.keeps
  refine ⟨?_, ?_, ?_⟩
  · intro i e he
    by_cases hi : i < base.forest.size
    · rw [hkeep.className? hi] at he
      obtain ⟨nested, lams, hc, hnest, hall⟩ := h.split he
      have hchild : ∀ j ∈ base.forest.children i, j < base.forest.size := fun j hj => hl.child_lt_size hj
      refine ⟨nested, lams, by rw [hkeep.children hi, hc], ?_, ?_⟩
      · intro j hj
        rw [hkeep.className? (hchild j (by rw [hc]; simp [hj]))]
        exact hnest j hj
      · refine hall.imp fun j s ⟨info, h1, h2⟩ => ⟨info, h1, ?_⟩
        rw [hkeep.label? (lt_size_of_label? h2)]
        exact h2
    · -- a class of the new tree has no call site among those attached before
      have hnil : sitesOf att e = [] := by
        refine List.filter_eq_nil_iff.mpr fun t hts hte => ?_
        obtain ⟨j, hj⟩ := h.known t hts
        rw [beq_iff_eq] at hte
        have hjlt := lt_size_of_className? hj
        rw [← hkeep.className? hjlt, hte] at hj
        exact hi (hn.eq_of_className? he hj ▸ hjlt)
      refine ⟨s.forest.children i, [], by simp, ?_, by rw [hnil]; exact .nil⟩
      intro j hj
      have hp := hl'.mem_children.mp hj
      have hij := hl'.parent_lt hp
      exact ht.classes (by omega) (lt_size_of_parent? hp)
  · intro j l hj hlam
    by_cases hjlt : j < base.forest.size
    · rw [hkeep.label? hjlt] at hj
      obtain ⟨p, info, h1, h2, h3⟩ := h.owned hj hlam
      have hp := lt_size_of_className? h3
      exact ⟨p, info, by rw [hkeep.parent? hjlt]; exact h1, h2, by rw [hkeep.className? hp]; exact h3⟩
    · obtain ⟨a, ha⟩ := ht.classes (Nat.le_of_not_lt hjlt) (lt_size_of_label? hj)
      obtain ⟨l', hl', hc, _⟩ := className?_eq_some.mp ha
      rw [hj] at hl'
      cases hl'
      rw [hlam] at hc
      cases hc
  · intro t ht'
    obtain ⟨i, hi⟩ := h.known t ht'
    exact ⟨i, by rw [hkeep.className? (lt_size_of_className? hi)]; exact hi⟩

/-! ## Lambdas on the last tree -/

/-- `f` is the forest `tree` with the lambdas of `att`, which hang on nothing older than its last
tree. -/
structure Leafed (g : Ground) (base tree f : Forest) (att : List CallSite) : Prop where
  shaped : f.Shaped g
  keeps : base.Keeps f
  size_le : tree.size ≤ f.size
  roots : f.roots = tree.roots
  className? : ∀ i, f.className? i = tree.className? i
  carries : f.Carries g.registry att

theorem Leafed.graft {g : Ground} {base tree f : Forest} {att : List CallSite} {p : Nat} {s : CallSite}
    {info : LambdaInfo} (h : Leafed g base tree f att) (hb : base.size ≤ p) (hroots : ∀ r ∈ tree.roots, r ≤ p)
    (hp : f.className? p = some s.declaringClass) (hd : info.Describes g.registry s) :
    Leafed g base tree (f.graft p (.ofLambda info)) (att ++ [s]) where
  shaped := h.shaped.graft_lambda hp (by rw [h.roots]; exact hroots) info
  keeps := h.keeps.graft hb fun a ha => by cases ha
  size_le := by rw [size_graft]; exact Nat.le_succ_of_le h.size_le
  roots := h.roots
  className? := fun i => (className?_graft_none rfl).trans (h.className? i)
  carries := h.carries.graft_lambda h.shaped.named hp hd

theorem attachGroups_leafed {g : Ground} {base grown : Growth} {att sites : List CallSite}
    {names : List String}
    (hs : grown.Settled g) (ht : Growth.Over base grown) (hb : base.forest.Rooted)
    (hc : grown.forest.Carries g.registry att)
    (hnames : ∀ a ∈ names, ∃ i, base.forest.size ≤ i ∧ grown.forest.className? i = some a) :
    ∃ att', Leafed g base.forest grown.forest (grown.forest.attachGroups g.registry sites names).state att' ∧
      ((grown.forest.attachGroups g.registry sites names).answer = .ok () →
        att' = att ++ names.flatMap (sitesOf sites)) := by
  refine attachGroups_induct ?_ ?_ ⟨hs.shaped, ht.keeps, Nat.le_refl _, rfl, fun _ => rfl, hc⟩
  · intro f att s info p h hs' hd hp
    have hp := h.shaped.named.find?_iff.mp hp
    obtain ⟨i, hi, hci⟩ := hnames _ hs'
    have hip : i = p := hs.shaped.named.eq_of_className? hci (by rw [← h.className?]; exact hp)
    refine h.graft (hip ▸ hi) ?_ hp hd
    intro r hr
    rw [ht.roots, List.mem_append, List.mem_singleton] at hr
    rcases hr with hr | rfl
    · exact Nat.le_trans (Nat.le_of_lt (hb.mem_roots.mp hr).1) (hip ▸ hi)
    · exact hip ▸ hi
  · intro f att h a ha
    obtain ⟨i, _, hi⟩ := hnames a ha
    exact ⟨i, h.shaped.named.find?_iff.mpr (by rw [h.className?]; exact hi)⟩

/-- The names of the roots, in order. -/
def rootNames (f : Forest) : List (Option String) := f.roots.map f.className?

end Forest

/-! ## Planting -/

namespace Planting

/-- Trees that stand with all their lambdas. -/
structure Settled (g : Ground) (sites : List CallSite) (s : Planting) : Prop where
  growth : s.growth.Settled g
  carries : s.growth.forest.Carries g.registry (s.claimed.flatMap (sitesOf sites))
  nodup : s.claimed.Nodup
  mem_claimed : ∀ {a : String}, a ∈ s.claimed ↔
    (∃ i, s.growth.forest.className? i = some a) ∧ sitesOf sites a ≠ []

/-- The classes of a new tree whose call sites it claims. -/
def claims (g : Ground) (sites : List CallSite) (s : Planting) (c : ClassFile) : List String :=
  freeNames sites s.claimed
    ((s.growth.grow g c).state.forest.namesOf ((s.growth.grow g c).state.forest.subtree s.growth.forest.size))

/-- A new tree with the lambdas that its classes get, as far as they can be attached. -/
def leafed (g : Ground) (sites : List CallSite) (s : Planting) (c : ClassFile) : Step Forest Unit :=
  (s.growth.grow g c).state.forest.attachGroups g.registry sites (s.claims g sites c)

section
variable {g : Ground} {sites : List CallSite} {s : Planting} {c : ClassFile} {names : List String} {fault : Fault}

/-- A tree that is through gets its lambdas. -/
theorem raise_of_grown (hgrown : (s.growth.grow g c).answer = .ok s.growth.forest.size) : s.raise g sites c =
    ⟨{ (s.growth.grow g c).state with forest := (s.leafed g sites c).state },
      (s.leafed g sites c).answer.map fun _ => s.claims g sites c,
      (s.growth.grow g c).log ++ (s.leafed g sites c).log⟩ :=
  Step.andThen_of_ok hgrown _

theorem raise_of_refused (hrefused : (s.growth.grow g c).answer = .error fault) : s.raise g sites c =
    ⟨(s.growth.grow g c).state, .error fault, (s.growth.grow g c).log⟩ :=
  Step.andThen_of_error hrefused _

theorem plant_of_ok (hok : (s.raise g sites c).answer = .ok names) :
    s.plant g sites c =
      { s with
        growth := (s.raise g sites c).state
        claimed := s.claimed ++ names
        log := s.log ++ (s.raise g sites c).log } := by
  unfold plant
  simp only [hok]

theorem plant_of_error (hfail : (s.raise g sites c).answer = .error fault) :
    s.plant g sites c =
      { s with
        growth := (s.raise g sites c).state.rollback s.growth.mark
        failures := s.failures ++ [⟨c.name, fault.inUnitOr c.name⟩]
        log := s.log ++ (s.raise g sites c).log ++ errorLine (fault.inUnitOr c.name).text } := by
  unfold plant
  simp only [hfail]

section
variable (h : s.Settled g sites) (hc : c ∈ g.rootClasses) (hv : c.name ∉ s.growth.visits)
include h hc hv

/-- A tree stands if it finds room and its lambdas can be attached. -/
theorem Settled.raise_ok (hok : (s.raise g sites c).answer = .ok names) :
    (s.growth.grow g c).answer = .ok s.growth.forest.size ∧ (s.leafed g sites c).answer = .ok () ∧
      names = s.claims g sites c := by
  cases hgrow : (s.growth.grow g c).answer with
  | error fault =>
    rw [raise_of_refused hgrow] at hok
    cases hok
  | ok root =>
    obtain ⟨rfl, _, _⟩ := Growth.grow_settled h.growth hc hv hgrow
    rw [raise_of_grown hgrow] at hok
    cases hleaf : (s.leafed g sites c).answer with
    | error fault =>
      rw [hleaf] at hok
      cases hok
    | ok _ =>
      rw [hleaf] at hok
      exact ⟨rfl, rfl, (Except.ok.inj hok).symm⟩

section
variable (hgrow : (s.growth.grow g c).answer = .ok s.growth.forest.size)
include hgrow

/-- The classes that a new tree claims are its own, and those of them with call sites. -/
theorem Settled.mem_claims {a : String} : a ∈ s.claims g sites c ↔
      (∃ i, s.growth.forest.size ≤ i ∧ (s.growth.grow g c).state.forest.className? i = some a) ∧
        a ∉ s.claimed ∧ sitesOf sites a ≠ [] := by
  obtain ⟨_, hs, ht⟩ := Growth.grow_settled h.growth hc hv hgrow
  unfold claims
  rw [(freeNames_spec sites _ _).2, hs.shaped.mem_namesOf_last]
  · rw [ht.roots]; simp
  · intro r hr
    rw [ht.roots, List.mem_append, List.mem_singleton] at hr
    rcases hr with hr | hr
    · exact Nat.le_of_lt (h.growth.shaped.rooted.mem_roots.mp hr).1
    · exact Nat.le_of_eq hr
  · intro i hi hlt; exact ht.classes hi hlt

theorem Settled.leafed :
    ∃ att, Forest.Leafed g s.growth.forest (s.growth.grow g c).state.forest (s.leafed g sites c).state att ∧
      ((s.leafed g sites c).answer = .ok () → att = (s.claimed ++ s.claims g sites c).flatMap (sitesOf sites)) := by
  obtain ⟨_, hs, ht⟩ := Growth.grow_settled h.growth hc hv hgrow
  have hcarry := h.carries.tree ht h.growth.shaped.linked hs.shaped.named hs.shaped.linked
  rw [List.flatMap_append]
  exact Forest.attachGroups_leafed hs ht.toOver h.growth.shaped.rooted hcarry
    fun a ha => ((h.mem_claims hc hv hgrow).mp ha).1

end

/-- What there is of a tree, when it stands or fails, is on top of what was there before. -/
theorem Settled.raise_left : (s.raise g sites c).state = s.growth ∨ Growth.Over s.growth (s.raise g sites c).state := by
  cases hgrow : (s.growth.grow g c).answer with
  | error fault =>
    rw [raise_of_refused hgrow]
    exact (Growth.grow_failed h.growth hc hv hgrow).2
  | ok root =>
    obtain ⟨rfl, _, ht⟩ := Growth.grow_settled h.growth hc hv hgrow
    obtain ⟨att, hl, _⟩ := h.leafed hc hv hgrow
    rw [raise_of_grown hgrow]
    exact .inr ⟨hl.keeps, Nat.lt_of_lt_of_le ht.grown hl.size_le, hl.roots.trans ht.roots, ht.visits, ht.abandoned⟩

/-- A tree that stands: it comes after the others, and all its call sites are in use. -/
theorem Settled.plant_ok (hok : (s.raise g sites c).answer = .ok names) :
    (s.plant g sites c).Settled g sites ∧
      (s.plant g sites c).growth.forest.rootNames = s.growth.forest.rootNames ++ [some c.name] := by
  obtain ⟨hgrow, hleaf, rfl⟩ := h.raise_ok hc hv hok
  obtain ⟨_, hs, ht⟩ := Growth.grow_settled h.growth hc hv hgrow
  obtain ⟨att, hl, hatt⟩ := h.leafed hc hv hgrow
  have hclass := hl.className?
  rw [plant_of_ok hok, raise_of_grown hgrow]
  refine ⟨⟨⟨hl.shaped, ⟨?_, ?_, ?_⟩, ?_⟩, ?_, ?_, ?_⟩, ?_⟩
  · intro i a ha; exact hs.tallied.visited (by rw [← hclass]; exact ha)
  · intro v hv
    simp only [hclass, hl.roots]
    exact hs.tallied.origin hv
  · intro v hv hsk hr ho
    simp only [hclass]
    exact hs.tallied.placed hv hsk hr ho
  · intro i e he; exact hs.closed (by rw [← hclass]; exact he)
  · rw [← hatt hleaf]; exact hl.carries
  · rw [List.nodup_append]
    refine ⟨h.nodup, (freeNames_spec sites _ _).1, ?_⟩
    rintro a ha b hb rfl
    exact ((h.mem_claims hc hv hgrow).mp hb).2.1 ha
  · intro a
    rw [List.mem_append, h.mem_claims hc hv hgrow, h.mem_claimed]
    constructor
    · rintro (⟨⟨i, hi⟩, hne⟩ | ⟨⟨i, _, hi⟩, _, hne⟩)
      · exact ⟨⟨i, by rw [hl.keeps.className? (Forest.lt_size_of_className? hi)]; exact hi⟩, hne⟩
      · exact ⟨⟨i, by rw [hclass]; exact hi⟩, hne⟩
    · rintro ⟨⟨i, hi⟩, hne⟩
      by_cases hlt : i < s.growth.forest.size
      · exact .inl ⟨⟨i, by rw [← hl.keeps.className? hlt]; exact hi⟩, hne⟩
      · by_cases hcl : a ∈ s.claimed
        · exact .inl (h.mem_claimed.mp hcl)
        · exact .inr ⟨⟨i, Nat.le_of_not_lt hlt, by rw [← hclass]; exact hi⟩,
            fun hm => hcl (h.mem_claimed.mpr hm), hne⟩
  · show (s.leafed g sites c).state.rootNames = _
    unfold Forest.rootNames
    rw [hl.roots, ht.roots, List.map_append, List.map_singleton, hclass, ht.root]
    congr 1
    apply List.map_congr_left
    intro r hr
    exact hl.keeps.className? (h.growth.shaped.rooted.mem_roots.mp hr).1

/-- A tree that fails: the trees and the call sites in use are what they were, and the names that it
visited are given up. -/
theorem Settled.plant_failed (hfail : (s.raise g sites c).answer = .error fault) : s.plant g sites c =
    { s with
      growth := s.growth.recalling
        (s.growth.abandoned ++ (s.raise g sites c).state.visits.drop s.growth.visits.length)
      failures := s.failures ++ [⟨c.name, fault.inUnitOr c.name⟩]
      log := s.log ++ (s.raise g sites c).log ++ errorLine (fault.inUnitOr c.name).text } := by
  rw [plant_of_error hfail, Growth.rollback_of_left (h.raise_left hc hv) h.growth]

end

/-- A name at the top that was visited heads one of the trees. -/
theorem Settled.mem_rootNames (h : s.Settled g sites) (hg : g.Sound) (hc : c ∈ g.rootClasses)
    (hv : c.name ∈ s.growth.visits) : some c.name ∈ s.growth.forest.rootNames := by
  rcases h.growth.tallied.origin hv with ⟨r, hr, hn⟩ | ⟨_, e, _, hb⟩
  · exact List.mem_map.mpr ⟨r, hr, hn⟩
  · exact absurd hb (hg.not_mem_below hc e)

theorem Settled.visited_of_rootNames (h : s.Settled g sites) {a : String}
    (ha : some a ∈ s.growth.forest.rootNames) : a ∈ s.growth.visits := by
  obtain ⟨r, _, hr⟩ := List.mem_map.mp ha
  exact h.growth.tallied.visited hr

/-- The trees stand, and the roots in `cs` come next. -/
structure Ready (g : Ground) (sites : List CallSite) (cs : List ClassFile) (s : Planting) : Prop where
  settled : s.Settled g sites
  roots : ∀ c ∈ cs, c ∈ g.rootClasses
  nodup : (cs.map (·.name)).Nodup
  fresh : ∀ c ∈ cs, c.name ∉ s.growth.visits

theorem Ready.start (hg : g.Sound) (sites : List CallSite) (failures : List Failure) :
    Ready g sites g.rootClasses { failures := failures } where
  settled := by
    refine ⟨Growth.settled_empty g, Forest.carries_empty _, List.nodup_nil, ?_⟩
    intro a
    constructor
    · intro h; cases h
    · rintro ⟨⟨i, h⟩, _⟩; cases h
  roots := fun _ h => h
  nodup := hg.nodup_rootClasses
  fresh := fun _ _ h => by cases h

/-- One root, whether it stands or fails. -/
theorem Ready.plant {cs : List ClassFile} (hg : g.Sound) (h : Ready g sites (c :: cs) s) :
    Ready g sites cs (s.plant g sites c) := by
  have hc := h.roots c (by simp)
  have hcv := h.fresh c (by simp)
  have hnd := h.nodup
  rw [List.map_cons, List.nodup_cons] at hnd
  have hroots : ∀ d ∈ cs, d ∈ g.rootClasses := fun d hd => h.roots d (by simp [hd])
  cases hl : (s.raise g sites c).answer with
  | ok names =>
    obtain ⟨hs, hnames⟩ := h.settled.plant_ok hc hcv hl
    refine ⟨hs, hroots, hnd.2, fun d hd hm => ?_⟩
    have hr := hs.mem_rootNames hg (hroots d hd) hm
    rw [hnames, List.mem_append, List.mem_singleton] at hr
    rcases hr with hr | hr
    · exact h.fresh d (by simp [hd]) (h.settled.visited_of_rootNames hr)
    · exact hnd.1 (List.mem_map.mpr ⟨d, hd, Option.some.inj hr⟩)
  | error fault =>
    rw [h.settled.plant_failed hc hcv hl]
    exact ⟨⟨h.settled.growth.recalling _, h.settled.carries, h.settled.nodup,
      h.settled.mem_claimed⟩, hroots, hnd.2,
      fun d hd => h.fresh d (by simp [hd])⟩

/-- One tree after the other: the roots that stand are those that did not fail, in order. -/
theorem foldl_plant (hg : g.Sound) : ∀ (cs : List ClassFile) {s : Planting}, Ready g sites cs s →
    (cs.foldl (plant g sites) s).Settled g sites ∧
      ∃ failed : List Failure, (cs.foldl (plant g sites) s).failures = s.failures ++ failed ∧
        (failed.map (·.unit)).Sublist (cs.map (·.name)) ∧
        (cs.foldl (plant g sites) s).growth.forest.rootNames = s.growth.forest.rootNames ++
          ((cs.map (·.name)).filter fun a => !(failed.map (·.unit)).contains a).map some
  | [], s, h => ⟨h.settled, [], by simp, .slnil, by simp⟩
  | c :: cs, s, h => by
    have hc := h.roots c (by simp)
    have hcv := h.fresh c (by simp)
    have hnot : c.name ∉ cs.map (·.name) := (List.nodup_cons.mp h.nodup).1
    obtain ⟨hs, failed, hf, hsub, hr⟩ := foldl_plant hg cs (h.plant hg)
    rw [List.foldl_cons]
    refine ⟨hs, ?_⟩
    cases hl : (s.raise g sites c).answer with
    | ok names =>
      have hfail : (s.plant g sites c).failures = s.failures := by rw [plant_of_ok hl]
      refine ⟨failed, by rw [hf, hfail], hsub.cons _, ?_⟩
      have hstands : c.name ∉ failed.map (·.unit) := fun hm => hnot (hsub.subset hm)
      have hkept : (!(failed.map (·.unit)).contains c.name) = true := by
        rw [List.contains_eq_mem, decide_eq_false hstands]; rfl
      rw [hr, (h.settled.plant_ok hc hcv hl).2, List.map_cons, List.filter_cons, if_pos hkept, List.append_assoc]
      rfl
    | error fault =>
      have he := h.settled.plant_failed hc hcv hl
      refine ⟨⟨c.name, fault.inUnitOr c.name⟩ :: failed, ?_, hsub.cons_cons _, ?_⟩
      · rw [hf, he]; simp
      · rw [hr, List.map_cons (l := cs), List.filter_cons_of_neg (by simp), he]
        congr 2
        apply List.filter_congr
        intro a ha
        have hne : a ≠ c.name := fun e => hnot (e ▸ ha)
        simp [hne]

/-- All trees. -/
theorem plantAll_spec (hg : g.Sound) (sites : List CallSite) (failures : List Failure) :
    (plantAll g sites { failures := failures }).Settled g sites ∧
      ∃ failed : List Failure, (plantAll g sites { failures := failures }).failures = failures ++ failed ∧
        (failed.map (·.unit)).Sublist (g.rootClasses.map (·.name)) ∧
        (plantAll g sites { failures := failures }).growth.forest.rootNames =
          ((g.rootClasses.map (·.name)).filter fun a => !(failed.map (·.unit)).contains a).map some :=
  foldl_plant hg g.rootClasses (Ready.start hg sites failures)

end
end Planting

/-! ## Call sites of classes without a tree -/

namespace Forest

/-- Lambdas of a class without a node are passed over. -/
theorem addLambdas_of_none {reg : Registry} {f : Forest} {name : String} (hf : f.find? name = none)
    {ss : List CallSite} {infos : List LambdaInfo}
    (hall : List.Forall₂ (fun s info => LambdaInfo.Describes reg s info) ss infos) :
    (∀ s ∈ ss, s.declaringClass = name) → ∃ log, f.addLambdas infos = ⟨f, .ok [], log⟩ := by
  induction hall with
  | nil => intro _; exact ⟨_, rfl⟩
  | @cons s info ss infos hd _ ih =>
    intro h
    have hnone : f.find? info.declaringClass = none := by rw [hd.declaringClass, h s (by simp), hf]
    obtain ⟨log, hone⟩ := addLambda_of_none hnone
    obtain ⟨rest, hrest⟩ := ih fun t ht => h t (by simp [ht])
    rw [addLambdas, hone, Step.andThen_of_ok rfl, hrest]
    exact ⟨log ++ rest, rfl⟩

/-- So nothing can keep the call sites of such a class from being attached but a bad one among them. -/
theorem attachAll_of_find?_none (reg : Registry) {f : Forest} (sites : List CallSite) {name : String}
    (hf : f.find? name = none) :
    (f.attachAll reg (sitesOf sites name)).state = f ∧
      (f.attachAll reg (sitesOf sites name)).answer = (describeAll reg (sitesOf sites name)).1.map fun _ => [] := by
  cases hd : (describeAll reg (sitesOf sites name)).1 with
  | error fault =>
    rw [attachAll_of_error hd]
    exact ⟨rfl, rfl⟩
  | ok infos =>
    obtain ⟨log, he⟩ := addLambdas_of_none hf (describeAll_ok (Prod.ext hd rfl))
      fun s hs => declaringClass_of_mem_sitesOf hs
    rw [attachAll_of_ok hd, he]
    exact ⟨rfl, rfl⟩

end Forest

/-- The forest stays as it is, and every class that fails now is one without a node. -/
theorem Draining.foldl_drain {g : Ground} {sites : List CallSite} {abandoned : List String} :
    ∀ (names : List String) {s : Draining}, (∀ a ∈ names, s.forest.find? a = none) →
      (names.foldl (drain g sites abandoned) s).forest = s.forest ∧
        ∃ extra, (names.foldl (drain g sites abandoned) s).failures.map (·.unit) = s.failures.map (·.unit) ++ extra ∧
          ∀ a ∈ extra, s.forest.find? a = none
  | [], s, _ => ⟨rfl, [], by simp, fun _ h => by cases h⟩
  | name :: names, s, h => by
    have hname := h name (by simp)
    have hone : (s.drain g sites abandoned name).forest = s.forest ∧
        ∃ extra, (s.drain g sites abandoned name).failures.map (·.unit) = s.failures.map (·.unit) ++ extra ∧
          ∀ a ∈ extra, s.forest.find? a = none := by
      unfold drain
      split
      · exact ⟨rfl, [], by simp, fun _ h => by cases h⟩
      · have hstate := (Forest.attachAll_of_find?_none g.registry sites hname).1
        simp only
        split
        · exact ⟨hstate, [], by simp, fun _ h => by cases h⟩
        · refine ⟨hstate, [name], by simp, fun a ha => ?_⟩
          rw [List.mem_singleton.mp ha]; exact hname
    obtain ⟨hforest, extra, hextra, hnone⟩ := hone
    obtain ⟨hf, more, hmore, hm⟩ := foldl_drain names (s := s.drain g sites abandoned name)
      (fun a ha => by rw [hforest]; exact h a (by simp [ha]))
    rw [hforest] at hf hm
    refine ⟨hf, extra ++ more, ?_, ?_⟩
    · rw [List.foldl_cons, hmore, hextra, List.append_assoc]
    · intro a ha
      rcases List.mem_append.mp ha with ha | ha
      · exact hnone a ha
      · exact hm a ha

theorem mem_declaringClasses {sites : List CallSite} {a : String} :
    a ∈ declaringClasses sites ↔ sitesOf sites a ≠ [] := by
  have hfold : ∀ (xs acc : List String), a ∈ xs.foldl pushNew acc ↔ a ∈ acc ∨ a ∈ xs := by
    intro xs
    induction xs with
    | nil => intro acc; simp
    | cons x xs ih => intro acc; rw [List.foldl_cons, ih, mem_pushNew, List.mem_cons, or_assoc]
  unfold declaringClasses sitesOf
  rw [hfold, Ne, List.filter_eq_nil_iff]
  simp

/-- A class whose call sites are left over has no node. -/
theorem Planting.Settled.find?_eq_none {g : Ground} {sites : List CallSite} {s : Planting}
    (h : s.Settled g sites) {a : String}
    (ha : a ∈ (declaringClasses sites).filter fun name => !s.claimed.contains name) :
    s.growth.forest.find? a = none := by
  obtain ⟨ha, hfree⟩ := List.mem_filter.mp ha
  refine h.growth.shaped.named.find?_eq_none fun i hi => ?_
  have hcl := h.mem_claimed.mpr ⟨⟨i, hi⟩, mem_declaringClasses.mp ha⟩
  simp [hcl] at hfree

/-- The whole forest: that of the trees, with the classes that are left out, and no failure besides
those of the trees but of classes without a node. -/
theorem Ground.plantForest_spec {g : Ground} (hg : g.Sound) (sites : List CallSite)
    (failures : List Failure) :
    (g.plantForest sites failures).forest =
      { (Planting.plantAll g sites { failures := failures }).growth.forest with
        unattached := (Planting.plantAll g sites { failures := failures }).growth.unattached g } ∧
    ∃ extra, (g.plantForest sites failures).failures.map (·.unit) =
        (Planting.plantAll g sites { failures := failures }).failures.map (·.unit) ++ extra ∧
      ∀ a ∈ extra, (Planting.plantAll g sites { failures := failures }).growth.forest.find? a = none := by
  obtain ⟨hs, _⟩ := Planting.plantAll_spec hg sites failures
  unfold plantForest
  exact Draining.foldl_drain _ fun a ha => hs.find?_eq_none ha

end ClassNest
