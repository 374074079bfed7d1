import ClassNest.Proofs.Growth.Shape
import ClassNest.Proofs.Nesting
import ClassNest.Proofs.Registry

/-!
# One tree after the other

`Front g s k done` is the invariant of the breadth-first loop: the nodes before `k` have had their
turn, of the classes below `k` those in `done` have been visited, and everything from `k` on is
still in the queue. One visit keeps it (`Front.visit`), so a round takes `k` to `k + 1`, and the end
of the queue gives `Settled`: whatever is below a class with a node has been visited.
`grow_settled` says so of a whole tree, and that the trees before it are untouched. They are untouched
too by a tree that finds the arena full (`grow_failed`), so that going back leaves no trace of either
(`rollback_of_left`).
-/
namespace ClassNest

/-- What trees grow on when it comes from units. -/
structure Ground.Sound (g : Ground) : Prop where
  registry : g.registry.Distinct
  index : g.index.Sound

theorem Ground.mem_rootClasses {g : Ground} {c : ClassFile} : c ∈ g.rootClasses ↔
    c ∈ g.registry.ownClasses ∧ c.name ∉ g.skipped ∧ (g.nested = true → g.index.isNested c.name = false) := by
  unfold Ground.rootClasses
  cases g.nested <;> simp

/-- The class of a node is a class under reconstruction that need not be skipped. -/
theorem Forest.Shaped.own_of_className? {g : Ground} {f : Forest} (h : f.Shaped g) {i : Nat} {a : String}
    (ha : f.className? i = some a) : a ∉ g.skipped ∧ ∃ c ∈ g.registry.ownClasses, c.name = a := by
  cases hp : f.parent? i with
  | none =>
    obtain ⟨c, hc, hname⟩ := h.labelled.root_class (h.rooted.mem_roots.mpr ⟨lt_size_of_className? ha, hp⟩)
    rw [hname] at ha
    cases ha
    obtain ⟨hown, hskip, _⟩ := Ground.mem_rootClasses.mp hc
    exact ⟨hskip, c, hown, rfl⟩
  | some p =>
    obtain ⟨hskip, r, c, _, hown, _⟩ := h.labelled.inner ha hp
    exact ⟨hskip, c, Registry.mem_ownClasses_of_own? hown, Registry.name_of_own? hown⟩

theorem Ground.mem_below_iff {g : Ground} {e a : String} :
    a ∈ g.below e ↔ g.nested = true ∧ (e, a) ∈ g.index.edges := by
  unfold Ground.below
  split
  · rename_i hn
    rw [NestingIndex.mem_childrenOf, NestingIndex.mem_nestedOf]
    simp [hn]
  · rename_i hn
    simp [hn]

theorem Ground.Sound.isNested_below {g : Ground} (hg : g.Sound) {e a : String} (h : a ∈ g.below e) :
    g.nested = true ∧ g.index.isNested a = true := by
  unfold Ground.below at h
  split at h
  · exact ⟨‹_›, hg.index.isNested_child h⟩
  · cases h

/-- A class at the top is below no other. -/
theorem Ground.Sound.not_mem_below {g : Ground} (hg : g.Sound) {c : ClassFile} (hc : c ∈ g.rootClasses)
    (e : String) : c.name ∉ g.below e := by
  intro hm
  obtain ⟨hn, hi⟩ := hg.isNested_below hm
  rw [(Ground.mem_rootClasses.mp hc).2.2 hn] at hi
  cases hi

theorem Ground.Sound.isOwn_root {g : Ground} (hg : g.Sound) {c : ClassFile} (hc : c ∈ g.rootClasses) :
    g.registry.isOwn c.name = true :=
  Registry.isOwn_of_mem_ownClasses hg.registry (Ground.mem_rootClasses.mp hc).1

theorem Ground.Sound.nodup_rootClasses {g : Ground} (hg : g.Sound) : (g.rootClasses.map (·.name)).Nodup :=
  hg.registry.ownClasses.sublist (List.filter_sublist.map _)

/-- There is one root of a name. -/
theorem Ground.Sound.root_ext {g : Ground} (hg : g.Sound) {c d : ClassFile} (hc : c ∈ g.rootClasses)
    (hd : d ∈ g.rootClasses) (h : c.name = d.name) : c = d := by
  have hown := Registry.own?_of_mem_ownClasses hg.registry (Ground.mem_rootClasses.mp hc).1
  rw [h, Registry.own?_of_mem_ownClasses hg.registry (Ground.mem_rootClasses.mp hd).1] at hown
  exact (Option.some.inj hown).symm

namespace Growth
variable {g : Ground} {s base : Growth}

/-! ## Visits and nodes -/

/-- The names visited are accounted for: each comes from somewhere, and those that can have a node
have one. -/
structure Tallied (g : Ground) (s : Growth) : Prop where
  visited : ∀ {i : Nat} {a : String}, s.forest.className? i = some a → a ∈ s.visits
  origin : ∀ {v : String}, v ∈ s.visits → (∃ r ∈ s.forest.roots, s.forest.className? r = some v) ∨
    ∃ i e, s.forest.className? i = some e ∧ v ∈ g.below e
  placed : ∀ {v : String}, v ∈ s.visits → v ∉ g.skipped → (g.index.record? v).isSome = true →
    (g.registry.own? v).isSome = true → ∃ i, s.forest.className? i = some v

theorem Tallied.find?_eq_none (h : s.Tallied g) (hn : s.forest.Named) {a : String} (ha : a ∉ s.visits) :
    s.forest.find? a = none := hn.find?_eq_none fun _ hi => ha (h.visited hi)

theorem className?_withRoot (s : Growth) (c : ClassFile) :
    (s.withRoot c).forest.className? s.forest.size = some c.name := by
  show (s.forest.addRoot (.ofClass c)).className? s.forest.size = some c.name
  rw [Forest.className?_addRoot, if_pos rfl]
  rfl

theorem Tallied.withRoot (h : s.Tallied g) {c : ClassFile} (hc : c.name ∉ s.visits) :
    (s.withRoot c).Tallied g := by
  have hv : (s.withRoot c).visits = s.visits ++ [c.name] := by
    simp only [Growth.withRoot, pushNew]; rw [if_neg (by simpa using hc)]
  have hold : ∀ {i : Nat} {a : String}, s.forest.className? i = some a →
      (s.withRoot c).forest.className? i = some a := fun ha => Forest.className?_addRoot_some ha
  have hroot := className?_withRoot s c
  refine ⟨?_, ?_, ?_⟩
  · intro i a ha
    rw [hv, List.mem_append, List.mem_singleton]
    have ha' : (s.forest.addRoot (.ofClass c)).className? i = some a := ha
    rw [Forest.className?_addRoot] at ha'
    split at ha'
    · cases ha'; exact .inr rfl
    · exact .inl (h.visited ha')
  · intro v hm
    rw [hv, List.mem_append, List.mem_singleton] at hm
    have hroots : (s.withRoot c).forest.roots = s.forest.roots ++ [s.forest.size] := rfl
    rcases hm with hm | rfl
    · rcases h.origin hm with ⟨r, hr, hn⟩ | ⟨i, e, he, hb⟩
      · exact .inl ⟨r, by rw [hroots]; exact List.mem_append_left _ hr, hold hn⟩
      · exact .inr ⟨i, e, hold he, hb⟩
    · exact .inl ⟨s.forest.size, by rw [hroots]; simp, hroot⟩
  · intro v hm hs hr ho
    rw [hv, List.mem_append, List.mem_singleton] at hm
    rcases hm with hm | rfl
    · obtain ⟨i, hi⟩ := h.placed hm hs hr ho
      exact ⟨i, hold hi⟩
    · exact ⟨_, hroot⟩

theorem Tallied.pass (h : s.Tallied g) {k : Nat} {e name : String} (hk : s.forest.className? k = some e)
    (hm : name ∈ g.below e)
    (hno : name ∈ g.skipped ∨ g.index.record? name = none ∨ g.registry.own? name = none) :
    (s.pass name).Tallied g := by
  refine ⟨fun ha => List.mem_append_left _ (h.visited ha), ?_, ?_⟩
  · intro v hv
    rcases List.mem_append.mp hv with hv | hv
    · exact h.origin hv
    · rw [List.mem_singleton.mp hv]
      exact .inr ⟨k, e, hk, hm⟩
  · intro v hv hs hr ho
    rcases List.mem_append.mp hv with hv | hv
    · exact h.placed hv hs hr ho
    · rw [List.mem_singleton.mp hv] at hs hr ho
      rcases hno with hno | hno | hno
      · exact absurd hno hs
      · rw [hno] at hr; cases hr
      · rw [hno] at ho; cases ho

theorem Tallied.place (h : s.Tallied g) {k : Nat} {e name : String} {r : NestedRecord} {c : ClassFile}
    (hk : s.forest.className? k = some e) (hm : name ∈ g.below e) (hc : c.name = name) :
    (s.place g k name r c).Tallied g := by
  refine ⟨?_, ?_, ?_⟩
  · intro i a ha
    show a ∈ s.visits ++ [name]
    rw [List.mem_append, List.mem_singleton]
    rcases Forest.className?_graft_cases ha with ⟨_, ha⟩ | ⟨_, ha⟩
    · exact .inl (h.visited ha)
    · rw [Ground.className?_materialize, hc] at ha
      cases ha
      exact .inr rfl
  · intro v hv
    rcases List.mem_append.mp hv with hv | hv
    · rcases h.origin hv with ⟨r, hr, hn⟩ | ⟨i, b, hb, hbelow⟩
      · exact .inl ⟨r, hr, Forest.className?_graft_some hn⟩
      · exact .inr ⟨i, b, Forest.className?_graft_some hb, hbelow⟩
    · rw [List.mem_singleton.mp hv]
      exact .inr ⟨k, e, Forest.className?_graft_some hk, hm⟩
  · intro v hv hs hr ho
    rcases List.mem_append.mp hv with hv | hv
    · obtain ⟨i, hi⟩ := h.placed hv hs hr ho
      exact ⟨i, Forest.className?_graft_some hi⟩
    · rw [List.mem_singleton.mp hv]
      refine ⟨s.forest.size, ?_⟩
      show (s.forest.graft k _).className? _ = _
      rw [Forest.className?_graft, if_pos rfl, Ground.className?_materialize, hc]

/-- Finished trees: what is below a class with a node has been visited. -/
structure Settled (g : Ground) (s : Growth) : Prop where
  shaped : s.forest.Shaped g
  tallied : s.Tallied g
  closed : ∀ {i : Nat} {e : String}, s.forest.className? i = some e → ∀ n ∈ g.below e, n ∈ s.visits

theorem settled_empty (g : Ground) : Settled g {} where
  shaped := Forest.shaped_empty g
  tallied := ⟨fun h => (by cases h), fun h => (by cases h), fun h => (by cases h)⟩
  closed := fun h => by cases h

/-- The same trees, with other names forgotten. -/
def recalling (s : Growth) (abandoned : List String) : Growth := { s with abandoned := abandoned }

theorem Settled.recalling (h : s.Settled g) (abandoned : List String) :
    (s.recalling abandoned).Settled g :=
  ⟨h.shaped, ⟨h.tallied.visited, h.tallied.origin, h.tallied.placed⟩, h.closed⟩

/-- `s` grew out of `base` by one tree, and left the others alone. -/
structure Over (base s : Growth) : Prop where
  keeps : base.forest.Keeps s.forest
  grown : base.forest.size < s.forest.size
  roots : s.forest.roots = base.forest.roots ++ [base.forest.size]
  visits : base.visits <+: s.visits
  abandoned : s.abandoned = base.abandoned

/-- A tree of classes alone, headed by `name`. -/
structure Tree (base : Growth) (name : String) (s : Growth) : Prop extends Over base s where
  root : s.forest.className? base.forest.size = some name
  classes : ∀ {i : Nat}, base.forest.size ≤ i → i < s.forest.size → ∃ a, s.forest.className? i = some a

/-! ## The loop -/

structure Front (g : Ground) (s : Growth) (k : Nat) (done : List String) : Prop where
  shaped : s.forest.Shaped g
  tallied : s.Tallied g
  parents : ∀ {i p : Nat}, s.forest.parent? i = some p → p ≤ k
  roots : ∀ r ∈ s.forest.roots, r ≤ k
  closed : ∀ {i : Nat} {e : String}, s.forest.className? i = some e → i < k → ∀ n ∈ g.below e,
    n ∈ s.visits
  current : (s.forest.nestedNames k).Sublist done
  seen : ∀ n ∈ done, n ∈ s.visits

/-- The queue holds the nodes from `k` on. -/
structure Pending (f : Forest) (k : Nat) (queue : List (NodeId × String)) : Prop where
  ids : queue.map (·.1) = List.range' k (f.size - k)
  names : ∀ e ∈ queue, f.className? e.1 = some e.2

/-- A class that gets its node now fits where it goes. -/
theorem Front.fits {k : Nat} {done : List String} {e name : String} (h : Front g s k done)
    (hsub : (done ++ [name]).Sublist (g.below e)) (hk : s.forest.className? k = some e) (hv : name ∉ s.visits) :
    s.forest.Fits g.below k name where
  parents := h.parents
  least := fun hj hlt hm => hv (h.closed hj hlt _ hm)
  listed := by
    intro e' he'
    rw [hk] at he'
    cases he'
    exact (h.current.append (List.Sublist.refl [name])).trans hsub

theorem Front.visit {k : Nat} {done : List String} {e name : String} {made : Option (NodeId × String)}
    (h : Front g s k done) (hk : s.forest.className? k = some e) (hsub : (done ++ [name]).Sublist (g.below e))
    (hok : (s.visit g k name).answer = .ok made) : Front g (s.visit g k name).state k (done ++ [name]) := by
  have hm : name ∈ g.below e := hsub.subset (by simp)
  rcases visit_cases g k s name with
    ⟨hv, he⟩ | ⟨hv, hno, log, he⟩ | ⟨hv, hs, r, c, hr, hc, ⟨_, _, he⟩ | ⟨fault, _, he⟩⟩
  · rw [he]
    refine ⟨h.shaped, h.tallied, h.parents, h.roots, h.closed,
      h.current.trans (List.sublist_append_left _ _), ?_⟩
    intro n hn
    rcases List.mem_append.mp hn with hn | hn
    · exact h.seen n hn
    · rw [List.mem_singleton.mp hn]; exact hv
  · rw [he]
    refine ⟨h.shaped, h.tallied.pass hk hm hno, h.parents, h.roots,
      fun hi hlt n hn => List.mem_append_left _ (h.closed hi hlt n hn),
      h.current.trans (List.sublist_append_left _ _), ?_⟩
    intro n hn
    rcases List.mem_append.mp hn with hn | hn
    · exact List.mem_append_left _ (h.seen n hn)
    · exact List.mem_append_right _ hn
  · have hname := Registry.name_of_own? hc
    have hlt := Forest.lt_size_of_className? hk
    rw [he]
    refine ⟨?_, h.tallied.place hk hm hname, ?_, h.roots, ?_, ?_, ?_⟩
    · exact h.shaped.graft_class hk h.roots (h.fits hsub hk hv) (h.tallied.find?_eq_none h.shaped.named hv) hs hr hc
        hname
    · intro i p hp
      rcases Forest.parent?_graft_cases hp with ⟨_, hp⟩ | ⟨_, rfl⟩
      · exact h.parents hp
      · exact Nat.le_refl _
    · intro i b hb hi n hn
      obtain ⟨_, hb⟩ := (Forest.className?_graft_cases hb).resolve_right fun hx => by omega
      exact List.mem_append_left _ (h.closed hb hi n hn)
    · show ((s.forest.graft k (g.materialize r c)).nestedNames k).Sublist _
      rw [h.shaped.linked.nestedNames_graft (by simp) hlt, if_pos rfl,
        Ground.className?_materialize, hname]
      exact h.current.append (List.Sublist.refl _)
    · intro n hn
      rcases List.mem_append.mp hn with hn | hn
      · exact List.mem_append_left _ (h.seen n hn)
      · exact List.mem_append_right _ hn
  · rw [he] at hok
    cases hok

/-- A visit takes no name away from a node. -/
theorem className?_visit {k i : Nat} {a : String} (name : String) (h : s.forest.className? i = some a) :
    (s.visit g k name).state.forest.className? i = some a := by
  rcases visit_cases g k s name with
    ⟨_, he⟩ | ⟨_, _, log, he⟩ | ⟨_, _, r, c, _, _, ⟨_, _, he⟩ | ⟨fault, _, he⟩⟩
  · rw [he]; exact h
  · rw [he]; exact h
  · rw [he]; exact Forest.className?_graft_some h
  · rw [he]; exact h

theorem Pending.visit {k j : Nat} {queue : List (NodeId × String)} {name : String} {made : Option (NodeId × String)}
    (h : Pending s.forest j queue) (hj : j ≤ s.forest.size) (hok : (s.visit g k name).answer = .ok made) :
    Pending (s.visit g k name).state.forest j (queue ++ made.toList) := by
  rcases visit_cases g k s name with
    ⟨_, he⟩ | ⟨_, _, log, he⟩ | ⟨_, _, r, c, _, hc, ⟨_, _, he⟩ | ⟨fault, _, he⟩⟩
  · rw [he] at hok ⊢
    cases hok
    simpa using h
  · rw [he] at hok ⊢
    cases hok
    simpa [Growth.pass] using h
  · rw [he] at hok ⊢
    cases hok
    refine ⟨?_, ?_⟩
    · have hsize : (s.place g k name r c).forest.size - j = (s.forest.size - j) + 1 := by
        show (s.forest.graft k _).size - j = _
        rw [Forest.size_graft]; omega
      have hend : j + 1 * (s.forest.size - j) = s.forest.size := by omega
      rw [List.map_append, h.ids, hsize, List.range'_concat, hend]
      rfl
    · intro e hmem
      rcases List.mem_append.mp hmem with hmem | hmem
      · exact Forest.className?_graft_some (h.names e hmem)
      · rw [Option.toList_some, List.mem_singleton] at hmem
        subst hmem
        show (s.forest.graft k _).className? s.forest.size = some name
        rw [Forest.className?_graft, if_pos rfl, Ground.className?_materialize, Registry.name_of_own? hc]
  · rw [he] at hok
    cases hok

theorem Tree.visit {k : Nat} {top : String} (h : Tree base top s) (ht : s.Tallied g) (hn : s.forest.Named)
    (hk : base.forest.size ≤ k) (name : String) : Tree base top (s.visit g k name).state := by
  have hroot := className?_visit (g := g) (k := k) name h.root
  have hpass : Tree base top (s.pass name) :=
    ⟨⟨h.keeps, h.grown, h.roots, h.visits.trans (List.prefix_append _ _), h.abandoned⟩, h.root, h.classes⟩
  rcases visit_cases g k s name with
    ⟨_, he⟩ | ⟨_, _, log, he⟩ | ⟨hv, _, r, c, _, hc, ⟨_, _, he⟩ | ⟨fault, _, he⟩⟩
  · rw [he]; exact h
  · rw [he]; exact hpass
  · have hsize : (s.place g k name r c).forest.size = s.forest.size + 1 := Forest.size_graft
    rw [he] at hroot ⊢
    refine ⟨⟨h.keeps.graft hk ?_, ?_, h.roots, h.visits.trans (List.prefix_append _ _),
      h.abandoned⟩, hroot, ?_⟩
    · intro a ha
      rw [Ground.className?_materialize, Registry.name_of_own? hc] at ha
      cases ha
      exact ht.find?_eq_none hn hv
    · rw [hsize]
      exact Nat.lt_succ_of_lt h.grown
    · intro i hi hlt
      rw [hsize] at hlt
      show ∃ a, (s.forest.graft k _).className? i = some a
      rw [Forest.className?_graft]
      by_cases hie : i = s.forest.size
      · exact ⟨c.name, by rw [if_pos hie]; simp⟩
      · rw [if_neg hie]
        exact h.classes hi (by omega)
  · rw [he]; exact hpass

/-- Below a node that is there, only a full arena ends a visit. -/
theorem visit_error {k : Nat} (hk : k < s.forest.size) {name : String} {fault : Fault}
    (hfail : (s.visit g k name).answer = .error fault) : fault = Forest.full := by
  rcases visit_cases g k s name with
    ⟨_, he⟩ | ⟨_, _, log, he⟩ | ⟨_, _, r, c, _, _, ⟨_, _, he⟩ | ⟨other, hfull, he⟩⟩
  · rw [he] at hfail; cases hfail
  · rw [he] at hfail; cases hfail
  · rw [he] at hfail; cases hfail
  · rw [he] at hfail
    cases hfail
    exact (hfull hk).2

/-- All visits below the node whose turn it is, or those up to one that finds no room. -/
theorem Front.visitAll {k : Nat} {e top : String} (hbase : base.forest.size ≤ k) :
    ∀ (rest : List String) {s : Growth} {done : List String} {queue : List (NodeId × String)},
      Front g s k done → s.forest.className? k = some e → done ++ rest = g.below e →
      Pending s.forest (k + 1) queue → Tree base top s →
      Tree base top (s.visitAll g k rest).state ∧
      (∀ fault, (s.visitAll g k rest).answer = .error fault → fault = Forest.full) ∧
      ∀ made, (s.visitAll g k rest).answer = .ok made →
        Front g (s.visitAll g k rest).state k (g.below e) ∧
        (s.visitAll g k rest).state.forest.className? k = some e ∧
        Pending (s.visitAll g k rest).state.forest (k + 1) (queue ++ made)
  | [], s, done, queue, h, hk, hd, hq, ho => by
    rw [List.append_nil] at hd
    subst hd
    refine ⟨ho, fun _ hf => (by cases hf), fun made hm => ?_⟩
    cases hm
    exact ⟨h, hk, by simpa [Growth.visitAll] using hq⟩
  | name :: rest, s, done, queue, h, hk, hd, hq, ho => by
    have hsub : (done ++ [name]).Sublist (g.below e) := by
      have happ := List.sublist_append_left (done ++ [name]) rest
      rw [List.append_assoc, List.singleton_append, hd] at happ
      exact happ
    have hlt := Forest.lt_size_of_className? hk
    have htree := ho.visit (g := g) (k := k) h.tallied h.shaped.named hbase name
    rw [Growth.visitAll]
    rcases Step.andThen_cases (s.visit g k name) fun s made => (s.visitAll g k rest).map (made.toList ++ ·) with
      ⟨fault, hone, he⟩ | ⟨one, hone, he⟩
    · rw [he]
      exact ⟨htree, fun _ hf => (Except.error.inj hf) ▸ visit_error hlt hone, fun _ hf => (by cases hf)⟩
    · obtain ⟨h1, h2, h3⟩ := Front.visitAll hbase rest (h.visit hk hsub hone) (className?_visit name hk)
        (by rw [← hd]; simp) (hq.visit hlt hone) htree
      rw [he]
      refine ⟨h1, fun fault hf => ?_, fun made hm => ?_⟩
      · exact h2 fault (Step.of_map_error hf)
      · obtain ⟨more, hmore, rfl⟩ := Step.of_map_ok hm
        obtain ⟨h4, h5, h6⟩ := h3 more hmore
        exact ⟨h4, h5, by rw [← List.append_assoc]; exact h6⟩

/-- The turn goes to the next node, which has no children yet. -/
theorem Front.next {k : Nat} {e : String} (h : Front g s k (g.below e))
    (hk : s.forest.className? k = some e) :
    Front g s (k + 1) [] := by
  refine ⟨h.shaped, h.tallied, fun hp => Nat.le_succ_of_le (h.parents hp),
    fun r hr => Nat.le_succ_of_le (h.roots r hr),
    ?_, ?_, fun _ hn => by cases hn⟩
  · intro i b hb hi n hn
    by_cases hik : i = k
    · rw [hik, hk] at hb
      cases hb
      exact h.seen n hn
    · exact h.closed hb (by omega) n hn
  · have hnil : s.forest.children (k + 1) = [] := by
      refine List.eq_nil_iff_forall_not_mem.mpr fun j hj => ?_
      have := h.parents (h.shaped.linked.mem_children.mp hj)
      omega
    unfold Forest.nestedNames
    rw [hnil]
    exact List.nil_sublist _

/-- The loop goes through all nodes, and is over when all have had their turn, or when a node finds no room. -/
theorem Spreads.settled {queue : List (NodeId × String)} {top : String} {r : Step Growth Unit}
    (hr : Spreads g s queue r) :
    ∀ {k : Nat}, Front g s k [] → Pending s.forest k queue → Tree base top s → base.forest.size ≤ k →
      Tree base top r.state ∧ (∀ fault, r.answer = .error fault → fault = Forest.full) ∧
        (r.answer = .ok () → Settled g r.state) := by
  -- a turn, with what is left of the queue
  have hturn : ∀ {s : Growth} {id k : NodeId} {name : String} {queue : List (NodeId × String)},
      Pending s.forest k ((id, name) :: queue) →
      id = k ∧ s.forest.className? id = some name ∧ Pending s.forest (id + 1) queue := by
    intro s id k name queue hq
    have hids := hq.ids
    rw [List.map_cons] at hids
    obtain ⟨m, hm⟩ : ∃ m, s.forest.size - k = m + 1 := by
      cases hd : s.forest.size - k with
      | zero => rw [hd] at hids; cases hids
      | succ m => exact ⟨m, rfl⟩
    rw [hm, List.range'_succ, List.cons.injEq] at hids
    obtain ⟨rfl, hids⟩ := hids
    refine ⟨rfl, hq.names (id, name) (by simp), ?_, fun e he => hq.names e (by simp [he])⟩
    have hsize : s.forest.size - (id + 1) = m := by omega
    rw [hids, hsize]
  induction hr with
  | done s =>
    intro k h hq ho _
    have hend : s.forest.size ≤ k := by
      have hl := congrArg List.length hq.ids
      rw [List.length_range', List.map_nil, List.length_nil] at hl
      omega
    exact ⟨ho, fun _ hf => (by cases hf), fun _ => ⟨h.shaped, h.tallied, fun hi n hn =>
      h.closed hi (Nat.lt_of_lt_of_le (Forest.lt_size_of_className? hi) hend) n hn⟩⟩
  | @fail s id name queue fault hfail =>
    intro k h hq ho hbase
    obtain ⟨rfl, hk, hq'⟩ := hturn hq
    obtain ⟨h1, h2, _⟩ := Front.visitAll hbase (g.below name) h hk (List.nil_append _) hq' ho
    exact ⟨h1, fun other hf => (Except.error.inj hf) ▸ h2 fault hfail, fun hf => (by cases hf)⟩
  | @step s id name queue made rest hok _ ih =>
    intro k h hq ho hbase
    obtain ⟨rfl, hk, hq'⟩ := hturn hq
    obtain ⟨h1, _, h3⟩ := Front.visitAll hbase (g.below name) h hk (List.nil_append _) hq' ho
    obtain ⟨h4, h5, h6⟩ := h3 made hok
    exact ih (h4.next h5) h6 h1 (Nat.le_succ_of_le hbase)

/-! ## A whole tree -/

theorem Settled.front (h : s.Settled g) {c : ClassFile} (hc : c ∈ g.rootClasses)
    (hv : c.name ∉ s.visits) :
    Front g (s.withRoot c) s.forest.size [] := by
  have hlinked := h.shaped.linked
  refine ⟨h.shaped.addRoot hc (h.tallied.find?_eq_none h.shaped.named hv), h.tallied.withRoot hv,
    ?_, ?_, ?_, ?_,
    fun _ hn => by cases hn⟩
  · intro i p hp
    have hp' : (s.forest.addRoot (.ofClass c)).parent? i = some p := hp
    rw [Forest.parent?_addRoot rfl] at hp'
    have h1 := hlinked.parent_lt hp'
    have h2 := Forest.lt_size_of_parent? hp'
    omega
  · intro r hr
    have hr' : r ∈ s.forest.roots ++ [s.forest.size] := hr
    rcases List.mem_append.mp hr' with hr' | hr'
    · exact Nat.le_of_lt (h.shaped.rooted.mem_roots.mp hr').1
    · exact Nat.le_of_eq (List.mem_singleton.mp hr')
  · intro i e he hi n hn
    have he' : (s.forest.addRoot (.ofClass c)).className? i = some e := he
    rw [Forest.className?_addRoot, if_neg (Nat.ne_of_lt hi)] at he'
    exact mem_pushNew.mpr (.inl (h.closed he' n hn))
  · have hnil : (s.forest.addRoot (.ofClass c)).children s.forest.size = [] := by
      rw [Forest.children_addRoot rfl, Forest.children_eq_nil (Nat.le_refl _)]
    show ((s.forest.addRoot (.ofClass c)).nestedNames _).Sublist _
    unfold Forest.nestedNames
    rw [hnil]
    exact List.nil_sublist _

theorem Settled.tree_withRoot (h : s.Settled g) {c : ClassFile} (hv : c.name ∉ s.visits) :
    Tree s c.name (s.withRoot c) where
  keeps := h.shaped.named.keeps_self.addRoot fun a ha => by
    cases ha; exact h.tallied.find?_eq_none h.shaped.named hv
  grown := by show _ < (s.forest.addRoot _).size; rw [Forest.size_addRoot]; exact Nat.lt_succ_self _
  roots := rfl
  visits := by
    show s.visits <+: pushNew s.visits c.name
    unfold pushNew
    split
    · exact List.prefix_refl _
    · exact List.prefix_append _ _
  abandoned := rfl
  root := className?_withRoot s c
  classes := by
    intro i hi hlt
    have hlt' : i < (s.forest.addRoot (.ofClass c)).size := hlt
    rw [Forest.size_addRoot] at hlt'
    rw [show i = s.forest.size by omega]
    exact ⟨c.name, className?_withRoot s c⟩

/-- Growing a tree, and what there is of it where the arena gets full. -/
theorem Settled.spreads (h : s.Settled g) {c : ClassFile} (hc : c ∈ g.rootClasses) (hv : c.name ∉ s.visits)
    {r : Step Growth Unit} (hr : Spreads g (s.withRoot c) [(s.forest.size, c.name)] r) :
    Tree s c.name r.state ∧ (∀ fault, r.answer = .error fault → fault = Forest.full) ∧
      (r.answer = .ok () → Settled g r.state) := by
  refine hr.settled (h.front hc hv) ⟨?_, ?_⟩ (h.tree_withRoot hv) (Nat.le_refl _)
  · have hsize : (s.withRoot c).forest.size - s.forest.size = 1 := by
      show (s.forest.addRoot _).size - _ = 1
      rw [Forest.size_addRoot]; omega
    rw [hsize]; rfl
  · intro e he
    rw [List.mem_singleton.mp he]
    exact className?_withRoot s c

theorem grow_settled (h : s.Settled g) {c : ClassFile} (hc : c ∈ g.rootClasses) (hv : c.name ∉ s.visits)
    {root : NodeId} (hok : (s.grow g c).answer = .ok root) :
    root = s.forest.size ∧ (s.grow g c).state.Settled g ∧ Tree s c.name (s.grow g c).state := by
  generalize hgrown : s.grow g c = grown at *
  cases hgrown ▸ grow_heads g s c with
  | full => cases hok
  | grown _ hr =>
    obtain ⟨htree, _, hsettled⟩ := h.spreads hc hv hr
    obtain ⟨_, hanswer, rfl⟩ := Step.of_map_ok hok
    exact ⟨rfl, hsettled hanswer, htree⟩

/-- A tree that grows no further: the arena is full, and what was there before the tree is still there. -/
theorem grow_failed (h : s.Settled g) {c : ClassFile} (hc : c ∈ g.rootClasses) (hv : c.name ∉ s.visits)
    {fault : Fault} (hfail : (s.grow g c).answer = .error fault) :
    fault = Forest.full ∧ ((s.grow g c).state = s ∨ Over s (s.grow g c).state) := by
  generalize hgrown : s.grow g c = grown at *
  cases hgrown ▸ grow_heads g s c with
  | full =>
    cases hfail
    exact ⟨rfl, .inl rfl⟩
  | @grown r _ hr =>
    obtain ⟨htree, hfull, _⟩ := h.spreads hc hv hr
    exact ⟨hfull fault (Step.of_map_error hfail), .inr htree.toOver⟩

/-- Going back takes the whole tree away, with whatever else hangs on it by then. -/
theorem rollback_of_over (h : Over base s) (hb : base.Settled g) :
    s.rollback base.mark = base.recalling (base.abandoned ++ s.visits.drop base.visits.length) := by
  have hforest : s.forest.rollback base.mark.forest = base.forest :=
    Forest.rollback_of_keeps h.keeps hb.shaped.linked h.grown
  have hvisits : s.visits.take base.mark.visits = base.visits :=
    (List.prefix_iff_eq_take.mp h.visits).symm
  unfold rollback since
  rw [hforest, hvisits, h.abandoned]
  rfl

/-- Going back from where nothing has grown changes nothing. -/
theorem rollback_mark (s : Growth) : s.rollback s.mark = s := by
  have hforest : s.forest.rollback s.mark.forest = s.forest := if_pos ⟨Nat.le_refl _, Nat.le_refl _⟩
  have hvisits : s.visits.take s.mark.visits = s.visits := List.take_length
  have hsince : s.since s.mark = [] := List.drop_length
  unfold rollback
  rw [hforest, hvisits, hsince, List.append_nil]

/-- The same, where there may be no tree at all. -/
theorem rollback_of_left (h : s = base ∨ Over base s) (hb : base.Settled g) :
    s.rollback base.mark = base.recalling (base.abandoned ++ s.visits.drop base.visits.length) := by
  rcases h with rfl | h
  · rw [rollback_mark, List.drop_length, List.append_nil]
    rfl
  · exact rollback_of_over h hb

end Growth
end ClassNest
