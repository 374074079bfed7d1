import ClassNest.Proofs.Forest.Pruned
import ClassNest.Proofs.Likeness
import ClassNest.Proofs.Run.BreadthFirst
import ClassNest.Proofs.Run.Skipping

/-!
# The classes of an outcome

The lambdas of a run and the trees that fail leave no trace in its classes: growing trees alone, without call sites,
on the ground that skips every unit that failed, gives the forest of the run without its lambdas, node by
node and in the same order.

The two run side by side. The trees on the one side are those on the other without lambdas, and the queues
hold the same nodes, each at its place (`Growth.Lockstep`). Failed roots are skipped from the start, as in
`ClassNest.Proofs.Run.Skipping`. What else failed has no node, so that skipping it changes nothing for
the classes that have one (`Ground.Agrees`).
-/
namespace ClassNest

/-! ## Grounds that agree on what is reached -/

namespace Ground
variable {g g' : Ground}

theorem nodeOf?_eq_some {name : String} {n : Node} : g.nodeOf? name = some n ↔ name ∉ g.skipped ∧
    ∃ r c, g.index.record? name = some r ∧ g.registry.own? name = some c ∧ n = g.materialize r c := by
  unfold nodeOf?
  by_cases hs : name ∈ g.skipped
  · simp [hs]
  · cases g.index.record? name <;> cases g.registry.own? name <;> simp [hs, eq_comm]

/-- The nodes that visits make are those of classes, and have no children yet. -/
theorem class_of_nodeOf? {name : String} {n : Node} (h : g.nodeOf? name = some n) :
    n.isLambda = false ∧ n.children = [] := by
  obtain ⟨_, r, c, _, _, rfl⟩ := nodeOf?_eq_some.mp h
  exact ⟨(Node.className?_eq_some.mp (className?_materialize g r c)).1, children_materialize g r c⟩

/-- The two grounds are the same for the classes that are `live`, and what these have below them is live if it gets a
node. -/
structure Agrees (live : String → Prop) (g g' : Ground) : Prop where
  nested : g'.nested = g.nested
  index : g'.index = g.index
  node : ∀ {e a : String}, live e → a ∈ g.below e → g'.nodeOf? a = g.nodeOf? a
  reach : ∀ {e a : String}, live e → a ∈ g.below e → (g.nodeOf? a).isSome = true → live a

end Ground

/-! ## Trees -/

namespace Growth
variable {live : String → Prop} {g g' : Ground} {s t : Growth} {queue queue' : List (NodeId × String)}

/-- `t` has the trees of `s` without their lambdas. -/
structure Prunes (s t : Growth) : Prop where
  inside : s.forest.Inside
  forest : t.forest = s.forest.withoutLambdas
  visits : t.visits = s.visits

/-- The node of `e` in `f`, a live class, is the node of `e'` in the forest without lambdas. -/
structure Moved (live : String → Prop) (f : Forest) (e e' : NodeId × String) : Prop where
  lt_size : e.1 < f.size
  place : f.place? e.1 = some e'.1
  name : e'.2 = e.2
  isLive : live e.2

theorem Moved.mono {f f' : Forest} {e e' : NodeId × String} (h : Moved live f e e') (hl : f.lambdas <+: f'.lambdas) :
    Moved live f' e e' := by
  have hle := hl.length_le
  rw [Forest.length_lambdas, Forest.length_lambdas] at hle
  exact ⟨Nat.lt_of_lt_of_le h.lt_size hle, (Forest.place?_of_grown hl h.lt_size).trans h.place, h.name, h.isLive⟩

/-- The same trees, and the same nodes in the queues. -/
structure Lockstep (live : String → Prop) (s t : Growth) (queue queue' : List (NodeId × String)) : Prop
    extends Prunes s t where
  queue : List.Forall₂ (Moved live s.forest) queue queue'

/-- The visit of a name that is new, below the node whose turn it is. Without lambdas there is at least as much
room. -/
theorem Lockstep.settle {e e' : NodeId × String} (h : Lockstep live s t (e :: queue) (e' :: queue')) (name : String)
    {n : Option Node} (hn : ∀ m, n = some m → m.isLambda = false ∧ m.children = [])
    (hlive : n.isSome = true → live name) {made : Option (NodeId × String)}
    (hok : (s.settle e.1 name n).answer = .ok made) :
    ∃ made', (t.settle e'.1 name n).answer = .ok made' ∧
      Lockstep live (s.settle e.1 name n).state (t.settle e'.1 name n).state
        (e :: queue ++ made.toList) (e' :: queue' ++ made'.toList) := by
  have hvisits : t.visits ++ [name] = s.visits ++ [name] := by rw [h.visits]
  cases n with
  | none =>
    cases hok
    refine ⟨none, rfl, ⟨h.inside, h.forest, hvisits⟩, ?_⟩
    simp only [Growth.settle, Option.toList_none, List.append_nil]
    exact h.queue
  | some m =>
    obtain ⟨hclass, hchildren⟩ := hn m rfl
    obtain ⟨hlt, hplace, _, _⟩ := (List.forall₂_cons.mp h.queue).1
    have hlt' : e'.1 < t.forest.size := by
      rw [h.forest]
      exact Forest.place?_lt hlt hplace
    have hsize : t.forest.size ≤ s.forest.size := by
      rw [h.forest]
      exact Forest.size_withoutLambdas_le
    rcases Forest.perform_attach_cases (f := s.forest) hlt m with ⟨hroom, he⟩ | ⟨_, he⟩
    · have hone : s.settle e.1 name (some m) =
          ⟨{ s.pass name with forest := s.forest.graft e.1 m }, .ok (some (s.forest.size, name)), []⟩ := by
        rw [Growth.settle, perform]
        simp only [pass, he]
        rfl
      have hone' : t.settle e'.1 name (some m) =
          ⟨{ t.pass name with forest := t.forest.graft e'.1 m }, .ok (some (t.forest.size, name)), []⟩ := by
        rw [Growth.settle, perform]
        simp only [pass, Forest.perform_attach, if_pos hlt', if_pos (Nat.lt_of_le_of_lt hsize hroom)]
        rfl
      rw [hone] at hok
      cases hok
      rw [hone, hone']
      have hl := Forest.lambdas_graft (f := s.forest) (p := e.1) (n := m)
      have hforest : t.forest.graft e'.1 m = (s.forest.graft e.1 m).withoutLambdas := by
        rw [h.forest, Forest.withoutLambdas_graft_class h.inside hclass hchildren hlt hplace]
      have hnew : Moved live (s.forest.graft e.1 m) (s.forest.size, name) (t.forest.size, name) :=
        ⟨by simp, by rw [Forest.place?_size hl, hclass, h.forest]; rfl, rfl, hlive rfl⟩
      refine ⟨_, rfl, ⟨h.inside.graft hchildren hlt, hforest, hvisits⟩, ?_⟩
      exact List.rel_append (h.queue.imp fun _ _ hm => hm.mono ⟨_, hl.symm⟩) (.cons hnew .nil)
    · rw [Growth.settle, perform] at hok
      simp only [pass, he] at hok
      cases hok

theorem Lockstep.visit {e e' : NodeId × String} (h : Lockstep live s t (e :: queue) (e' :: queue')) {name : String}
    (hnode : g'.nodeOf? name = g.nodeOf? name) (hlive : (g.nodeOf? name).isSome = true → live name)
    {made : Option (NodeId × String)} (hok : (s.visit g e.1 name).answer = .ok made) :
    ∃ made', (t.visit g' e'.1 name).answer = .ok made' ∧
      Lockstep live (s.visit g e.1 name).state (t.visit g' e'.1 name).state
        (e :: queue ++ made.toList) (e' :: queue' ++ made'.toList) := by
  by_cases hv : name ∈ s.visits
  · have hv' : name ∈ t.visits := h.visits ▸ hv
    rw [visit_of_mem hv] at hok ⊢
    rw [visit_of_mem hv']
    cases hok
    exact ⟨none, rfl, by simpa using h⟩
  · have hv' : name ∉ t.visits := h.visits ▸ hv
    obtain ⟨hstate, hanswer⟩ := visit_eq_settle (g := g) hv e.1
    obtain ⟨hstate', hanswer'⟩ := visit_eq_settle (g := g') hv' e'.1
    rw [hnode] at hstate' hanswer'
    rw [hanswer] at hok
    rw [hstate, hstate', hanswer']
    exact h.settle name (fun m => Ground.class_of_nodeOf?) hlive hok

theorem Lockstep.visitAll {e e' : NodeId × String} : ∀ (names : List String) {s t : Growth}
    {queue queue' made : List (NodeId × String)}, Lockstep live s t (e :: queue) (e' :: queue') →
    (∀ a ∈ names, g'.nodeOf? a = g.nodeOf? a ∧ ((g.nodeOf? a).isSome = true → live a)) →
    (s.visitAll g e.1 names).answer = .ok made →
    ∃ made', (t.visitAll g' e'.1 names).answer = .ok made' ∧
      Lockstep live (s.visitAll g e.1 names).state (t.visitAll g' e'.1 names).state
        (e :: queue ++ made) (e' :: queue' ++ made')
  | [], _, _, _, _, _, h, _, hok => by
    cases hok
    exact ⟨[], rfl, by simpa [Growth.visitAll] using h⟩
  | name :: names, s, t, queue, queue', made, h, hnames, hok => by
    obtain ⟨hnode, hlive⟩ := hnames name (by simp)
    obtain ⟨one, hone, hmap, hstate⟩ := Step.of_andThen_ok hok
    obtain ⟨more, hmore, rfl⟩ := Step.of_map_ok hmap
    obtain ⟨one', hone', hstep⟩ := h.visit hnode hlive hone
    obtain ⟨more', hmore', hrest⟩ := Lockstep.visitAll names hstep (fun a ha => hnames a (by simp [ha])) hmore
    have hall : t.visitAll g' e'.1 (name :: names) = _ := Step.andThen_of_ok hone' _
    rw [hall, Growth.visitAll, hstate]
    refine ⟨one'.toList ++ more', by rw [Step.answer_map, hmore']; rfl, ?_⟩
    simpa using hrest

theorem Lockstep.spread (hg : g.Agrees live g') (hn : g.nested = true) : ∀ (rounds : Nat)
    (queue queue' : List (NodeId × String)) {s t : Growth}, Lockstep live s t queue queue' →
    (s.spread g rounds queue).answer = .ok () →
    (t.spread g' rounds queue').answer = .ok () ∧
      Prunes (s.spread g rounds queue).state (t.spread g' rounds queue').state
  | 0, _, _, _, _, h, _ => ⟨rfl, h.toPrunes⟩
  | rounds + 1, [], _, _, _, h, _ => by
    rw [List.forall₂_nil_left_iff.mp h.queue]
    exact ⟨rfl, h.toPrunes⟩
  | rounds + 1, e :: queue, _, s, t, h, hok => by
    obtain ⟨e', queue', hhead, _, rfl⟩ := List.forall₂_cons_left_iff.mp h.queue
    have hbelow : g.below e.2 = g.index.childrenOf e.2 := by simp [Ground.below, hn]
    obtain ⟨made, hmade, hspread, hstate⟩ := Step.of_andThen_ok hok
    obtain ⟨made', hmade', hturn⟩ := h.visitAll (g.index.childrenOf e.2) (fun a ha => by
      rw [← hbelow] at ha
      exact ⟨hg.node hhead.isLive ha, hg.reach hhead.isLive ha⟩) hmade
    have hnext : Lockstep live _ _ _ _ := ⟨hturn.toPrunes, (List.forall₂_cons.mp hturn.queue).2⟩
    obtain ⟨hanswer, hprunes⟩ := Lockstep.spread hg hn rounds _ _ hnext hspread
    rw [← hhead.name, ← hg.index] at hmade'
    have hround : t.spread g' (rounds + 1) (e' :: queue') = _ := Step.andThen_of_ok hmade' _
    rw [hround, Growth.spread, hstate, hhead.name, hg.index]
    exact ⟨hanswer, hprunes⟩

/-- One tree. -/
theorem Prunes.grow (hg : g.Agrees live g') (h : Prunes s t) {c : ClassFile} (hc : live c.name) {root : NodeId}
    (hok : (s.grow g c).answer = .ok root) :
    (∃ root', (t.grow g' c).answer = .ok root') ∧ Prunes (s.grow g c).state (t.grow g' c).state := by
  have hl := Forest.lambdas_addRoot (f := s.forest) (n := .ofClass c)
  have hroot : Prunes (s.withRoot c) (t.withRoot c) := by
    refine ⟨h.inside.addRoot rfl rfl, ?_, congrArg (pushNew · c.name) h.visits⟩
    show t.forest.addRoot _ = (s.forest.addRoot _).withoutLambdas
    rw [h.forest, Forest.withoutLambdas_addRoot h.inside rfl rfl rfl]
  have hfirst : Moved live (s.withRoot c).forest (s.forest.size, c.name) (t.forest.size, c.name) := by
    refine ⟨?_, ?_, rfl, hc⟩
    · show s.forest.size < (s.forest.addRoot _).size
      simp
    · show (s.forest.addRoot _).place? s.forest.size = _
      rw [Forest.place?_size hl, h.forest]
      rfl
  have hsize : t.forest.size ≤ s.forest.size := by
    rw [h.forest]
    exact Forest.size_withoutLambdas_le
  rcases Nat.lt_or_ge s.forest.size Forest.capacity with hroom | hfull
  · rw [grow_of_room hroom, hg.nested.symm] at hok ⊢
    rw [grow_of_room (Nat.lt_of_le_of_lt hsize hroom), hg.index]
    cases hn : g'.nested with
    | true =>
      rw [hn] at hok
      obtain ⟨_, hspread, _⟩ := Step.of_map_ok hok
      obtain ⟨hanswer, hprunes⟩ :=
        Lockstep.spread hg (hg.nested.symm.trans hn) _ _ _ ⟨hroot, .cons hfirst .nil⟩ hspread
      exact ⟨⟨t.forest.size, congrArg (Except.map fun _ => t.forest.size) hanswer⟩, hprunes⟩
    | false => exact ⟨⟨t.forest.size, rfl⟩, hroot⟩
  · rw [grow_of_full hfull] at hok
    cases hok

theorem Prunes.finish (h : Prunes s t) (hindex : g'.index = g.index) :
    (t.finish g').1 = { s.forest.withoutLambdas with unattached := s.unattached g } := by
  simp only [Growth.finish, unattached, h.forest, h.visits, hindex]

end Growth

/-! ## Trees with their lambdas -/

namespace Forest
variable {f f' : Forest} {reg : Registry} {sites : List CallSite} {names : List String}

/-- `f'` is `f` with more lambdas, for all that can be told without them. -/
structure MoreLambdas (f f' : Forest) : Prop where
  inside : f'.Inside
  named : f'.Named
  same : f'.withoutLambdas = f.withoutLambdas
  find? : ∀ name, f'.find? name = f.find? name

theorem MoreLambdas.graft (h : f.MoreLambdas f') {name : String} {p : NodeId} (hp : f'.find? name = some p)
    (info : LambdaInfo) : f.MoreLambdas (f'.graft p (.ofLambda info)) := by
  have hclass := h.named.find?_iff.mp hp
  have hlt := lt_size_of_className? hclass
  refine ⟨h.inside.graft rfl hlt, h.named.graft fun a ha => (by cases ha), ?_, fun name => ?_⟩
  · rw [withoutLambdas_graft_lambda h.inside rfl rfl hlt (place?_of_className? hclass), h.same]
  · rw [find?_graft, ← h.find?]
    rfl

theorem moreLambdas_attachGroups (hi : f.Inside) (hn : f.Named) (hnames : ∀ a ∈ names, ∃ i, f.find? a = some i) :
    f.MoreLambdas (f.attachGroups reg sites names).state := by
  have hrun : ∃ att, f.MoreLambdas (f.attachGroups reg sites names).state ∧
      ((f.attachGroups reg sites names).answer = .ok () → att = [] ++ names.flatMap (sitesOf sites)) := by
    refine attachGroups_induct (P := fun f' _ => f.MoreLambdas f') ?_ ?_ ⟨hi, hn, rfl, fun _ => rfl⟩
    · intro f' _ s info p h _ _ hp
      exact h.graft hp info
    · intro f' _ h a ha
      rw [h.find?]
      exact hnames a ha
  obtain ⟨_, h, _⟩ := hrun
  exact h

end Forest

namespace Planting
variable {live : String → Prop} {g g' : Ground} {sites : List CallSite} {s : Planting} {t : Growth} {c : ClassFile}

/-- A tree that stands, with its lambdas on the one side. -/
theorem Settled.prunes_plant (h : s.Settled g sites) (hc : c ∈ g.rootClasses) (hv : c.name ∉ s.growth.visits)
    {names : List String} (hok : (s.raise g sites c).answer = .ok names) (hg : g.Agrees live g') (hlive : live c.name)
    (hp : Growth.Prunes s.growth t) : Growth.Prunes (s.plant g sites c).growth (t.keepTree g' c).1 := by
  obtain ⟨hgrow, _, _⟩ := h.raise_ok hc hv hok
  obtain ⟨_, hs, _⟩ := Growth.grow_settled h.growth hc hv hgrow
  obtain ⟨⟨root, hroot⟩, htree⟩ := hp.grow hg hlive hgrow
  have hmore : (s.growth.grow g c).state.forest.MoreLambdas (s.leafed g sites c).state := by
    refine Forest.moreLambdas_attachGroups htree.inside hs.shaped.named fun a ha => ?_
    obtain ⟨⟨i, _, hi⟩, _⟩ := (h.mem_claims hc hv hgrow).mp ha
    exact ⟨i, hs.shaped.named.find?_iff.mpr hi⟩
  have hkept : (t.keepTree g' c).1 = (t.grow g' c).state := by
    unfold Growth.keepTree
    simp only [hroot]
  rw [plant_of_ok hok, raise_of_grown hgrow, hkept]
  exact ⟨hmore.inside, htree.forest.trans hmore.same.symm, htree.visits⟩

/-- One tree after the other, as long as none fails. -/
theorem prunes_foldl_plant (hs : g.Sound) (hg : g.Agrees live g') : ∀ (cs : List ClassFile) {s : Planting} {t : Growth},
    Ready g sites cs s → (∀ c ∈ cs, live c.name) → (cs.foldl (plant g sites) s).failures = s.failures →
    Growth.Prunes s.growth t → Growth.Prunes (cs.foldl (plant g sites) s).growth (t.keepTrees g' cs).1
  | [], _, _, _, _, _, hp => hp
  | c :: cs, s, t, h, hlive, hf, hp => by
    have hc := h.roots c (by simp)
    have hcv := h.fresh c (by simp)
    obtain ⟨_, later, hlater, _⟩ := foldl_plant hs cs (h.plant hs)
    rw [List.foldl_cons] at hf ⊢
    cases hl : (s.raise g sites c).answer with
    | ok names =>
      have hone : (s.plant g sites c).failures = s.failures := by rw [plant_of_ok hl]
      exact prunes_foldl_plant hs hg cs (h.plant hs) (fun d hd => hlive d (by simp [hd])) (hf.trans hone.symm)
        (h.settled.prunes_plant hc hcv hl hg (hlive c (by simp)) hp)
    | error fault =>
      -- a root that fails would be among the failures
      rw [hlater, h.settled.plant_failed hc hcv hl] at hf
      have hlen := congrArg List.length hf
      simp at hlen

end Planting

/-! ## The forest in the end -/

/-- Skipping classes without a node makes no difference for those that have one. -/
theorem Growth.Settled.agrees_skipping {g : Ground} {s : Growth} (h : s.Settled g) {names : List String}
    (hnames : ∀ a ∈ names, s.forest.find? a = none) :
    g.Agrees (fun e => ∃ i, s.forest.className? i = some e) (g.skipping names) := by
  have hlive : ∀ {e a : String}, (∃ i, s.forest.className? i = some e) → a ∈ g.below e →
      (g.nodeOf? a).isSome = true → ∃ i, s.forest.className? i = some a := by
    rintro e a ⟨i, hi⟩ ha hsome
    obtain ⟨n, hn⟩ := Option.isSome_iff_exists.mp hsome
    obtain ⟨hskip, r, c, hr, hc, _⟩ := Ground.nodeOf?_eq_some.mp hn
    exact h.tallied.placed (h.closed hi a ha) hskip (by simp [hr]) (by simp [hc])
  refine ⟨rfl, rfl, fun {e a} he ha => ?_, hlive⟩
  rw [Ground.nodeOf?_skipping]
  split
  · -- a name that is skipped has no node, and so made none before
    rename_i hm
    cases hn : g.nodeOf? a with
    | none => rfl
    | some n =>
      obtain ⟨i, hi⟩ := hlive he ha (by simp [hn])
      rw [← h.shaped.named.find?_iff, hnames a hm] at hi
      cases hi
  · rfl

/-- If no tree fails, and classes without a node are skipped: trees alone are the trees without their lambdas. -/
theorem Planting.build_skipping {g : Ground} (hg : g.Sound) {sites : List CallSite} {names : List String}
    (hfail : (plantAll g sites {}).failures = [])
    (hnames : ∀ a ∈ names, (plantAll g sites {}).growth.forest.find? a = none) :
    (Growth.build (g.skipping names) {}).1 =
      { (plantAll g sites {}).growth.forest.withoutLambdas with
        unattached := (plantAll g sites {}).growth.unattached g } := by
  obtain ⟨hs, failed, hf, _, hroots⟩ := plantAll_spec hg sites []
  have hnil : failed = [] := by simpa using hf.symm.trans hfail
  subst hnil
  have hlive : ∀ c ∈ g.rootClasses, ∃ i, (plantAll g sites {}).growth.forest.className? i = some c.name := by
    intro c hc
    have hm : some c.name ∈ (plantAll g sites {}).growth.forest.rootNames := by
      rw [hroots]
      simpa using ⟨c, hc, rfl⟩
    obtain ⟨i, _, hi⟩ := List.mem_map.mp hm
    exact ⟨i, hi⟩
  have hsame : (g.skipping names).rootClasses = g.rootClasses := by
    rw [Ground.rootClasses_skipping, List.filter_eq_self]
    intro c hc
    obtain ⟨i, hi⟩ := hlive c hc
    have hm : c.name ∉ names := fun hm => by
      rw [← hs.growth.shaped.named.find?_iff, hnames _ hm] at hi
      cases hi
    simpa using hm
  have hstart : Growth.Prunes {} {} :=
    ⟨⟨Forest.linked_empty, Forest.rooted_empty, fun _ h => by cases h⟩, rfl, rfl⟩
  have hp : Growth.Prunes (plantAll g sites {}).growth (Growth.keepTrees (g.skipping names) {} g.rootClasses).1 :=
    prunes_foldl_plant hg (hs.growth.agrees_skipping hnames) g.rootClasses (Ready.start hg sites []) hlive hfail hstart
  rw [← hsame] at hp
  exact hp.finish rfl

/-- Trees alone, where everything is skipped that fails with the call sites: the forest without its lambdas. -/
theorem Ground.build_skipping_failed {g : Ground} (hg : g.Sound) (sites : List CallSite) (failures : List Failure) :
    ∃ names, (g.plantForest sites failures).failures.map (·.unit) = failures.map (·.unit) ++ names ∧
      (Growth.build (g.skipping names) {}).1 = (g.plantForest sites failures).forest.withoutLambdas := by
  obtain ⟨_, failed, hfailed, _⟩ := Planting.plantAll_spec hg sites failures
  obtain ⟨hforest, extra, hextra, hnone⟩ := plantForest_spec hg sites failures
  refine ⟨failed.map (·.unit) ++ extra, by rw [hextra, hfailed, List.map_append, List.append_assoc], ?_⟩
  -- skipping the roots that fail leaves the trees as they are
  obtain ⟨hsame, hfail⟩ := Planting.plantAll_skipping hg hfailed []
  have hsplit : g.skipping (failed.map (·.unit) ++ extra) = (g.skipping (failed.map (·.unit))).skipping extra := by
    simp [skipping]
  rw [hsplit, Planting.build_skipping (hg.skipping _) hfail (by rw [hsame.growth.forest]; exact hnone), hforest,
    hsame.growth.forest]
  unfold Growth.unattached
  rw [hsame.growth.visits]
  rfl

/-- The forest of every run, less its lambdas, is what trees alone come to on the units that did not fail: the same
nodes, links, roots and names in the same order, and the same classes that are left out. -/
theorem run_withoutLambdas {σ : Type} (us : List ClassUnit) (settings : Settings) (p : Policy σ) (n : Naming σ)
    (sites : List CallSite) (hv : settings.validate = .ok ()) :
    ∃ o n', (Registry.ofUnits us).run settings p n sites = .ok (o, n') ∧
      (Growth.build ⟨Registry.ofUnits us, (Registry.ofUnits us).indexFor settings p n, settings.nested,
        o.failures.map (·.unit)⟩ {}).1 = o.forest.withoutLambdas := by
  obtain ⟨o, n', hrun, hforest, hfail, _⟩ := run_eq (Registry.ofUnits us) settings p n sites hv
  obtain ⟨names, hnames, hbuild⟩ := Ground.build_skipping_failed (sound_ground settings p n us) sites
    ((Registry.ofUnits us).earlyFailures settings p n)
  refine ⟨o, n', hrun, ?_⟩
  rw [hfail, hnames, hforest, ← hbuild]
  rfl

/-- Three classes, of which the first two list the same nested class. -/
def forkedUnits : List ClassUnit :=
  [listing "app/A" "app/N", listing "app/B" "app/N", .loaded { name := "app/C", own := true },
   .loaded { name := "app/N", own := true }]

/-- A lambda of the nested class, and bad call sites of the first class and of one that is not there. -/
def forkedSites : List CallSite :=
  [⟨"app/N", "java/lang/System", "gc", "()V", 6, "java/lang/Runnable", "run", "()V"⟩,
   ⟨"app/A", "java/lang/System", "gc", "()V", 0, "java/lang/Runnable", "run", "()V"⟩,
   ⟨"lib/P", "java/lang/System", "gc", "()V", 0, "java/lang/Runnable", "run", "()V"⟩]

theorem run_withoutLambdas_forkedUnits : ∃ o n',
    (Registry.ofUnits forkedUnits).run {} (.keep Unit) ⟨(), {}⟩ forkedSites = .ok (o, n') ∧
      (Growth.build ⟨Registry.ofUnits forkedUnits, (Registry.ofUnits forkedUnits).indexFor {} (.keep Unit) ⟨(), {}⟩,
        true, o.failures.map (·.unit)⟩ {}).1 = o.forest.withoutLambdas :=
  run_withoutLambdas forkedUnits {} (.keep Unit) ⟨(), {}⟩ forkedSites rfl

-- the first class fails, the second takes over its nested class, and the third moves up by the lambda
example : (match (Registry.ofUnits forkedUnits).run {} (.keep Unit) ⟨(), {}⟩ forkedSites with
    | .ok (o, _) => (o.failures.map (·.unit), o.forest.nodes.map (·.qualifiedName), o.forest.roots,
        o.forest.withoutLambdas.nodes.map (·.qualifiedName), o.forest.withoutLambdas.roots)
    | .error _ => default) =
    (["app/A", "lib/P"], ["app/B", "app/N", "app/N", "app/C"], [0, 3], ["app/B", "app/N", "app/C"], [0, 2]) := by
  decide +kernel

end ClassNest
