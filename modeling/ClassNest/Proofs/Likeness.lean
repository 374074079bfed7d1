import ClassNest.Proofs.Faults

/-!
# Runs that look alike

Two runs side by side, on different grounds. They are compared by someone who reads simple names
through a `NameView`, which may blur them, and everything else as it is. Two grounds are `Alike` when this
reader sees the same roots, the same nesting and, for every name, the same node. What is seen of the
trees after a step then depends only on what was seen before it, and so does whether the step fails: of a
visit (`Growth.Alike.visit`), of a whole tree (`Growth.Alike.grow`), of a tree with its lambdas, whether it
stands or falls (`Planting.Alike.plant`), and so of the forest in the end (`Ground.Alike.plantForest`).
-/
namespace ClassNest

/-- How simple names are read, by the kind of the node. -/
abbrev NameView := NodeKind → Option String → Option String

/-! ## Forests as they are seen -/

/-- The node with its simple name as it is read. -/
def Node.seen (v : NameView) (n : Node) : Node := { n with simpleName := v n.kind n.simpleName }

namespace Forest
variable {v : NameView} {f f' : Forest}

/-- The forest with all simple names as they are read. -/
def seen (v : NameView) (f : Forest) : Forest := { f with nodes := f.nodes.map (·.seen v) }

@[simp] theorem size_seen (v : NameView) (f : Forest) : (f.seen v).size = f.size := List.length_map _

theorem node?_seen (v : NameView) (f : Forest) (i : NodeId) :
    (f.seen v).node? i = (f.node? i).map (·.seen v) := List.getElem?_map

theorem seen_push (f : Forest) (n : Node) : (f.push n).seen v = (f.seen v).push (n.seen v) := by
  have hname : (n.seen v).isLambda = n.isLambda := rfl
  unfold push
  rw [hname, size_seen]
  simp only [seen, List.map_append, List.map_cons, List.map_nil]
  rfl

theorem seen_addRoot (f : Forest) (n : Node) : (f.addRoot n).seen v = (f.seen v).addRoot (n.seen v) := by
  unfold addRoot
  rw [← seen_push, size_seen]
  rfl

theorem seen_graft (f : Forest) (parent : NodeId) (n : Node) :
    (f.graft parent n).seen v = (f.seen v).graft parent (n.seen v) := by
  have hnode : Node.seen v { n with parent := some parent } = { n.seen v with parent := some parent } := rfl
  unfold graft
  rw [← hnode, ← seen_push, size_seen]
  simp only [seen]
  congr 1
  refine map_modify ?_ _ _
  intro m
  rfl

theorem seen_rollback (f : Forest) (m : Mark) : (f.rollback m).seen v = (f.seen v).rollback m := by
  have hroots : (f.seen v).roots = f.roots := rfl
  unfold rollback
  rw [size_seen, hroots]
  split
  · rfl
  · simp only [seen, List.map_take, List.map_map]
    rfl

theorem children_seen (v : NameView) (f : Forest) (i : NodeId) : (f.seen v).children i = f.children i := by
  unfold children
  rw [node?_seen]
  cases f.node? i <;> rfl

theorem subtree_seen (v : NameView) (f : Forest) (i : NodeId) : (f.seen v).subtree i = f.subtree i := by
  have hwithin : ∀ (steps : Nat) (stack : List NodeId),
      (f.seen v).subtreeWithin steps stack = f.subtreeWithin steps stack := by
    intro steps
    induction steps with
    | zero => intro stack; rfl
    | succ steps ih =>
      intro stack
      cases stack with
      | nil => rfl
      | cons id stack => rw [subtreeWithin, subtreeWithin, children_seen, ih]
  unfold subtree
  rw [hwithin, size_seen]

theorem namesOf_seen (v : NameView) (f : Forest) (ids : List NodeId) : (f.seen v).namesOf ids = f.namesOf ids := by
  unfold namesOf
  apply List.filterMap_congr
  intro id _
  rw [node?_seen, Option.map_map]
  rfl

theorem size_eq_of_seen (h : f.seen v = f'.seen v) : f.size = f'.size := by
  rw [← size_seen v f, h, size_seen]

theorem roots_eq_of_seen (h : f.seen v = f'.seen v) : f.roots = f'.roots := by
  injection h

theorem find?_eq_of_seen (h : f.seen v = f'.seen v) (name : String) : f.find? name = f'.find? name := by
  injection h with _ _ _ hnames
  unfold find?
  rw [hnames]

/-- Two forests look the same. -/
def SeenAlike (v : NameView) (f f' : Forest) : Prop := f.seen v = f'.seen v

theorem SeenAlike.addRoot (h : SeenAlike v f f') (n : Node) :
    Step.Alike (SeenAlike v) (f.perform (.addRoot n)) (f'.perform (.addRoot n)) := by
  rw [perform_addRoot, perform_addRoot, size_eq_of_seen h]
  by_cases hroom : f'.size < capacity
  · rw [if_pos hroom, if_pos hroom]
    exact ⟨by rw [SeenAlike, seen_addRoot, seen_addRoot, h], rfl⟩
  · rw [if_neg hroom, if_neg hroom]
    exact ⟨h, rfl⟩

theorem SeenAlike.attach (h : SeenAlike v f f') (parent : NodeId) {n n' : Node} (hn : n.seen v = n'.seen v) :
    Step.Alike (SeenAlike v) (f.perform (.attach parent n)) (f'.perform (.attach parent n')) := by
  rw [perform_attach, perform_attach, size_eq_of_seen h]
  by_cases hp : parent < f'.size
  · rw [if_pos hp, if_pos hp]
    by_cases hroom : f'.size < capacity
    · rw [if_pos hroom, if_pos hroom]
      exact ⟨by rw [SeenAlike, seen_graft, seen_graft, h, hn], rfl⟩
    · rw [if_neg hroom, if_neg hroom]
      exact ⟨h, rfl⟩
  · rw [if_neg hp, if_neg hp]
    exact ⟨h, rfl⟩

end Forest

/-! ## Grounds that are alike -/

/-- Grounds on which the same trees are seen to grow. -/
structure Ground.Alike (v : NameView) (g g' : Ground) : Prop where
  nested : g.nested = g'.nested
  roots : g.rootClasses = g'.rootClasses
  children : ∀ name, g.index.childrenOf name = g'.index.childrenOf name
  records : g.index.records.map (·.inner) = g'.index.records.map (·.inner)
  node : ∀ name, (g.nodeOf? name).map (·.seen v) = (g'.nodeOf? name).map (·.seen v)
  /-- what lambdas are described by -/
  classes : ∀ name, g.registry.isOwn name = true → g.registry.class? name = g'.registry.class? name

theorem Ground.Alike.index_size {v : NameView} {g g' : Ground} (h : g.Alike v g') :
    g.index.size = g'.index.size := by
  unfold NestingIndex.size
  simpa only [List.length_map] using congrArg List.length h.records

namespace Growth
variable {v : NameView} {g g' : Ground} {s s' : Growth}

/-- The trees look the same, and the same names were visited. -/
structure Alike (v : NameView) (s s' : Growth) : Prop where
  forest : s.forest.SeenAlike v s'.forest
  visits : s.visits = s'.visits
  abandoned : s.abandoned = s'.abandoned

theorem Alike.perform {α : Type} {a a' : Forest.Change α} (h : s.Alike v s')
    (ha : Step.Alike (Forest.SeenAlike v) (s.forest.perform a) (s'.forest.perform a')) :
    Step.Alike (Alike v) (s.perform a) (s'.perform a') :=
  ⟨⟨ha.state, h.visits, h.abandoned⟩, ha.answer⟩

theorem Alike.settle (h : s.Alike v s') (parent : NodeId) (name : String) {n n' : Option Node}
    (hn : n.map (·.seen v) = n'.map (·.seen v)) :
    Step.Alike (Alike v) (s.settle parent name n) (s'.settle parent name n') := by
  have hpass : (s.pass name).Alike v (s'.pass name) := ⟨h.forest, congrArg (· ++ [name]) h.visits, h.abandoned⟩
  cases n with
  | none =>
    cases n' with
    | none => exact ⟨hpass, rfl⟩
    | some n' => cases hn
  | some n =>
    cases n' with
    | none => cases hn
    | some n' => exact (hpass.perform (hpass.forest.attach parent (Option.some.inj hn))).map _

/-- One visit. -/
theorem Alike.visit (hg : g.Alike v g') (h : s.Alike v s') (parent : NodeId) (name : String) :
    Step.Alike (Alike v) (s.visit g parent name) (s'.visit g' parent name) := by
  by_cases hv : name ∈ s.visits
  · have hv' : name ∈ s'.visits := h.visits ▸ hv
    rw [visit_of_mem hv, visit_of_mem hv']
    exact ⟨h, rfl⟩
  · have hv' : name ∉ s'.visits := h.visits ▸ hv
    obtain ⟨hstate, hanswer⟩ := visit_eq_settle (g := g) hv parent
    obtain ⟨hstate', hanswer'⟩ := visit_eq_settle (g := g') hv' parent
    have hstep := h.settle parent name (hg.node name)
    exact ⟨by rw [hstate, hstate']; exact hstep.state, by rw [hanswer, hanswer']; exact hstep.answer⟩

theorem Alike.visitAll (hg : g.Alike v g') (parent : NodeId) : ∀ (names : List String) {s s' : Growth},
    s.Alike v s' → Step.Alike (Alike v) (s.visitAll g parent names) (s'.visitAll g' parent names)
  | [], _, _, h => ⟨h, rfl⟩
  | name :: names, _, _, h =>
    have hone := h.visit hg parent name
    hone.andThen fun _ => (Alike.visitAll hg parent names hone.state).map _

theorem Alike.spread (hg : g.Alike v g') : ∀ (rounds : Nat) (queue : List (NodeId × String)) {s s' : Growth},
    s.Alike v s' → Step.Alike (Alike v) (s.spread g rounds queue) (s'.spread g' rounds queue)
  | 0, _, _, _, h => ⟨h, rfl⟩
  | _ + 1, [], _, _, h => ⟨h, rfl⟩
  | rounds + 1, (id, name) :: queue, s, s', h => by
    have hround := h.visitAll hg id (g.index.childrenOf name)
    rw [Growth.spread, Growth.spread, ← hg.children name]
    exact hround.andThen fun _ => Alike.spread hg rounds _ hround.state

/-- One tree. -/
theorem Alike.grow (hg : g.Alike v g') (h : s.Alike v s') (c : ClassFile) :
    Step.Alike (Alike v) (s.grow g c) (s'.grow g' c) := by
  have hvisited : ∀ {t t' : Growth}, t.Alike v t' →
      Alike v { t with visits := pushNew t.visits c.name } { t' with visits := pushNew t'.visits c.name } :=
    fun h => ⟨h.forest, congrArg (pushNew · c.name) h.visits, h.abandoned⟩
  have hroot := h.perform (h.forest.addRoot (.ofClass c))
  unfold Growth.grow
  rw [hg.nested, hg.index_size]
  refine hroot.andThen fun root => ?_
  cases g'.nested with
  | true => exact ((hvisited hroot.state).spread hg _ _).map _
  | false => exact ⟨hvisited hroot.state, rfl⟩

theorem Alike.rollback (h : s.Alike v s') (m : GrowthMark) : (s.rollback m).Alike v (s'.rollback m) where
  forest := by
    show (s.forest.rollback _).seen v = (s'.forest.rollback _).seen v
    rw [Forest.seen_rollback, Forest.seen_rollback, show s.forest.seen v = s'.forest.seen v from h.forest]
  visits := congrArg (·.take m.visits) h.visits
  abandoned := by
    show s.abandoned ++ s.visits.drop _ = s'.abandoned ++ s'.visits.drop _
    rw [h.abandoned, h.visits]

theorem Alike.mark (h : s.Alike v s') : s.mark = s'.mark := by
  unfold Growth.mark Forest.mark
  rw [Forest.size_eq_of_seen h.forest, Forest.roots_eq_of_seen h.forest, h.visits]

theorem Alike.unattached (hg : g.Alike v g') (h : s.Alike v s') : s.unattached g = s'.unattached g' := by
  unfold Growth.unattached
  rw [hg.records, h.visits]

end Growth

/-! ## Lambdas -/

theorem CallSite.describe_congr {reg reg' : Registry} {s : CallSite}
    (h : reg.class? s.declaringClass = reg'.class? s.declaringClass) : s.describe reg = s.describe reg' := by
  unfold describe
  rw [h]

theorem describeAll_congr {reg reg' : Registry} {ss : List CallSite}
    (h : ∀ s ∈ ss, reg.class? s.declaringClass = reg'.class? s.declaringClass) :
    describeAll reg ss = describeAll reg' ss := by
  induction ss with
  | nil => rfl
  | cons s ss ih =>
    rw [describeAll, describeAll, CallSite.describe_congr (h s (by simp)), ih fun t ht => h t (by simp [ht])]

namespace Forest
variable {v : NameView} {reg reg' : Registry} {sites : List CallSite}

theorem SeenAlike.addLambda {f f' : Forest} (h : SeenAlike v f f') (info : LambdaInfo) :
    Step.Alike (SeenAlike v) (f.addLambda info) (f'.addLambda info) := by
  unfold Forest.addLambda
  rw [find?_eq_of_seen h]
  cases f'.find? info.declaringClass with
  | none => exact ⟨h, rfl⟩
  | some parent => exact (h.attach parent rfl).map _

theorem SeenAlike.addLambdas : ∀ (infos : List LambdaInfo) {f f' : Forest}, SeenAlike v f f' →
    Step.Alike (SeenAlike v) (f.addLambdas infos) (f'.addLambdas infos)
  | [], _, _, h => ⟨h, rfl⟩
  | info :: infos, _, _, h =>
    have hone := h.addLambda info
    hone.andThen fun _ => (SeenAlike.addLambdas infos hone.state).map _

/-- Lambdas of classes that are known alike. -/
theorem SeenAlike.attachGroups : ∀ (names : List String) {f f' : Forest},
    (∀ a ∈ names, reg.class? a = reg'.class? a) → SeenAlike v f f' →
    Step.Alike (SeenAlike v) (f.attachGroups reg sites names) (f'.attachGroups reg' sites names)
  | [], _, _, _, h => ⟨h, rfl⟩
  | name :: names, f, f', hc, h => by
    have hdescribe : describeAll reg (sitesOf sites name) = describeAll reg' (sitesOf sites name) := by
      refine describeAll_congr fun s hs => ?_
      rw [declaringClass_of_mem_sitesOf hs]
      exact hc name (by simp)
    have hone : Step.Alike (SeenAlike v) (f.attachAll reg (sitesOf sites name))
        (f'.attachAll reg' (sitesOf sites name)) := by
      unfold attachAll
      rw [hdescribe]
      exact Step.Alike.andThen ⟨h, rfl⟩ fun infos => h.addLambdas infos
    exact hone.andThen fun _ => SeenAlike.attachGroups names (fun a ha => hc a (by simp [ha])) hone.state

end Forest

/-! ## Trees with their lambdas -/

namespace Planting
variable {v : NameView} {g g' : Ground} {sites : List CallSite} {s s' : Planting} {c : ClassFile}

/-- The trees look the same, and the same call sites are in use. -/
structure Alike (v : NameView) (s s' : Planting) : Prop where
  growth : s.growth.Alike v s'.growth
  claimed : s.claimed = s'.claimed

theorem Alike.claims (hg : g.Alike v g') (h : s.Alike v s') (sites : List CallSite) (c : ClassFile) :
    s.claims g sites c = s'.claims g' sites c := by
  have htree := (h.growth.grow hg c).state.forest
  unfold Planting.claims
  rw [h.claimed, ← Forest.namesOf_seen v, ← Forest.subtree_seen v,
    show (s.growth.grow g c).state.forest.seen v = _ from htree, Forest.namesOf_seen, Forest.subtree_seen,
    Forest.size_eq_of_seen h.growth.forest]

theorem Alike.raise (hg : g.Alike v g') (hs : g.Sound) (h : s.Alike v s') (hset : s.Settled g sites)
    (hc : c ∈ g.rootClasses) (hv : c.name ∉ s.growth.visits) :
    Step.Alike (Growth.Alike v) (s.raise g sites c) (s'.raise g' sites c) := by
  have htree := h.growth.grow hg c
  cases hgrow : (s.growth.grow g c).answer with
  | error fault =>
    rw [raise_of_refused hgrow, raise_of_refused (htree.answer.trans hgrow)]
    exact ⟨htree.state, rfl⟩
  | ok root =>
    obtain ⟨rfl, htrees, _⟩ := Growth.grow_settled hset.growth hc hv hgrow
    have hclaims := h.claims hg sites c
    have hleafed : Step.Alike (Forest.SeenAlike v) (s.leafed g sites c) (s'.leafed g' sites c) := by
      unfold leafed
      rw [← hclaims]
      refine htree.state.forest.attachGroups _ fun a ha => hg.classes a ?_
      obtain ⟨⟨i, _, hi⟩, _⟩ := (hset.mem_claims hc hv hgrow).mp ha
      obtain ⟨_, d, hd, rfl⟩ := htrees.shaped.own_of_className? hi
      exact Registry.isOwn_of_mem_ownClasses hs.registry hd
    have hroot := htree.answer.trans hgrow
    rw [Forest.size_eq_of_seen h.growth.forest] at hroot
    rw [raise_of_grown hgrow, raise_of_grown hroot, hleafed.answer, hclaims]
    exact ⟨⟨hleafed.state, htree.state.visits, htree.state.abandoned⟩, rfl⟩

/-- A tree that is seen to stand, or to fall for the same reason. -/
theorem Alike.plant (hg : g.Alike v g') (hs : g.Sound) (h : s.Alike v s') (hset : s.Settled g sites)
    (hc : c ∈ g.rootClasses) (hv : c.name ∉ s.growth.visits) :
    (s.plant g sites c).Alike v (s'.plant g' sites c) ∧ ∃ new : List Failure,
      (s.plant g sites c).failures = s.failures ++ new ∧ (s'.plant g' sites c).failures = s'.failures ++ new := by
  have hraise := h.raise hg hs hset hc hv
  cases hl : (s.raise g sites c).answer with
  | ok names =>
    rw [plant_of_ok hl, plant_of_ok (hraise.answer.trans hl)]
    exact ⟨⟨hraise.state, congrArg (· ++ names) h.claimed⟩, [], by simp, by simp⟩
  | error fault =>
    rw [plant_of_error hl, plant_of_error (hraise.answer.trans hl), ← h.growth.mark]
    exact ⟨⟨hraise.state.rollback _, h.claimed⟩, _, rfl, rfl⟩

/-- One tree after the other. -/
theorem Alike.foldl_plant (hg : g.Alike v g') (hs : g.Sound) : ∀ (cs : List ClassFile) {s s' : Planting},
    Ready g sites cs s → s.Alike v s' →
    (cs.foldl (Planting.plant g sites) s).Alike v (cs.foldl (Planting.plant g' sites) s') ∧
      ∃ new : List Failure, (cs.foldl (Planting.plant g sites) s).failures = s.failures ++ new ∧
        (cs.foldl (Planting.plant g' sites) s').failures = s'.failures ++ new
  | [], _, _, _, h => ⟨h, [], by simp, by simp⟩
  | c :: cs, s, s', hr, h => by
    obtain ⟨hone, first, hf, hf'⟩ := h.plant hg hs hr.settled (hr.roots c (by simp)) (hr.fresh c (by simp))
    obtain ⟨hrest, others, ho, ho'⟩ := Alike.foldl_plant hg hs cs (hr.plant hs) hone
    refine ⟨hrest, first ++ others, ?_, ?_⟩
    · rw [List.foldl_cons, ho, hf, List.append_assoc]
    · rw [List.foldl_cons, ho', hf', List.append_assoc]

end Planting

/-! ## The forest in the end -/

/-- The forests look the same. The failures are those from before, which may differ, then those of trees, and then
those of call sites without a tree, which are asked about in the same order. -/
theorem Ground.Alike.plantForest {v : NameView} {g g' : Ground} (h : g.Alike v g') (hg : g.Sound) (hg' : g'.Sound)
    (sites : List CallSite) (early early' : List Failure) :
    (g.plantForest sites early).forest.seen v = (g'.plantForest sites early').forest.seen v ∧
    ∃ (felled : List Failure) (lost names : List String),
      (g.plantForest sites early).failures =
        early ++ felled ++ names.filterMap (g.strayFailure? sites lost (early ++ felled)) ∧
      (g'.plantForest sites early').failures =
        early' ++ felled ++ names.filterMap (g'.strayFailure? sites lost (early' ++ felled)) := by
  have hstart : Planting.Alike v { failures := early } { failures := early' } := ⟨⟨rfl, rfl, rfl⟩, rfl⟩
  obtain ⟨halike, felled, hf, hf'⟩ :=
    hstart.foldl_plant h hg g.rootClasses (Planting.Ready.start hg sites early)
  rw [(plantForest_spec hg sites early).1, (plantForest_spec hg' sites early').1, plantForest_failures hg,
    plantForest_failures hg']
  unfold Planting.plantAll
  rw [← h.roots]
  generalize g.rootClasses.foldl (Planting.plant g sites) { failures := early } = t at *
  generalize g.rootClasses.foldl (Planting.plant g' sites) { failures := early' } = t' at *
  refine ⟨?_, felled, t.growth.abandoned,
    (declaringClasses sites).filter fun name => !t.claimed.contains name, ?_, ?_⟩
  · rw [halike.growth.unattached h]
    exact congrArg (fun f : Forest => { f with unattached := t'.growth.unattached g' }) halike.growth.forest
  · rw [hf]
  · rw [hf', halike.claimed, halike.growth.abandoned]

end ClassNest
