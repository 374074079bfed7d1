import ClassNest.Growth

/-!
# The breadth-first loop

`Spreads` is the loop that works through its queue until nothing is left or a node finds no room, with
no bound on the rounds. `spread_spreads` says that the bounded loop is this one: every node that gets
into the queue takes a record off the nested classes that are still open, so the queue is empty before
the rounds run out, whatever the nesting looks like. From here on a tree is reasoned about through
`Heads`, `Spreads` and `visit_cases`.
-/
namespace ClassNest

/-- The classes that are looked at below the node of a class. -/
def Ground.below (g : Ground) (name : String) : List String :=
  if g.nested then g.index.childrenOf name else []

/-- The node that the visit of a name makes, if it makes one. -/
def Ground.nodeOf? (g : Ground) (name : String) : Option Node :=
  if g.skipped.contains name then none
  else
    match g.index.record? name, g.registry.own? name with
    | some r, some c => some (g.materialize r c)
    | _, _ => none

namespace Growth

/-- The trees with a new root. -/
def withRoot (s : Growth) (c : ClassFile) : Growth :=
  { s with forest := s.forest.addRoot (.ofClass c), visits := pushNew s.visits c.name }

/-- The trees after a visit that made a node. -/
def place (g : Ground) (parent : NodeId) (s : Growth) (name : String) (r : NestedRecord)
    (c : ClassFile) : Growth :=
  { s with forest := s.forest.graft parent (g.materialize r c), visits := s.visits ++ [name] }

/-- The trees after a visit that made none. -/
def pass (s : Growth) (name : String) : Growth := { s with visits := s.visits ++ [name] }

theorem visit_of_mem {g : Ground} {parent : NodeId} {s : Growth} {name : String} (hv : name ∈ s.visits) :
    s.visit g parent name = ⟨s, .ok none, []⟩ := by
  rw [visit, if_pos (by simpa using hv)]

/-- A class that can be placed is attached, if there is room. -/
theorem visit_of_place {g : Ground} {s : Growth} {name : String} {r : NestedRecord} {c : ClassFile}
    (hv : name ∉ s.visits) (hs : name ∉ g.skipped) (hr : g.index.record? name = some r)
    (hc : g.registry.own? name = some c) (parent : NodeId) : s.visit g parent name =
      ⟨{ s.pass name with forest := (s.forest.perform (.attach parent (g.materialize r c))).state },
        (s.forest.perform (.attach parent (g.materialize r c))).answer.map fun id => some (id, name),
        Ground.materializeLog r c ++ (s.forest.perform (.attach parent (g.materialize r c))).log⟩ := by
  unfold visit
  rw [if_neg (by simpa using hv), if_neg (by simpa using hs), hr, hc]
  exact Step.andThen_of_ok rfl _

/-- Everything that a visit can do. A node that finds no room leaves the name visited. -/
theorem visit_cases (g : Ground) (parent : NodeId) (s : Growth) (name : String) :
    (name ∈ s.visits ∧ s.visit g parent name = ⟨s, .ok none, []⟩) ∨
    (name ∉ s.visits ∧ (name ∈ g.skipped ∨ g.index.record? name = none ∨ g.registry.own? name = none) ∧
      ∃ log, s.visit g parent name = ⟨s.pass name, .ok none, log⟩) ∨
    (name ∉ s.visits ∧ name ∉ g.skipped ∧ ∃ r c, g.index.record? name = some r ∧ g.registry.own? name = some c ∧
      ((parent < s.forest.size ∧ s.forest.size < Forest.capacity ∧ s.visit g parent name =
        ⟨s.place g parent name r c, .ok (some (s.forest.size, name)), Ground.materializeLog r c⟩) ∨
      ∃ fault, (parent < s.forest.size → Forest.capacity ≤ s.forest.size ∧ fault = Forest.full) ∧
        s.visit g parent name = ⟨s.pass name, .error fault, Ground.materializeLog r c⟩)) := by
  by_cases hv : name ∈ s.visits
  · exact .inl ⟨hv, visit_of_mem hv⟩
  by_cases hs : name ∈ g.skipped
  · exact .inr (.inl ⟨hv, .inl hs, [], by
      rw [visit, if_neg (by simpa using hv)]
      simp only [List.contains_iff_mem.mpr hs, if_true]
      rfl⟩)
  cases hr : g.index.record? name with
  | none => exact .inr (.inl ⟨hv, .inr (.inl rfl), _, by
      rw [visit, if_neg (by simpa using hv), if_neg (by simpa using hs), hr]
      rfl⟩)
  | some r =>
    cases hc : g.registry.own? name with
    | none => exact .inr (.inl ⟨hv, .inr (.inr rfl), _, by
        rw [visit, if_neg (by simpa using hv), if_neg (by simpa using hs), hr, hc]
        rfl⟩)
    | some c =>
      refine .inr (.inr ⟨hv, hs, r, c, rfl, rfl, ?_⟩)
      rw [visit_of_place hv hs hr hc]
      rcases Forest.perform_attach_grows_or_keeps s.forest parent (g.materialize r c) with
        ⟨hp, hroom, he⟩ | ⟨fault, hfull, he⟩
      · rw [he, List.append_nil]
        exact .inl ⟨hp, hroom, rfl⟩
      · rw [he, List.append_nil]
        exact .inr ⟨fault, hfull, rfl⟩

/-- What becomes of a name that was not visited before, by the node that it gets. -/
def settle (s : Growth) (parent : NodeId) (name : String) : Option Node → Step Growth (Option (NodeId × String))
  | none => ⟨s.pass name, .ok none, []⟩
  | some n => ((s.pass name).perform (.attach parent n)).map fun id => some (id, name)

theorem visit_eq_settle {g : Ground} {s : Growth} {name : String} (hv : name ∉ s.visits) (parent : NodeId) :
    (s.visit g parent name).state = (s.settle parent name (g.nodeOf? name)).state ∧
      (s.visit g parent name).answer = (s.settle parent name (g.nodeOf? name)).answer := by
  unfold visit Ground.nodeOf?
  rw [if_neg (by simpa using hv)]
  cases g.skipped.contains name with
  | true => exact ⟨rfl, rfl⟩
  | false =>
    cases g.index.record? name with
    | none => exact ⟨rfl, rfl⟩
    | some r => cases g.registry.own? name <;> exact ⟨rfl, rfl⟩

/-! ## The loop without a bound -/

/-- The loop over a queue, to its end or to a node that finds no room. -/
inductive Spreads (g : Ground) : Growth → List (NodeId × String) → Step Growth Unit → Prop
  | done (s : Growth) : Spreads g s [] ⟨s, .ok (), []⟩
  | fail {s : Growth} {id : NodeId} {name : String} {queue : List (NodeId × String)} {fault : Fault}
      (h : (s.visitAll g id (g.below name)).answer = .error fault) :
      Spreads g s ((id, name) :: queue)
        ⟨(s.visitAll g id (g.below name)).state, .error fault, (s.visitAll g id (g.below name)).log⟩
  | step {s : Growth} {id : NodeId} {name : String} {queue made : List (NodeId × String)} {rest : Step Growth Unit}
      (h : (s.visitAll g id (g.below name)).answer = .ok made)
      (hrest : Spreads g (s.visitAll g id (g.below name)).state (queue ++ made) rest) :
      Spreads g s ((id, name) :: queue)
        ⟨rest.state, rest.answer, (s.visitAll g id (g.below name)).log ++ rest.log⟩

/-- The tree of a class at the top: the loop that starts with its root alone, if there is room for the root. -/
inductive Heads (g : Ground) (s : Growth) (c : ClassFile) : Step Growth NodeId → Prop
  | full (h : Forest.capacity ≤ s.forest.size) : Heads g s c ⟨s, .error Forest.full, []⟩
  | grown {r : Step Growth Unit} (h : s.forest.size < Forest.capacity)
      (hr : Spreads g (s.withRoot c) [(s.forest.size, c.name)] r) : Heads g s c (r.map fun _ => s.forest.size)

/-- What is open after a visit depends on the name alone, and not on whether it made a node. -/
theorem unattached_pass (g : Ground) (s : Growth) (name : String) :
    (s.pass name).unattached g = (s.unattached g).filter (· != name) := by
  simp only [unattached, pass, List.filter_filter]
  apply List.filter_congr
  intro n _
  by_cases hn : n = name
  · simp [hn]
  · simp [hn]

/-- A class that gets a node was open until then. -/
theorem mem_unattached {g : Ground} {s : Growth} {name : String} {r : NestedRecord} (hv : name ∉ s.visits)
    (hr : g.index.record? name = some r) : name ∈ s.unattached g := by
  have hm := List.mem_of_find?_eq_some hr
  have hn := List.find?_some hr
  rw [beq_iff_eq] at hn
  exact List.mem_filter.mpr ⟨List.mem_map.mpr ⟨r, hm, hn⟩, by simpa using hv⟩

theorem length_visit {g : Ground} {parent : NodeId} {s : Growth} {name : String} {made : Option (NodeId × String)}
    (hok : (s.visit g parent name).answer = .ok made) :
    made.toList.length + ((s.visit g parent name).state.unattached g).length ≤ (s.unattached g).length := by
  rcases visit_cases g parent s name with ⟨_, he⟩ | ⟨_, _, log, he⟩ | ⟨hv, _, r, c, hr, _, ⟨_, _, he⟩ | ⟨fault, _, he⟩⟩
  · rw [he] at hok ⊢
    cases hok
    simp
  · rw [he] at hok ⊢
    cases hok
    rw [unattached_pass]
    simpa using List.length_filter_le _ (s.unattached g)
  · have hopen : ((s.place g parent name r c).unattached g).length < (s.unattached g).length := by
      show ((s.pass name).unattached g).length < _
      rw [unattached_pass, List.length_filter_lt_length_iff_exists]
      exact ⟨name, mem_unattached hv hr, by simp⟩
    rw [he] at hok ⊢
    cases hok
    simp only [Option.toList_some, List.length_singleton]
    omega
  · rw [he] at hok
    cases hok

theorem length_visitAll {g : Ground} {parent : NodeId} {names : List String} {s : Growth}
    {made : List (NodeId × String)} (hok : (s.visitAll g parent names).answer = .ok made) :
    made.length + ((s.visitAll g parent names).state.unattached g).length ≤ (s.unattached g).length := by
  induction names generalizing s made with
  | nil =>
    cases hok
    simp [visitAll]
  | cons name names ih =>
    obtain ⟨one, hone, hrest, hstate⟩ := Step.of_andThen_ok hok
    obtain ⟨more, hmore, rfl⟩ := Step.of_map_ok hrest
    have hlen := length_visit hone
    have hlens := ih hmore
    rw [visitAll, hstate]
    simp only [Step.state_map, List.length_append]
    omega

/-- The bounded loop is the loop, as long as the rounds cover the queue and the classes still open. -/
theorem spread_spreads {g : Ground} (hg : g.nested = true) :
    ∀ (rounds : Nat) (s : Growth) (queue : List (NodeId × String)),
    queue.length + (s.unattached g).length ≤ rounds → Spreads g s queue (s.spread g rounds queue)
  | 0, s, [], _ => .done s
  | 0, s, _ :: _, h => by simp at h
  | rounds + 1, s, [], _ => .done s
  | rounds + 1, s, (id, name) :: queue, h => by
    have hb : g.below name = g.index.childrenOf name := by simp [Ground.below, hg]
    rw [spread, ← hb]
    rcases Step.andThen_cases (s.visitAll g id (g.below name)) fun s made => s.spread g rounds (queue ++ made) with
      ⟨fault, hfail, he⟩ | ⟨made, hok, he⟩
    · rw [he]
      exact .fail hfail
    · have hlen := length_visitAll hok
      rw [List.length_cons] at h
      rw [he]
      exact .step hok (spread_spreads hg rounds _ _ (by rw [List.length_append]; omega))

theorem grow_of_room {g : Ground} {s : Growth} (hroom : s.forest.size < Forest.capacity) (c : ClassFile) :
    s.grow g c =
      if g.nested then
        ((s.withRoot c).spread g (g.index.size + 1) [(s.forest.size, c.name)]).map fun _ => s.forest.size
      else ⟨s.withRoot c, .ok s.forest.size, []⟩ := by
  have hroot : s.perform (.addRoot (.ofClass c)) =
      ⟨{ s with forest := s.forest.addRoot (.ofClass c) }, .ok s.forest.size, []⟩ := by
    rw [perform, Forest.perform_addRoot, if_pos hroom]
  unfold grow
  rw [hroot, Step.andThen_of_ok rfl]
  cases g.nested <;> rfl

theorem grow_of_full {g : Ground} {s : Growth} (hfull : Forest.capacity ≤ s.forest.size) (c : ClassFile) :
    s.grow g c = ⟨s, .error Forest.full, []⟩ := by
  have hroot : s.perform (.addRoot (.ofClass c)) = ⟨s, .error Forest.full, []⟩ := by
    rw [perform, Forest.perform_addRoot, if_neg (Nat.not_lt_of_le hfull)]
  unfold grow
  rw [hroot, Step.andThen_of_error rfl]

/-- Growing a tree is the loop that starts with its root alone. -/
theorem grow_heads (g : Ground) (s : Growth) (c : ClassFile) : Heads g s c (s.grow g c) := by
  rcases Nat.lt_or_ge s.forest.size Forest.capacity with hroom | hfull
  · rw [grow_of_room hroom]
    by_cases hg : g.nested = true
    · rw [if_pos hg]
      refine .grown hroom (spread_spreads hg (g.index.size + 1) (s.withRoot c) _ ?_)
      have hle : ((s.withRoot c).unattached g).length ≤ g.index.size := by
        refine Nat.le_trans (List.length_filter_le _ _) ?_
        rw [List.length_map]
        exact Nat.le_refl _
      rw [List.length_singleton]
      omega
    · rw [if_neg hg]
      -- nothing is nested, and the only round makes no node
      have hb : g.below c.name = [] := by simp [Ground.below, hg]
      have hvisit : (s.withRoot c).visitAll g s.forest.size (g.below c.name) = ⟨s.withRoot c, .ok [], []⟩ := by
        rw [hb]
        rfl
      have hround : Spreads g (s.withRoot c) [(s.forest.size, c.name)] ⟨s.withRoot c, .ok (), []⟩ := by
        have hstep : Spreads g (s.withRoot c) [(s.forest.size, c.name)] _ :=
          .step (by rw [hvisit]) (by rw [hvisit]; exact .done _)
        rwa [hvisit] at hstep
      exact .grown hroom hround
  · rw [grow_of_full hfull]
    exact .full hfull

end Growth
end ClassNest
