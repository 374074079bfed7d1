import ClassNest.Proofs.Run.Outcome

/-!
# The lambdas of an outcome

No call site of a class with a node is lost and none comes up twice, however often the trees that
held the class were taken back. Below the class stand first the classes nested in it and then one
lambda for each of its call sites, in the order of the sites, and there is no lambda anywhere else.
-/
namespace ClassNest

namespace Forest

/-- The node at `j` stands for the class `name`. -/
def ClassAt (f : Forest) (j : NodeId) (name : String) : Prop :=
  ∃ m, f.node? j = some m ∧ m.kind ≠ .lambda ∧ m.qualifiedName = name

/-- The node at `j` is the lambda of the call site `s`, below `i` and with nothing below it. -/
def LambdaAt (reg : Registry) (f : Forest) (i j : NodeId) (s : CallSite) : Prop :=
  ∃ info, LambdaInfo.Describes reg s info ∧ f.node? j = some { Node.ofLambda info with parent := some i }

/-- The lambdas of the forest are those of the call sites `sites`, for the classes that have a node. -/
structure LambdasOf (reg : Registry) (ix : NestingIndex) (sites : List CallSite) (f : Forest) : Prop where
  children : ∀ {name : String} {i : NodeId}, f.find? name = some i → (f.children i).Nodup ∧
    ∃ nested lams names, f.children i = nested ++ lams ∧ names.Sublist (ix.childrenOf name) ∧
      List.Forall₂ f.ClassAt nested names ∧ List.Forall₂ (f.LambdaAt reg i) lams (sitesOf sites name)
  owner : ∀ {j : NodeId} {m : Node}, f.node? j = some m → m.kind = .lambda →
    ∃ info i, m.lambda = some info ∧ f.find? info.declaringClass = some i ∧ j ∈ f.children i ∧
      f.owningClass j = i

theorem forall₂_className? {f : Forest} : ∀ {ids : List NodeId},
    (∀ j ∈ ids, ∃ a, f.className? j = some a) →
    List.Forall₂ f.ClassAt ids (ids.filterMap f.className?)
  | [], _ => .nil
  | j :: ids, h => by
    obtain ⟨a, ha⟩ := h j (by simp)
    rw [List.filterMap_cons_some ha]
    exact .cons (className?_iff_node?.mp ha) (forall₂_className? fun k hk => h k (by simp [hk]))

theorem filterMap_className?_of_holds {reg : Registry} {f : Forest} {lams : List NodeId}
    {ss : List CallSite}
    (h : List.Forall₂ (f.Holds reg) lams ss) : lams.filterMap f.className? = [] := by
  induction h with
  | nil => rfl
  | @cons j _ _ _ hj _ ih =>
    obtain ⟨info, _, hl⟩ := hj
    have hnone : f.className? j = none := by unfold className?; rw [hl]; rfl
    rw [List.filterMap_cons_none hnone, ih]

/-- Nothing is below a lambda: classes and lambdas alike have a class above them. -/
theorem children_of_lambda {g : Ground} {f : Forest} {att : List CallSite} (hs : f.Shaped g)
    (hc : f.Carries g.registry att) {j : Nat} (hj : f.className? j = none) : f.children j = [] := by
  refine List.eq_nil_iff_forall_not_mem.mpr fun k hk => ?_
  have hp := hs.linked.mem_children.mp hk
  have hclass : ∃ a, f.className? j = some a := by
    cases hk : f.className? k with
    | some a =>
      obtain ⟨e, he, _⟩ := hs.breadth.enclosed hk hp
      exact ⟨e, he⟩
    | none =>
      obtain ⟨l, hl, hlam⟩ := isLambda_of_className?_eq_none (lt_size_of_parent? hp) hk
      obtain ⟨p, info, hp', _, hi⟩ := hc.owned hl hlam
      rw [hp] at hp'
      cases hp'
      exact ⟨_, hi⟩
  obtain ⟨a, ha⟩ := hclass
  rw [ha] at hj
  cases hj

/-- A lambda in full: its label, its parent and no children. -/
theorem node?_of_lambda {g : Ground} {f : Forest} {att : List CallSite} (hs : f.Shaped g)
    (hc : f.Carries g.registry att)
    {i j : Nat} {info : LambdaInfo} (hl : f.label? j = some (.ofLambda info)) (hp : f.parent? j = some i) :
    f.node? j = some { Node.ofLambda info with parent := some i } := by
  have hchildren : f.children j = [] := children_of_lambda hs hc (by unfold className?; rw [hl]; rfl)
  obtain ⟨m, hm, hml⟩ := Option.map_eq_some_iff.mp hl
  rw [parent?, hm, Option.bind_some] at hp
  unfold children at hchildren
  rw [hm] at hchildren
  rw [hm, ← hml, ← hp]
  exact congrArg some (show m = { m with children := [] } by rw [← hchildren])

end Forest

namespace Outcome.Grown
variable {g : Ground} {sites : List CallSite} {visits : List String} {o : Outcome}

theorem lambdasOf (h : o.Grown g sites visits) : o.forest.LambdasOf g.registry g.index sites := by
  obtain ⟨att, hc, hatt⟩ := h.lambdas
  have hs := h.settled.shaped
  refine ⟨?_, ?_⟩
  · intro name i hi
    have hi := hs.named.find?_iff.mp hi
    obtain ⟨nested, lams, hchildren, hnest, hall⟩ := hc.split hi
    have hnames : o.forest.nestedNames i = nested.filterMap o.forest.className? := by
      unfold Forest.nestedNames
      rw [hchildren, List.filterMap_append, Forest.filterMap_className?_of_holds hall, List.append_nil]
    refine ⟨(hs.linked.sorted i).imp fun hlt => Nat.ne_of_lt hlt, nested, lams,
      o.forest.nestedNames i, hchildren, ?_, ?_, ?_⟩
    · refine (hs.breadth.listed hi).trans ?_
      unfold Ground.below
      split
      · exact List.Sublist.refl _
      · exact List.nil_sublist _
    · rw [hnames]
      exact Forest.forall₂_className? hnest
    · rw [← hatt hi]
      have hparent : ∀ j ∈ lams, o.forest.parent? j = some i := by
        intro j hj
        refine hs.linked.mem_children.mp ?_
        rw [hchildren]
        exact List.mem_append_right _ hj
      refine ((List.forall₂_and_left _ _).mpr ⟨hparent, hall⟩).imp ?_
      rintro j s ⟨hp, info, hd, hl⟩
      exact ⟨info, hd, Forest.node?_of_lambda hs hc hl hp⟩
  · intro j m hm hk
    have hl : o.forest.label? j = some m.label := by rw [Forest.label?, hm]; rfl
    have hlam : m.label.isLambda = true := beq_iff_eq.mpr hk
    obtain ⟨i, info, hp, hinfo, hi⟩ := hc.owned hl hlam
    refine ⟨info, i, ?_, hs.named.find?_iff.mpr hi, hs.linked.mem_children.mpr hp,
      Forest.owningClass_of_lambda hs.linked hl hlam hp hi⟩
    show m.label.lambda = _
    rw [hinfo]
    rfl

end Outcome.Grown

/-- Every run with valid settings has an outcome with exactly the lambdas of its call sites. -/
theorem run_lambdasOf {σ : Type} (us : List ClassUnit) (settings : Settings) (p : Policy σ) (n : Naming σ)
    (sites : List CallSite) (hv : settings.validate = .ok ()) :
    ∃ o n', (Registry.ofUnits us).run settings p n sites = .ok (o, n') ∧
      o.forest.LambdasOf (Registry.ofUnits us) ((Registry.ofUnits us).indexFor settings p n) sites := by
  obtain ⟨o, n', visits, hrun, h⟩ := run_grown us settings p n sites hv
  exact ⟨o, n', hrun, h.lambdasOf⟩

/-- A class with a synthetic method. -/
def lambdaUnits : List ClassUnit :=
  [.loaded {
    name := "app/Main"
    own := true
    methods := [{ name := "lambda$0", descriptor := "()V", syntheticAttribute := true }] }]

/-- A lambda and a method reference of that class. -/
def lambdaSites : List CallSite :=
  [⟨"app/Main", "app/Main", "lambda$0", "()V", 6, "java/lang/Runnable", "run", "()V"⟩,
   ⟨"app/Main", "java/lang/System", "gc", "()V", 6, "java/lang/Runnable", "run", "()V"⟩]

theorem run_lambdasOf_lambdaSites : ∃ o n',
    (Registry.ofUnits lambdaUnits).run {} (.keep Unit) ⟨(), {}⟩ lambdaSites = .ok (o, n') ∧
      o.forest.LambdasOf (Registry.ofUnits lambdaUnits)
        ((Registry.ofUnits lambdaUnits).indexFor {} (.keep Unit) ⟨(), {}⟩) lambdaSites :=
  run_lambdasOf lambdaUnits {} (.keep Unit) ⟨(), {}⟩ lambdaSites rfl

end ClassNest
