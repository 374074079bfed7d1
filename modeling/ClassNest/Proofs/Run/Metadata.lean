import ClassNest.Proofs.Decisions
import ClassNest.Proofs.Run.Lambdas
import Mathlib.Data.List.TakeWhile

/-!
# What the nodes say

Every node in the forest of an outcome is the image of what was said first: a class at the top of its own class
file, a nested class of the first record that counts for it and of its class file, a lambda of its call site. The
record is the one that comes up first among all that the units declare, with the simple name that the
decisions show in the end, and the flags are those that its kind may carry.
-/
namespace ClassNest

/-! ## The last part of a name -/

/-- `part` is what stands behind the last slash of `name`, or the whole of it if there is none. -/
def IsLastPart (name part : String) : Prop :=
  '/' ∉ part.toList ∧ (part = name ∨ ∃ front, name = front ++ "/" ++ part)

theorem isLastPart_simpleNameOf (name : String) : IsLastPart name (simpleNameOf name) := by
  have hsplit := List.takeWhile_append_dropWhile (p := (· != '/')) (l := name.toList.reverse)
  have hpart : (simpleNameOf name).toList = (name.toList.reverse.takeWhile (· != '/')).reverse := by
    simp [simpleNameOf]
  refine ⟨?_, ?_⟩
  · rw [hpart, List.mem_reverse]
    intro hm
    simpa using List.mem_takeWhile_imp hm
  · cases hrest : name.toList.reverse.dropWhile (· != '/') with
    | nil =>
      rw [hrest, List.append_nil] at hsplit
      refine .inl (String.toList_inj.mp ?_)
      rw [hpart, hsplit, List.reverse_reverse]
    | cons slash front =>
      -- the walk from the end stops at a slash
      have hslash : slash = '/' := by
        have hstop := List.head?_dropWhile_not (· != '/') name.toList.reverse
        simpa [hrest] using hstop
      refine .inr ⟨String.ofList front.reverse, String.toList_inj.mp ?_⟩
      have hname := congrArg List.reverse hsplit
      rw [List.reverse_reverse, List.reverse_append, ← hpart, hrest, hslash] at hname
      simp [← hname]

/-! ## Nodes and what they come from -/

namespace Node

/-- What the node of a class at the top says. -/
structure OfRoot (c : ClassFile) (m : Node) : Prop where
  kind : m.kind = .root
  access : m.access = c.access
  simpleName : ∃ part, m.simpleName = some part ∧ IsLastPart m.qualifiedName part
  interfaceType : m.interfaceType = none
  lambda : m.lambda = none
  enclosingMethod : m.enclosingMethod = none
  enclosingClasses : m.enclosingClasses = []

/-- What the node of a nested class says, by its record `r` and its class `c`. -/
structure OfNested (ix : NestingIndex) (r : NestedRecord) (c : ClassFile) (m : Node) : Prop where
  kind : m.kind = .ofNested r.kind
  simpleName : m.simpleName = r.simpleName
  enclosingClasses : m.enclosingClasses = ix.enclosingOf m.qualifiedName
  lambda : m.lambda = none
  member : r.kind = .member → m.access = r.access ∧ m.interfaceType = none ∧ m.enclosingMethod = none
  anonymous : r.kind = .anonymous → m.access = r.access.diff .staticBit ∧
    m.interfaceType = c.interfaces.head?.or c.superClass ∧ m.enclosingMethod = c.enclosingMethod
  «local» : r.kind = .local → m.access = r.access.inter (Access.abstractBit.union .finalBit) ∧
    m.interfaceType = none ∧ m.enclosingMethod = c.enclosingMethod

/-- What the node of a lambda says. -/
structure OfSite (reg : Registry) (s : CallSite) (m : Node) : Prop where
  access : m.access = .empty
  simpleName : m.simpleName = none
  interfaceType : m.interfaceType = some s.interfaceName
  qualifiedName : m.qualifiedName = s.declaringClass
  lambda : ∃ info, m.lambda = some info ∧ info.Describes reg s

variable {m : Node}

theorem ofRoot_of_label {c : ClassFile} (h : m.label = .ofClass c) : m.OfRoot c where
  kind := congrArg Node.kind h
  access := congrArg Node.access h
  simpleName := by
    have hname : m.qualifiedName = c.name := congrArg Node.qualifiedName h
    exact ⟨c.simpleName, congrArg Node.simpleName h, hname ▸ isLastPart_simpleNameOf c.name⟩
  interfaceType := congrArg Node.interfaceType h
  lambda := congrArg Node.lambda h
  enclosingMethod := congrArg Node.enclosingMethod h
  enclosingClasses := congrArg Node.enclosingClasses h

theorem ofNested_materialize (g : Ground) {r : NestedRecord} {c : ClassFile} (hr : r.inner = c.name) :
    (g.materialize r c).OfNested g.index r c := by
  have htype : c.anonymousType = c.interfaces.head?.or c.superClass := by
    unfold ClassFile.anonymousType
    cases c.interfaces <;> rfl
  have hmask : Access.localMask = Access.abstractBit.union .finalBit := rfl
  unfold Ground.materialize
  cases hk : r.kind <;> constructor <;> simp [hk, hr, htype, hmask]

theorem ofNested_of_label {g : Ground} {r : NestedRecord} {c : ClassFile} (h : m.label = g.materialize r c)
    (hr : r.inner = c.name) : m.OfNested g.index r c := by
  have hl : m.label.OfNested g.index r c := h ▸ ofNested_materialize g hr
  exact ⟨hl.kind, hl.simpleName, hl.enclosingClasses, hl.lambda, hl.member, hl.anonymous, hl.local⟩

end Node

/-! ## The forest of an outcome -/

/-- Every node says what its class, its record or its call site says. The decisions `c` are those in the end. -/
structure Forest.Faithful (reg : Registry) (ix : NestingIndex) (c : RenameCache) (sites : List CallSite)
    (f : Forest) : Prop where
  root : ∀ {i : NodeId} {m : Node}, f.node? i = some m → m.kind = .root →
    ∃ k, reg.own? m.qualifiedName = some k ∧ m.OfRoot k
  /-- the record that counts is the first one of the class in the whole batch -/
  nested : ∀ {i : NodeId} {m : Node}, f.node? i = some m → m.kind ≠ .root → m.kind ≠ .lambda →
    ∃ r k, reg.declaredRecords.find? (·.inner == m.qualifiedName) = some r ∧
      ix.record? m.qualifiedName = some (r.shown c) ∧ reg.own? m.qualifiedName = some k ∧
      m.OfNested ix (r.shown c) k
  lambda : ∀ {i : NodeId} {m : Node}, f.node? i = some m → m.kind = .lambda → ∃ s ∈ sites, m.OfSite reg s

theorem exists_of_forall₂ {α β : Type} {R : α → β → Prop} {xs : List α} {ys : List β} (h : List.Forall₂ R xs ys)
    {x : α} (hx : x ∈ xs) : ∃ y ∈ ys, R x y := by
  induction h with
  | nil => cases hx
  | @cons a b xs ys hab _ ih =>
    rcases List.mem_cons.mp hx with rfl | hx
    · exact ⟨b, by simp, hab⟩
    · obtain ⟨y, hy, hr⟩ := ih hx
      exact ⟨y, by simp [hy], hr⟩

theorem NodeKind.ofNested_ne_root (k : NestedKind) : NodeKind.ofNested k ≠ .root := by cases k <;> decide

namespace Outcome.Grown
variable {g : Ground} {sites : List CallSite} {visits : List String} {o : Outcome} {i : NodeId} {m : Node}

/-- A class node comes from one of the two: from its class alone, or from its record as well. -/
theorem class_cases (h : o.Grown g sites visits) (hg : g.Sound) (hm : o.forest.node? i = some m)
    (hk : m.kind ≠ .lambda) :
    (∃ c, g.registry.own? m.qualifiedName = some c ∧ m.OfRoot c) ∨
    ∃ r c, g.nested = true ∧ g.index.record? m.qualifiedName = some r ∧
      g.registry.own? m.qualifiedName = some c ∧ m.OfNested g.index r c := by
  have hs := h.settled.shaped
  have hl : o.forest.label? i = some m.label := by rw [Forest.label?, hm]; rfl
  have ha : o.forest.className? i = some m.qualifiedName := Forest.className?_iff_node?.mpr ⟨m, hm, hk, rfl⟩
  cases hp : o.forest.parent? i with
  | none =>
    obtain ⟨c, hc, hlabel⟩ := hs.labelled.root (hs.rooted.mem_roots.mpr ⟨Forest.lt_size_of_label? hl, hp⟩)
    have hlabel : m.label = .ofClass c := Option.some.inj (hl.symm.trans hlabel)
    have hname : m.qualifiedName = c.name := congrArg Node.qualifiedName hlabel
    refine .inl ⟨c, ?_, Node.ofRoot_of_label hlabel⟩
    rw [hname]
    exact Registry.own?_of_mem_ownClasses hg.registry (Ground.mem_rootClasses.mp hc).1
  | some p =>
    obtain ⟨e, _, hbelow⟩ := hs.breadth.enclosed ha hp
    obtain ⟨_, r, c, hr, hc, hlabel⟩ := hs.labelled.inner ha hp
    have hinner : r.inner = m.qualifiedName := by simpa using List.find?_some hr
    refine .inr ⟨r, c, (Ground.mem_below_iff.mp hbelow).1, hr, hc, ?_⟩
    exact Node.ofNested_of_label (Option.some.inj (hl.symm.trans hlabel)) (hinner.trans (Registry.name_of_own? hc).symm)

/-- A lambda comes from one of the call sites. -/
theorem ofSite (h : o.Grown g sites visits) (hm : o.forest.node? i = some m) (hk : m.kind = .lambda) :
    ∃ s ∈ sites, m.OfSite g.registry s := by
  obtain ⟨_, p, _, hp, hchild, _⟩ := h.lambdasOf.owner hm hk
  obtain ⟨_, nested, lams, names, hsplit, _, hclasses, hlambdas⟩ := h.lambdasOf.children hp
  rw [hsplit, List.mem_append] at hchild
  rcases hchild with hchild | hchild
  · obtain ⟨_, _, m', hm', hclass, _⟩ := exists_of_forall₂ hclasses hchild
    cases hm.symm.trans hm'
    exact absurd hk hclass
  · obtain ⟨s, hs, info, hd, hm'⟩ := exists_of_forall₂ hlambdas hchild
    cases hm.symm.trans hm'
    exact ⟨s, (List.mem_filter.mp hs).1, rfl, rfl, congrArg some hd.interfaceName, hd.declaringClass, info, rfl, hd⟩

/-- Every node says what it should, if the index holds the first records as the decisions `c` show them. -/
theorem faithful (h : o.Grown g sites visits) (hg : g.Sound) {c : RenameCache}
    (hfirst : g.nested = true → ∀ name, g.index.record? name =
      (g.registry.declaredRecords.find? (·.inner == name)).map (·.shown c)) :
    o.forest.Faithful g.registry g.index c sites where
  root := by
    intro i m hm hk
    rcases h.class_cases hg hm (by simp [hk]) with hroot | ⟨r, k, _, _, _, hnested⟩
    · exact hroot
    · exact absurd (hnested.kind.symm.trans hk) (NodeKind.ofNested_ne_root _)
  nested := by
    intro i m hm hroot hlambda
    rcases h.class_cases hg hm hlambda with ⟨k, _, htop⟩ | ⟨r, k, hn, hr, hk, hnested⟩
    · exact absurd htop.kind hroot
    · have hr' := hr
      rw [hfirst hn, Option.map_eq_some_iff] at hr'
      obtain ⟨d, hd, rfl⟩ := hr'
      exact ⟨d, k, hd, hr, hk, hnested⟩
  lambda := h.ofSite

end Outcome.Grown

/-- A class with a member, an anonymous and a local class, all of them declared static. -/
def nestingUnits : List ClassUnit :=
  [.loaded
    { name := "app/Main", access := .publicBit, own := true
      pool := ⟨[.className "app/Main", .className "app/Main$M", .utf8 "M", .className "app/Main$1",
        .className "app/Main$1L", .utf8 "L"]⟩
      innerClasses := [⟨2, 1, 3, .staticBit⟩, ⟨4, 0, 0, .staticBit⟩, ⟨5, 0, 6, ⟨0x0418⟩⟩] },
   .loaded { name := "app/Main$M", own := true },
   .loaded
    { name := "app/Main$1", own := true, superClass := some "java/lang/Object", interfaces := ["java/lang/Runnable"]
      enclosingMethod := some ⟨"app/Main", some "main", some "()V"⟩ },
   .loaded { name := "app/Main$1L", own := true }]

/-- A lambda of the anonymous class. -/
def nestingSites : List CallSite :=
  [⟨"app/Main$1", "java/lang/System", "gc", "()V", 6, "java/lang/Runnable", "run", "()V"⟩]

-- only the member keeps all its flags
example : (match (Registry.ofUnits nestingUnits).run {} (.keep Unit) ⟨(), {}⟩ nestingSites with
    | .ok (o, _) => o.forest.nodes.map fun m => (m.kind, m.simpleName, m.access.bits)
    | .error _ => []) =
    [(.root, some "Main", 0x0001), (.member, some "M", 0x0008), (.anonymous, none, 0), (.local, some "L", 0x0410),
      (.lambda, none, 0)] := by decide +kernel

end ClassNest
