import ClassNest.Lambda.Attach
import ClassNest.Proofs.Faults
import ClassNest.Proofs.Forest.History
import ClassNest.Proofs.Forest.Pruned

/-!
# All call sites or none

Lambdas are attached in two passes over the same call sites: one describes them, the other attaches what was described.
A call site of a bad kind ends the first pass, and the forest is the one it was. The second pass goes through with
every forest that can be built, as long as the arena has room: one call site after the other adds a leaf at the end of
the arena, or nothing if its class has no node (`Sprouts.step`), and what it does to the forest as a whole is the sum
of these steps (`Sprouts`, `attachSites_allOrNothing`).
-/
namespace ClassNest

/-! ## Bad call sites -/

theorem CallSite.fault?_eq_none {s : CallSite} (h : 1 ≤ s.invocationKind ∧ s.invocationKind ≤ 9) : s.fault? = none := by
  rw [← Option.not_isSome_iff_eq_none, fault?_isSome, not_not]
  exact h

theorem CallSite.fault?_of_bad {s : CallSite} (h : ¬ (1 ≤ s.invocationKind ∧ s.invocationKind ≤ 9)) :
    s.fault? = some ⟨.referenceKind s.invocationKind, some s.declaringClass⟩ := by
  rw [← InvocationKind.isOk_ofCode] at h
  unfold fault? InvocationKind.ofCode at *
  split at h
  · exact absurd rfl h
  · rfl

/-- The first pass fails with the first bad call site. -/
theorem errorOf_describeAll_of_first (reg : Registry) {before : List CallSite} {s : CallSite} (after : List CallSite)
    (hbefore : ∀ t ∈ before, 1 ≤ t.invocationKind ∧ t.invocationKind ≤ 9)
    (hbad : ¬ (1 ≤ s.invocationKind ∧ s.invocationKind ≤ 9)) :
    errorOf (describeAll reg (before ++ s :: after)).1 =
      some ⟨.referenceKind s.invocationKind, some s.declaringClass⟩ := by
  have hnone : before.findSome? (·.fault?) = none :=
    List.findSome?_eq_none_iff.mpr fun t ht => CallSite.fault?_eq_none (hbefore t ht)
  rw [errorOf_describeAll, List.findSome?_append, hnone, Option.none_or, List.findSome?_cons, CallSite.fault?_of_bad hbad]

theorem errorOf_describeAll_isSome {reg : Registry} {ss : List CallSite} :
    (errorOf (describeAll reg ss).1).isSome = true ↔ ∃ s ∈ ss, ¬ (1 ≤ s.invocationKind ∧ s.invocationKind ≤ 9) := by
  rw [errorOf_describeAll, List.findSome?_isSome_iff]
  simp only [CallSite.fault?_isSome]

namespace Forest

/-! ## Every forest -/

/-- The forests that can come up with any nodes, whatever they bring along. -/
abbrev Built (f : Forest) : Prop := f.BuiltBy fun _ => True

theorem NamesLead.leadsInside {f : Forest} (h : f.NamesLead) : f.LeadsInside := fun hp =>
  lt_size_of_className? (h _ (mem_byName_of_find? hp))

/-! ## The second pass -/

/-- The call sites whose class has a node. -/
def placed (f : Forest) (ss : List CallSite) : List CallSite :=
  ss.filter fun s => (f.find? s.declaringClass).isSome

/-- The ids below the node `p` if the call sites are numbered from the end of the arena on. -/
def idsBelow (f : Forest) (ss : List CallSite) (p : NodeId) : List NodeId :=
  ((ss.zipIdx f.size).filter fun e => f.find? e.1.declaringClass == some p).map (·.2)

/-- One leaf more for each of the call sites, in order, below the nodes of their classes. -/
structure Sprouts (reg : Registry) (f : Forest) (ss : List CallSite) (g : Forest) : Prop where
  size : g.size = f.size + ss.length
  /-- a node that was there gets the new leaves as its last children, and is otherwise the same -/
  old : ∀ i < f.size, g.node? i = (f.node? i).map (·.withChildren (f.idsBelow ss i))
  /-- the leaves stand at the end of the arena -/
  leaf : ∀ {k : Nat} {s : CallSite}, ss[k]? = some s → ∃ p info, f.find? s.declaringClass = some p ∧
    LambdaInfo.Describes reg s info ∧ g.node? (f.size + k) = some { Node.ofLambda info with parent := some p }
  roots : g.roots = f.roots
  unattached : g.unattached = f.unattached
  byName : g.byName = f.byName

section
variable {reg : Registry} {f g : Forest} {ss done : List CallSite} {s : CallSite} {info : LambdaInfo}

theorem sprouts_nil : Sprouts reg f [] f where
  size := rfl
  old i _ := by simp [idsBelow]
  leaf h := by simp at h
  roots := rfl
  unattached := rfl
  byName := rfl

theorem Sprouts.find? (h : Sprouts reg f ss g) (name : String) : g.find? name = f.find? name := by
  unfold Forest.find?
  rw [h.byName]

theorem idsBelow_concat (p : NodeId) : f.idsBelow (ss ++ [s]) p =
    f.idsBelow ss p ++ if f.find? s.declaringClass = some p then [f.size + ss.length] else [] := by
  unfold idsBelow
  rw [List.zipIdx_append, List.filter_append, List.map_append]
  by_cases hp : f.find? s.declaringClass = some p <;> simp [hp]

/-- A leaf for one call site more. -/
theorem Sprouts.step (h : Sprouts reg f ss g) {p : Nat} (hp : f.find? s.declaringClass = some p) (hlt : p < f.size)
    (hd : LambdaInfo.Describes reg s info) : Sprouts reg f (ss ++ [s]) (g.graft p (.ofLambda info)) where
  size := by rw [size_graft, h.size, List.length_append, List.length_singleton, Nat.add_assoc]
  old i hi := by
    have hne : i ≠ g.size := by rw [h.size]; omega
    rw [node?_graft, if_neg hne, h.old i hi, Option.map_map, idsBelow_concat, hp, h.size]
    congr 1
    funext n
    by_cases hpi : p = i <;> simp [hpi, Node.withChildren]
  leaf {k t} hk := by
    rcases Nat.lt_or_ge k ss.length with hlt' | hge
    · rw [List.getElem?_append_left hlt'] at hk
      obtain ⟨q, other, hq, hother, hnode⟩ := h.leaf hk
      refine ⟨q, other, hq, hother, ?_⟩
      rw [node?_graft, if_neg (by rw [h.size]; omega), hnode, Option.map_some, if_neg (by omega)]
    · rw [List.getElem?_append_right hge] at hk
      obtain ⟨hk0, rfl⟩ : k - ss.length = 0 ∧ s = t := by simpa [List.getElem?_singleton] using hk
      obtain rfl : k = ss.length := by omega
      refine ⟨p, info, hp, hd, ?_⟩
      -- the parent is older than all leaves, so that the leaf is not its own child
      rw [node?_graft, if_pos h.size.symm, Option.map_some, if_neg (by omega)]
  roots := h.roots
  unattached := h.unattached
  byName := h.byName

theorem placed_cons_of_some {p : Nat} (hp : f.find? s.declaringClass = some p) :
    f.placed (s :: ss) = s :: f.placed ss :=
  List.filter_cons_of_pos (by simp [hp])

theorem placed_cons_of_none (hp : f.find? s.declaringClass = none) : f.placed (s :: ss) = f.placed ss :=
  List.filter_cons_of_neg (by simp [hp])

/-- All of them, one after the other. With room in the arena no step fails. -/
theorem Sprouts.addLambdas {infos : List LambdaInfo}
    (hall : List.Forall₂ (fun s info => LambdaInfo.Describes reg s info) ss infos) (hf : f.LeadsInside) :
    ∀ {done : List CallSite} {g : Forest}, Sprouts reg f done g → g.size + (f.placed ss).length ≤ capacity →
      Sprouts reg f (done ++ f.placed ss) (g.addLambdas infos).state ∧
        (g.addLambdas infos).answer = .ok (List.range' g.size (f.placed ss).length) := by
  induction hall with
  | nil =>
    intro done g h _
    have hnil : f.placed [] = [] := rfl
    rw [hnil, List.append_nil]
    exact ⟨h, rfl⟩
  | @cons s info ss infos hd _ ih =>
    intro done g h hroom
    rw [Forest.addLambdas]
    cases hp : f.find? s.declaringClass with
    | none =>
      have hg : g.find? info.declaringClass = none := by rw [h.find?, hd.declaringClass, hp]
      obtain ⟨log, hone⟩ := addLambda_of_none hg
      rw [placed_cons_of_none hp] at hroom ⊢
      obtain ⟨hgrown, hids⟩ := ih h hroom
      rw [hone, Step.andThen_of_ok rfl]
      exact ⟨hgrown, congrArg (Except.map ([] ++ ·)) hids⟩
    | some p =>
      have hlt : p < g.size := by rw [h.size]; exact Nat.lt_add_right _ (hf hp)
      have hg : g.find? info.declaringClass = some p := by rw [h.find?, hd.declaringClass, hp]
      have hone := addLambda_of_some hg
      rw [placed_cons_of_some hp, List.length_cons] at hroom
      rw [perform_attach, if_pos hlt, if_pos (by omega)] at hone
      obtain ⟨hgrown, hids⟩ := ih (h.step hp (hf hp) hd) (by rw [size_graft]; omega)
      rw [List.append_assoc, List.singleton_append] at hgrown
      rw [placed_cons_of_some hp, hone, Step.andThen_of_ok rfl]
      refine ⟨hgrown, ?_⟩
      rw [List.length_cons, List.range'_succ]
      rw [size_graft] at hids
      exact congrArg (Except.map ([g.size] ++ ·)) hids

end

/-! ## Both passes -/

theorem attachAll_of_room {f : Forest} {reg : Registry} {ss : List CallSite} {infos : List LambdaInfo}
    (hf : f.LeadsInside) (hroom : f.size + (f.placed ss).length ≤ capacity) (hd : (describeAll reg ss).1 = .ok infos) :
    Sprouts reg f (f.placed ss) (f.attachAll reg ss).state ∧
      (f.attachAll reg ss).answer = .ok (List.range' f.size (f.placed ss).length) := by
  rw [attachAll_of_ok hd]
  exact Sprouts.addLambdas (describeAll_ok (Prod.ext hd rfl)) hf sprouts_nil hroom

/-- In a forest with room for the lambdas, attaching fails just if some call site is of a bad kind. The fault is that of
the first of them, with its class as the unit, and the forest is then the one it was. Otherwise each call site whose
class has a node gets its leaf, with the ids that follow the end of the arena, and nothing else changes. -/
theorem attachSites_allOrNothing {f : Forest} (hf : f.Built) (reg : Registry) (ss : List CallSite)
    (hroom : f.size + (f.placed ss).length ≤ capacity) :
    let left := (f.attachAll reg ss).state
    let answer := (f.attachAll reg ss).answer
    ((∃ fault, answer = .error fault) ↔ ∃ s ∈ ss, ¬ (1 ≤ s.invocationKind ∧ s.invocationKind ≤ 9)) ∧
    (∀ before s after, ss = before ++ s :: after →
      (∀ t ∈ before, 1 ≤ t.invocationKind ∧ t.invocationKind ≤ 9) →
      ¬ (1 ≤ s.invocationKind ∧ s.invocationKind ≤ 9) →
      left = f ∧ answer = .error ⟨.referenceKind s.invocationKind, some s.declaringClass⟩) ∧
    ((∀ s ∈ ss, 1 ≤ s.invocationKind ∧ s.invocationKind ≤ 9) →
      Sprouts reg f (f.placed ss) left ∧ answer = .ok (List.range' f.size (f.placed ss).length)) ∧
    f.attachSites reg ss = (answer.map (left, ·), (f.attachAll reg ss).log) := by
  intro left answer
  cases hd : (describeAll reg ss).1 with
  | error fault =>
    have hbad : ∃ s ∈ ss, ¬ (1 ≤ s.invocationKind ∧ s.invocationKind ≤ 9) :=
      errorOf_describeAll_isSome.mp (by rw [hd]; rfl)
    have he := attachAll_of_error hd f
    have hleft : left = f := congrArg (·.state) he
    have hanswer : answer = .error fault := congrArg (·.answer) he
    refine ⟨iff_of_true ⟨fault, hanswer⟩ hbad, ?_, ?_, rfl⟩
    · intro before s after hss hbefore hs
      have hfirst := errorOf_describeAll_of_first reg after hbefore hs
      rw [← hss, hd] at hfirst
      cases hfirst
      exact ⟨hleft, hanswer⟩
    · intro hok
      obtain ⟨s, hs, hns⟩ := hbad
      exact absurd (hok s hs) hns
  | ok infos =>
    have hok : ¬ ∃ s ∈ ss, ¬ (1 ≤ s.invocationKind ∧ s.invocationKind ≤ 9) := by
      rw [← errorOf_describeAll_isSome, hd]
      exact Bool.false_ne_true
    obtain ⟨hgrown, hanswer⟩ := attachAll_of_room hf.namesLead.leadsInside hroom hd
    refine ⟨iff_of_false ?_ hok, ?_, fun _ => ⟨hgrown, hanswer⟩, rfl⟩
    · rintro ⟨fault, hfault⟩
      rw [show answer = _ from hanswer] at hfault
      cases hfault
    · intro before s after hss _ hs
      exact absurd ⟨s, by simp [hss], hs⟩ hok

/-- A class, and another one below it. -/
def pairedForest : Forest :=
  (({} : Forest).addRoot (.ofClass { name := "app/A" })).graft 0 { kind := .member, qualifiedName := "app/A$B" }

/-- A call site of which only the class and the kind of the reference matter. -/
def bareSite (name : String) (kind : UInt8) : CallSite :=
  { (default : CallSite) with declaringClass := name, invocationKind := kind }

/-- Call sites of both classes in turn, and one of a class without a node. -/
def mingledSites : List CallSite :=
  [bareSite "app/A" 6, bareSite "app/X" 6, bareSite "app/A$B" 9, bareSite "app/A" 1]

/-- The leaves have the ids two to four, also with a call site that is passed over; a bad call site at the end, of a
class without a node, leaves nothing of them. -/
theorem attachSites_allOrNothing_mingledSites : pairedForest.Built ∧
    pairedForest.size + (pairedForest.placed mingledSites).length ≤ capacity ∧
    (pairedForest.attachAll {} mingledSites).answer = .ok [2, 3, 4] ∧
    Sprouts {} pairedForest (pairedForest.placed mingledSites) (pairedForest.attachAll {} mingledSites).state ∧
    pairedForest.idsBelow (pairedForest.placed mingledSites) 0 = [2, 4] ∧
    (pairedForest.attachAll {} (mingledSites ++ [bareSite "app/X" 0])).state = pairedForest ∧
    (pairedForest.attachAll {} (mingledSites ++ [bareSite "app/X" 0])).answer =
      .error ⟨.referenceKind 0, some "app/X"⟩ :=
  have hbuilt : pairedForest.Built := (BuiltBy.empty.grow (.addRoot trivial)).grow (.graft trivial (by decide))
  have hroom : pairedForest.size + (pairedForest.placed mingledSites).length ≤ capacity := by decide
  have hkinds : ∀ s ∈ mingledSites, 1 ≤ s.invocationKind ∧ s.invocationKind ≤ 9 := by decide
  have hgood := (attachSites_allOrNothing hbuilt {} mingledSites hroom).2.2.1 hkinds
  have hbad := (attachSites_allOrNothing hbuilt {} (mingledSites ++ [bareSite "app/X" 0]) (by decide)).2.1
    mingledSites (bareSite "app/X" 0) [] rfl hkinds (by decide)
  ⟨hbuilt, hroom, hgood.2, hgood.1, by decide, hbad.1, hbad.2⟩

end Forest
end ClassNest
