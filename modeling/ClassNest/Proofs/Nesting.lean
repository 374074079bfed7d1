import ClassNest.Proofs.Distinct
import ClassNest.Run

/-!
# The index of a run

An index that was filled from units is sound: each nested class has one record, and whatever is
nested in some class has one. With nested classes switched off a run fills no index at all.
-/
namespace ClassNest

namespace NestingIndex

/-! ## Views -/

theorem mem_nestedOf {ix : NestingIndex} {e n : String} : n ∈ ix.nestedOf e ↔ (e, n) ∈ ix.edges := by
  simp only [nestedOf, List.mem_map, List.mem_filter, beq_iff_eq]
  constructor
  · rintro ⟨⟨a, b⟩, ⟨hm, rfl⟩, rfl⟩; exact hm
  · intro h; exact ⟨(e, n), ⟨h, rfl⟩, rfl⟩

theorem mem_enclosingOf {ix : NestingIndex} {e n : String} :
    e ∈ ix.enclosingOf n ↔ (e, n) ∈ ix.edges := by
  simp only [enclosingOf, List.mem_map, List.mem_filter, beq_iff_eq]
  constructor
  · rintro ⟨⟨a, b⟩, ⟨hm, rfl⟩, rfl⟩; exact hm
  · intro h; exact ⟨(e, n), ⟨h, rfl⟩, rfl⟩

theorem mem_childrenOf {ix : NestingIndex} {e n : String} : n ∈ ix.childrenOf e ↔ n ∈ ix.nestedOf e := by
  simp only [childrenOf, List.mem_append, List.mem_filter, List.contains_iff_mem]
  constructor
  · rintro (h | h)
    · exact h.2
    · exact h.1
  · intro h
    by_cases hd : n ∈ ix.declaredBy e
    · exact .inl ⟨hd, h⟩
    · exact .inr ⟨h, by simp [hd]⟩

theorem isNested_iff {ix : NestingIndex} {name : String} :
    ix.isNested name = true ↔ name ∈ ix.records.map (·.inner) := by
  simp [isNested, record?]

/-! ## Soundness -/

structure Sound (ix : NestingIndex) : Prop where
  /-- a nested class has one record -/
  records : (ix.records.map (·.inner)).Nodup
  /-- what is nested in a class has a record -/
  edges : ∀ {e n}, (e, n) ∈ ix.edges → ix.isNested n = true

theorem sound_empty : Sound {} := ⟨List.nodup_nil, fun h => by cases h⟩

theorem Sound.isNested_child {ix : NestingIndex} (h : ix.Sound) {e n : String}
    (hn : n ∈ ix.childrenOf e) :
    ix.isNested n = true := h.edges (mem_nestedOf.mp (mem_childrenOf.mp hn))

/-- Offering a record makes its class nested, and takes no class away. -/
theorem isNested_merge {ix : NestingIndex} {r : NestedRecord} {name : String} :
    (ix.merge r).1.isNested name = true ↔ ix.isNested name = true ∨ name = r.inner := by
  unfold merge
  cases hr : ix.record? r.inner with
  | none => simp only [isNested_iff, List.map_append, List.mem_append, List.map_cons, List.map_nil,
      List.mem_singleton]
  | some first =>
    constructor
    · exact .inl
    · rintro (h | rfl)
      · exact h
      · simp [isNested, hr]

theorem Sound.merge {ix : NestingIndex} (h : ix.Sound) (r : NestedRecord) : (ix.merge r).1.Sound := by
  have hedges : ∀ {e n}, (e, n) ∈ (ix.merge r).1.edges → (ix.merge r).1.isNested n = true := by
    intro e n he
    rw [isNested_merge]
    refine .inl (h.edges (e := e) ?_)
    unfold NestingIndex.merge at he
    cases hr : ix.record? r.inner with
    | none => rw [hr] at he; exact he
    | some first => rw [hr] at he; exact he
  refine ⟨?_, hedges⟩
  unfold NestingIndex.merge
  cases hr : ix.record? r.inner with
  | none =>
    have hnew : r.inner ∉ ix.records.map (·.inner) := by
      rw [← isNested_iff, isNested, hr]
      simp
    simp only [List.map_append, List.map_cons, List.map_nil]
    rw [List.nodup_append]
    refine ⟨h.records, by simp, ?_⟩
    intro a ha b hb hab
    rw [List.mem_singleton] at hb
    rw [hab, hb] at ha
    exact hnew ha
  | some first => exact h.records

theorem Sound.addEdge {ix : NestingIndex} (h : ix.Sound) {enclosing nested : String}
    (hn : ix.isNested nested = true) : (ix.addEdge enclosing nested).Sound := by
  refine ⟨h.records, ?_⟩
  intro e n he
  rcases mem_pushNew.mp he with he | he
  · exact h.edges he
  · cases he; exact hn

theorem Sound.addDeclared {ix : NestingIndex} (h : ix.Sound) (owner inner : String) :
    (ix.addDeclared owner inner).Sound := ⟨h.records, h.edges⟩

end NestingIndex

/-! ## Filling the index -/

theorem NestedRecord.rename_inner {σ : Type} (p : Policy σ) (enabled : Bool) (n : Naming σ)
    (r : NestedRecord) :
    (r.rename p enabled n).1.inner = r.inner := by
  unfold NestedRecord.rename
  cases r.simpleName <;> rfl

namespace Intake
variable {σ : Type} (p : Policy σ) (rename : Bool) (reg : Registry)

theorem sound_addRecord (owner : String) {s : Intake σ} (h : s.index.Sound) (r : NestedRecord) :
    (s.addRecord p rename reg owner r).index.Sound := by
  unfold addRecord
  split
  · refine ((h.merge _).addEdge ?_).addDeclared _ _
    rw [NestingIndex.isNested_merge, NestedRecord.rename_inner]
    exact .inr rfl
  · exact h

theorem sound_addDecoded {s : Intake σ} (h : s.index.Sound)
    (d : Except Failure (ClassFile × List NestedRecord)) : (s.addDecoded p rename reg d).index.Sound := by
  match d with
  | .error _ => exact h
  | .ok (c, records) =>
    simp only [addDecoded]
    induction records generalizing s with
    | nil => exact h
    | cons r rs ih => exact ih (sound_addRecord p rename reg c.name h r)

theorem sound_ofDecoded (n : Naming σ) (ds : List (Except Failure (ClassFile × List NestedRecord))) :
    (ofDecoded p rename reg n ds).index.Sound := by
  have run : ∀ (ds : List (Except Failure (ClassFile × List NestedRecord))) (s : Intake σ),
    s.index.Sound →
      (ds.foldl (addDecoded p rename reg) s).index.Sound := by
    intro ds
    induction ds with
    | nil => intro s h; exact h
    | cons d ds ih => intro s h; exact ih _ (sound_addDecoded p rename reg h d)
  exact run ds _ NestingIndex.sound_empty

end Intake

/-! ## Record by record -/

/-- The records that units bring, each with the class that lists it. A unit that cannot be read brings none. -/
def declarations (ds : List (Except Failure (ClassFile × List NestedRecord))) : List (String × NestedRecord) :=
  (ds.filterMap (·.toOption)).flatMap fun d => d.2.map fun r => (d.1.name, r)

theorem ClassUnit.own?_loaded (c : ClassFile) : (ClassUnit.loaded c).own? = if c.own then some c else none := rfl

/-- What the units of a registry bring to the index comes from classes under reconstruction. -/
theorem Registry.decoded_eq (r : Registry) (nested : Bool) :
    (r.units.filterMap (·.decodeFor nested)).filterMap (·.toOption) =
      r.ownClasses.filterMap fun c => ((ClassUnit.loaded c).decodeFor nested).bind (·.toOption) := by
  unfold ownClasses
  rw [List.filterMap_filterMap, List.filterMap_filterMap]
  apply List.filterMap_congr
  intro u _
  cases u with
  | corrupted name reason => rfl
  | loaded c =>
    rw [ClassUnit.own?_loaded]
    cases hc : c.own with
    | true => rfl
    | false => cases nested <;> simp [ClassUnit.decodeFor, ClassUnit.decode, hc]

namespace Intake
variable {σ : Type} (p : Policy σ) (rename : Bool) {reg reg' : Registry}

/-- The index and the renaming decisions are the same. -/
structure Same (s s' : Intake σ) : Prop where
  index : s.index = s'.index
  naming : s.naming = s'.naming

/-- Of the enclosing class only that it is under reconstruction counts. -/
theorem Same.addRecord (hown : reg.isOwn = reg'.isOwn) {s s' : Intake σ} (h : Same s s') (owner : String)
    (r : NestedRecord) : Same (s.addRecord p rename reg owner r) (s'.addRecord p rename reg' owner r) := by
  unfold Intake.addRecord
  rw [hown, h.index, h.naming]
  split <;> exact ⟨rfl, rfl⟩

theorem Same.addDecoded (reg : Registry) : ∀ (ds : List (Except Failure (ClassFile × List NestedRecord)))
    {s s' : Intake σ}, Same s s' → Same (ds.foldl (Intake.addDecoded p rename reg) s)
      ((declarations ds).foldl (fun t d => t.addRecord p rename reg d.1 d.2) s')
  | [], _, _, h => h
  | .error failure :: ds, s, s', h => by
    have herror : Same (s.addDecoded p rename reg (.error failure)) s' := ⟨h.index, h.naming⟩
    exact Same.addDecoded reg ds herror
  | .ok (c, rs) :: ds, s, s', h => by
    have hone : Same (s.addDecoded p rename reg (.ok (c, rs)))
        (rs.foldl (Intake.addRecord p rename reg c.name) s') :=
      List.foldl_rel h fun r _ t t' ht => ht.addRecord p rename rfl c.name r
    have hsplit : declarations (.ok (c, rs) :: ds) = rs.map (fun r => (c.name, r)) ++ declarations ds := rfl
    rw [hsplit, List.foldl_append, List.foldl_map]
    exact Same.addDecoded reg ds hone

/-- An index that is filled unit by unit is filled record by record. -/
theorem same_ofDecoded (reg : Registry) (n : Naming σ) (ds : List (Except Failure (ClassFile × List NestedRecord))) :
    Same (ofDecoded p rename reg n ds)
      ((declarations ds).foldl (fun t d => t.addRecord p rename reg d.1 d.2) { naming := n }) :=
  Same.addDecoded p rename reg ds ⟨rfl, rfl⟩

end Intake

/-! ## The index by the settings -/

/-- The index along which the trees of a run grow. -/
def Registry.indexFor {σ : Type} (reg : Registry) (settings : Settings) (p : Policy σ)
    (n : Naming σ) : NestingIndex :=
  if settings.nested then (reg.normalize p settings.rename n).index else {}

section
variable {σ : Type} (reg : Registry) (settings : Settings) (p : Policy σ) (n : Naming σ)

theorem decodeFor_true (u : ClassUnit) : u.decodeFor true = u.decode := by cases u <;> rfl

theorem Intake.index_of_errors {rename : Bool} {ds : List (Except Failure (ClassFile × List NestedRecord))}
    (h : ∀ d ∈ ds, ∃ failure, d = .error failure) (s : Intake σ) :
    (ds.foldl (addDecoded p rename reg) s).index = s.index := by
  induction ds generalizing s with
  | nil => rfl
  | cons d ds ih =>
    obtain ⟨failure, rfl⟩ := h d (by simp)
    rw [List.foldl_cons, ih fun d hd => h d (by simp [hd])]
    rfl

/-- Without nested classes only corrupted units are looked at, and they bring no record. -/
theorem decodeFor_false {u : ClassUnit} {d : Except Failure (ClassFile × List NestedRecord)}
    (h : u.decodeFor false = some d) : ∃ failure, d = .error failure := by
  cases u with
  | loaded c => cases h
  | corrupted name reason => cases h; exact ⟨_, rfl⟩

theorem index_ofDecoded_decodeFor :
    (Intake.ofDecoded p settings.rename reg n (reg.units.filterMap (·.decodeFor settings.nested))).index =
      reg.indexFor settings p n := by
  unfold Registry.indexFor
  cases settings.nested with
  | true => simp only [decodeFor_true, ite_true]; rfl
  | false =>
    refine Intake.index_of_errors reg p ?_ _
    intro d hd
    obtain ⟨u, _, hu⟩ := List.mem_filterMap.mp hd
    exact decodeFor_false hu

theorem sound_indexFor : (reg.indexFor settings p n).Sound := by
  rw [← index_ofDecoded_decodeFor]
  exact Intake.sound_ofDecoded p settings.rename reg n _

end
end ClassNest
