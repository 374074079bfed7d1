import ClassNest.Registry

/-!
# Names in the registry

However units are registered, a name is there once. So a class under reconstruction is the same
thing seen by its name (`own?`) and seen in order (`ownClasses`).
-/
namespace ClassNest

theorem ClassUnit.eq_loaded_of_own? {u : ClassUnit} {c : ClassFile} (h : u.own? = some c) :
    u = .loaded c := by
  cases u with
  | loaded d =>
    simp only [own?, class?, Option.filter_eq_some_iff, Option.some.injEq] at h
    rw [h.1]
  | corrupted name reason => simp [own?, class?] at h

theorem ClassUnit.name_of_own? {u : ClassUnit} {c : ClassFile} (h : u.own? = some c) :
    u.name = c.name := by
  rw [eq_loaded_of_own? h]
  rfl

namespace Registry

/-- Every name is registered once. -/
def Distinct (r : Registry) : Prop := (r.units.map (·.name)).Nodup

theorem map_name_replace (u : ClassUnit) (us : List ClassUnit) :
    (us.map fun v => if v.name == u.name then u else v).map (·.name) = us.map (·.name) := by
  rw [List.map_map]
  apply List.map_congr_left
  intro v _
  by_cases h : v.name = u.name
  · simp [h]
  · simp [h]

theorem Distinct.add {r : Registry} (h : r.Distinct) (u : ClassUnit) : (r.add u).Distinct := by
  unfold Distinct Registry.add
  by_cases hu : r.units.any (·.name == u.name)
  · rw [if_pos hu, map_name_replace]
    exact h
  · rw [if_neg hu, List.map_append, List.nodup_append]
    refine ⟨h, by simp, ?_⟩
    intro a ha b hb hab
    simp only [List.map_cons, List.map_nil, List.mem_singleton] at hb
    obtain ⟨v, hv, rfl⟩ := List.mem_map.mp ha
    exact hu (List.any_eq_true.mpr ⟨v, hv, by simp [hab, hb]⟩)

theorem distinct_ofUnits (us : List ClassUnit) : (ofUnits us).Distinct := by
  have run : ∀ (us : List ClassUnit) (r : Registry), r.Distinct → (us.foldl Registry.add r).Distinct := by
    intro us
    induction us with
    | nil => intro r h; exact h
    | cons u us ih => intro r h; exact ih _ (h.add u)
  exact run us {} List.nodup_nil

/-! ## Classes under reconstruction -/

theorem name_of_own? {r : Registry} {name : String} {c : ClassFile} (h : r.own? name = some c) :
    c.name = name := by
  obtain ⟨u, hu, hc⟩ := Option.bind_eq_some_iff.mp h
  have hn := List.find?_some hu
  rw [beq_iff_eq] at hn
  rw [← ClassUnit.name_of_own? hc, hn]

theorem mem_ownClasses_of_own? {r : Registry} {name : String} {c : ClassFile} (h : r.own? name = some c) :
    c ∈ r.ownClasses := by
  obtain ⟨u, hu, hc⟩ := Option.bind_eq_some_iff.mp h
  exact List.mem_filterMap.mpr ⟨u, List.mem_of_find?_eq_some hu, hc⟩

/-- Where names are distinct the first unit of a name is the only one. -/
theorem find?_name_of_mem : ∀ {us : List ClassUnit} {u : ClassUnit}, (us.map (·.name)).Nodup → u ∈ us →
    us.find? (·.name == u.name) = some u
  | v :: us, u, h, hu => by
    rw [List.map_cons, List.nodup_cons] at h
    rcases List.mem_cons.mp hu with rfl | hu
    · simp
    · have hne : v.name ≠ u.name := fun e => h.1 (e ▸ List.mem_map_of_mem hu)
      rw [List.find?_cons_of_neg (by simpa using hne)]
      exact find?_name_of_mem h.2 hu

theorem own?_name_of_mem {r : Registry} (hr : r.Distinct) {u : ClassUnit} (hu : u ∈ r.units) :
    r.own? u.name = u.own? := by
  have hf : r.unit? u.name = some u := find?_name_of_mem hr hu
  rw [own?, hf]
  rfl

theorem own?_of_mem_ownClasses {r : Registry} (hr : r.Distinct) {c : ClassFile} (h : c ∈ r.ownClasses) :
    r.own? c.name = some c := by
  obtain ⟨u, hu, hc⟩ := List.mem_filterMap.mp h
  rw [← ClassUnit.name_of_own? hc, own?_name_of_mem hr hu, hc]

theorem own?_eq_some_iff {r : Registry} (hr : r.Distinct) {name : String} {c : ClassFile} :
    r.own? name = some c ↔ c ∈ r.ownClasses ∧ c.name = name := by
  constructor
  · intro h; exact ⟨mem_ownClasses_of_own? h, name_of_own? h⟩
  · rintro ⟨h, rfl⟩; exact own?_of_mem_ownClasses hr h

theorem isOwn_of_mem_ownClasses {r : Registry} (hr : r.Distinct) {c : ClassFile} (h : c ∈ r.ownClasses) :
    r.isOwn c.name = true := by
  rw [isOwn, own?_of_mem_ownClasses hr h]
  rfl

/-- A class under reconstruction is the loaded class of its name. -/
theorem class?_of_own? {r : Registry} {name : String} {c : ClassFile} (h : r.own? name = some c) :
    r.class? name = some c := by
  obtain ⟨u, hu, hc⟩ := Option.bind_eq_some_iff.mp h
  rw [class?, hu]
  exact (Option.filter_eq_some_iff.mp hc).1

theorem ownClasses_names_sublist (r : Registry) :
    (r.ownClasses.map (·.name)).Sublist (r.units.map (·.name)) := by
  unfold ownClasses
  induction r.units with
  | nil => simp
  | cons u us ih =>
    cases hc : u.own? with
    | none =>
      rw [List.filterMap_cons_none hc, List.map_cons]
      exact ih.cons _
    | some c =>
      rw [List.filterMap_cons_some hc, List.map_cons, List.map_cons, ← ClassUnit.name_of_own? hc]
      exact ih.cons_cons _

theorem Distinct.ownClasses {r : Registry} (hr : r.Distinct) : (r.ownClasses.map (·.name)).Nodup :=
  hr.sublist r.ownClasses_names_sublist

end Registry
end ClassNest
