import ClassNest.Proofs.Distinct
import ClassNest.Proofs.Registry
import ClassNest.Registry.Positions

/-!
# The last unit of a name counts

A registry is looked at in two ways, in order and by name, and a name may be registered any number of times: as a class
under reconstruction, as a class of a library, as one that could not be loaded. The order is that of the first
registrations, and what stands there is the unit of the last one (`Registry.LastWins`). With a table of positions beside
the units, replacing a unit must find the one place where its name stands (`PlacedRegistry.InStep`); that every name
stands in one place is `Registry.Distinct`.
-/
namespace ClassNest

/-- The unit is a loaded class under reconstruction. -/
def ClassUnit.isOwn : ClassUnit → Bool
  | .loaded c => c.own
  | .corrupted .. => false

theorem ClassUnit.map_loaded_own? (u : ClassUnit) : u.own?.map .loaded = Option.guard (fun v => v.isOwn) u := by
  cases u with
  | loaded c =>
    have hown : (loaded c).own? = if c.own then some c else none := rfl
    rw [hown, Option.guard, isOwn]
    cases c.own <;> rfl
  | corrupted name reason => rfl

namespace Registry

/-! ## One more unit -/

theorem map_name_add (r : Registry) (u : ClassUnit) :
    (r.add u).units.map (·.name) = pushNew (r.units.map (·.name)) u.name := by
  unfold add
  split
  · rename_i hold
    have hmem : u.name ∈ r.units.map (·.name) := by simpa using hold
    rw [pushNew_of_mem hmem, map_name_replace]
  · rename_i hnew
    have hmem : u.name ∉ r.units.map (·.name) := by simpa using hnew
    rw [pushNew_of_not_mem hmem, List.map_append, List.map_singleton]

/-- A look-up among units of which those with the name of `u` were replaced by `u`. -/
theorem find?_name_replace (u : ClassUnit) (name : String) : ∀ us : List ClassUnit,
    (us.map fun v => if v.name == u.name then u else v).find? (·.name == name) =
      if u.name = name then (us.find? (·.name == name)).map fun _ => u else us.find? (·.name == name)
  | [] => by simp
  | v :: us => by
    have ih := find?_name_replace u name us
    by_cases hv : v.name = u.name
    · by_cases hu : u.name = name
      · simp [hv, hu]
      · have hvn : v.name ≠ name := fun h => hu (hv ▸ h)
        rw [if_neg hu] at ih
        simpa [hv, hu, hvn] using ih
    · by_cases hvn : v.name = name
      · have hu : u.name ≠ name := fun h => hv (hvn.trans h.symm)
        simp [hvn, hu, Ne.symm hu]
      · simpa [hv, hvn] using ih

theorem unit?_add (r : Registry) (u : ClassUnit) (name : String) :
    (r.add u).unit? name = if u.name = name then some u else r.unit? name := by
  unfold add unit?
  split
  · rename_i hold
    rw [find?_name_replace]
    split
    · rename_i hu
      obtain ⟨v, hv, hvu⟩ := List.any_eq_true.mp hold
      have hsome : (r.units.find? (·.name == name)).isSome = true :=
        List.find?_isSome.mpr ⟨v, hv, hu ▸ hvu⟩
      obtain ⟨w, hw⟩ := Option.isSome_iff_exists.mp hsome
      rw [hw, Option.map_some]
    · rfl
  · rename_i hnew
    rw [List.find?_append]
    by_cases hu : u.name = name
    · have hnone : r.units.find? (·.name == name) = none :=
        List.find?_eq_none.mpr fun v hv hvn => hnew (List.any_eq_true.mpr ⟨v, hv, hu ▸ hvn⟩)
      simp [hnone, hu]
    · simp [hu]

/-! ## All units -/

/-- The registry holds the last unit of each name that was registered, in the order in which the names first came up, and
shows it in order and by name alike. -/
structure LastWins (r : Registry) (us : List ClassUnit) : Prop where
  names : r.units.map (·.name) = (us.map (·.name)).eraseDups
  latest : ∀ name, r.unit? name = us.reverse.find? (·.name == name)
  listed : ∀ {u : ClassUnit}, u ∈ r.units ↔ r.unit? u.name = some u
  loaded : ∀ {name : String} {c : ClassFile}, r.class? name = some c ↔ r.unit? name = some (.loaded c)
  own : ∀ {name : String} {c : ClassFile}, r.own? name = some c ↔ r.class? name = some c ∧ c.own = true
  /-- the classes under reconstruction are the units of that kind, in the order of the units -/
  own_units : r.ownClasses.map .loaded = r.units.filter (·.isOwn)
  own_listed : ∀ {c : ClassFile}, c ∈ r.ownClasses ↔ r.own? c.name = some c
  own_named : ∀ {name : String}, (∃ c ∈ r.ownClasses, c.name = name) ↔ r.isOwn name = true

theorem ofUnits_concat (us : List ClassUnit) (u : ClassUnit) : ofUnits (us ++ [u]) = (ofUnits us).add u := by
  rw [ofUnits, List.foldl_append]
  rfl

theorem map_name_ofUnits (us : List ClassUnit) :
    (ofUnits us).units.map (·.name) = (us.map (·.name)).eraseDups := by
  induction us using List.reverseRecOn with
  | nil => rfl
  | append_singleton us u ih =>
    rw [ofUnits_concat, map_name_add, ih, List.map_append, List.map_singleton, eraseDups_concat]

theorem unit?_ofUnits (us : List ClassUnit) (name : String) :
    (ofUnits us).unit? name = us.reverse.find? (·.name == name) := by
  induction us using List.reverseRecOn with
  | nil => rfl
  | append_singleton us u ih =>
    rw [ofUnits_concat, unit?_add, ih, List.reverse_concat]
    by_cases hu : u.name = name
    · rw [if_pos hu, List.find?_cons_of_pos (by simpa using hu)]
    · rw [if_neg hu, List.find?_cons_of_neg (by simpa using hu)]

section
variable {r : Registry} {name : String} {c : ClassFile}

theorem class?_eq_some_iff : r.class? name = some c ↔ r.unit? name = some (.loaded c) := by
  unfold class?
  rw [Option.bind_eq_some_iff]
  constructor
  · rintro ⟨u, hu, hc⟩
    cases u with
    | loaded d => cases hc; exact hu
    | corrupted => cases hc
  · intro hu
    exact ⟨.loaded c, hu, rfl⟩

theorem own?_eq_filter (r : Registry) (name : String) : r.own? name = (r.class? name).filter (·.own) := by
  unfold own? class?
  cases r.unit? name <;> rfl

theorem map_loaded_ownClasses (r : Registry) : r.ownClasses.map .loaded = r.units.filter (·.isOwn) := by
  rw [ownClasses, List.map_filterMap, ← List.filterMap_eq_filter]
  exact List.filterMap_congr fun u _ => u.map_loaded_own?

end

theorem lastWins_ofUnits (us : List ClassUnit) : (ofUnits us).LastWins us := by
  have hd := distinct_ofUnits us
  exact {
    names := map_name_ofUnits us
    latest := unit?_ofUnits us
    listed := ⟨fun hu => find?_name_of_mem hd hu, fun hu => List.mem_of_find?_eq_some hu⟩
    loaded := class?_eq_some_iff
    own := by intro name c; rw [own?_eq_filter, Option.filter_eq_some_iff]
    own_units := map_loaded_ownClasses _
    own_listed := ⟨fun hc => own?_of_mem_ownClasses hd hc, mem_ownClasses_of_own?⟩
    own_named := by
      intro name
      rw [isOwn, Option.isSome_iff_exists]
      exact exists_congr fun c => (own?_eq_some_iff hd).symm }

end Registry

/-! ## Positions -/

namespace PlacedRegistry

/-- The same units, and for each name the place where it stands among them. -/
structure InStep (p : PlacedRegistry) (r : Registry) : Prop where
  units : p.units = r.units
  positions : ∀ name, p.positions.lookup name = (r.units.map (·.name)).findIdx? (· == name)

theorem inStep_empty : InStep {} {} := ⟨rfl, fun _ => rfl⟩

/-- Where names are distinct, replacing the unit at the place of its name is replacing the unit of that name. -/
theorem set_eq_map {u : ClassUnit} : ∀ {us : List ClassUnit} {position : Nat}, (us.map (·.name)).Nodup →
    (us.map (·.name)).findIdx? (· == u.name) = some position →
    us.set position u = us.map fun v => if v.name == u.name then u else v
  | v :: us, position, hd, hp => by
    rw [List.map_cons, List.nodup_cons] at hd
    rw [List.map_cons, List.findIdx?_cons] at hp
    rw [List.map_cons]
    by_cases hv : v.name = u.name
    · rw [if_pos (by simpa using hv)] at hp
      cases hp
      have hrest : (us.map fun w => if w.name == u.name then u else w) = us := by
        refine (List.map_congr_left fun w hw => ?_).trans (List.map_id us)
        have hne : w.name ≠ u.name := fun h => hd.1 (hv.trans h.symm ▸ List.mem_map_of_mem hw)
        rw [if_neg (by simpa using hne)]
        rfl
      rw [if_pos (by simpa using hv), hrest, List.set_cons_zero]
    · rw [if_neg (by simpa using hv)] at hp
      obtain ⟨next, hnext, rfl⟩ := Option.map_eq_some_iff.mp hp
      rw [if_neg (by simpa using hv), List.set_cons_succ, set_eq_map hd.2 hnext]

section
variable {p : PlacedRegistry} {r : Registry}

theorem InStep.add (h : p.InStep r) (hd : r.Distinct) (u : ClassUnit) : (p.add u).InStep (r.add u) := by
  cases hpos : (r.units.map (·.name)).findIdx? (· == u.name) with
  | some position =>
    have hmem : u.name ∈ r.units.map (·.name) := by
      obtain ⟨hlt, hfound, _⟩ := List.findIdx?_eq_some_iff_getElem.mp hpos
      exact beq_iff_eq.mp hfound ▸ List.getElem_mem hlt
    have hp : p.add u = { p with units := p.units.set position u } := by
      simp only [PlacedRegistry.add, h.positions, hpos]
    have hr : (r.add u).units = r.units.map fun v => if v.name == u.name then u else v := by
      rw [Registry.add, if_pos (by simpa using hmem)]
    refine ⟨?_, fun name => ?_⟩
    · rw [hp, hr, h.units]
      exact set_eq_map hd hpos
    · rw [hp, Registry.map_name_add, pushNew_of_mem hmem]
      exact h.positions name
  | none =>
    have hnew : u.name ∉ r.units.map (·.name) := fun hmem => by
      simpa using List.findIdx?_eq_none_iff.mp hpos _ hmem
    have hp : p.add u = { units := p.units ++ [u], positions := (u.name, p.units.length) :: p.positions } := by
      simp only [PlacedRegistry.add, h.positions, hpos]
    have hr : (r.add u).units = r.units ++ [u] := by
      rw [Registry.add, if_neg (by simpa using hnew)]
    refine ⟨?_, fun name => ?_⟩
    · rw [hp, hr, h.units]
    · rw [hp, Registry.map_name_add, pushNew_of_not_mem hnew, List.findIdx?_append, List.lookup_cons, h.units]
      by_cases hname : name = u.name
      · simp [hname, hpos]
      · rw [beq_false_of_ne hname, h.positions, List.findIdx?_singleton, if_neg (by simpa using Ne.symm hname)]
        simp

theorem inStep_ofUnits (us : List ClassUnit) : (ofUnits us).InStep (Registry.ofUnits us) := by
  induction us using List.reverseRecOn with
  | nil => exact inStep_empty
  | append_singleton us u ih =>
    have hplaced : ofUnits (us ++ [u]) = (ofUnits us).add u := by rw [ofUnits, List.foldl_append]; rfl
    rw [hplaced, Registry.ofUnits_concat]
    exact ih.add (Registry.distinct_ofUnits us) u

theorem InStep.unit?_eq (h : p.InStep r) (name : String) : p.unit? name = r.unit? name := by
  rw [unit?, h.positions, h.units, List.findIdx?_map, Registry.unit?, List.find?_eq_bind_findIdx?_getElem?]
  rfl

/-- A position in the table is one in the row, and the unit there has the name. -/
theorem InStep.getElem?_position (h : p.InStep r) {name : String} {position : Nat}
    (hp : p.positions.lookup name = some position) : ∃ u, p.units[position]? = some u ∧ u.name = name := by
  rw [h.positions, List.findIdx?_map] at hp
  obtain ⟨hlt, hname, _⟩ := List.findIdx?_eq_some_iff_getElem.mp hp
  refine ⟨r.units[position], ?_, by simpa using hname⟩
  rw [h.units, List.getElem?_eq_getElem hlt]

end
end PlacedRegistry

/-- However classes are registered, and registered again, loaded or not: the registry holds the last unit of each name in
the order in which the names first came up. Beside a table of positions it is the same registry, and the table leads to
the units. -/
theorem ofUnits_lastWins (us : List ClassUnit) :
    (Registry.ofUnits us).LastWins us ∧
    (PlacedRegistry.ofUnits us).units = (Registry.ofUnits us).units ∧
    (∀ name, (PlacedRegistry.ofUnits us).unit? name = (Registry.ofUnits us).unit? name) ∧
    ∀ name position, (PlacedRegistry.ofUnits us).positions.lookup name = some position →
      ∃ u, (PlacedRegistry.ofUnits us).units[position]? = some u ∧ u.name = name := by
  have h := PlacedRegistry.inStep_ofUnits us
  exact ⟨Registry.lastWins_ofUnits us, h.units, h.unit?_eq, fun _ _ => h.getElem?_position⟩

-- `app/A` turns from an own class into one of a library, and `app/C` from a corrupted unit into an own class
example :
    let us : List ClassUnit := [.loaded { name := "app/A", own := true }, .corrupted "app/C" "bad magic",
      .loaded { name := "app/A", own := false }, .loaded { name := "app/C", own := true }]
    (Registry.ofUnits us).units.map (·.name) = ["app/A", "app/C"] ∧
      (Registry.ofUnits us).ownClasses.map (·.name) = ["app/C"] ∧
      (PlacedRegistry.ofUnits us).positions = [("app/C", 1), ("app/A", 0)] := by
  decide +kernel

end ClassNest
