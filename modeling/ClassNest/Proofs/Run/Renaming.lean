import ClassNest.Proofs.Likeness
import ClassNest.Proofs.Run.Outcome
import ClassNest.Renaming.Convention

/-!
# Renaming touches simple names only

A run with renaming and one without, side by side. A renamed record may agree with the record that is known
where the plain one did not, or the other way round; but agreement only decides about a warning, and the first
record of a class stays in any case. So the two indices are the same to someone who sees only whether a
member or a local class has a simple name (`NestingIndex.seen`), the grounds are alike to him, and so are the
trees. An anonymous class has no simple name, and none is asked for.
-/
namespace ClassNest

/-- Of the simple name of a member or a local class one sees only whether there is one. -/
def blurredView : NameView := fun kind name =>
  match kind with
  | .member | .local => name.map fun _ => ""
  | .root | .anonymous | .lambda => name

@[simp] theorem isSome_blurredView (kind : NodeKind) (name : Option String) :
    (blurredView kind name).isSome = name.isSome := by
  cases kind <;> simp [blurredView]

theorem blurredView_of_ne {kind : NodeKind} (hm : kind ≠ .member) (hl : kind ≠ .local) (name : Option String) :
    blurredView kind name = name := by
  cases kind <;> first | rfl | contradiction

/-! ## Records and the index as they are seen -/

/-- The record with its simple name as it is read. -/
def NestedRecord.seen (v : NameView) (r : NestedRecord) : NestedRecord :=
  { r with simpleName := v (.ofNested r.kind) r.simpleName }

namespace NestingIndex
variable {v : NameView} {ix ix' : NestingIndex}

/-- The index with all simple names as they are read. -/
def seen (v : NameView) (ix : NestingIndex) : NestingIndex := { ix with records := ix.records.map (·.seen v) }

theorem record?_seen (v : NameView) (ix : NestingIndex) (name : String) :
    (ix.seen v).record? name = (ix.record? name).map (·.seen v) := by
  unfold record? seen
  rw [List.find?_map]
  rfl

/-- What becomes of the first records does not depend on how simple names are read. -/
theorem seen_merge (ix : NestingIndex) (r : NestedRecord) :
    (ix.merge r).1.seen v = ((ix.seen v).merge (r.seen v)).1 := by
  have hinner : (r.seen v).inner = r.inner := rfl
  unfold merge
  rw [hinner, record?_seen]
  cases ix.record? r.inner with
  | none =>
    simp only [Option.map_none, seen, List.map_append, List.map_cons, List.map_nil]
  | some first => rfl

end NestingIndex

/-! ## Renamed records -/

/-- An anonymous class has no simple name. -/
def NestedRecord.WellNamed (r : NestedRecord) : Prop := r.kind = .anonymous → r.simpleName = none

theorem NestedRecord.WellNamed.seen_rename {σ : Type} {r : NestedRecord} (h : r.WellNamed) (p : Policy σ)
    (enabled : Bool) (n : Naming σ) : (r.rename p enabled n).1.seen blurredView = r.seen blurredView := by
  unfold NestedRecord.rename NestedRecord.seen
  cases hs : r.simpleName with
  | none => simp [hs]
  | some name =>
    cases hk : r.kind with
    | member => rfl
    | «local» => rfl
    | anonymous =>
      rw [h hk] at hs
      cases hs

theorem NestedKind.classify_eq_anonymous {hasOuter hasSimpleName : Bool}
    (h : classify hasOuter hasSimpleName = .anonymous) : hasSimpleName = false := by
  cases hasOuter <;> cases hasSimpleName <;> first | rfl | cases h

theorem InnerEntry.wellNamed_decode {pool : Pool} {self : String} {e : InnerEntry} {r : NestedRecord}
    (h : e.decode pool self = .ok r) : r.WellNamed := by
  unfold decode at h
  cases hi : pool.className e.inner with
  | error fault => rw [hi] at h; cases h
  | ok inner =>
    cases ho : Pool.resolve? pool.className e.outer with
    | error fault => rw [hi, ho] at h; cases h
    | ok outer =>
      cases hs : Pool.resolve? pool.utf8 e.name with
      | error fault => rw [hi, ho, hs] at h; cases h
      | ok simple =>
        rw [hi, ho, hs] at h
        cases h
        intro hk
        simpa using NestedKind.classify_eq_anonymous hk

theorem ClassFile.wellNamed_decodeFrom {c : ClassFile} : ∀ {es : List InnerEntry} {position : Nat}
    {rs : List NestedRecord}, c.decodeFrom position es = .ok rs → ∀ r ∈ rs, r.WellNamed
  | [], _, rs, h => by cases h; simp
  | e :: es, position, rs, h => by
    rw [decodeFrom] at h
    cases he : e.decode c.pool c.name with
    | error fault => rw [he] at h; cases h
    | ok record =>
      rw [he] at h
      cases hes : c.decodeFrom (position + 1) es with
      | error fault => rw [hes] at h; cases h
      | ok records =>
        rw [hes] at h
        have hrest := wellNamed_decodeFrom hes
        have hrs : (if record.isSelfReference then records else record :: records) = rs := by injection h
        subst hrs
        split
        · exact hrest
        · exact List.forall_mem_cons.mpr ⟨InnerEntry.wellNamed_decode he, hrest⟩

/-- The records that a unit brings to the index. -/
theorem ClassUnit.wellNamed_decodeFor {nested : Bool} {u : ClassUnit} {c : ClassFile} {rs : List NestedRecord}
    (h : u.decodeFor nested = some (.ok (c, rs))) : ∀ r ∈ rs, r.WellNamed := by
  cases u with
  | corrupted name reason => cases h
  | loaded d =>
    cases nested with
    | false => cases h
    | true =>
      simp only [decodeFor, decode, ite_true] at h
      split at h
      · split at h
        · rename_i records hrecords
          cases h
          exact ClassFile.wellNamed_decodeFrom hrecords
        · cases h
      · cases h

theorem wellNamed_declarations (reg : Registry) (nested : Bool) :
    ∀ d ∈ declarations (reg.units.filterMap (·.decodeFor nested)), d.2.WellNamed := by
  intro d hd
  obtain ⟨⟨c, rs⟩, hrs, hd⟩ := List.mem_flatMap.mp hd
  obtain ⟨r, hr, rfl⟩ := List.mem_map.mp hd
  obtain ⟨decoded, hu, hok⟩ := List.mem_filterMap.mp hrs
  obtain ⟨u, _, hu⟩ := List.mem_filterMap.mp hu
  cases decoded with
  | error failure => cases hok
  | ok d =>
    cases hok
    exact ClassUnit.wellNamed_decodeFor hu r hr

/-! ## Both indices -/

namespace Intake
variable {σ : Type} (p : Policy σ) (reg : Registry)

theorem seen_addRecord (owner : String) {r : NestedRecord} (hr : r.WellNamed) (rename rename' : Bool)
    {s s' : Intake σ} (h : s.index.seen blurredView = s'.index.seen blurredView) :
    (s.addRecord p rename reg owner r).index.seen blurredView =
      (s'.addRecord p rename' reg owner r).index.seen blurredView := by
  have hmerge : (s.index.merge (r.rename p rename s.naming).1).1.seen blurredView =
      (s'.index.merge (r.rename p rename' s'.naming).1).1.seen blurredView := by
    rw [NestingIndex.seen_merge, NestingIndex.seen_merge, hr.seen_rename, hr.seen_rename, h]
  unfold addRecord
  split
  · exact congrArg (fun ix : NestingIndex => (ix.addEdge r.enclosing r.inner).addDeclared owner r.inner) hmerge
  · exact h

end Intake

/-- Whatever is renamed, the index looks the same. -/
theorem Registry.seen_indexFor {σ : Type} (reg : Registry) {settings settings' : Settings}
    (hn : settings.nested = settings'.nested) (p : Policy σ) (n n' : Naming σ) :
    (reg.indexFor settings p n).seen blurredView = (reg.indexFor settings' p n').seen blurredView := by
  rw [← index_ofDecoded_decodeFor, ← index_ofDecoded_decodeFor, hn, (Intake.same_ofDecoded p _ reg n _).index,
    (Intake.same_ofDecoded p _ reg n' _).index]
  refine List.foldl_rel (r := fun s s' : Intake σ => s.index.seen blurredView = s'.index.seen blurredView) rfl ?_
  intro d hd s s' h
  exact Intake.seen_addRecord p reg d.1 (wellNamed_declarations reg settings'.nested d hd) settings.rename
    settings'.rename h

/-! ## Both grounds -/

namespace NestingIndex
variable {v : NameView} {ix ix' : NestingIndex}

theorem records_eq_of_seen (h : ix.seen v = ix'.seen v) : ix.records.map (·.inner) = ix'.records.map (·.inner) := by
  have hinner : ∀ ix : NestingIndex, ix.records.map (·.inner) = (ix.seen v).records.map (·.inner) := by
    intro ix
    unfold seen
    rw [List.map_map]
    rfl
  rw [hinner, h, ← hinner]

theorem edges_eq_of_seen (h : ix.seen v = ix'.seen v) : ix.edges = ix'.edges := by
  injection h

theorem childrenOf_eq_of_seen (h : ix.seen v = ix'.seen v) (name : String) :
    ix.childrenOf name = ix'.childrenOf name := by
  injection h with _ hedges hdeclared
  unfold childrenOf nestedOf declaredBy
  rw [hedges, hdeclared]

end NestingIndex

namespace Ground
variable {v : NameView} {g g' : Ground}

theorem seen_materialize (g : Ground) (r : NestedRecord) (c : ClassFile) :
    (g.materialize r c).seen v = g.materialize (r.seen v) c := by
  unfold materialize NestedRecord.seen
  cases r.kind <;> rfl

theorem materialize_congr (hindex : g.index.seen v = g'.index.seen v) : g.materialize = g'.materialize := by
  funext r c
  unfold materialize NestingIndex.enclosingOf
  rw [NestingIndex.edges_eq_of_seen hindex]

theorem seen_nodeOf? (hindex : g.index.seen v = g'.index.seen v) (hregistry : g.registry = g'.registry)
    (hskip : g.skipped = g'.skipped) (name : String) :
    (g.nodeOf? name).map (·.seen v) = (g'.nodeOf? name).map (·.seen v) := by
  have hrecord : (g.index.record? name).map (·.seen v) = (g'.index.record? name).map (·.seen v) := by
    rw [← NestingIndex.record?_seen, hindex, NestingIndex.record?_seen]
  unfold nodeOf?
  rw [hregistry, hskip]
  split
  · rfl
  · cases hr : g.index.record? name with
    | none =>
      rw [hr, Option.map_none, eq_comm, Option.map_eq_none_iff] at hrecord
      rw [hrecord]
    | some r =>
      rw [hr, Option.map_some, eq_comm, Option.map_eq_some_iff] at hrecord
      obtain ⟨r', hr', hsame⟩ := hrecord
      rw [hr']
      cases g'.registry.own? name with
      | none => rfl
      | some c =>
        show some ((g.materialize r c).seen v) = some ((g'.materialize r' c).seen v)
        rw [seen_materialize, seen_materialize, hsame, materialize_congr hindex]

theorem alike_of_seen (hindex : g.index.seen v = g'.index.seen v) (hregistry : g.registry = g'.registry)
    (hnested : g.nested = g'.nested) (hskip : g.skipped = g'.skipped) : g.Alike v g' := by
  have hrecords := NestingIndex.records_eq_of_seen hindex
  refine ⟨hnested, ?_, NestingIndex.childrenOf_eq_of_seen hindex, hrecords, seen_nodeOf? hindex hregistry hskip,
    fun name _ => by rw [hregistry]⟩
  have hisNested : g.index.isNested = g'.index.isNested := by
    funext name
    rw [Bool.eq_iff_iff, NestingIndex.isNested_iff, NestingIndex.isNested_iff, hrecords]
  unfold rootClasses
  rw [hregistry, hnested, hskip, hisNested]

end Ground

section
variable {σ : Type} (reg : Registry) {settings settings' : Settings} (p : Policy σ) (n n' : Naming σ)

/-- Nothing that fails before the trees has to do with simple names. -/
theorem earlyFailures_congr (hn : settings.nested = settings'.nested) :
    reg.earlyFailures settings p n = reg.earlyFailures settings' p n' := by
  rw [earlyFailures_eq, earlyFailures_eq, hn]

theorem skipped_rename (hn : settings.nested = settings'.nested) :
    (reg.ground settings p n).skipped = (reg.ground settings' p n').skipped := by
  show (reg.earlyFailures settings p n).map (·.unit) = (reg.earlyFailures settings' p n').map (·.unit)
  rw [earlyFailures_congr reg p n n' hn]

theorem Registry.alike_rename (hn : settings.nested = settings'.nested) :
    (reg.ground settings p n).Alike blurredView (reg.ground settings' p n') :=
  Ground.alike_of_seen (reg.seen_indexFor hn p n n') rfl hn (skipped_rename reg p n n' hn)

/-- The trees look the same, and the failures are the same. -/
theorem plantForest_rename (h : reg.Distinct) (hn : settings.nested = settings'.nested) (sites : List CallSite) :
    let planted := (reg.ground settings p n).plantForest sites (reg.earlyFailures settings p n)
    let planted' := (reg.ground settings' p n').plantForest sites (reg.earlyFailures settings' p n')
    planted.forest.seen blurredView = planted'.forest.seen blurredView ∧ planted.failures = planted'.failures := by
  intro planted planted'
  obtain ⟨hseen, felled, lost, names, hf, hf'⟩ := (reg.alike_rename p n n' hn).plantForest
    ⟨h, sound_indexFor reg settings p n⟩ ⟨h, sound_indexFor reg settings' p n'⟩ sites
    (reg.earlyFailures settings p n) (reg.earlyFailures settings' p n')
  refine ⟨hseen, hf.trans ?_⟩
  unfold Ground.strayFailure? at *
  rw [hf', earlyFailures_congr reg p n n' hn, skipped_rename reg p n n' hn]

end

/-! ## Outcomes with and without renaming -/

/-- The nodes differ at most in the simple name of a member or a local class, and both have one or neither. -/
structure Node.SameButName (n n' : Node) : Prop where
  rest : { n with simpleName := none } = { n' with simpleName := none }
  named : n.simpleName.isSome = n'.simpleName.isSome
  kept : n.kind ≠ .member → n.kind ≠ .local → n.simpleName = n'.simpleName

/-- The forests differ at most in simple names of members and local classes. -/
structure Forest.SameButNames (f f' : Forest) : Prop where
  nodes : List.Forall₂ Node.SameButName f.nodes f'.nodes
  roots : f.roots = f'.roots
  unattached : f.unattached = f'.unattached
  byName : f.byName = f'.byName

theorem Node.sameButName_of_seen {n n' : Node} (h : n.seen blurredView = n'.seen blurredView) :
    n.SameButName n' := by
  have hrest := congrArg (fun m : Node => { m with simpleName := none }) h
  injection h with hkind _ _ hname
  refine ⟨hrest, ?_, ?_⟩
  · rw [← isSome_blurredView n.kind, hname, isSome_blurredView]
  · intro hm hl
    rwa [← hkind, blurredView_of_ne hm hl, blurredView_of_ne hm hl] at hname

theorem Forest.sameButNames_of_seen {f f' : Forest} (h : f.seen blurredView = f'.seen blurredView) :
    f.SameButNames f' := by
  injection h with hnodes hroots hunattached hbyName
  rw [← List.forall₂_eq_eq_eq, List.forall₂_map_left_iff, List.forall₂_map_right_iff] at hnodes
  exact ⟨hnodes.imp fun _ _ => Node.sameButName_of_seen, hroots, hunattached, hbyName⟩

/-- Renaming, with whatever policy and whatever it has decided before, changes nothing in an outcome but simple
names of members and local classes. Settings that are not valid are refused with it and without it. -/
theorem run_rename {σ : Type} (us : List ClassUnit) (settings : Settings) (p : Policy σ) (n n' : Naming σ)
    (sites : List CallSite) :
    let renamed := (Registry.ofUnits us).run { settings with rename := true } p n sites
    let plain := (Registry.ofUnits us).run { settings with rename := false } p n' sites
    match settings.validate with
    | .error fault => renamed = .error ⟨.settings fault, none⟩ ∧ plain = .error ⟨.settings fault, none⟩
    | .ok () => ∃ o m o' m', renamed = .ok (o, m) ∧ plain = .ok (o', m') ∧
        o.handlers = o'.handlers ∧ o.failures = o'.failures ∧ o.forest.SameButNames o'.forest := by
  intro renamed plain
  cases hv : settings.validate with
  | error fault =>
    have hrefused : ∀ (b : Bool) (n : Naming σ), (Registry.ofUnits us).run { settings with rename := b } p n sites =
        .error ⟨.settings fault, none⟩ := by
      intro b n
      unfold Registry.run
      rw [show Settings.validate { settings with rename := b } = .error fault from hv]
    exact ⟨hrefused true n, hrefused false n'⟩
  | ok _ =>
    obtain ⟨o, m, hrun, hforest, hfail, hhandlers, _⟩ :=
      run_eq (Registry.ofUnits us) { settings with rename := true } p n sites hv
    obtain ⟨o', m', hrun', hforest', hfail', hhandlers', _⟩ :=
      run_eq (Registry.ofUnits us) { settings with rename := false } p n' sites hv
    obtain ⟨hseen, hfailures⟩ := plantForest_rename (Registry.ofUnits us) p n n' (Registry.distinct_ofUnits us)
      (show Settings.nested { settings with rename := true } =
        Settings.nested { settings with rename := false } from rfl) sites
    refine ⟨o, m, o', m', hrun, hrun', hhandlers.trans hhandlers'.symm, ?_, ?_⟩
    · rw [hfail, hfail', hfailures]
    · apply Forest.sameButNames_of_seen
      rw [hforest, hforest', hseen]

/-- A class whose member goes by a reserved word. -/
def reservedUnits : List ClassUnit :=
  [.loaded
    { name := "app/A", own := true
      pool := ⟨[.className "app/A", .className "app/N", .utf8 "do"]⟩
      innerClasses := [⟨2, 1, 3, .empty⟩] },
   .loaded { name := "app/N", own := true }]

-- the simple name of a member does change
example : ([true, false].map fun b =>
    match (Registry.ofUnits reservedUnits).run { rename := b } Convention.policy ⟨{}, {}⟩ [] with
    | .ok (o, _) => o.forest.nodes.map (·.simpleName)
    | .error _ => []) = [[some "A", some "class_0"], [some "A", some "do"]] := by decide +kernel

end ClassNest
