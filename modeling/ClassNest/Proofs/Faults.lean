import ClassNest.Proofs.Planting

/-!
# Where failures come from

Each pass of a run collects its failures on the way. Here they are said in closed form: as a list of
the units, classes or call sites that were looked at, filtered by what is wrong with each of them.
None of it depends on the renaming, or on what is known of other classes. The trees come in only where
the arena is full: besides a bad call site that is all that can keep lambdas from being attached
(`Forest.errorOf_attachGroups`).
-/
namespace ClassNest

/-- What went wrong, if something did. -/
def errorOf {ε α : Type} : Except ε α → Option ε
  | .error e => some e
  | .ok _ => none

@[simp] theorem errorOf_error {ε α : Type} (e : ε) : errorOf (.error e : Except ε α) = some e := rfl

@[simp] theorem errorOf_ok {ε α : Type} (a : α) : errorOf (.ok a : Except ε α) = none := rfl

@[simp] theorem errorOf_map {ε α β : Type} (f : α → β) (x : Except ε α) : errorOf (x.map f) = errorOf x := by
  cases x <;> rfl

theorem errorOf_eq_some_iff {ε α : Type} {x : Except ε α} {e : ε} : errorOf x = some e ↔ x = .error e := by
  cases x <;> simp

theorem errorOf_eq_none_iff {ε α : Type} {x : Except ε α} : errorOf x = none ↔ x.isOk = true := by
  cases x <;> simp [Except.isOk, Except.toBool]

theorem contains_map_unit (failures : List Failure) (name : String) :
    (failures.map (·.unit)).contains name = failures.any (·.unit == name) := by
  rw [List.contains_eq_any_beq, List.any_map]
  simp only [Function.comp_def, Bool.beq_comm]

/-! ## Units -/

theorem Intake.failures_addRecord {σ : Type} (p : Policy σ) (rename : Bool) (reg : Registry) (owner : String)
    (s : Intake σ) (r : NestedRecord) : (s.addRecord p rename reg owner r).failures = s.failures := by
  unfold addRecord
  split <;> rfl

theorem Intake.failures_addDecoded {σ : Type} (p : Policy σ) (rename : Bool) (reg : Registry)
    (s : Intake σ) (d : Except Failure (ClassFile × List NestedRecord)) :
    (s.addDecoded p rename reg d).failures = s.failures ++ (errorOf d).toList := by
  match d with
  | .error failure => rfl
  | .ok (c, records) =>
    simp only [addDecoded, errorOf_ok, Option.toList_none, List.append_nil]
    induction records generalizing s with
    | nil => rfl
    | cons r records ih => rw [List.foldl_cons, ih, failures_addRecord]

theorem Intake.failures_ofDecoded {σ : Type} (p : Policy σ) (rename : Bool) (reg : Registry) (n : Naming σ)
    (ds : List (Except Failure (ClassFile × List NestedRecord))) :
    (ofDecoded p rename reg n ds).failures = ds.filterMap errorOf := by
  have run : ∀ (ds : List (Except Failure (ClassFile × List NestedRecord))) (s : Intake σ),
      (ds.foldl (addDecoded p rename reg) s).failures = s.failures ++ ds.filterMap errorOf := by
    intro ds
    induction ds with
    | nil => intro s; simp
    | cons d ds ih =>
      intro s
      rw [List.foldl_cons, ih, failures_addDecoded, List.append_assoc]
      cases hd : errorOf d <;> simp [hd]
  rw [ofDecoded, run]
  rfl

/-- What is wrong with a unit that cannot be read. -/
def ClassUnit.failure? (nested : Bool) (u : ClassUnit) : Option Failure := (u.decodeFor nested).bind errorOf

theorem ClassUnit.unit_of_failure? {nested : Bool} {u : ClassUnit} {f : Failure}
    (h : u.failure? nested = some f) : f.unit = u.name := by
  unfold failure? at h
  cases u with
  | corrupted name reason => cases h; rfl
  | loaded c =>
    cases nested with
    | false => cases h
    | true =>
      simp only [decodeFor, decode, ite_true] at h
      split at h
      · split at h
        · cases h
        · cases h; rfl
      · cases h

/-- The failures of the units that cannot be read, in the order of registration. -/
def Registry.unitFailures (reg : Registry) (nested : Bool) : List Failure :=
  reg.units.filterMap (·.failure? nested)

theorem Intake.failures_eq {σ : Type} (p : Policy σ) (rename nested : Bool) (reg : Registry) (n : Naming σ) :
    (ofDecoded p rename reg n (reg.units.filterMap (·.decodeFor nested))).failures = reg.unitFailures nested := by
  rw [failures_ofDecoded, List.filterMap_filterMap]
  rfl

/-! ## Exception tables -/

/-- What is wrong with the exception tables of a class. -/
def ClassFile.handlerFailure? (c : ClassFile) : Option Failure :=
  (errorOf c.handlerIndex).map fun fault => ⟨c.name, fault⟩

theorem decodeHandlers_eq (cs : List ClassFile) :
    decodeHandlers cs = (cs.filterMap fun c => c.handlerIndex.toOption, cs.filterMap (·.handlerFailure?)) := by
  induction cs with
  | nil => rfl
  | cons c cs ih =>
    rw [decodeHandlers, ih]
    cases h : c.handlerIndex with
    | ok ix => simp [ClassFile.handlerFailure?, h, Except.toOption]
    | error fault => simp [ClassFile.handlerFailure?, h, Except.toOption]

/-! ## Call sites -/

/-- What is wrong with a call site. -/
def CallSite.fault? (s : CallSite) : Option Fault :=
  (errorOf (InvocationKind.ofCode s.invocationKind)).map (·.inUnit s.declaringClass)

/-- The first thing that is wrong with the call sites of a class. -/
def siteFault? (sites : List CallSite) (name : String) : Option Fault :=
  (sitesOf sites name).findSome? (·.fault?)

theorem CallSite.errorOf_describe (reg : Registry) (s : CallSite) :
    errorOf (s.describe reg).1 = s.fault? := by
  unfold describe fault?
  cases InvocationKind.ofCode s.invocationKind with
  | error fault => rfl
  | ok kind =>
    simp only
    split
    · rfl
    · split <;> rfl

theorem errorOf_describeAll (reg : Registry) (ss : List CallSite) :
    errorOf (describeAll reg ss).1 = ss.findSome? (·.fault?) := by
  induction ss with
  | nil => rfl
  | cons s ss ih =>
    have hone := s.errorOf_describe reg
    rw [describeAll, List.findSome?_cons]
    split
    · rename_i fault log hs
      rw [hs, errorOf_error] at hone
      rw [← hone]
      rfl
    · rename_i info log hs
      rw [hs, errorOf_ok] at hone
      rw [← hone]
      simp only [errorOf_map, ih]

namespace Forest
variable {f : Forest} {reg : Registry}

/-- The names lead to nodes of the arena. -/
def LeadsInside (f : Forest) : Prop := ∀ {name : String} {p : NodeId}, f.find? name = some p → p < f.size

theorem Named.leadsInside (h : f.Named) : f.LeadsInside := fun hp => lt_size_of_className? (h.find?_iff.mp hp)

theorem LeadsInside.graft_lambda (h : f.LeadsInside) (p : NodeId) (info : LambdaInfo) :
    (f.graft p (.ofLambda info)).LeadsInside := by
  intro name q hq
  rw [size_graft]
  exact Nat.lt_succ_of_lt (h hq)

/-- Below a class that has a node, only a full arena keeps a lambda from being attached. -/
theorem LeadsInside.addLambda (h : f.LeadsInside) (info : LambdaInfo) :
    (f.addLambda info).state.LeadsInside ∧ ∀ fault, (f.addLambda info).answer = .error fault → fault = full := by
  cases hp : f.find? info.declaringClass with
  | none =>
    obtain ⟨log, he⟩ := addLambda_of_none hp
    rw [he]
    exact ⟨h, fun _ e => (by cases e)⟩
  | some p =>
    rw [addLambda_of_some hp]
    rcases perform_attach_cases (h hp) (.ofLambda info) with ⟨_, he⟩ | ⟨_, he⟩
    · rw [he]
      exact ⟨h.graft_lambda p info, fun _ e => (by cases e)⟩
    · rw [he]
      exact ⟨h, fun _ e => (Except.error.inj e).symm⟩

theorem LeadsInside.addLambdas : ∀ (infos : List LambdaInfo) {f : Forest}, f.LeadsInside →
    (f.addLambdas infos).state.LeadsInside ∧ ∀ fault, (f.addLambdas infos).answer = .error fault → fault = full
  | [], _, h => ⟨h, fun _ e => (by cases e)⟩
  | info :: infos, f, h => by
    obtain ⟨hone, hfull⟩ := h.addLambda info
    obtain ⟨hrest, hfulls⟩ := LeadsInside.addLambdas infos hone
    rw [Forest.addLambdas]
    rcases Step.andThen_cases (f.addLambda info) fun f id => (f.addLambdas infos).map (id.toList ++ ·) with
      ⟨fault, ha, he⟩ | ⟨id, _, he⟩
    · rw [he]
      exact ⟨hone, fun _ e => Except.error.inj e ▸ hfull fault ha⟩
    · rw [he]
      exact ⟨hrest, fun fault e => hfulls fault (Step.of_map_error e)⟩

/-- The call sites of a class fail with the first bad one, or else because the arena gets full. -/
theorem LeadsInside.attachAll (h : f.LeadsInside) (reg : Registry) (ss : List CallSite) :
    (f.attachAll reg ss).state.LeadsInside ∧
      (errorOf (f.attachAll reg ss).answer = ss.findSome? (·.fault?) ∨
        errorOf (f.attachAll reg ss).answer = some full) := by
  rw [← errorOf_describeAll reg]
  cases hd : (describeAll reg ss).1 with
  | error fault =>
    rw [attachAll_of_error hd]
    exact ⟨h, .inl rfl⟩
  | ok infos =>
    obtain ⟨hleads, hfull⟩ := h.addLambdas infos
    rw [attachAll_of_ok hd]
    refine ⟨hleads, ?_⟩
    cases ha : (f.addLambdas infos).answer with
    | ok ids => exact .inl rfl
    | error fault => exact .inr (congrArg some (hfull fault ha))

/-- The call sites of several classes fail with the first bad one among them, or because the arena gets full. -/
theorem errorOf_attachGroups (reg : Registry) (sites : List CallSite) : ∀ (names : List String) {f : Forest},
    f.LeadsInside →
    errorOf (f.attachGroups reg sites names).answer = names.findSome? (siteFault? sites) ∨
      errorOf (f.attachGroups reg sites names).answer = some full
  | [], _, _ => .inl rfl
  | name :: names, f, h => by
    obtain ⟨hleads, hone⟩ := h.attachAll reg (sitesOf sites name)
    rw [attachGroups, List.findSome?_cons, siteFault?]
    rcases Step.andThen_cases (f.attachAll reg (sitesOf sites name)) fun f _ => f.attachGroups reg sites names with
      ⟨fault, ha, he⟩ | ⟨ids, ha, he⟩
    · rw [ha] at hone
      rw [he]
      rcases hone with hone | hone
      · rw [← hone]
        exact .inl rfl
      · exact .inr hone
    · rw [ha] at hone
      obtain hone | hone := hone
      · rw [he, ← hone]
        exact errorOf_attachGroups reg sites names hleads
      · cases hone

end Forest

/-- A tree with its lambdas fails on a bad call site of a class that it claims, or on a full arena. -/
theorem Planting.Settled.errorOf_raise {g : Ground} {sites : List CallSite} {s : Planting} {c : ClassFile}
    (h : s.Settled g sites) (hc : c ∈ g.rootClasses) (hv : c.name ∉ s.growth.visits) :
    errorOf (s.raise g sites c).answer = some Forest.full ∨
      (s.growth.grow g c).answer = .ok s.growth.forest.size ∧
        errorOf (s.raise g sites c).answer = (s.claims g sites c).findSome? (siteFault? sites) := by
  cases hgrow : (s.growth.grow g c).answer with
  | error fault =>
    rw [raise_of_refused hgrow, (Growth.grow_failed h.growth hc hv hgrow).1]
    exact .inl rfl
  | ok root =>
    obtain ⟨rfl, hs, _⟩ := Growth.grow_settled h.growth hc hv hgrow
    rw [raise_of_grown hgrow, errorOf_map]
    have hleads : (s.growth.grow g c).state.forest.LeadsInside := hs.shaped.named.leadsInside
    rcases Forest.errorOf_attachGroups g.registry sites (s.claims g sites c) hleads with hone | hone
    · exact .inr ⟨rfl, hone⟩
    · exact .inl hone

/-- What takes a tree back is the full arena or the call sites of some class. -/
theorem Planting.Settled.failed_raise {g : Ground} {sites : List CallSite} {s : Planting} {c : ClassFile}
    {fault : Fault} (h : s.Settled g sites) (hc : c ∈ g.rootClasses) (hv : c.name ∉ s.growth.visits)
    (hl : (s.raise g sites c).answer = .error fault) :
    fault = Forest.full ∨ ∃ a, siteFault? sites a = some fault := by
  have hraise := h.errorOf_raise hc hv
  rw [hl, errorOf_error] at hraise
  rcases hraise with hfull | ⟨_, hsite⟩
  · exact .inl (Option.some.inj hfull)
  · obtain ⟨a, _, ha⟩ := List.exists_of_findSome?_eq_some hsite.symm
    exact .inr ⟨a, ha⟩

/-- The class declares a call site whose reference is of no kind. -/
def HasBadSite (sites : List CallSite) (name : String) : Prop :=
  ∃ s ∈ sites, s.declaringClass = name ∧ ¬ (1 ≤ s.invocationKind ∧ s.invocationKind ≤ 9)

theorem InvocationKind.isOk_ofCode {code : UInt8} :
    (ofCode code).isOk = true ↔ 1 ≤ code ∧ code ≤ 9 := by
  constructor
  · intro h
    cases hk : ofCode code with
    | error fault => rw [hk] at h; cases h
    | ok kind =>
      rw [← code_of_ofCode hk]
      cases kind <;> decide
  · rintro ⟨h1, h9⟩
    have hall : ∀ n : Fin 10, 1 ≤ n.val → (ofCode (UInt8.ofNat n.val)).isOk = true := by decide
    have hlt : code.toNat < 10 := Nat.lt_succ_of_le (UInt8.le_iff_toNat_le.mp h9)
    have hok := hall ⟨code.toNat, hlt⟩ (UInt8.le_iff_toNat_le.mp h1)
    rwa [UInt8.ofNat_toNat] at hok

theorem CallSite.fault?_isSome {s : CallSite} :
    s.fault?.isSome = true ↔ ¬ (1 ≤ s.invocationKind ∧ s.invocationKind ≤ 9) := by
  rw [← InvocationKind.isOk_ofCode, ← errorOf_eq_none_iff, fault?, Option.isSome_map, Option.isSome_iff_ne_none]

theorem siteFault?_isSome {sites : List CallSite} {name : String} :
    (siteFault? sites name).isSome = true ↔ HasBadSite sites name := by
  unfold siteFault? HasBadSite sitesOf
  rw [List.findSome?_isSome_iff]
  simp only [CallSite.fault?_isSome, List.mem_filter, beq_iff_eq, and_assoc]

theorem HasBadSite.sitesOf_ne_nil {sites : List CallSite} {name : String} (h : HasBadSite sites name) :
    sitesOf sites name ≠ [] := by
  obtain ⟨s, hs, hn, _⟩ := h
  exact List.ne_nil_of_mem (List.mem_filter.mpr ⟨hs, beq_iff_eq.mpr hn⟩)

/-! ## Call sites of classes without a tree -/

/-- What the call sites of a class without a tree lead to, after the given failures. -/
def Ground.strayFailure? (g : Ground) (sites : List CallSite) (abandoned : List String)
    (failures : List Failure) (name : String) : Option Failure :=
  if g.skipped.contains name || failures.any (·.unit == name) || abandoned.contains name then none
  else (siteFault? sites name).map fun fault => ⟨name, fault⟩

section
variable {g : Ground} {sites : List CallSite} {abandoned : List String} {failures : List Failure} {a : String}

theorem Ground.isSome_strayFailure? : (g.strayFailure? sites abandoned failures a).isSome = true ↔
    a ∉ g.skipped ∧ a ∉ failures.map (·.unit) ∧ a ∉ abandoned ∧ HasBadSite sites a := by
  unfold strayFailure?
  rw [← siteFault?_isSome, ← contains_map_unit, List.contains_eq_mem, List.contains_eq_mem, List.contains_eq_mem]
  by_cases hskip : a ∈ g.skipped
  · simp [hskip]
  · by_cases hfail : a ∈ failures.map (·.unit)
    · simp [hskip, hfail]
    · by_cases hlost : a ∈ abandoned
      · simp [hskip, hfail, hlost]
      · simp [hskip, hfail, hlost]

theorem Ground.unit_of_strayFailure? {f : Failure} (h : g.strayFailure? sites abandoned failures a = some f) :
    f.unit = a := by
  unfold strayFailure? at h
  split at h
  · cases h
  · obtain ⟨fault, _, rfl⟩ := Option.map_eq_some_iff.mp h
    rfl

end

namespace Draining
variable {g : Ground} {sites : List CallSite} {abandoned : List String}

theorem failures_drain {s : Draining} {name : String} (hf : s.forest.find? name = none) :
    (s.drain g sites abandoned name).failures =
      s.failures ++ (g.strayFailure? sites abandoned s.failures name).toList := by
  have hfault : errorOf (s.forest.attachAll g.registry (sitesOf sites name)).answer = siteFault? sites name := by
    rw [(Forest.attachAll_of_find?_none g.registry sites hf).2, errorOf_map, errorOf_describeAll]
    rfl
  unfold drain Ground.strayFailure?
  rw [hf, Option.isNone_none, Bool.and_true]
  split
  · simp
  · rw [← hfault]
    simp only
    split
    · rename_i hs; rw [hs]; simp
    · rename_i hs; rw [hs]; simp

/-- No class comes up twice, so that what one of them adds makes no difference to the others. -/
theorem failures_foldl_drain : ∀ (names : List String) {s : Draining}, names.Nodup →
    (∀ a ∈ names, s.forest.find? a = none) →
    (names.foldl (drain g sites abandoned) s).failures =
      s.failures ++ names.filterMap (g.strayFailure? sites abandoned s.failures)
  | [], s, _, _ => by simp
  | name :: names, s, hnd, h => by
    rw [List.nodup_cons] at hnd
    have hone : (s.drain g sites abandoned name).failures =
        s.failures ++ (g.strayFailure? sites abandoned s.failures name).toList := failures_drain (h name (by simp))
    have hforest : (s.drain g sites abandoned name).forest = s.forest :=
      (foldl_drain [name] (s := s) fun a ha => h a (by simp [List.mem_singleton.mp ha])).1
    have hrest : names.filterMap (g.strayFailure? sites abandoned (s.drain g sites abandoned name).failures) =
        names.filterMap (g.strayFailure? sites abandoned s.failures) := by
      apply List.filterMap_congr
      intro a ha
      have hne : a ≠ name := fun e => hnd.1 (e ▸ ha)
      have hany : (s.drain g sites abandoned name).failures.any (·.unit == a) = s.failures.any (·.unit == a) := by
        rw [hone, List.any_append]
        unfold Ground.strayFailure?
        split
        · simp
        · cases siteFault? sites name <;> simp [Ne.symm hne]
      unfold Ground.strayFailure?
      rw [hany]
    rw [List.foldl_cons, failures_foldl_drain names hnd.2 fun a ha => by rw [hforest]; exact h a (by simp [ha])]
    rw [hrest, hone, List.append_assoc]
    cases hx : g.strayFailure? sites abandoned s.failures name <;> simp [hx]

end Draining

theorem nodup_declaringClasses (sites : List CallSite) : (declaringClasses sites).Nodup := by
  have run : ∀ (xs acc : List String), acc.Nodup → (xs.foldl pushNew acc).Nodup := by
    intro xs
    induction xs with
    | nil => intro acc h; exact h
    | cons x xs ih => intro acc h; exact ih _ (nodup_pushNew h x)
  exact run _ [] List.nodup_nil

/-- The failures of the trees, and after them those of call sites without a tree. -/
theorem Ground.plantForest_failures {g : Ground} (hg : g.Sound) (sites : List CallSite)
    (failures : List Failure) :
    let planted := Planting.plantAll g sites { failures := failures }
    (g.plantForest sites failures).failures = planted.failures ++
      ((declaringClasses sites).filter fun name => !planted.claimed.contains name).filterMap
        (g.strayFailure? sites planted.growth.abandoned planted.failures) := by
  intro planted
  obtain ⟨hs, _⟩ := Planting.plantAll_spec hg sites failures
  unfold plantForest
  exact Draining.failures_foldl_drain _ ((nodup_declaringClasses sites).sublist List.filter_sublist)
    fun a ha => hs.find?_eq_none ha

end ClassNest
