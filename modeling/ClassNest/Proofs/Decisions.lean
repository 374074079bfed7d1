import ClassNest.Proofs.Nesting

/-!
# Decisions are final

A decision once taken is never taken back, so that all the simple names of a run can be read off the decisions
in the end (`NestedRecord.shown`), whatever the policy was asked on the way. A run that starts with those decisions
meets no class it would have to ask about (`Intake.Replays`): index, messages and failures come out the same,
and the policy is left alone.
-/
namespace ClassNest

namespace RenameCache
variable {enabled : Bool} {b c d : RenameCache}

/-- The simple name that these decisions show for a class. -/
def shown (c : RenameCache) (key name : String) : String := (c.renamed? key).getD name

/-- `c` came out of `b`: the decisions are still there, and with renaming off there are no others. -/
structure Extends (enabled : Bool) (b c : RenameCache) : Prop where
  kept : ∀ {key : String} {decision : Option String}, b.decision? key = some decision →
    c.decision? key = some decision
  off : enabled = false → c = b

theorem Extends.refl (enabled : Bool) (c : RenameCache) : Extends enabled c c := ⟨id, fun _ => rfl⟩

theorem Extends.trans (h : Extends enabled b c) (h' : Extends enabled c d) : Extends enabled b d :=
  ⟨fun hd => h'.kept (h.kept hd), fun he => (h'.off he).trans (h.off he)⟩

/-- Nothing has to be asked about this class. -/
def Settles (enabled : Bool) (c : RenameCache) (key : String) : Prop :=
  enabled = true → (c.decision? key).isSome = true

theorem Settles.extends {key : String} (hs : Settles enabled b key) (h : Extends enabled b c) :
    Settles enabled c key ∧ ∀ name, c.shown key name = b.shown key name := by
  cases enabled with
  | false => rw [h.off rfl]; exact ⟨hs, fun _ => rfl⟩
  | true =>
    obtain ⟨decision, hd⟩ := Option.isSome_iff_exists.mp (hs rfl)
    have hc := h.kept hd
    exact ⟨fun _ => by simp [hc], fun name => by simp [shown, renamed?, hd, hc]⟩

end RenameCache

namespace Naming
variable {σ τ : Type} (p : Policy σ) (enabled : Bool) (n : Naming σ) (key name : String)

theorem decision?_decide (other : String) (h : n.cache.decision? key = none) :
    (n.decide p key name).2.cache.decision? other =
      if other = key then some (n.decide p key name).1 else n.cache.decision? other := by
  unfold RenameCache.decision? at *
  simp only [decide, List.lookup_append]
  by_cases ho : other = key
  · subst ho; simp [h]
  · simp [List.lookup_cons, beq_false_of_ne ho, ho]

/-- Everything that a question about a simple name can do: it is read off the decisions, those in the end included,
and if renaming is on there is a decision about the class then. -/
theorem resolve_spec : RenameCache.Extends enabled n.cache (n.resolve p enabled key name).2.cache ∧
    (n.resolve p enabled key name).2.cache.Settles enabled key ∧
    (n.resolve p enabled key name).1 = (n.resolve p enabled key name).2.cache.shown key name := by
  unfold resolve
  cases hd : n.cache.decision? key with
  | some decision =>
    exact ⟨.refl _ _, fun _ => by simp [hd], by simp [RenameCache.shown, RenameCache.renamed?, hd]⟩
  | none =>
    cases enabled with
    | false => exact ⟨.refl _ _, fun he => by simp at he, by simp [RenameCache.shown, RenameCache.renamed?, hd]⟩
    | true =>
      have hdecide := fun other => decision?_decide p n key name other hd
      refine ⟨⟨fun {other decision} ho => ?_, fun he => by simp at he⟩, fun _ => ?_, ?_⟩
      · have hne : other ≠ key := by rintro rfl; simp [hd] at ho
        simp [hdecide, hne, ho]
      · simp [hdecide]
      · simp [RenameCache.shown, RenameCache.renamed?, hdecide]

/-- A class with a decision, or renaming that is off: the policy is not asked, whichever it is. -/
theorem resolve_of_settles {c : RenameCache} {key : String} (h : c.Settles enabled key) (q : Policy τ) (t : τ) :
    (⟨t, c⟩ : Naming τ).resolve q enabled key name = (c.shown key name, ⟨t, c⟩) := by
  unfold resolve
  cases hd : c.decision? key with
  | some decision => simp [RenameCache.shown, RenameCache.renamed?, hd]
  | none =>
    cases enabled with
    | true => simp [RenameCache.Settles, hd] at h
    | false => simp [RenameCache.shown, RenameCache.renamed?, hd]

end Naming

namespace NestedRecord
variable {σ τ : Type} (p : Policy σ) (enabled : Bool) (n : Naming σ) (r : NestedRecord)

/-- The record with the simple name that these decisions show. -/
def shown (c : RenameCache) (r : NestedRecord) : NestedRecord :=
  { r with simpleName := r.simpleName.map (c.shown r.inner) }

theorem extends_rename : RenameCache.Extends enabled n.cache (r.rename p enabled n).2.cache := by
  unfold rename
  cases r.simpleName with
  | none => exact .refl _ _
  | some name => exact (n.resolve_spec p enabled r.inner name).1

/-- The decisions in the end, `c`, show the name that was given; and with them there is nothing to ask. -/
theorem rename_spec {c : RenameCache} (h : RenameCache.Extends enabled (r.rename p enabled n).2.cache c) :
    (r.rename p enabled n).1 = r.shown c ∧
      ∀ (q : Policy τ) (t : τ), r.rename q enabled ⟨t, c⟩ = (r.shown c, ⟨t, c⟩) := by
  unfold rename shown at *
  cases hs : r.simpleName with
  | none =>
    have hself : { r with simpleName := none } = r := by rw [← hs]
    simp [hself]
  | some name =>
    rw [hs] at h
    obtain ⟨_, hsettles, hname⟩ := n.resolve_spec p enabled r.inner name
    obtain ⟨hc, hshown⟩ := hsettles.extends h
    exact ⟨by simp [hname, hshown], fun q t => by simp [Naming.resolve_of_settles enabled name hc]⟩

end NestedRecord

/-! ## Filling the index -/

namespace Intake
variable {σ τ : Type} (p : Policy σ) (rename : Bool) (reg : Registry)

theorem extends_addRecord (owner : String) (s : Intake σ) (r : NestedRecord) :
    RenameCache.Extends rename s.naming.cache (s.addRecord p rename reg owner r).naming.cache := by
  unfold addRecord
  split
  · exact r.extends_rename p rename s.naming
  · exact .refl _ _

/-- What one step keeps of the decisions, several keep. -/
theorem extends_foldl {α : Type} {step : Intake σ → α → Intake σ}
    (h : ∀ s a, RenameCache.Extends rename s.naming.cache (step s a).naming.cache) :
    ∀ (xs : List α) (s : Intake σ), RenameCache.Extends rename s.naming.cache (xs.foldl step s).naming.cache
  | [], _ => .refl _ _
  | a :: xs, s => (h s a).trans (extends_foldl h xs (step s a))

theorem extends_addDecoded (s : Intake σ) (d : Except Failure (ClassFile × List NestedRecord)) :
    RenameCache.Extends rename s.naming.cache (s.addDecoded p rename reg d).naming.cache := by
  match d with
  | .error _ => exact .refl _ _
  | .ok (c, records) => exact extends_foldl rename (extends_addRecord p rename reg c.name) records s

/-- `s'` says what `s` says, with the decisions `c` from the start and a policy that is still in state `t`. -/
structure Replays (c : RenameCache) (t : τ) (s : Intake σ) (s' : Intake τ) : Prop where
  index : s'.index = s.index
  log : s'.log = s.log
  failures : s'.failures = s.failures
  naming : s'.naming = ⟨t, c⟩

variable {c : RenameCache} {t : τ} {p rename reg}

/-- Steps that are replayed one by one are replayed together, as long as `c` has the decisions in the end. -/
theorem Replays.foldl {α : Type} {step : Intake σ → α → Intake σ} {step' : Intake τ → α → Intake τ}
    (hext : ∀ s a, RenameCache.Extends rename s.naming.cache (step s a).naming.cache)
    (hstep : ∀ {s s'} a, Replays c t s s' → RenameCache.Extends rename (step s a).naming.cache c →
      Replays c t (step s a) (step' s' a)) :
    ∀ (xs : List α) {s : Intake σ} {s' : Intake τ}, Replays c t s s' →
      RenameCache.Extends rename (xs.foldl step s).naming.cache c →
      Replays c t (xs.foldl step s) (xs.foldl step' s')
  | [], _, _, h, _ => h
  | a :: xs, s, _, h, hc =>
    Replays.foldl hext hstep xs (hstep a h ((extends_foldl rename hext xs (step s a)).trans hc)) hc

theorem Replays.addRecord (q : Policy τ) (owner : String) {s : Intake σ} {s' : Intake τ} (r : NestedRecord)
    (h : Replays c t s s') (hc : RenameCache.Extends rename (s.addRecord p rename reg owner r).naming.cache c) :
    Replays c t (s.addRecord p rename reg owner r) (s'.addRecord q rename reg owner r) := by
  unfold Intake.addRecord at *
  by_cases hown : reg.isOwn r.enclosing = true
  · simp only [hown, ite_true] at hc ⊢
    obtain ⟨hfirst, hagain⟩ := r.rename_spec p rename s.naming hc (τ := τ)
    rw [h.naming, hagain, hfirst, h.index, h.log]
    exact ⟨rfl, rfl, h.failures, rfl⟩
  · simp only [hown] at hc ⊢
    exact ⟨h.index, by simp [h.log], h.failures, h.naming⟩

theorem Replays.addDecoded (q : Policy τ) {s : Intake σ} {s' : Intake τ}
    (d : Except Failure (ClassFile × List NestedRecord)) (h : Replays c t s s')
    (hc : RenameCache.Extends rename (s.addDecoded p rename reg d).naming.cache c) :
    Replays c t (s.addDecoded p rename reg d) (s'.addDecoded q rename reg d) := by
  match d with
  | .error failure =>
    simp only [Intake.addDecoded]
    exact ⟨h.index, by rw [h.log], by rw [h.failures], h.naming⟩
  | .ok (owner, records) =>
    exact Replays.foldl (extends_addRecord p rename reg owner.name)
      (fun r hr hc => hr.addRecord q owner.name r hc) records h hc

/-- The same units once more, with the decisions of the first time: whatever the policy, it is not asked. -/
theorem replays_ofDecoded (n : Naming σ) (ds : List (Except Failure (ClassFile × List NestedRecord)))
    (q : Policy τ) (t : τ) :
    Replays (ofDecoded p rename reg n ds).naming.cache t (ofDecoded p rename reg n ds)
      (ofDecoded q rename reg ⟨t, (ofDecoded p rename reg n ds).naming.cache⟩ ds) :=
  Replays.foldl (extends_addDecoded p rename reg) (fun d hd hc => hd.addDecoded q d hc) ds ⟨rfl, rfl, rfl, rfl⟩
    (.refl _ _)

end Intake

/-! ## First records -/

theorem NestingIndex.record?_merge (ix : NestingIndex) (r : NestedRecord) (name : String) :
    (ix.merge r).1.record? name = (ix.record? name).or (if r.inner = name then some r else none) := by
  unfold merge
  cases hr : ix.record? r.inner with
  | none =>
    simp only [record?, List.find?_append, List.find?_singleton]
    simp
  | some first =>
    by_cases hn : r.inner = name
    · rw [← hn, hr]; simp
    · simp [hn]

namespace Intake
variable {σ : Type} {p : Policy σ} {rename : Bool} {reg : Registry} {c : RenameCache}

theorem record?_addRecord (owner : String) (s : Intake σ) (r : NestedRecord)
    (hc : RenameCache.Extends rename (s.addRecord p rename reg owner r).naming.cache c) (name : String) :
    (s.addRecord p rename reg owner r).index.record? name =
      (s.index.record? name).or (if reg.isOwn r.enclosing = true ∧ r.inner = name then some (r.shown c) else none) := by
  unfold addRecord at *
  by_cases hown : reg.isOwn r.enclosing = true
  · simp only [hown, ite_true, true_and] at hc ⊢
    rw [(r.rename_spec p rename s.naming hc (τ := σ)).1]
    exact s.index.record?_merge (r.shown c) name
  · simp [hown]

/-- Of the records that count, the first one of a class is kept, with the name that is shown in the end. -/
theorem record?_foldl (name : String) : ∀ (ds : List (String × NestedRecord)) (s : Intake σ),
    RenameCache.Extends rename (ds.foldl (fun t d => t.addRecord p rename reg d.1 d.2) s).naming.cache c →
    (ds.foldl (fun t d => t.addRecord p rename reg d.1 d.2) s).index.record? name = (s.index.record? name).or
      ((((ds.map (·.2)).filter fun r => reg.isOwn r.enclosing).find? (·.inner == name)).map (·.shown c))
  | [], s, _ => by simp
  | d :: ds, s, hc => by
    have hstep : ∀ (t : Intake σ) (d : String × NestedRecord),
        RenameCache.Extends rename t.naming.cache (t.addRecord p rename reg d.1 d.2).naming.cache :=
      fun t d => extends_addRecord p rename reg d.1 t d.2
    have hone : RenameCache.Extends rename (s.addRecord p rename reg d.1 d.2).naming.cache c :=
      (extends_foldl rename hstep ds _).trans hc
    rw [List.foldl_cons, record?_foldl name ds _ hc, record?_addRecord d.1 s d.2 hone, Option.or_assoc]
    congr 1
    by_cases hown : reg.isOwn d.2.enclosing = true
    · by_cases hn : d.2.inner = name
      · simp [hown, hn]
      · simp [hown, hn]
    · simp [hown]

end Intake

/-- The records that count for the index, in the order in which they come up: those that classes under reconstruction
declare and that can be decoded, as far as the enclosing class is under reconstruction as well. -/
def Registry.declaredRecords (reg : Registry) : List NestedRecord :=
  (reg.ownClasses.flatMap fun c => c.nestedRecords.toOption.getD []).filter fun r => reg.isOwn r.enclosing

/-- What the units of a registry bring to the index, class by class. -/
theorem Registry.declarations_eq (reg : Registry) : declarations (reg.units.filterMap (·.decode)) =
    reg.ownClasses.flatMap fun c => (c.nestedRecords.toOption.getD []).map fun r => (c.name, r) := by
  have hdecoded := reg.decoded_eq true
  simp only [decodeFor_true] at hdecoded
  have hown : ∀ c ∈ reg.ownClasses, c.own = true := by
    intro c hc
    obtain ⟨u, _, hu⟩ := List.mem_filterMap.mp hc
    exact (Option.filter_eq_some_iff.mp hu).2
  unfold declarations
  rw [hdecoded]
  generalize reg.ownClasses = cs at hown
  induction cs with
  | nil => rfl
  | cons c cs ih =>
    have hrest := ih fun d hd => hown d (by simp [hd])
    have hc := hown c (by simp)
    cases hr : c.nestedRecords with
    | ok records => simp_all [ClassUnit.decode, Except.toOption]
    | error fault => simp_all [ClassUnit.decode, Except.toOption]

theorem Registry.map_declarations (reg : Registry) :
    (declarations (reg.units.filterMap (·.decode))).map (·.2) =
      reg.ownClasses.flatMap fun c => c.nestedRecords.toOption.getD [] := by
  rw [declarations_eq, List.map_flatMap]
  simp only [List.map_map, Function.comp_def, List.map_id']

/-- The index holds the first record of each nested class, as the decisions show it that stand in the end. -/
theorem Registry.record?_normalize {σ : Type} (reg : Registry) (p : Policy σ) (rename : Bool) (n : Naming σ)
    (name : String) : (reg.normalize p rename n).index.record? name =
      (reg.declaredRecords.find? (·.inner == name)).map (·.shown (reg.normalize p rename n).naming.cache) := by
  obtain ⟨hindex, hnaming⟩ := Intake.same_ofDecoded p rename reg n (reg.units.filterMap (·.decode))
  unfold normalize
  rw [hindex, hnaming, Intake.record?_foldl name _ _ (.refl _ _), reg.map_declarations]
  simp [NestingIndex.record?, declaredRecords]

end ClassNest
