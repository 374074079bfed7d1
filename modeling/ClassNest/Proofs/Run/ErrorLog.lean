import ClassNest.Proofs.Run.Failures

/-!
# Failures and error messages

An outcome reports its failures twice: in the list of failures, and as error messages in its log. A run fails
units in four places, each of which writes to both. A fault without a unit, as that of a full arena, gets the name of
its root before it goes into either. What the places have in common is `Tells`: the failures are some that were there
before, and after them one for every error message. Whatever else is written on the way, while trees grow and are taken
back, is a warning, so that a log only has to be split into its parts to see that both reports agree.
-/
namespace ClassNest

/-! ## Error messages -/

/-- The error messages of a log, first written first. -/
def Log.errors (log : Log) : List String := (log.filter (·.severity == .error)).map (·.message)

@[simp] theorem Log.errors_nil : Log.errors [] = [] := rfl

@[simp] theorem Log.errors_append (log more : Log) : Log.errors (log ++ more) = log.errors ++ more.errors := by
  simp [errors]

@[simp] theorem Log.errors_warning (message : String) : (warning message).errors = [] := rfl

@[simp] theorem Log.errors_errorLine (message : String) : (errorLine message).errors = [message] := rfl

theorem Log.errors_flatMap {α : Type} {f : α → Log} (h : ∀ a, (f a).errors = []) (xs : List α) :
    Log.errors (xs.flatMap f) = [] := by
  induction xs with
  | nil => rfl
  | cons a xs ih => rw [List.flatMap_cons, errors_append, h, ih]; rfl

theorem Step.errors_andThen {σ α β : Type} {r : Step σ α} {next : σ → α → Step σ β} (hr : r.log.errors = [])
    (hnext : ∀ s a, (next s a).log.errors = []) : (r.andThen next).log.errors = [] := by
  rcases andThen_cases r next with ⟨_, _, he⟩ | ⟨_, _, he⟩
  · rw [he]; exact hr
  · rw [he, Log.errors_append, hr, hnext]; rfl

theorem Forest.errors_perform {α : Type} (f : Forest) (a : Forest.Change α) : (f.perform a).log.errors = [] := by
  unfold perform
  split <;> rfl

/-- The failures are those of `old`, and then one for every error message of the log. -/
def Tells (old failures : List Failure) (log : Log) : Prop :=
  failures.map (·.fault.text) = old.map (·.fault.text) ++ log.errors

namespace Tells
variable {old failures : List Failure} {log : Log}

theorem start (old : List Failure) : Tells old old [] := by simp [Tells]

/-- Other messages say nothing about failures. -/
theorem write (h : Tells old failures log) {more : Log} (hm : more.errors = []) :
    Tells old failures (log ++ more) := by
  unfold Tells at *
  rw [Log.errors_append, hm, List.append_nil, h]

/-- One pass after the other. -/
theorem trans {later : List Failure} {more : Log} (h : Tells old failures log) (h' : Tells failures later more) :
    Tells old later (log ++ more) := by
  unfold Tells at *
  rw [h', h, Log.errors_append, List.append_assoc]

/-- A failure and its message. -/
theorem fail (h : Tells old failures log) (name : String) (fault : Fault) :
    Tells old (failures ++ [⟨name, fault⟩]) (log ++ errorLine fault.text) := by
  unfold Tells at *
  rw [Log.errors_append, List.map_append, h, List.append_assoc]
  rfl

end Tells

/-! ## Units -/

@[simp] theorem errors_mergeLog (reg : Registry) (r : NestedRecord) (m : Merge) : (mergeLog reg r m).errors = [] := by
  cases m with
  | inserted =>
    rw [mergeLog, checkEnclosing]
    split
    · rfl
    · split
      · split <;> rfl
      · rfl
  | duplicate => rfl
  | conflict => rfl

namespace Intake
variable {σ : Type} (p : Policy σ) (rename : Bool) (reg : Registry)

theorem tells_addRecord (owner : String) {s : Intake σ} (h : Tells [] s.failures s.log) (r : NestedRecord) :
    Tells [] (s.addRecord p rename reg owner r).failures (s.addRecord p rename reg owner r).log := by
  unfold addRecord
  split
  · exact h.write (errors_mergeLog _ _ _)
  · exact h.write (Log.errors_warning _)

theorem tells_addDecoded {s : Intake σ} (h : Tells [] s.failures s.log)
    (d : Except Failure (ClassFile × List NestedRecord)) :
    Tells [] (s.addDecoded p rename reg d).failures (s.addDecoded p rename reg d).log := by
  match d with
  | .error failure => exact h.fail failure.unit failure.fault
  | .ok (c, records) =>
    simp only [addDecoded]
    induction records generalizing s with
    | nil => exact h
    | cons r records ih => exact ih (tells_addRecord p rename reg c.name h r)

theorem tells_ofDecoded (n : Naming σ) (ds : List (Except Failure (ClassFile × List NestedRecord))) :
    Tells [] (ofDecoded p rename reg n ds).failures (ofDecoded p rename reg n ds).log := by
  have run : ∀ (ds : List (Except Failure (ClassFile × List NestedRecord))) (s : Intake σ),
      Tells [] s.failures s.log →
      Tells [] (ds.foldl (addDecoded p rename reg) s).failures (ds.foldl (addDecoded p rename reg) s).log := by
    intro ds
    induction ds with
    | nil => intro s h; exact h
    | cons d ds ih => intro s h; exact ih _ (tells_addDecoded p rename reg h d)
  exact run ds _ (Tells.start [])

end Intake

/-! ## Exception tables -/

theorem tells_failureLog (old failures : List Failure) : Tells old (old ++ failures) (failureLog failures) := by
  have herrors : (failureLog failures).errors = failures.map (·.fault.text) := by
    induction failures with
    | nil => rfl
    | cons f failures ih =>
      rw [failureLog, List.flatMap_cons, Log.errors_append, Log.errors_errorLine, List.map_cons, ← ih]
      rfl
  unfold Tells
  rw [herrors, List.map_append]

/-! ## Trees -/

namespace Growth
variable (g : Ground)

theorem errors_visit (parent : NodeId) (s : Growth) (name : String) : (s.visit g parent name).log.errors = [] := by
  have hmade : ∀ (r : NestedRecord) (c : ClassFile), (Ground.materializeLog r c).errors = [] := by
    intro r c
    unfold Ground.materializeLog ClassFile.anonymousLog
    split
    · split <;> rfl
    · rfl
  unfold visit
  split
  · rfl
  · simp only
    split
    · rfl
    · split
      · exact Step.errors_andThen (hmade _ _) fun s n => Forest.errors_perform s.forest _
      · rfl

theorem errors_visitAll (parent : NodeId) : ∀ (names : List String) (s : Growth),
    (s.visitAll g parent names).log.errors = []
  | [], _ => rfl
  | name :: names, s => Step.errors_andThen (errors_visit g parent s name) fun s _ => errors_visitAll parent names s

theorem errors_spread : ∀ (rounds : Nat) (s : Growth) (queue : List (NodeId × String)),
    (s.spread g rounds queue).log.errors = []
  | 0, _, _ => rfl
  | _ + 1, _, [] => rfl
  | rounds + 1, s, (id, _) :: _ =>
    Step.errors_andThen (errors_visitAll g id _ s) fun s _ => errors_spread rounds s _

theorem errors_grow (s : Growth) (c : ClassFile) : (s.grow g c).log.errors = [] := by
  refine Step.errors_andThen (Forest.errors_perform s.forest _) fun s root => ?_
  simp only
  split
  · exact errors_spread g _ _ _
  · rfl

theorem errors_finish (s : Growth) : (s.finish g).2.errors = [] := by
  refine Log.errors_flatMap (fun name => ?_) _
  unfold unattachedLog
  split <;> rfl

end Growth

/-! ## Lambdas -/

theorem CallSite.errors_describe (reg : Registry) (s : CallSite) : (s.describe reg).2.errors = [] := by
  unfold describe
  split
  · rfl
  · split
    · rfl
    · split <;> rfl

theorem errors_describeAll (reg : Registry) : ∀ ss : List CallSite, (describeAll reg ss).2.errors = []
  | [] => rfl
  | s :: ss => by
    have hone := s.errors_describe reg
    rw [describeAll]
    split
    · rename_i hs; rw [hs] at hone; exact hone
    · rename_i hs
      rw [hs] at hone
      simp only [Log.errors_append, errors_describeAll reg ss, List.append_nil]
      exact hone

namespace Forest

theorem errors_addLambda (f : Forest) (info : LambdaInfo) : (f.addLambda info).log.errors = [] := by
  unfold addLambda
  split
  · rename_i parent _
    exact errors_perform f (.attach parent (.ofLambda info))
  · rfl

theorem errors_addLambdas : ∀ (infos : List LambdaInfo) (f : Forest), (f.addLambdas infos).log.errors = []
  | [], _ => rfl
  | info :: infos, f => Step.errors_andThen (errors_addLambda f info) fun f _ => errors_addLambdas infos f

theorem errors_attachAll (f : Forest) (reg : Registry) (ss : List CallSite) : (f.attachAll reg ss).log.errors = [] :=
  Step.errors_andThen (errors_describeAll reg ss) fun f infos => errors_addLambdas infos f

theorem errors_attachGroups (reg : Registry) (sites : List CallSite) : ∀ (names : List String) (f : Forest),
    (f.attachGroups reg sites names).log.errors = []
  | [], _ => rfl
  | _ :: names, f => Step.errors_andThen (errors_attachAll f reg _) fun f _ => errors_attachGroups reg sites names f

end Forest

/-! ## The forest -/

theorem Planting.tells_plant (g : Ground) (sites : List CallSite) {old : List Failure} {s : Planting}
    (h : Tells old s.failures s.log) (c : ClassFile) :
    Tells old (s.plant g sites c).failures (s.plant g sites c).log := by
  have hraise : (s.raise g sites c).log.errors = [] :=
    Step.errors_andThen (Growth.errors_grow g _ c) fun _ _ => Forest.errors_attachGroups _ _ _ _
  -- the tree and its lambdas write warnings only; the message comes last, with the fault as it is reported
  unfold plant
  simp only
  split
  · exact h.write hraise
  · exact (h.write hraise).fail c.name _

theorem Planting.tells_plantAll (g : Ground) (sites : List CallSite) (old : List Failure) :
    Tells old (plantAll g sites { failures := old }).failures (plantAll g sites { failures := old }).log := by
  have run : ∀ (cs : List ClassFile) (s : Planting), Tells old s.failures s.log →
      Tells old (cs.foldl (plant g sites) s).failures (cs.foldl (plant g sites) s).log := by
    intro cs
    induction cs with
    | nil => intro s h; exact h
    | cons c cs ih => intro s h; exact ih _ (tells_plant g sites h c)
  exact run _ _ (Tells.start old)

theorem Draining.tells_drain (g : Ground) (sites : List CallSite) (abandoned : List String) {old : List Failure}
    {s : Draining} (h : Tells old s.failures s.log) (name : String) :
    Tells old (s.drain g sites abandoned name).failures (s.drain g sites abandoned name).log := by
  have hlog := s.forest.errors_attachAll g.registry (sitesOf sites name)
  unfold drain
  split
  · exact h
  · simp only
    split
    · exact h.write hlog
    · exact (h.write hlog).fail name _

theorem Draining.tells_foldl (g : Ground) (sites : List CallSite) (abandoned : List String) {old : List Failure} :
    ∀ (names : List String) {s : Draining}, Tells old s.failures s.log →
      Tells old (names.foldl (drain g sites abandoned) s).failures (names.foldl (drain g sites abandoned) s).log
  | [], _, h => h
  | name :: names, _, h => tells_foldl g sites abandoned names (tells_drain g sites abandoned h name)

theorem Ground.tells_plantForest (g : Ground) (sites : List CallSite) (old : List Failure) :
    Tells old (g.plantForest sites old).failures (g.plantForest sites old).log := by
  unfold plantForest
  refine Draining.tells_foldl g sites _ _ ?_
  exact (Planting.tells_plantAll g sites old).write (Growth.errors_finish g _)

/-! ## The whole run -/

/-- The three passes in a row, from a run without any failure. -/
theorem Registry.tells_reconstruct {σ : Type} (reg : Registry) (settings : Settings) (p : Policy σ) (n : Naming σ)
    (sites : List CallSite) : Tells [] (reg.reconstruct settings p n sites).1.failures
      (reg.reconstruct settings p n sites).1.log := by
  have hunits := Intake.tells_ofDecoded p settings.rename reg n (reg.units.filterMap (·.decodeFor settings.nested))
  exact (hunits.trans (tells_failureLog _ _)).trans (Ground.tells_plantForest _ sites _)

/-- The error messages of a run are the texts of its failures: one for each of them, in the same order, and no
others. -/
theorem run_errors {σ : Type} (reg : Registry) (settings : Settings) (p : Policy σ) (n : Naming σ)
    (sites : List CallSite) {o : Outcome} {n' : Naming σ} (h : reg.run settings p n sites = .ok (o, n')) :
    o.log.errors = o.failures.map (·.fault.text) := by
  have ho : o = (reg.reconstruct settings p n sites).1 := by
    unfold Registry.run at h
    split at h
    · exact (congrArg Prod.fst (Except.ok.inj h)).symm
    · cases h
  rw [ho]
  exact (reg.tells_reconstruct settings p n sites).symm

theorem run_errors_failingUnits : ∃ o n',
    (Registry.ofUnits failingUnits).run {} (.keep Unit) ⟨(), {}⟩ failingSites = .ok (o, n') ∧
      o.log.errors = o.failures.map (·.fault.text) :=
  ⟨_, _, rfl, run_errors (Registry.ofUnits failingUnits) {} (.keep Unit) ⟨(), {}⟩ failingSites rfl⟩

-- one message from each of the four places
example : (match (Registry.ofUnits failingUnits).run {} (.keep Unit) ⟨(), {}⟩ failingSites with
    | .ok (o, _) => o.log.errors
    | .error _ => []) =
    ["[corrupted_class] Corrupted class file: truncated in app/Torn",
     "[malformed_attribute] method run ()V: exception entry 0: start 9 after end 4 in app/Loose",
     "[invalid_call_site] invalid method handle reference kind 0 in app/A",
     "[invalid_call_site] invalid method handle reference kind 0 in lib/Helper"] := by decide +kernel

end ClassNest
