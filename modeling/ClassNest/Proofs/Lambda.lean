import ClassNest.Run
import ClassNest.Proofs.Forest.Links
import Mathlib.Data.List.Forall2

/-!
# Call sites and their lambda nodes

What a description says about its call site (`LambdaInfo.Describes`), and an induction principle for
the nodes that a list of call sites, or the call sites of several classes, add to a forest: a
property of forests and of the sites attached so far holds afterwards if one more lambda below the
node of its class keeps it.
-/
namespace ClassNest

/-! ## Descriptions -/

/-- `info` is what can be said about the call site `s`. -/
structure LambdaInfo.Describes (reg : Registry) (s : CallSite) (info : LambdaInfo) : Prop where
  declaringClass : info.declaringClass = s.declaringClass
  interfaceName : info.interfaceName = s.interfaceName
  interfaceMethod : info.interfaceMethod = s.interfaceMethod
  interfaceDescriptor : info.interfaceDescriptor = s.interfaceDescriptor
  contentClass : info.contentClass = s.contentClass
  contentMethod : info.contentMethod = s.contentMethod
  contentDescriptor : info.contentDescriptor = s.contentDescriptor
  contentMethodKey : info.contentMethodKey = methodKey s.contentMethod s.contentDescriptor
  invocationKind : info.invocationKind.code = s.invocationKind
  /-- the content is static if the reference is of kind six -/
  isStaticContent : info.isStaticContent = true ↔ s.invocationKind = 6
  /-- a lambda proper has its content in a synthetic method of the class itself -/
  isLambda : info.isMethodReference = false ↔ s.contentClass = s.declaringClass ∧
    ∃ c m, reg.class? s.declaringClass = some c ∧ c.method? s.contentMethod s.contentDescriptor = some m ∧
      m.isSynthetic = true

theorem InvocationKind.code_of_ofCode {code : UInt8} {kind : InvocationKind}
    (h : ofCode code = .ok kind) :
    kind.code = code := by
  unfold ofCode at h
  split at h
  · rename_i k hk
    cases h
    have hc := List.find?_some hk
    exact beq_iff_eq.mp hc
  · cases h

theorem InvocationKind.eq_invokeStatic_iff (kind : InvocationKind) :
    (kind == .invokeStatic) = true ↔ kind.code = 6 := by
  cases kind <;> decide

theorem LambdaInfo.describes_ofSite {reg : Registry} {s : CallSite} {kind : InvocationKind}
    {isReference : Bool}
    (hk : kind.code = s.invocationKind)
    (hr : isReference = false ↔ s.contentClass = s.declaringClass ∧ ∃ c m,
      reg.class? s.declaringClass = some c ∧
      c.method? s.contentMethod s.contentDescriptor = some m ∧ m.isSynthetic = true) :
    (LambdaInfo.ofSite s kind isReference).Describes reg s :=
  ⟨rfl, rfl, rfl, rfl, rfl, rfl, rfl, rfl, hk, by rw [← hk]; exact kind.eq_invokeStatic_iff, hr⟩

theorem CallSite.describe_ok {reg : Registry} {s : CallSite} {info : LambdaInfo} {log : Log}
    (h : s.describe reg = (.ok info, log)) : info.Describes reg s := by
  unfold CallSite.describe at h
  split at h
  · cases h
  · rename_i kind hkind
    have hk := InvocationKind.code_of_ofCode hkind
    split at h
    · rename_i hne
      cases h
      refine LambdaInfo.describes_ofSite hk ⟨fun e => (by cases e), fun e => ?_⟩
      simp [e.1] at hne
    · rename_i heq
      have heq : s.contentClass = s.declaringClass := by simpa using heq
      split at h
      · rename_i m hm
        cases h
        obtain ⟨c, hc, hm⟩ := Option.bind_eq_some_iff.mp hm
        refine LambdaInfo.describes_ofSite hk ⟨fun e => ⟨heq, c, m, hc, hm, by simpa using e⟩, ?_⟩
        rintro ⟨_, c', m', hc', hm', hs⟩
        rw [hc] at hc'; cases hc'
        rw [hm] at hm'; cases hm'
        simp [hs]
      · rename_i hnone
        cases h
        refine LambdaInfo.describes_ofSite hk ⟨fun e => (by cases e), ?_⟩
        rintro ⟨_, c, m, hc, hm, _⟩
        rw [hc, Option.bind_some, hm] at hnone
        cases hnone

theorem describeAll_ok {reg : Registry} : ∀ {ss : List CallSite} {infos : List LambdaInfo} {log : Log},
    describeAll reg ss = (.ok infos, log) → List.Forall₂ (fun s info => LambdaInfo.Describes reg s info) ss infos
  | [], infos, log, h => by cases h; exact .nil
  | s :: ss, infos, log, h => by
    rw [describeAll] at h
    split at h
    · cases h
    · rename_i info log' hs
      simp only [Prod.mk.injEq] at h
      cases hr : (describeAll reg ss).1 with
      | error fault => rw [hr] at h; cases h.1
      | ok rest =>
        have hrest : describeAll reg ss = (.ok rest, (describeAll reg ss).2) := by rw [← hr]
        rw [hr] at h
        cases h.1
        exact .cons (CallSite.describe_ok hs) (describeAll_ok hrest)

/-! ## One lambda after the other -/

namespace Forest
variable {reg : Registry} {P : Forest → List CallSite → Prop}

theorem addLambda_of_some {f : Forest} {info : LambdaInfo} {p : NodeId} (hp : f.find? info.declaringClass = some p) :
    f.addLambda info = (f.perform (.attach p (.ofLambda info))).map some := by
  unfold addLambda
  rw [hp]

theorem addLambda_of_none {f : Forest} {info : LambdaInfo} (hp : f.find? info.declaringClass = none) :
    ∃ log, f.addLambda info = ⟨f, .ok none, log⟩ := by
  unfold addLambda
  rw [hp]
  exact ⟨_, rfl⟩

/-- The lambdas that are there when the list is through or has been stopped. -/
theorem addLambdas_induct {ss : List CallSite} {infos : List LambdaInfo}
    (hall : List.Forall₂ (fun s info => LambdaInfo.Describes reg s info) ss infos)
    (step : ∀ f att s info p, P f att → s ∈ ss → info.Describes reg s → f.find? s.declaringClass = some p →
      P (f.graft p (.ofLambda info)) (att ++ [s]))
    (find : ∀ f att, P f att → ∀ s ∈ ss, ∃ p, f.find? s.declaringClass = some p) :
    ∀ {f : Forest} {att : List CallSite}, P f att → ∃ att', P (f.addLambdas infos).state att' ∧
      ∀ ids, (f.addLambdas infos).answer = .ok ids → att' = att ++ ss := by
  induction hall with
  | nil => intro f att h; exact ⟨att, h, fun _ _ => (List.append_nil att).symm⟩
  | @cons s info ss infos hd _ ih =>
    intro f att h
    obtain ⟨p, hp⟩ := find f att h s (by simp)
    have hone := addLambda_of_some (hd.declaringClass ▸ hp)
    rw [addLambdas]
    rcases perform_attach_grows_or_keeps f p (.ofLambda info) with ⟨_, _, he⟩ | ⟨fault, _, he⟩
    · rw [he] at hone
      obtain ⟨att', hP, hfull⟩ := ih (fun f att s info p hf hs => step f att s info p hf (by simp [hs]))
        (fun f att hf s hs => find f att hf s (by simp [hs])) (step f att s info p h (by simp) hd hp)
      rw [hone, Step.andThen_of_ok rfl]
      refine ⟨att', hP, fun ids hids => ?_⟩
      obtain ⟨rest, hrest, _⟩ := Step.of_map_ok hids
      rw [hfull rest hrest, List.append_assoc, List.singleton_append]
    · rw [he] at hone
      rw [hone, Step.andThen_of_error rfl]
      exact ⟨att, h, fun _ e => (by cases e)⟩

theorem attachAll_of_error {ss : List CallSite} {fault : Fault} (hd : (describeAll reg ss).1 = .error fault)
    (f : Forest) : f.attachAll reg ss = ⟨f, .error fault, (describeAll reg ss).2⟩ := by
  unfold attachAll Step.andThen
  simp only [hd]

theorem attachAll_of_ok {ss : List CallSite} {infos : List LambdaInfo} (hd : (describeAll reg ss).1 = .ok infos)
    (f : Forest) : f.attachAll reg ss =
      ⟨(f.addLambdas infos).state, (f.addLambdas infos).answer, (describeAll reg ss).2 ++ (f.addLambdas infos).log⟩ := by
  unfold attachAll Step.andThen
  simp only [hd]

theorem attachAll_induct {ss : List CallSite}
    (step : ∀ f att s info p, P f att → s ∈ ss → info.Describes reg s → f.find? s.declaringClass = some p →
      P (f.graft p (.ofLambda info)) (att ++ [s]))
    (find : ∀ f att, P f att → ∀ s ∈ ss, ∃ p, f.find? s.declaringClass = some p)
    {f : Forest} {att : List CallSite} (h : P f att) : ∃ att', P (f.attachAll reg ss).state att' ∧
      ∀ ids, (f.attachAll reg ss).answer = .ok ids → att' = att ++ ss := by
  cases hd : (describeAll reg ss).1 with
  | error fault =>
    rw [attachAll_of_error hd]
    exact ⟨att, h, fun _ e => (by cases e)⟩
  | ok infos =>
    rw [attachAll_of_ok hd]
    exact addLambdas_induct (describeAll_ok (Prod.ext hd rfl)) step find h

theorem declaringClass_of_mem_sitesOf {sites : List CallSite} {name : String} {s : CallSite}
    (h : s ∈ sitesOf sites name) : s.declaringClass = name := by
  simpa using (List.mem_filter.mp h).2

/-- What holds of the forest that the call sites of several classes were attached to. Where it stops
something is attached, and everything if it does not. -/
theorem attachGroups_induct {sites : List CallSite} : ∀ {names : List String} {f : Forest} {att : List CallSite},
    (∀ f att s info p, P f att → s.declaringClass ∈ names → info.Describes reg s →
      f.find? s.declaringClass = some p → P (f.graft p (.ofLambda info)) (att ++ [s])) →
    (∀ f att, P f att → ∀ name ∈ names, ∃ p, f.find? name = some p) → P f att →
    ∃ att', P (f.attachGroups reg sites names).state att' ∧
      ((f.attachGroups reg sites names).answer = .ok () → att' = att ++ names.flatMap (sitesOf sites)) := by
  intro names
  induction names with
  | nil => intro f att _ _ h; exact ⟨att, h, fun _ => by simp⟩
  | cons name names ih =>
    intro f att step find h
    obtain ⟨att₁, h₁, hone⟩ : ∃ att', P (f.attachAll reg (sitesOf sites name)).state att' ∧
        ∀ ids, (f.attachAll reg (sitesOf sites name)).answer = .ok ids → att' = att ++ sitesOf sites name := by
      refine attachAll_induct ?_ ?_ h
      · intro f att s info p hf hs
        exact step f att s info p hf (by simp [declaringClass_of_mem_sitesOf hs])
      · intro f att hf s hs
        rw [declaringClass_of_mem_sitesOf hs]
        exact find f att hf name (by simp)
    rw [attachGroups]
    rcases Step.andThen_cases (f.attachAll reg (sitesOf sites name)) fun f _ => f.attachGroups reg sites names with
      ⟨fault, _, he⟩ | ⟨ids, hids, he⟩
    · rw [he]
      exact ⟨att₁, h₁, fun e => (by cases e)⟩
    · obtain ⟨att', hP, hall⟩ := ih (fun f att s info p hf hs => step f att s info p hf (by simp [hs]))
        (fun f att hf n hn => find f att hf n (by simp [hn])) h₁
      rw [he]
      refine ⟨att', hP, fun e => ?_⟩
      rw [hall e, hone ids hids, List.flatMap_cons, List.append_assoc]

/-! ## The lambdas of a forest -/

/-- The node at `j` is the lambda of the call site `s`. -/
def Holds (reg : Registry) (f : Forest) (j : NodeId) (s : CallSite) : Prop :=
  ∃ info, LambdaInfo.Describes reg s info ∧ f.label? j = some (.ofLambda info)

/-- The lambdas of the forest are those of the call sites `att`: below each class stand first the
classes nested in it and then its lambdas, one for each of its call sites and in their order. -/
structure Carries (reg : Registry) (f : Forest) (att : List CallSite) : Prop where
  split : ∀ {i : Nat} {e : String}, f.className? i = some e → ∃ nested lams,
    f.children i = nested ++ lams ∧
    (∀ j ∈ nested, ∃ a, f.className? j = some a) ∧ List.Forall₂ (f.Holds reg) lams (sitesOf att e)
  owned : ∀ {j : Nat} {l : Node}, f.label? j = some l → l.isLambda = true →
    ∃ p info, f.parent? j = some p ∧ l = .ofLambda info ∧ f.className? p = some info.declaringClass
  known : ∀ s ∈ att, ∃ i, f.className? i = some s.declaringClass

theorem carries_empty (reg : Registry) : Carries reg {} [] :=
  ⟨fun h => (by cases h), fun h => (by cases h), fun _ h => (by cases h)⟩

theorem sitesOf_append (a b : List CallSite) (name : String) :
    sitesOf (a ++ b) name = sitesOf a name ++ sitesOf b name := by simp [sitesOf]

theorem Carries.graft_lambda {f : Forest} {att : List CallSite} {p : Nat} {s : CallSite}
    {info : LambdaInfo}
    (h : f.Carries reg att) (hn : f.Named) (hp : f.className? p = some s.declaringClass)
    (hd : info.Describes reg s) : (f.graft p (.ofLambda info)).Carries reg (att ++ [s]) := by
  have hlt := lt_size_of_className? hp
  -- labels and names of the old nodes stay, and the new node stands for no class
  have hlabel : ∀ {j : Nat} {l : Node}, f.label? j = some l →
    (f.graft p (.ofLambda info)).label? j = some l := by
    intro j l hj
    rw [label?_graft, if_neg (Nat.ne_of_lt (lt_size_of_label? hj))]
    exact hj
  have hclass : ∀ i : Nat, (f.graft p (.ofLambda info)).className? i = f.className? i :=
    fun _ => className?_graft_none rfl
  have hholds : ∀ {lams : List NodeId} {ss : List CallSite}, List.Forall₂ (f.Holds reg) lams ss →
      List.Forall₂ ((f.graft p (.ofLambda info)).Holds reg) lams ss :=
    fun hall => hall.imp fun j s ⟨i, h1, h2⟩ => ⟨i, h1, hlabel h2⟩
  refine ⟨?_, ?_, ?_⟩
  · intro i e he
    rw [hclass] at he
    obtain ⟨nested, lams, hc, hnest, hall⟩ := h.split he
    rw [children_graft rfl hlt, sitesOf_append]
    have hnest' : ∀ j ∈ nested, ∃ a, (f.graft p (.ofLambda info)).className? j = some a := by
      intro j hj; rw [hclass]; exact hnest j hj
    by_cases hi : i = p
    · subst hi
      rw [hp] at he
      cases he
      refine ⟨nested, lams ++ [f.size], by rw [if_pos rfl, hc, List.append_assoc], hnest', ?_⟩
      have hself : sitesOf [s] s.declaringClass = [s] := by simp [sitesOf]
      rw [hself]
      refine List.rel_append (hholds hall) (.cons ⟨info, hd, ?_⟩ .nil)
      rw [label?_graft, if_pos rfl]
      rfl
    · have hne : s.declaringClass ≠ e := fun heq => hi (hn.eq_of_className? he (heq ▸ hp))
      have hnil : sitesOf [s] e = [] := by simp [sitesOf, hne]
      refine ⟨nested, lams, by rw [if_neg hi, hc], hnest', ?_⟩
      rw [hnil, List.append_nil]
      exact hholds hall
  · intro j l hj hlam
    rw [label?_graft] at hj
    rw [parent?_graft]
    by_cases hjs : j = f.size
    · rw [if_pos hjs] at hj ⊢
      cases hj
      exact ⟨p, info, rfl, rfl, by rw [hclass, hp, hd.declaringClass]⟩
    · rw [if_neg hjs] at hj ⊢
      obtain ⟨q, i, h1, h2, h3⟩ := h.owned hj hlam
      exact ⟨q, i, h1, h2, by rw [hclass]; exact h3⟩
  · intro t ht
    rcases List.mem_append.mp ht with ht | ht
    · obtain ⟨i, hi⟩ := h.known t ht
      exact ⟨i, by rw [hclass]; exact hi⟩
    · rw [List.mem_singleton.mp ht]
      exact ⟨p, by rw [hclass]; exact hp⟩

end Forest
end ClassNest
