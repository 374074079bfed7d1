import ClassNest.Proofs.Decisions
import ClassNest.Renaming.Convention
import ClassNest.Renaming.Workers

/-!
# Decisions under every schedule

Workers that race for the same class take one decision about it. All that a step can do is said once (`Crew.Step`): it
changes the decisions only where it asks a policy, and that only about a class which has no decision at that moment.
From this it follows for every schedule that policies are asked at most once about a class, that decisions stay as they
are, and that replies agree with them (`resolve_interleaved`). A worker that is alone does what a plain call does
(`Crew.run_alone`).
-/
namespace ClassNest

/-! ## Questions -/

namespace Naming
variable {σ : Type} (p : Policy σ) (n : Naming (σ × List Question)) (key name : String)

/-- A record of questions makes no difference to the answers. -/
theorem decide_recorded :
    (n.decide (p.recorded key) key name).1 = ((⟨n.names.1, n.cache⟩ : Naming σ).decide p key name).1 ∧
    (n.decide (p.recorded key) key name).2.names.1 = ((⟨n.names.1, n.cache⟩ : Naming σ).decide p key name).2.names ∧
    (n.decide (p.recorded key) key name).2.cache = ((⟨n.names.1, n.cache⟩ : Naming σ).decide p key name).2.cache := by
  unfold decide Policy.recorded
  simp only
  split <;> exact ⟨rfl, rfl, rfl⟩

theorem resolve_recorded (enabled : Bool) :
    (n.resolve (p.recorded key) enabled key name).1 = ((⟨n.names.1, n.cache⟩ : Naming σ).resolve p enabled key name).1 ∧
    (n.resolve (p.recorded key) enabled key name).2.names.1 =
      ((⟨n.names.1, n.cache⟩ : Naming σ).resolve p enabled key name).2.names ∧
    (n.resolve (p.recorded key) enabled key name).2.cache =
      ((⟨n.names.1, n.cache⟩ : Naming σ).resolve p enabled key name).2.cache := by
  obtain ⟨hanswer, hnames, hcache⟩ := n.decide_recorded p key name
  unfold resolve
  simp only
  cases n.cache.decision? key with
  | some d => exact ⟨rfl, rfl, rfl⟩
  | none =>
    cases enabled with
    | true => exact ⟨congrArg (·.getD name) hanswer, hnames, hcache⟩
    | false => exact ⟨rfl, rfl, rfl⟩

/-- The questions behind a decision: whether to replace the name, and only then by what. -/
theorem questions_decide :
    ((n.decide (p.recorded key) key name).1 = none ∧
      (n.decide (p.recorded key) key name).2.names.2 = n.names.2 ++ [.shouldRename key name false]) ∨
    ∃ fresh, (n.decide (p.recorded key) key name).1 = some fresh ∧
      (n.decide (p.recorded key) key name).2.names.2 =
        n.names.2 ++ [.shouldRename key name true, .nextClassName key name fresh] := by
  unfold decide Policy.recorded
  simp only
  split
  · rename_i hasked
    rw [hasked]
    exact .inr ⟨_, rfl, by simp⟩
  · rename_i hasked
    rw [Bool.eq_false_iff.mpr hasked]
    exact .inl ⟨rfl, rfl⟩

end Naming

namespace Crew
variable {σ : Type} {s t : Crew σ} {i : Nat} {cache : RenameCache} {names : σ} {programs : List (List (Call σ))}

/-! ## Steps -/

/-- The decision about a class. -/
def decision? (s : Crew σ) (key : String) : Option (Option String) := s.naming.cache.decision? key

/-- What a step of worker `i` can do. -/
inductive Step (s : Crew σ) (i : Nat) : Crew σ → Prop
  /-- there is nothing left to do -/
  | pass (h : ∀ w, s.workers[i]? = some w → w.calls = []) : Step s i s
  /-- there is a decision, found at once or after all -/
  | known {c : Call σ} {calls : List (Call σ)} {missed : Bool} {d : Option String}
      (hw : s.workers[i]? = some ⟨c :: calls, missed⟩) (hd : s.decision? c.key = some d) :
      Step s i (s.reply i c calls (d.getD c.name))
  /-- there is none, and renaming is off -/
  | kept {c : Call σ} {calls : List (Call σ)} (hw : s.workers[i]? = some ⟨c :: calls, false⟩)
      (hd : s.decision? c.key = none) (he : c.enabled = false) : Step s i (s.reply i c calls c.name)
  /-- there is none, and one has to be taken -/
  | missed {c : Call σ} {calls : List (Call σ)} (hw : s.workers[i]? = some ⟨c :: calls, false⟩)
      (hd : s.decision? c.key = none) (he : c.enabled = true) :
      Step s i { s with workers := s.workers.set i ⟨c :: calls, true⟩ }
  /-- there is still none, and the policy is asked -/
  | decided {c : Call σ} {calls : List (Call σ)} (hw : s.workers[i]? = some ⟨c :: calls, true⟩)
      (hd : s.decision? c.key = none) :
      Step s i ({ s with naming := (s.naming.decide (c.policy.recorded c.key) c.key c.name).2 }.reply i c calls
        ((s.naming.decide (c.policy.recorded c.key) c.key c.name).1.getD c.name))

theorem step_turn (s : Crew σ) (i : Nat) : s.Step i (s.turn i) := by
  unfold turn
  split
  · rename_i c calls hw
    split
    · rename_i d hd; exact .known hw hd
    · rename_i hd
      split
      · rename_i he; exact .missed hw hd he
      · rename_i he; exact .kept hw hd (Bool.eq_false_iff.mpr he)
  · rename_i c calls hw
    unfold Naming.settle
    cases hd : s.naming.cache.decision? c.key with
    | some d => exact .known hw hd
    | none => exact .decided hw hd
  · rename_i hfalse htrue
    refine .pass fun w hw => ?_
    obtain ⟨calls, missed⟩ := w
    cases calls with
    | nil => rfl
    | cons c calls =>
      cases missed with
      | false => exact absurd hw (hfalse c calls)
      | true => exact absurd hw (htrue c calls)

/-- What every step keeps, a schedule keeps. -/
theorem run_induct {P : Crew σ → Prop} (hstep : ∀ {s t : Crew σ} {i : Nat}, s.Step i t → P s → P t) :
    ∀ (schedule : List Nat) {s : Crew σ}, P s → P (s.run schedule)
  | [], _, h => h
  | i :: schedule, s, h => run_induct hstep schedule (hstep (s.step_turn i) h)

theorem run_append (s : Crew σ) (before after : List Nat) : s.run (before ++ after) = (s.run before).run after :=
  List.foldl_append

/-- The steps of one call with no other worker in between, one or two of them, are a plain call. -/
theorem run_alone {c : Call σ} {calls : List (Call σ)} (hw : s.workers[i]? = some ⟨c :: calls, false⟩) :
    ∃ schedule, (schedule = [i] ∨ schedule = [i, i]) ∧ s.run schedule =
      { s with naming := (s.naming.resolve (c.policy.recorded c.key) c.enabled c.key c.name).2 }.reply i c calls
        (s.naming.resolve (c.policy.recorded c.key) c.enabled c.key c.name).1 := by
  have hlt := (List.getElem?_eq_some_iff.mp hw).1
  cases hd : s.naming.cache.decision? c.key with
  | some d =>
    refine ⟨[i], .inl rfl, ?_⟩
    simp only [run, List.foldl_cons, List.foldl_nil, turn, hw, Naming.resolve, hd]
  | none =>
    cases he : c.enabled with
    | false =>
      refine ⟨[i], .inl rfl, ?_⟩
      simp [run, turn, hw, Naming.resolve, hd, he]
    | true =>
      -- the second step finds the worker where the first has left it, and still no decision
      have hmissed : s.turn i = { s with workers := s.workers.set i ⟨c :: calls, true⟩ } := by
        simp [turn, hw, hd, he]
      have hnow : (s.workers.set i ⟨c :: calls, true⟩)[i]? = some ⟨c :: calls, true⟩ := List.getElem?_set_self hlt
      refine ⟨[i, i], .inr rfl, ?_⟩
      simp only [run, List.foldl_cons, List.foldl_nil, hmissed]
      simp only [turn, hnow, Naming.settle, Naming.resolve, hd, ite_true, reply, List.set_set]

/-! ## Decisions -/

/-- Only where a policy is asked are there new decisions, and then one about a class that had none. -/
theorem Step.decision?_eq (h : s.Step i t) : (t.naming = s.naming) ∨
    ∃ c calls, s.workers[i]? = some ⟨c :: calls, true⟩ ∧ s.decision? c.key = none ∧
      t.naming = (s.naming.decide (c.policy.recorded c.key) c.key c.name).2 ∧
      ∀ key, t.decision? key = if key = c.key then some (s.naming.decide (c.policy.recorded c.key) c.key c.name).1
        else s.decision? key := by
  cases h with
  | pass => exact .inl rfl
  | known => exact .inl rfl
  | kept => exact .inl rfl
  | missed => exact .inl rfl
  | @decided c calls hw hd =>
    exact .inr ⟨c, calls, hw, hd, rfl, fun key => Naming.decision?_decide _ s.naming c.key c.name key hd⟩

theorem Step.decision?_kept (h : s.Step i t) {key : String} {d : Option String} (hd : s.decision? key = some d) :
    t.decision? key = some d := by
  rcases h.decision?_eq with he | ⟨c, calls, _, hnone, _, hkey⟩
  · rw [decision?, he]; exact hd
  · have hne : key ≠ c.key := by rintro rfl; rw [hd] at hnone; cases hnone
    rw [hkey, if_neg hne, hd]

theorem run_decision? (schedule : List Nat) {key : String} {d : Option String} (hd : s.decision? key = some d) :
    (s.run schedule).decision? key = some d :=
  run_induct (P := fun s => s.decision? key = some d) (fun h hd => h.decision?_kept hd) schedule hd

/-- What was asked about a class, and what is decided about it: nothing, so that it is as it was before; or whether to
replace the name and, if so, by what, in which case it had no decision before. -/
inductive Settled (cache : RenameCache) (s : Crew σ) (key : String) : Prop
  | unasked (ha : s.asked key = []) (hd : s.decision? key = cache.decision? key)
  | declined {name : String} (ha : s.asked key = [.shouldRename key name false]) (hn : cache.decision? key = none)
      (hd : s.decision? key = some none)
  | renamed {name fresh : String} (ha : s.asked key = [.shouldRename key name true, .nextClassName key name fresh])
      (hn : cache.decision? key = none) (hd : s.decision? key = some (some fresh))

theorem Step.settled (h : s.Step i t) (hs : ∀ key, s.Settled cache key) (key : String) : t.Settled cache key := by
  rcases h.decision?_eq with he | ⟨c, calls, _, hnone, hnaming, hkey⟩
  · have hasked : t.asked key = s.asked key := by rw [asked, he]; rfl
    have hdecision : t.decision? key = s.decision? key := by rw [decision?, he]; rfl
    cases hs key with
    | unasked ha hd => exact .unasked (hasked.trans ha) (hdecision.trans hd)
    | declined ha hn hd => exact .declined (hasked.trans ha) hn (hdecision.trans hd)
    | renamed ha hn hd => exact .renamed (hasked.trans ha) hn (hdecision.trans hd)
  · have hdecision := hkey key
    have hasked : t.asked key =
        (s.naming.decide (c.policy.recorded c.key) c.key c.name).2.names.2.filter (·.key == key) := by
      rw [asked, hnaming]
    have hquestions := s.naming.questions_decide c.policy c.key c.name
    by_cases hk : key = c.key
    · -- the class has no decision yet, so that nothing was asked about it before
      subst hk
      rw [if_pos rfl] at hdecision
      cases hs c.key with
      | declined _ _ hd => rw [hd] at hnone; cases hnone
      | renamed _ _ hd => rw [hd] at hnone; cases hnone
      | unasked ha hd =>
        rw [hnone] at hd
        unfold asked at ha
        rcases hquestions with ⟨hanswer, hq⟩ | ⟨fresh, hanswer, hq⟩
        · have hone : t.asked c.key = [.shouldRename c.key c.name false] := by
            rw [hasked, hq, List.filter_append, ha]
            simp [Question.key]
          exact .declined hone hd.symm (by rw [hdecision, hanswer])
        · have hboth : t.asked c.key = [.shouldRename c.key c.name true, .nextClassName c.key c.name fresh] := by
            rw [hasked, hq, List.filter_append, ha]
            simp [Question.key]
          exact .renamed hboth hd.symm (by rw [hdecision, hanswer])
    · rw [if_neg hk] at hdecision
      have hsame : t.asked key = s.asked key := by
        rw [hasked, asked]
        rcases hquestions with ⟨_, hq⟩ | ⟨fresh, _, hq⟩ <;>
          simp [hq, List.filter_append, Question.key, Ne.symm hk]
      cases hs key with
      | unasked ha hd => exact .unasked (hsame.trans ha) (hdecision.trans hd)
      | declined ha hn hd => exact .declined (hsame.trans ha) hn (hdecision.trans hd)
      | renamed ha hn hd => exact .renamed (hsame.trans ha) hn (hdecision.trans hd)

theorem run_settled (schedule : List Nat) (hs : ∀ key, s.Settled cache key) (key : String) :
    (s.run schedule).Settled cache key :=
  run_induct (P := fun s => ∀ key, s.Settled cache key) (fun h hs => h.settled hs) schedule hs key

/-! ## Calls in turn -/

/-- The calls of worker `i`: those with a reply, in the order of the replies, and those without. -/
def program (s : Crew σ) (i : Nat) : List (Call σ) :=
  (s.replies.filter (·.worker == i)).map (·.call) ++ ((s.workers[i]?).map (·.calls)).getD []

theorem program_reply {c : Call σ} {calls : List (Call σ)} {missed : Bool}
    (hw : s.workers[i]? = some ⟨c :: calls, missed⟩) (name : String) (j : Nat) :
    (s.reply i c calls name).program j = s.program j := by
  obtain ⟨hlt, hget⟩ := List.getElem?_eq_some_iff.mp hw
  unfold program reply
  by_cases hij : i = j
  · subst hij
    simp [hlt, hget, List.filter_append]
  · simp [hij, List.filter_append, List.getElem?_set_ne hij]

theorem Step.program_eq (h : s.Step i t) (j : Nat) : t.program j = s.program j := by
  cases h with
  | pass => rfl
  | known hw => exact program_reply hw _ j
  | kept hw => exact program_reply hw _ j
  | @missed c calls hw =>
    obtain ⟨hlt, hget⟩ := List.getElem?_eq_some_iff.mp hw
    unfold program
    by_cases hij : i = j
    · subst hij; simp [hlt, hget]
    · simp [List.getElem?_set_ne hij]
  | decided hw =>
    apply program_reply
    exact hw

theorem program_start (i : Nat) : (start cache names programs).program i = (programs[i]?).getD [] := by
  unfold program start
  simp only [List.filter_nil, List.map_nil, List.nil_append, List.getElem?_map, Option.map_map]
  cases programs[i]? <;> rfl

/-- The turns that a worker still needs: two for each call, or one if the first of them was taken. -/
def Worker.turns (w : Worker σ) : Nat := 2 * w.calls.length - if w.missed then 1 else 0

/-- The turns that worker `i` still needs. -/
def turns (s : Crew σ) (i : Nat) : Nat := ((s.workers[i]?).map Worker.turns).getD 0

theorem turns_reply {c : Call σ} {calls : List (Call σ)} {missed : Bool}
    (hw : s.workers[i]? = some ⟨c :: calls, missed⟩) (name : String) (j : Nat) :
    (s.reply i c calls name).turns j ≤ s.turns j - if j = i then 1 else 0 := by
  obtain ⟨hlt, hget⟩ := List.getElem?_eq_some_iff.mp hw
  unfold turns reply
  by_cases hij : j = i
  · subst hij
    cases missed <;> simp [hlt, hget, Worker.turns] <;> omega
  · simp [hij, List.getElem?_set_ne (Ne.symm hij)]

theorem Step.turns_le (h : s.Step i t) (j : Nat) : t.turns j ≤ s.turns j - if j = i then 1 else 0 := by
  cases h with
  | pass h =>
    split
    · rename_i hij
      subst hij
      unfold turns
      cases hw : s.workers[j]? with
      | none => exact Nat.le_refl _
      | some w => simp [Worker.turns, h w hw]
    · exact Nat.le_refl _
  | known hw => exact turns_reply hw _ j
  | kept hw => exact turns_reply hw _ j
  | @missed c calls hw =>
    obtain ⟨hlt, hget⟩ := List.getElem?_eq_some_iff.mp hw
    unfold turns
    by_cases hij : j = i
    · subst hij; simp [hlt, hget, Worker.turns]
    · simp [hij, List.getElem?_set_ne (Ne.symm hij)]
  | decided hw =>
    apply turns_reply
    exact hw

/-- Each turn brings a worker nearer to its end. -/
theorem run_turns : ∀ (schedule : List Nat) (s : Crew σ) (i : Nat),
    (s.run schedule).turns i ≤ s.turns i - schedule.count i
  | [], s, i => by simp [run]
  | j :: schedule, s, i => by
    have hone := (s.step_turn j).turns_le i
    have hrest := run_turns schedule (s.turn j) i
    rw [List.count_cons]
    have hrun : s.run (j :: schedule) = (s.turn j).run schedule := rfl
    rw [hrun]
    by_cases hij : i = j
    · subst hij; simp at hone ⊢; omega
    · simp [hij, Ne.symm hij] at hone ⊢; omega

theorem turns_start (i : Nat) : (start cache names programs).turns i = 2 * ((programs[i]?).getD []).length := by
  unfold turns start
  simp only [List.getElem?_map, Option.map_map]
  cases programs[i]? <;> rfl

/-- A worker that needs no more turns has a reply to each of its calls. -/
theorem program_of_turns (h : s.turns i = 0) : s.program i = (s.replies.filter (·.worker == i)).map (·.call) := by
  unfold turns at h
  unfold program
  cases hw : s.workers[i]? with
  | none => simp
  | some w =>
    rw [hw] at h
    obtain ⟨calls, missed⟩ := w
    cases calls with
    | nil => simp
    | cons c calls =>
      cases missed with
      | false => simp [Worker.turns] at h
      | true => simp [Worker.turns] at h; omega

/-! ## Replies -/

/-- The simple name in the reply is what the decision says. -/
def Agrees (s : Crew σ) (r : Reply σ) : Prop :=
  ∃ d, s.decision? r.call.key = some d ∧ r.name = d.getD r.call.name

theorem Step.agrees (h : s.Step i t) {r : Reply σ} (hr : s.Agrees r) : t.Agrees r := by
  obtain ⟨d, hd, hname⟩ := hr
  exact ⟨d, h.decision?_kept hd, hname⟩

/-- Only calls with renaming on go on to take a decision. -/
def Eager (s : Crew σ) : Prop :=
  ∀ (i : Nat) (c : Call σ) (calls : List (Call σ)), s.workers[i]? = some ⟨c :: calls, true⟩ → c.enabled = true

theorem eager_reply (h : s.Eager) (i : Nat) (c : Call σ) (calls : List (Call σ)) (name : String) :
    (s.reply i c calls name).Eager := by
  intro j d rest hw
  unfold reply at hw
  rw [List.getElem?_set] at hw
  split at hw
  · split at hw
    · cases hw
    · cases hw
  · exact h j d rest hw

theorem Step.eager (h : s.Step i t) (hs : s.Eager) : t.Eager := by
  cases h with
  | pass => exact hs
  | known => exact eager_reply hs _ _ _ _
  | kept => exact eager_reply hs _ _ _ _
  | @missed c calls hw hd he =>
    intro j d rest hj
    rw [List.getElem?_set] at hj
    split at hj
    · split at hj
      · cases hj; exact he
      · cases hj
    · exact hs j d rest hj
  | decided =>
    refine eager_reply ?_ _ _ _ _
    exact hs

theorem eager_start : (start cache names programs).Eager := by
  intro i c calls hw
  simp only [start, List.getElem?_map, Option.map_eq_some_iff] at hw
  obtain ⟨_, _, hw⟩ := hw
  cases hw

/-- The reply of a step agrees with the decision; only without one, and with renaming off, the name is kept. -/
theorem Step.replies_eq (h : s.Step i t) : t.replies = s.replies ∨
    ∃ r, t.replies = s.replies ++ [r] ∧
      (t.Agrees r ∨ (s.decision? r.call.key = none ∧ r.call.enabled = false ∧ r.name = r.call.name)) := by
  cases h with
  | pass => exact .inl rfl
  | @known c calls _ d hw hd => exact .inr ⟨⟨i, c, d.getD c.name⟩, rfl, .inl ⟨d, hd, rfl⟩⟩
  | @kept c calls hw hd he => exact .inr ⟨⟨i, c, c.name⟩, rfl, .inr ⟨hd, he, rfl⟩⟩
  | missed => exact .inl rfl
  | @decided c calls hw hd =>
    refine .inr ⟨⟨i, c, _⟩, rfl, .inl ⟨_, ?_, rfl⟩⟩
    have hnow := Naming.decision?_decide (c.policy.recorded c.key) s.naming c.key c.name c.key hd
    rw [if_pos rfl] at hnow
    exact hnow

/-- Every reply to a call with renaming on agrees with the decision. -/
theorem run_agrees (schedule : List Nat) (h : ∀ r ∈ s.replies, r.call.enabled = true → s.Agrees r) :
    ∀ r ∈ (s.run schedule).replies, r.call.enabled = true → (s.run schedule).Agrees r := by
  refine run_induct (P := fun s => ∀ r ∈ s.replies, r.call.enabled = true → s.Agrees r) ?_ schedule h
  intro s t i hstep hs r hr he
  rcases hstep.replies_eq with heq | ⟨r', heq, hr'⟩
  · exact hstep.agrees (hs r (heq ▸ hr) he)
  · rw [heq, List.mem_append, List.mem_singleton] at hr
    rcases hr with hr | rfl
    · exact hstep.agrees (hs r hr he)
    · exact hr'.resolve_right fun ⟨_, hoff, _⟩ => by rw [hoff] at he; cases he

/-- Every reply from now on agrees with a decision that there is now. -/
theorem run_later : ∀ (schedule : List Nat) (s : Crew σ), ∃ later, (s.run schedule).replies = s.replies ++ later ∧
    ∀ r ∈ later, ∀ {d}, s.decision? r.call.key = some d → r.name = d.getD r.call.name
  | [], s => ⟨[], by simp [run], by simp⟩
  | i :: schedule, s => by
    have hstep := s.step_turn i
    obtain ⟨later, hlater, hall⟩ := run_later schedule (s.turn i)
    have hrun : s.run (i :: schedule) = (s.turn i).run schedule := rfl
    rw [hrun, hlater]
    rcases hstep.replies_eq with heq | ⟨r, heq, hr⟩
    · exact ⟨later, by rw [heq], fun r hr d hd => hall r hr (hstep.decision?_kept hd)⟩
    · refine ⟨r :: later, by rw [heq, List.append_assoc]; rfl, ?_⟩
      intro r' hr' d hd
      rcases List.mem_cons.mp hr' with rfl | hr'
      · rcases hr with ⟨d', hd', hname⟩ | ⟨hnone, _⟩
        · rw [hstep.decision?_kept hd] at hd'
          cases hd'
          exact hname
        · rw [hd] at hnone; cases hnone
      · exact hall r' hr' (hstep.decision?_kept hd)

/-- A step of a call with renaming off leaves the decisions, and the policies, as they are. -/
theorem naming_turn_of_disabled (hs : s.Eager) {c : Call σ} {calls : List (Call σ)} {missed : Bool}
    (hw : s.workers[i]? = some ⟨c :: calls, missed⟩) (he : c.enabled = false) : (s.turn i).naming = s.naming := by
  rcases (s.step_turn i).decision?_eq with h | ⟨d, rest, hd, _⟩
  · exact h
  · rw [hw] at hd
    cases hd
    rw [hs _ _ _ hw] at he
    cases he

/-! ## All schedules -/

/-- However the steps of the workers are interleaved: policies are asked at most once about a class, and for a
replacement only after the answer that there has to be one; decisions stay; calls with renaming on, and all calls with a
reply after there is a decision, are given what it says; calls with renaming off change nothing; and every worker gets
its replies, in the order of its calls, given two turns for each. -/
theorem resolve_interleaved {σ : Type} (cache : RenameCache) (names : σ) (programs : List (List (Call σ)))
    (before after : List Nat) :
    let s := (start cache names programs).run before
    let t := s.run after
    (∀ key, t.Settled cache key) ∧
    (∀ {key d}, s.decision? key = some d → t.decision? key = some d) ∧
    (∀ r ∈ t.replies, r.call.enabled = true → t.Agrees r) ∧
    (∃ later, t.replies = s.replies ++ later ∧
      ∀ r ∈ later, ∀ {d}, s.decision? r.call.key = some d → r.name = d.getD r.call.name) ∧
    (∀ {i c calls missed}, t.workers[i]? = some ⟨c :: calls, missed⟩ → c.enabled = false →
      (t.turn i).naming = t.naming) ∧
    (∀ {i calls}, programs[i]? = some calls → t.program i = calls ∧
      (2 * calls.length ≤ (before ++ after).count i → (t.replies.filter (·.worker == i)).map (·.call) = calls)) := by
  intro s t
  have ht : t = (start cache names programs).run (before ++ after) := (run_append _ before after).symm
  refine ⟨?_, fun hd => run_decision? after hd, ?_, run_later after s, ?_, ?_⟩
  · intro key
    rw [ht]
    exact run_settled (s := start cache names programs) _ (fun key => .unasked rfl rfl) key
  · rw [ht]
    exact run_agrees _ (by simp [start])
  · intro i c calls missed hw he
    have heager : t.Eager := by
      rw [ht]
      exact run_induct (P := Eager) (fun h hs => h.eager hs) (before ++ after) eager_start
    exact naming_turn_of_disabled heager hw he
  · intro i calls hi
    have hprogram : t.program i = calls := by
      rw [ht]
      refine run_induct (P := fun s => s.program i = calls) (fun h hs => (h.program_eq i).trans hs) _ ?_
      rw [program_start, hi]
      rfl
    refine ⟨hprogram, fun hcount => ?_⟩
    have hturns := run_turns (before ++ after) (start cache names programs) i
    rw [turns_start, hi, ← ht] at hturns
    rw [← program_of_turns (Nat.le_zero.mp (Nat.le_trans hturns (Nat.sub_le_of_le_add (by simpa using hcount))))]
    exact hprogram

-- two workers that both miss: the first one asks, the second finds the decision and asks nothing
example :
    let c : Call Convention.Names := ⟨Convention.policy, true, "app/A$do", "do"⟩
    let t := (start {} {} [[c], [c]]).run [0, 1, 0, 1]
    t.replies.map (·.name) = ["class_0", "class_0"] ∧
      t.asked "app/A$do" = [.shouldRename "app/A$do" "do" true, .nextClassName "app/A$do" "do" "class_0"] := by
  decide +kernel

end Crew
end ClassNest
