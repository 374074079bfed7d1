import ClassNest.ClassFile.Script
import ClassNest.Handlers.Table
import ClassNest.Proofs.Pool
import Mathlib.Data.List.Forall2

/-!
# Reading a class back

A draft turns names into indices of a pool that goes on growing, and decoding turns the indices into names again.
`Draft.Accounts` says what a draft holds of what it was asked for: as long as all entries fit into the pool, the pool
consists of them, without repeats, and every stored index leads to the name it was made for. Entering one more entry
keeps this (`Draft.Accounts.enter`), and so does every step. So a script can be written just if it asks for at most
65535 different entries, and decoding what was written gives back what the script says (`finish_ofSteps`).
-/
namespace ClassNest

/-! ## What stored indices stand for -/

section
variable {p q : Pool}

theorem InnerEntry.decode_eq_ok {self : String} {e : InnerEntry} {r : NestedRecord} : e.decode p self = .ok r ↔
    ∃ inner outer simple, p.className e.inner = .ok inner ∧ Pool.resolve? p.className e.outer = .ok outer ∧
      Pool.resolve? p.utf8 e.name = .ok simple ∧
      r = ⟨inner, simple, .classify outer.isSome simple.isSome, e.access, outer.getD self⟩ := by
  unfold decode
  cases p.className e.inner with
  | error fault => simp [bind, Except.bind]
  | ok inner =>
    cases Pool.resolve? p.className e.outer with
    | error fault => simp [bind, Except.bind]
    | ok outer =>
      cases Pool.resolve? p.utf8 e.name with
      | error fault => simp [bind, Except.bind]
      | ok simple => simp [bind, Except.bind, pure, Except.pure, eq_comm]

theorem InnerEntry.decode_mono (h : p.entries <+: q.entries) {self : String} {e : InnerEntry} {r : NestedRecord}
    (hr : e.decode p self = .ok r) : e.decode q self = .ok r := by
  obtain ⟨inner, outer, simple, hi, ho, hs, rfl⟩ := decode_eq_ok.mp hr
  exact decode_eq_ok.mpr ⟨inner, outer, simple, Pool.className_mono h hi, Pool.resolve?_mono (Pool.className_mono h) ho,
    Pool.resolve?_mono (Pool.utf8_mono h) hs, rfl⟩

/-- The entry holds the lines of the handler, and its index leads to the type. -/
structure CatchEntry.Holds (p : Pool) (e : CatchEntry) (h : Handler) : Prop where
  start : e.start = h.start
  stop : e.stop = h.stop
  handler : e.handler = h.handler
  type : Pool.resolve? p.className e.catchType = .ok h.type

theorem CatchEntry.Holds.mono (hpq : p.entries <+: q.entries) {e : CatchEntry} {h : Handler} (he : e.Holds p h) :
    e.Holds q h :=
  { he with type := Pool.resolve?_mono (Pool.className_mono hpq) he.type }

/-- The method is as it was drafted. -/
structure Method.Holds (p : Pool) (m : Method) (d : MethodDraft) : Prop where
  name : m.name = d.name
  descriptor : m.descriptor = d.descriptor
  access : m.access = d.access
  catches : List.Forall₂ (CatchEntry.Holds p) m.catches d.handlers

theorem Method.Holds.mono (hpq : p.entries <+: q.entries) {m : Method} {d : MethodDraft} (hm : m.Holds p d) :
    m.Holds q d :=
  { hm with catches := hm.catches.imp fun _ _ he => he.mono hpq }

end

/-! ## What a draft holds -/

namespace Draft

/-- What a draft of the class `owner` holds after it was asked for some pool entries, nested classes and methods. -/
structure Accounts (d : Draft) (owner : String) (asked : List PoolEntry) (records : List NestedRecord)
    (methods : List MethodDraft) : Prop where
  name : d.result.name = owner
  fault : d.fault = if asked.eraseDups.length ≤ lastPoolIndex then none else some .full
  pool : d.fault = none → d.result.pool.entries = asked.eraseDups
  inner : d.fault = none → List.Forall₂ (fun e r => e.decode d.result.pool owner = .ok r) d.result.innerClasses records
  methods : d.fault = none → List.Forall₂ (Method.Holds d.result.pool) d.result.methods methods

section
variable {d : Draft} {owner : String} {asked : List PoolEntry} {records : List NestedRecord} {drafts : List MethodDraft}

theorem enter_of_ok {e : PoolEntry} {made : Pool × UInt16} (h : d.result.pool.intern e = .ok made) :
    d.enter e = ({ d with result := { d.result with pool := made.1 } }, made.2) := by
  unfold enter
  rw [h]

theorem enter_of_error {e : PoolEntry} {fault : PoolFault} (h : d.result.pool.intern e = .error fault) :
    d.enter e = ({ d with fault := some (d.fault.getD fault) }, 0) := by
  unfold enter
  rw [h]

/-- The first fault stays. -/
theorem fault_enter {fault : PoolFault} (h : d.fault = some fault) (e : PoolEntry) :
    (d.enter e).1.fault = some fault := by
  cases hi : d.result.pool.intern e with
  | ok made => rw [enter_of_ok hi]; exact h
  | error other => rw [enter_of_error hi, h]; rfl

theorem name_enter (d : Draft) (e : PoolEntry) : (d.enter e).1.result.name = d.result.name := by
  cases hi : d.result.pool.intern e with
  | ok made => rw [enter_of_ok hi]
  | error other => rw [enter_of_error hi]

/-- One more entry: where there is still no fault, the pool has grown and the index leads to the entry. -/
theorem Accounts.enter (a : d.Accounts owner asked records drafts) (e : PoolEntry) :
    (d.enter e).1.Accounts owner (asked ++ [e]) records drafts ∧
    ((d.enter e).1.fault = none → d.result.pool.entries <+: (d.enter e).1.result.pool.entries ∧
      (d.enter e).1.result.pool.entry (d.enter e).2 = .ok e) := by
  have hgrow : asked.eraseDups.length ≤ (asked ++ [e]).eraseDups.length := by
    rw [eraseDups_concat]
    exact (prefix_pushNew _ e).length_le
  by_cases hroom : asked.eraseDups.length ≤ lastPoolIndex
  · have hnone : d.fault = none := by rw [a.fault, if_pos hroom]
    have hpool := a.pool hnone
    have hgrown := prefix_pushNew d.result.pool.entries e
    have hmore : pushNew d.result.pool.entries e = (asked ++ [e]).eraseDups := by rw [hpool, eraseDups_concat]
    have hsize : d.result.pool.size ≤ lastPoolIndex := by rw [Pool.size, hpool]; exact hroom
    rcases d.result.pool.intern_cases hsize e with ⟨i, hi, hentry, hlen⟩ | ⟨hfull, hlen⟩
    · rw [enter_of_ok hi]
      refine ⟨⟨a.name, ?_, fun _ => hmore, fun h => ?_, fun h => ?_⟩, fun _ => ⟨hgrown, hentry⟩⟩
      · rw [if_pos (by rw [← hmore]; exact hlen)]
        exact hnone
      · exact (a.inner h).imp fun _ _ => InnerEntry.decode_mono hgrown
      · exact (a.methods h).imp fun _ _ hm => hm.mono hgrown
    · have hover : ¬ (asked ++ [e]).eraseDups.length ≤ lastPoolIndex := by rw [← hmore]; exact Nat.not_le.mpr hlen
      rw [enter_of_error hfull, hnone]
      refine ⟨⟨a.name, (if_neg hover).symm, ?_, ?_, ?_⟩, ?_⟩
      all_goals
        intro h
        cases h
  · have hfull : (d.enter e).1.fault = some .full := fault_enter (by rw [a.fault, if_neg hroom]) e
    have hover : ¬ (asked ++ [e]).eraseDups.length ≤ lastPoolIndex := fun h => hroom (Nat.le_trans hgrow h)
    rw [hfull]
    refine ⟨⟨(d.name_enter e).trans a.name, ?_, ?_, ?_, ?_⟩, fun h => absurd h (Option.some_ne_none _)⟩
    · rw [hfull, if_neg hover]
    all_goals
      intro h
      rw [hfull] at h
      cases h

theorem Accounts.enter? (a : d.Accounts owner asked records drafts) (e : Option PoolEntry) :
    (d.enter? e).1.Accounts owner (asked ++ e.toList) records drafts ∧
    ((d.enter? e).1.fault = none → d.result.pool.entries <+: (d.enter? e).1.result.pool.entries ∧
      (d.enter? e).1.result.pool.Leads (d.enter? e).2 e) := by
  cases e with
  | none =>
    rw [Option.toList_none, List.append_nil]
    exact ⟨a, fun _ => ⟨List.prefix_rfl, rfl⟩⟩
  | some x => exact a.enter x

/-! ## Steps -/

theorem fault_of_enter? {e : Option PoolEntry} (h : (d.enter? e).1.fault = none) : d.fault = none := by
  cases hd : d.fault with
  | none => rfl
  | some fault =>
    cases e with
    | none => rw [← hd]; exact h
    | some x => rw [enter?, fault_enter hd x] at h; cases h

theorem Accounts.addInnerEntry (a : d.Accounts owner asked records drafts) {e : InnerEntry} {r : NestedRecord}
    (h : d.fault = none → e.decode d.result.pool owner = .ok r) :
    (d.addInnerEntry e).Accounts owner asked (records ++ [r]) drafts :=
  { a with inner := fun hnone => List.rel_append (a.inner hnone) (.cons (h hnone) .nil) }

theorem Accounts.addInner (a : d.Accounts owner asked records drafts) (nested : String) (outer simple : Option String)
    (flags : Access) : (d.addInner nested outer simple flags).Accounts owner
      (asked ++ (Step.inner nested outer simple flags).requests)
      (records ++ [⟨nested, simple, .classify outer.isSome simple.isSome, flags, outer.getD owner⟩]) drafts := by
  obtain ⟨a₁, h₁⟩ := a.enter (.className nested)
  obtain ⟨a₂, h₂⟩ := a₁.enter? (outer.map .className)
  obtain ⟨a₃, h₃⟩ := a₂.enter? (simple.map .utf8)
  simp only [Step.requests]
  rw [List.append_assoc, List.append_assoc] at a₃
  refine a₃.addInnerEntry fun hnone => ?_
  -- all three indices were made, and the pool has only grown since
  obtain ⟨hgrown₃, hsimple⟩ := h₃ hnone
  have hnone₂ := fault_of_enter? hnone
  obtain ⟨hgrown₂, houter⟩ := h₂ hnone₂
  obtain ⟨_, hnested⟩ := h₁ (fault_of_enter? hnone₂)
  refine InnerEntry.decode_eq_ok.mpr ⟨nested, outer, simple, ?_, ?_, hsimple.utf8, rfl⟩
  · exact Pool.className_mono (hgrown₂.trans hgrown₃) (Pool.className_eq_ok.mpr hnested)
  · exact Pool.resolve?_mono (Pool.className_mono hgrown₃) houter.className

/-- The catch types of handlers, one after the other. -/
theorem Accounts.enterHandlers : ∀ (hs : List Handler) {d : Draft} {asked : List PoolEntry},
    d.Accounts owner asked records drafts →
    (d.enterHandlers hs).1.Accounts owner (asked ++ hs.filterMap fun h => h.type.map .className) records drafts ∧
    ((d.enterHandlers hs).1.fault = none → d.fault = none ∧
      d.result.pool.entries <+: (d.enterHandlers hs).1.result.pool.entries ∧
      List.Forall₂ (CatchEntry.Holds (d.enterHandlers hs).1.result.pool) (d.enterHandlers hs).2 hs)
  | [], d, asked, a => by
    rw [List.filterMap_nil, List.append_nil]
    exact ⟨a, fun hnone => ⟨hnone, List.prefix_rfl, .nil⟩⟩
  | h :: hs, d, asked, a => by
    obtain ⟨a₁, h₁⟩ := a.enter? (h.type.map .className)
    obtain ⟨a₂, h₂⟩ := Accounts.enterHandlers hs a₁
    have hasked : asked ++ (h :: hs).filterMap (fun h => h.type.map PoolEntry.className) =
        asked ++ (h.type.map PoolEntry.className).toList ++ hs.filterMap fun h => h.type.map .className := by
      cases ht : h.type <;> simp [ht]
    rw [hasked]
    refine ⟨a₂, fun hnone => ?_⟩
    obtain ⟨hnone₁, hgrown₂, hrest⟩ := h₂ hnone
    obtain ⟨hgrown₁, htype⟩ := h₁ hnone₁
    refine ⟨fault_of_enter? hnone₁, hgrown₁.trans hgrown₂, .cons ⟨rfl, rfl, rfl, ?_⟩ hrest⟩
    exact Pool.resolve?_mono (Pool.className_mono hgrown₂) htype.className

theorem Accounts.addMethod (a : d.Accounts owner asked records drafts) (m : MethodDraft) :
    (d.addMethod m.name m.descriptor m.access m.handlers).Accounts owner (asked ++ (Step.method m).requests) records
      (drafts ++ [m]) := by
  obtain ⟨a₁, h₁⟩ := a.enterHandlers m.handlers
  exact { a₁ with
    methods := fun hnone =>
      List.rel_append (a₁.methods hnone) (.cons ⟨rfl, rfl, rfl, (h₁ hnone).2.2⟩ .nil) }

theorem Accounts.idle (a : d.Accounts owner asked records drafts) :
    d.Accounts owner (asked ++ []) (records ++ []) (drafts ++ []) := by
  simp only [List.append_nil]
  exact a

/-- Every step adds to what the draft holds what it says. -/
theorem Accounts.take (a : d.Accounts owner asked records drafts) (step : Step) :
    (d.take step).Accounts owner (asked ++ step.requests) (records ++ (step.record? owner).toList)
      (drafts ++ step.method?.toList) := by
  cases step with
  | inner nested outer simple flags =>
    have added := a.addInner nested outer simple flags
    rw [← List.append_nil drafts] at added
    exact added
  | method m =>
    have added := a.addMethod m
    rw [← List.append_nil records] at added
    exact added
  | own own => exact { a.idle with }
  | access flags => exact { a.idle with }
  | superClass name => exact { a.idle with }
  | interface name => exact { a.idle with }
  | enclosing owner method => exact { a.idle with }

theorem accounts_new (name : String) : (Draft.new name).Accounts name [.className name] [] [] :=
  have start : Draft.Accounts
      ⟨{ name := name, access := .publicBit, superClass := some rootClassName, own := true }, none⟩ name [] [] [] :=
    ⟨rfl, rfl, fun _ => rfl, fun _ => .nil, fun _ => .nil⟩
  (start.enter (.className name)).1

theorem Accounts.foldl : ∀ (steps : List Step) {d : Draft} {asked : List PoolEntry} {records : List NestedRecord}
    {drafts : List MethodDraft}, d.Accounts owner asked records drafts →
    (steps.foldl Draft.take d).Accounts owner (asked ++ steps.flatMap (·.requests))
      (records ++ steps.filterMap (·.record? owner)) (drafts ++ steps.filterMap (·.method?))
  | [], _, _, _, _, a => a.idle
  | step :: steps, d, asked, records, drafts, a => by
    have rest := Accounts.foldl steps (a.take step)
    have hcons : ∀ {α : Type} (f : Step → Option α), (step :: steps).filterMap f =
        (f step).toList ++ steps.filterMap f := by
      intro α f
      cases hf : f step <;> simp [hf]
    rw [List.flatMap_cons, hcons, hcons, ← List.append_assoc, ← List.append_assoc, ← List.append_assoc]
    exact rest

theorem accounts_ofSteps (name : String) (steps : List Step) :
    (ofSteps name steps).Accounts name (requested name steps) (declared name steps) (methods steps) :=
  (accounts_new name).foldl steps

end
end Draft

/-! ## Decoding -/

section
variable {p : Pool}

theorem ClassFile.decodeFrom_of_forall₂ {c : ClassFile} {name : String} (hname : c.name = name)
    {es : List InnerEntry} {rs : List NestedRecord}
    (h : List.Forall₂ (fun e r => e.decode c.pool name = .ok r) es rs) (position : Nat) :
    c.decodeFrom position es = .ok (rs.filter fun r => r.inner ≠ r.enclosing) := by
  induction h generalizing position with
  | nil => rfl
  | @cons e r es rs he _ ih =>
    simp only [decodeFrom, hname, he, ih (position + 1)]
    by_cases hr : r.inner = r.enclosing
    · simp [NestedRecord.isSelfReference, hr, bind, Except.bind, pure, Except.pure]
    · simp [NestedRecord.isSelfReference, hr, bind, Except.bind, pure, Except.pure]

theorem CatchEntry.Holds.decode {e : CatchEntry} {h : Handler} (he : e.Holds p h) (position : Nat) :
    e.decode p position = if h.stop < h.start then .error (.range position h.start h.stop) else .ok h := by
  unfold CatchEntry.decode
  rw [he.start, he.stop, he.handler, he.type]

/-- A table is decoded to its handlers, unless the range of one ends before it starts. -/
theorem HandlerTable.decodeFrom_of_forall₂ {es : List CatchEntry} {hs : List Handler}
    (h : List.Forall₂ (CatchEntry.Holds p) es hs) (position : Nat) :
    (∀ x ∈ hs, x.start ≤ x.stop) ∧ decodeFrom p position es = .ok hs ∨
    (∃ x ∈ hs, x.stop < x.start) ∧ ∃ fault, decodeFrom p position es = .error fault := by
  induction h generalizing position with
  | nil => exact .inl ⟨by simp, rfl⟩
  | @cons e x es hs he _ ih =>
    by_cases hx : x.stop < x.start
    · refine .inr ⟨⟨x, by simp, hx⟩, .range position x.start x.stop, ?_⟩
      simp [decodeFrom, he.decode, hx, bind, Except.bind]
    · rcases ih (position + 1) with ⟨hall, hok⟩ | ⟨⟨y, hy, hlt⟩, fault, herr⟩
      · refine .inl ⟨?_, ?_⟩
        · intro y hy
          rcases List.mem_cons.mp hy with rfl | hy
          · exact UInt32.not_lt.mp hx
          · exact hall y hy
        · simp [decodeFrom, he.decode, hx, hok, bind, Except.bind, pure, Except.pure]
      · refine .inr ⟨⟨y, List.mem_cons_of_mem _ hy, hlt⟩, fault, ?_⟩
        simp [decodeFrom, he.decode, hx, herr, bind, Except.bind]

/-- A method is read back as it was drafted: with its handlers in order, or with a fault just if the range of one ends
before it starts. -/
structure Method.ReadsBack (p : Pool) (m : Method) (d : MethodDraft) : Prop where
  name : m.name = d.name
  descriptor : m.descriptor = d.descriptor
  access : m.access = d.access
  handlers : (∀ h ∈ d.handlers, h.start ≤ h.stop) → HandlerTable.decode p m.catches = .ok d.handlers
  fault : (∃ fault, HandlerTable.decode p m.catches = .error fault) ↔ ∃ h ∈ d.handlers, h.stop < h.start

theorem Method.Holds.readsBack {m : Method} {d : MethodDraft} (h : m.Holds p d) : m.ReadsBack p d := by
  rcases HandlerTable.decodeFrom_of_forall₂ h.catches 0 with ⟨hall, hok⟩ | ⟨⟨x, hx, hlt⟩, fault, herr⟩
  · refine ⟨h.name, h.descriptor, h.access, fun _ => hok, ?_⟩
    constructor
    · rintro ⟨fault, herr⟩
      rw [HandlerTable.decode, hok] at herr
      cases herr
    · rintro ⟨x, hx, hlt⟩
      exact absurd hlt (UInt32.not_lt.mpr (hall x hx))
  · refine ⟨h.name, h.descriptor, h.access, ?_, ?_⟩
    · intro hall
      exact absurd hlt (UInt32.not_lt.mpr (hall x hx))
    · exact ⟨fun _ => ⟨x, hx, hlt⟩, fun _ => ⟨fault, herr⟩⟩

end

/-- A script cannot be written just if it asks for more than 65535 different pool entries. The class that is written
otherwise declares what the script says of nested classes, apart from those said to be nested in themselves, and its
methods are read back with the handlers that the script gives them. -/
theorem finish_ofSteps (name : String) (steps : List Draft.Step) :
    ((∃ fault, (Draft.ofSteps name steps).finish = .error fault) ↔
      65535 < (Draft.requested name steps).eraseDups.length) ∧
    ((Draft.requested name steps).eraseDups.length ≤ 65535 →
      ∃ c, (Draft.ofSteps name steps).finish = .ok c ∧
        c.nestedRecords = .ok ((Draft.declared name steps).filter fun r => r.inner ≠ r.enclosing) ∧
        List.Forall₂ (Method.ReadsBack c.pool) c.methods (Draft.methods steps)) := by
  have a := Draft.accounts_ofSteps name steps
  by_cases hroom : (Draft.requested name steps).eraseDups.length ≤ lastPoolIndex
  · have hnone : (Draft.ofSteps name steps).fault = none := by rw [a.fault, if_pos hroom]
    have hok : (Draft.ofSteps name steps).finish = .ok (Draft.ofSteps name steps).result := by
      unfold Draft.finish
      rw [hnone]
    refine ⟨?_, fun _ => ⟨_, hok, ?_, (a.methods hnone).imp fun _ _ hm => hm.readsBack⟩⟩
    · rw [hok]
      exact ⟨nofun, fun h => absurd h (Nat.not_lt.mpr hroom)⟩
    · exact ClassFile.decodeFrom_of_forall₂ a.name (a.inner hnone) 0
  · have hfull : (Draft.ofSteps name steps).fault = some .full := by rw [a.fault, if_neg hroom]
    have herr : ∃ fault, (Draft.ofSteps name steps).finish = .error fault := by
      unfold Draft.finish
      rw [hfull]
      exact ⟨_, rfl⟩
    exact ⟨⟨fun _ => Nat.lt_of_not_le hroom, fun _ => herr⟩, fun h => absurd h hroom⟩

/-- A member, an anonymous class, a class nested in itself whose simple name is also the name of a class, and a method
that catches one type and everything. -/
def nestingScript : List Draft.Step :=
  [.inner "app/A$B" (some "app/A") (some "B") .publicBit, .inner "app/A$1" none none .empty,
   .inner "app/A" none (some "app/A") .empty,
   .method { name := "run", descriptor := "()V", handlers := [⟨0, 4, 9, some "app/A$B"⟩, ⟨2, 2, 9, none⟩] }]

theorem finish_ofSteps_nestingScript :
    (Draft.requested "app/A" nestingScript).eraseDups.length ≤ 65535 ∧
    ∃ c, (Draft.ofSteps "app/A" nestingScript).finish = .ok c ∧
      c.nestedRecords = .ok ((Draft.declared "app/A" nestingScript).filter fun r => r.inner ≠ r.enclosing) ∧
      List.Forall₂ (Method.ReadsBack c.pool) c.methods (Draft.methods nestingScript) :=
  ⟨by decide, (finish_ofSteps "app/A" nestingScript).2 (by decide)⟩

end ClassNest
