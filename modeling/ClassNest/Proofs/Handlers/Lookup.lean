import ClassNest.Proofs.Handlers.Subtyping
import ClassNest.Proofs.Pool
import Mathlib.Data.List.Forall2

/-!
# The handler that runs

`Handler.Runs` says when a handler runs for what is thrown at a line, without a memo. A look-up goes through the table
in order and asks about subtypes on its way; whatever was asked before, it finds the first handler that runs
(`locate_spec`). So a look-up for a subtype, or one that lets handlers for everything count, ends no later in the table
(`lookup_mono`). `CatchEntry.Applies` says the same of an entry as it stands in the class file. The entries are decoded
one by one up to the first that is malformed, and else the handlers run where their entries apply (`decode_lookup`).
-/
namespace ClassNest

/-! ## The first of its kind -/

/-- The item at `i` has the property, and none before it has. -/
structure IsFirst {α : Type} (P : α → Prop) (xs : List α) (i : Nat) : Prop where
  holds : ∃ x, xs[i]? = some x ∧ P x
  before : ∀ {j : Nat} {x : α}, j < i → xs[j]? = some x → ¬ P x

section
variable {α β : Type} {P Q : α → Prop} {x : α} {xs : List α} {i : Nat}

theorem not_isFirst_nil : ¬ IsFirst P [] i := by
  rintro ⟨⟨x, hx, _⟩, _⟩
  simp at hx

theorem isFirst_cons_zero : IsFirst P (x :: xs) 0 ↔ P x := by
  constructor
  · rintro ⟨⟨y, hy, hP⟩, _⟩
    cases hy
    exact hP
  · exact fun hP => ⟨⟨x, rfl, hP⟩, fun hj => absurd hj (Nat.not_lt_zero _)⟩

theorem isFirst_cons_succ : IsFirst P (x :: xs) (i + 1) ↔ ¬ P x ∧ IsFirst P xs i := by
  constructor
  · rintro ⟨hholds, hbefore⟩
    exact ⟨hbefore (Nat.succ_pos i) rfl, hholds, fun hj => hbefore (Nat.succ_lt_succ hj)⟩
  · rintro ⟨hx, hholds, hbefore⟩
    refine ⟨hholds, ?_⟩
    intro j y hj hy
    cases j with
    | zero => cases hy; exact hx
    | succ j => exact hbefore (Nat.lt_of_succ_lt_succ hj) hy

theorem exists_isFirst_iff : (∃ i, IsFirst P xs i) ↔ ∃ x ∈ xs, P x := by
  constructor
  · rintro ⟨i, ⟨x, hx, hP⟩, _⟩
    exact ⟨x, List.mem_of_getElem? hx, hP⟩
  · induction xs with
    | nil => rintro ⟨x, hx, _⟩; cases hx
    | cons y xs ih =>
      rintro ⟨x, hx, hP⟩
      by_cases hy : P y
      · exact ⟨0, isFirst_cons_zero.mpr hy⟩
      · rcases List.mem_cons.mp hx with rfl | hx
        · exact absurd hP hy
        · obtain ⟨i, hi⟩ := ih ⟨x, hx, hP⟩
          exact ⟨i + 1, isFirst_cons_succ.mpr ⟨hy, hi⟩⟩

/-- What is easier to have is had no later. -/
theorem IsFirst.mono (hPQ : ∀ x, P x → Q x) : ∀ {xs : List α} {i : Nat}, IsFirst P xs i → ∃ j ≤ i, IsFirst Q xs j
  | [], _, h => absurd h not_isFirst_nil
  | x :: _, 0, h => ⟨0, Nat.le_refl _, isFirst_cons_zero.mpr (hPQ x (isFirst_cons_zero.mp h))⟩
  | x :: _, i + 1, h => by
    by_cases hx : Q x
    · exact ⟨0, Nat.zero_le _, isFirst_cons_zero.mpr hx⟩
    · obtain ⟨j, hj, hfirst⟩ := IsFirst.mono hPQ (isFirst_cons_succ.mp h).2
      exact ⟨j + 1, Nat.succ_le_succ hj, isFirst_cons_succ.mpr ⟨hx, hfirst⟩⟩

theorem isFirst_iff_of_forall₂ {R : β → Prop} {ys : List β} (h : List.Forall₂ (fun x y => P x ↔ R y) xs ys) :
    IsFirst P xs i ↔ IsFirst R ys i := by
  induction h generalizing i with
  | nil => exact iff_of_false not_isFirst_nil not_isFirst_nil
  | cons hxy _ ih =>
    cases i with
    | zero => rw [isFirst_cons_zero, isFirst_cons_zero, hxy]
    | succ i => rw [isFirst_cons_succ, isFirst_cons_succ, hxy, ih]

end

/-! ## Handlers -/

/-- The handler covers the line and catches what is thrown: everything if that counts, or else a subtype of its type. -/
def Handler.Runs (reg : Registry) (line : UInt32) (thrown : Option String) (includeAny : Bool) (h : Handler) : Prop :=
  h.start ≤ line ∧ line < h.stop ∧
    (h.type = none ∧ includeAny = true ∨
      ∃ caught type, h.type = some caught ∧ thrown = some type ∧ reg.Descends type caught)

/-- The position at which a look-up finds its handler, and the answers known afterwards. -/
def HandlerTable.locate (reg : Registry) (line : UInt32) (thrown : Option String) (includeAny : Bool) :
    HandlerTable → SubtypeMemo → Option Nat × SubtypeMemo
  | [], m => (none, m)
  | h :: hs, m =>
    let answer := h.accepts reg line thrown includeAny m
    if answer.1 then (some 0, answer.2)
    else
      let rest := locate reg line thrown includeAny hs answer.2
      (rest.1.map (· + 1), rest.2)

theorem Handler.covers_iff {line : UInt32} {h : Handler} : h.covers line = true ↔ h.start ≤ line ∧ line < h.stop := by
  simp [covers]

section
variable (reg : Registry) (line : UInt32) (thrown : Option String) (includeAny : Bool)

/-- Whatever was asked before, a handler is accepted just if it runs, and then more may have been asked. -/
theorem Handler.accepts_spec (asked : List (String × String)) (h : Handler) :
    ((h.accepts reg line thrown includeAny (reg.memoAfter asked)).1 = true ↔ h.Runs reg line thrown includeAny) ∧
    ∃ more, (h.accepts reg line thrown includeAny (reg.memoAfter asked)).2 = reg.memoAfter (asked ++ more) := by
  have hsame : reg.memoAfter asked = reg.memoAfter (asked ++ []) := by rw [List.append_nil]
  unfold accepts Runs
  rw [← and_assoc, ← covers_iff]
  by_cases hc : h.covers line = true
  · rw [if_pos hc]
    cases ht : h.type with
    | none => exact ⟨by simp [hc], [], hsame⟩
    | some caught =>
      cases thrown with
      | none => exact ⟨by simp, [], hsame⟩
      | some type =>
        -- the one case in which a question is asked
        refine ⟨?_, [(type, caught)], (Registry.memoAfter_concat asked type caught).symm⟩
        show (reg.isSubtype (reg.memoAfter asked) type caught).1 = true ↔ _
        rw [Registry.isSubtype_iff]
        simp [hc]
  · rw [if_neg hc]
    exact ⟨by simp [hc], [], hsame⟩

namespace HandlerTable

theorem lookup_eq_locate : ∀ (table : HandlerTable) (m : SubtypeMemo),
    table.lookup reg line thrown includeAny m =
      ((table.locate reg line thrown includeAny m).1.bind (table[·]?), (table.locate reg line thrown includeAny m).2)
  | [], _ => rfl
  | h :: hs, m => by
    simp only [lookup, locate]
    split
    · rfl
    · rw [lookup_eq_locate hs, Option.bind_map]
      rfl

/-- A look-up finds the first handler that runs. -/
theorem locate_spec : ∀ (table : HandlerTable) (asked : List (String × String)),
    (∀ i, (table.locate reg line thrown includeAny (reg.memoAfter asked)).1 = some i ↔
      IsFirst (Handler.Runs reg line thrown includeAny) table i) ∧
    ∃ more, (table.locate reg line thrown includeAny (reg.memoAfter asked)).2 = reg.memoAfter (asked ++ more)
  | [], asked => ⟨fun i => iff_of_false (by simp [locate]) not_isFirst_nil, [], by rw [List.append_nil]; rfl⟩
  | h :: hs, asked => by
    obtain ⟨hruns, more, hmore⟩ := h.accepts_spec reg line thrown includeAny asked
    simp only [locate]
    by_cases ha : (h.accepts reg line thrown includeAny (reg.memoAfter asked)).1 = true
    · rw [if_pos ha]
      refine ⟨fun i => ?_, more, hmore⟩
      cases i with
      | zero => exact iff_of_true rfl (isFirst_cons_zero.mpr (hruns.mp ha))
      | succ i => exact iff_of_false (by simp) fun hf => (isFirst_cons_succ.mp hf).1 (hruns.mp ha)
    · -- the rest of the table is looked up with what this handler has asked
      rw [if_neg ha, hmore]
      obtain ⟨hrest, last, hlast⟩ := locate_spec hs (asked ++ more)
      refine ⟨fun i => ?_, more ++ last, by rw [hlast, List.append_assoc]⟩
      cases i with
      | zero => exact iff_of_false (by simp) fun hf => ha (hruns.mpr (isFirst_cons_zero.mp hf))
      | succ i =>
        rw [isFirst_cons_succ, ← hrest i, ← hruns]
        simp [ha]

/-- There is nothing to find just if no handler runs. -/
theorem lookup_eq_none_iff (table : HandlerTable) (asked : List (String × String)) :
    (table.lookup reg line thrown includeAny (reg.memoAfter asked)).1 = none ↔
      ¬ ∃ i, IsFirst (Handler.Runs reg line thrown includeAny) table i := by
  have hspec := (locate_spec reg line thrown includeAny table asked).1
  rw [lookup_eq_locate]
  cases hl : (table.locate reg line thrown includeAny (reg.memoAfter asked)).1 with
  | none =>
    refine iff_of_true rfl ?_
    rintro ⟨i, hi⟩
    rw [← hspec i, hl] at hi
    cases hi
  | some i =>
    have hfirst := (hspec i).mp hl
    obtain ⟨h, hh, _⟩ := hfirst.holds
    exact iff_of_false (by simp [hh]) fun hno => hno ⟨i, hfirst⟩

end HandlerTable
end

/-! ## Subtypes run no later -/

section
variable {reg : Registry} {line : UInt32} {thrown : Option String} {includeAny : Bool}

namespace Registry

/-- No step leads from the root class to another one: it was not loaded, or has no supertype but itself. -/
def RootOnTop (reg : Registry) : Prop := ∀ b, reg.StepsUp rootClassName b → b = rootClassName

theorem descends_refl (a : String) : reg.Descends a a := .inl rfl

theorem RootOnTop.eq_of_reaches (hroot : reg.RootOnTop) {b : String}
    (h : Relation.ReflTransGen reg.StepsUp rootClassName b) : b = rootClassName := by
  induction h with
  | refl => rfl
  | tail _ hstep ih => rw [ih] at hstep; exact hroot _ hstep

/-- Every class descends from the root class by rule and not by steps, so that a step from the root class to another one
would break this. -/
theorem Descends.trans (hroot : reg.RootOnTop) {a b c : String} (hab : reg.Descends a b) (hbc : reg.Descends b c) :
    reg.Descends a c := by
  rcases hab with rfl | rfl | hab
  · exact hbc
  · rcases hbc with rfl | rfl | hbc
    · exact .inr (.inl rfl)
    · exact .inr (.inl rfl)
    · exact .inr (.inl (hroot.eq_of_reaches hbc))
  · rcases hbc with rfl | rfl | hbc
    · exact .inr (.inr hab)
    · exact .inr (.inl rfl)
    · exact .inr (.inr (hab.trans hbc))

end Registry

theorem Handler.Runs.of_descends (hroot : reg.RootOnTop) {S T : String} (hST : reg.Descends S T) {h : Handler}
    (hr : h.Runs reg line (some T) includeAny) : h.Runs reg line (some S) includeAny := by
  obtain ⟨hstart, hstop, hany | ⟨caught, type, htype, hthrown, hsub⟩⟩ := hr
  · exact ⟨hstart, hstop, .inl hany⟩
  · cases hthrown
    exact ⟨hstart, hstop, .inr ⟨caught, S, htype, rfl, hST.trans hroot hsub⟩⟩

theorem Handler.Runs.includingAny {h : Handler} (hr : h.Runs reg line thrown false) : h.Runs reg line thrown true := by
  obtain ⟨hstart, hstop, ⟨_, hany⟩ | htyped⟩ := hr
  · cases hany
  · exact ⟨hstart, hstop, .inr htyped⟩

end

/-- If nothing is above the root class, being a subtype is reflexive and transitive, and a look-up for a subtype finds
its handler no later in the table. A look-up in which handlers for everything count finds one no later than the
look-up without them. What was asked before makes no difference to any of this. -/
theorem lookup_mono (reg : Registry) :
    (reg.RootOnTop →
      (∀ asked a, (reg.isSubtype (reg.memoAfter asked) a a).1 = true) ∧
      (∀ asked asked' asked'' a b c, (reg.isSubtype (reg.memoAfter asked) a b).1 = true →
        (reg.isSubtype (reg.memoAfter asked') b c).1 = true → (reg.isSubtype (reg.memoAfter asked'') a c).1 = true) ∧
      ∀ (table : HandlerTable) line includeAny S T asked asked' asked'' i,
        (reg.isSubtype (reg.memoAfter asked) S T).1 = true →
        (table.locate reg line (some T) includeAny (reg.memoAfter asked')).1 = some i →
        ∃ j ≤ i, (table.locate reg line (some S) includeAny (reg.memoAfter asked'')).1 = some j) ∧
    (∀ (table : HandlerTable) line thrown asked asked' i,
      (table.locate reg line thrown false (reg.memoAfter asked)).1 = some i →
      ∃ j ≤ i, (table.locate reg line thrown true (reg.memoAfter asked')).1 = some j) ∧
    ∀ (table : HandlerTable) line thrown includeAny m, (table.lookup reg line thrown includeAny m).1 =
      (table.locate reg line thrown includeAny m).1.bind (table[·]?) := by
  simp only [Registry.isSubtype_iff]
  refine ⟨fun hroot => ⟨fun _ a => Registry.descends_refl a, ?_, ?_⟩, ?_, ?_⟩
  · intro _ _ _ a b c hab hbc
    exact hab.trans hroot hbc
  · intro table line includeAny S T _ asked' asked'' i hST hi
    rw [(HandlerTable.locate_spec _ _ _ _ table asked').1 i] at hi
    obtain ⟨j, hj, hfirst⟩ := hi.mono fun _ hr => hr.of_descends hroot hST
    exact ⟨j, hj, ((HandlerTable.locate_spec _ _ _ _ table asked'').1 j).mpr hfirst⟩
  · intro table line thrown asked asked' i hi
    rw [(HandlerTable.locate_spec _ _ _ _ table asked).1 i] at hi
    obtain ⟨j, hj, hfirst⟩ := hi.mono fun _ hr => hr.includingAny
    exact ⟨j, hj, ((HandlerTable.locate_spec _ _ _ _ table asked').1 j).mpr hfirst⟩
  · intro table line thrown includeAny m
    rw [HandlerTable.lookup_eq_locate]

/-- The root class, said to be above itself, and a class with a subclass that is its own interface. -/
def loopingHierarchy : Registry := .ofUnits
  [.loaded { name := rootClassName, superClass := some rootClassName },
   .loaded { name := "app/Base", superClass := some rootClassName },
   .loaded { name := "app/Sub", superClass := some "app/Base", interfaces := ["app/Sub"] }]

/-- Everything up to line three, then the subclass, its base class, and everything. -/
def layeredTable : HandlerTable :=
  [⟨0, 4, 9, none⟩, ⟨0, 8, 10, some "app/Sub"⟩, ⟨0, 8, 11, some "app/Base"⟩, ⟨0, 8, 12, none⟩]

/-- The handler for the base class stands third and that for the subclass second. -/
theorem lookup_mono_loopingHierarchy : loopingHierarchy.RootOnTop ∧
    (loopingHierarchy.isSubtype (loopingHierarchy.memoAfter []) "app/Sub" "app/Base").1 = true ∧
    (layeredTable.locate loopingHierarchy 5 (some "app/Base") false (loopingHierarchy.memoAfter [])).1 = some 2 ∧
    ∃ j ≤ 2, (layeredTable.locate loopingHierarchy 5 (some "app/Sub") false
      (loopingHierarchy.memoAfter [("app/Sub", "app/Base")])).1 = some j :=
  have hroot : loopingHierarchy.RootOnTop := by
    rintro b ⟨c, hc, hb⟩
    obtain rfl : (⟨rootClassName, .empty, some rootClassName, [], false, {}, [], none, []⟩ : ClassFile) = c :=
      Option.some.inj hc
    simpa [eq_comm] using hb
  ⟨hroot, by decide, by decide,
    ((lookup_mono loopingHierarchy).1 hroot).2.2 layeredTable 5 false "app/Sub" "app/Base" [] [] _ 2 (by decide)
      (by decide)⟩

/-! ## Entries of the class file -/

/-- The entry under an index, counted from one, is the class. -/
def Pool.HoldsClass (p : Pool) (index : UInt16) (name : String) : Prop :=
  0 < index.toNat ∧ p.entries[index.toNat - 1]? = some (.className name)

theorem Pool.holdsClass_iff {p : Pool} {index : UInt16} {name : String} :
    p.HoldsClass index name ↔ p.className index = .ok name := by
  have hzero : index = 0 ↔ index.toNat = 0 := by rw [← UInt16.toNat_inj]; rfl
  rw [className_eq_ok]
  unfold HoldsClass entry
  by_cases hi : index = 0
  · simp [hi]
  · have hpos : 0 < index.toNat := Nat.pos_of_ne_zero fun h => hi (hzero.mpr h)
    rw [if_neg hi]
    cases p.entries[index.toNat - 1]? with
    | none => simp
    | some e => simp [hpos]

namespace CatchEntry

/-- The range ends before it starts, or there is a catch type which is not a class. -/
def Malformed (pool : Pool) (e : CatchEntry) : Prop :=
  e.stop < e.start ∨ e.catchType ≠ 0 ∧ ∀ name, ¬ pool.HoldsClass e.catchType name

/-- The entry covers the line and catches what is thrown: everything if that counts, or else a subtype of its type. -/
def Applies (pool : Pool) (reg : Registry) (line : UInt32) (thrown : Option String) (includeAny : Bool)
    (e : CatchEntry) : Prop :=
  e.start ≤ line ∧ line < e.stop ∧
    (e.catchType = 0 ∧ includeAny = true ∨
      ∃ caught type, pool.HoldsClass e.catchType caught ∧ thrown = some type ∧ reg.Descends type caught)

/-- The handler has the lines of the entry and the type under its index. -/
structure Yields (pool : Pool) (e : CatchEntry) (h : Handler) : Prop where
  start : h.start = e.start
  stop : h.stop = e.stop
  handler : h.handler = e.handler
  catchAll : h.type = none ↔ e.catchType = 0
  typed : ∀ name, h.type = some name ↔ pool.HoldsClass e.catchType name

end CatchEntry

/-- The message names an entry by its position. -/
def HandlerFault.Names (fault : HandlerFault) (position : Nat) : Prop :=
  ∃ detail, fault.message = "exception entry " ++ toString position ++ ": " ++ detail

section
variable {pool : Pool} {e : CatchEntry} {position : Nat}

theorem HandlerFault.names_range (start stop : UInt32) : (HandlerFault.range position start stop).Names position := by
  have hsplit : ∀ rest : String, ": start " ++ rest = ": " ++ ("start " ++ rest) := by
    intro rest
    rw [← String.append_assoc]
    exact congrArg (· ++ rest) (by decide)
  refine ⟨"start " ++ (toString start.toNat ++ (" after end " ++ toString stop.toNat)), ?_⟩
  unfold message
  simp only [String.append_assoc]
  rw [hsplit]

theorem HandlerFault.names_type (fault : PoolFault) : (HandlerFault.type position fault).Names position :=
  ⟨fault.message, rfl⟩

namespace CatchEntry

/-- An entry is decoded to its handler, or is malformed and its fault names it. -/
theorem decode_cases (pool : Pool) (position : Nat) (e : CatchEntry) :
    (¬ e.Malformed pool ∧ ∃ h, e.decode pool position = .ok h ∧ e.Yields pool h) ∨
    (e.Malformed pool ∧ ∃ fault, e.decode pool position = .error fault ∧ fault.Names position) := by
  unfold decode Malformed
  by_cases hr : e.stop < e.start
  · rw [if_pos hr]
    exact .inr ⟨.inl hr, _, rfl, HandlerFault.names_range ..⟩
  · rw [if_neg hr]
    unfold Pool.resolve?
    by_cases hz : e.catchType = 0
    · rw [if_pos hz]
      refine .inl ⟨by simp [hr, hz], _, rfl, rfl, rfl, rfl, by simp [hz], ?_⟩
      intro name
      simp [Pool.HoldsClass, hz]
    · rw [if_neg hz]
      cases hn : pool.className e.catchType with
      | ok name =>
        have hholds := Pool.holdsClass_iff.mpr hn
        refine .inl ⟨?_, _, rfl, rfl, rfl, rfl, by simp [hz], ?_⟩
        · rintro (h | ⟨_, h⟩)
          · exact hr h
          · exact h name hholds
        · intro other
          rw [Pool.holdsClass_iff, hn]
          simp
      | error fault =>
        refine .inr ⟨.inr ⟨hz, fun name hname => ?_⟩, _, rfl, HandlerFault.names_type fault⟩
        rw [Pool.holdsClass_iff, hn] at hname
        cases hname

/-- The handler of an entry runs where the entry applies. -/
theorem Yields.runs_iff {h : Handler} (hy : e.Yields pool h) {reg : Registry} {line : UInt32} {thrown : Option String}
    {includeAny : Bool} : e.Applies pool reg line thrown includeAny ↔ h.Runs reg line thrown includeAny := by
  unfold Applies Handler.Runs
  simp only [hy.start, hy.stop, hy.catchAll, hy.typed]

end CatchEntry

/-- The entries are decoded one by one, up to the first that is malformed. -/
theorem HandlerTable.decodeFrom_cases (pool : Pool) : ∀ (position : Nat) (entries : List CatchEntry),
    (∃ table, decodeFrom pool position entries = .ok table ∧ (∀ e ∈ entries, ¬ e.Malformed pool) ∧
      List.Forall₂ (CatchEntry.Yields pool) entries table) ∨
    ∃ fault i, decodeFrom pool position entries = .error fault ∧
      IsFirst (CatchEntry.Malformed pool) entries i ∧ fault.Names (position + i)
  | _, [] => .inl ⟨[], rfl, by simp, .nil⟩
  | position, e :: es => by
    simp only [decodeFrom]
    rcases e.decode_cases pool position with ⟨hok, h, hdec, hy⟩ | ⟨hbad, fault, hdec, hnames⟩
    · rw [hdec]
      rcases decodeFrom_cases pool (position + 1) es with ⟨table, hrest, hall, hys⟩ | ⟨fault, i, hrest, hfirst, hnames⟩
      · exact .inl ⟨h :: table, by rw [hrest]; rfl, by simpa using ⟨hok, hall⟩, .cons hy hys⟩
      · refine .inr ⟨fault, i + 1, by rw [hrest]; rfl, isFirst_cons_succ.mpr ⟨hok, hfirst⟩, ?_⟩
        rw [Nat.add_right_comm] at hnames
        exact hnames
    · rw [hdec]
      exact .inr ⟨fault, 0, rfl, isFirst_cons_zero.mpr hbad, hnames⟩

/-! A look-up in a table that was decoded, told by the entries. -/

namespace HandlerTable
variable {entries : List CatchEntry} {table : HandlerTable}

section
variable (hys : List.Forall₂ (CatchEntry.Yields pool) entries table)
variable (reg : Registry) (line : UInt32) (thrown : Option String) (includeAny : Bool)
include hys

theorem isFirst_applies_iff (i : Nat) : IsFirst (CatchEntry.Applies pool reg line thrown includeAny) entries i ↔
    IsFirst (Handler.Runs reg line thrown includeAny) table i :=
  isFirst_iff_of_forall₂ (hys.imp fun _ _ hy => hy.runs_iff)

theorem lookup_eq_none_iff_of_yields (asked : List (String × String)) :
    (table.lookup reg line thrown includeAny (reg.memoAfter asked)).1 = none ↔
      ∀ e ∈ entries, ¬ e.Applies pool reg line thrown includeAny := by
  rw [lookup_eq_none_iff]
  simp only [← isFirst_applies_iff hys, exists_isFirst_iff, not_exists, not_and]

theorem lookup_of_isFirst (asked : List (String × String)) {i : Nat}
    (hfirst : IsFirst (CatchEntry.Applies pool reg line thrown includeAny) entries i) (he : entries[i]? = some e) :
    (table.locate reg line thrown includeAny (reg.memoAfter asked)).1 = some i ∧
    ∃ h, (table.lookup reg line thrown includeAny (reg.memoAfter asked)).1 = some h ∧ e.Yields pool h := by
  rw [isFirst_applies_iff hys, ← (locate_spec reg line thrown includeAny table asked).1] at hfirst
  obtain ⟨hlt, rfl⟩ := List.getElem?_eq_some_iff.mp he
  have hlt' : i < table.length := by rw [← hys.length_eq]; exact hlt
  refine ⟨hfirst, table.get ⟨i, hlt'⟩, ?_, hys.get hlt hlt'⟩
  rw [lookup_eq_locate, hfirst]
  exact List.getElem?_eq_getElem hlt'

end
end HandlerTable
end

/-- A table cannot be decoded just if an entry is malformed, and the fault names the first such entry. Else, whatever
was asked before, a look-up finds the handler of the first entry that applies, at its position, and nothing just if no
entry applies. All it leaves behind are the answers to some more questions. -/
theorem decode_lookup (pool : Pool) (entries : List CatchEntry) :
    ((∃ fault, HandlerTable.decode pool entries = .error fault) ↔ ∃ e ∈ entries, e.Malformed pool) ∧
    (∀ fault, HandlerTable.decode pool entries = .error fault →
      ∃ i, IsFirst (CatchEntry.Malformed pool) entries i ∧ fault.Names i) ∧
    ((∀ e ∈ entries, ¬ e.Malformed pool) → ∃ table, HandlerTable.decode pool entries = .ok table ∧
      ∀ reg asked line thrown includeAny,
        ((table.lookup reg line thrown includeAny (reg.memoAfter asked)).1 = none ↔
          ∀ e ∈ entries, ¬ e.Applies pool reg line thrown includeAny) ∧
        (∀ i e, IsFirst (CatchEntry.Applies pool reg line thrown includeAny) entries i → entries[i]? = some e →
          (table.locate reg line thrown includeAny (reg.memoAfter asked)).1 = some i ∧
          ∃ h, (table.lookup reg line thrown includeAny (reg.memoAfter asked)).1 = some h ∧ e.Yields pool h) ∧
        ∃ more, (table.lookup reg line thrown includeAny (reg.memoAfter asked)).2 =
          reg.memoAfter (asked ++ more)) := by
  unfold HandlerTable.decode
  rcases HandlerTable.decodeFrom_cases pool 0 entries with ⟨table, hok, hall, hys⟩ | ⟨fault, i, herr, hfirst, hnames⟩
  · rw [hok]
    refine ⟨iff_of_false nofun ?_, nofun, fun _ => ⟨table, rfl, ?_⟩⟩
    · rintro ⟨e, he, hbad⟩
      exact hall e he hbad
    · intro reg asked line thrown includeAny
      refine ⟨HandlerTable.lookup_eq_none_iff_of_yields hys reg line thrown includeAny asked,
        fun i e hfirst he => HandlerTable.lookup_of_isFirst hys reg line thrown includeAny asked hfirst he, ?_⟩
      rw [HandlerTable.lookup_eq_locate]
      exact (HandlerTable.locate_spec reg line thrown includeAny table asked).2
  · rw [herr]
    have hsome := exists_isFirst_iff.mp ⟨i, hfirst⟩
    refine ⟨iff_of_true ⟨fault, rfl⟩ hsome, ?_, ?_⟩
    · intro other hother
      cases hother
      rw [Nat.zero_add] at hnames
      exact ⟨i, hfirst, hnames⟩
    · intro hall
      obtain ⟨e, he, hbad⟩ := hsome
      exact absurd hbad (hall e he)

/-- The same name twice, but only the second entry is a class. -/
def namesakePool : Pool := ⟨[.utf8 "app/Base", .className "app/Base"]⟩

/-- Everything up to line three, then the class, an empty range, and everything. -/
def layeredEntries : List CatchEntry := [⟨0, 4, 9, 0⟩, ⟨3, 8, 10, 2⟩, ⟨4, 4, 11, 0⟩, ⟨0, 9, 12, 0⟩]

/-- At line four the second entry is the first that applies. -/
theorem decode_lookup_layeredEntries : (∀ e ∈ layeredEntries, ¬ e.Malformed namesakePool) ∧
    ∃ table, HandlerTable.decode namesakePool layeredEntries = .ok table ∧
      (table.locate loopingHierarchy 4 (some "app/Sub") true (loopingHierarchy.memoAfter [("app/Sub", "app/Base")])).1 =
        some 1 ∧
      ∃ h, (table.lookup loopingHierarchy 4 (some "app/Sub") true
        (loopingHierarchy.memoAfter [("app/Sub", "app/Base")])).1 = some h ∧
        CatchEntry.Yields namesakePool ⟨3, 8, 10, 2⟩ h :=
  have hall : ∀ e ∈ layeredEntries, ¬ e.Malformed namesakePool := by
    simp [layeredEntries, namesakePool, CatchEntry.Malformed, Pool.HoldsClass]
  have hfirst : IsFirst (CatchEntry.Applies namesakePool loopingHierarchy 4 (some "app/Sub") true)
      layeredEntries 1 := by
    have hsub : loopingHierarchy.StepsUp "app/Sub" "app/Base" := ⟨_, rfl, .inl rfl⟩
    refine isFirst_cons_succ.mpr ⟨fun h => absurd h.2.1 (by decide), isFirst_cons_zero.mpr ?_⟩
    exact ⟨by decide, by decide, .inr ⟨"app/Base", "app/Sub", ⟨by decide, rfl⟩, rfl, .inr (.inr (.single hsub))⟩⟩
  have ⟨table, hok, hlookup⟩ := (decode_lookup namesakePool layeredEntries).2.2 hall
  have hfound := (hlookup loopingHierarchy [("app/Sub", "app/Base")] 4 (some "app/Sub") true).2.1 1 _ hfirst rfl
  ⟨hall, table, hok, hfound⟩

end ClassNest
