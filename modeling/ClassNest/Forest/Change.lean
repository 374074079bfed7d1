import ClassNest.Forest.Basic
import ClassNest.Step

/-!
# Adding nodes in place

A node is added in place, and that can fail in two ways: an id has 32 bits, so that an arena holds only so many nodes,
and a parent has to be there. Both are found before anything has changed (`perform_addRoot`, `perform_attach`).
-/
namespace ClassNest.Forest

/-- The number of ids there are. -/
def capacity : Nat := 0x100000000

/-- The fault of an arena that has given out all ids. -/
def full : Fault := ⟨.fullArena, none⟩

/-- The fault of a node that is attached where nothing is. -/
def unknown (parent : NodeId) : Fault := ⟨.unknownParent parent, none⟩

/-- A change of a forest in place, which may fail. -/
abbrev Change := EStateM Fault Forest

namespace Change

/-- Appends a node under the next id. -/
def push (n : Node) : Change NodeId := do
  let id := (← get).size
  if capacity ≤ id then throw full
  modify (·.push n)
  return id

/-- Appends a node as a new root. -/
def addRoot (n : Node) : Change NodeId := do
  let id ← push n
  modify fun f => { f with roots := f.roots ++ [id] }
  return id

/-- Appends a node as the last child of `parent`, which must be there. -/
def attach (parent : NodeId) (n : Node) : Change NodeId := do
  if (← get).size ≤ parent then throw (unknown parent)
  let id ← push { n with parent := some parent }
  modify (·.link parent id)
  return id

theorem run_push (f : Forest) (n : Node) : EStateM.run (push n) f =
    if f.size < capacity then .ok f.size (f.push n) else .error full f := by
  unfold push
  by_cases h : capacity ≤ f.size
  · simp [h, Nat.not_lt_of_le h]
  · simp only [EStateM.run_bind, EStateM.run_get, h, if_false, EStateM.run_pure, Nat.lt_of_not_le h, if_true]
    rfl

theorem run_addRoot (f : Forest) (n : Node) : EStateM.run (addRoot n) f =
    if f.size < capacity then .ok f.size (f.addRoot n) else .error full f := by
  unfold addRoot
  rw [EStateM.run_bind, run_push]
  by_cases h : f.size < capacity
  · rw [if_pos h, if_pos h]
    rfl
  · rw [if_neg h, if_neg h]

theorem run_attach (f : Forest) (parent : NodeId) (n : Node) : EStateM.run (attach parent n) f =
    if parent < f.size then
      if f.size < capacity then .ok f.size (f.graft parent n) else .error full f
    else .error (unknown parent) f := by
  unfold attach
  by_cases hp : parent < f.size
  · rw [if_pos hp]
    simp only [EStateM.run_bind, EStateM.run_get, Nat.not_le_of_lt hp, if_false, EStateM.run_pure, run_push]
    by_cases h : f.size < capacity
    · rw [if_pos h, if_pos h]
      rfl
    · rw [if_neg h, if_neg h]
  · rw [if_neg hp]
    simp only [EStateM.run_bind, EStateM.run_get, Nat.le_of_not_lt hp, if_true, EStateM.run_throw]

end Change

/-- The change as a step. It has nothing to say. -/
def perform {α : Type} (f : Forest) (a : Change α) : Step Forest α :=
  match a.run f with
  | .ok x left => ⟨left, .ok x, []⟩
  | .error fault left => ⟨left, .error fault, []⟩

theorem perform_addRoot (f : Forest) (n : Node) : f.perform (.addRoot n) =
    if f.size < capacity then ⟨f.addRoot n, .ok f.size, []⟩ else ⟨f, .error full, []⟩ := by
  unfold perform
  rw [Change.run_addRoot]
  by_cases h : f.size < capacity
  · rw [if_pos h, if_pos h]
  · rw [if_neg h, if_neg h]

/-- Only a full arena keeps a root from being added. -/
theorem perform_addRoot_cases (f : Forest) (n : Node) :
    (f.size < capacity ∧ f.perform (.addRoot n) = ⟨f.addRoot n, .ok f.size, []⟩) ∨
    (capacity ≤ f.size ∧ f.perform (.addRoot n) = ⟨f, .error full, []⟩) := by
  rw [perform_addRoot]
  by_cases h : f.size < capacity
  · exact .inl ⟨h, by rw [if_pos h]⟩
  · exact .inr ⟨Nat.le_of_not_lt h, by rw [if_neg h]⟩

theorem perform_attach (f : Forest) (parent : NodeId) (n : Node) : f.perform (.attach parent n) =
    if parent < f.size then
      if f.size < capacity then ⟨f.graft parent n, .ok f.size, []⟩ else ⟨f, .error full, []⟩
    else ⟨f, .error (unknown parent), []⟩ := by
  unfold perform
  rw [Change.run_attach]
  by_cases hp : parent < f.size
  · rw [if_pos hp, if_pos hp]
    by_cases h : f.size < capacity
    · rw [if_pos h, if_pos h]
    · rw [if_neg h, if_neg h]
  · rw [if_neg hp, if_neg hp]

/-- Below a node that is there, only a full arena keeps a node from being attached. -/
theorem perform_attach_cases {f : Forest} {parent : NodeId} (hp : parent < f.size) (n : Node) :
    (f.size < capacity ∧ f.perform (.attach parent n) = ⟨f.graft parent n, .ok f.size, []⟩) ∨
    (capacity ≤ f.size ∧ f.perform (.attach parent n) = ⟨f, .error full, []⟩) := by
  rw [perform_attach, if_pos hp]
  by_cases h : f.size < capacity
  · exact .inl ⟨h, by rw [if_pos h]⟩
  · exact .inr ⟨Nat.le_of_not_lt h, by rw [if_neg h]⟩

/-- A node that cannot be attached leaves the forest as it was. -/
theorem perform_attach_grows_or_keeps (f : Forest) (parent : NodeId) (n : Node) :
    (parent < f.size ∧ f.size < capacity ∧ f.perform (.attach parent n) = ⟨f.graft parent n, .ok f.size, []⟩) ∨
    ∃ fault, (parent < f.size → capacity ≤ f.size ∧ fault = full) ∧
      f.perform (.attach parent n) = ⟨f, .error fault, []⟩ := by
  by_cases hp : parent < f.size
  · rcases perform_attach_cases hp n with ⟨hroom, he⟩ | ⟨hfull, he⟩
    · exact .inl ⟨hp, hroom, he⟩
    · exact .inr ⟨_, fun _ => ⟨hfull, rfl⟩, he⟩
  · exact .inr ⟨_, fun h => absurd h hp, by rw [perform_attach, if_neg hp]⟩

/-- The forest with a node more below `parent`, for a caller that keeps the old one if this fails. -/
def attach (f : Forest) (parent : NodeId) (n : Node) : Except Fault Forest :=
  (f.perform (.attach parent n)).result.map (·.1)

end ClassNest.Forest
