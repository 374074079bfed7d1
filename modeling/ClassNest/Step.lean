import ClassNest.Diagnostic
import ClassNest.Fault

/-!
# Steps that can fail

A step changes its state in place, and may fail when a part of the change is made. What is changed by then stays
changed: whoever wants the old state back goes back to it. The messages on the way count in either case.
-/
namespace ClassNest

/-- What a step leaves: the state, its answer or the fault that ended it, and the messages on the way. -/
structure Step (σ α : Type) where
  state : σ
  answer : Except Fault α
  log : Log := []

namespace Step
variable {σ α β : Type}

/-- The same step with another answer. -/
def map (f : α → β) (r : Step σ α) : Step σ β := ⟨r.state, r.answer.map f, r.log⟩

/-- Goes on from the state with the answer, unless the step failed. -/
def andThen (r : Step σ α) (next : σ → α → Step σ β) : Step σ β :=
  match r.answer with
  | .ok a =>
    let rest := next r.state a
    ⟨rest.state, rest.answer, r.log ++ rest.log⟩
  | .error fault => ⟨r.state, .error fault, r.log⟩

/-- The new state and the answer, for a caller that keeps the old state if the step fails. -/
def result (r : Step σ α) : Except Fault (σ × α) := r.answer.map (r.state, ·)

@[simp] theorem state_map (f : α → β) (r : Step σ α) : (r.map f).state = r.state := rfl

@[simp] theorem answer_map (f : α → β) (r : Step σ α) : (r.map f).answer = r.answer.map f := rfl

@[simp] theorem log_map (f : α → β) (r : Step σ α) : (r.map f).log = r.log := rfl

variable {r : Step σ α} {next : σ → α → Step σ β} {a : α} {b : β} {fault : Fault}

theorem andThen_of_ok (h : r.answer = .ok a) (next : σ → α → Step σ β) : r.andThen next =
    ⟨(next r.state a).state, (next r.state a).answer, r.log ++ (next r.state a).log⟩ := by
  unfold andThen
  rw [h]

theorem andThen_of_error (h : r.answer = .error fault) (next : σ → α → Step σ β) :
    r.andThen next = ⟨r.state, .error fault, r.log⟩ := by
  unfold andThen
  rw [h]

/-- Everything that two steps in a row can do. -/
theorem andThen_cases (r : Step σ α) (next : σ → α → Step σ β) :
    (∃ fault, r.answer = .error fault ∧ r.andThen next = ⟨r.state, .error fault, r.log⟩) ∨
    ∃ a, r.answer = .ok a ∧ r.andThen next =
      ⟨(next r.state a).state, (next r.state a).answer, r.log ++ (next r.state a).log⟩ := by
  cases h : r.answer with
  | error fault => exact .inl ⟨fault, rfl, andThen_of_error h next⟩
  | ok a => exact .inr ⟨a, rfl, andThen_of_ok h next⟩

/-- What holds after the first step, and after the second wherever it goes on, holds in the end. -/
theorem state_andThen {P : σ → Prop} (h : P r.state) (hnext : ∀ a, P (next r.state a).state) :
    P (r.andThen next).state := by
  rcases andThen_cases r next with ⟨fault, _, he⟩ | ⟨a, _, he⟩
  · rw [he]; exact h
  · rw [he]; exact hnext a

/-- Two steps in a row answer if both do. -/
theorem of_andThen_ok (h : (r.andThen next).answer = .ok b) :
    ∃ a, r.answer = .ok a ∧ (next r.state a).answer = .ok b ∧ (r.andThen next).state = (next r.state a).state := by
  rcases andThen_cases r next with ⟨fault, _, he⟩ | ⟨a, ha, he⟩
  · rw [he] at h
    cases h
  · rw [he] at h ⊢
    exact ⟨a, ha, h, rfl⟩

theorem of_map_ok {f : α → β} (h : (r.map f).answer = .ok b) : ∃ a, r.answer = .ok a ∧ f a = b := by
  cases ha : r.answer with
  | error fault => rw [answer_map, ha] at h; cases h
  | ok a => rw [answer_map, ha] at h; exact ⟨a, rfl, Except.ok.inj h⟩

theorem of_map_error {f : α → β} (h : (r.map f).answer = .error fault) : r.answer = .error fault := by
  cases ha : r.answer with
  | error other => rw [answer_map, ha] at h; exact congrArg Except.error (Except.error.inj h)
  | ok a => rw [answer_map, ha] at h; cases h

/-! ## Two steps side by side -/

/-- Both give the same answer, and leave states that belong together. -/
structure Alike {τ : Type} (R : σ → τ → Prop) (r : Step σ α) (r' : Step τ α) : Prop where
  state : R r.state r'.state
  answer : r'.answer = r.answer

section
variable {τ : Type} {R : σ → τ → Prop} {r' : Step τ α}

theorem Alike.map (h : Alike R r r') (f : α → β) : Alike R (r.map f) (r'.map f) :=
  ⟨h.state, congrArg (·.map f) h.answer⟩

theorem Alike.andThen {next' : τ → α → Step τ β} (h : Alike R r r')
    (hnext : ∀ a, Alike R (next r.state a) (next' r'.state a)) : Alike R (r.andThen next) (r'.andThen next') := by
  rcases andThen_cases r next with ⟨fault, ha, he⟩ | ⟨a, ha, he⟩
  · rw [he, andThen_of_error (h.answer.trans ha)]
    exact ⟨h.state, rfl⟩
  · rw [he, andThen_of_ok (h.answer.trans ha)]
    exact ⟨(hnext a).state, (hnext a).answer⟩

end
end Step
end ClassNest
