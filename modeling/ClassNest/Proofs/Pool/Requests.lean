import ClassNest.Pool.Requests
import ClassNest.Proofs.Pool

/-!
# Indices that stay

Whatever is asked of a pool, and however long it was to begin with: an index that was handed out leads to its entry for
good, and is handed out again whenever the same name is asked for. The reason is that a pool only grows at its end, so
that the first occurrence of an entry never moves (`Indexes.mono`). A request is refused just if it would need an index
beyond the last one (`Refuses`), and it is refused before the pool has changed.
-/
namespace ClassNest
namespace Pool

variable {p q : Pool} {e : PoolEntry} {i : UInt16} {r : PoolRequest}

/-! ## In place -/

/-- What is left in place by a change that is given as a function: on failure, the old pool. -/
def leaves (p : Pool) : Except PoolFault (Pool × UInt16) → EStateM.Result PoolFault Pool UInt16
  | .ok (q, i) => .ok i q
  | .error fault => .error fault p

theorem run_liftExcept (p : Pool) (x : Except PoolFault UInt16) :
    EStateM.run (liftExcept x : Change UInt16) p = p.leaves (x.map fun i => (p, i)) := by
  cases x <;> rfl

theorem run_append (p : Pool) (e : PoolEntry) : EStateM.run (append e) p = p.leaves (p.push e) := by
  simp only [append, push, EStateM.run_bind, EStateM.run_get, run_liftExcept]
  cases indexAt p.size <;> rfl

theorem run_findOrAppend (p : Pool) (e : PoolEntry) : EStateM.run (findOrAppend e) p = p.leaves (p.intern e) := by
  simp only [findOrAppend, intern, EStateM.run_bind, EStateM.run_get]
  cases p.entries.findIdx? (· == e) with
  | some position => exact run_liftExcept p (indexAt position)
  | none => exact run_append p e

theorem serve_eq (p : Pool) (r : PoolRequest) : p.serve r = p.leaves (r.answer p) := by
  cases r with
  | push e => exact run_append p e
  | className name => exact run_findOrAppend p (.className name)
  | utf8 text => exact run_findOrAppend p (.utf8 text)

/-! ## What a request can do -/

/-- When a request fails: an entry is not appended to a pool that has given out its last index, and a name has no index
that it lacks. -/
def Refuses (p : Pool) : PoolRequest → Prop
  | .push _ => lastPoolIndex ≤ p.size
  | .className name => p.LacksIndex (.className name)
  | .utf8 text => p.LacksIndex (.utf8 text)

/-- A request that is granted: the pool `q` is `p` with nothing lost, and the index leads to the entry. A name has the
index of its first occurrence. -/
structure Grants (p : Pool) (r : PoolRequest) (i : UInt16) (q : Pool) : Prop where
  grows : p.entries <+: q.entries
  leads : q.entry i = .ok r.entry
  named : (∀ e, r ≠ .push e) → q.Indexes r.entry i

theorem serve_of_refuses (h : p.Refuses r) : p.serve r = .error .full p := by
  rw [serve_eq]
  cases r with
  | push e => rw [PoolRequest.answer, push_of_full h]; rfl
  | className name => rw [PoolRequest.answer, internClass, intern_of_lacksIndex h]; rfl
  | utf8 text => rw [PoolRequest.answer, internUtf8, intern_of_lacksIndex h]; rfl

theorem grants_intern {i : UInt16} (hr : r.entry = e) (h : Indexes ⟨pushNew p.entries e⟩ e i) :
    p.Grants r i ⟨pushNew p.entries e⟩ where
  grows := prefix_pushNew _ _
  leads := hr ▸ h.entry
  named _ := hr ▸ h

theorem serve_of_not_refuses (h : ¬ p.Refuses r) : ∃ i q, p.serve r = .ok i q ∧ p.Grants r i q := by
  rw [serve_eq]
  cases r with
  | push e =>
    obtain ⟨i, hi, hval⟩ := push_of_room (Nat.lt_of_not_le h) e
    refine ⟨i, _, by rw [PoolRequest.answer, hi]; rfl, List.prefix_append _ _, ?_, fun hname => absurd rfl (hname e)⟩
    exact entry_of_position hval List.getElem?_concat_length
  | className name =>
    obtain ⟨i, hi, hindexes⟩ := intern_of_not_lacksIndex h
    exact ⟨i, _, by rw [PoolRequest.answer, internClass, hi]; rfl, grants_intern rfl hindexes⟩
  | utf8 text =>
    obtain ⟨i, hi, hindexes⟩ := intern_of_not_lacksIndex h
    exact ⟨i, _, by rw [PoolRequest.answer, internUtf8, hi]; rfl, grants_intern rfl hindexes⟩

/-- Everything that a request can do. -/
theorem serve_cases (p : Pool) (r : PoolRequest) :
    p.Refuses r ∧ p.serve r = .error .full p ∨ ¬ p.Refuses r ∧ ∃ i q, p.serve r = .ok i q ∧ p.Grants r i q := by
  by_cases h : p.Refuses r
  · exact .inl ⟨h, serve_of_refuses h⟩
  · exact .inr ⟨h, serve_of_not_refuses h⟩

theorem Indexes.serve (h : p.Indexes r.entry i) (hname : ∀ e, r ≠ .push e) : p.serve r = .ok i p := by
  have hintern : p.intern r.entry = .ok (p, i) := h.intern
  rw [serve_eq]
  cases r with
  | push e => exact absurd rfl (hname e)
  | className name => exact congrArg p.leaves hintern
  | utf8 text => exact congrArg p.leaves hintern

/-! ## Requests in order -/

theorem prefix_after (p : Pool) (rs : List PoolRequest) : p.entries <+: (p.after rs).entries := by
  induction rs generalizing p with
  | nil => exact List.prefix_rfl
  | cons r rs ih =>
    rcases p.serve_cases r with ⟨_, hserve⟩ | ⟨_, i, q, hserve, hgrants⟩
    · rw [after, List.foldl_cons, hserve]
      exact ih p
    · rw [after, List.foldl_cons, hserve]
      exact hgrants.grows.trans (ih q)

namespace Grants

theorem entry_after (h : p.Grants r i q) (later : List PoolRequest) : (q.after later).entry i = .ok r.entry :=
  entry_mono (q.prefix_after later) h.leads

theorem serve_after (h : p.Grants r i q) (hname : ∀ e, r ≠ .push e) (later : List PoolRequest) :
    (q.after later).serve r = .ok i (q.after later) :=
  ((h.named hname).mono (q.prefix_after later)).serve hname

theorem one_le (h : p.Grants r i q) : 1 ≤ i.toNat :=
  Nat.pos_of_ne_zero fun hzero => ne_zero_of_entry h.leads (UInt16.toNat_inj.mp hzero)

end Grants

/-- Whatever has been asked of a pool before: a request fails just if there is no index for it, and then the pool is the
one it was. Otherwise it hands out an index that is not zero; whatever is asked from then on, it leads to the entry, and
whoever asks for the same name gets the same index and leaves the pool as it is. -/
theorem serve_stable (start : Pool) (before : List PoolRequest) (r : PoolRequest) :
    let p := start.after before
    start.entries <+: p.entries ∧
    ((∃ fault q, p.serve r = .error fault q) ↔ p.Refuses r) ∧
    (∀ fault q, p.serve r = .error fault q → fault = .full ∧ q = p) ∧
    (∀ i q, p.serve r = .ok i q → 1 ≤ i.toNat ∧ i.toNat ≤ 65535 ∧ p.entries <+: q.entries ∧ ∀ later,
      (q.after later).entry i = .ok r.entry ∧
      (∀ name, r = .className name →
        (q.after later).className i = .ok name ∧ (q.after later).serve r = .ok i (q.after later)) ∧
      (∀ text, r = .utf8 text →
        (q.after later).utf8 i = .ok text ∧ (q.after later).serve r = .ok i (q.after later))) ∧
    p.serve r = p.leaves (r.answer p) := by
  intro p
  refine ⟨start.prefix_after before, ?_⟩
  rcases p.serve_cases r with ⟨hrefuses, hserve⟩ | ⟨hnot, j, left, hserve, hgrants⟩
  · refine ⟨⟨fun _ => hrefuses, fun _ => ⟨_, _, hserve⟩⟩, ?_, ?_, p.serve_eq r⟩
    · intro fault q hfault
      cases hserve.symm.trans hfault
      exact ⟨rfl, rfl⟩
    · intro i q hok
      cases hserve.symm.trans hok
  · refine ⟨⟨?_, fun hrefuses => absurd hrefuses hnot⟩, ?_, ?_, p.serve_eq r⟩
    · rintro ⟨fault, q, hfault⟩
      cases hserve.symm.trans hfault
    · intro fault q hfault
      cases hserve.symm.trans hfault
    · intro i q hok
      cases hserve.symm.trans hok
      refine ⟨hgrants.one_le, Nat.le_of_lt_succ j.toNat_lt, hgrants.grows, fun later => ?_⟩
      have hleads := hgrants.entry_after later
      refine ⟨hleads, ?_, ?_⟩
      · rintro name rfl
        exact ⟨className_eq_ok.mpr hleads, hgrants.serve_after (by simp) later⟩
      · rintro text rfl
        exact ⟨utf8_eq_ok.mpr hleads, hgrants.serve_after (by simp) later⟩

/-- Of two equal entries the first is found; an entry that is only appended is not looked for. -/
example :
    let p : Pool := ⟨[.utf8 "a", .className "a", .utf8 "a"]⟩
    p.serve (.utf8 "a") = .ok 1 p ∧ p.serve (.push (.utf8 "a")) = .ok 4 ⟨p.entries ++ [.utf8 "a"]⟩ := ⟨rfl, rfl⟩

end Pool
end ClassNest
