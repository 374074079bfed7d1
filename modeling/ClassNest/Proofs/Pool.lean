import ClassNest.Proofs.Distinct

/-!
# Indices of a constant pool

A pool only grows at its end, so that an index leads to the same entry for good (`Pool.entry_mono`), and the first
entry of its kind stays the first (`Pool.Indexes.mono`). An entry that is asked for gets an index unless it lacks one
(`Pool.LacksIndex`). A pool within its limits takes one more entry just if it has it already or there is an index left
(`Pool.intern_cases`).
-/
namespace ClassNest
namespace Pool

variable {p q : Pool} {e : PoolEntry} {i : UInt16} {name : String} {position : Nat}

/-! ## Indices lead to the same entry for good -/

theorem entry_mono (h : p.entries <+: q.entries) (hi : p.entry i = .ok e) : q.entry i = .ok e := by
  unfold entry at *
  split
  · rename_i hzero
    rw [if_pos hzero] at hi
    cases hi
  · rename_i hpos
    rw [if_neg hpos] at hi
    split at hi
    · rename_i found hfound
      obtain ⟨hlt, _⟩ := List.getElem?_eq_some_iff.mp hfound
      obtain ⟨more, hmore⟩ := h
      rw [← hmore, List.getElem?_append_left hlt, hfound]
      exact hi
    · cases hi

theorem className_eq_ok : p.className i = .ok name ↔ p.entry i = .ok (.className name) := by
  unfold className
  cases p.entry i with
  | error fault => simp [bind, Except.bind]
  | ok found => cases found <;> simp [bind, Except.bind]

theorem utf8_eq_ok : p.utf8 i = .ok name ↔ p.entry i = .ok (.utf8 name) := by
  unfold utf8
  cases p.entry i with
  | error fault => simp [bind, Except.bind]
  | ok found => cases found <;> simp [bind, Except.bind]

theorem className_mono (h : p.entries <+: q.entries) (hi : p.className i = .ok name) : q.className i = .ok name :=
  className_eq_ok.mpr (entry_mono h (className_eq_ok.mp hi))

theorem utf8_mono (h : p.entries <+: q.entries) (hi : p.utf8 i = .ok name) : q.utf8 i = .ok name :=
  utf8_eq_ok.mpr (entry_mono h (utf8_eq_ok.mp hi))

theorem resolve?_mono {f g : UInt16 → Except PoolFault String} (h : ∀ {i name}, f i = .ok name → g i = .ok name)
    {found : Option String} (hi : resolve? f i = .ok found) : resolve? g i = .ok found := by
  unfold resolve? at *
  split
  · rename_i hzero
    rw [if_pos hzero] at hi
    exact hi
  · rename_i hpos
    rw [if_neg hpos] at hi
    cases hf : f i with
    | error fault => rw [hf] at hi; cases hi
    | ok name =>
      rw [hf] at hi
      rw [h hf]
      exact hi

/-- The index leads to the entry, or is zero where there is none. -/
def Leads (p : Pool) (i : UInt16) : Option PoolEntry → Prop
  | none => i = 0
  | some e => p.entry i = .ok e

theorem resolve?_of_ok {f : UInt16 → Except PoolFault String} (hi : i ≠ 0) (hf : f i = .ok name) :
    resolve? f i = .ok (some name) := by
  unfold resolve?
  rw [if_neg hi, hf]
  rfl

theorem ne_zero_of_entry (h : p.entry i = .ok e) : i ≠ 0 := by
  rintro rfl
  simp [entry] at h

theorem Leads.className {name : Option String} (h : p.Leads i (name.map .className)) :
    resolve? p.className i = .ok name := by
  cases name with
  | none => rw [show i = 0 from h]; rfl
  | some name => exact resolve?_of_ok (ne_zero_of_entry h) (className_eq_ok.mpr h)

theorem Leads.utf8 {text : Option String} (h : p.Leads i (text.map .utf8)) : resolve? p.utf8 i = .ok text := by
  cases text with
  | none => rw [show i = 0 from h]; rfl
  | some text => exact resolve?_of_ok (ne_zero_of_entry h) (utf8_eq_ok.mpr h)

/-! ## Making indices -/

theorem indexAt_of_le (h : position + 1 ≤ lastPoolIndex) :
    ∃ i, indexAt position = .ok i ∧ i.toNat = position + 1 := by
  refine ⟨UInt16.ofNat (position + 1), if_pos h, ?_⟩
  rw [UInt16.toNat_ofNat']
  exact Nat.mod_eq_of_lt (Nat.lt_succ_of_le h)

theorem entry_of_position (hi : i.toNat = position + 1) (he : p.entries[position]? = some e) : p.entry i = .ok e := by
  have hpos : i ≠ 0 := by
    rintro rfl
    simp at hi
  unfold entry
  rw [if_neg hpos, hi, Nat.add_sub_cancel, he]

theorem indexAt_of_gt (h : lastPoolIndex < position + 1) : indexAt position = .error .full := if_neg (Nat.not_le.mpr h)

theorem push_of_room (h : p.size + 1 ≤ lastPoolIndex) (e : PoolEntry) :
    ∃ i, p.push e = .ok (⟨p.entries ++ [e]⟩, i) ∧ i.toNat = p.size + 1 := by
  obtain ⟨i, hi, hval⟩ := indexAt_of_le h
  refine ⟨i, ?_, hval⟩
  rw [push, hi]
  rfl

theorem push_of_full (h : lastPoolIndex ≤ p.size) (e : PoolEntry) : p.push e = .error .full := by
  rw [push, indexAt_of_gt (Nat.lt_succ_of_le h)]
  rfl

/-- The index is that of the first entry equal to `e`. -/
def Indexes (p : Pool) (e : PoolEntry) (i : UInt16) : Prop :=
  ∃ position, p.entries.findIdx? (· == e) = some position ∧ i.toNat = position + 1

theorem Indexes.entry (h : p.Indexes e i) : p.entry i = .ok e := by
  obtain ⟨position, hpos, hval⟩ := h
  obtain ⟨hlt, hfound, _⟩ := List.findIdx?_eq_some_iff_getElem.mp hpos
  refine entry_of_position hval ?_
  rw [List.getElem?_eq_getElem hlt, beq_iff_eq.mp hfound]

/-- The first entry of its kind stays the first. -/
theorem Indexes.mono (h : p.entries <+: q.entries) (hi : p.Indexes e i) : q.Indexes e i := by
  obtain ⟨more, hmore⟩ := h
  obtain ⟨position, hpos, hval⟩ := hi
  refine ⟨position, ?_, hval⟩
  rw [← hmore, List.findIdx?_append, hpos, Option.some_or]

theorem Indexes.intern (h : p.Indexes e i) : p.intern e = .ok (p, i) := by
  obtain ⟨position, hpos, hval⟩ := h
  have hle : position + 1 ≤ lastPoolIndex := hval ▸ Nat.le_of_lt_succ i.toNat_lt
  obtain ⟨j, hj, hjval⟩ := indexAt_of_le hle
  obtain rfl : j = i := UInt16.toNat_inj.mp (hjval.trans hval.symm)
  simp only [Pool.intern, hpos, hj]
  rfl

/-- There is no index for the entry: it is not there and has no room, or the first one equal to it lies out of reach. -/
def LacksIndex (p : Pool) (e : PoolEntry) : Prop :=
  e ∉ p.entries ∧ lastPoolIndex ≤ p.size ∨
    ∃ position, p.entries.findIdx? (· == e) = some position ∧ lastPoolIndex < position + 1

theorem findIdx?_of_not_mem (h : e ∉ p.entries) : p.entries.findIdx? (· == e) = none :=
  List.findIdx?_eq_none_iff.mpr fun _ hx => beq_false_of_ne fun hxe => h (hxe ▸ hx)

theorem intern_of_lacksIndex (h : p.LacksIndex e) : p.intern e = .error .full := by
  rcases h with ⟨hnew, hfull⟩ | ⟨position, hpos, hgt⟩
  · simp only [intern, findIdx?_of_not_mem hnew, push_of_full hfull]
  · simp only [intern, hpos, indexAt_of_gt hgt]
    rfl

theorem intern_of_not_lacksIndex (h : ¬ p.LacksIndex e) :
    ∃ i, p.intern e = .ok (⟨pushNew p.entries e⟩, i) ∧ Indexes ⟨pushNew p.entries e⟩ e i := by
  by_cases he : e ∈ p.entries
  · have hsome : (p.entries.findIdx? (· == e)).isSome = true := by
      rw [List.findIdx?_isSome, List.any_eq_true]
      exact ⟨e, he, by simp⟩
    obtain ⟨position, hpos⟩ := Option.isSome_iff_exists.mp hsome
    have hle : position + 1 ≤ lastPoolIndex := Nat.le_of_not_lt fun hgt => h (.inr ⟨position, hpos, hgt⟩)
    obtain ⟨i, _, hval⟩ := indexAt_of_le hle
    have hi : p.Indexes e i := ⟨position, hpos, hval⟩
    rw [pushNew_of_mem he]
    exact ⟨i, hi.intern, hi⟩
  · have hroom : p.size + 1 ≤ lastPoolIndex := Nat.lt_of_not_le fun hfull => h (.inl ⟨he, hfull⟩)
    have hnone := findIdx?_of_not_mem he
    obtain ⟨i, hpush, hval⟩ := push_of_room hroom e
    rw [pushNew_of_not_mem he]
    refine ⟨i, by simp only [intern, hnone, hpush], p.size, ?_, hval⟩
    rw [List.findIdx?_append, hnone]
    simp [size]

/-- All that can happen when an entry is looked for in a pool that has an index for each of its entries. -/
theorem intern_cases (hp : p.size ≤ lastPoolIndex) (e : PoolEntry) :
    (∃ i, p.intern e = .ok (⟨pushNew p.entries e⟩, i) ∧ Pool.entry ⟨pushNew p.entries e⟩ i = .ok e ∧
      (pushNew p.entries e).length ≤ lastPoolIndex) ∨
    p.intern e = .error .full ∧ lastPoolIndex < (pushNew p.entries e).length := by
  by_cases hlacks : p.LacksIndex e
  · refine .inr ⟨intern_of_lacksIndex hlacks, ?_⟩
    rcases hlacks with ⟨hnew, hfull⟩ | ⟨position, hpos, hgt⟩
    · rw [pushNew_of_not_mem hnew, List.length_append]
      exact Nat.lt_succ_of_le hfull
    · obtain ⟨hlt, _⟩ := List.findIdx?_eq_some_iff_getElem.mp hpos
      exact absurd (Nat.lt_of_lt_of_le hgt hlt) (Nat.not_lt.mpr hp)
  · obtain ⟨i, hi, hindexes⟩ := intern_of_not_lacksIndex hlacks
    refine .inl ⟨i, hi, hindexes.entry, ?_⟩
    by_cases he : e ∈ p.entries
    · rw [pushNew_of_mem he]
      exact hp
    · rw [pushNew_of_not_mem he, List.length_append]
      exact Nat.lt_of_not_le fun hfull => hlacks (.inl ⟨he, hfull⟩)

end Pool
end ClassNest
