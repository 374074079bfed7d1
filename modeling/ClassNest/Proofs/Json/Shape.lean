import ClassNest.Json.Shape
import ClassNest.Proofs.Json.Text

/-!
# Reading a value as what it was written from

`Faithful write read` says that reading undoes writing, and that what is written survives as a text. Plain values,
lists and optional values are faithful as soon as their parts are; a record written by name gives every field back
in its slot (`slots_record`), so that a record is read field by field.
-/
namespace ClassNest.Json

variable {α : Type} {write : α → Json} {read : Json → Option α}

/-- Reading undoes writing, as a value and as a text. -/
structure Faithful (write : α → Json) (read : Json → Option α) : Prop where
  plain : ∀ a, (write a).Plain
  read_write : ∀ a, read (write a) = some a

/-- What is faithful is read back from any text that its value is parsed back from. -/
theorem Faithful.bind_read (h : Faithful write read) {parsed : Option Json} {a : α}
    (hparsed : parsed = some (write a)) :
    parsed.bind read = some a := by
  rw [hparsed, Option.bind_some, h.read_write]

/-! ## Plain values -/

theorem faithful_str : Faithful str asText := ⟨fun s => .text (some s), fun _ => rfl⟩

theorem faithful_bool : Faithful Json.bool asBool := ⟨.bool, fun _ => rfl⟩

/-- Numbers up to a limit, by their natural numbers. -/
theorem faithful_bounded {limit : Nat} {toNat : α → Nat} {ofNat : Nat → α} (hle : ∀ a, toNat a ≤ limit)
    (hof : ∀ a, ofNat (toNat a) = a) :
    Faithful (fun a => .nat (toNat a)) (fun v => (v.asNatUpTo limit).map ofNat) where
  plain a := .nat (toNat a)
  read_write a := by simp [asNatUpTo, asNat, hle, hof]

theorem faithful_uint8 : Faithful (fun n : UInt8 => .nat n.toNat) asUInt8 :=
  faithful_bounded (fun n => Nat.le_of_lt_succ n.toNat_lt) fun _ => UInt8.ofNat_toNat

theorem faithful_uint16 : Faithful (fun n : UInt16 => .nat n.toNat) asUInt16 :=
  faithful_bounded (fun n => Nat.le_of_lt_succ n.toNat_lt) fun _ => UInt16.ofNat_toNat

theorem faithful_uint32 : Faithful (fun n : UInt32 => .nat n.toNat) asUInt32 :=
  faithful_bounded (fun n => Nat.le_of_lt_succ n.toNat_lt) fun _ => UInt32.ofNat_toNat

theorem Faithful.list (h : Faithful write read) : Faithful (Json.list write) (asListOf read) where
  plain xs := by
    refine .array fun v hv => ?_
    obtain ⟨a, -, rfl⟩ := List.mem_map.mp hv
    exact h.plain a
  read_write xs := by
    rw [Json.list, asListOf]
    induction xs with
    | nil => rfl
    | cons a xs ih => simp [List.mapM_cons, h.read_write, ih]

/-- Absence is told apart from a value if `null` is not read as one. -/
theorem Faithful.opt (h : Faithful write read) (hnull : read .null = none) :
    Faithful (Json.opt write) (asOption read) where
  plain a? := by
    cases a? with
    | none => exact .null
    | some a => exact h.plain a
  read_write a? := by
    cases a? with
    | none => rfl
    | some a =>
      have hread := h.read_write a
      rw [Json.opt, asOption, hread]
      · rfl
      · intro hwrite
        rw [hwrite, hnull] at hread
        cases hread

theorem faithful_strings : Faithful strings (asListOf asText) := faithful_str.list

theorem faithful_text? : Faithful (Json.opt str) (asOption asText) := faithful_str.opt rfl

/-! ## Records -/

namespace Slot

variable {v : Json}

@[simp] theorem required_given : (given v).required read = read v := rfl

@[simp] theorem withDefault_given {d : α} : (given v).withDefault d read = read v := rfl

@[simp] theorem nullable_given : (given v).nullable read = v.asOption read := rfl

end Slot

theorem plain_record {members : List (String × Json)} (h : ∀ m ∈ members, m.2.Plain) : (record members).Plain := by
  refine .object fun m hm => ?_
  obtain ⟨member, hmember, rfl⟩ := List.mem_map.mp hm
  exact h member hmember

theorem filter_fst_eq_singleton {members : List (String × Json)} (hnodup : (members.map (·.1)).Nodup)
    {m : String × Json} (hm : m ∈ members) : members.filter (fun member => member.1 == m.1) = [m] := by
  induction members with
  | nil => cases hm
  | cons first rest ih =>
    obtain ⟨hfirst, hrest⟩ := List.nodup_cons.mp hnodup
    obtain rfl | hm := List.mem_cons.mp hm
    · have hnone : rest.filter (fun member => member.1 == m.1) = [] := by
        rw [List.filter_eq_nil_iff]
        intro member hmember heq
        exact hfirst (List.mem_map.mpr ⟨member, hmember, by simpa using heq⟩)
      rw [List.filter_cons_of_pos (by simp), hnone]
    · have hne : first.1 ≠ m.1 := fun heq => hfirst (List.mem_map.mpr ⟨m, hm, heq.symm⟩)
      rw [List.filter_cons_of_neg (by simpa using hne), ih hrest hm]

theorem memberSlot_record {members : List (String × Json)} (hnodup : (members.map (·.1)).Nodup)
    {m : String × Json} (hm : m ∈ members) :
    memberSlot (members.map fun m => (some m.1, m.2)) m.1 = some (.given m.2) := by
  have hvalues : valuesOf m.1 (members.map fun m => (some m.1, m.2)) = [m.2] := by
    have hfilter := filter_fst_eq_singleton hnodup hm
    simp [valuesOf, List.filter_map, Function.comp_def, hfilter]
  rw [memberSlot, hvalues]

/-- A record written by name, each name once, gives every field its value. -/
theorem slots_record {names : List String} {members : List (String × Json)}
    (hnames : members.map (·.1) = names) (hnodup : names.Nodup) :
    (record members).slots names = some (members.map fun m => .given m.2) := by
  subst hnames
  have hnamed : (members.map fun m => (some m.1, m.2)).all (·.1.isSome) := by simp
  change (record members).namedSlots _ = _
  rw [record, namedSlots, if_pos hnamed]
  -- the names are looked up one by one, each among all members
  suffices h : ∀ asked : List (String × Json), (∀ m ∈ asked, m ∈ members) →
      (asked.map (·.1)).mapM (memberSlot (members.map fun m => (some m.1, m.2))) =
        some (asked.map fun m => .given m.2) from h members fun _ => id
  intro asked
  induction asked with
  | nil => intro _; rfl
  | cons m asked ih =>
    intro hasked
    have hm := memberSlot_record hnodup (hasked m List.mem_cons_self)
    simp [List.mapM_cons, hm, ih fun m' hm' => hasked m' (List.mem_cons_of_mem m hm')]

end ClassNest.Json
