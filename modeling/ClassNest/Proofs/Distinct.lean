import ClassNest.Nesting.Index
import Mathlib.Data.List.Basic
import Mathlib.Data.List.Induction

/-!
# Lists without repeats

`pushNew` adds an item that is not there yet. A list filled that way is `List.eraseDups` of everything that was
offered to it (`eraseDups_concat`). A table has one entry for each name, and taking an entry out leaves the others
alone.
-/
namespace ClassNest

theorem mem_pushNew {α : Type} [BEq α] [LawfulBEq α] {xs : List α} {a b : α} :
    b ∈ pushNew xs a ↔ b ∈ xs ∨ b = a := by
  unfold pushNew
  split
  · rename_i h
    constructor
    · exact .inl
    · rintro (hb | rfl)
      · exact hb
      · exact List.contains_iff_mem.mp h
  · simp

theorem pushNew_of_not_mem {α : Type} [BEq α] [LawfulBEq α] {xs : List α} {a : α} (h : a ∉ xs) :
    pushNew xs a = xs ++ [a] := by
  unfold pushNew
  rw [if_neg (by simpa using h)]

theorem pushNew_of_mem {α : Type} [BEq α] [LawfulBEq α] {xs : List α} {a : α} (h : a ∈ xs) : pushNew xs a = xs := by
  unfold pushNew
  rw [if_pos (by simpa using h)]

theorem prefix_pushNew {α : Type} [BEq α] (xs : List α) (a : α) : xs <+: pushNew xs a := by
  unfold pushNew
  split
  · exact List.prefix_rfl
  · exact List.prefix_append xs [a]

theorem nodup_pushNew {α : Type} [BEq α] [LawfulBEq α] {xs : List α} (h : xs.Nodup) (a : α) :
    (pushNew xs a).Nodup := by
  by_cases ha : a ∈ xs
  · rw [pushNew_of_mem ha]
    exact h
  · rw [pushNew_of_not_mem ha, List.nodup_append]
    refine ⟨h, by simp, ?_⟩
    rintro b hb c hc rfl
    exact ha (List.mem_singleton.mp hc ▸ hb)

/-- Pushing items that differ from each other leaves out just those that were there before. -/
theorem foldl_pushNew {α : Type} [BEq α] [LawfulBEq α] {ys : List α} (h : ys.Nodup) (xs : List α) :
    ys.foldl pushNew xs = xs ++ ys.filter fun y => !xs.contains y := by
  induction ys generalizing xs with
  | nil => simp
  | cons y ys ih =>
    obtain ⟨hy, hys⟩ := List.nodup_cons.mp h
    rw [List.foldl_cons, ih hys]
    by_cases hmem : y ∈ xs
    · rw [pushNew_of_mem hmem, List.filter_cons_of_neg (by simpa using hmem)]
    · rw [pushNew_of_not_mem hmem, List.filter_cons_of_pos (by simpa using hmem), List.append_assoc,
        List.singleton_append]
      congr 2
      refine List.filter_congr fun z hz => ?_
      have hne : z ≠ y := fun hzy => hy (hzy ▸ hz)
      simp [hne]

theorem eraseDups_concat {α : Type} [BEq α] [LawfulBEq α] (xs : List α) (a : α) :
    (xs ++ [a]).eraseDups = pushNew xs.eraseDups a := by
  rw [List.eraseDups_append]
  by_cases ha : a ∈ xs
  · have hnone : [a].removeAll xs = [] := by simp [List.removeAll, ha]
    rw [hnone, List.eraseDups_nil, List.append_nil, pushNew_of_mem (by simpa using ha)]
  · have hone : [a].removeAll xs = [a] := by simp [List.removeAll, ha]
    rw [hone, pushNew_of_not_mem (by simpa using ha)]
    rfl

theorem nodup_eraseDups {α : Type} [BEq α] [LawfulBEq α] (xs : List α) : xs.eraseDups.Nodup := by
  induction xs using List.reverseRecOn with
  | nil => exact List.nodup_nil
  | append_singleton xs a ih =>
    rw [eraseDups_concat]
    exact nodup_pushNew ih a

theorem eraseDups_of_nodup {α : Type} [BEq α] [LawfulBEq α] {xs : List α} (h : xs.Nodup) : xs.eraseDups = xs := by
  induction xs using List.reverseRecOn with
  | nil => rfl
  | append_singleton xs a ih =>
    obtain ⟨hxs, _, hne⟩ := List.nodup_append.mp h
    have ha : a ∉ xs := fun hmem => hne a hmem a (by simp) rfl
    rw [eraseDups_concat, ih hxs, pushNew_of_not_mem ha]

/-! ## Tables without repeats -/

theorem lookup_filter_ne {α : Type} {q name : String} (h : name ≠ q) :
    ∀ l : List (String × α), (l.filter (·.1 != q)).lookup name = l.lookup name
  | [] => rfl
  | (k, v) :: l => by
    by_cases hk : k = q
    · rw [List.filter_cons_of_neg (by simp [hk]), lookup_filter_ne h l, List.lookup_cons, hk,
        beq_false_of_ne h]
    · rw [List.filter_cons_of_pos (by simp [hk]), List.lookup_cons, List.lookup_cons,
        lookup_filter_ne h l]

end ClassNest
