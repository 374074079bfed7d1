import ClassNest.Proofs.Distinct
import ClassNest.Renaming.Convention
import Mathlib.Data.List.Nodup
import Mathlib.Data.List.Perm.Subperm

/-!
# The names that a convention hands out

A name is replaced by what is left of it without the digits in front, or else by a numbered name (`replacement_cases`).
What is left is handed out once; the numbers go up. So the convention remembers what was left of the names it was asked
for, and how many of the calls it answered by a number (`Remembers.step`), and its answers are the former and the
numbered names up to there (`Remembers.answers`).

Each of the two kinds is free of repeats, but they are not compared with each other: a name can be left over that is a
numbered name too (`replacements_meet`), and this is the only way in which a name comes up twice
(`replacements_nodup_iff`). Nor is a leftover asked whether it can stand in source code: it does not start with a digit,
but it can be too short or a reserved word (`replacement_shouldRename_iff`, `replacement_of_unusable`).
-/
namespace ClassNest

/-- The replacements for the simple names of some classes, one call after the other, and the state after them. -/
def Policy.replaceAll {σ : Type} (p : Policy σ) : σ → List (String × String) → List String × σ
  | s, [] => ([], s)
  | s, (key, name) :: calls =>
    let one := p.nextClassName key name s
    let rest := p.replaceAll one.2 calls
    (one.1 :: rest.1, rest.2)

namespace Convention

/-! ## One call -/

theorem nextClassName_policy (key name : String) (s : Names) : policy.nextClassName key name s = replacement name s := rfl

theorem shouldRename_policy (kind : ElementKind) (name : String) (s : Names) :
    policy.shouldRename kind name s = (isUnusable kind name, s) := rfl

/-- The name without the digits in front, if there are digits and something is left. -/
def leftover? (name : String) : Option String :=
  if stripDigits name = name ∨ stripDigits name = "" then none else some (stripDigits name)

/-- The name with the number `k`. -/
def numberedName (k : Nat) : String := "class_" ++ toString k

theorem numbered_eq (s : Names) : numbered s = (numberedName s.next.toNat, { s with next := s.next + 1 }) := rfl

/-- Everything that a call can do: hand out what is left of the name, or the next number. -/
theorem replacement_cases (name : String) (s : Names) :
    (∃ r, leftover? name = some r ∧ r ∉ s.used ∧ replacement name s = (r, { s with used := s.used ++ [r] })) ∨
    ((∀ r, leftover? name = some r → r ∈ s.used) ∧ replacement name s = numbered s) := by
  unfold leftover? replacement
  by_cases hleft : stripDigits name = name ∨ stripDigits name = ""
  · refine .inr ⟨by simp [hleft], if_pos ?_⟩
    rcases hleft with h | h <;> simp [h]
  · obtain ⟨hname, hempty⟩ := not_or.mp hleft
    by_cases hused : stripDigits name ∈ s.used
    · exact .inr ⟨by simp [hleft, hused], if_pos (by simp [hused])⟩
    · exact .inl ⟨_, by simp [hleft], hused, if_neg (by simp [hname, hempty, hused])⟩

theorem startsWithDigit_stripDigits (name : String) : startsWithDigit (stripDigits name) = false := by
  unfold startsWithDigit stripDigits
  rw [String.toList_ofList]
  split
  · rename_i c rest hdrop
    have hhead := List.head?_dropWhile_not Char.isDigit name.toList
    rw [hdrop] at hhead
    simpa using hhead
  · rfl

theorem startsWithDigit_leftover {name r : String} (h : leftover? name = some r) : startsWithDigit r = false := by
  unfold leftover? at h
  split at h
  · cases h
  · cases h
    exact startsWithDigit_stripDigits name

theorem toList_numberedName (k : Nat) : (numberedName k).toList = "class_".toList ++ (toString k).toList := by
  simp [numberedName]

theorem startsWithDigit_numberedName (k : Nat) : startsWithDigit (numberedName k) = false := by
  unfold startsWithDigit
  rw [toList_numberedName]
  rfl

/-- A numbered name can stand in source code: it starts with a letter, has more than two bytes, and no reserved word has
an underscore. -/
theorem isUnusable_numberedName (k : Nat) : isUnusable .class (numberedName k) = false := by
  have hdigit := startsWithDigit_numberedName k
  have hlong : ¬ (numberedName k).utf8ByteSize ≤ 2 := by
    have hword : "class_".utf8ByteSize = 6 := by decide
    rw [numberedName, String.utf8ByteSize_append, hword]
    omega
  have hreserved : numberedName k ∉ reserved := by
    have hplain : ∀ word ∈ reserved, '_' ∉ word.toList := by decide
    intro hmem
    refine hplain _ hmem ?_
    rw [toList_numberedName]
    simp
  simp [isUnusable, hdigit, hlong, hreserved]

theorem numberedName_injective {j k : Nat} (h : numberedName j = numberedName k) : j = k := by
  have hrepr : j.repr = k.repr := (String.append_right_inj "class_").mp h
  have hdigits : Nat.toDigits 10 j = Nat.toDigits 10 k := by rw [← Nat.toList_repr, ← Nat.toList_repr, hrepr]
  rw [← Nat.ofDigitChars_ten_toDigits (n := j), hdigits, Nat.ofDigitChars_ten_toDigits]

/-! ## One call after the other -/

/-- What is left of the names, each once. -/
def leftovers (names : List String) : List String := (names.filterMap leftover?).eraseDups

/-- How many of the calls are answered by a number. -/
def numberedCalls (names : List String) : Nat := names.length - (leftovers names).length

theorem length_leftovers_le (names : List String) : (leftovers names).length ≤ names.length := by
  have hsub : leftovers names ⊆ names.filterMap leftover? := fun r hr => List.mem_eraseDups.mp hr
  exact Nat.le_trans ((nodup_eraseDups _).subperm hsub).length_le (List.length_filterMap_le leftover? names)

theorem leftovers_concat (names : List String) (name : String) :
    leftovers (names ++ [name]) =
      match leftover? name with
      | some r => pushNew (leftovers names) r
      | none => leftovers names := by
  unfold leftovers
  rw [List.filterMap_append]
  cases hr : leftover? name with
  | none => simp [hr]
  | some r =>
    have hone : [name].filterMap leftover? = [r] := by simp [hr]
    rw [hone, eraseDups_concat]

/-- What the convention remembers of the calls, and what it answered, as long as the numbers do not start anew. -/
structure Remembers (names answers : List String) (s : Names) : Prop where
  used : s.used = leftovers names
  next : s.next = UInt32.ofNat (numberedCalls names)
  answers : names.length ≤ UInt32.size →
    answers.Perm (leftovers names ++ (List.range (numberedCalls names)).map numberedName)

theorem remembers_start : Remembers [] [] {} := ⟨rfl, rfl, fun _ => .nil⟩

theorem Remembers.step {names answers : List String} {s : Names} (h : Remembers names answers s) (name : String) :
    Remembers (names ++ [name]) (answers ++ [(replacement name s).1]) (replacement name s).2 := by
  have hle := length_leftovers_le names
  rcases replacement_cases name s with ⟨r, hr, hnew, heq⟩ | ⟨hold, heq⟩
  -- the answer is a new leftover, which goes in front of the numbered names
  · rw [h.used] at hnew
    have hleft : leftovers (names ++ [name]) = leftovers names ++ [r] := by
      rw [leftovers_concat, hr]
      exact pushNew_of_not_mem hnew
    have hcount : numberedCalls (names ++ [name]) = numberedCalls names := by
      simp [numberedCalls, hleft]
    rw [heq]
    refine ⟨?_, ?_, fun hlen => ?_⟩
    · rw [hleft, ← h.used]
    · rw [hcount]
      exact h.next
    · have hperm := h.answers (by rw [List.length_append] at hlen; omega)
      rw [hleft, hcount, List.append_assoc]
      refine (hperm.append_right [r]).trans ?_
      rw [List.append_assoc]
      exact List.perm_append_comm.append_left _
  -- nothing new is left, and the answer is the next numbered name
  · have hleft : leftovers (names ++ [name]) = leftovers names := by
      rw [leftovers_concat]
      cases hr : leftover? name with
      | none => rfl
      | some r => exact pushNew_of_mem (h.used ▸ hold r hr)
    have hcount : numberedCalls (names ++ [name]) = numberedCalls names + 1 := by
      simp only [numberedCalls, hleft, List.length_append, List.length_singleton]
      omega
    rw [heq, numbered_eq]
    refine ⟨?_, ?_, fun hlen => ?_⟩
    · rw [hleft, ← h.used]
    · rw [hcount, UInt32.ofNat_add, ← h.next]
      rfl
    · rw [List.length_append, List.length_singleton] at hlen
      -- the counter has not wrapped yet, so that it is the number of numbered calls
      have hnumber : s.next.toNat = numberedCalls names := by
        rw [h.next]
        exact UInt32.toNat_ofNat_of_lt (Nat.lt_of_le_of_lt (Nat.sub_le _ _) hlen)
      rw [hleft, hcount, hnumber, List.range_succ, List.map_append, ← List.append_assoc]
      exact (h.answers (by omega)).append_right _

theorem Remembers.replaceAll : ∀ (calls : List (String × String)) {names answers : List String} {s : Names},
    Remembers names answers s →
    Remembers (names ++ calls.map (·.2)) (answers ++ (policy.replaceAll s calls).1) (policy.replaceAll s calls).2
  | [], names, answers, s, h => by
    simpa [Policy.replaceAll] using h
  | (key, name) :: calls, names, answers, s, h => by
    have hrest := Remembers.replaceAll calls (h.step name)
    simpa [Policy.replaceAll, nextClassName_policy] using hrest

/-- What is left of names and the first numbered names are free of repeats, each for itself. -/
theorem nodup_leftovers_append_iff {names : List String} {n : Nat} :
    (leftovers names ++ (List.range n).map numberedName).Nodup ↔ ∀ k < n, numberedName k ∉ leftovers names := by
  have hnumbers : ((List.range n).map numberedName).Nodup := List.nodup_range.map fun _ _ => numberedName_injective
  rw [List.nodup_append]
  constructor
  · rintro ⟨_, _, hne⟩ k hk hmem
    exact hne _ hmem _ (List.mem_map_of_mem (List.mem_range.mpr hk)) rfl
  · intro hnot
    refine ⟨nodup_eraseDups _, hnumbers, ?_⟩
    rintro r hr _ hnumber rfl
    obtain ⟨k, hk, rfl⟩ := List.mem_map.mp hnumber
    exact hnot k (List.mem_range.mp hk) hr

/-- The answers to fewer calls than there are numbers are what is left of the names, each once, and the first numbered
names. They are pairwise distinct just if nothing is left that is one of these numbered names; in particular if no name
is a numbered name behind digits. -/
theorem replacements_nodup_iff (calls : List (String × String)) (hcalls : calls.length < UInt32.size) :
    (policy.replaceAll {} calls).1.Perm
      (leftovers (calls.map (·.2)) ++ (List.range (numberedCalls (calls.map (·.2)))).map numberedName) ∧
    ((policy.replaceAll {} calls).1.Nodup ↔
      ∀ k < numberedCalls (calls.map (·.2)), numberedName k ∉ leftovers (calls.map (·.2))) ∧
    ((∀ call ∈ calls, ∀ k, leftover? call.2 ≠ some (numberedName k)) → (policy.replaceAll {} calls).1.Nodup) := by
  have hlen : (calls.map (·.2)).length ≤ UInt32.size := by rw [List.length_map]; omega
  have hperm := (remembers_start.replaceAll calls).answers hlen
  rw [List.nil_append, List.nil_append] at hperm
  have hiff := hperm.nodup_iff.trans nodup_leftovers_append_iff
  refine ⟨hperm, hiff, fun hcalls => hiff.mpr ?_⟩
  intro k _ hmem
  obtain ⟨name, hname, hleft⟩ := List.mem_filterMap.mp (List.mem_eraseDups.mp hmem)
  obtain ⟨call, hcall, rfl⟩ := List.mem_map.mp hname
  exact hcalls call hcall k hleft

/-- Two classes with the same name behind different digits, a reserved word, and digits alone. -/
def clashingCalls : List (String × String) :=
  [("app/A$1Helper", "1Helper"), ("app/B$2Helper", "2Helper"), ("app/C$int", "int"), ("app/C$123", "123")]

theorem replacements_nodup_iff_clashingCalls :
    clashingCalls.length < UInt32.size ∧ (∀ call ∈ clashingCalls, isUnusable .class call.2 = true) ∧
    (policy.replaceAll {} clashingCalls).1 = ["Helper", "class_0", "class_1", "class_2"] ∧
    (policy.replaceAll {} clashingCalls).1.Nodup :=
  ⟨by decide, by decide, by decide,
    (replacements_nodup_iff clashingCalls (by decide)).2.1.mpr (by decide)⟩

/-- A reserved word gets the first number, and what is left of the other name is the name with that number. -/
theorem replacements_meet :
    isUnusable .class "int" = true ∧ isUnusable .class "1class_0" = true ∧
    (policy.replaceAll {} [("app/A$int", "int"), ("app/A$1class_0", "1class_0")]).1 = ["class_0", "class_0"] := by
  decide

/-! ## Names that would have to be replaced again -/

theorem startsWithDigit_replacement (name : String) (s : Names) : startsWithDigit (replacement name s).1 = false := by
  rcases replacement_cases name s with ⟨r, hleft, _, heq⟩ | ⟨_, heq⟩
  · rw [heq]
    exact startsWithDigit_leftover hleft
  · rw [heq, numbered_eq]
    exact startsWithDigit_numberedName _

theorem isUnusable_replacement_iff (name : String) (s : Names) : isUnusable .class (replacement name s).1 = true ↔
    leftover? name = some (replacement name s).1 ∧ (replacement name s).1 ∉ s.used ∧
      ((replacement name s).1.utf8ByteSize ≤ 2 ∨ (replacement name s).1 ∈ reserved) := by
  have hdigit := startsWithDigit_replacement name s
  rcases replacement_cases name s with ⟨r, hleft, hnew, heq⟩ | ⟨hold, heq⟩
  · simp only [heq] at hdigit ⊢
    simp [isUnusable, hdigit, hleft, hnew]
  · rw [heq, numbered_eq]
    refine iff_of_false (by simp [isUnusable_numberedName]) ?_
    rintro ⟨hleft, hnew, _⟩
    exact hnew (hold _ hleft)

/-- After any calls, a replacement does not start with a digit. It would have to be replaced again just if it is what is
left of the name, handed out for the first time, and is too short or a reserved word. -/
theorem replacement_shouldRename_iff (calls : List (String × String)) (key name : String) :
    let s := (policy.replaceAll {} calls).2
    let r := (policy.nextClassName key name s).1
    startsWithDigit r = false ∧
    ((policy.shouldRename .class r s).1 = true ↔ leftover? name = some r ∧ r ∉ leftovers (calls.map (·.2)) ∧
      (r.utf8ByteSize ≤ 2 ∨ r ∈ reserved)) := by
  intro s
  have hused : s.used = leftovers (calls.map (·.2)) := (remembers_start.replaceAll calls).used
  simp only [nextClassName_policy, shouldRename_policy, ← hused]
  exact ⟨startsWithDigit_replacement name s, isUnusable_replacement_iff name s⟩

/-- What is left of a name behind a digit can be a reserved word, and it can be too short. -/
theorem replacement_of_unusable :
    isUnusable .class "1int" = true ∧ (policy.nextClassName "app/A$1int" "1int" {}).1 = "int" ∧
      isUnusable .class "int" = true ∧
    isUnusable .class "1ab" = true ∧ (policy.nextClassName "app/A$1ab" "1ab" {}).1 = "ab" ∧
      isUnusable .class "ab" = true := by
  decide

end Convention
end ClassNest
