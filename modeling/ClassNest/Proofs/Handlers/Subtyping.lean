import ClassNest.Handlers.Subtyping
import ClassNest.Proofs.Distinct
import Mathlib.Data.List.Flatten
import Mathlib.Data.List.Induction
import Mathlib.Logic.Relation

/-!
# Subtypes are what steps up lead to

`Searches` is the search through a stack of pending classes, with no bound on its steps. A class is expanded once, and
only then adds to the stack, so that the bound of `Registry.reaches` is never met (`searches_reaches`). The search finds
its goal just if steps from a loaded class to its super class or an interface lead there: what it finds it has walked
to, and when it gives up, what it has seen is closed under steps (`Searches.sound`, `Searches.complete`).

Remembered answers are answers of searches, one for each pair that needed one (`Remembers`). So what was asked before
makes no difference to an answer (`isSubtype_iff`).
-/
namespace ClassNest

namespace Registry
variable {reg : Registry} {goal : String} {seen pending : List String} {answer : Bool}

/-- The class was loaded, and the other one is its super class or one of its interfaces. -/
def StepsUp (reg : Registry) (a b : String) : Prop :=
  ∃ c, reg.class? a = some c ∧ (c.superClass = some b ∨ b ∈ c.interfaces)

/-- What a search looks at after a class. -/
def above (reg : Registry) (name : String) : List String :=
  match reg.class? name with
  | some c => c.supertypes.reverse
  | none => []

theorem mem_above {a b : String} : b ∈ reg.above a ↔ reg.StepsUp a b := by
  unfold above StepsUp
  cases reg.class? a with
  | none => simp
  | some c => simp [ClassFile.supertypes, or_comm]

/-! ## The search without a bound -/

/-- The search for `goal`, to its end: the classes seen, the classes pending, and the answer. -/
inductive Searches (reg : Registry) (goal : String) : List String → List String → Bool → Prop
  | exhausted {seen : List String} : Searches reg goal seen [] false
  | found {seen pending : List String} : Searches reg goal seen (goal :: pending) true
  | again {current : String} {seen pending : List String} {answer : Bool} (hne : current ≠ goal) (hs : current ∈ seen)
      (rest : Searches reg goal seen pending answer) : Searches reg goal seen (current :: pending) answer
  | expand {current : String} {seen pending : List String} {answer : Bool} (hne : current ≠ goal) (hs : current ∉ seen)
      (rest : Searches reg goal (current :: seen) (reg.above current ++ pending) answer) :
      Searches reg goal seen (current :: pending) answer

theorem Searches.unique (h : reg.Searches goal seen pending answer) :
    ∀ {other : Bool}, reg.Searches goal seen pending other → other = answer := by
  induction h with
  | exhausted => intro other ho; cases ho; rfl
  | found =>
    intro other ho
    cases ho with
    | found => rfl
    | again hne => exact absurd rfl hne
    | expand hne => exact absurd rfl hne
  | again hne hs _ ih =>
    intro other ho
    cases ho with
    | found => exact absurd rfl hne
    | again _ _ rest => exact ih rest
    | expand _ hn => exact absurd hs hn
  | expand hne hs _ ih =>
    intro other ho
    cases ho with
    | found => exact absurd rfl hne
    | again _ hm => exact absurd hm hs
    | expand _ _ rest => exact ih rest

/-! ## The bound -/

/-- How much the classes that were not seen yet can still add to the stack. -/
def unseenSteps (reg : Registry) (seen : List String) : Nat :=
  (((reg.units.filterMap (·.class?)).filter (·.name ∉ seen)).flatMap (·.supertypes)).length

theorem name_of_class? {name : String} {c : ClassFile} (h : reg.class? name = some c) :
    c.name = name ∧ c ∈ reg.units.filterMap (·.class?) := by
  obtain ⟨u, hu, hc⟩ := Option.bind_eq_some_iff.mp h
  have hn := List.find?_some hu
  rw [beq_iff_eq] at hn
  refine ⟨?_, List.mem_filterMap.mpr ⟨u, List.mem_of_find?_eq_some hu, hc⟩⟩
  cases u with
  | loaded d => cases hc; exact hn
  | corrupted => cases hc

theorem length_unseen_le (cs : List ClassFile) (seen : List String) (current : String) :
    ((cs.filter (·.name ∉ current :: seen)).flatMap (·.supertypes)).length ≤
      ((cs.filter (·.name ∉ seen)).flatMap (·.supertypes)).length := by
  refine (List.Sublist.flatMap ?_ _).length_le
  refine List.monotone_filter_right cs fun x => ?_
  simp only [decide_eq_true_eq, List.mem_cons, not_or]
  exact fun h => h.2

/-- A class that gets seen takes away at least its own supertypes from what can still be added. -/
theorem length_unseen_cons {c : ClassFile} (hs : c.name ∉ seen) : ∀ {cs : List ClassFile}, c ∈ cs →
    c.supertypes.length + ((cs.filter (·.name ∉ c.name :: seen)).flatMap (·.supertypes)).length ≤
      ((cs.filter (·.name ∉ seen)).flatMap (·.supertypes)).length
  | d :: cs, hc => by
    rcases List.mem_cons.mp hc with rfl | hc
    · have hle := length_unseen_le cs seen c.name
      rw [List.filter_cons_of_neg (by simp), List.filter_cons_of_pos (by simpa using hs), List.flatMap_cons,
        List.length_append]
      omega
    · have ih := length_unseen_cons hs hc
      by_cases hd : d.name ∈ seen
      · rw [List.filter_cons_of_neg (by simp [hd]), List.filter_cons_of_neg (by simp [hd])]
        exact ih
      · by_cases hdc : d.name = c.name
        · rw [List.filter_cons_of_neg (by simp [hdc]), List.filter_cons_of_pos (by simp [hd]), List.flatMap_cons,
            List.length_append]
          omega
        · rw [List.filter_cons_of_pos (by simp [hd, hdc]), List.filter_cons_of_pos (by simp [hd]), List.flatMap_cons,
            List.flatMap_cons, List.length_append, List.length_append]
          omega

theorem unseenSteps_expand (reg : Registry) {current : String} (hs : current ∉ seen) :
    (reg.above current).length + reg.unseenSteps (current :: seen) ≤ reg.unseenSteps seen := by
  unfold above unseenSteps
  cases hc : reg.class? current with
  | some c =>
    obtain ⟨rfl, hmem⟩ := name_of_class? hc
    rw [List.length_reverse]
    exact length_unseen_cons hs hmem
  | none =>
    rw [List.length_nil, Nat.zero_add]
    exact length_unseen_le _ seen current

/-- As long as the steps cover what is pending and what can still be added to it, the bounded search is the search. -/
theorem searches_reaches_of_le : ∀ (steps : Nat) (seen pending : List String),
    pending.length + reg.unseenSteps seen ≤ steps → reg.Searches goal seen pending (reg.reaches goal steps seen pending)
  | 0, _, [], _ => .exhausted
  | 0, _, _ :: _, h => by simp at h
  | _ + 1, _, [], _ => .exhausted
  | steps + 1, seen, current :: pending, h => by
    rw [List.length_cons] at h
    have habove : reg.reaches goal (steps + 1) seen (current :: pending) =
        if current == goal then true
        else if seen.contains current then reg.reaches goal steps seen pending
        else reg.reaches goal steps (current :: seen) (reg.above current ++ pending) := rfl
    rw [habove]
    by_cases hg : current = goal
    · rw [if_pos (by simpa using hg), hg]
      exact .found
    · rw [if_neg (by simpa using hg)]
      by_cases hs : current ∈ seen
      · rw [if_pos (by simpa using hs)]
        exact .again hg hs (searches_reaches_of_le steps seen pending (by omega))
      · have hmeasure := unseenSteps_expand reg hs
        rw [if_neg (by simpa using hs)]
        refine .expand hg hs (searches_reaches_of_le steps _ _ ?_)
        rw [List.length_append]
        omega

/-- The search ends, whatever the hierarchy looks like, and its bound makes no difference. -/
theorem searches_reaches (reg : Registry) (sub sup : String) :
    reg.Searches sup [] [sub] (reg.reaches sup reg.searchBound [] [sub]) := by
  refine searches_reaches_of_le _ _ _ ?_
  have hall : (reg.units.filterMap (·.class?)).filter (·.name ∉ []) = reg.units.filterMap (·.class?) := by simp
  unfold unseenSteps searchBound
  rw [hall, List.length_singleton]
  omega

/-! ## What is found -/

theorem Searches.sound (h : reg.Searches goal seen pending answer) :
    answer = true → ∃ s ∈ pending, Relation.ReflTransGen reg.StepsUp s goal := by
  induction h with
  | exhausted => intro ha; cases ha
  | found => exact fun _ => ⟨goal, by simp, .refl⟩
  | again _ _ _ ih =>
    intro ha
    obtain ⟨s, hs, hreach⟩ := ih ha
    exact ⟨s, List.mem_cons_of_mem _ hs, hreach⟩
  | @expand current seen pending answer _ _ _ ih =>
    intro ha
    obtain ⟨s, hs, hreach⟩ := ih ha
    rcases List.mem_append.mp hs with hs | hs
    · exact ⟨current, by simp, .head (mem_above.mp hs) hreach⟩
    · exact ⟨s, List.mem_cons_of_mem _ hs, hreach⟩

/-- The goal was not seen, and a step up from what was seen leads to what was seen or is pending. -/
structure Swept (reg : Registry) (goal : String) (seen pending : List String) : Prop where
  missed : goal ∉ seen
  closed : ∀ {a b : String}, a ∈ seen → reg.StepsUp a b → b ∈ seen ∨ b ∈ pending

theorem Swept.not_reaches (w : reg.Swept goal seen []) {s : String} (hs : s ∈ seen) :
    ¬ Relation.ReflTransGen reg.StepsUp s goal := by
  intro hreach
  have hmem : ∀ {b : String}, Relation.ReflTransGen reg.StepsUp s b → b ∈ seen := by
    intro b hb
    induction hb with
    | refl => exact hs
    | tail _ hstep ih => exact (w.closed ih hstep).resolve_right (by simp)
  exact w.missed (hmem hreach)

theorem Searches.complete (h : reg.Searches goal seen pending answer) : answer = false → reg.Swept goal seen pending →
    ∀ s, s ∈ seen ∨ s ∈ pending → ¬ Relation.ReflTransGen reg.StepsUp s goal := by
  induction h with
  | exhausted =>
    intro _ w s hs
    exact w.not_reaches (hs.resolve_right (by simp))
  | found => intro ha; cases ha
  | @again current seen pending answer _ hmem _ ih =>
    intro ha w s hs
    -- what was seen before is dropped from the stack, and stays seen
    have hdrop : ∀ {b : String}, b ∈ seen ∨ b ∈ current :: pending → b ∈ seen ∨ b ∈ pending := by
      rintro b (hb | hb)
      · exact .inl hb
      · rcases List.mem_cons.mp hb with rfl | hb
        · exact .inl hmem
        · exact .inr hb
    exact ih ha ⟨w.missed, fun ha hab => hdrop (w.closed ha hab)⟩ s (hdrop hs)
  | @expand current seen pending answer hne _ _ ih =>
    intro ha w s hs
    -- the class moves from the stack to what was seen, and its steps lead to the stack
    have hmove : ∀ {b : String}, b ∈ seen ∨ b ∈ current :: pending →
        b ∈ current :: seen ∨ b ∈ reg.above current ++ pending := by
      rintro b (hb | hb)
      · exact .inl (List.mem_cons_of_mem _ hb)
      · rcases List.mem_cons.mp hb with rfl | hb
        · exact .inl (by simp)
        · exact .inr (List.mem_append_right _ hb)
    refine ih ha ⟨?_, ?_⟩ s (hmove hs)
    · intro hg
      rcases List.mem_cons.mp hg with hg | hg
      · exact hne hg.symm
      · exact w.missed hg
    · intro a b ha hab
      rcases List.mem_cons.mp ha with rfl | ha
      · exact .inr (List.mem_append_left _ (mem_above.mpr hab))
      · exact hmove (w.closed ha hab)

theorem reaches_iff (reg : Registry) (sub sup : String) :
    reg.reaches sup reg.searchBound [] [sub] = true ↔ Relation.ReflTransGen reg.StepsUp sub sup := by
  have hsearch := searches_reaches reg sub sup
  constructor
  · intro ha
    obtain ⟨s, hs, hreach⟩ := hsearch.sound ha
    rw [List.mem_singleton.mp hs] at hreach
    exact hreach
  · intro hreach
    by_contra hne
    exact hsearch.complete (by simpa using hne) ⟨by simp, by simp⟩ sub (by simp) hreach

/-! ## Answers that are remembered -/

/-- The question needs a search: neither are the two classes the same, nor is the second the root class. -/
def needsSearch (q : String × String) : Bool := q.1 ≠ q.2 ∧ q.2 ≠ rootClassName

/-- The answers known after questions, in the order in which these were asked. -/
def memoAfter (reg : Registry) (asked : List (String × String)) : SubtypeMemo :=
  asked.foldl (fun m q => (reg.isSubtype m q.1 q.2).2) {}

/-- What is remembered are the answers of searches, one for each question that needed one. -/
structure Remembers (reg : Registry) (asked : List (String × String)) (m : SubtypeMemo) : Prop where
  questions : m.answers.map (·.1) = (asked.filter needsSearch).eraseDups
  answers : ∀ e ∈ m.answers, e.2 = reg.reaches e.1.2 reg.searchBound [] [e.1.1]

/-- `sub` is a subtype of `sup`: they are the same, or `sup` is the root class, or steps up lead there. -/
def Descends (reg : Registry) (sub sup : String) : Prop :=
  sub = sup ∨ sup = rootClassName ∨ Relation.ReflTransGen reg.StepsUp sub sup

theorem descends_of_not_needsSearch {sub sup : String} (h : needsSearch (sub, sup) = false) : reg.Descends sub sup := by
  simp only [needsSearch, decide_eq_false_iff_not, not_and_or, not_not] at h
  rcases h with h | h
  · exact .inl h
  · exact .inr (.inl h)

theorem descends_iff_of_needsSearch {sub sup : String} (h : needsSearch (sub, sup) = true) :
    reg.Descends sub sup ↔ reg.reaches sup reg.searchBound [] [sub] = true := by
  simp only [needsSearch, decide_eq_true_eq] at h
  simp only [Descends, h.1, h.2, false_or, reaches_iff]

variable {asked : List (String × String)} {m : SubtypeMemo}

theorem isSubtype_of_not_needsSearch {sub sup : String} (h : needsSearch (sub, sup) = false) :
    reg.isSubtype m sub sup = (true, m) := by
  simp only [needsSearch, decide_eq_false_iff_not, not_and_or, not_not] at h
  exact if_pos (by simpa using h)

/-- An answer is remembered or searched for, and the memo then knows it. -/
theorem isSubtype_of_needsSearch (r : reg.Remembers asked m) {sub sup : String} (h : needsSearch (sub, sup) = true) :
    (reg.isSubtype m sub sup).1 = reg.reaches sup reg.searchBound [] [sub] ∧
    ((sub, sup) ∈ m.answers.map (·.1) ∧ (reg.isSubtype m sub sup).2 = m ∨
      (sub, sup) ∉ m.answers.map (·.1) ∧ (reg.isSubtype m sub sup).2 =
        ⟨m.answers ++ [((sub, sup), reg.reaches sup reg.searchBound [] [sub])]⟩) := by
  have hneg : ¬ (sub == sup || sup == rootClassName) = true := by simpa [needsSearch] using h
  unfold isSubtype
  rw [if_neg hneg]
  cases hl : m.answers.lookup (sub, sup) with
  | some known =>
    obtain ⟨before, after, hsplit, _⟩ := List.lookup_eq_some_iff.mp hl
    have hmem : ((sub, sup), known) ∈ m.answers := by rw [hsplit]; simp
    exact ⟨r.answers _ hmem, .inl ⟨List.mem_map_of_mem hmem, rfl⟩⟩
  | none =>
    refine ⟨rfl, .inr ⟨?_, rfl⟩⟩
    -- a question that is remembered would have been looked up
    intro hmem
    obtain ⟨e, he, hq⟩ := List.mem_map.mp hmem
    have hne := List.lookup_eq_none_iff.mp hl e he
    rw [hq] at hne
    simp at hne

theorem Remembers.ask (r : reg.Remembers asked m) (sub sup : String) :
    reg.Remembers (asked ++ [(sub, sup)]) (reg.isSubtype m sub sup).2 := by
  cases hq : needsSearch (sub, sup) with
  | false =>
    rw [isSubtype_of_not_needsSearch hq]
    refine ⟨?_, r.answers⟩
    rw [r.questions, List.filter_append, List.filter_cons_of_neg (by simp [hq]), List.filter_nil, List.append_nil]
  | true =>
    have hasked : ((asked ++ [(sub, sup)]).filter needsSearch).eraseDups =
        pushNew (m.answers.map (·.1)) (sub, sup) := by
      rw [List.filter_append, List.filter_cons_of_pos hq, List.filter_nil, eraseDups_concat, r.questions]
    rcases (isSubtype_of_needsSearch r hq).2 with ⟨hmem, he⟩ | ⟨hmem, he⟩
    · rw [he]
      exact ⟨by rw [hasked, pushNew_of_mem hmem], r.answers⟩
    · rw [he]
      refine ⟨by rw [hasked, pushNew_of_not_mem hmem, List.map_append]; rfl, ?_⟩
      intro e hin
      rcases List.mem_append.mp hin with hin | hin
      · exact r.answers e hin
      · rw [List.mem_singleton.mp hin]

theorem memoAfter_concat (asked : List (String × String)) (sub sup : String) :
    reg.memoAfter (asked ++ [(sub, sup)]) = (reg.isSubtype (reg.memoAfter asked) sub sup).2 := by
  simp [memoAfter, List.foldl_append]

theorem remembers_memoAfter (reg : Registry) (asked : List (String × String)) :
    reg.Remembers asked (reg.memoAfter asked) := by
  induction asked using List.reverseRecOn with
  | nil => exact ⟨rfl, by simp [memoAfter]⟩
  | append_singleton asked q ih =>
    rw [memoAfter_concat]
    exact ih.ask q.1 q.2

/-- What was asked before makes no difference to an answer. -/
theorem isSubtype_iff (reg : Registry) (asked : List (String × String)) (sub sup : String) :
    (reg.isSubtype (reg.memoAfter asked) sub sup).1 = true ↔ reg.Descends sub sup := by
  cases hq : needsSearch (sub, sup) with
  | false =>
    rw [isSubtype_of_not_needsSearch hq]
    exact iff_of_true rfl (descends_of_not_needsSearch hq)
  | true =>
    rw [(isSubtype_of_needsSearch (remembers_memoAfter reg asked) hq).1, descends_iff_of_needsSearch hq]

/-- Whatever was asked before, a class is found to be a subtype just if it is the same class, or the other is the root
class, or steps up lead there. The search for this ends with one answer, also without a bound. As many answers are
remembered as different questions were asked that need a search. -/
theorem isSubtype_reachable (reg : Registry) (asked : List (String × String)) (sub sup : String) :
    ((reg.isSubtype (reg.memoAfter asked) sub sup).1 = true ↔
      sub = sup ∨ sup = rootClassName ∨ Relation.ReflTransGen reg.StepsUp sub sup) ∧
    (∀ answer, reg.Searches sup [] [sub] answer ↔ answer = reg.reaches sup reg.searchBound [] [sub]) ∧
    (reg.memoAfter asked).size = (asked.filter fun q => q.1 ≠ q.2 ∧ q.2 ≠ rootClassName).eraseDups.length := by
  refine ⟨isSubtype_iff reg asked sub sup, fun answer => ⟨?_, ?_⟩, ?_⟩
  · exact fun h => (searches_reaches reg sub sup).unique h
  · intro h
    rw [h]
    exact searches_reaches reg sub sup
  · have hlen := congrArg List.length (remembers_memoAfter reg asked).questions
    rw [List.length_map] at hlen
    exact hlen

end Registry
end ClassNest
