import ClassNest.Proofs.Decisions
import Mathlib.Data.List.Induction

/-!
# The first record wins

The nesting index is filled record by record, and each of its views is extended on its own. Here it is compared
with what it stands for: a plain list of records (`Registry.resolvedRecords`), in the order in which the classes
declare them and with the simple names they get on the way. The index keeps the first record of each nested class,
its views are parts of that list without repeats, and a contradiction is reported for every record that differs from
the first one of its class (`normalize_firstWins`).
-/
namespace ClassNest

/-- Some of the entries, seen by one side of a pair: a new pair shows up where its other side is asked for. -/
theorem map_filter_pushNew {α β γ : Type} [BEq α] [LawfulBEq α] [BEq β] [LawfulBEq β] [BEq γ] [LawfulBEq γ]
    {key : α → β} {value : α → γ} (hinj : ∀ {a b}, key a = key b → value a = value b → a = b) (xs : List α) (a : α)
    (k : β) : ((pushNew xs a).filter (key · == k)).map value =
      if key a == k then pushNew ((xs.filter (key · == k)).map value) (value a)
      else (xs.filter (key · == k)).map value := by
  by_cases hk : key a = k
  · rw [if_pos (by simpa using hk)]
    have hmem : value a ∈ (xs.filter (key · == k)).map value ↔ a ∈ xs := by
      simp only [List.mem_map, List.mem_filter, beq_iff_eq]
      constructor
      · rintro ⟨b, ⟨hb, hbk⟩, hv⟩
        rwa [hinj (hk.trans hbk.symm) hv.symm]
      · intro ha
        exact ⟨a, ⟨ha, hk⟩, rfl⟩
    by_cases ha : a ∈ xs
    · rw [pushNew_of_mem ha, pushNew_of_mem (hmem.mpr ha)]
    · rw [pushNew_of_not_mem ha, pushNew_of_not_mem (hmem.not.mpr ha)]
      simp [hk]
  · rw [if_neg (by simpa using hk)]
    unfold pushNew
    split
    · rfl
    · simp [hk]

/-- The same view of a plain list, repeats left out, with one more entry. -/
theorem eraseDups_view_concat {α : Type} {key value : α → String} (xs : List α) (a : α) (k : String) :
    (((xs ++ [a]).filter (key · == k)).map value).eraseDups =
      if key a == k then pushNew ((xs.filter (key · == k)).map value).eraseDups (value a)
      else ((xs.filter (key · == k)).map value).eraseDups := by
  by_cases hk : key a = k
  · rw [if_pos (by simpa using hk), ← eraseDups_concat]
    simp [hk]
  · rw [if_neg (by simpa using hk)]
    simp [hk]

/-! ## The views of the index -/

namespace NestingIndex
variable (ix : NestingIndex) (r : NestedRecord) (a b k : String)

theorem nestedOf_addEdge : (ix.addEdge a b).nestedOf k =
    if a == k then pushNew (ix.nestedOf k) b else ix.nestedOf k :=
  map_filter_pushNew (fun h h' => Prod.ext h h') ix.edges (a, b) k

theorem enclosingOf_addEdge : (ix.addEdge a b).enclosingOf k =
    if b == k then pushNew (ix.enclosingOf k) a else ix.enclosingOf k :=
  map_filter_pushNew (fun h h' => Prod.ext h' h) ix.edges (a, b) k

theorem declaredBy_addDeclared : (ix.addDeclared a b).declaredBy k =
    if a == k then pushNew (ix.declaredBy k) b else ix.declaredBy k :=
  map_filter_pushNew (fun h h' => Prod.ext h h') ix.declared (a, b) k

/-- Offering a record touches nothing but the records. -/
theorem merge_eq : (ix.merge r).1 =
    { ix with records := if ix.isNested r.inner then ix.records else ix.records ++ [r] } := by
  unfold merge isNested
  cases ix.record? r.inner <;> rfl

end NestingIndex

/-! ## The list behind the index -/

/-- The first record of each nested class, in the order in which the classes first come up. -/
def firstRecords (rs : List NestedRecord) : List NestedRecord :=
  (rs.map (·.inner)).eraseDups.filterMap fun name => rs.find? (·.inner == name)

/-- The records that differ from the first one of their class in simple name, kind or access. -/
def contradicting (rs : List NestedRecord) : List NestedRecord :=
  rs.filter fun r => (rs.find? (·.inner == r.inner)).any fun first =>
    decide ((first.simpleName, first.kind, first.access) ≠ (r.simpleName, r.kind, r.access))

section
variable {rs : List NestedRecord} {r : NestedRecord}

/-- A class that has come up keeps its first record. -/
theorem find?_inner_concat {name : String} (h : name ∈ rs.map (·.inner)) :
    (rs ++ [r]).find? (·.inner == name) = rs.find? (·.inner == name) := by
  obtain ⟨s, hs, hname⟩ := List.mem_map.mp h
  have hsome : (rs.find? (·.inner == name)).isSome = true :=
    List.find?_isSome.mpr ⟨s, hs, by simpa using hname⟩
  rw [List.find?_append, Option.or_of_isSome hsome]

theorem find?_inner_of_new (h : r.inner ∉ rs.map (·.inner)) : rs.find? (·.inner == r.inner) = none := by
  rw [List.find?_eq_none]
  intro s hs hsr
  exact h (List.mem_map.mpr ⟨s, hs, by simpa using hsr⟩)

theorem firstRecords_concat (rs : List NestedRecord) (r : NestedRecord) : firstRecords (rs ++ [r]) =
    if r.inner ∈ rs.map (·.inner) then firstRecords rs else firstRecords rs ++ [r] := by
  have hold : (rs.map (·.inner)).eraseDups.filterMap (fun name => (rs ++ [r]).find? (·.inner == name)) =
      firstRecords rs :=
    List.filterMap_congr fun name hname => find?_inner_concat (List.mem_eraseDups.mp hname)
  unfold firstRecords at *
  rw [List.map_append, List.map_singleton, eraseDups_concat]
  by_cases h : r.inner ∈ rs.map (·.inner)
  · rw [if_pos h, pushNew_of_mem (by simpa using h), hold]
  · rw [if_neg h, pushNew_of_not_mem (by simpa using h), List.filterMap_append, hold]
    congr 1
    simp [List.find?_append, find?_inner_of_new h]

theorem find?_firstRecords (rs : List NestedRecord) (name : String) :
    (firstRecords rs).find? (·.inner == name) = rs.find? (·.inner == name) := by
  induction rs using List.reverseRecOn with
  | nil => rfl
  | append_singleton rs r ih =>
    rw [firstRecords_concat]
    by_cases h : r.inner ∈ rs.map (·.inner)
    · rw [if_pos h, ih]
      by_cases hr : r.inner = name
      · rw [find?_inner_concat (hr ▸ h)]
      · simp [List.find?_append, hr]
    · rw [if_neg h, List.find?_append, List.find?_append, ih]

theorem contradicting_concat (rs : List NestedRecord) (r : NestedRecord) : contradicting (rs ++ [r]) =
    contradicting rs ++ if (rs.find? (·.inner == r.inner)).any (fun first => !first.agrees r) then [r] else [] := by
  have hagrees : ∀ first : NestedRecord, decide ((first.simpleName, first.kind, first.access) ≠
      (r.simpleName, r.kind, r.access)) = !first.agrees r := by
    intro first
    rw [Bool.eq_iff_iff]
    simp [NestedRecord.agrees, or_assoc]
  unfold contradicting
  rw [List.filter_append]
  congr 1
  · apply List.filter_congr
    intro s hs
    rw [find?_inner_concat (List.mem_map_of_mem hs)]
  · by_cases h : r.inner ∈ rs.map (·.inner)
    · simp only [List.filter_cons, List.filter_nil, find?_inner_concat h, hagrees]
    · simp [List.find?_append, find?_inner_of_new h]

end

/-- The index says what the records say that classes declare, first come first served. -/
structure NestingIndex.Lists (ix : NestingIndex) (declared : List (String × NestedRecord)) : Prop where
  records : ix.records = firstRecords (declared.map (·.2))
  nestedOf : ∀ e, ix.nestedOf e = ((declared.filter (·.2.enclosing == e)).map (·.2.inner)).eraseDups
  enclosingOf : ∀ name, ix.enclosingOf name = ((declared.filter (·.2.inner == name)).map (·.2.enclosing)).eraseDups
  declaredBy : ∀ owner, ix.declaredBy owner = ((declared.filter (·.1 == owner)).map (·.2.inner)).eraseDups

namespace NestingIndex.Lists
variable {ix : NestingIndex} {declared : List (String × NestedRecord)}

theorem start : Lists {} [] := ⟨rfl, fun _ => rfl, fun _ => rfl, fun _ => rfl⟩

theorem record?_eq (h : ix.Lists declared) (name : String) :
    ix.record? name = (declared.map (·.2)).find? (·.inner == name) := by
  rw [NestingIndex.record?, h.records, find?_firstRecords]

theorem isNested_iff_mem (h : ix.Lists declared) {name : String} :
    ix.isNested name = true ↔ name ∈ (declared.map (·.2)).map (·.inner) := by
  rw [isNested, h.record?_eq, List.find?_isSome]
  simp only [List.mem_map, beq_iff_eq]

/-- One more record. -/
theorem add (h : ix.Lists declared) (owner : String) (r : NestedRecord) :
    (((ix.merge r).1.addEdge r.enclosing r.inner).addDeclared owner r.inner).Lists (declared ++ [(owner, r)]) := by
  rw [merge_eq]
  refine ⟨?_, ?_, ?_, ?_⟩
  · show (if ix.isNested r.inner then ix.records else ix.records ++ [r]) = _
    rw [List.map_append, List.map_singleton, firstRecords_concat, h.records]
    simp only [h.isNested_iff_mem]
  · intro e
    refine (nestedOf_addEdge _ r.enclosing r.inner e).trans ?_
    rw [eraseDups_view_concat]
    simp only [← h.nestedOf]
    rfl
  · intro name
    refine (enclosingOf_addEdge _ r.enclosing r.inner name).trans ?_
    rw [eraseDups_view_concat]
    simp only [← h.enclosingOf]
    rfl
  · intro c
    refine (declaredBy_addDeclared _ owner r.inner c).trans ?_
    rw [eraseDups_view_concat]
    simp only [← h.declaredBy]
    rfl

/-- The record that is kept comes from the class that was the first to enclose the nested one. -/
theorem head?_enclosingOf (h : ix.Lists declared) {e name : String} (hn : name ∈ ix.nestedOf e) :
    ∃ r, ix.record? name = some r ∧ (ix.enclosingOf name).head? = some r.enclosing := by
  rw [h.nestedOf, List.mem_eraseDups, List.mem_map] at hn
  obtain ⟨d, hd, hname⟩ := hn
  have hsome : (declared.find? (·.2.inner == name)).isSome = true :=
    List.find?_isSome.mpr ⟨d, (List.mem_filter.mp hd).1, by simpa using hname⟩
  obtain ⟨first, hfirst⟩ := Option.isSome_iff_exists.mp hsome
  refine ⟨first.2, ?_, ?_⟩
  · rw [h.record?_eq, List.find?_map]
    exact congrArg (Option.map (·.2)) hfirst
  · rw [← List.head?_filter, List.head?_eq_some_iff] at hfirst
    obtain ⟨rest, hrest⟩ := hfirst
    rw [h.enclosingOf, hrest, List.map_cons, List.eraseDups_cons]
    rfl

end NestingIndex.Lists

/-! ## Names on the way -/

/-- The records with their simple names, as the renaming decisions give them one after the other. -/
def resolveAll {σ : Type} (p : Policy σ) (rename : Bool) (n : Naming σ) :
    List (String × NestedRecord) → List (String × NestedRecord) × Naming σ
  | [] => ([], n)
  | d :: ds =>
    let renamed := d.2.rename p rename n
    let rest := resolveAll p rename renamed.2 ds
    ((d.1, renamed.1) :: rest.1, rest.2)

theorem resolveAll_concat {σ : Type} (p : Policy σ) (rename : Bool) (d : String × NestedRecord) :
    ∀ (ds : List (String × NestedRecord)) (n : Naming σ), resolveAll p rename n (ds ++ [d]) =
      ((resolveAll p rename n ds).1 ++ [(d.1, (d.2.rename p rename (resolveAll p rename n ds).2).1)],
        (d.2.rename p rename (resolveAll p rename n ds).2).2)
  | [], _ => rfl
  | e :: ds, n => by
    rw [List.cons_append, resolveAll, resolveAll_concat p rename d ds]
    rfl

theorem NestedRecord.rename_enclosing {σ : Type} (p : Policy σ) (enabled : Bool) (n : Naming σ) (r : NestedRecord) :
    (r.rename p enabled n).1.enclosing = r.enclosing := by
  unfold NestedRecord.rename
  cases r.simpleName <;> rfl

/-- The records that count, each with the class that lists it: those that classes under reconstruction
declare, as far as they can be decoded and the enclosing class is under reconstruction as well. -/
def Registry.listedRecords (reg : Registry) : List (String × NestedRecord) :=
  reg.ownClasses.flatMap fun c =>
    ((c.nestedRecords.toOption.getD []).filter fun r => reg.isOwn r.enclosing).map fun r => (c.name, r)

/-- The same with the simple names that are shown. -/
def Registry.resolvedRecords {σ : Type} (reg : Registry) (p : Policy σ) (rename : Bool) (n : Naming σ) :
    List (String × NestedRecord) := (resolveAll p rename n reg.listedRecords).1

theorem Registry.listedRecords_eq (reg : Registry) : reg.listedRecords =
    (declarations (reg.units.filterMap (·.decode))).filter fun d => reg.isOwn d.2.enclosing := by
  rw [declarations_eq, List.filter_flatMap]
  simp only [listedRecords, List.filter_map, Function.comp_def]

/-! ## Messages about contradictions -/

/-- The message about records of a nested class that contradict each other. -/
def contradictionText (name : String) : String := "Inconsistent inner class entries for " ++ name ++ "!"

/-- The warnings about contradicting records, first written first. -/
def Log.contradictions (log : Log) : List String :=
  (log.filter fun d =>
    d.severity == .warn && "Inconsistent inner class entries".toList.isPrefixOf d.message.toList).map (·.message)

@[simp] theorem Log.contradictions_append (log more : Log) :
    Log.contradictions (log ++ more) = log.contradictions ++ more.contradictions := by
  simp [contradictions]

theorem Log.contradictions_errorLine (message : String) : (errorLine message).contradictions = [] := rfl

/-- How a text starts does not depend on what is added to it. -/
theorem prefix_toList_append {chars : List Char} {text : String} (h : chars <+: text.toList) (more : String) :
    chars <+: (text ++ more).toList := by
  rw [String.toList_append]
  exact h.trans (List.prefix_append _ _)

/-- A warning that starts with another letter is about something else. -/
theorem Log.contradictions_warning (start : String) {first : Char} (hstart : start.toList.head? = some first)
    (hfirst : first ≠ 'I') (rest : String) : (warning (start ++ rest)).contradictions = [] := by
  obtain ⟨chars, hchars⟩ := List.head?_eq_some_iff.mp hstart
  have hI : "Inconsistent inner class entries".toList = 'I' :: "nconsistent inner class entries".toList := rfl
  simp [contradictions, warning, String.toList_append, hchars, hI, hfirst.symm]

theorem contradictions_mergeLog (reg : Registry) (r : NestedRecord) (m : Merge) :
    (mergeLog reg r m).contradictions = if m = .conflict then [contradictionText r.inner] else [] := by
  cases m with
  | inserted =>
    rw [mergeLog, checkEnclosing]
    split
    · rfl
    · split
      · split
        · rfl
        · simp only [String.append_assoc]
          exact Log.contradictions_warning "Nested class " rfl (by decide) _
      · rfl
  | duplicate => rfl
  | conflict =>
    have hstart : "Inconsistent inner class entries".toList <+: "Inconsistent inner class entries for ".toList := by
      simp
    have hstarts : "Inconsistent inner class entries".toList.isPrefixOf (contradictionText r.inner).toList = true :=
      List.isPrefixOf_iff_prefix.mpr (prefix_toList_append (prefix_toList_append hstart r.inner) "!")
    show Log.contradictions [⟨.warn, contradictionText r.inner⟩] = _
    unfold Log.contradictions
    rw [List.filter_cons_of_pos (by rw [hstarts]; rfl)]
    rfl

/-! ## Filling the index -/

namespace Intake
variable {σ : Type} (p : Policy σ) (rename : Bool) (reg : Registry) (n : Naming σ)

/-- After the given records, from the decisions `n` on: the index lists them under the names they got, and the log has a
contradiction for each of them that contradicts an earlier one. -/
structure Reflects (ds : List (String × NestedRecord)) (s : Intake σ) : Prop where
  naming : s.naming = (resolveAll p rename n ds).2
  index : s.index.Lists (resolveAll p rename n ds).1
  log : s.log.contradictions =
    (contradicting ((resolveAll p rename n ds).1.map (·.2))).map (contradictionText ·.inner)

variable {p rename reg n} {ds : List (String × NestedRecord)} {s : Intake σ}

variable (reg) in
theorem Reflects.addRecord (h : Reflects p rename n ds s) (owner : String) (r : NestedRecord) :
    Reflects p rename n (ds ++ [(owner, r)].filter fun d => reg.isOwn d.2.enclosing)
      (s.addRecord p rename reg owner r) := by
  unfold Intake.addRecord
  by_cases hown : reg.isOwn r.enclosing = true
  · have hcounts : ([(owner, r)].filter fun d => reg.isOwn d.2.enclosing) = [(owner, r)] := by simp [hown]
    rw [hcounts, if_pos hown, h.naming]
    have hall := resolveAll_concat p rename (owner, r) ds n
    have hinner := r.rename_inner p rename (resolveAll p rename n ds).2
    have henclosing := r.rename_enclosing p rename (resolveAll p rename n ds).2
    refine ⟨by rw [hall], ?_, ?_⟩
    · have hadd := h.index.add owner (r.rename p rename (resolveAll p rename n ds).2).1
      rw [hinner, henclosing] at hadd
      rw [hall]
      exact hadd
    · rw [hall, List.map_append, List.map_singleton, contradicting_concat, List.map_append, ← h.log,
        ← h.index.record?_eq, Log.contradictions_append, contradictions_mergeLog]
      congr 1
      unfold NestingIndex.merge
      cases s.index.record? (r.rename p rename (resolveAll p rename n ds).2).1.inner with
      | none => rfl
      | some first => cases hagree : first.agrees (r.rename p rename (resolveAll p rename n ds).2).1 <;> simp [hagree]
  · have hdropped : ([(owner, r)].filter fun d => reg.isOwn d.2.enclosing) = [] := by simp [hown]
    rw [hdropped, List.append_nil, if_neg hown]
    refine ⟨h.naming, h.index, ?_⟩
    have hother := fun rest => Log.contradictions_warning "Enclosing class " rfl (by decide) rest
    simp only [Log.contradictions_append, String.append_assoc, hother, List.append_nil]
    exact h.log

variable (reg) in
theorem Reflects.addRecords (owner : String) : ∀ (rs : List NestedRecord) {ds : List (String × NestedRecord)}
    {s : Intake σ}, Reflects p rename n ds s →
    Reflects p rename n (ds ++ (rs.map fun r => (owner, r)).filter fun d => reg.isOwn d.2.enclosing)
      (rs.foldl (Intake.addRecord p rename reg owner) s)
  | [], _, _, h => by simpa using h
  | r :: rs, ds, s, h => by
    have hrest := addRecords owner rs (h.addRecord reg owner r)
    rw [List.append_assoc, ← List.filter_append] at hrest
    exact hrest

variable (reg) in
theorem Reflects.addDecoded : ∀ (us : List (Except Failure (ClassFile × List NestedRecord)))
    {ds : List (String × NestedRecord)} {s : Intake σ}, Reflects p rename n ds s →
    Reflects p rename n (ds ++ (declarations us).filter fun d => reg.isOwn d.2.enclosing)
      (us.foldl (Intake.addDecoded p rename reg) s)
  | [], _, _, h => by simpa [declarations] using h
  | .error failure :: us, ds, s, h => by
    refine addDecoded us (s := s.addDecoded p rename reg (.error failure)) ⟨h.naming, h.index, ?_⟩
    rw [Intake.addDecoded, Log.contradictions_append, Log.contradictions_errorLine, List.append_nil, h.log]
  | .ok (c, rs) :: us, ds, s, h => by
    have hrest := addDecoded us (h.addRecords reg c.name rs)
    rw [List.append_assoc, ← List.filter_append] at hrest
    exact hrest

end Intake

/-! ## The whole index -/

/-- The index of a registry is that of the records that its classes declare, the first one of each nested class
counting, and the contradictions in the log are those of the records that differ from it. -/
theorem normalize_firstWins {σ : Type} (reg : Registry) (p : Policy σ) (rename : Bool) (n : Naming σ) :
    (reg.normalize p rename n).index.Lists (reg.resolvedRecords p rename n) ∧
    (∀ {e name : String}, name ∈ (reg.normalize p rename n).index.nestedOf e →
      ∃ r, (reg.normalize p rename n).index.record? name = some r ∧
        ((reg.normalize p rename n).index.enclosingOf name).head? = some r.enclosing) ∧
    (reg.normalize p rename n).log.contradictions =
      (contradicting ((reg.resolvedRecords p rename n).map (·.2))).map (contradictionText ·.inner) := by
  have hstart : Intake.Reflects p rename n [] { naming := n } := ⟨rfl, NestingIndex.Lists.start, rfl⟩
  have h := hstart.addDecoded reg (reg.units.filterMap (·.decode))
  rw [List.nil_append, ← reg.listedRecords_eq] at h
  exact ⟨h.index, h.index.head?_enclosingOf, h.log⟩

-- two classes list one nested class with different flags: the first record stays, both classes enclose it
example :
    let listing (outer : String) (access : Access) : ClassUnit := .loaded
      { name := outer
        own := true
        pool := ⟨[.className outer, .className "app/N"]⟩
        innerClasses := [⟨2, 1, 0, access⟩] }
    let s := (Registry.ofUnits [listing "app/A" .empty, listing "app/B" .staticBit]).normalize (.keep Unit) false ⟨(), {}⟩
    s.index.records.map (·.access) = [.empty] ∧ s.index.enclosingOf "app/N" = ["app/A", "app/B"] ∧
      s.log.contradictions = ["Inconsistent inner class entries for app/N!"] := by
  decide +kernel

end ClassNest
