import ClassNest.Nesting.Tables
import ClassNest.Proofs.FirstWins

/-!
# Every history of a nesting index

Records, edges and listed names may reach an index in any order, and the same ones again and again. Its views are what
was said, each thing once and in the order in which it was first said (`NestingIndex.Tells`). The index as tables goes
through the same history one table at a time. It never gets out of step (`NestingTables.InStep`), so that all that can
be looked up in it is what the index answers; only the children are put together in another way there, and for them it
matters that no name is entered twice. `run_consistent` has all of this.
-/
namespace ClassNest

/-! ## First records -/

theorem map_inner_firstRecords (rs : List NestedRecord) :
    (firstRecords rs).map (·.inner) = (rs.map (·.inner)).eraseDups := by
  induction rs using List.reverseRecOn with
  | nil => rfl
  | append_singleton rs r ih =>
    rw [firstRecords_concat, List.map_append, List.map_singleton, eraseDups_concat]
    by_cases h : r.inner ∈ rs.map (·.inner)
    · rw [if_pos h, pushNew_of_mem (by simpa using h), ih]
    · rw [if_neg h, pushNew_of_not_mem (by simpa using h), List.map_append, List.map_singleton, ih]

theorem firstRecords_of_nodup {rs : List NestedRecord} (h : (rs.map (·.inner)).Nodup) : firstRecords rs = rs := by
  induction rs using List.reverseRecOn with
  | nil => rfl
  | append_singleton rs r ih =>
    rw [List.map_append, List.map_singleton, List.nodup_append] at h
    obtain ⟨hrs, _, hne⟩ := h
    have hnew : r.inner ∉ rs.map (·.inner) := fun hmem => hne _ hmem _ (by simp) rfl
    rw [firstRecords_concat, if_neg hnew, ih hrs]

/-! ## What a history says -/

namespace NestingIndex

/-- The views of the index are what was said, each thing once and in the order in which it was first said. -/
structure Tells (ix : NestingIndex) (merged : List NestedRecord) (edges declared : List (String × String)) : Prop where
  /-- the first record of each nested class -/
  records : ix.records = firstRecords merged
  nestedOf : ∀ e, ix.nestedOf e = ((edges.filter (·.1 == e)).map (·.2)).eraseDups
  enclosingOf : ∀ name, ix.enclosingOf name = ((edges.filter (·.2 == name)).map (·.1)).eraseDups
  declaredBy : ∀ owner, ix.declaredBy owner = ((declared.filter (·.1 == owner)).map (·.2)).eraseDups

section
variable {ix : NestingIndex} {merged : List NestedRecord} {edges declared : List (String × String)}

theorem tells_empty : Tells {} [] [] [] := ⟨rfl, fun _ => rfl, fun _ => rfl, fun _ => rfl⟩

theorem Tells.merge (h : ix.Tells merged edges declared) (r : NestedRecord) :
    (ix.merge r).1.Tells (merged ++ [r]) edges declared := by
  have hknown : ix.isNested r.inner = true ↔ r.inner ∈ merged.map (·.inner) := by
    rw [isNested_iff, h.records, map_inner_firstRecords, List.mem_eraseDups]
  rw [merge_eq]
  refine ⟨?_, h.nestedOf, h.enclosingOf, h.declaredBy⟩
  rw [firstRecords_concat, ← h.records]
  simp only [hknown]

theorem Tells.addEdge (h : ix.Tells merged edges declared) (enclosing nested : String) :
    (ix.addEdge enclosing nested).Tells merged (edges ++ [(enclosing, nested)]) declared := by
  refine ⟨h.records, fun e => ?_, fun name => ?_, h.declaredBy⟩
  · rw [nestedOf_addEdge, eraseDups_view_concat, h.nestedOf]
  · rw [enclosingOf_addEdge, eraseDups_view_concat, h.enclosingOf]

theorem Tells.addDeclared (h : ix.Tells merged edges declared) (owner inner : String) :
    (ix.addDeclared owner inner).Tells merged edges (declared ++ [(owner, inner)]) := by
  refine ⟨h.records, h.nestedOf, h.enclosingOf, fun name => ?_⟩
  rw [declaredBy_addDeclared, eraseDups_view_concat, h.declaredBy]

end
end NestingIndex

/-! What an operation says: a record, an edge or a listed name. -/

namespace NestingOperation

def records : NestingOperation → List NestedRecord
  | .merge r => [r]
  | _ => []

def edges : NestingOperation → List (String × String)
  | .addEdge enclosing nested => [(enclosing, nested)]
  | _ => []

def declared : NestingOperation → List (String × String)
  | .addDeclared owner inner => [(owner, inner)]
  | _ => []

end NestingOperation

namespace NestingIndex

theorem Tells.step {ix : NestingIndex} {merged : List NestedRecord} {edges declared : List (String × String)}
    (h : ix.Tells merged edges declared) (op : NestingOperation) :
    (ix.step op).Tells (merged ++ op.records) (edges ++ op.edges) (declared ++ op.declared) := by
  cases op with
  | merge r =>
    have hmerge := h.merge r
    rwa [← List.append_nil edges, ← List.append_nil declared] at hmerge
  | addEdge enclosing nested =>
    have hedge := h.addEdge enclosing nested
    rwa [← List.append_nil merged, ← List.append_nil declared] at hedge
  | addDeclared owner inner =>
    have hdeclared := h.addDeclared owner inner
    rwa [← List.append_nil merged, ← List.append_nil edges] at hdeclared

theorem run_concat (ops : List NestingOperation) (op : NestingOperation) : run (ops ++ [op]) = (run ops).step op := by
  rw [run, List.foldl_append]
  rfl

theorem tells_run (ops : List NestingOperation) :
    (run ops).Tells (ops.flatMap (·.records)) (ops.flatMap (·.edges)) (ops.flatMap (·.declared)) := by
  induction ops using List.reverseRecOn with
  | nil => exact tells_empty
  | append_singleton ops op ih =>
    rw [run_concat]
    simpa only [List.flatMap_append, List.flatMap_singleton] using ih.step op

/-! ## Consistency -/

/-- The views agree with each other. -/
structure Consistent (ix : NestingIndex) : Prop where
  sides : ∀ {e name : String}, name ∈ ix.nestedOf e ↔ e ∈ ix.enclosingOf name
  one_record : (ix.records.map (·.inner)).Nodup
  nested_nodup : ∀ e, (ix.nestedOf e).Nodup
  enclosing_nodup : ∀ name, (ix.enclosingOf name).Nodup
  declared_nodup : ∀ owner, (ix.declaredBy owner).Nodup
  /-- the listed ones among the nested classes, and then the others, each part in its own order -/
  children : ∀ e, ix.childrenOf e = ((ix.declaredBy e).filter fun name => decide (name ∈ ix.nestedOf e)) ++
    (ix.nestedOf e).filter fun name => decide (name ∉ ix.declaredBy e)
  children_perm : ∀ e, (ix.childrenOf e).Perm (ix.nestedOf e)
  children_nodup : ∀ e, (ix.childrenOf e).Nodup

theorem childrenOf_eq (ix : NestingIndex) (e : String) :
    ix.childrenOf e = ((ix.declaredBy e).filter fun name => decide (name ∈ ix.nestedOf e)) ++
      (ix.nestedOf e).filter fun name => decide (name ∉ ix.declaredBy e) := by
  show (ix.declaredBy e).filter _ ++ (ix.nestedOf e).filter _ = _
  congr 1
  · exact List.filter_congr fun name _ => by rw [List.contains_eq_mem]
  · -- for a nested class, to be listed is to be among the listed ones that are nested
    exact List.filter_congr fun name hname => by simp [hname]

section
variable {ix : NestingIndex} {merged : List NestedRecord} {edges declared : List (String × String)}

theorem Tells.consistent (h : ix.Tells merged edges declared) : ix.Consistent := by
  have hnested : ∀ e, (ix.nestedOf e).Nodup := fun e => h.nestedOf e ▸ nodup_eraseDups _
  have hdeclared : ∀ owner, (ix.declaredBy owner).Nodup := fun owner => h.declaredBy owner ▸ nodup_eraseDups _
  have hchildren : ∀ e, (ix.childrenOf e).Nodup := by
    intro e
    rw [childrenOf_eq, List.nodup_append]
    refine ⟨(hdeclared e).filter _, (hnested e).filter _, ?_⟩
    rintro a ha b hb rfl
    exact of_decide_eq_true (List.mem_filter.mp hb).2 (List.mem_filter.mp ha).1
  exact {
    sides := mem_nestedOf.trans mem_enclosingOf.symm
    one_record := by rw [h.records, map_inner_firstRecords]; exact nodup_eraseDups _
    nested_nodup := hnested
    enclosing_nodup := fun name => h.enclosingOf name ▸ nodup_eraseDups _
    declared_nodup := hdeclared
    children := ix.childrenOf_eq
    children_perm := fun e => (List.perm_ext_iff_of_nodup (hchildren e) (hnested e)).mpr fun _ => mem_childrenOf
    children_nodup := hchildren }

end
end NestingIndex

/-! ## Tables -/

theorem NameTable.row_enter (t : NameTable) (key name k : String) :
    (t.enter key name).row k = if key == k then pushNew (t.row k) name else t.row k := by
  unfold row enter
  by_cases h : key = k
  · subst h
    simp [row]
  · rw [List.lookup_cons, beq_false_of_ne (Ne.symm h), lookup_filter_ne (Ne.symm h), if_neg (by simpa using h)]

namespace NestingTables

/-- Each table is one side of the index. -/
structure InStep (t : NestingTables) (ix : NestingIndex) : Prop where
  record? : ∀ name, t.record? name = ix.record? name
  order : t.order = ix.records.map (·.inner)
  size : t.size = ix.size
  nested : ∀ e, t.nested.row e = ix.nestedOf e
  enclosing : ∀ name, t.enclosing.row name = ix.enclosingOf name
  declared : ∀ owner, t.declared.row owner = ix.declaredBy owner

section
variable {t : NestingTables} {ix : NestingIndex}

theorem inStep_empty : InStep {} {} := ⟨fun _ => rfl, rfl, rfl, fun _ => rfl, fun _ => rfl, fun _ => rfl⟩

theorem InStep.merge (h : t.InStep ix) (r : NestedRecord) : (t.merge r).1.InStep (ix.merge r).1 := by
  cases hr : ix.record? r.inner with
  | some first =>
    have ht : (t.merge r).1 = t := by simp only [NestingTables.merge, h.record?, hr]
    have hix : (ix.merge r).1 = ix := by simp only [NestingIndex.merge, hr]
    rw [ht, hix]
    exact h
  | none =>
    have ht : (t.merge r).1 = { t with order := t.order ++ [r.inner], records := (r.inner, r) :: t.records } := by
      simp only [NestingTables.merge, h.record?, hr]
    have hix : (ix.merge r).1 = { ix with records := ix.records ++ [r] } := by simp only [NestingIndex.merge, hr]
    have hknown := ix.record?_merge r
    rw [hix] at hknown
    rw [ht, hix]
    refine ⟨fun name => ?_, ?_, ?_, h.nested, h.enclosing, h.declared⟩
    · rw [hknown, ← h.record?, NestingTables.record?, List.lookup_cons]
      by_cases hname : name = r.inner
      · simp [hname, h.record?, hr]
      · rw [beq_false_of_ne hname, if_neg (Ne.symm hname), Option.or_none]
        rfl
    · simp only [h.order, List.map_append, List.map_singleton]
    · have hsize : t.records.length = ix.records.length := h.size
      simp only [NestingTables.size, NestingIndex.size, List.length_cons, List.length_append, List.length_nil, hsize]

theorem InStep.addEdge (h : t.InStep ix) (enclosing nested : String) :
    (t.addEdge enclosing nested).InStep (ix.addEdge enclosing nested) := by
  refine ⟨h.record?, h.order, h.size, fun e => ?_, fun name => ?_, h.declared⟩
  · rw [ix.nestedOf_addEdge, ← h.nested]
    exact t.nested.row_enter enclosing nested e
  · rw [ix.enclosingOf_addEdge, ← h.enclosing]
    exact t.enclosing.row_enter nested enclosing name

theorem InStep.addDeclared (h : t.InStep ix) (owner inner : String) :
    (t.addDeclared owner inner).InStep (ix.addDeclared owner inner) := by
  refine ⟨h.record?, h.order, h.size, h.nested, h.enclosing, fun name => ?_⟩
  rw [ix.declaredBy_addDeclared, ← h.declared]
  exact t.declared.row_enter owner inner name

theorem InStep.step (h : t.InStep ix) (op : NestingOperation) : (t.step op).InStep (ix.step op) := by
  cases op with
  | merge r => exact h.merge r
  | addEdge enclosing nested => exact h.addEdge enclosing nested
  | addDeclared owner inner => exact h.addDeclared owner inner

theorem inStep_run (ops : List NestingOperation) : (run ops).InStep (NestingIndex.run ops) :=
  List.foldl_rel inStep_empty fun op _ _ _ h => h.step op

/-- Everything that can be looked up in the tables is what the index answers. -/
structure Shows (t : NestingTables) (ix : NestingIndex) : Prop where
  record? : ∀ name, t.record? name = ix.record? name
  records : t.recordsInOrder = ix.records
  size : t.size = ix.records.length
  nested : ∀ e, t.nested.row e = ix.nestedOf e
  enclosing : ∀ name, t.enclosing.row name = ix.enclosingOf name
  declared : ∀ owner, t.declared.row owner = ix.declaredBy owner
  children : ∀ e, t.childrenOf e = ix.childrenOf e

theorem InStep.shows (h : t.InStep ix) (hix : ix.Consistent) : t.Shows ix where
  record? := h.record?
  records := by
    have hself := firstRecords_of_nodup hix.one_record
    rw [firstRecords, eraseDups_of_nodup hix.one_record] at hself
    rw [recordsInOrder, h.order]
    exact (List.filterMap_congr fun name _ => h.record? name).trans hself
  size := h.size
  nested := h.nested
  enclosing := h.enclosing
  declared := h.declared
  children e := by
    rw [childrenOf, h.nested, h.declared, foldl_pushNew (hix.nested_nodup e)]
    rfl

end
end NestingTables

/-- Whatever is done with an index, and in whatever order: its views are what was said, each thing once and in the order
in which it was first said, and they agree with each other. Kept as tables that are filled side by side, it shows the
same. -/
theorem run_consistent (ops : List NestingOperation) :
    (NestingIndex.run ops).Tells (ops.flatMap (·.records)) (ops.flatMap (·.edges)) (ops.flatMap (·.declared)) ∧
    (NestingIndex.run ops).Consistent ∧
    (NestingTables.run ops).Shows (NestingIndex.run ops) := by
  have htells := NestingIndex.tells_run ops
  exact ⟨htells, htells.consistent, (NestingTables.inStep_run ops).shows htells.consistent⟩

-- `app/A$C` is nested but not listed, `app/X` is listed but not nested
example :
    let ops : List NestingOperation := [.addDeclared "app/A" "app/X", .addEdge "app/A" "app/A$C",
      .addDeclared "app/A" "app/A$B", .addEdge "app/A" "app/A$B", .addEdge "app/A" "app/A$C"]
    (NestingIndex.run ops).childrenOf "app/A" = ["app/A$B", "app/A$C"] ∧
      (NestingTables.run ops).enclosing.row "app/A$C" = ["app/A"] := by
  decide +kernel

end ClassNest
